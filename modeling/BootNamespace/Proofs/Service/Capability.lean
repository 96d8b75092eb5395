import BootNamespace.Proofs.Service.Moves

namespace BootNamespace

variable {σ τ : Type}

/-- A map of capabilities under which every call is answered alike. -/
structure Sharing.Hom [Sharing σ] [Sharing τ] (f : σ → τ) : Prop where
  share (grants : σ) (t : SessionId) (region : SharedRegion) :
    Sharing.share (f grants) t region = Prod.map id f (Sharing.share grants t region)
  unshare (grants : σ) (t : SessionId) :
    Sharing.unshare (f grants) t = Prod.map id f (Sharing.unshare grants t)

namespace Service

/-- The same service over another capability. -/
def mapShare (f : σ → τ) (s : Service σ) : Service τ :=
  ⟨s.config, s.ns, s.connections, f s.share, s.image, s.report⟩

variable (f : σ → τ) (s : Service σ) (m : Message) (session : SessionId)

@[simp] theorem mapShare_config : (s.mapShare f).config = s.config := rfl

@[simp] theorem mapShare_ns : (s.mapShare f).ns = s.ns := rfl

@[simp] theorem mapShare_connections : (s.mapShare f).connections = s.connections := rfl

@[simp] theorem mapShare_share : (s.mapShare f).share = f s.share := rfl

@[simp] theorem connection_mapShare :
    (s.mapShare f).connection session = s.connection session := rfl

@[simp] theorem boundConnection_mapShare :
    (s.mapShare f).boundConnection session = s.boundConnection session := rfl

theorem list_mapShare : (s.mapShare f).list m = Prod.map id (mapShare f) (s.list m) := by
  unfold list
  simp only [connection_mapShare, mapShare_ns, mapShare_config]
  split
  · rfl
  · split
    · rfl
    · split
      · rfl
      · rfl

theorem bindFile_mapShare (conn : Connection) (file : FileId) (mode : OpenMode) :
    (s.mapShare f).bindFile m conn file mode =
      Prod.map id (mapShare f) (s.bindFile m conn file mode) := by
  unfold bindFile
  simp only [mapShare_ns]
  split
  · rfl
  · split
    · rfl
    · split
      · rfl
      · rfl

theorem openFile_mapShare :
    (s.mapShare f).openFile m = Prod.map id (mapShare f) (s.openFile m) := by
  unfold openFile
  simp only [connection_mapShare, mapShare_ns]
  split
  · rfl
  · split
    · rfl
    · split
      · rfl
      · split
        · rfl
        · split
          · exact bindFile_mapShare f s m _ _ _
          · split
            · rfl
            · split
              · rfl
              next id ns' _ => exact bindFile_mapShare f { s with ns := ns' } m _ _ _

theorem read_mapShare : (s.mapShare f).read m = Prod.map id (mapShare f) (s.read m) := by
  unfold read
  simp only [boundConnection_mapShare, mapShare_ns]
  split
  · rfl
  · split
    · rfl
    · split
      · rfl
      · rfl

theorem write_mapShare : (s.mapShare f).write m = Prod.map id (mapShare f) (s.write m) := by
  unfold write
  simp only [boundConnection_mapShare, mapShare_ns]
  split
  · rfl
  · split
    · rfl
    · split
      · rfl
      · rfl

theorem seek_mapShare : (s.mapShare f).seek m = Prod.map id (mapShare f) (s.seek m) := by
  unfold seek
  simp only [boundConnection_mapShare]
  split
  · rfl
  next conn file _ _ =>
    have hbase : (s.mapShare f).seekBase m conn file = s.seekBase m conn file := rfl
    rw [hbase]
    split
    · rfl
    · split
      · rfl
      · split
        · rfl
        · rfl

theorem truncate_mapShare :
    (s.mapShare f).truncate m = Prod.map id (mapShare f) (s.truncate m) := by
  unfold truncate
  simp only [boundConnection_mapShare, mapShare_ns]
  rw [mapShare_config]
  split
  · rfl
  · split
    · rfl
    · split
      · rfl
      · split
        · rfl
        · rfl

theorem attach_mapShare :
    (s.mapShare f).attach session = Prod.map id (mapShare f) (s.attach session) := rfl

variable {f} [Sharing σ] [Sharing τ]

theorem revokeStale_mapShare (hf : Sharing.Hom f) (conn : Connection) :
    (s.mapShare f).revokeStale m conn =
      Prod.map id (Prod.map id (mapShare f)) (s.revokeStale m conn) := by
  unfold revokeStale
  split
  · simp only [mapShare_share, hf.unshare]
    rfl
  · rfl
  · rfl
  · rfl

theorem grant_mapShare (hf : Sharing.Hom f) (conn : Connection) (node : FileNode) :
    (s.mapShare f).grant m conn node = Prod.map id (mapShare f) (s.grant m conn node) := by
  unfold grant
  simp only [mapShare_share, hf.share]
  rcases Sharing.share s.share m.session ⟨node.bufferGeneration, node.data⟩ with ⟨e | ⟨⟩, share⟩
  · rfl
  · rcases conn.setState (.mapped (some node.bufferGeneration)) with ⟨e | ⟨⟩, conn'⟩
    · rfl
    · rfl

theorem shareFile_mapShare (hf : Sharing.Hom f) :
    (s.mapShare f).shareFile m = Prod.map id (mapShare f) (s.shareFile m) := by
  unfold shareFile
  simp only [connection_mapShare, mapShare_ns]
  split
  · rfl
  next conn _ =>
    split
    · rfl
    · split
      · rfl
      · split
        · rfl
        next node _ =>
          split
          · rfl
          · split
            · rfl
            · rw [revokeStale_mapShare s m hf]
              rcases s.revokeStale m conn with ⟨e | ⟨⟩, conn', s'⟩
              · rfl
              · exact grant_mapShare s' m hf conn' node

theorem release_mapShare (hf : Sharing.Hom f) (conn : Connection) (ns : Namespace) (share : σ) :
    release conn (ns, f share) = Prod.map id (Prod.map id f) (release conn (ns, share)) := by
  unfold release
  simp only [hf.unshare]
  cases conn.isGranted with
  | false => split <;> rfl
  | true => split <;> rfl

theorem close_mapShare (hf : Sharing.Hom f) :
    (s.mapShare f).close m = Prod.map id (mapShare f) (s.close m) := by
  unfold close ConnectionTable.close
  simp only [mapShare_connections, mapShare_ns, mapShare_share]
  split
  · rfl
  next conn _ =>
    rw [release_mapShare hf]
    rfl

theorem detach_mapShare (hf : Sharing.Hom f) :
    (s.mapShare f).detach session = Prod.map id (mapShare f) (s.detach session) := by
  unfold detach ConnectionTable.detach
  simp only [mapShare_connections, mapShare_ns, mapShare_share]
  split
  · rfl
  next conn _ =>
    rw [release_mapShare hf]
    rfl

theorem handle_mapShare (hf : Sharing.Hom f) (op : Operation) :
    (s.mapShare f).handle m op = Prod.map id (mapShare f) (s.handle m op) := by
  cases op with
  | list => exact list_mapShare f s m
  | read => exact read_mapShare f s m
  | write => exact write_mapShare f s m
  | openFile => exact openFile_mapShare f s m
  | close => exact close_mapShare s m hf
  | share => exact shareFile_mapShare s m hf
  | seek => exact seek_mapShare f s m
  | truncate => exact truncate_mapShare f s m

theorem answer_mapShare (hf : Sharing.Hom f) :
    (s.mapShare f).answer m = Prod.map id (mapShare f) (s.answer m) := by
  unfold answer
  split
  · rfl
  next op _ =>
    rw [handle_mapShare s m hf]
    rfl

theorem after_mapShare (hf : Sharing.Hom f) (event : Event) :
    (s.mapShare f).after event = (s.after event).mapShare f := by
  cases event with
  | attach session => exact congrArg Prod.snd (attach_mapShare f s session)
  | detach session => exact congrArg Prod.snd (detach_mapShare s session hf)
  | io m => exact congrArg Prod.snd (answer_mapShare s m hf)

/-- What a service does depends on the answers of its capability and on nothing else in it. -/
theorem run_mapShare (hf : Sharing.Hom f) (events : List Event) :
    (s.mapShare f).run events = (s.run events).mapShare f := by
  induction events generalizing s with
  | nil => rfl
  | cons event events ih =>
    change ((s.mapShare f).after event).run events = ((s.after event).run events).mapShare f
    rw [after_mapShare s hf, ih]

end Service

end BootNamespace
