import BootNamespace.Proofs.Connection
import BootNamespace.Service.Handlers

namespace BootNamespace.Service

variable {σ : Type} {s : Service σ} {m : Message} {conn : Connection} {id : FileId}
variable {mode : OpenMode} {session : SessionId} {ns' : Namespace} {e : FsError}

theorem connection_eq_ok :
    s.connection session = .ok conn ↔ s.connections.get? session = some conn := by
  unfold connection
  cases s.connections.get? session with
  | none => simp
  | some conn => simp

theorem boundConnection_eq_ok : s.boundConnection session = .ok (conn, id, mode) ↔
    s.connections.get? session = some conn ∧ conn.bound = .ok (id, mode) := by
  unfold boundConnection
  rw [← connection_eq_ok]
  cases s.connection session with
  | error e => simp
  | ok found =>
    simp only [Except.ok.injEq]
    cases hbound : found.bound with
    | error e =>
      simp only [reduceCtorEq, false_iff]
      rintro ⟨rfl, h⟩
      rw [hbound] at h
      cases h
    | ok file =>
      constructor
      · intro h
        cases h
        exact ⟨rfl, hbound⟩
      · rintro ⟨rfl, h⟩
        rw [hbound] at h
        cases h
        rfl

theorem boundConnection_of_closed (hget : s.connections.get? session = some conn)
    (hclosed : conn.state = .closed) :
    s.boundConnection session = .error (.protocol .notOpen) := by
  have hbound : conn.bound = .error (.protocol .notOpen) := by
    rw [Connection.bound, hclosed]
  rw [boundConnection, connection_eq_ok.mpr hget]
  dsimp only
  rw [hbound]

theorem list_cases (s : Service σ) (m : Message) :
    (∃ e, s.list m = (.error e, s)) ∨ ∃ payload, s.list m = (.ok (.okWith payload), s) := by
  unfold list
  split
  next => exact .inl ⟨_, rfl⟩
  next =>
    split
    next => exact .inl ⟨_, rfl⟩
    next =>
      dsimp only
      split
      next => exact .inl ⟨_, rfl⟩
      next => exact .inr ⟨_, rfl⟩

theorem list_unchanged (s : Service σ) (m : Message) : (s.list m).2 = s := by
  rcases list_cases s m with ⟨e, heq⟩ | ⟨payload, heq⟩
  · rw [heq]
  · rw [heq]

theorem read_cases (s : Service σ) (m : Message) :
    (∃ e, s.read m = (.error e, s)) ∨
    ∃ conn id mode data, s.boundConnection m.session = .ok (conn, id, mode) ∧ mode.canRead ∧
      s.ns.readAt id conn.cursor (min m.header.rbytes.toNat maxCount) = .ok data ∧
      s.read m =
        (.ok ⟨.ofNat data.length, data⟩, s.putConnection m.session (conn.advance data.length)) := by
  unfold read
  split
  next => exact .inl ⟨_, rfl⟩
  next conn id mode hbound =>
    split
    next => exact .inl ⟨_, rfl⟩
    next hread =>
      split
      next => exact .inl ⟨_, rfl⟩
      next data hdata => exact .inr ⟨conn, id, mode, data, hbound, by simpa using hread, hdata, rfl⟩

theorem write_cases (s : Service σ) (m : Message) :
    (∃ e, s.write m = (.error e, s)) ∨
    ∃ conn id mode count ns', s.boundConnection m.session = .ok (conn, id, mode) ∧ mode.canWrite ∧
      s.ns.writeAt id conn.cursor m.payload = (.ok count, ns') ∧
      s.write m = (.ok (.ofStatus (.ofNat count)),
        { s with ns := ns' }.putConnection m.session (conn.advance count)) := by
  unfold write
  split
  next => exact .inl ⟨_, rfl⟩
  next conn id mode hbound =>
    split
    next => exact .inl ⟨_, rfl⟩
    next hwrite =>
      rcases Namespace.writeAt_cases s.ns id conn.cursor m.payload with ⟨-, heq⟩ | ⟨old, -, heq⟩
      · rw [heq]
        exact .inl ⟨_, rfl⟩
      · rw [heq]
        exact .inr ⟨conn, id, mode, _, _, hbound, by simpa using hwrite, heq, rfl⟩

theorem seek_cases (s : Service σ) (m : Message) :
    (∃ e, s.seek m = (.error e, s)) ∨
    ∃ conn id mode offset base cursor, s.boundConnection m.session = .ok (conn, id, mode) ∧
      seekOffset m.payload = .ok offset ∧ s.seekBase m conn id = .ok base ∧
      (cursor.toNat : Int) = base + offset ∧
      s.seek m = (.ok (.okWith (Bytes.ofUInt64 cursor)),
        s.putConnection m.session (conn.moveTo cursor)) := by
  unfold seek
  split
  next => exact .inl ⟨_, rfl⟩
  next conn id mode hbound =>
    split
    next => exact .inl ⟨_, rfl⟩
    next offset hoffset =>
      split
      next => exact .inl ⟨_, rfl⟩
      next base hbase =>
        dsimp only
        split
        next => exact .inl ⟨_, rfl⟩
        next hrange =>
          refine .inr ⟨conn, id, mode, offset, base, _, hbound, hoffset, hbase, ?_, rfl⟩
          have hlt : ((base : Int) + offset).toNat < UInt64.size := by omega
          rw [UInt64.toNat_ofNat_of_lt' hlt]
          omega

theorem truncate_cases (s : Service σ) (m : Message) :
    (∃ e, s.truncate m = (.error e, s)) ∨
    ∃ conn id mode size length ns', s.boundConnection m.session = .ok (conn, id, mode) ∧
      truncateSize m.payload = .ok size ∧ size ≤ s.config.maxFileSize ∧
      s.ns.truncate id size = (.ok length, ns') ∧
      s.truncate m = (.ok .ok, { s with ns := ns' }) := by
  unfold truncate
  split
  next => exact .inl ⟨_, rfl⟩
  next conn id mode hbound =>
    split
    next => exact .inl ⟨_, rfl⟩
    next size hsize =>
      split
      next => exact .inl ⟨_, rfl⟩
      next hmax =>
        rcases Namespace.truncate_cases s.ns id size with
          ⟨-, heq⟩ | ⟨old, e, -, heq, -⟩ | ⟨old, length, -, -, -, -, -, heq⟩
        · rw [heq]
          exact .inl ⟨_, rfl⟩
        · rw [heq]
          exact .inl ⟨_, rfl⟩
        · rw [heq]
          exact .inr ⟨conn, id, mode, size, _, _, hbound, hsize, UInt64.not_lt.mp hmax, heq, rfl⟩

theorem truncate_file (hbound : s.boundConnection m.session = .ok (conn, id, mode))
    {old : FileNode} (hlive : s.ns.file? id = some old) (hmap : old.access.contains .map)
    {size : UInt64} (hsize : truncateSize m.payload = .ok size) (hzero : size ≠ 0)
    (hmax : size ≤ s.config.maxFileSize) {length : Nat}
    (hround : Namespace.roundUp s.ns.pageSize size.toNat = some length)
    (hlimit : length < Namespace.allocationLimit) :
    s.truncate m = (.ok .ok, { s with ns := s.ns.putFile id { old with
      data := old.data.resize length
      bufferGeneration := old.bufferGeneration + 1 } }) := by
  rw [truncate, hbound]
  dsimp only
  rw [hsize]
  dsimp only
  rw [if_neg (UInt64.not_lt.mpr hmax),
    Namespace.truncate_eq_ok hlive hmap hzero hround hlimit]

theorem bindFile_error (hopen : s.ns.openFile id mode = (.error e, ns')) :
    s.bindFile m conn id mode = (.error e, s) := by
  rcases Namespace.openFile_cases s.ns id mode with ⟨e', heq⟩ | ⟨old, -, -, -, heq⟩
  · rw [hopen] at heq
    cases heq
    unfold bindFile
    rw [hopen]
  · rw [hopen] at heq
    cases heq

theorem bindFile_ok (hfile : conn.file = none) (hclosed : conn.state = .closed)
    (hopen : s.ns.openFile id mode = (.ok (), ns')) :
    s.bindFile m conn id mode =
      (.ok .ok, { s with ns := ns' }.putConnection m.session (conn.tied id mode)) := by
  unfold bindFile
  rw [hopen, Connection.bind_eq hfile hclosed]

/-- A file made for an open request can be opened in every mode. -/
theorem openFile_of_created {ns : Namespace} {node : FileNode} (hlive : ns.file? id = some node)
    (haccess : node.access = .created) (hrefs : node.refs = 0) (mode : OpenMode) :
    ∃ ns', ns.openFile id mode = (.ok (), ns') := by
  have hallowed : node.access.contains mode.required := by
    rw [haccess]
    cases mode <;> decide
  unfold Namespace.openFile
  rw [Namespace.file_eq_ok hlive]
  simp [hallowed, hrefs, UInt32.size]

theorem openFile_cases (h : s.ns.WellFormed) (m : Message) :
    (∃ e, s.openFile m = (.error e, s)) ∨
    (∃ path e ns', m.header.code &&& OpenFlags.create ≠ 0 ∧
      s.ns.createFile none path [] .created = (.error e, ns') ∧
      s.openFile m = (.error e, { s with ns := ns' })) ∨
    ∃ conn path mode id ns₁ ns₂, s.connections.get? m.session = some conn ∧
      conn.file = none ∧ conn.state = .closed ∧
      OpenMode.ofFlags m.header.code = .ok mode ∧ requestPath m = .ok path ∧
      ((s.ns.getFile none path = some id ∧ ns₁ = s.ns) ∨
        (s.ns.getFile none path = none ∧ m.header.code &&& OpenFlags.create ≠ 0 ∧
          s.ns.createFile none path [] .created = (.ok id, ns₁))) ∧
      ns₁.openFile id mode = (.ok (), ns₂) ∧
      s.openFile m =
        (.ok .ok, { s with ns := ns₂ }.putConnection m.session (conn.tied id mode)) := by
  unfold openFile
  split
  next => exact .inl ⟨_, rfl⟩
  next conn hconn =>
    split
    next => exact .inl ⟨_, rfl⟩
    next hguard =>
      obtain ⟨hfile, hclosed⟩ : conn.file = none ∧ conn.state = .closed := by
        simpa [Connection.isClosed] using hguard
      rw [connection_eq_ok] at hconn
      split
      next => exact .inl ⟨_, rfl⟩
      next mode hmode =>
        split
        next => exact .inl ⟨_, rfl⟩
        next path hpath =>
          split
          next id hget =>
            rcases hopen : s.ns.openFile id mode with ⟨e | ⟨⟩, ns'⟩
            · exact .inl ⟨e, bindFile_error hopen⟩
            · exact .inr (.inr ⟨conn, path, mode, id, s.ns, ns', hconn, hfile, hclosed, hmode,
                hpath, .inl ⟨hget, rfl⟩, hopen, bindFile_ok hfile hclosed hopen⟩)
          next hget =>
            split
            next => exact .inl ⟨_, rfl⟩
            next hcreate =>
              split
              next e ns' heq => exact .inr (.inl ⟨path, e, ns', hcreate, heq, rfl⟩)
              next id ns' heq =>
                obtain ⟨node, hlive, haccess, hrefs⟩ :=
                  Namespace.createFile_live h (by simp) heq
                obtain ⟨ns₂, hopen⟩ := openFile_of_created hlive haccess hrefs mode
                exact .inr (.inr ⟨conn, path, mode, id, ns', ns₂, hconn, hfile, hclosed, hmode,
                  hpath, .inr ⟨hget, hcreate, heq⟩, hopen, bindFile_ok hfile hclosed hopen⟩)

theorem openFile_busy (hget : s.connections.get? m.session = some conn)
    (hopen : conn.state ≠ .closed) : s.openFile m = (.error .busy, s) := by
  have hguard : conn.file.isSome || !conn.isClosed := by simp [Connection.isClosed, hopen]
  rw [openFile, connection_eq_ok.mpr hget]
  exact if_pos hguard

section Shares

variable [Sharing σ]

/-- Once the connection is open, revoking a stale grant cannot fail. -/
theorem revokeStale_cases (s : Service σ) (m : Message) (hopen : conn.state ≠ .closed) :
    (¬conn.isGranted ∧ s.revokeStale m conn = (.ok (), conn, s)) ∨
    (conn.isGranted ∧ s.revokeStale m conn = (.ok (), { conn with state := .mapped none },
      { s with share := (Sharing.unshare s.share m.session).2 }.putConnection m.session
        { conn with state := .mapped none })) := by
  unfold revokeStale Connection.isGranted
  cases hstate : conn.state with
  | closed => exact absurd hstate hopen
  | opened => exact .inl ⟨Bool.false_ne_true, rfl⟩
  | mapped generation =>
    cases generation with
    | none => exact .inl ⟨Bool.false_ne_true, rfl⟩
    | some generation =>
      rw [Connection.setState_mapped hopen]
      exact .inr ⟨rfl, rfl⟩

theorem grant_cases (s : Service σ) (m : Message) (hopen : conn.state ≠ .closed) (node : FileNode) :
    (∃ e share, Sharing.share s.share m.session ⟨node.bufferGeneration, node.data⟩ =
        (.error e, share) ∧
      s.grant m conn node = (.error .resourceExhausted, { s with share := share })) ∨
    (∃ share, Sharing.share s.share m.session ⟨node.bufferGeneration, node.data⟩ = (.ok (), share) ∧
      s.grant m conn node = (.ok .ok, { s with share := share }.putConnection m.session
        { conn with state := .mapped (some node.bufferGeneration) })) := by
  unfold grant
  rcases hshare : Sharing.share s.share m.session ⟨node.bufferGeneration, node.data⟩ with
    ⟨e | ⟨⟩, share⟩
  · exact .inl ⟨e, share, rfl, rfl⟩
  · refine .inr ⟨share, rfl, ?_⟩
    dsimp only
    rw [Connection.setState_mapped hopen]

theorem shareFile_cases (s : Service σ) (m : Message) :
    (∃ e, s.shareFile m = (.error e, s)) ∨
    (∃ conn id mode node, s.boundConnection m.session = .ok (conn, id, mode) ∧
      s.ns.file? id = some node ∧ node.access.contains .map ∧
      conn.state = .mapped (some node.bufferGeneration) ∧ s.shareFile m = (.ok .ok, s)) ∨
    ∃ conn id mode node conn' s', s.boundConnection m.session = .ok (conn, id, mode) ∧
      s.ns.file? id = some node ∧ node.access.contains .map ∧
      conn.state ≠ .mapped (some node.bufferGeneration) ∧
      s.revokeStale m conn = (.ok (), conn', s') ∧ s.shareFile m = s'.grant m conn' node := by
  unfold shareFile
  split
  next => exact .inl ⟨_, rfl⟩
  next conn hconn =>
    rw [connection_eq_ok] at hconn
    split
    next => exact .inl ⟨_, rfl⟩
    next =>
      split
      next => exact .inl ⟨_, rfl⟩
      next id mode hbound =>
        have hopen := (Connection.bound_eq_ok.mp hbound).1
        cases hlive : s.ns.file? id with
        | none =>
          rw [Namespace.file_eq_error hlive]
          exact .inl ⟨_, rfl⟩
        | some node =>
          rw [Namespace.file_eq_ok hlive]
          dsimp only
          split
          next => exact .inl ⟨_, rfl⟩
          next hmap =>
            have hboth := boundConnection_eq_ok.mpr ⟨hconn, hbound⟩
            have hmap' : node.access.contains .map := by simpa using hmap
            split
            next hstate =>
              exact .inr (.inl ⟨conn, id, mode, node, hboth, hlive, hmap', hstate, rfl⟩)
            next hstate =>
              refine .inr (.inr ⟨conn, id, mode, node, ?_⟩)
              rcases revokeStale_cases s m hopen with ⟨-, hrevoke⟩ | ⟨-, hrevoke⟩
              · rw [hrevoke]
                exact ⟨_, _, hboth, hlive, hmap', hstate, rfl, rfl⟩
              · rw [hrevoke]
                exact ⟨_, _, hboth, hlive, hmap', hstate, rfl, rfl⟩

/-- The service once what a connection holds has been taken down. -/
def released (s : Service σ) (conn : Connection) : Service σ :=
  { s with
    ns :=
      match conn.file with
      | some id => (s.ns.closeFile id).2
      | none => s.ns
    share := if conn.isGranted then (Sharing.unshare s.share conn.session).2 else s.share }

theorem release_eq (s : Service σ) (conn : Connection) :
    release conn (s.ns, s.share) =
      (.new conn.session, (s.released conn).ns, (s.released conn).share) := by
  obtain ⟨session, state, mode, cursor, file⟩ := conn
  cases file with
  | none => rfl
  | some id => rfl

theorem close_cases (s : Service σ) (m : Message) :
    (s.connections.get? m.session = none ∧ s.close m = (.ok .ok, s)) ∨
    ∃ conn, s.connections.get? m.session = some conn ∧ s.close m =
      (.ok .ok, (s.released conn).putConnection m.session (.new conn.session)) := by
  unfold close ConnectionTable.close
  cases hget : s.connections.get? m.session with
  | none => exact .inl ⟨rfl, rfl⟩
  | some conn =>
    refine .inr ⟨conn, rfl, ?_⟩
    dsimp only
    rw [release_eq]
    rfl

theorem detach_cases (s : Service σ) (session : SessionId) :
    (s.connections.get? session = none ∧ s.detach session = (.error .notFound, s)) ∨
    ∃ conn, s.connections.get? session = some conn ∧ s.detach session = (.ok (),
      { s.released conn with connections := ⟨s.connections.bySession.erase session⟩ }) := by
  unfold detach ConnectionTable.detach
  cases hget : s.connections.get? session with
  | none => exact .inl ⟨rfl, rfl⟩
  | some conn =>
    refine .inr ⟨conn, rfl, ?_⟩
    dsimp only
    rw [release_eq]
    rfl

theorem close_of_get? (hget : s.connections.get? m.session = some conn) : s.close m =
    (.ok .ok, (s.released conn).putConnection m.session (.new conn.session)) := by
  rcases close_cases s m with ⟨hnone, -⟩ | ⟨found, hfound, heq⟩
  · rw [hget] at hnone
    cases hnone
  · cases hget.symm.trans hfound
    exact heq

theorem detach_of_get? (hget : s.connections.get? session = some conn) : s.detach session =
    (.ok (), { s.released conn with connections := ⟨s.connections.bySession.erase session⟩ }) := by
  rcases detach_cases s session with ⟨hnone, -⟩ | ⟨found, hfound, heq⟩
  · rw [hget] at hnone
    cases hnone
  · cases hget.symm.trans hfound
    exact heq

theorem answer_unknown (s : Service σ) (hop : m.header.operation = none) :
    s.answer m = (.ofStatus Status.invalid, s) := by
  unfold answer
  rw [hop]

theorem answer_known (s : Service σ) {op : Operation} (hop : m.header.operation = some op) :
    s.answer m = (.ofResult (s.handle m op).1, (s.handle m op).2) := by
  unfold answer
  rw [hop]

end Shares

theorem attach_cases (s : Service σ) (session : SessionId) :
    (∃ conn, s.connections.get? session = some conn ∧ s.attach session = (.error .busy, s)) ∨
    (s.connections.get? session = none ∧
      s.attach session = (.ok (), s.putConnection session (.new session))) := by
  unfold attach ConnectionTable.attach
  cases hget : s.connections.get? session with
  | none => exact .inr ⟨rfl, rfl⟩
  | some conn => exact .inl ⟨conn, rfl, rfl⟩

end BootNamespace.Service
