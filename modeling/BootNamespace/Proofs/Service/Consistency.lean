import BootNamespace.Proofs.Service.Sound

namespace BootNamespace

/-- The fields of a record agree with its key, with each other and with the namespace. -/
structure Connection.Consistent (ns : Namespace) (session : SessionId) (conn : Connection) :
    Prop where
  session : conn.session = session
  closed_iff : conn.state = .closed ↔ conn.file = none
  file_iff : conn.file = none ↔ conn.mode = none
  cursor : conn.state = .closed → conn.cursor = 0
  bound : ∀ id, conn.file = some id → ∃ node, ns.file? id = some node ∧ 1 ≤ node.refs ∧
    ∀ mode, conn.mode = some mode → mode ≠ .readOnly → node.access.contains mode.required

namespace Service

variable {σ : Type}

/-- The checks with which the handlers of a request guard against a broken record never fail. -/
structure Guarded [Sharing σ] (s : Service σ) (m : Message) : Prop where
  bound : s.boundConnection m.session ≠ .error (.protocol .noBoundFile)
  /-- No lookup of a bound file fails. -/
  file {conn : Connection} {id : FileId} {mode : OpenMode}
    (h : s.boundConnection m.session = .ok (conn, id, mode)) :
    s.ns.file id ≠ .error .notFound ∧
    (∀ offset max, s.ns.readAt id offset max ≠ .error .notFound) ∧
    (∀ offset bytes, (s.ns.writeAt id offset bytes).1 ≠ .error .notFound) ∧
    ∀ size, (s.ns.truncate id size).1 ≠ .error .notFound
  /-- A connection that passes the check of an open request can be bound. -/
  bind {conn : Connection} (h : s.connections.get? m.session = some conn)
    (hfree : ¬(conn.file.isSome || !conn.isClosed)) (id : FileId) (mode : OpenMode) :
    (conn.bind id mode).1 = .ok ()
  /-- Neither of the state changes of a share request fails. -/
  setState {conn : Connection} (h : s.connections.get? m.session = some conn)
    (hopen : ¬conn.isClosed) : (s.revokeStale m conn).1 = .ok () ∧ ∀ generation,
      ((s.revokeStale m conn).2.1.setState (.mapped (some generation))).1 = .ok ()
  /-- A file that is given back was open. -/
  release {conn : Connection} {id : FileId} (h : s.connections.get? m.session = some conn)
    (hfile : conn.file = some id) : ∃ left, (s.ns.closeFile id).1 = .ok left
  /-- Nor does a request on a bound file answer that one of them did. -/
  answer (op : Operation) (hop : op ≠ .list ∧ op ≠ .openFile) :
    (s.handle m op).1 ≠ .error (.protocol .noBoundFile) ∧ (s.handle m op).1 ≠ .error .notFound ∧
    ((s.handle m op).1 = .error .invalidState →
      op = .share ∧ ∃ conn, s.connections.get? m.session = some conn ∧ conn.isClosed)

variable {s : Service σ} {m : Message} {t : SessionId} {conn : Connection} {id : FileId}
variable {mode : OpenMode} {e : FsError} {held : FileId → Nat}

theorem Sound.consistent (h : s.Sound held) (hget : s.connections.get? t = some conn) :
    conn.Consistent s.ns t := by
  have hle (id : FileId) := h.holds_le hget id
  have hrecord := h.record hget
  cases hrecord with
  | closed =>
    refine ⟨rfl, by simp [Connection.new], by simp [Connection.new], fun _ ↦ rfl, fun other h ↦ ?_⟩
    cases h
  | @bound state mode cursor id node hstate hnode hmode =>
    refine ⟨rfl, by simp [hstate], by simp, fun h ↦ absurd h hstate, fun other hother ↦ ?_⟩
    cases hother
    have hrefs := hle id
    rw [Namespace.refs_of_live hnode, Connection.holds, if_pos rfl] at hrefs
    refine ⟨node, hnode, UInt32.le_iff_toNat_le.mpr hrefs, fun other hother ↦ ?_⟩
    cases hother
    exact hmode

theorem Sound.bound_live (h : s.Sound held) (hbound : s.boundConnection t = .ok (conn, id, mode)) :
    ∃ node, s.ns.file? id = some node := by
  obtain ⟨hget, hbound⟩ := boundConnection_eq_ok.mp hbound
  exact (h.record hget).live (Connection.bound_eq_ok.mp hbound).2.1

theorem Sound.boundConnection_error (h : s.Sound held) (he : s.boundConnection t = .error e) :
    e = .protocol (.noConnection t) ∨ e = .protocol .notOpen := by
  cases hget : s.connections.get? t with
  | none =>
    rw [boundConnection, connection, hget] at he
    cases he
    exact .inl rfl
  | some conn =>
    by_cases hopen : conn.state = .closed
    · rw [boundConnection_of_closed hget hopen] at he
      cases he
      exact .inr rfl
    · obtain ⟨id, mode, hbound⟩ := (h.record hget).exists_bound hopen
      rw [boundConnection_eq_ok.mpr ⟨hget, hbound⟩] at he
      cases he

/-- An error that no broken record is behind. -/
def Regular (e : FsError) : Prop :=
  e ≠ .protocol .noBoundFile ∧ e ≠ .notFound ∧ e ≠ .invalidState

theorem regular_of_boundConnection (h : s.Sound held) (he : s.boundConnection t = .error e) :
    Regular e := by
  rcases h.boundConnection_error he with rfl | rfl
  · simp [Regular]
  · simp [Regular]

theorem Sound.read_error (h : s.Sound held) (he : (s.read m).1 = .error e) : Regular e := by
  unfold read at he
  split at he
  next hbound =>
    cases he
    exact regular_of_boundConnection h hbound
  next conn id mode hbound =>
    obtain ⟨node, hlive⟩ := h.bound_live hbound
    rw [Namespace.readAt_eq hlive] at he
    split at he
    · cases he
      simp [Regular]
    · cases he

theorem Sound.write_error (h : s.Sound held) (he : (s.write m).1 = .error e) : Regular e := by
  unfold write at he
  split at he
  next hbound =>
    cases he
    exact regular_of_boundConnection h hbound
  next conn id mode hbound =>
    obtain ⟨node, hlive⟩ := h.bound_live hbound
    split at he
    · cases he
      simp [Regular]
    · rcases Namespace.writeAt_cases s.ns id conn.cursor m.payload with ⟨hdead, -⟩ | ⟨old, -, heq⟩
      · rw [hlive] at hdead
        cases hdead
      · rw [heq] at he
        cases he

theorem regular_of_seekOffset {payload : Bytes} (he : seekOffset payload = .error e) :
    Regular e := by
  unfold seekOffset at he
  split at he
  · cases he
    simp [Regular]
  · cases he

theorem regular_of_seekBase {node : FileNode} (hlive : s.ns.file? id = some node)
    (he : s.seekBase m conn id = .error e) : Regular e := by
  unfold seekBase at he
  rw [Namespace.file_eq_ok hlive] at he
  split at he
  · cases he
  · split at he
    · cases he
    · split at he
      · cases he
      · cases he
        simp [Regular]

theorem Sound.seek_error (h : s.Sound held) (he : (s.seek m).1 = .error e) : Regular e := by
  unfold seek at he
  split at he
  next hbound =>
    cases he
    exact regular_of_boundConnection h hbound
  next conn id mode hbound =>
    obtain ⟨node, hlive⟩ := h.bound_live hbound
    split at he
    next hoffset =>
      cases he
      exact regular_of_seekOffset hoffset
    next offset hoffset =>
      split at he
      next hbase =>
        cases he
        exact regular_of_seekBase hlive hbase
      next base hbase =>
        dsimp only at he
        split at he
        · cases he
          simp [Regular]
        · cases he

theorem regular_of_truncateSize {payload : Bytes} (he : truncateSize payload = .error e) :
    Regular e := by
  unfold truncateSize at he
  split at he
  · cases he
  · split at he
    · cases he
    · cases he
      simp [Regular]

theorem Sound.truncate_error (h : s.Sound held) (he : (s.truncate m).1 = .error e) : Regular e := by
  unfold truncate at he
  split at he
  next hbound =>
    cases he
    exact regular_of_boundConnection h hbound
  next conn id mode hbound =>
    obtain ⟨node, hlive⟩ := h.bound_live hbound
    split at he
    next hsize =>
      cases he
      exact regular_of_truncateSize hsize
    next size hsize =>
      split at he
      · cases he
        simp [Regular]
      · rcases Namespace.truncate_cases s.ns id size with
          ⟨hdead, -⟩ | ⟨old, e', -, heq, hkind⟩ | ⟨old, length, -, -, -, -, -, heq⟩
        · rw [hlive] at hdead
          cases hdead
        · rw [heq] at he
          cases he
          rcases hkind with rfl | rfl | rfl | rfl <;> simp [Regular]
        · rw [heq] at he
          cases he

section Shares

variable [Sharing σ]

theorem regular_of_grant (hopen : conn.state ≠ .closed) {node : FileNode}
    (he : (s.grant m conn node).1 = .error e) : Regular e := by
  rcases grant_cases s m hopen node with ⟨e', share, -, heq⟩ | ⟨share, -, heq⟩
  · rw [heq] at he
    cases he
    simp [Regular]
  · rw [heq] at he
    cases he

theorem Sound.shareFile_error (h : s.Sound held) (he : (s.shareFile m).1 = .error e) :
    Regular e ∨
      (e = .invalidState ∧ ∃ conn, s.connections.get? m.session = some conn ∧ conn.isClosed) := by
  unfold shareFile at he
  rcases hconn : s.connection m.session with e' | conn
  · have hbound : s.boundConnection m.session = .error e' := by
      rw [boundConnection, hconn]
    rw [hconn] at he
    cases he
    exact .inl (regular_of_boundConnection h hbound)
  · have hget := connection_eq_ok.mp hconn
    rw [hconn] at he
    dsimp only at he
    split at he
    next hclosed =>
      cases he
      exact .inr ⟨rfl, conn, hget, hclosed⟩
    next hopen =>
      -- From here on the connection is open, so it is bound to a live file.
      rw [Connection.isClosed_iff] at hopen
      obtain ⟨id, mode, hbound⟩ := (h.record hget).exists_bound hopen
      obtain ⟨node, hlive⟩ := h.bound_live (boundConnection_eq_ok.mpr ⟨hget, hbound⟩)
      simp only [hbound, Namespace.file_eq_ok hlive] at he
      refine .inl ?_
      split at he
      · cases he
        simp [Regular]
      · split at he
        · cases he
        · rcases revokeStale_cases s m hopen with ⟨-, hrevoke⟩ | ⟨-, hrevoke⟩
          · rw [hrevoke] at he
            exact regular_of_grant hopen he
          · rw [hrevoke] at he
            exact regular_of_grant (by simp) he

theorem close_ok (s : Service σ) (m : Message) : (s.close m).1 = .ok .ok := by
  rcases close_cases s m with ⟨-, heq⟩ | ⟨conn, -, heq⟩
  · rw [heq]
  · rw [heq]

theorem Sound.handle_error (h : s.Sound held) {op : Operation} (hop : op ≠ .list ∧ op ≠ .openFile)
    (he : (s.handle m op).1 = .error e) : Regular e ∨
      (e = .invalidState ∧ op = .share ∧
        ∃ conn, s.connections.get? m.session = some conn ∧ conn.isClosed) := by
  cases op with
  | list => exact absurd rfl hop.1
  | openFile => exact absurd rfl hop.2
  | read => exact .inl (h.read_error he)
  | write => exact .inl (h.write_error he)
  | seek => exact .inl (h.seek_error he)
  | truncate => exact .inl (h.truncate_error he)
  | close =>
    have hok := (close_ok s m).symm.trans he
    cases hok
  | share =>
    rcases h.shareFile_error he with hregular | ⟨rfl, hclosed⟩
    · exact .inl hregular
    · exact .inr ⟨rfl, rfl, hclosed⟩

theorem Sound.guarded (h : s.Sound held) (m : Message) : s.Guarded m where
  bound hbound := by
    have hregular := regular_of_boundConnection h hbound
    exact hregular.1 rfl
  file {conn id mode} hbound := by
    obtain ⟨node, hlive⟩ := h.bound_live hbound
    refine ⟨by simp [Namespace.file_eq_ok hlive], fun offset max ↦ ?_, fun offset bytes ↦ ?_,
      fun size ↦ ?_⟩
    · simp [Namespace.readAt_eq hlive]
    · rcases Namespace.writeAt_cases s.ns id offset bytes with ⟨hdead, -⟩ | ⟨old, -, heq⟩
      · rw [hlive] at hdead
        cases hdead
      · simp [heq]
    · rcases Namespace.truncate_cases s.ns id size with
        ⟨hdead, -⟩ | ⟨old, e, -, heq, hkind⟩ | ⟨old, length, -, -, -, -, -, heq⟩
      · rw [hlive] at hdead
        cases hdead
      · rw [heq]
        rcases hkind with rfl | rfl | rfl | rfl <;> simp
      · simp [heq]
  bind {conn} hget hfree id mode := by
    obtain ⟨hfile, hclosed⟩ : conn.file = none ∧ conn.state = .closed := by
      simpa [Connection.isClosed] using hfree
    rw [Connection.bind_eq hfile hclosed]
  setState {conn} hget hopen := by
    rw [Connection.isClosed_iff] at hopen
    rcases revokeStale_cases s m hopen with ⟨-, heq⟩ | ⟨-, heq⟩
    · rw [heq]
      exact ⟨rfl, fun generation ↦ by rw [Connection.setState_mapped hopen]⟩
    · rw [heq]
      exact ⟨rfl, fun generation ↦ rfl⟩
  release {conn id} hget hfile := by
    have hle := h.holds_le hget id
    rw [Connection.holds, if_pos hfile] at hle
    exact Namespace.closeFile_ok_of_refs hle
  answer op hop := by
    refine ⟨fun he ↦ ?_, fun he ↦ ?_, fun he ↦ ?_⟩
    · rcases h.handle_error hop he with hregular | ⟨he, -⟩
      · exact hregular.1 rfl
      · cases he
    · rcases h.handle_error hop he with hregular | ⟨he, -⟩
      · exact hregular.2.1 rfl
      · cases he
    · rcases h.handle_error hop he with hregular | ⟨-, hclosed⟩
      · exact absurd rfl hregular.2.2
      · exact hclosed

/-- In every state that a service comes to, whatever the grants answer, all records are consistent
and no request meets a broken one. -/
theorem consistent_and_guarded (h : s.Fresh) (events : List Event) :
    (∀ session conn, (s.run events).connections.get? session = some conn →
      conn.Consistent (s.run events).ns session) ∧
    ∀ m, (s.run events).Guarded m := by
  have hsound := h.sound.run events
  exact ⟨fun session conn hget ↦ hsound.consistent hget, hsound.guarded⟩

theorem open_record_consistent : (new .standard FaultyGrants.empty).Fresh ∧
    Connection.Consistent ((new .standard FaultyGrants.empty).run (opening ⟨7⟩ "/a")).ns ⟨7⟩
      ⟨⟨7⟩, .opened, some .readOnly, 0, some ⟨0, 0⟩⟩ ∧
    ((new .standard FaultyGrants.empty).run (opening ⟨7⟩ "/a")).Guarded (openRequest ⟨7⟩ "/a") := by
  have hfresh : (new .standard FaultyGrants.empty).Fresh := fresh_new _ _
  obtain ⟨hrecords, hguarded⟩ := consistent_and_guarded hfresh (opening ⟨7⟩ "/a")
  exact ⟨hfresh, hrecords ⟨7⟩ _ (by decide +kernel), hguarded _⟩

end Shares

end Service

end BootNamespace
