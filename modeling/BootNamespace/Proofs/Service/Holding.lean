import BootNamespace.Proofs.Service.Consistency
import BootNamespace.Proofs.Service.Coverage

namespace BootNamespace

/-- What a session with an open file has: its record, the file and its grant. -/
structure Holding where
  conn : Connection
  file : FileNode
  grant : Option Grant

/-- The session has the file open. -/
structure Holding.Opened (held : Holding) (t : SessionId) (id : FileId) (mode : OpenMode) :
    Prop where
  session : held.conn.session = t
  bound : held.conn.bound = .ok (id, mode)
  refs : held.file.refs ≠ 0

namespace Namespace

/-- What a truncation comes to depends on the file and on the page size. -/
theorem exists_truncated (pageSize : Nat) (id : FileId) (file : FileNode) (size : UInt64) :
    ∃ result file', ∀ ns : Namespace, ns.pageSize = pageSize → ns.file? id = some file →
      ns.truncate id size = (result, ns.putFile id file') := by
  by_cases hmap : file.access.contains .map
  swap
  · refine ⟨.error .accessDenied, file, fun ns _ h ↦ ?_⟩
    rw [truncate, file_eq_ok h, putFile_self h]
    simp only [hmap, Bool.not_false, if_true]
  by_cases hzero : size = 0
  · refine ⟨.error (.invalidArgument .zeroSize), file, fun ns _ h ↦ ?_⟩
    rw [truncate, file_eq_ok h, putFile_self h]
    simp only [hmap, hzero, Bool.not_true, Bool.false_eq_true, if_false, if_true]
  cases hround : roundUp pageSize size.toNat with
  | none =>
    refine ⟨.error (.invalidArgument .sizeOverflow), file, fun ns hpage h ↦ ?_⟩
    rw [truncate, file_eq_ok h, putFile_self h, hpage, hround]
    simp only [hmap, hzero, Bool.not_true, Bool.false_eq_true, if_false]
  | some length =>
    by_cases hlimit : allocationLimit ≤ length
    · refine ⟨.error .resourceExhausted, file, fun ns hpage h ↦ ?_⟩
      rw [truncate, file_eq_ok h, putFile_self h, hpage, hround]
      simp only [hmap, hzero, hlimit, Bool.not_true, Bool.false_eq_true, if_false, if_true]
    · refine ⟨.ok length, { file with
        data := file.data.resize length
        bufferGeneration := file.bufferGeneration + 1 }, fun ns hpage h ↦ ?_⟩
      subst hpage
      exact truncate_eq_ok h hmap hzero hround (Nat.lt_of_not_le hlimit)

end Namespace

namespace GrantTable

variable {grants : GrantTable} {t : SessionId}

/-- The table with this grant for the session, or with none. -/
def assign (grants : GrantTable) (t : SessionId) (grant : Option Grant) : GrantTable :=
  ⟨grants.bySession.assign t grant⟩

theorem grant?_assign (grant : Option Grant) :
    (grants.assign t grant).grant? = Function.update grants.grant? t grant :=
  SessionMap.get?_assign grant

theorem assign_grant? (grants : GrantTable) (t : SessionId) :
    grants.assign t (grants.grant? t) = grants :=
  congrArg mk (SessionMap.assign_get? grants.bySession t)

theorem assign_assign (first second : Option Grant) :
    (grants.assign t first).assign t second = grants.assign t second :=
  congrArg mk (SessionMap.assign_assign first second)

theorem share_eq (grants : GrantTable) (t : SessionId) (region : SharedRegion) :
    Sharing.share grants t region =
      (.ok (), grants.assign t (some ⟨region.generation, region.data.length⟩)) :=
  rfl

theorem unshare_eq (grants : GrantTable) (t : SessionId) :
    (Sharing.unshare grants t).2 = grants.assign t none := by
  change (grants.unshare t).2 = _
  unfold unshare
  split
  next => rfl
  next h =>
    have hsame := grants.assign_grant? t
    rw [h] at hsame
    exact hsame.symm

end GrantTable

namespace Service

variable {s : Service GrantTable} {t u : SessionId} {id other : FileId} {before : Holding}
variable {conn : Connection} {file : FileNode} {grant : Option Grant}

structure Holds (s : Service GrantTable) (t : SessionId) (id : FileId) (held : Holding) :
    Prop where
  connection : s.connections.get? t = some held.conn
  file : s.ns.file? id = some held.file
  grant : s.share.grant? t = held.grant

/-- The service once a session holds this, with the file behind the handle. -/
def hold (s : Service GrantTable) (t : SessionId) (id : FileId) (held : Holding) :
    Service GrantTable :=
  { s with
    ns := s.ns.putFile id held.file
    connections := s.connections.put t held.conn
    share := s.share.assign t held.grant }

theorem putConnection_self {σ : Type} {s : Service σ} (h : s.connections.get? t = some conn) :
    s.putConnection t conn = s := by
  rw [putConnection, ConnectionTable.put_self h]

theorem Holds.hold_grant (h : s.Holds t id before) :
    s.hold t id ⟨conn, file, before.grant⟩ =
      { s with ns := s.ns.putFile id file }.putConnection t conn := by
  rw [hold, ← h.grant, GrantTable.assign_grant?]
  rfl

theorem Holds.hold_content (h : s.Holds t id before) (file : FileNode) :
    s.hold t id { before with file := file } = { s with ns := s.ns.putFile id file } := by
  have hget : { s with ns := s.ns.putFile id file }.connections.get? t = some before.conn :=
    h.connection
  rw [h.hold_grant, putConnection_self hget]

theorem Holds.hold_file (h : s.Holds t id before) :
    s.hold t id ⟨conn, before.file, grant⟩ =
      { s with share := s.share.assign t grant }.putConnection t conn := by
  rw [hold, Namespace.putFile_self h.file]
  rfl

theorem Holds.hold_connection (h : s.Holds t id before) (conn : Connection) :
    s.hold t id { before with conn := conn } = s.putConnection t conn := by
  rw [h.hold_grant, Namespace.putFile_self h.file]

theorem Holds.hold_self (h : s.Holds t id before) : s.hold t id before = s := by
  have hsame := h.hold_connection before.conn
  rwa [putConnection_self h.connection] at hsame

theorem hold_hold (s : Service GrantTable) (t : SessionId) (id : FileId) (first second : Holding) :
    (s.hold t id first).hold t id second = s.hold t id second := by
  rw [hold, hold, hold, Namespace.putFile_putFile, GrantTable.assign_assign,
    ConnectionTable.put_put]

theorem holds_hold (hold : s.ns.file? id = some file) (held : Holding) :
    (s.hold t id held).Holds t id held where
  connection := ConnectionTable.get?_put_self
  file := Namespace.file?_putFile_self hold
  grant := by
    change (s.share.assign t held.grant).grant? t = held.grant
    rw [GrantTable.grant?_assign, Function.update_self]

variable {theirs : Holding}

/-- What a session holds is not touched by what becomes of another session with another file. -/
theorem Holds.of_hold_other (h : s.Holds t id before) (hother : s.Holds u other theirs)
    (hsession : t ≠ u) (hfile : id ≠ other) (held : Holding) :
    (s.hold u other held).Holds t id before where
  connection := (ConnectionTable.get?_put_of_ne hsession).trans h.connection
  file := by
    change (s.ns.putFile other held.file).file? id = some before.file
    rw [Namespace.file?_putFile hother.file, if_neg hfile, h.file]
  grant := by
    change (s.share.assign u held.grant).grant? t = before.grant
    rw [GrantTable.grant?_assign, Function.update_of_ne hsession, h.grant]

theorem Holds.hold_comm (h : s.Holds t id before) (hother : s.Holds u other theirs)
    (hsession : t ≠ u) (hfile : id ≠ other) (ours others : Holding) :
    (s.hold t id ours).hold u other others = (s.hold u other others).hold t id ours := by
  have hns := Namespace.putFile_comm h.file hother.file hfile.symm ours.file others.file
  have hconnections := s.connections.put_comm hsession ours.conn others.conn
  have hshare : (s.share.assign t ours.grant).assign u others.grant =
      (s.share.assign u others.grant).assign t ours.grant :=
    congrArg GrantTable.mk (SessionMap.assign_comm hsession _ _)
  rw [hold, hold, hold, hold]
  dsimp only
  rw [hns, hconnections, hshare]

theorem Sound.holds {held : FileId → Nat} (h : s.Sound held)
    (hget : s.connections.get? t = some conn) (hfile : conn.file = some id) :
    ∃ before mode, s.Holds t id before ∧ before.Opened t id mode := by
  have hconsistent := h.consistent hget
  obtain ⟨node, hnode, hrefs, -⟩ := hconsistent.bound id hfile
  have hopen : conn.state ≠ .closed := by
    rw [ne_eq, hconsistent.closed_iff, hfile]
    simp
  obtain ⟨other, mode, hbound⟩ := (h.record hget).exists_bound hopen
  obtain rfl : id = other :=
    Option.some.inj (hfile.symm.trans (Connection.bound_eq_ok.mp hbound).2.1)
  refine ⟨⟨conn, node, s.share.grant? t⟩, mode, ⟨hget, hnode, rfl⟩, hconsistent.session, hbound, ?_⟩
  rintro hzero
  dsimp only at hzero
  rw [hzero] at hrefs
  exact absurd hrefs (by decide)

section Confined

variable {m : Message} {op : Operation} {config : ServerConfig} {pageSize : Nat} {mode : OpenMode}

/-- Whatever else the service has, the request is answered so, and afterwards its session holds this
and nothing else has changed. -/
def Confined (op : Operation) (config : ServerConfig) (pageSize : Nat) (m : Message) (id : FileId)
    (before : Holding) (result : Except FsError Reply) (after : Holding) : Prop :=
  ∀ s : Service GrantTable, s.config = config → s.ns.pageSize = pageSize →
    s.Holds m.session id before → s.handle m op = (result, s.hold m.session id after)

variable {result : Except FsError Reply}

theorem Confined.unchanged
    (h : ∀ s : Service GrantTable, s.config = config → s.ns.pageSize = pageSize →
      s.Holds m.session id before → s.handle m op = (result, s)) :
    Confined op config pageSize m id before result before := by
  intro s hconfig hpage hholds
  rw [h s hconfig hpage hholds, hholds.hold_self]

theorem Holds.bound (h : s.Holds t id before) (hbound : before.conn.bound = .ok (id, mode)) :
    s.boundConnection t = .ok (before.conn, id, mode) :=
  boundConnection_eq_ok.mpr ⟨h.connection, hbound⟩

theorem read_confined (hbound : before.conn.bound = .ok (id, mode)) : ∃ result cursor,
    Confined .read config pageSize m id before result
      { before with conn := before.conn.moveTo cursor } := by
  by_cases hmode : mode.canRead
  · obtain ⟨data, hdata⟩ : ∃ data, data = before.file.data.read before.conn.cursor.toNat
      (min m.header.rbytes.toNat maxCount) := ⟨_, rfl⟩
    refine ⟨.ok ⟨.ofNat data.length, data⟩, (before.conn.advance data.length).cursor,
      fun s _ _ h ↦ ?_⟩
    rw [handle, read, h.bound hbound]
    dsimp only
    rw [Namespace.readAt_eq h.file, h.hold_connection, hmode, ← hdata]
    rfl
  · refine ⟨.error .accessDenied, before.conn.cursor, .unchanged fun s _ _ h ↦ ?_⟩
    rw [handle, read, h.bound hbound]
    simp only [hmode, Bool.not_false, if_true]

theorem write_confined (hbound : before.conn.bound = .ok (id, mode)) : ∃ result after,
    Confined .write config pageSize m id before result after := by
  by_cases hmode : mode.canWrite
  · obtain ⟨count, hcount⟩ : ∃ count, count =
      min m.payload.length (before.file.size - before.conn.cursor.toNat) := ⟨_, rfl⟩
    refine ⟨.ok (.ofStatus (.ofNat count)), ⟨before.conn.advance count,
      { before.file with data := before.file.data.overwrite before.conn.cursor.toNat m.payload },
      before.grant⟩, fun s _ _ h ↦ ?_⟩
    rw [handle, write, h.bound hbound, h.hold_grant]
    dsimp only
    rw [Namespace.writeAt, Namespace.file_eq_ok h.file, hmode, hcount]
    rfl
  · refine ⟨.error .accessDenied, before, .unchanged fun s _ _ h ↦ ?_⟩
    rw [handle, write, h.bound hbound]
    simp only [hmode, Bool.not_false, if_true]

/-- Where a seek counts from is one place for all services in which the session holds this. -/
theorem exists_seekBase (m : Message) (id : FileId) (before : Holding) :
    ∃ base, ∀ s : Service GrantTable, s.Holds m.session id before →
      s.seekBase m before.conn id = base := by
  refine ⟨if m.header.code = Whence.start then .ok 0
    else if m.header.code = Whence.current then .ok before.conn.cursor.toNat
    else if m.header.code = Whence.fileEnd then .ok before.file.size
    else .error (.invalidArgument (.unknownSeekMode m.header.code)), fun s h ↦ ?_⟩
  rw [seekBase, Namespace.file_eq_ok h.file]

theorem seek_confined (hbound : before.conn.bound = .ok (id, mode)) : ∃ result cursor,
    Confined .seek config pageSize m id before result
      { before with conn := before.conn.moveTo cursor } := by
  obtain ⟨base, hbase⟩ := exists_seekBase m id before
  cases hoffset : seekOffset m.payload with
  | error e =>
    refine ⟨.error e, before.conn.cursor, .unchanged fun s _ _ h ↦ ?_⟩
    rw [handle, seek, h.bound hbound]
    dsimp only
    rw [hoffset]
  | ok offset =>
    cases base with
    | error e =>
      refine ⟨.error e, before.conn.cursor, .unchanged fun s _ _ h ↦ ?_⟩
      rw [handle, seek, h.bound hbound]
      dsimp only
      rw [hoffset]
      dsimp only
      rw [hbase s h]
    | ok base =>
      by_cases hrange : (base : Int) + offset < 0 ∨ UInt64.size ≤ (base : Int) + offset
      · refine ⟨.error (.invalidArgument .seekOutOfRange), before.conn.cursor,
          .unchanged fun s _ _ h ↦ ?_⟩
        rw [handle, seek, h.bound hbound]
        dsimp only
        rw [hoffset]
        dsimp only
        rw [hbase s h]
        exact if_pos hrange
      · refine ⟨.ok (.okWith (Bytes.ofUInt64 (UInt64.ofNat ((base : Int) + offset).toNat))),
          UInt64.ofNat ((base : Int) + offset).toNat, fun s _ _ h ↦ ?_⟩
        rw [handle, seek, h.bound hbound, h.hold_connection]
        dsimp only
        rw [hoffset]
        dsimp only
        rw [hbase s h]
        exact if_neg hrange

theorem truncate_confined (hbound : before.conn.bound = .ok (id, mode)) : ∃ result after,
    Confined .truncate config pageSize m id before result after := by
  cases hsize : truncateSize m.payload with
  | error e =>
    refine ⟨.error e, before, .unchanged fun s _ _ h ↦ ?_⟩
    rw [handle, truncate, h.bound hbound]
    dsimp only
    rw [hsize]
  | ok size =>
    by_cases hmax : config.maxFileSize < size
    · refine ⟨.error .resourceExhausted, before, .unchanged fun s hconfig _ h ↦ ?_⟩
      rw [handle, truncate, h.bound hbound, hconfig]
      dsimp only
      rw [hsize]
      exact if_pos hmax
    · obtain ⟨result, file, htruncated⟩ :=
        Namespace.exists_truncated pageSize id before.file size
      refine ⟨result.map fun _ ↦ .ok, { before with file := file }, fun s hconfig hpage h ↦ ?_⟩
      rw [← hconfig] at hmax
      rw [handle, truncate, h.bound hbound, h.hold_content]
      dsimp only
      rw [hsize]
      dsimp only
      rw [if_neg hmax, htruncated s.ns hpage h.file]
      cases result with
      | error e => rfl
      | ok length => rfl

theorem grant_eq (s : Service GrantTable) (m : Message) (hopen : conn.state ≠ .closed)
    (node : FileNode) : s.grant m conn node =
      (.ok .ok, { s with
        share := s.share.assign m.session (some ⟨node.bufferGeneration, node.size⟩)
      }.putConnection m.session { conn with state := .mapped (some node.bufferGeneration) }) := by
  rw [grant, GrantTable.share_eq]
  dsimp only
  rw [Connection.setState_mapped hopen]
  rfl

/-- A grant of a buffer of this process is never refused, so a share that is allowed leaves one. -/
theorem share_confined (hbound : before.conn.bound = .ok (id, mode)) : ∃ result after,
    Confined .share config pageSize m id before result after ∧
      (after = before ∨ ∃ generation grant, after =
        ⟨{ before.conn with state := .mapped (some generation) }, before.file, some grant⟩) := by
  have hopen := (Connection.bound_eq_ok.mp hbound).1
  have hclosed : ¬before.conn.isClosed := fun h ↦ hopen (Connection.isClosed_iff.mp h)
  by_cases hmap : before.file.access.contains .map
  swap
  · refine ⟨.error .accessDenied, before, .unchanged fun s _ _ h ↦ ?_, .inl rfl⟩
    rw [handle, shareFile, connection_eq_ok.mpr h.connection]
    dsimp only
    rw [if_neg hclosed, hbound]
    dsimp only
    rw [Namespace.file_eq_ok h.file]
    simp only [hmap, Bool.not_false, if_true]
  by_cases hstate : before.conn.state = .mapped (some before.file.bufferGeneration)
  · refine ⟨.ok .ok, before, .unchanged fun s _ _ h ↦ ?_, .inl rfl⟩
    rw [handle, shareFile_eq_self (h.bound hbound) h.file hmap hstate]
  · refine ⟨.ok .ok, _, fun s _ _ h ↦ ?_,
      .inr ⟨before.file.bufferGeneration, ⟨before.file.bufferGeneration, before.file.size⟩, rfl⟩⟩
    have hnot : ¬(!before.file.access.contains .map) := by simp [hmap]
    rw [handle, shareFile, connection_eq_ok.mpr h.connection, h.hold_file]
    dsimp only
    rw [if_neg hclosed, hbound]
    dsimp only
    rw [Namespace.file_eq_ok h.file]
    dsimp only
    rw [if_neg hnot, if_neg hstate]
    rcases revokeStale_cases s m hopen with ⟨-, heq⟩ | ⟨-, heq⟩
    · rw [heq]
      exact grant_eq s m hopen before.file
    · rw [heq]
      dsimp only
      rw [grant_eq _ m (by simp)]
      simp only [putConnection, GrantTable.unshare_eq, GrantTable.assign_assign,
        ConnectionTable.put_put]

theorem close_confined (hopened : before.Opened m.session id mode) :
    Confined .close config pageSize m id before (.ok .ok)
      ⟨.new m.session, { before.file with refs := before.file.refs - 1 },
        if before.conn.isGranted then none else before.grant⟩ := by
  intro s _ _ h
  have hfile := (Connection.bound_eq_ok.mp hopened.bound).2.1
  have hns : (s.ns.closeFile id).2 =
      s.ns.putFile id { before.file with refs := before.file.refs - 1 } := by
    rw [Namespace.closeFile, Namespace.file_eq_ok h.file]
    dsimp only
    rw [if_neg hopened.refs]
  have hshare : (if before.conn.isGranted then
      (Sharing.unshare s.share before.conn.session).2 else s.share) =
        s.share.assign m.session (if before.conn.isGranted then none else before.grant) := by
    rw [hopened.session, GrantTable.unshare_eq]
    split
    next => rfl
    next => rw [← h.grant, GrantTable.assign_grant?]
  rw [handle, close_of_get? h.connection, hopened.session, released, hfile, hshare, hold]
  dsimp only
  rw [hns]
  rfl

end Confined

end Service

end BootNamespace
