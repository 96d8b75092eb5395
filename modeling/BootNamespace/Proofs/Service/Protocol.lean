import BootNamespace.Proofs.Namespace.Intact
import BootNamespace.Proofs.Service.Calls
import BootNamespace.Proofs.Service.Consistency
import BootNamespace.Proofs.Service.Frame

namespace BootNamespace

theorem FsError.status_eq_busy {e : FsError} : e.status = Status.busy ↔ e = .busy := by
  cases e <;> simp [status, Status.busy, Status.invalid, Status.noResource, Status.access,
    Status.noMemory, Status.failed, Status.state]

theorem FsError.status_neg (e : FsError) : e.status < 0 := by
  unfold status
  split <;> decide

theorem OpenMode.canRead_iff {mode : OpenMode} :
    mode.canRead ↔ mode = .readOnly ∨ mode = .readWrite := by
  cases mode <;> simp [canRead]

theorem OpenMode.canWrite_iff {mode : OpenMode} :
    mode.canWrite ↔ mode = .writeOnly ∨ mode = .readWrite := by
  cases mode <;> simp [canWrite]

/-- The two low bits of a code are the mode. -/
theorem OpenMode.ofFlags_eq_ok_iff {code : UInt32} {mode : OpenMode} :
    ofFlags code = .ok mode ↔
      (code.toNat % 4, mode) ∈ [(0, readOnly), (1, writeOnly), (2, readWrite)] := by
  have hbits : (code &&& OpenFlags.modeMask).toNat = code.toNat % 4 := by
    rw [UInt32.toNat_and]
    exact Nat.and_two_pow_sub_one_eq_mod code.toNat 2
  simp only [ofFlags, ← UInt32.toNat_inj, hbits]
  change (if code.toNat % 4 = 0 then _ else if code.toNat % 4 = 1 then _
    else if code.toNat % 4 = 2 then _ else _) = _ ↔ _
  cases mode <;> split_ifs <;> simp [*]

namespace Namespace

variable {ns : Namespace}

theorem openFile_ne_busy (ns : Namespace) (id : FileId) (mode : OpenMode) :
    (ns.openFile id mode).1 ≠ .error .busy := by
  unfold openFile
  cases hfile : ns.file? id with
  | none => simp [file_eq_error hfile]
  | some file =>
    rw [file_eq_ok hfile]
    dsimp only
    split
    · simp
    · split
      · simp
      · simp

theorem site_error {cwd : Option DirId} {path : String} {e : FsError}
    (hsite : ns.site cwd path = .error e) :
    (∃ fault, e = .invalidPath fault) ∨ e = .resourceExhausted ∨ e = .notFound := by
  unfold site at hsite
  split at hsite
  next e' he =>
    cases hsite
    exact .inl (Path.checkCreatable_error he)
  next =>
    split at hsite
    next =>
      cases hsite
      exact .inl ⟨_, rfl⟩
    next =>
      dsimp only at hsite
      split at hsite
      · cases hsite
        exact .inl ⟨_, rfl⟩
      · split at hsite
        · cases hsite
          exact .inl ⟨_, rfl⟩
        · split at hsite
          · cases hsite
            exact .inr (.inl rfl)
          · split at hsite
            · cases hsite
              exact .inr (.inr rfl)
            · cases hsite

theorem createFile_ne_busy (ns : Namespace) (cwd : Option DirId) (path : String) (data : Bytes)
    (access : Access) : (ns.createFile cwd path data access).1 ≠ .error .busy := by
  have hends := ns.createFile_ends cwd path data access
  generalize ns.createFile cwd path data access = ended at hends ⊢
  cases hends with
  | refused hsite => rcases site_error hsite with ⟨fault, rfl⟩ | rfl | rfl <;> simp
  | tooLong => simp
  | full _ _ _ halloc => simp [allocate_error halloc]
  | done => simp

end Namespace

namespace Service

section Requests

variable {σ : Type} {s : Service σ} {m : Message} {before conn : Connection} {e : FsError}

theorem bindFile_ne_busy (hfile : conn.file = none) (hclosed : conn.state = .closed) (id : FileId)
    (mode : OpenMode) : (s.bindFile m conn id mode).1 ≠ .error .busy := by
  have hne := s.ns.openFile_ne_busy id mode
  rcases hopen : s.ns.openFile id mode with ⟨e | ⟨⟩, ns'⟩
  · rw [hopen] at hne
    rw [bindFile_error hopen]
    simpa using hne
  · rw [bindFile_ok hfile hclosed hopen]
    simp

theorem ofFlags_ne_busy (code : UInt32) : OpenMode.ofFlags code ≠ .error .busy := by
  unfold OpenMode.ofFlags
  dsimp only
  split
  · simp
  · split
    · simp
    · split <;> simp

theorem requestPath_ne_busy (m : Message) : requestPath m ≠ .error .busy := by
  unfold requestPath Path.ofPayload
  split
  next e he =>
    split at he
    · cases he
    · cases he
      simp
  next => split <;> simp

/-- No open request on a closed connection is refused for being busy. -/
theorem openFile_ne_busy (hget : s.connections.get? m.session = some conn)
    (hfile : conn.file = none) (hclosed : conn.state = .closed) :
    (s.openFile m).1 ≠ .error .busy := by
  have hguard : ¬(conn.file.isSome || !conn.isClosed) := by
    simp [hfile, Connection.isClosed, hclosed]
  unfold openFile
  rw [connection_eq_ok.mpr hget]
  dsimp only
  rw [if_neg hguard]
  split
  next e hmode =>
    rintro heq
    cases heq
    exact ofFlags_ne_busy _ hmode
  next mode hmode =>
    split
    next e hpath =>
      rintro heq
      cases heq
      exact requestPath_ne_busy m hpath
    next path hpath =>
      split
      next id hfound => exact bindFile_ne_busy hfile hclosed id mode
      next hfound =>
        split
        next => simp
        next =>
          have hcreate := s.ns.createFile_ne_busy none path [] .created
          split
          next e ns' heq =>
            rw [heq] at hcreate
            simpa using hcreate
          next id ns' heq => exact bindFile_ne_busy hfile hclosed id mode

theorem openFile_connection (h : s.ns.WellFormed)
    (hget : s.connections.get? m.session = some before) :
    (∃ e, (s.openFile m).1 = .error e ∧
      (s.openFile m).2.connections.get? m.session = some before) ∨
    ((s.openFile m).1 = .ok .ok ∧ before.state = .closed ∧ ∃ id mode,
      OpenMode.ofFlags m.header.code = .ok mode ∧
      (s.openFile m).2.connections.get? m.session = some (before.tied id mode)) := by
  rcases openFile_cases h m with ⟨e, heq⟩ | ⟨path, e, ns', -, -, heq⟩ |
    ⟨conn, path, mode, id, ns₁, ns₂, hfound, -, hclosed, hmode, -, -, -, heq⟩
  · rw [heq]
    exact .inl ⟨e, rfl, hget⟩
  · rw [heq]
    exact .inl ⟨e, rfl, hget⟩
  · cases hget.symm.trans hfound
    rw [heq]
    exact .inr ⟨rfl, hclosed, id, mode, hmode, connections_put_self⟩

end Requests

section Protocol

variable {σ : Type} [Sharing σ] {s : Service σ} {m : Message} {before after conn : Connection}
variable {e : FsError} {op : Operation} {held : FileId → Nat} {t : SessionId} {event : Event}

/-- What one request does to the record of its session and what is answered to it. -/
structure Obeys (s : Service σ) (m : Message) (before after : Connection) : Prop where
  found : s.connections.get? m.session = some before
  left : (s.answer m).2.connections.get? m.session = some after
  busy (hop : m.header.operation = some .openFile) :
    (s.answer m).1.status = Status.busy ↔ before.state ≠ .closed
  /-- The two low bits of the code tell the mode. -/
  openFile (hop : m.header.operation = some .openFile)
    (hok : (s.answer m).1.status = Status.ok) :
    before.state = .closed ∧ ∃ id mode, (m.header.code.toNat % 4, mode) ∈
        [(0, OpenMode.readOnly), (1, OpenMode.writeOnly), (2, OpenMode.readWrite)] ∧
      after = ⟨before.session, .opened, some mode, 0, some id⟩
  openRefused (hop : m.header.operation = some .openFile)
    (hno : (s.answer m).1.status ≠ Status.ok) : after = before
  ioClosed {op : Operation} (hop : m.header.operation = some op)
    (hio : op ∈ [Operation.read, .write, .seek, .truncate]) (hclosed : before.state = .closed) :
    (s.answer m).1.status = Status.failed
  /-- Such a request moves the cursor at most. -/
  io {op : Operation} (hop : m.header.operation = some op)
    (hio : op ∈ [Operation.read, .write, .seek, .truncate]) :
    after.state = before.state ∧ after.file = before.file ∧ after.mode = before.mode
  read (hop : m.header.operation = some .read) (hread : 0 ≤ (s.answer m).1.status) :
    before.mode = some .readOnly ∨ before.mode = some .readWrite
  write (hop : m.header.operation = some .write)
    (hwritten : 0 ≤ (s.answer m).1.status ∨ (s.answer m).2.ns ≠ s.ns) :
    before.mode = some .writeOnly ∨ before.mode = some .readWrite
  shareClosed (hop : m.header.operation = some .share) (hclosed : before.state = .closed) :
    (s.answer m).1.status = Status.state
  share (hop : m.header.operation = some .share) (hok : (s.answer m).1.status = Status.ok) :
    before.state ≠ .closed ∧
      ∃ generation, after = { before with state := .mapped (some generation) }
  /-- A grant that fails leaves a session that was mapped without any. -/
  shareRefused (hop : m.header.operation = some .share)
    (hno : (s.answer m).1.status ≠ Status.ok) :
    after = before ∨ ∃ generation, before.state = .mapped generation ∧
      after = { before with state := .mapped none }
  close (hop : m.header.operation = some .close) :
    (s.answer m).1.status = Status.ok ∧ after = .new m.session
  /-- A listing, and what is no operation. -/
  info (hop : m.header.operation = some .list ∨ m.header.operation = none) : (s.answer m).2 = s

theorem handle_unbound (hio : op ∈ [Operation.read, .write, .seek, .truncate])
    (hbound : s.boundConnection m.session = .error e) : s.handle m op = (.error e, s) := by
  simp only [List.mem_cons, List.not_mem_nil, or_false] at hio
  rcases hio with rfl | rfl | rfl | rfl
  · rw [handle, Service.read, hbound]
  · rw [handle, Service.write, hbound]
  · rw [handle, seek, hbound]
  · rw [handle, truncate, hbound]

/-- Requests on the open file leave the record of the session as it is, but for the cursor. -/
theorem handle_io_connection (hget : s.connections.get? m.session = some before)
    (hio : op ∈ [Operation.read, .write, .seek, .truncate]) :
    ∃ cursor, (s.handle m op).2.connections.get? m.session = some (before.moveTo cursor) := by
  have hsame : s.connections.get? m.session = some (before.moveTo before.cursor) := hget
  have hbefore {conn : Connection} {id : FileId} {mode : OpenMode}
      (hbound : s.boundConnection m.session = .ok (conn, id, mode)) : before = conn :=
    Option.some.inj (hget.symm.trans (boundConnection_eq_ok.mp hbound).1)
  simp only [List.mem_cons, List.not_mem_nil, or_false] at hio
  rcases hio with rfl | rfl | rfl | rfl
  · rw [handle]
    rcases read_cases s m with ⟨e, heq⟩ | ⟨conn, id, mode, data, hbound, -, -, heq⟩
    · exact ⟨_, by rw [heq, hsame]⟩
    · cases hbefore hbound
      rw [heq]
      exact ⟨_, connections_put_self⟩
  · rw [handle]
    rcases write_cases s m with ⟨e, heq⟩ | ⟨conn, id, mode, count, ns', hbound, -, -, heq⟩
    · exact ⟨_, by rw [heq, hsame]⟩
    · cases hbefore hbound
      rw [heq]
      exact ⟨_, connections_put_self⟩
  · rw [handle]
    rcases seek_cases s m with ⟨e, heq⟩ | ⟨conn, id, mode, _, _, cursor, hbound, -, -, -, heq⟩
    · exact ⟨_, by rw [heq, hsame]⟩
    · cases hbefore hbound
      rw [heq]
      exact ⟨_, connections_put_self⟩
  · rw [handle]
    rcases truncate_cases s m with ⟨e, heq⟩ | ⟨conn, id, mode, _, _, ns', -, -, -, -, heq⟩
    · exact ⟨_, by rw [heq, hsame]⟩
    · rw [heq]
      exact ⟨_, hsame⟩

/-- A share maps an open connection, and one that fails leaves it open or mapped as it was, at most
without a grant. -/
theorem shareFile_connection (hget : s.connections.get? m.session = some before) :
    (∃ e, (s.shareFile m).1 = .error e ∧
      ((s.shareFile m).2.connections.get? m.session = some before ∨
        ∃ generation, before.state = .mapped generation ∧
          (s.shareFile m).2.connections.get? m.session =
            some { before with state := .mapped none })) ∨
    ((s.shareFile m).1 = .ok .ok ∧ before.state ≠ .closed ∧ ∃ generation,
      (s.shareFile m).2.connections.get? m.session =
        some { before with state := .mapped (some generation) }) := by
  rcases shareFile_cases s m with ⟨e, heq⟩ | ⟨conn, id, mode, node, hbound, -, -, hstate, heq⟩ |
    ⟨conn, id, mode, node, conn', s', hbound, -, -, -, hrevoke, heq⟩
  · rw [heq]
    exact .inl ⟨e, rfl, .inl hget⟩
  · obtain ⟨hfound, -⟩ := boundConnection_eq_ok.mp hbound
    cases hget.symm.trans hfound
    have hsame : ({ before with state := .mapped (some node.bufferGeneration) } : Connection) =
        before := by rw [← hstate]
    rw [heq]
    exact .inr ⟨rfl, by simp [hstate], node.bufferGeneration, by rw [hsame, hget]⟩
  · obtain ⟨hfound, hboth⟩ := boundConnection_eq_ok.mp hbound
    cases hget.symm.trans hfound
    have hopen := (Connection.bound_eq_ok.mp hboth).1
    rw [heq]
    rcases revokeStale_cases s m hopen with ⟨-, hsame⟩ | ⟨hgranted, hstale⟩
    · rw [hsame] at hrevoke
      cases hrevoke
      rcases grant_cases s m hopen node with ⟨e, share, -, hgrant⟩ | ⟨share, -, hgrant⟩
      · rw [hgrant]
        exact .inl ⟨_, rfl, .inl hget⟩
      · rw [hgrant]
        exact .inr ⟨rfl, hopen, _, connections_put_self⟩
    · rw [hstale] at hrevoke
      cases hrevoke
      obtain ⟨generation, hmapped⟩ : ∃ generation, before.state = .mapped generation := by
        unfold Connection.isGranted at hgranted
        split at hgranted
        next generation hmapped => exact ⟨_, hmapped⟩
        all_goals cases hgranted
      have hopen' : ({ before with state := .mapped none } : Connection).state ≠ .closed := by simp
      rcases grant_cases ({ s with share := (Sharing.unshare s.share m.session).2 }.putConnection
        m.session { before with state := .mapped none }) m hopen' node with
          ⟨e, share, -, hgrant⟩ | ⟨share, -, hgrant⟩
      · rw [hgrant]
        exact .inl ⟨_, rfl, .inr ⟨generation, hmapped, connections_put_self⟩⟩
      · rw [hgrant]
        exact .inr ⟨rfl, hopen, _, connections_put_self⟩

theorem answer_status_of_error (hop : m.header.operation = some op)
    (he : (s.handle m op).1 = .error e) : (s.answer m).1.status = e.status := by
  rw [answer_known s hop, he]
  rfl

theorem answer_status_of_ok (hop : m.header.operation = some op)
    (hok : (s.handle m op).1 = .ok .ok) : (s.answer m).1.status = Status.ok := by
  rw [answer_known s hop, hok]
  rfl

theorem Sound.openFile_busy_iff (h : s.Sound held)
    (hget : s.connections.get? m.session = some before)
    (hop : m.header.operation = some .openFile) :
    (s.answer m).1.status = Status.busy ↔ before.state ≠ .closed := by
  constructor
  · intro hstatus hclosed
    have hfile := (h.consistent hget).closed_iff.mp hclosed
    rcases openFile_connection h.wellFormed hget with ⟨e, he, -⟩ | ⟨hok, -⟩
    · rw [answer_status_of_error hop he, FsError.status_eq_busy] at hstatus
      subst hstatus
      exact openFile_ne_busy hget hfile hclosed he
    · rw [answer_status_of_ok hop hok] at hstatus
      exact absurd hstatus (by decide)
  · intro hopen
    have hbusy : (s.handle m .openFile).1 = .error .busy := by
      rw [handle, Service.openFile_busy hget hopen]
    exact answer_status_of_error hop hbusy

/-- No request takes a session away. -/
theorem Sound.answer_attached (h : s.Sound held)
    (hget : s.connections.get? m.session = some before) :
    ∃ after, (s.answer m).2.connections.get? m.session = some after := by
  cases hop : m.header.operation with
  | none =>
    rw [answer_unknown s hop]
    exact ⟨before, hget⟩
  | some op =>
    rw [answer_known s hop]
    cases op with
    | list =>
      rw [handle, list_unchanged]
      exact ⟨before, hget⟩
    | openFile =>
      rcases openFile_connection h.wellFormed hget with ⟨e, -, hput⟩ | ⟨-, -, id, mode, -, hput⟩
      · exact ⟨_, hput⟩
      · exact ⟨_, hput⟩
    | close =>
      rw [handle, close_of_get? hget]
      exact ⟨_, connections_put_self⟩
    | share =>
      rcases shareFile_connection hget with
        ⟨e, -, hput | ⟨generation, -, hput⟩⟩ | ⟨-, -, generation, hput⟩
      · exact ⟨_, hput⟩
      · exact ⟨_, hput⟩
      · exact ⟨_, hput⟩
    | read | write | seek | truncate =>
      exact (handle_io_connection hget (by decide)).imp' before.moveTo fun _ hput ↦ hput

/-- Every request takes the record of its session to another by the protocol. -/
theorem Sound.obeys (h : s.Sound held) (hget : s.connections.get? m.session = some before) :
    ∃ after, s.Obeys m before after := by
  obtain ⟨after, hafter⟩ := h.answer_attached hget
  refine ⟨after, ?_⟩
  have hhandle {op : Operation} (hop : m.header.operation = some op) :
      (s.handle m op).2.connections.get? m.session = some after := by
    rwa [answer_known s hop] at hafter
  constructor
  case found => exact hget
  case left => exact hafter
  case busy => exact h.openFile_busy_iff hget
  case openFile =>
    intro hop hok
    rcases openFile_connection h.wellFormed hget with ⟨e, he, -⟩ | ⟨-, hclosed, id, mode, hmode, hput⟩
    · rw [answer_status_of_error hop he] at hok
      exact absurd hok e.status_ne_ok
    · cases hput.symm.trans (hhandle hop)
      exact ⟨hclosed, id, mode, OpenMode.ofFlags_eq_ok_iff.mp hmode, rfl⟩
  case openRefused =>
    intro hop hno
    rcases openFile_connection h.wellFormed hget with ⟨e, -, hput⟩ | ⟨hok, -⟩
    · exact Option.some.inj ((hhandle hop).symm.trans hput)
    · exact absurd (answer_status_of_ok hop hok) hno
  case ioClosed =>
    intro op hop hio hclosed
    have hunbound := handle_unbound hio (boundConnection_of_closed hget hclosed)
    exact answer_status_of_error hop (congrArg Prod.fst hunbound)
  case io =>
    intro op hop hio
    obtain ⟨cursor, hput⟩ := handle_io_connection hget hio
    cases hput.symm.trans (hhandle hop)
    exact ⟨rfl, rfl, rfl⟩
  case read =>
    intro hop hread
    rcases read_cases s m with ⟨e, heq⟩ | ⟨conn, id, mode, data, hbound, hmode, -⟩
    · rw [answer_status_of_error hop (congrArg Prod.fst heq)] at hread
      exact absurd e.status_neg (Int32.not_lt.mpr hread)
    · obtain ⟨hfound, hboth⟩ := boundConnection_eq_ok.mp hbound
      cases hget.symm.trans hfound
      rw [(Connection.bound_eq_ok.mp hboth).2.2]
      simpa using OpenMode.canRead_iff.mp hmode
  case write =>
    intro hop hwritten
    rcases write_cases s m with ⟨e, heq⟩ | ⟨conn, id, mode, count, ns', hbound, hmode, -⟩
    · rw [answer_status_of_error hop (congrArg Prod.fst heq), answer_known s hop, handle,
        heq] at hwritten
      rcases hwritten with hcount | hchanged
      · exact absurd e.status_neg (Int32.not_lt.mpr hcount)
      · exact absurd rfl hchanged
    · obtain ⟨hfound, hboth⟩ := boundConnection_eq_ok.mp hbound
      cases hget.symm.trans hfound
      rw [(Connection.bound_eq_ok.mp hboth).2.2]
      simpa using OpenMode.canWrite_iff.mp hmode
  case shareClosed =>
    intro hop hclosed
    have hstate : (s.handle m .share).1 = .error .invalidState := by
      rw [handle, shareFile, connection_eq_ok.mpr hget]
      dsimp only
      rw [if_pos (Connection.isClosed_iff.mpr hclosed)]
    exact answer_status_of_error hop hstate
  case share =>
    intro hop hok
    rcases shareFile_connection hget with ⟨e, he, -⟩ | ⟨-, hopen, generation, hput⟩
    · rw [answer_status_of_error hop he] at hok
      exact absurd hok e.status_ne_ok
    · exact ⟨hopen, generation, Option.some.inj ((hhandle hop).symm.trans hput)⟩
  case shareRefused =>
    intro hop hno
    rcases shareFile_connection hget with ⟨e, -, hput | ⟨generation, hmapped, hput⟩⟩ | ⟨hok, -⟩
    · exact .inl (Option.some.inj ((hhandle hop).symm.trans hput))
    · exact .inr ⟨generation, hmapped, Option.some.inj ((hhandle hop).symm.trans hput)⟩
    · exact absurd (answer_status_of_ok hop hok) hno
  case close =>
    intro hop
    have hput : (s.handle m .close).2.connections.get? m.session =
        some (.new before.session) := by
      rw [handle, close_of_get? hget]
      exact connections_put_self
    rw [(h.record hget).session_eq] at hput
    exact ⟨answer_status_of_ok hop (close_ok s m), Option.some.inj ((hhandle hop).symm.trans hput)⟩
  case info =>
    rintro (hop | hop)
    · rw [answer_known s hop, handle, list_unchanged]
    · rw [answer_unknown s hop]

theorem answer_detached (hget : s.connections.get? m.session = none) : (s.answer m).2 = s := by
  have hconn : s.connection m.session = .error (.protocol (.noConnection m.session)) := by
    rw [connection, hget]
  have hbound : s.boundConnection m.session = .error (.protocol (.noConnection m.session)) := by
    rw [boundConnection, hconn]
  cases hop : m.header.operation with
  | none => rw [answer_unknown s hop]
  | some op =>
    rw [answer_known s hop]
    cases op with
    | list => rw [handle, list, hconn]
    | openFile => rw [handle, Service.openFile, hconn]
    | close =>
      rw [handle]
      rcases close_cases s m with ⟨-, heq⟩ | ⟨conn, hfound, -⟩
      · rw [heq]
      · cases hget.symm.trans hfound
    | share => rw [handle, shareFile, hconn]
    | read | write | seek | truncate => rw [handle_unbound (by simp) hbound]

theorem Obeys.after_eq (h : s.Obeys m before after) (hsame : (s.answer m).2 = s) :
    after = before := by
  have hafter := h.left
  rw [hsame] at hafter
  exact Option.some.inj (hafter.symm.trans h.found)

/-- The state open is come to from closed. -/
theorem Obeys.of_opened (h : s.Obeys m before after) (hopened : after.state = .opened) :
    before.state = .opened ∨ before.state = .closed := by
  cases hop : m.header.operation with
  | none =>
    rw [h.after_eq (h.info (.inr hop))] at hopened
    exact .inl hopened
  | some op =>
    cases op with
    | list =>
      rw [h.after_eq (h.info (.inl hop))] at hopened
      exact .inl hopened
    | openFile =>
      by_cases hok : (s.answer m).1.status = Status.ok
      · exact .inr (h.openFile hop hok).1
      · rw [h.openRefused hop hok] at hopened
        exact .inl hopened
    | close =>
      rw [(h.close hop).2] at hopened
      cases hopened
    | share =>
      by_cases hok : (s.answer m).1.status = Status.ok
      · obtain ⟨-, generation, rfl⟩ := h.share hop hok
        cases hopened
      · rcases h.shareRefused hop hok with rfl | ⟨generation, -, rfl⟩
        · exact .inl hopened
        · cases hopened
    | read | write | seek | truncate =>
      exact .inl ((h.io hop (by simp)).1.symm.trans hopened)

/-- A file stays open, in its mode, until it is closed. -/
theorem Obeys.stays (h : s.Obeys m before after) (hopen : before.state ≠ .closed)
    (hop' : m.header.operation ≠ some .close) :
    after.state ≠ .closed ∧ after.file = before.file ∧ after.mode = before.mode := by
  cases hop : m.header.operation with
  | none =>
    rw [h.after_eq (h.info (.inr hop))]
    exact ⟨hopen, rfl, rfl⟩
  | some op =>
    cases op with
    | list =>
      rw [h.after_eq (h.info (.inl hop))]
      exact ⟨hopen, rfl, rfl⟩
    | openFile =>
      by_cases hok : (s.answer m).1.status = Status.ok
      · exact absurd (h.openFile hop hok).1 hopen
      · rw [h.openRefused hop hok]
        exact ⟨hopen, rfl, rfl⟩
    | close => exact absurd hop hop'
    | share =>
      by_cases hok : (s.answer m).1.status = Status.ok
      · obtain ⟨-, generation, rfl⟩ := h.share hop hok
        exact ⟨by simp, rfl, rfl⟩
      · rcases h.shareRefused hop hok with rfl | ⟨generation, -, rfl⟩
        · exact ⟨hopen, rfl, rfl⟩
        · exact ⟨by simp, rfl, rfl⟩
    | read | write | seek | truncate =>
      obtain ⟨hstate, hfile, hmode⟩ := h.io hop (by simp)
      exact ⟨hstate ▸ hopen, hfile, hmode⟩

/-- What an event can do to the record of a session. -/
inductive RecordStep (s : Service σ) (t : SessionId) :
    Event → Option Connection → Option Connection → Prop
  | same {event : Event} (record : Option Connection) : RecordStep s t event record record
  | attach : RecordStep s t (.attach t) none (some (.new t))
  | detach (conn : Connection) : RecordStep s t (.detach t) (some conn) none
  | answer {m : Message} {before after : Connection} (hsession : m.session = t)
      (h : s.Obeys m before after) : RecordStep s t (.io m) (some before) (some after)

theorem Sound.recordStep (h : s.Sound held) (event : Event) (t : SessionId) :
    s.RecordStep t event (s.connections.get? t) ((s.after event).connections.get? t) := by
  by_cases ht : t = event.session
  swap
  · rw [after_connection_of_ne h.wellFormed ht]
    exact .same _
  subst ht
  cases event with
  | attach session =>
    change s.RecordStep session (.attach session) (s.connections.get? session)
      ((s.attach session).2.connections.get? session)
    rcases attach_cases s session with ⟨conn, -, heq⟩ | ⟨hget, heq⟩
    · rw [heq]
      exact .same _
    · rw [heq, hget, connections_put_self]
      exact .attach
  | detach session =>
    change s.RecordStep session (.detach session) (s.connections.get? session)
      ((s.detach session).2.connections.get? session)
    rcases detach_cases s session with ⟨-, heq⟩ | ⟨conn, hget, heq⟩
    · rw [heq]
      exact .same _
    · have hgone : ConnectionTable.get? ⟨s.connections.bySession.erase session⟩ session = none :=
        SessionMap.get?_erase_self
      rw [heq, hget, hgone]
      exact .detach conn
  | io m =>
    change s.RecordStep m.session (.io m) (s.connections.get? m.session)
      ((s.answer m).2.connections.get? m.session)
    cases hget : s.connections.get? m.session with
    | none =>
      rw [answer_detached hget, hget]
      exact .same _
    | some before =>
      obtain ⟨after, hobeys⟩ := h.obeys hget
      rw [hobeys.left]
      exact .answer rfl hobeys

theorem Sound.after_opened (h : s.Sound held)
    (hafter : (s.after event).connections.get? t = some after) (hopened : after.state = .opened) :
    ∃ before, s.connections.get? t = some before ∧
      (before.state = .opened ∨ before.state = .closed) := by
  have hstep := h.recordStep event t
  rw [hafter] at hstep
  generalize s.connections.get? t = record at hstep
  cases hstep with
  | same => exact ⟨after, rfl, .inl hopened⟩
  | attach => cases hopened
  | answer hsession hobeys => exact ⟨_, rfl, hobeys.of_opened hopened⟩

theorem Sound.after_stays (h : s.Sound held) (hget : s.connections.get? t = some conn)
    (hopen : conn.state ≠ .closed) (hleaves : ¬Leaves t event) :
    ∃ after, (s.after event).connections.get? t = some after ∧ after.state ≠ .closed ∧
      after.file = conn.file ∧ after.mode = conn.mode := by
  have hstep := h.recordStep event t
  rw [hget] at hstep
  generalize (s.after event).connections.get? t = record at hstep
  cases hstep with
  | same => exact ⟨conn, rfl, hopen, rfl, rfl⟩
  | detach => exact absurd .detach hleaves
  | answer hsession hobeys =>
    exact ⟨_, rfl, hobeys.stays hopen fun hop ↦ hleaves (.close hsession hop)⟩

/-- A session that ends open was open at the start, or closed somewhere on the way. -/
theorem Sound.run_opened (h : s.Sound held) {events : List Event}
    (hafter : (s.run events).connections.get? t = some after) (hopened : after.state = .opened) :
    (∃ before, s.connections.get? t = some before ∧ before.state = .opened) ∨
    ∃ first, first <+: events ∧
      ∃ conn, (s.run first).connections.get? t = some conn ∧ conn.state = .closed := by
  induction events generalizing s with
  | nil => exact .inl ⟨after, hafter, hopened⟩
  | cons event events ih =>
    rcases ih (h.after event) hafter with ⟨next, hnext, hstate⟩ | ⟨first, hfirst, hclosed⟩
    · obtain ⟨before, hget, hstate | hstate⟩ := h.after_opened hnext hstate
      · exact .inl ⟨before, hget, hstate⟩
      · exact .inr ⟨[], List.nil_prefix, before, hget, hstate⟩
    · exact .inr ⟨event :: first, List.cons_prefix_cons.mpr ⟨rfl, hfirst⟩, hclosed⟩

theorem Sound.run_stays (h : s.Sound held) (hget : s.connections.get? t = some conn)
    (hopen : conn.state ≠ .closed) {events : List Event}
    (hleaves : ∀ event ∈ events, ¬Leaves t event) :
    ∃ after, (s.run events).connections.get? t = some after ∧ after.state ≠ .closed ∧
      after.file = conn.file ∧ after.mode = conn.mode := by
  induction events generalizing s conn with
  | nil => exact ⟨conn, hget, hopen, rfl, rfl⟩
  | cons event events ih =>
    obtain ⟨hhead, hrest⟩ := List.forall_mem_cons.mp hleaves
    obtain ⟨next, hnext, hstate, hfile, hmode⟩ := h.after_stays hget hopen hhead
    obtain ⟨after, hafter, hend, hfile', hmode'⟩ := ih (h.after event) hnext hstate hrest
    exact ⟨after, hafter, hend, hfile'.trans hfile, hmode'.trans hmode⟩

/-- In every state that a service comes to, whatever the grants answer, each request of an attached
session keeps to the protocol. So a mapped session comes to be open again only by way of closed, and
it keeps its file and its mode until it closes or detaches. -/
theorem protocol_obeyed (h : s.Fresh) (events : List Event) :
    (∀ m before, (s.run events).connections.get? m.session = some before →
      ∃ after, (s.run events).Obeys m before after) ∧
    ∀ t conn more, (s.run events).connections.get? t = some conn →
      (∀ generation after, conn.state = .mapped generation →
        ((s.run events).run more).connections.get? t = some after → after.state = .opened →
        ∃ first, first <+: more ∧ ∃ between,
          ((s.run events).run first).connections.get? t = some between ∧
          between.state = .closed) ∧
      (conn.state ≠ .closed → (∀ event ∈ more, ¬Leaves t event) →
        ∃ after, ((s.run events).run more).connections.get? t = some after ∧
          after.state ≠ .closed ∧ after.file = conn.file ∧ after.mode = conn.mode) := by
  have hsound := h.sound.run events
  refine ⟨fun m before hget ↦ hsound.obeys hget, fun t conn more hget ↦
    ⟨fun generation after hmapped hafter hopened ↦ ?_,
      fun hopen hleaves ↦ hsound.run_stays hget hopen hleaves⟩⟩
  rcases hsound.run_opened hafter hopened with ⟨before, hbefore, hstate⟩ | hclosed
  · cases hget.symm.trans hbefore
    rw [hmapped] at hstate
    cases hstate
  · exact hclosed

def mapping (session : SessionId) (path : String) : List Event :=
  opening session path ++ [.io (fileRequest session .share [])]

def reopening (session : SessionId) (path : String) : List Event :=
  [.io (fileRequest session .close []), .io (openRequest session path)]

theorem reopened_by_way_of_closed : (new .standard GrantTable.empty).Fresh ∧
    (∃ after, ((new .standard GrantTable.empty).run (mapping ⟨7⟩ "/a")).Obeys
      (openRequest ⟨7⟩ "/a") ⟨⟨7⟩, .mapped (some 0), some .readOnly, 0, some ⟨0, 0⟩⟩ after) ∧
    ∃ first, first <+: reopening ⟨7⟩ "/a" ∧ ∃ between,
      (((new .standard GrantTable.empty).run (mapping ⟨7⟩ "/a")).run first).connections.get? ⟨7⟩ =
        some between ∧ between.state = .closed := by
  have hfresh : (new .standard GrantTable.empty).Fresh := fresh_new _ _
  have hget : ((new .standard GrantTable.empty).run (mapping ⟨7⟩ "/a")).connections.get? ⟨7⟩ =
      some ⟨⟨7⟩, .mapped (some 0), some .readOnly, 0, some ⟨0, 0⟩⟩ := by decide +kernel
  have hagain : (((new .standard GrantTable.empty).run (mapping ⟨7⟩ "/a")).run
      (reopening ⟨7⟩ "/a")).connections.get? ⟨7⟩ =
        some ⟨⟨7⟩, .opened, some .readOnly, 0, some ⟨0, 0⟩⟩ := by decide +kernel
  obtain ⟨hobeys, hruns⟩ := protocol_obeyed hfresh (mapping ⟨7⟩ "/a")
  exact ⟨hfresh, hobeys _ _ hget, (hruns _ _ _ hget).1 _ _ rfl hagain rfl⟩

end Protocol

end Service

end BootNamespace
