import BootNamespace.Proofs.Service.Holding

namespace BootNamespace

/-- The request neither writes nor truncates, and opens only what is there. -/
structure Message.OnlyReads (m : Message) : Prop where
  write : m.header.operation ≠ some .write
  truncate : m.header.operation ≠ some .truncate
  create : m.header.operation = some .openFile → m.header.code &&& OpenFlags.create = 0

namespace Service

section Detach

variable {σ : Type} [Sharing σ]

/-- To detach is to close and then to go. -/
theorem detach_close (s : Service σ) (m : Message) :
    ((s.close m).2.detach m.session).2 = (s.detach m.session).2 := by
  rcases close_cases s m with ⟨-, heq⟩ | ⟨conn, hget, heq⟩
  · rw [heq]
  · have hclosed : ((s.released conn).putConnection m.session (.new conn.session)).connections.get?
        m.session = some (.new conn.session) := connections_put_self
    have herase := s.connections.erase_put m.session (.new conn.session)
    rw [heq, detach_of_get? hget, detach_of_get? hclosed]
    change ({ s.released conn with connections := _ } : Service σ) = _
    exact congrArg (fun table ↦ ({ s.released conn with connections := table } : Service σ)) herase

end Detach

variable {base s : Service GrantTable} {t : SessionId} {m : Message} {id : FileId}
variable {held : Holding} {mode : OpenMode} {old : FileNode} {op : Operation}

/-- What a session has taken: one reference to the file and, if its record says so, a grant. -/
structure Borrows (base : Service GrantTable) (t : SessionId) (id : FileId) (held : Holding) :
    Prop where
  file : ∃ old, base.ns.file? id = some old ∧ held.file = { old with refs := old.refs + 1 }
  opened : ∃ mode, held.Opened t id mode
  grant : ¬held.conn.isGranted → held.grant = none

/-- How things stand while a session is there that only reads: it has no file open, or it has one,
and all else is as it was. -/
inductive Visiting (base : Service GrantTable) (t : SessionId) : Service GrantTable → Prop
  | closed : Visiting base t (base.putConnection t (.new t))
  | opened {id : FileId} {held : Holding} (h : base.Borrows t id held) :
      Visiting base t (base.hold t id held)

theorem hold_unchanged (hlive : base.ns.file? id = some old) (hgrant : base.share.grant? t = none)
    (conn : Connection) : base.hold t id ⟨conn, old, none⟩ = base.putConnection t conn := by
  rw [hold, ← hgrant, GrantTable.assign_grant?, Namespace.putFile_self hlive]
  rfl

/-- Nothing comes of opening a file to read it, or the session then borrows the file of its path. -/
theorem openFile_borrows (hns : base.ns.WellFormed) (hgrant : base.share.grant? m.session = none)
    (hcreate : m.header.code &&& OpenFlags.create = 0) :
    (∃ e, (base.putConnection m.session (.new m.session)).openFile m =
      (.error e, base.putConnection m.session (.new m.session))) ∨
    ∃ path id mode old held, OpenMode.ofFlags m.header.code = .ok mode ∧
      requestPath m = .ok path ∧ base.ns.getFile none path = some id ∧
      base.ns.file? id = some old ∧ held = ⟨(Connection.new m.session).tied id mode,
        { old with refs := old.refs + 1 }, none⟩ ∧
      base.Borrows m.session id held ∧
      (base.putConnection m.session (.new m.session)).openFile m =
        (.ok .ok, base.hold m.session id held) := by
  have hns' : (base.putConnection m.session (.new m.session)).ns.WellFormed := hns
  rcases openFile_cases hns' m with ⟨e, heq⟩ | ⟨path, e, ns', hflag, -⟩ |
    ⟨conn, path, mode, id, ns₁, ns₂, hget, -, -, hmode, hpath, hwhere, hopen, heq⟩
  · exact .inl ⟨e, heq⟩
  · exact absurd hcreate hflag
  · cases connections_put_self.symm.trans hget
    rcases hwhere with ⟨hfound, rfl⟩ | ⟨-, hflag, -⟩
    swap
    · exact absurd hcreate hflag
    rcases Namespace.openFile_cases base.ns id mode with ⟨e, hrefused⟩ |
      ⟨old, hlive, -, hroom, hopened⟩
    · cases hopen.symm.trans hrefused
    · cases hopen.symm.trans hopened
      have hrefs : old.refs + 1 ≠ 0 := by
        intro hzero
        have htoNat := congrArg UInt32.toNat hzero
        rw [UInt32.toNat_add, UInt32.toNat_one, Nat.mod_eq_of_lt hroom] at htoNat
        cases htoNat
      refine .inr ⟨path, id, mode, old, _, hmode, hpath, hfound, hlive, rfl,
        ⟨⟨old, hlive, rfl⟩, ⟨mode, rfl, rfl, hrefs⟩, fun _ ↦ rfl⟩, ?_⟩
      rw [heq, hold, ← hgrant, GrantTable.assign_grant?]
      dsimp only
      rw [← base.connections.put_put m.session (.new m.session)]
      rfl

/-- A file is opened with one more reference. -/
theorem visiting_openFile (hns : base.ns.WellFormed) (hgrant : base.share.grant? m.session = none)
    (hcreate : m.header.code &&& OpenFlags.create = 0) :
    Visiting base m.session
      ((base.putConnection m.session (.new m.session)).openFile m).2 := by
  rcases openFile_borrows hns hgrant hcreate with
    ⟨e, heq⟩ | ⟨path, id, mode, old, held, -, -, -, -, -, hborrows, heq⟩
  · rw [heq]
    exact .closed
  · rw [heq]
    exact .opened hborrows

theorem visiting_handle_closed (hns : base.ns.WellFormed)
    (hgrant : base.share.grant? m.session = none) (hm : m.OnlyReads)
    (hop : m.header.operation = some op) : Visiting base m.session
      ((base.putConnection m.session (.new m.session)).handle m op).2 := by
  cases op with
  | list =>
    rw [handle, list_unchanged]
    exact .closed
  | openFile => exact visiting_openFile hns hgrant (hm.create hop)
  | close =>
    rw [handle, close_of_get? connections_put_self]
    change Visiting base m.session ((base.putConnection m.session (.new m.session)).putConnection
      m.session (.new m.session))
    rw [putConnection_self connections_put_self]
    exact .closed
  | read =>
    rw [handle, read, boundConnection_of_closed connections_put_self rfl]
    exact .closed
  | write => exact absurd hop hm.write
  | seek =>
    rw [handle, seek, boundConnection_of_closed connections_put_self rfl]
    exact .closed
  | truncate => exact absurd hop hm.truncate
  | share =>
    rw [handle, shareFile, connection_eq_ok.mpr connections_put_self]
    exact .closed

/-- Closing gives it back. -/
theorem Borrows.close (h : base.Borrows m.session id held)
    (hgrant : base.share.grant? m.session = none) :
    ((base.hold m.session id held).close m).2 = base.putConnection m.session (.new m.session) := by
  obtain ⟨old, hlive, hfile⟩ := h.file
  obtain ⟨mode, hopened⟩ := h.opened
  have hclosed := close_confined hopened _ rfl rfl (holds_hold hlive held)
  have hback : ({ held.file with refs := held.file.refs - 1 } : FileNode) = old := by
    rw [hfile]
    simp
  have hnone : (if held.conn.isGranted then none else held.grant) = none := by
    split
    next => rfl
    next hgranted => exact h.grant hgranted
  rw [hback, hnone, hold_hold, hold_unchanged hlive hgrant] at hclosed
  exact congrArg Prod.snd hclosed

theorem Borrows.handle (h : base.Borrows m.session id held)
    (hgrant : base.share.grant? m.session = none) (hm : m.OnlyReads)
    (hop : m.header.operation = some op) :
    Visiting base m.session ((base.hold m.session id held).handle m op).2 := by
  obtain ⟨old, hlive, -⟩ := h.file
  obtain ⟨mode, hopened⟩ := h.opened
  have hholds := holds_hold (t := m.session) hlive held
  cases op with
  | list =>
    rw [Service.handle, list_unchanged]
    exact .opened h
  | openFile =>
    rw [Service.handle, openFile_busy hholds.connection (Connection.bound_eq_ok.mp hopened.bound).1]
    exact .opened h
  | close =>
    rw [Service.handle, h.close hgrant]
    exact .closed
  | read =>
    obtain ⟨result, cursor, hread⟩ := read_confined hopened.bound
    rw [hread (base.hold m.session id held) rfl rfl hholds, hold_hold]
    exact .opened ⟨h.file, ⟨mode, hopened.session, hopened.bound, hopened.refs⟩, h.grant⟩
  | write => exact absurd hop hm.write
  | seek =>
    obtain ⟨result, cursor, hseek⟩ := seek_confined hopened.bound
    rw [hseek (base.hold m.session id held) rfl rfl hholds, hold_hold]
    exact .opened ⟨h.file, ⟨mode, hopened.session, hopened.bound, hopened.refs⟩, h.grant⟩
  | truncate => exact absurd hop hm.truncate
  | share =>
    obtain ⟨result, after, hshare, hafter⟩ := share_confined hopened.bound
    rw [hshare (base.hold m.session id held) rfl rfl hholds, hold_hold]
    rcases hafter with rfl | ⟨generation, grant, rfl⟩
    · exact .opened h
    · have hbound := Connection.bound_mapped hopened.bound (some generation)
      exact .opened ⟨h.file, ⟨mode, hopened.session, hbound, hopened.refs⟩,
        fun hgranted ↦ absurd rfl hgranted⟩

/-- Whatever is answered to a request that only reads, the visit goes on. -/
theorem Visiting.answer (h : base.Visiting m.session s) (hns : base.ns.WellFormed)
    (hgrant : base.share.grant? m.session = none) (hm : m.OnlyReads) :
    base.Visiting m.session (s.answer m).2 := by
  cases hop : m.header.operation with
  | none =>
    rw [answer_unknown s hop]
    exact h
  | some op =>
    rw [answer_known s hop]
    cases h with
    | closed => exact visiting_handle_closed hns hgrant hm hop
    | opened hborrows => exact hborrows.handle hgrant hm hop

theorem Visiting.run (h : base.Visiting t s) (hns : base.ns.WellFormed)
    (hgrant : base.share.grant? t = none) {ms : List Message}
    (hms : ∀ m ∈ ms, m.session = t ∧ m.OnlyReads) :
    base.Visiting t (s.run (ms.map .io)) := by
  induction ms generalizing s with
  | nil => exact h
  | cons m ms ih =>
    obtain ⟨⟨rfl, hm⟩, hms⟩ := List.forall_mem_cons.mp hms
    exact ih (h.answer hns hgrant hm) hms

theorem Visiting.detach (h : base.Visiting t s) (hget : base.connections.get? t = none)
    (hgrant : base.share.grant? t = none) : (s.detach t).2 = base := by
  have hclosed : ((base.putConnection t (.new t)).detach t).2 = base := by
    rw [detach_of_get? connections_put_self]
    have herase := (base.connections.erase_put t (.new t)).trans
      (ConnectionTable.erase_eq_self hget)
    exact congrArg (fun table ↦ { base with connections := table }) herase
  cases h with
  | closed => exact hclosed
  | @opened id held hborrows =>
    -- What the session has open is given back by closing it first.
    have hdetach := detach_close (base.hold t id held) (fileRequest t .close [])
    have hclose : ((base.hold t id held).close (fileRequest t .close [])).2 =
        base.putConnection t (.new t) := hborrows.close (m := fileRequest t .close []) hgrant
    rw [hclose] at hdetach
    exact hdetach.symm.trans hclosed

/-- A session that comes, sends any requests that only read, and goes again leaves no trace. -/
theorem reading_leaves_no_trace {s : Service GrantTable} (h : s.Fresh) (hempty : s.share = .empty)
    (events : List Event) {t : SessionId} (ht : (s.run events).connections.get? t = none)
    {ms : List Message} (hms : ∀ m ∈ ms, m.session = t ∧ m.OnlyReads) :
    (s.run events).run (.attach t :: ms.map .io ++ [.detach t]) = s.run events := by
  have hsound := h.sound.run events
  have hgrant : (s.run events).share.grant? t = none := by
    rw [← Option.not_isSome_iff_eq_none, (h.recorded hempty events).isSome_iff hsound]
    rintro ⟨conn, generation, hget, -⟩
    cases ht.symm.trans hget
  have hattach : ((s.run events).attach t).2 = (s.run events).putConnection t (.new t) := by
    rcases attach_cases (s.run events) t with ⟨conn, hget, -⟩ | ⟨-, heq⟩
    · cases ht.symm.trans hget
    · rw [heq]
  have hvisiting : (s.run events).Visiting t ((s.run events).attach t).2 := by
    rw [hattach]
    exact .closed
  rw [run_concat]
  exact (hvisiting.run hsound.wellFormed hgrant hms).detach ht hgrant

/-- A session opens a file to read it, shares it, reads from it and opens it once more, in vain. -/
def readingVisit (session : SessionId) (path : String) : List Message :=
  [⟨⟨0⟩, session, .new .openFile OpenFlags.readOnly 0 0, Path.toPayload path⟩,
    fileRequest session .share [], ⟨⟨0⟩, session, .new .read 0 0 4, .empty⟩,
    ⟨⟨0⟩, session, .new .openFile OpenFlags.readOnly 0 0, Path.toPayload path⟩]

theorem mapped_visit_leaves_no_trace : (new .standard GrantTable.empty).Fresh ∧
    (new .standard GrantTable.empty).share = .empty ∧
    ((new .standard GrantTable.empty).run (opening ⟨8⟩ "/a")).connections.get? ⟨7⟩ = none ∧
    (∀ m ∈ readingVisit ⟨7⟩ "/a", m.session = ⟨7⟩ ∧ m.OnlyReads) ∧
    (((new .standard GrantTable.empty).run (opening ⟨8⟩ "/a")).run
      (.attach ⟨7⟩ :: (readingVisit ⟨7⟩ "/a").map .io)).share.grant? ⟨7⟩ = some ⟨0, 0⟩ ∧
    ((new .standard GrantTable.empty).run (opening ⟨8⟩ "/a")).run
      (.attach ⟨7⟩ :: (readingVisit ⟨7⟩ "/a").map .io ++ [.detach ⟨7⟩]) =
        (new .standard GrantTable.empty).run (opening ⟨8⟩ "/a") := by
  have hfresh : (new .standard GrantTable.empty).Fresh := fresh_new _ _
  have hget : ((new .standard GrantTable.empty).run (opening ⟨8⟩ "/a")).connections.get? ⟨7⟩ =
      none := by decide +kernel
  have hvisit : ∀ m ∈ readingVisit ⟨7⟩ "/a", m.session = ⟨7⟩ ∧ m.OnlyReads := by
    intro m hm
    simp only [readingVisit, List.mem_cons, List.not_mem_nil, or_false] at hm
    rcases hm with rfl | rfl | rfl | rfl
    · exact ⟨rfl, by decide, by decide, fun _ ↦ by decide⟩
    · exact ⟨rfl, by decide, by decide, fun h ↦ by cases h⟩
    · exact ⟨rfl, by decide, by decide, fun h ↦ by cases h⟩
    · exact ⟨rfl, by decide, by decide, fun _ ↦ by decide⟩
  exact ⟨hfresh, rfl, hget, hvisit, by decide +kernel,
    reading_leaves_no_trace hfresh rfl (opening ⟨8⟩ "/a") hget hvisit⟩

end Service

end BootNamespace
