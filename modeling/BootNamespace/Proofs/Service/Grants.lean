import BootNamespace.Proofs.Service.Sound

namespace BootNamespace

namespace Connection

variable {conn : Connection} {generation : UInt32} {id : FileId}

/-- The generation and the file of the buffer that the session's grant was made of. -/
def granted? (conn : Connection) : Option (UInt32 × FileId) :=
  match conn.state, conn.file with
  | .mapped (some generation), some id => some (generation, id)
  | _, _ => none

theorem granted?_eq_some : conn.granted? = some (generation, id) ↔
    conn.state = .mapped (some generation) ∧ conn.file = some id := by
  obtain ⟨session, state, mode, cursor, file⟩ := conn
  cases file with
  | none => simp [granted?]
  | some other =>
    cases state with
    | closed => simp [granted?]
    | opened => simp [granted?]
    | mapped granted =>
      cases granted with
      | none => simp [granted?]
      | some granted => simp [granted?]

theorem granted?_of_closed (h : conn.state = .closed) : conn.granted? = none := by
  unfold granted?
  rw [h]

theorem Sound.isGranted_eq {ns : Namespace} {session : SessionId} (h : conn.Sound ns session) :
    conn.isGranted = conn.granted?.isSome := by
  cases h with
  | closed => rfl
  | @bound state mode cursor id node hstate hnode hmode =>
    cases state with
    | closed => rfl
    | opened => rfl
    | mapped granted =>
      cases granted with
      | none => rfl
      | some granted => rfl

end Connection

namespace Service

variable {σ : Type} {s s' : Service σ} {m : Message} {conn next : Connection} {id : FileId}
variable {mode : OpenMode} {t u : SessionId} {held : FileId → Nat}

def granted? (s : Service σ) (t : SessionId) : Option (UInt32 × FileId) :=
  (s.connections.get? t).bind (·.granted?)

theorem granted?_of_get? (h : s.connections.get? t = some conn) :
    s.granted? t = conn.granted? := by
  rw [granted?, h, Option.bind_some]

theorem granted?_of_detached (h : s.connections.get? t = none) : s.granted? t = none := by
  rw [granted?, h, Option.bind_none]

theorem granted?_eq_some {generation : UInt32} : s.granted? t = some (generation, id) ↔
    ∃ conn, s.connections.get? t = some conn ∧ conn.state = .mapped (some generation) ∧
      conn.file = some id := by
  rw [granted?, Option.bind_eq_some_iff]
  simp only [Connection.granted?_eq_some]

theorem granted?_put (s : Service σ) (t : SessionId) (next : Connection) :
    (s.putConnection t next).granted? = Function.update s.granted? t next.granted? := by
  change (Option.bind · Connection.granted?) ∘ (s.connections.bySession.insert t next).get? = _
  rw [SessionMap.get?_insert, Function.comp_update]
  rfl

theorem granted?_erase (s : Service σ) (t : SessionId) :
    { s with connections := ⟨s.connections.bySession.erase t⟩ }.granted? =
      Function.update s.granted? t none := by
  change (Option.bind · Connection.granted?) ∘ (s.connections.bySession.erase t).get? = _
  rw [SessionMap.get?_erase, Function.comp_update]
  rfl

theorem Sound.isGranted_eq (h : s.Sound held) (hget : s.connections.get? t = some conn) :
    conn.isGranted = (s.granted? t).isSome := by
  rw [granted?_of_get? hget]
  exact (h.record hget).isGranted_eq

theorem Sound.granted?_eq_none (h : s.Sound held) (hget : s.connections.get? t = some conn)
    (hno : ¬conn.isGranted) : s.granted? t = none := by
  rw [h.isGranted_eq hget] at hno
  simpa using hno

/-- Nothing is granted and nothing revoked. -/
structure Quiet (s s' : Service σ) : Prop where
  share : s'.share = s.share
  granted? : s'.granted? = s.granted?

theorem Quiet.refl (s : Service σ) : s.Quiet s := ⟨rfl, rfl⟩

theorem Quiet.put (hsame : s.granted? t = next.granted?) (ns : Namespace) :
    s.Quiet ({ s with ns := ns }.putConnection t next) := by
  refine ⟨rfl, ?_⟩
  rw [granted?_put, ← hsame]
  exact Function.update_eq_self t s.granted?

theorem Quiet.moveTo (hbound : s.boundConnection t = .ok (conn, id, mode)) (cursor : UInt64)
    (ns : Namespace) : s.Quiet ({ s with ns := ns }.putConnection t (conn.moveTo cursor)) := by
  have hsame : conn.granted? = (conn.moveTo cursor).granted? := rfl
  exact .put ((granted?_of_get? (boundConnection_eq_ok.mp hbound).1).trans hsame) ns

theorem list_quiet (s : Service σ) (m : Message) : s.Quiet (s.list m).2 := by
  rw [list_unchanged]
  exact .refl s

theorem openFile_quiet (h : s.ns.WellFormed) (m : Message) : s.Quiet (s.openFile m).2 := by
  rcases openFile_cases h m with ⟨e, heq⟩ | ⟨path, e, ns', -, -, heq⟩ |
    ⟨conn, path, mode, id, ns₁, ns₂, hget, -, hclosed, -, -, -, -, heq⟩
  · rw [heq]
    exact .refl s
  · rw [heq]
    exact ⟨rfl, rfl⟩
  · have hnone : s.granted? m.session = (conn.tied id mode).granted? :=
      (granted?_of_get? hget).trans (Connection.granted?_of_closed hclosed)
    rw [heq]
    exact .put hnone ns₂

theorem read_quiet (s : Service σ) (m : Message) : s.Quiet (s.read m).2 := by
  rcases read_cases s m with ⟨e, heq⟩ | ⟨conn, id, mode, data, hbound, -, -, heq⟩
  · rw [heq]
    exact .refl s
  · rw [heq]
    exact .moveTo hbound _ s.ns

theorem write_quiet (s : Service σ) (m : Message) : s.Quiet (s.write m).2 := by
  rcases write_cases s m with ⟨e, heq⟩ | ⟨conn, id, mode, count, ns', hbound, -, -, heq⟩
  · rw [heq]
    exact .refl s
  · rw [heq]
    exact .moveTo hbound _ ns'

theorem seek_quiet (s : Service σ) (m : Message) : s.Quiet (s.seek m).2 := by
  rcases seek_cases s m with ⟨e, heq⟩ | ⟨conn, id, mode, _, _, cursor, hbound, -, -, -, heq⟩
  · rw [heq]
    exact .refl s
  · rw [heq]
    exact .moveTo hbound cursor s.ns

theorem truncate_quiet (s : Service σ) (m : Message) : s.Quiet (s.truncate m).2 := by
  rcases truncate_cases s m with ⟨e, heq⟩ | ⟨conn, id, mode, size, length, ns', -, -, -, -, heq⟩
  · rw [heq]
    exact .refl s
  · rw [heq]
    exact ⟨rfl, rfl⟩

theorem attach_quiet (s : Service σ) (session : SessionId) : s.Quiet (s.attach session).2 := by
  rcases attach_cases s session with ⟨conn, -, heq⟩ | ⟨hget, heq⟩
  · rw [heq]
    exact .refl s
  · rw [heq]
    exact .put (granted?_of_detached hget) s.ns

section Shares

variable [Sharing σ] {node : FileNode} {result : Except AppError Unit}

/-- The capability once the session's grant has been revoked, if it holds one. -/
def revoked (s : Service σ) (t : SessionId) (conn : Connection) : σ :=
  if conn.isGranted then (Sharing.unshare s.share t).2 else s.share

/-- The session's grant is taken away and nothing put in its place. -/
structure Released (s : Service σ) (t : SessionId) (conn : Connection) (s' : Service σ) : Prop where
  share : s'.share = s.revoked t conn
  granted? : s'.granted? = Function.update s.granted? t none

/-- The session's grant is taken away, and then one asked for of the file's buffer. -/
structure Regranted (s : Service σ) (t : SessionId) (conn : Connection) (id : FileId)
    (node : FileNode) (result : Except AppError Unit) (s' : Service σ) : Prop where
  ns : s'.ns = s.ns
  call : Sharing.share (s.revoked t conn) t ⟨node.bufferGeneration, node.data⟩ = (result, s'.share)
  granted? : s'.granted? = Function.update s.granted? t
    (if result.isOk then some (node.bufferGeneration, id) else none)

theorem revokeStale_released (h : s.Sound held) (hget : s.connections.get? m.session = some conn)
    (hopen : conn.state ≠ .closed) (hrevoke : s.revokeStale m conn = (.ok (), next, s')) :
    s.Released m.session conn s' ∧ s'.ns = s.ns ∧ next.state ≠ .closed ∧ next.file = conn.file := by
  rcases revokeStale_cases s m hopen with ⟨hgranted, heq⟩ | ⟨hgranted, heq⟩
  · rw [heq] at hrevoke
    cases hrevoke
    have hnone := h.granted?_eq_none hget hgranted
    refine ⟨⟨(if_neg hgranted).symm, ?_⟩, rfl, hopen, rfl⟩
    rw [← hnone, Function.update_eq_self]
  · rw [heq] at hrevoke
    cases hrevoke
    exact ⟨⟨(if_pos hgranted).symm, granted?_put _ _ _⟩, rfl, by simp, rfl⟩

theorem grant_regranted {s₁ : Service σ} (h : s.Released m.session conn s₁) (hns : s₁.ns = s.ns)
    (hopen : next.state ≠ .closed) (hfile : next.file = some id) (node : FileNode) :
    ∃ result, s.Regranted m.session conn id node result (s₁.grant m next node).2 ∧
      (s₁.grant m next node).1.isOk = result.isOk := by
  rcases grant_cases s₁ m hopen node with ⟨e, share, hcall, heq⟩ | ⟨share, hcall, heq⟩
  · rw [h.share] at hcall
    rw [heq]
    exact ⟨.error e, ⟨hns, hcall, h.granted?⟩, rfl⟩
  · have hnext : { next with state := .mapped (some node.bufferGeneration) }.granted? =
        some (node.bufferGeneration, id) := Connection.granted?_eq_some.mpr ⟨rfl, hfile⟩
    have hs₁ : { s₁ with share := share }.granted? = Function.update s.granted? m.session none :=
      h.granted?
    rw [h.share] at hcall
    rw [heq]
    refine ⟨.ok (), ⟨hns, hcall, ?_⟩, rfl⟩
    rw [granted?_put, hnext, hs₁, Function.update_idem]
    rfl

theorem shareFile_grants (h : s.Sound held) (m : Message) :
    (∃ e, s.shareFile m = (.error e, s)) ∨
    (∃ conn id mode node, s.boundConnection m.session = .ok (conn, id, mode) ∧
      s.ns.file? id = some node ∧ node.access.contains .map ∧
      conn.state = .mapped (some node.bufferGeneration) ∧ s.shareFile m = (.ok .ok, s)) ∨
    ∃ conn id mode node result, s.boundConnection m.session = .ok (conn, id, mode) ∧
      s.ns.file? id = some node ∧ node.access.contains .map ∧
      s.Regranted m.session conn id node result (s.shareFile m).2 ∧
      (s.shareFile m).1.isOk = result.isOk := by
  rcases shareFile_cases s m with hrefused | hcurrent |
    ⟨conn, id, mode, node, conn', s₁, hbound, hnode, hmap, -, hrevoke, heq⟩
  · exact .inl hrefused
  · exact .inr (.inl hcurrent)
  · obtain ⟨hget, hfile⟩ := boundConnection_eq_ok.mp hbound
    obtain ⟨hopen, hfile, -⟩ := Connection.bound_eq_ok.mp hfile
    -- A stale grant goes before the buffer is asked for, so there is none to lose if that fails.
    obtain ⟨hreleased, hns, hopen', hfile'⟩ := revokeStale_released h hget hopen hrevoke
    obtain ⟨result, hregranted, hok⟩ :=
      grant_regranted hreleased hns hopen' (hfile'.trans hfile) node
    rw [heq]
    exact .inr (.inr ⟨conn, id, mode, node, result, hbound, hnode, hmap, hregranted, hok⟩)

/-- What an event can do to the grants. -/
inductive GrantStep (s : Service σ) : Event → Service σ → Prop
  | quiet {event : Event} {s' : Service σ} (h : s.Quiet s') : GrantStep s event s'
  | released {event : Event} {s' : Service σ} {conn : Connection}
      (hget : s.connections.get? event.session = some conn)
      (h : s.Released event.session conn s') : GrantStep s event s'
  | regranted {m : Message} {s' : Service σ} {conn : Connection} {id : FileId} {mode : OpenMode}
      {node : FileNode} {result : Except AppError Unit}
      (hop : m.header.operation = some .share)
      (hbound : s.boundConnection m.session = .ok (conn, id, mode))
      (hnode : s.ns.file? id = some node) (hmap : node.access.contains .map)
      (h : s.Regranted m.session conn id node result s') : GrantStep s (.io m) s'

theorem released_share (h : s.Sound held) (hget : s.connections.get? t = some conn) :
    (s.released conn).share = s.revoked t conn := by
  have hsession := (h.record hget).session_eq
  subst hsession
  rfl

theorem close_grants (h : s.Sound held) (m : Message) :
    (s.connections.get? m.session = none ∧ s.Quiet (s.close m).2) ∨
    ∃ conn, s.connections.get? m.session = some conn ∧
      s.Released m.session conn (s.close m).2 := by
  rcases close_cases s m with ⟨hget, heq⟩ | ⟨conn, hget, heq⟩
  · rw [heq]
    exact .inl ⟨hget, .refl s⟩
  · rw [heq]
    exact .inr ⟨conn, hget, released_share h hget, granted?_put _ _ _⟩

theorem detach_grants (h : s.Sound held) (session : SessionId) :
    (s.connections.get? session = none ∧ s.Quiet (s.detach session).2) ∨
    ∃ conn, s.connections.get? session = some conn ∧
      s.Released session conn (s.detach session).2 := by
  rcases detach_cases s session with ⟨hget, heq⟩ | ⟨conn, hget, heq⟩
  · rw [heq]
    exact .inl ⟨hget, .refl s⟩
  · rw [heq]
    exact .inr ⟨conn, hget, released_share h hget, granted?_erase s session⟩

theorem handle_grantStep (h : s.Sound held) {op : Operation}
    (hop : m.header.operation = some op) : s.GrantStep (.io m) (s.handle m op).2 := by
  cases op with
  | list => exact .quiet (list_quiet s m)
  | read => exact .quiet (read_quiet s m)
  | write => exact .quiet (write_quiet s m)
  | openFile => exact .quiet (openFile_quiet h.wellFormed m)
  | seek => exact .quiet (seek_quiet s m)
  | truncate => exact .quiet (truncate_quiet s m)
  | close =>
    change s.GrantStep (.io m) (s.close m).2
    rcases close_grants h m with ⟨-, hquiet⟩ | ⟨conn, hget, hreleased⟩
    · exact .quiet hquiet
    · exact .released hget hreleased
  | share =>
    change s.GrantStep (.io m) (s.shareFile m).2
    rcases shareFile_grants h m with ⟨e, heq⟩ | ⟨-, -, -, -, -, -, -, -, heq⟩ |
      ⟨conn, id, mode, node, result, hbound, hnode, hmap, hregranted, -⟩
    · rw [heq]
      exact .quiet (.refl s)
    · rw [heq]
      exact .quiet (.refl s)
    · exact .regranted hop hbound hnode hmap hregranted

theorem after_grantStep (h : s.Sound held) (event : Event) : s.GrantStep event (s.after event) := by
  cases event with
  | attach session => exact .quiet (attach_quiet s session)
  | detach session =>
    change s.GrantStep (.detach session) (s.detach session).2
    rcases detach_grants h session with ⟨-, hquiet⟩ | ⟨conn, hget, hreleased⟩
    · exact .quiet hquiet
    · exact .released hget hreleased
  | io m =>
    change s.GrantStep (.io m) (s.answer m).2
    cases hop : m.header.operation with
    | none =>
      rw [answer_unknown s hop]
      exact .quiet (.refl s)
    | some op =>
      rw [answer_known s hop]
      exact handle_grantStep h hop

end Shares

/-- A configuration under which the sizes of files need no rounding. -/
def bytewise : ServerConfig := { ServerConfig.standard with pageSize := 1 }

def fileRequest (session : SessionId) (op : Operation) (payload : Bytes) : Message :=
  ⟨⟨0⟩, session, .new op 0 0 0, payload⟩

def truncateTo (session : SessionId) (size : UInt32) : Event :=
  .io (fileRequest session .truncate (Bytes.ofUInt32 size))

/-- A session opens a file and shares it, twice at one size and once at another. -/
def resharing (session : SessionId) (path : String) : List Event :=
  opening session path ++
    [truncateTo session 1, .io (fileRequest session .share []), .io (fileRequest session .share []),
      truncateTo session 2, .io (fileRequest session .share [])]

end Service

end BootNamespace
