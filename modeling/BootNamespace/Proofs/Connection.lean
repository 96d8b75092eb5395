import BootNamespace.Connection.Table
import BootNamespace.Proofs.Namespace.References
import BootNamespace.Proofs.SessionMap

namespace BootNamespace

variable {ns ns' : Namespace} {session t : SessionId} {id : FileId} {mode : OpenMode}

namespace Connection

variable {conn next : Connection}

/-- What a record may look like: as it was made when the session attached, or bound to a live file
that permits the mode. -/
inductive Sound (ns : Namespace) (session : SessionId) : Connection → Prop
  | closed : Sound ns session (.new session)
  | bound {state : ConnectionState} {mode : OpenMode} {cursor : UInt64} {id : FileId}
      {node : FileNode} (hstate : state ≠ .closed) (hnode : ns.file? id = some node)
      (hmode : mode ≠ .readOnly → node.access.contains mode.required) :
      Sound ns session ⟨session, state, some mode, cursor, some id⟩

/-- The references that a connection holds on a file. -/
def holds (conn : Connection) (id : FileId) : Nat := if conn.file = some id then 1 else 0

/-- A connection once a file has been tied to it. -/
def tied (conn : Connection) (id : FileId) (mode : OpenMode) : Connection :=
  { conn with state := .opened, file := some id, mode := some mode, cursor := 0 }

theorem Sound.keeps (h : conn.Sound ns session) (hkeeps : ns.Keeps ns') :
    conn.Sound ns' session := by
  cases h with
  | closed => exact .closed
  | bound hstate hnode hmode =>
    obtain ⟨node, hnode', -, -, haccess⟩ := hkeeps _ _ hnode
    exact .bound hstate hnode' (haccess ▸ hmode)

theorem Sound.session_eq (h : conn.Sound ns session) : conn.session = session := by
  cases h with
  | closed => rfl
  | bound => rfl

theorem bound_eq_ok : conn.bound = .ok (id, mode) ↔
    conn.state ≠ .closed ∧ conn.file = some id ∧ conn.mode = some mode := by
  obtain ⟨session, state, mode', cursor, file⟩ := conn
  cases state <;> cases mode' <;> cases file <;> simp [bound]

theorem bound_mapped (h : conn.bound = .ok (id, mode)) (generation : Option UInt32) :
    { conn with state := .mapped generation }.bound = .ok (id, mode) := by
  obtain ⟨-, hfile, hmode⟩ := bound_eq_ok.mp h
  exact bound_eq_ok.mpr ⟨by simp, hfile, hmode⟩

theorem Sound.exists_bound (h : conn.Sound ns session) (hopen : conn.state ≠ .closed) :
    ∃ id mode, conn.bound = .ok (id, mode) := by
  cases h with
  | closed => exact absurd rfl hopen
  | @bound state mode cursor id node hstate hnode hmode =>
    exact ⟨id, mode, bound_eq_ok.mpr ⟨hstate, rfl, rfl⟩⟩

theorem Sound.live (h : conn.Sound ns session) (hfile : conn.file = some id) :
    ∃ node, ns.file? id = some node := by
  cases h with
  | closed => cases hfile
  | bound hstate hnode hmode =>
    cases hfile
    exact ⟨_, hnode⟩

theorem Sound.moveTo (h : conn.Sound ns session) (hopen : conn.state ≠ .closed) (cursor : UInt64) :
    (conn.moveTo cursor).Sound ns session := by
  cases h with
  | closed => exact absurd rfl hopen
  | bound hstate hnode hmode => exact .bound hstate hnode hmode

theorem Sound.mapped (h : conn.Sound ns session) (hopen : conn.state ≠ .closed)
    (generation : Option UInt32) :
    { conn with state := .mapped generation }.Sound ns session := by
  cases h with
  | closed => exact absurd rfl hopen
  | bound hstate hnode hmode =>
    refine .bound ?_ hnode hmode
    intro h
    cases h

theorem bind_eq (hfile : conn.file = none) (hclosed : conn.state = .closed) (id : FileId)
    (mode : OpenMode) : conn.bind id mode = (.ok (), conn.tied id mode) := by
  obtain ⟨session, state, mode', cursor, file⟩ := conn
  cases hfile
  cases hclosed
  rfl

theorem setState_mapped (hopen : conn.state ≠ .closed) (generation : Option UInt32) :
    conn.setState (.mapped generation) = (.ok (), { conn with state := .mapped generation }) := by
  obtain ⟨session, state, mode, cursor, file⟩ := conn
  cases state with
  | closed => exact absurd rfl hopen
  | opened => rfl
  | mapped old => rfl

theorem isClosed_iff : conn.isClosed ↔ conn.state = .closed := by simp [isClosed]

end Connection

namespace ConnectionTable

variable {table : ConnectionTable} {conn next : Connection}

/-- How many connections have a file bound. -/
def bindings (table : ConnectionTable) (id : FileId) : Nat :=
  table.toList.countP (·.file == some id)

@[simp] theorem get?_put_self : (table.put t conn).get? t = some conn := SessionMap.get?_insert_self

theorem get?_put_of_ne (h : session ≠ t) : (table.put t conn).get? session = table.get? session :=
  SessionMap.get?_insert_of_ne h

theorem put_put (table : ConnectionTable) (t : SessionId) (conn next : Connection) :
    (table.put t conn).put t next = table.put t next :=
  congrArg mk (SessionMap.assign_assign (some conn) (some next))

theorem put_self (h : table.get? t = some conn) : table.put t conn = table := by
  have hassign := SessionMap.assign_get? table.bySession t
  rw [show table.bySession.get? t = some conn from h] at hassign
  exact congrArg mk hassign

theorem put_comm (table : ConnectionTable) (h : t ≠ session) (conn next : Connection) :
    (table.put t conn).put session next = (table.put session next).put t conn :=
  congrArg mk (SessionMap.assign_comm h (some conn) (some next))

theorem erase_put (table : ConnectionTable) (t : SessionId) (conn : Connection) :
    mk ((table.put t conn).bySession.erase t) = ⟨table.bySession.erase t⟩ :=
  congrArg mk (SessionMap.assign_assign (some conn) none)

theorem erase_eq_self (h : table.get? t = none) : ⟨table.bySession.erase t⟩ = table :=
  congrArg mk (SessionMap.erase_eq_self_of_get? h)

theorem countP_holds (conns : List Connection) (id : FileId) :
    (conn :: conns).countP (·.file == some id) =
      conns.countP (·.file == some id) + conn.holds id := by
  rw [List.countP_cons, Connection.holds]
  simp only [beq_iff_eq]

theorem bindings_erase (h : table.get? t = some conn) (id : FileId) :
    bindings ⟨table.bySession.erase t⟩ id + conn.holds id = table.bindings id := by
  have hperm := SessionMap.values_perm_of_get? h
  rw [bindings, bindings, toList, toList, hperm.countP_eq, countP_holds]

theorem bindings_put (next : Connection) (id : FileId) :
    (table.put t next).bindings id = bindings ⟨table.bySession.erase t⟩ id + next.holds id := by
  have hperm : (table.put t next).toList.Perm (next :: (table.bySession.erase t).values) :=
    SessionMap.insert_values_perm
  rw [bindings, hperm.countP_eq, countP_holds]
  rfl

theorem bindings_replace (h : table.get? t = some conn) (next : Connection) (id : FileId) :
    (table.put t next).bindings id + conn.holds id = table.bindings id + next.holds id := by
  rw [bindings_put, ← bindings_erase h]
  omega

theorem bindings_attach (h : table.get? t = none) (id : FileId) :
    (table.put t (.new t)).bindings id = table.bindings id := by
  have herase : table.bySession.erase t = table.bySession := SessionMap.erase_eq_self_of_get? h
  rw [bindings_put, herase]
  rfl

theorem bindings_of_size (h : table.size = 0) (id : FileId) : table.bindings id = 0 := by
  have hnil : table.bySession.entries = [] := List.eq_nil_of_length_eq_zero h
  rw [bindings, toList, SessionMap.values, hnil]
  rfl

theorem bindings_pos_iff :
    0 < table.bindings id ↔ ∃ t conn, table.get? t = some conn ∧ conn.file = some id := by
  have hmem (conn : Connection) : conn ∈ table.toList ↔ ∃ t, table.get? t = some conn :=
    SessionMap.mem_values_iff
  rw [bindings, List.countP_pos_iff]
  simp only [hmem, beq_iff_eq]
  constructor
  · rintro ⟨conn, ⟨t, hget⟩, hfile⟩
    exact ⟨t, conn, hget, hfile⟩
  · rintro ⟨t, conn, hget, hfile⟩
    exact ⟨conn, ⟨t, hget⟩, hfile⟩

end ConnectionTable

end BootNamespace
