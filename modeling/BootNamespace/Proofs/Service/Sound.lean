import BootNamespace.Proofs.Service.Moves

namespace BootNamespace.Service

open Relation

variable {σ : Type} {s s' : Service σ} {t : SessionId} {conn next : Connection} {ns' : Namespace}
variable {held : FileId → Nat}

/-- Every record agrees with the namespace, and a file's count is what is held elsewhere and one for
each connection that has it bound. -/
structure Sound (held : FileId → Nat) (s : Service σ) : Prop where
  reachable : s.ns.Reachable
  record {session : SessionId} {conn : Connection} (h : s.connections.get? session = some conn) :
    conn.Sound s.ns session
  refs (id : FileId) : s.ns.refs id = held id + s.connections.bindings id

theorem Fresh.sound (h : s.Fresh) : s.Sound s.ns.refs := by
  refine ⟨h.reachable, fun {session conn} hget ↦ ?_, fun id ↦ ?_⟩
  · rw [h.connections] at hget
    cases hget
  · rw [h.connections]
    rfl

theorem Sound.wellFormed (h : s.Sound held) : s.ns.WellFormed := h.reachable.wellFormed

theorem Sound.ns (h : s.Sound held) (hreaches : s.ns.Reaches ns') (hkeeps : s.ns.Keeps ns')
    (hrefs : ∀ id, ns'.refs id = s.ns.refs id) : { s with ns := ns' }.Sound held :=
  ⟨h.reachable.reaches hreaches, fun hget ↦ (h.record hget).keeps hkeeps,
    fun id ↦ (hrefs id).trans (h.refs id)⟩

theorem Sound.share (h : s.Sound held) (share : σ) : { s with share := share }.Sound held :=
  ⟨h.reachable, h.record, h.refs⟩

/-- The count moves with what the connection of the session holds. -/
theorem Sound.put (h : s.Sound held) (hget : s.connections.get? t = some conn)
    (hreaches : s.ns.Reaches ns') (hkeeps : s.ns.Keeps ns') (hnext : next.Sound ns' t)
    (hrefs : ∀ id, ns'.refs id + conn.holds id = s.ns.refs id + next.holds id) :
    ({ s with ns := ns' }.putConnection t next).Sound held := by
  refine ⟨h.reachable.reaches hreaches, fun {session found} hfound ↦ ?_, fun id ↦ ?_⟩
  · by_cases hsession : session = t
    · subst hsession
      rw [connections_put_self] at hfound
      cases hfound
      exact hnext
    · rw [putConnection, ConnectionTable.get?_put_of_ne hsession] at hfound
      exact (h.record hfound).keeps hkeeps
  · have hbindings := ConnectionTable.bindings_replace hget next id
    have hold := h.refs id
    have hnew := hrefs id
    change ns'.refs id = held id + (s.connections.put t next).bindings id
    omega

theorem Sound.erase (h : s.Sound held) (hget : s.connections.get? t = some conn)
    (hreaches : s.ns.Reaches ns') (hkeeps : s.ns.Keeps ns')
    (hrefs : ∀ id, ns'.refs id + conn.holds id = s.ns.refs id) :
    { s with ns := ns', connections := ⟨s.connections.bySession.erase t⟩ }.Sound held := by
  refine ⟨h.reachable.reaches hreaches, fun {session found} hfound ↦ ?_, fun id ↦ ?_⟩
  · have hsession : session ≠ t := by
      rintro rfl
      rw [ConnectionTable.get?, SessionMap.get?_erase_self] at hfound
      cases hfound
    rw [ConnectionTable.get?, SessionMap.get?_erase_of_ne hsession] at hfound
    exact (h.record hfound).keeps hkeeps
  · have hbindings := ConnectionTable.bindings_erase hget id
    have hold := h.refs id
    have hnew := hrefs id
    change ns'.refs id = held id + ConnectionTable.bindings ⟨s.connections.bySession.erase t⟩ id
    omega

theorem Sound.holds_le (h : s.Sound held) (hget : s.connections.get? t = some conn) (id : FileId) :
    conn.holds id ≤ s.ns.refs id := by
  have hbindings := ConnectionTable.bindings_erase hget id
  have hrefs := h.refs id
  omega

theorem Sound.attach (h : s.Sound held) (hget : s.connections.get? t = none) :
    (s.putConnection t (.new t)).Sound held := by
  refine ⟨h.reachable, fun {session found} hfound ↦ ?_, fun id ↦ ?_⟩
  · by_cases hsession : session = t
    · subst hsession
      rw [connections_put_self] at hfound
      cases hfound
      exact .closed
    · rw [putConnection, ConnectionTable.get?_put_of_ne hsession] at hfound
      exact h.record hfound
  · exact (h.refs id).trans (by rw [putConnection, ConnectionTable.bindings_attach hget])

theorem Sound.openFile (h : s.Sound held) (hget : s.connections.get? t = some conn)
    (hfile : conn.file = none) {id : FileId} {mode : OpenMode}
    (hopen : s.ns.openFile id mode = (.ok (), ns')) :
    ({ s with ns := ns' }.putConnection t (conn.tied id mode)).Sound held := by
  have htouched := Namespace.openFile_touched s.ns id mode
  have hreaches : s.ns.Reaches (s.ns.perform (.openFile id mode)) := .one _ trivial
  rw [Namespace.perform, hopen] at hreaches
  rw [hopen] at htouched
  refine h.put hget hreaches htouched.keeps ?_ fun other ↦ ?_
  · rcases Namespace.openFile_cases s.ns id mode with ⟨e, heq⟩ | ⟨old, hold, hallowed, -, heq⟩
    · rw [hopen] at heq
      cases heq
    · rw [hopen] at heq
      cases heq
      have hlive : (s.ns.putFile id { old with refs := old.refs + 1 }).file? id =
          some { old with refs := old.refs + 1 } := Namespace.file?_putFile_self hold
      have hsound : (conn.tied id mode).Sound _ conn.session := .bound (by simp) hlive hallowed
      rwa [(h.record hget).session_eq] at hsound
  · have hrefs := Namespace.refs_openFile hopen other
    rw [hrefs, Connection.holds, Connection.holds, hfile]
    simp [Connection.tied, eq_comm]

variable [Sharing σ]

theorem released_reaches (s : Service σ) (conn : Connection) :
    s.ns.Reaches (s.released conn).ns := by
  unfold released
  cases conn.file with
  | none => exact .refl _
  | some id => exact .one (.closeFile id) trivial

theorem released_keeps (s : Service σ) (conn : Connection) : s.ns.Keeps (s.released conn).ns := by
  unfold released
  cases conn.file with
  | none => exact .refl _
  | some id => exact (Namespace.closeFile_touched s.ns id).keeps

/-- Taking down a connection gives back the one reference it holds. -/
theorem Sound.released_refs (h : s.Sound held) (hget : s.connections.get? t = some conn)
    (id : FileId) : (s.released conn).ns.refs id + conn.holds id = s.ns.refs id := by
  have hle := h.holds_le hget id
  unfold released Connection.holds at *
  cases hfile : conn.file with
  | none => rfl
  | some file =>
    rw [hfile] at hle
    dsimp only
    rw [Namespace.refs_closeFile]
    simp only [Option.some.injEq] at hle ⊢
    by_cases he : file = id
    · subst he
      simp only [if_true] at hle ⊢
      omega
    · simp [he, Ne.symm he]

theorem Move.sound (h : s.Sound held) (hmove : Move t s s') : s'.Sound held := by
  cases hmove with
  | attach hget => exact h.attach hget
  | @detach conn hget =>
    exact (h.erase hget (released_reaches s conn) (released_keeps s conn)
      (h.released_refs hget)).share (s.released conn).share
  | @close conn hget =>
    have hsession := (h.record hget).session_eq
    have hput := h.put hget (released_reaches s conn) (released_keeps s conn) .closed
      (h.released_refs hget)
    rw [hsession]
    exact hput.share (s.released conn).share
  | create path =>
    have hcwd : ∀ d ∈ (none : Option DirId), d.index < s.ns.dirs.size := by simp
    have hkeeps := Namespace.createFile_keeps h.wellFormed hcwd path [] .created
    exact h.ns (.one (.create none path [] .created) (by simp [Change.Grounded]))
      hkeeps.1 hkeeps.2
  | openFile hget hfile hclosed hopen => exact h.openFile hget hfile hopen
  | @move conn id mode hbound cursor =>
    obtain ⟨hget, hbound⟩ := boundConnection_eq_ok.mp hbound
    have hopen := (Connection.bound_eq_ok.mp hbound).1
    exact h.put hget (.refl _) (.refl _) ((h.record hget).moveTo hopen cursor) fun _ ↦ rfl
  | @write conn id mode hbound hmode bytes =>
    exact h.ns (.one (.writeAt id conn.cursor bytes) trivial)
      (Namespace.writeAt_touched s.ns id conn.cursor bytes).keeps
      (Namespace.refs_writeAt s.ns id _ _)
  | @truncate conn id mode hbound size =>
    exact h.ns (.one (.truncate id size) trivial)
      (Namespace.truncate_touched s.ns id size).keeps (Namespace.refs_truncate s.ns id size)
  | @map conn id mode hbound generation =>
    obtain ⟨hget, hbound⟩ := boundConnection_eq_ok.mp hbound
    have hopen := (Connection.bound_eq_ok.mp hbound).1
    exact h.put hget (.refl _) (.refl _) ((h.record hget).mapped hopen generation) fun _ ↦ rfl
  | grant region => exact h.share _
  | revoke => exact h.share _

theorem Sound.moves (h : s.Sound held) (hmoves : ReflTransGen (Move t) s s') : s'.Sound held := by
  induction hmoves with
  | refl => exact h
  | tail _ hmove ih => exact hmove.sound ih

theorem Sound.after (h : s.Sound held) (event : Event) : (s.after event).Sound held :=
  h.moves (after_moves h.wellFormed event)

theorem Sound.run (h : s.Sound held) (events : List Event) : (s.run events).Sound held := by
  induction events generalizing s with
  | nil => exact h
  | cons event events ih => exact ih (h.after event)

end BootNamespace.Service
