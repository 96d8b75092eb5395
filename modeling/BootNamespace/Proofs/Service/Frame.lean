import BootNamespace.Proofs.Service.Coverage

namespace BootNamespace.Service

open Relation

section Moves

variable {σ : Type} [Sharing σ] {s s' : Service σ} {t u : SessionId}

/-- A move of a session is made of changes of the namespace. -/
theorem Move.reaches (hmove : Move t s s') : s.ns.Reaches s'.ns := by
  cases hmove with
  | attach hget => exact .refl _
  | @detach conn hget => exact released_reaches s conn
  | @close conn hget => exact released_reaches s conn
  | create path => exact .one (.create none path [] .created) (by simp [Change.Grounded])
  | @openFile conn id mode ns' hget hfile hclosed hopen =>
    have hreaches : s.ns.Reaches (s.ns.openFile id mode).2 := .one (.openFile id mode) trivial
    rwa [hopen] at hreaches
  | move hbound cursor => exact .refl _
  | @write conn id mode hbound hmode bytes => exact .one (.writeAt id conn.cursor bytes) trivial
  | @truncate conn id mode hbound size => exact .one (.truncate id size) trivial
  | map hbound generation => exact .refl _
  | grant region => exact .refl _
  | revoke => exact .refl _

theorem Move.config (hmove : Move t s s') : s'.config = s.config := by
  cases hmove <;> rfl

/-- A move of one session leaves the records of the others as they are. -/
theorem Move.connection_of_ne (hmove : Move t s s') (h : u ≠ t) :
    s'.connections.get? u = s.connections.get? u := by
  cases hmove with
  | attach hget => exact ConnectionTable.get?_put_of_ne h
  | detach hget => exact SessionMap.get?_erase_of_ne h
  | close hget => exact ConnectionTable.get?_put_of_ne h
  | create path => rfl
  | openFile hget hfile hclosed hopen => exact ConnectionTable.get?_put_of_ne h
  | move hbound cursor => exact ConnectionTable.get?_put_of_ne h
  | write hbound hmode bytes => rfl
  | truncate hbound size => rfl
  | map hbound generation => exact ConnectionTable.get?_put_of_ne h
  | grant region => rfl
  | revoke => rfl

theorem moves_reaches (hmoves : ReflTransGen (Move t) s s') : s.ns.Reaches s'.ns := by
  induction hmoves with
  | refl => exact .refl _
  | tail _ hmove ih => exact ih.trans hmove.reaches

theorem moves_config (hmoves : ReflTransGen (Move t) s s') : s'.config = s.config := by
  induction hmoves with
  | refl => rfl
  | tail _ hmove ih => exact hmove.config.trans ih

theorem moves_connection_of_ne (hmoves : ReflTransGen (Move t) s s') (h : u ≠ t) :
    s'.connections.get? u = s.connections.get? u := by
  induction hmoves with
  | refl => rfl
  | tail _ hmove ih => exact (hmove.connection_of_ne h).trans ih

variable {event : Event}

theorem after_connection_of_ne (h : s.ns.WellFormed) (hu : u ≠ event.session) :
    (s.after event).connections.get? u = s.connections.get? u :=
  moves_connection_of_ne (after_moves h event) hu

theorem run_reaches (h : s.ns.WellFormed) (events : List Event) :
    s.ns.Reaches (s.run events).ns := by
  induction events generalizing s with
  | nil => exact .refl _
  | cons event events ih =>
    have hreaches := moves_reaches (after_moves h event)
    exact hreaches.trans (ih (hreaches.wellFormed h))

/-- A service is never configured anew. -/
theorem run_config (h : s.ns.WellFormed) (events : List Event) :
    (s.run events).config = s.config := by
  induction events generalizing s with
  | nil => rfl
  | cons event events ih =>
    have hmoves := after_moves h event
    exact (ih ((moves_reaches hmoves).wellFormed h)).trans (moves_config hmoves)

end Moves

section Grants

variable {s s' : Service GrantTable} {t u : SessionId} {conn : Connection} {held : FileId → Nat}
variable {event : Event}

theorem released_grant_of_ne (s : Service GrantTable) (h : u ≠ conn.session) :
    (s.released conn).share.grant? u = s.share.grant? u := by
  change (if conn.isGranted then (Sharing.unshare s.share conn.session).2
    else s.share).grant? u = _
  split
  · rw [GrantTable.grant?_unshare, Function.update_of_ne h]
  · rfl

/-- Nor does it touch the grants of the others: what is revoked is the session's own. -/
theorem Move.grant_of_ne (hsound : s.Sound held) (hmove : Move t s s') (h : u ≠ t) :
    s'.share.grant? u = s.share.grant? u := by
  cases hmove with
  | attach hget => rfl
  | detach hget =>
    rw [← (hsound.record hget).session_eq] at h
    exact released_grant_of_ne s h
  | close hget =>
    rw [← (hsound.record hget).session_eq] at h
    exact released_grant_of_ne s h
  | create path => rfl
  | openFile hget hfile hclosed hopen => rfl
  | move hbound cursor => rfl
  | write hbound hmode bytes => rfl
  | truncate hbound size => rfl
  | map hbound generation => rfl
  | grant region => rw [GrantTable.grant?_share, Function.update_of_ne h]
  | revoke => rw [GrantTable.grant?_unshare, Function.update_of_ne h]

theorem Sound.moves_grant_of_ne (hsound : s.Sound held) (hmoves : ReflTransGen (Move t) s s')
    (h : u ≠ t) : s'.share.grant? u = s.share.grant? u := by
  induction hmoves with
  | refl => rfl
  | tail hmoves hmove ih => exact (hmove.grant_of_ne (hsound.moves hmoves) h).trans ih

theorem Sound.after_grant_of_ne (hsound : s.Sound held) (hu : u ≠ event.session) :
    (s.after event).share.grant? u = s.share.grant? u :=
  hsound.moves_grant_of_ne (after_moves hsound.wellFormed event) hu

end Grants

end BootNamespace.Service
