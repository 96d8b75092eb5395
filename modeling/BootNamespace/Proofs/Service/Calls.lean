import Mathlib.Data.List.Chain
import BootNamespace.Proofs.Service.Capability
import BootNamespace.Proofs.Service.Grants

namespace BootNamespace

inductive GrantCall where
  | share (session : SessionId) (region : SharedRegion) (granted : Bool)
  | unshare (session : SessionId) (revoked : Bool)
  deriving DecidableEq, Repr

namespace GrantCall

variable {calls before : List GrantCall} {call : GrantCall}

def session : GrantCall → SessionId
  | share session _ _ => session
  | unshare session _ => session

def isShare : GrantCall → Bool
  | share _ _ _ => true
  | unshare _ _ => false

/-- A grant counts as revoked once that has been asked for, whatever the answer. -/
def counts : GrantCall → Bool
  | share _ _ granted => granted
  | unshare _ _ => true

/-- The last grant that was made has not been revoked. -/
def live (calls : List GrantCall) : Bool := (calls.filter counts).getLast?.any isShare

theorem filter_counts_concat (calls : List GrantCall) (call : GrantCall) :
    (calls ++ [call]).filter counts =
      if call.counts then calls.filter counts ++ [call] else calls.filter counts := by
  rw [List.filter_append]
  cases hcounts : call.counts with
  | true => simp [hcounts]
  | false => simp [hcounts]

theorem live_concat (calls : List GrantCall) (call : GrantCall) :
    live (calls ++ [call]) = if call.counts then call.isShare else live calls := by
  rw [live, filter_counts_concat]
  split
  · rw [List.getLast?_concat, Option.any_some]
  · rfl

/-- Calls as they should be for one session: no share while a grant is live, and no unshare while
there is none. -/
inductive Disciplined : List GrantCall → Prop
  | nil : Disciplined []
  | concat {calls : List GrantCall} {call : GrantCall} (h : Disciplined calls)
      (hcall : call.isShare = !live calls) : Disciplined (calls ++ [call])

theorem Disciplined.isShare_eq (h : Disciplined calls) (hbefore : before ++ [call] <+: calls) :
    call.isShare = !live before := by
  induction h with
  | nil => simp at hbefore
  | @concat calls last h hlast ih =>
    rcases List.prefix_concat_iff.mp hbefore with heq | hbefore
    · obtain ⟨rfl, hcall⟩ := List.append_inj' heq rfl
      cases hcall
      exact hlast
    · exact ih hbefore

theorem Disciplined.alternates (h : Disciplined calls) :
    (calls.filter counts).IsChain fun a b ↦ a.isShare ≠ b.isShare := by
  induction h with
  | nil => exact .nil
  | @concat calls call h hcall ih =>
    rw [filter_counts_concat]
    split
    · refine ih.append (.singleton call) fun last hlast next hnext ↦ ?_
      have hlive : live calls = last.isShare := by
        rw [live, Option.mem_def.mp hlast, Option.any_some]
      cases hnext
      rw [hcall, hlive]
      simp
    · exact ih

theorem Disciplined.starts (h : Disciplined calls) :
    ∀ first ∈ (calls.filter counts).head?, first.isShare := by
  induction h with
  | nil => simp
  | @concat calls call h hcall ih =>
    intro first hfirst
    rw [filter_counts_concat] at hfirst
    split at hfirst
    · cases hcalls : calls.filter counts with
      | nil =>
        -- No grant has been made, so the call is not an unshare.
        have hlive : live calls = false := by
          rw [live, hcalls]
          rfl
        rw [hcalls] at hfirst
        cases hfirst
        rw [hcall, hlive]
        rfl
      | cons other rest =>
        rw [hcalls] at ih hfirst
        exact ih first hfirst
    · exact ih first hfirst

def ofSession (t : SessionId) (calls : List GrantCall) : List GrantCall :=
  calls.filter (·.session == t)

theorem ofSession_concat_self (calls : List GrantCall) (call : GrantCall) :
    ofSession call.session (calls ++ [call]) = ofSession call.session calls ++ [call] := by
  simp [ofSession]

theorem ofSession_concat_of_ne (calls : List GrantCall) {t : SessionId} (h : t ≠ call.session) :
    ofSession t (calls ++ [call]) = ofSession t calls := by
  simp [ofSession, h.symm]

/-- The calls are as they should be for every session, and leave a grant to some. -/
structure Tracks (calls : List GrantCall) (granted : SessionId → Bool) : Prop where
  disciplined (t : SessionId) : Disciplined (ofSession t calls)
  live_eq (t : SessionId) : live (ofSession t calls) = granted t

variable {granted : SessionId → Bool} {t : SessionId}

theorem Tracks.concat (h : Tracks calls granted) (call : GrantCall)
    (hcall : call.isShare = !granted call.session) :
    Tracks (calls ++ [call]) (Function.update granted call.session
      (if call.counts then call.isShare else granted call.session)) := by
  refine ⟨fun t ↦ ?_, fun t ↦ ?_⟩
  · by_cases ht : t = call.session
    · subst ht
      rw [ofSession_concat_self]
      exact (h.disciplined _).concat (by rw [h.live_eq, hcall])
    · rw [ofSession_concat_of_ne calls ht]
      exact h.disciplined t
  · by_cases ht : t = call.session
    · subst ht
      rw [ofSession_concat_self, live_concat, Function.update_self, h.live_eq]
    · rw [ofSession_concat_of_ne calls ht, Function.update_of_ne ht]
      exact h.live_eq t

theorem Tracks.share (h : Tracks calls granted) (ht : granted t = false) (region : SharedRegion)
    (ok : Bool) : Tracks (calls ++ [.share t region ok]) (Function.update granted t ok) := by
  have hnext := h.concat (.share t region ok) (by rw [GrantCall.session, ht]; rfl)
  cases ok with
  | true => exact hnext
  | false =>
    rw [GrantCall.session, ht] at hnext
    exact hnext

theorem Tracks.unshare (h : Tracks calls granted) (ht : granted t = true) (ok : Bool) :
    Tracks (calls ++ [.unshare t ok]) (Function.update granted t false) :=
  h.concat (.unshare t ok) (by rw [GrantCall.session, ht]; rfl)

end GrantCall

/-- A capability that keeps a log of the calls made of it, the first one first. -/
structure Logged (σ : Type) where
  inner : σ
  calls : List GrantCall

instance {σ : Type} [Sharing σ] : Sharing (Logged σ) where
  share logged t region :=
    let (result, inner) := Sharing.share logged.inner t region
    (result, ⟨inner, logged.calls ++ [.share t region result.isOk]⟩)
  unshare logged t :=
    let (result, inner) := Sharing.unshare logged.inner t
    (result, ⟨inner, logged.calls ++ [.unshare t result.isOk]⟩)

theorem Logged.inner_hom {σ : Type} [Sharing σ] : Sharing.Hom (Logged.inner : Logged σ → σ) where
  share _ _ _ := rfl
  unshare _ _ := rfl

namespace Service

open GrantCall

variable {σ : Type}

/-- The service with a log of its capability's calls, so far empty. -/
def logged (s : Service σ) : Service (Logged σ) := s.mapShare (⟨·, []⟩)

def grants (s : Service σ) : SessionId → Bool := Option.isSome ∘ s.granted?

theorem grants_apply (s : Service σ) (t : SessionId) : s.grants t = (s.granted? t).isSome := rfl

theorem Fresh.logged {s : Service σ} (h : s.Fresh) : s.logged.Fresh := ⟨h.reachable, h.connections⟩

/-- The event is a request of the session to share what it has open, and that file permits it. -/
inductive AsksFor (s : Service σ) : SessionId → SharedRegion → Event → Prop
  | share {m : Message} {conn : Connection} {id : FileId} {mode : OpenMode} {node : FileNode}
      (hop : m.header.operation = some .share)
      (hbound : s.boundConnection m.session = .ok (conn, id, mode))
      (hnode : s.ns.file? id = some node) (hmap : node.access.contains .map) :
      AsksFor s m.session ⟨node.bufferGeneration, node.data⟩ (.io m)

variable [Sharing σ]

/-- The calls that are made for a session while the service takes some events. -/
def calls (s : Service σ) (t : SessionId) (events : List Event) : List GrantCall :=
  ofSession t (s.logged.run events).share.calls

/-- The log does not change what the service does. -/
theorem run_logged (s : Service σ) (events : List Event) :
    (s.logged.run events).mapShare Logged.inner = s.run events := by
  rw [← run_mapShare s.logged Logged.inner_hom]
  rfl

section Log

variable {s s' : Service (Logged σ)} {conn : Connection} {t : SessionId} {id : FileId}
variable {mode : OpenMode} {node : FileNode} {result : Except AppError Unit} {held : FileId → Nat}

theorem revoked_tracks (h : Tracks s.share.calls s.grants) (hsound : s.Sound held)
    (hget : s.connections.get? t = some conn) :
    Tracks (s.revoked t conn).calls (Function.update s.grants t false) := by
  have hgranted : conn.isGranted = s.grants t := hsound.isGranted_eq hget
  unfold revoked
  split
  next hyes => exact h.unshare (hgranted.symm.trans hyes) _
  next hno =>
    have hnone : s.grants t = false := by simpa [hgranted] using hno
    rwa [← hnone, Function.update_eq_self]

theorem grants_released (h : s.Released t conn s') :
    s'.grants = Function.update s.grants t false := by
  rw [grants, h.granted?, Function.comp_update]
  rfl

theorem grants_regranted (h : s.Regranted t conn id node result s') :
    s'.grants = Function.update s.grants t result.isOk := by
  rw [grants, h.granted?, Function.comp_update]
  cases result with
  | error e => rfl
  | ok granted => rfl

theorem calls_regranted (h : s.Regranted t conn id node result s') :
    s'.share.calls = (s.revoked t conn).calls ++
      [.share t ⟨node.bufferGeneration, node.data⟩ result.isOk] := by
  have hresult := congrArg Prod.fst h.call
  have hshare := congrArg Prod.snd h.call
  dsimp only at hresult hshare
  rw [← hshare, ← hresult]
  rfl

theorem after_tracks (h : Tracks s.share.calls s.grants) (hsound : s.Sound held) (event : Event) :
    Tracks (s.after event).share.calls (s.after event).grants := by
  have hstep := after_grantStep hsound event
  generalize s.after event = s' at hstep
  cases hstep with
  | quiet hquiet =>
    have hgrants : s'.grants = s.grants := by rw [grants, hquiet.granted?, grants]
    rwa [hquiet.share, hgrants]
  | released hget hreleased =>
    rw [hreleased.share, grants_released hreleased]
    exact revoked_tracks h hsound hget
  | @regranted m _ conn id mode node result hop hbound hnode hmap hregranted =>
    -- Nothing is granted once the stale grant has gone, whatever that was answered.
    have hrevoked := revoked_tracks h hsound (boundConnection_eq_ok.mp hbound).1
    have hshared := hrevoked.share (Function.update_self _ _ _) ⟨node.bufferGeneration, node.data⟩
      result.isOk
    rw [Function.update_idem] at hshared
    rwa [calls_regranted hregranted, grants_regranted hregranted]

theorem run_tracks (h : Tracks s.share.calls s.grants) (hsound : s.Sound held)
    (events : List Event) : Tracks (s.run events).share.calls (s.run events).grants := by
  induction events generalizing s with
  | nil => exact h
  | cons event events ih => exact ih (after_tracks h hsound event) (hsound.after event)

theorem after_share_call (hsound : s.Sound held) {event : Event} {region : SharedRegion} {ok : Bool}
    (hcall : .share t region ok ∈ (s.after event).share.calls) :
    .share t region ok ∈ s.share.calls ∨ s.AsksFor t region event := by
  have hrevoked (u : SessionId) (conn : Connection)
      (h : .share t region ok ∈ (s.revoked u conn).calls) : .share t region ok ∈ s.share.calls := by
    unfold revoked at h
    split at h
    · rcases List.mem_append.mp h with h | h
      · exact h
      · cases List.mem_singleton.mp h
    · exact h
  have hstep := after_grantStep hsound event
  generalize s.after event = s' at hstep hcall
  cases hstep with
  | quiet hquiet =>
    rw [hquiet.share] at hcall
    exact .inl hcall
  | released hget hreleased =>
    rw [hreleased.share] at hcall
    exact .inl (hrevoked _ _ hcall)
  | regranted hop hbound hnode hmap hregranted =>
    rw [calls_regranted hregranted] at hcall
    rcases List.mem_append.mp hcall with hcall | hcall
    · exact .inl (hrevoked _ _ hcall)
    · cases List.mem_singleton.mp hcall
      exact .inr (.share hop hbound hnode hmap)

theorem run_share_call (hsound : s.Sound held) {events : List Event} {region : SharedRegion}
    {ok : Bool} (hcall : .share t region ok ∈ (s.run events).share.calls) :
    .share t region ok ∈ s.share.calls ∨ ∃ before event after,
      events = before ++ event :: after ∧ (s.run before).AsksFor t region event := by
  induction events generalizing s with
  | nil => exact .inl hcall
  | cons event events ih =>
    rcases ih (hsound.after event) hcall with hcall | ⟨before, other, after, rfl, hasks⟩
    · exact (after_share_call hsound hcall).imp_right fun hasks ↦ ⟨[], event, events, rfl, hasks⟩
    · exact .inr ⟨event :: before, other, after, rfl, hasks⟩

end Log

inductive Leaves (t : SessionId) : Event → Prop
  | close {m : Message} (hsession : m.session = t) (hop : m.header.operation = some .close) :
      Leaves t (.io m)
  | detach : Leaves t (.detach t)

variable {s : Service σ} {held : FileId → Nat} {t : SessionId} {event : Event}

theorem granted?_of_leaves (hsound : s.Sound held) (h : Leaves t event) :
    (s.after event).granted? t = none := by
  cases h with
  | @close m hsession hop =>
    subst hsession
    change (s.answer m).2.granted? m.session = none
    rw [answer_known s hop]
    change (s.close m).2.granted? m.session = none
    rcases close_grants hsound m with ⟨hget, hquiet⟩ | ⟨conn, -, hreleased⟩
    · rw [hquiet.granted?, granted?_of_detached hget]
    · rw [hreleased.granted?, Function.update_self]
  | detach =>
    change (s.detach t).2.granted? t = none
    rcases detach_grants hsound t with ⟨hget, hquiet⟩ | ⟨conn, -, hreleased⟩
    · rw [hquiet.granted?, granted?_of_detached hget]
    · rw [hreleased.granted?, Function.update_self]

theorem AsksFor.of_logged {events : List Event} {region : SharedRegion} {event : Event}
    (h : (s.logged.run events).AsksFor t region event) : (s.run events).AsksFor t region event := by
  rw [← run_logged s events]
  cases h with
  | share hop hbound hnode hmap => exact .share hop hbound hnode hmap

theorem Fresh.tracks (h : s.Fresh) (events : List Event) :
    Tracks (s.logged.run events).share.calls (s.run events).grants := by
  have hstart : Tracks s.logged.share.calls s.logged.grants := by
    refine ⟨fun t ↦ .nil, fun t ↦ ?_⟩
    rw [grants_apply, granted?_of_detached (by rw [h.logged.connections]; rfl)]
    rfl
  have hgrants : (s.logged.run events).grants = (s.run events).grants := by
    rw [← run_logged s events]
    rfl
  rw [← hgrants]
  exact run_tracks hstart h.logged.sound events

/-- Whatever a capability answers, the calls for a session are a share and an unshare in turn,
refused shares apart. A connection is granted what they have left, a session that goes is left
nothing, and only what may be mapped is ever shared. -/
theorem grant_calls_disciplined (h : s.Fresh) (events : List Event) (t : SessionId) :
    (s.logged.run events).mapShare Logged.inner = s.run events ∧
    (∀ before call, before ++ [call] <+: s.calls t events → call.isShare = !live before) ∧
    ((s.calls t events).filter counts).IsChain (fun a b ↦ a.isShare ≠ b.isShare) ∧
    (∀ first ∈ ((s.calls t events).filter counts).head?, first.isShare) ∧
    (∀ event, Leaves t event → ¬live (s.calls t (events ++ [event]))) ∧
    (∀ conn, (s.run events).connections.get? t = some conn →
      conn.isGranted = live (s.calls t events)) ∧
    ((s.run events).connections.get? t = none → ¬live (s.calls t events)) ∧
    ∀ region ok, .share t region ok ∈ s.calls t events → ∃ before event after,
      events = before ++ event :: after ∧ (s.run before).AsksFor t region event := by
  have hsound := h.sound.run events
  have hdisciplined : Disciplined (s.calls t events) := (h.tracks events).disciplined t
  have hlive (events : List Event) : live (s.calls t events) = (s.run events).grants t :=
    (h.tracks events).live_eq t
  refine ⟨run_logged s events, fun before call hbefore ↦ hdisciplined.isShare_eq hbefore,
    hdisciplined.alternates, hdisciplined.starts, fun event hleaves ↦ ?_, fun conn hget ↦ ?_,
    fun hget ↦ ?_, fun region ok hcall ↦ ?_⟩
  · rw [hlive, run_concat, grants_apply, granted?_of_leaves hsound hleaves]
    exact Bool.false_ne_true
  · rw [hlive]
    exact hsound.isGranted_eq hget
  · rw [hlive, grants_apply, granted?_of_detached hget]
    exact Bool.false_ne_true
  · rcases run_share_call h.logged.sound (List.mem_of_mem_filter hcall) with hnone | hsome
    · cases hnone
    · obtain ⟨before, event, after, heq, hasks⟩ := hsome
      exact ⟨before, event, after, heq, hasks.of_logged⟩

theorem refused_calls_disciplined :
    (new bytewise (⟨.empty, 0, 0, true, true⟩ : FaultyGrants)).Fresh ∧
    ((new bytewise (⟨.empty, 0, 0, true, true⟩ : FaultyGrants)).calls ⟨7⟩ (resharing ⟨7⟩ "/a")).map
      (fun call ↦ (call.isShare, call.counts)) =
        [(true, false), (true, true), (false, true), (true, true)] ∧
    Leaves ⟨7⟩ (.io (fileRequest ⟨7⟩ .close [])) ∧
    ¬live ((new bytewise (⟨.empty, 0, 0, true, true⟩ : FaultyGrants)).calls ⟨7⟩
      (resharing ⟨7⟩ "/a" ++ [.io (fileRequest ⟨7⟩ .close [])])) := by
  have hfresh : (new bytewise (⟨.empty, 0, 0, true, true⟩ : FaultyGrants)).Fresh := fresh_new _ _
  have hleaves : Leaves ⟨7⟩ (.io (fileRequest ⟨7⟩ .close [])) := .close rfl rfl
  obtain ⟨-, -, -, -, hleft, -⟩ := grant_calls_disciplined hfresh (resharing ⟨7⟩ "/a") ⟨7⟩
  exact ⟨hfresh, by decide +kernel, hleaves, hleft _ hleaves⟩

end Service

end BootNamespace
