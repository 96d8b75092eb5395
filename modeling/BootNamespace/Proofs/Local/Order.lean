import Mathlib.Algebra.Ring.Nat
import BootNamespace.Proofs.Local.System
import BootNamespace.Proofs.Service.Moves

namespace BootNamespace

namespace Event

/-- The event as it was posted, with no receive number yet. -/
def unnumbered : Event → Event
  | .io m => .io { m with rcvid := ⟨0⟩ }
  | event => event

theorem session_unnumbered (event : Event) : event.unnumbered.session = event.session := by
  cases event <;> rfl

end Event

/-- The events of one session, in order. -/
def eventsOf (t : SessionId) (events : List Event) : List Event := events.filter (·.session = t)

theorem eventsOf_append (t : SessionId) (events more : List Event) :
    eventsOf t (events ++ more) = eventsOf t events ++ eventsOf t more := List.filter_append ..

theorem eventsOf_unnumbered (t : SessionId) (events : List Event) :
    eventsOf t (events.map Event.unnumbered) = (eventsOf t events).map Event.unnumbered := by
  rw [eventsOf, List.filter_map, eventsOf]
  congr 2
  funext event
  rw [Function.comp_apply, Event.session_unnumbered]

namespace Happening

/-- The session that a client has been given. -/
def session? : Happening → Option SessionId
  | connected (.ok session) => some session
  | _ => none

/-- The event that a client has put into the channel. -/
def posted? : Happening → Option Event
  | connected (.ok session) => some (.attach session)
  | sent session header payload (.ok _) => some (.io ⟨⟨0⟩, session, header, payload⟩)
  | dropped session => some (.detach session)
  | _ => none

def received? : Happening → Option Event
  | received event => some event
  | _ => none

def handled? : Happening → Option Event
  | handled event _ _ => some event
  | _ => none

end Happening

def Stage.event? : Stage → Option Event
  | handling event => some event
  | idle | replying _ _ | ended _ => none

namespace LocalSystem

variable {α : Type} {s s' : LocalSystem α} {trace : List Happening} {happening : Happening}
variable {t : SessionId}

def sessions (trace : List Happening) : List SessionId := trace.filterMap Happening.session?

def posted (trace : List Happening) : List Event := trace.filterMap Happening.posted?

def received (trace : List Happening) : List Event := trace.filterMap Happening.received?

def handledEvents (trace : List Happening) : List Event := trace.filterMap Happening.handled?

/-- The session that the client with this number gets. -/
def sessionAt (k : Nat) : SessionId := ⟨.ofNat (k + 1)⟩

theorem sessionAt_injOn {k n : Nat} (hk : k < 2 ^ 32 - 1) (hn : n < 2 ^ 32 - 1)
    (h : sessionAt k = sessionAt n) : k = n := by
  have hnat := congrArg (fun session ↦ session.number.toNat) h
  simp only [sessionAt, UInt32.toNat_ofNat'] at hnat
  omega

@[simp] theorem filterMap_concat {β γ : Type} (f : β → Option γ) (xs : List β) (x : β) :
    (xs ++ [x]).filterMap f = xs.filterMap f ++ (f x).toList := by
  rw [List.filterMap_append]
  cases hx : f x <;> simp [hx]

theorem sessions_concat (trace : List Happening) (happening : Happening) :
    sessions (trace ++ [happening]) = sessions trace ++ happening.session?.toList :=
  filterMap_concat ..

theorem posted_concat (trace : List Happening) (happening : Happening) :
    posted (trace ++ [happening]) = posted trace ++ happening.posted?.toList := filterMap_concat ..

theorem received_concat (trace : List Happening) (happening : Happening) :
    received (trace ++ [happening]) = received trace ++ happening.received?.toList :=
  filterMap_concat ..

theorem handledEvents_concat (trace : List Happening) (happening : Happening) :
    handledEvents (trace ++ [happening]) = handledEvents trace ++ happening.handled?.toList :=
  filterMap_concat ..

/-- Events are received in the order in which they were put in, and handled one at a time. -/
structure Flows (trace : List Happening) (s : LocalSystem α) : Prop where
  fifo : (received trace ++ s.channel.queue.map (·.event)).map Event.unnumbered = posted trace
  stage : received trace = handledEvents trace ++ s.stage.event?.toList

theorem Flows.start [ServerApp α] (context : ServerContext) (app : α) :
    Flows [] (start context app) := ⟨rfl, rfl⟩

theorem Flows.quiet (h : Flows trace s) (hposted : happening.posted? = none)
    (hreceived : happening.received? = none) (hhandled : happening.handled? = none)
    (hqueue : s'.channel.queue = s.channel.queue) (hstage : s'.stage.event? = s.stage.event?) :
    Flows (trace ++ [happening]) s' := by
  refine ⟨?_, ?_⟩
  · rw [received_concat, posted_concat, hreceived, hposted, hqueue, Option.toList_none,
      List.append_nil, List.append_nil]
    exact h.fifo
  · rw [received_concat, handledEvents_concat, hreceived, hhandled, hstage, Option.toList_none,
      List.append_nil, List.append_nil]
    exact h.stage

theorem Flows.post {event : Event} {ticket : Option Ticket} (h : Flows trace s)
    (hposted : happening.posted? = some event) (hreceived : happening.received? = none)
    (hhandled : happening.handled? = none) (hevent : event.unnumbered = event)
    (hqueue : s'.channel.queue = s.channel.queue ++ [⟨event, ticket⟩])
    (hstage : s'.stage = s.stage) : Flows (trace ++ [happening]) s' := by
  refine ⟨?_, ?_⟩
  · rw [received_concat, posted_concat, hreceived, hposted, hqueue, ← h.fifo]
    simp [hevent]
  · rw [received_concat, handledEvents_concat, hreceived, hhandled, hstage, Option.toList_none,
      List.append_nil, List.append_nil]
    exact h.stage

theorem Flows.take {event posted : Event} {ticket : Option Ticket} {rest : List Envelope}
    (h : Flows trace s) (hidle : s.stage = .idle)
    (hqueue : s.channel.queue = ⟨posted, ticket⟩ :: rest)
    (hevent : event.unnumbered = posted.unnumbered) (hstage : s'.stage = .handling event)
    (hrest : s'.channel.queue = rest) : Flows (trace ++ [.received event]) s' := by
  refine ⟨?_, ?_⟩
  · rw [received_concat, posted_concat, ← h.fifo, hqueue, hrest]
    simp [Happening.received?, Happening.posted?, hevent]
  · rw [received_concat, handledEvents_concat, h.stage, hidle, hstage]
    simp [Happening.received?, Happening.handled?, Stage.event?]

theorem Flows.handle {event : Event} {pending : List (ReceiveId × Ticket)} {reply : Option Reply}
    (h : Flows trace s) (hhandling : s.stage = .handling event) (hstage : s'.stage.event? = none)
    (hqueue : s'.channel.queue = s.channel.queue) :
    Flows (trace ++ [.handled event pending reply]) s' := by
  refine ⟨?_, ?_⟩
  · rw [received_concat, posted_concat, hqueue]
    simpa [Happening.received?, Happening.posted?] using h.fifo
  · rw [received_concat, handledEvents_concat, h.stage, hhandling, hstage]
    simp [Happening.received?, Happening.handled?, Stage.event?]

theorem Flows.effect [ServerApp α] (h : Flows trace s) (heffect : s.Effect happening s') :
    Flows (trace ++ [happening]) s' := by
  cases heffect with
  | connect hopen => exact h.post rfl rfl rfl rfl rfl rfl
  | send hclient header payload => exact h.post rfl rfl rfl rfl rfl rfl
  | collect | abandoned | dropConnector => exact h.quiet rfl rfl rfl rfl rfl
  | disconnect hclient hfree => exact h.post rfl rfl rfl rfl rfl rfl
  | receive hstage hqueue hother => exact h.take hstage hqueue rfl rfl rfl
  | receiveRequest hstage hqueue => exact h.take hstage hqueue rfl rfl rfl
  | dispatch hstage hother => exact h.handle hstage rfl rfl
  | answer hstage => exact h.handle hstage rfl rfl
  | deliver hstage =>
    obtain ⟨pending, answers, heq⟩ := LocalChannel.deliver_channel s.dispatcher s.channel _ _
    rw [heq]
    exact h.quiet rfl rfl rfl rfl (by rw [hstage]; rfl)
  | close hstage hqueue => exact h.quiet rfl rfl rfl hqueue.symm (by rw [hstage]; rfl)

/-- The sessions have numbers of their own, and each goes from its attach over its requests to its
detach. -/
structure Lives (trace : List Happening) (s : LocalSystem α) : Prop where
  numbers : sessions trace = (List.range (sessions trace).length).map sessionAt
  next : s.channel.nextSession = .ofNat ((sessions trace).length + 1)
  clients : ∀ t ∈ s.channel.clients, t ∈ sessions trace
  absent : ∀ t, t ∉ sessions trace → eventsOf t (posted trace) = []
  present : ∀ t ∈ s.channel.clients, ∃ requests : List Message,
    eventsOf t (posted trace) = .attach t :: requests.map .io
  gone : ∀ t ∈ sessions trace, t ∉ s.channel.clients → ∃ requests : List Message,
    eventsOf t (posted trace) = .attach t :: requests.map .io ++ [.detach t]

theorem Lives.start [ServerApp α] (context : ServerContext) (app : α) :
    Lives [] (start context app) where
  numbers := rfl
  next := rfl
  clients := fun _ ht ↦ absurd ht List.not_mem_nil
  absent := fun _ _ ↦ rfl
  present := fun _ ht ↦ absurd ht List.not_mem_nil
  gone := fun _ ht ↦ absurd ht List.not_mem_nil

theorem Lives.nodup (h : Lives trace s) (hfew : (sessions trace).length < 2 ^ 32) :
    (sessions trace).Nodup := by
  rw [h.numbers]
  refine List.nodup_range.map_on fun k hk n hn heq ↦ ?_
  rw [List.mem_range] at hk hn
  exact sessionAt_injOn (by omega) (by omega) heq

theorem Lives.fresh (h : Lives trace s) (hfew : (sessions trace).length + 1 < 2 ^ 32) :
    (⟨s.channel.nextSession⟩ : SessionId) ∉ sessions trace := by
  intro hmem
  rw [h.numbers] at hmem
  obtain ⟨k, hk, heq⟩ := List.mem_map.mp hmem
  rw [List.mem_range] at hk
  rw [h.next] at heq
  have hsame : k = (sessions trace).length := sessionAt_injOn (by omega) (by omega) heq
  omega

theorem Lives.quiet (h : Lives trace s) (hsession : happening.session? = none)
    (hposted : happening.posted? = none)
    (hnext : s'.channel.nextSession = s.channel.nextSession)
    (hclients : s'.channel.clients = s.channel.clients) : Lives (trace ++ [happening]) s' := by
  have hsessions : sessions (trace ++ [happening]) = sessions trace := by
    rw [sessions_concat, hsession, Option.toList_none, List.append_nil]
  have hposted : posted (trace ++ [happening]) = posted trace := by
    rw [posted_concat, hposted, Option.toList_none, List.append_nil]
  exact {
    numbers := by rw [hsessions]; exact h.numbers
    next := by rw [hsessions, hnext]; exact h.next
    clients := by rw [hsessions, hclients]; exact h.clients
    absent := by rw [hsessions, hposted]; exact h.absent
    present := by rw [hclients, hposted]; exact h.present
    gone := by rw [hsessions, hclients, hposted]; exact h.gone }

theorem eventsOf_singleton_self {event : Event} (h : event.session = t) :
    eventsOf t [event] = [event] := by
  rw [eventsOf, List.filter_singleton, decide_eq_true h, cond_true]

theorem eventsOf_singleton_of_ne {event : Event} (h : event.session ≠ t) :
    eventsOf t [event] = [] := by
  rw [eventsOf, List.filter_singleton, decide_eq_false h, cond_false]

/-- The others' events stay as they are. -/
theorem eventsOf_posted_of_ne {event : Event} (hposted : happening.posted? = some event)
    (h : event.session ≠ t) :
    eventsOf t (posted (trace ++ [happening])) = eventsOf t (posted trace) := by
  rw [posted_concat, hposted, Option.toList_some, eventsOf_append, eventsOf_singleton_of_ne h,
    List.append_nil]

theorem eventsOf_posted_self {event : Event} (hposted : happening.posted? = some event)
    (h : event.session = t) :
    eventsOf t (posted (trace ++ [happening])) = eventsOf t (posted trace) ++ [event] := by
  rw [posted_concat, hposted, Option.toList_some, eventsOf_append, eventsOf_singleton_self h]

theorem Lives.connect (h : Lives trace s) (hfew : (sessions trace).length + 1 < 2 ^ 32)
    (hnext : s'.channel.nextSession = s.channel.nextSession + 1)
    (hclients : s'.channel.clients = s.channel.clients ++ [⟨s.channel.nextSession⟩]) :
    Lives (trace ++ [.connected (.ok ⟨s.channel.nextSession⟩)]) s' := by
  have hfresh := h.fresh hfew
  have hsessions : sessions (trace ++ [.connected (.ok ⟨s.channel.nextSession⟩)]) =
      sessions trace ++ [⟨s.channel.nextSession⟩] := sessions_concat ..
  have hne {t : SessionId} (ht : t ≠ ⟨s.channel.nextSession⟩) :
      eventsOf t (posted (trace ++ [.connected (.ok ⟨s.channel.nextSession⟩)])) =
        eventsOf t (posted trace) := eventsOf_posted_of_ne rfl ht.symm
  have hself : eventsOf ⟨s.channel.nextSession⟩
      (posted (trace ++ [.connected (.ok ⟨s.channel.nextSession⟩)])) =
        eventsOf ⟨s.channel.nextSession⟩ (posted trace) ++ [.attach ⟨s.channel.nextSession⟩] :=
    eventsOf_posted_self rfl rfl
  exact {
    numbers := by
      rw [hsessions, List.length_append, List.length_singleton, List.range_succ, List.map_append,
        ← h.numbers, List.map_singleton, sessionAt, ← h.next]
    next := by
      rw [hsessions, hnext, h.next, List.length_append, List.length_singleton, ← UInt32.ofNat_one,
        ← UInt32.ofNat_add]
    clients := by
      rw [hsessions, hclients]
      exact List.forall_mem_append.mpr ⟨fun t ht ↦ List.mem_append_left _ (h.clients t ht),
        fun t ht ↦ List.mem_append_right _ ht⟩
    absent := by
      intro t ht
      rw [hsessions, List.mem_append, not_or, List.mem_singleton] at ht
      rw [hne ht.2]
      exact h.absent t ht.1
    present := by
      intro t ht
      by_cases heq : t = ⟨s.channel.nextSession⟩
      · rw [heq, hself, h.absent _ hfresh]
        exact ⟨[], rfl⟩
      · rw [hclients, List.mem_append, List.mem_singleton, or_iff_left heq] at ht
        rw [hne heq]
        exact h.present t ht
    gone := by
      intro t ht hgone
      rw [hclients, List.mem_append, not_or, List.mem_singleton] at hgone
      rw [hsessions, List.mem_append, List.mem_singleton, or_iff_left hgone.2] at ht
      rw [hne hgone.2]
      exact h.gone t ht hgone.1 }

/-- A client that is there puts in a request, or its detach as it goes. -/
theorem Lives.post {event : Event} (h : Lives trace s) (hsession : happening.session? = none)
    (hposted : happening.posted? = some event) (hclient : event.session ∈ s.channel.clients)
    (hnext : s'.channel.nextSession = s.channel.nextSession)
    (hothers : ∀ t, t ≠ event.session → (t ∈ s'.channel.clients ↔ t ∈ s.channel.clients))
    (hself : (event.session ∈ s'.channel.clients ∧ ∃ m, event = .io m) ∨
      (event.session ∉ s'.channel.clients ∧ event = .detach event.session)) :
    Lives (trace ++ [happening]) s' := by
  have hsessions : sessions (trace ++ [happening]) = sessions trace := by
    rw [sessions_concat, hsession, Option.toList_none, List.append_nil]
  have hne {t : SessionId} (ht : t ≠ event.session) :
      eventsOf t (posted (trace ++ [happening])) = eventsOf t (posted trace) :=
    eventsOf_posted_of_ne hposted ht.symm
  have hknown := h.clients _ hclient
  obtain ⟨requests, hrequests⟩ := h.present _ hclient
  have hown : eventsOf event.session (posted (trace ++ [happening])) =
      .attach event.session :: requests.map .io ++ [event] := by
    rw [eventsOf_posted_self hposted rfl, hrequests]
  exact {
    numbers := by rw [hsessions]; exact h.numbers
    next := by rw [hsessions, hnext]; exact h.next
    clients := by
      intro t ht
      rw [hsessions]
      by_cases heq : t = event.session
      · exact heq ▸ hknown
      · exact h.clients t ((hothers t heq).mp ht)
    absent := by
      intro t ht
      rw [hsessions] at ht
      have heq : t ≠ event.session := fun heq ↦ ht (heq ▸ hknown)
      rw [hne heq]
      exact h.absent t ht
    present := by
      intro t ht
      by_cases heq : t = event.session
      · subst heq
        rcases hself with ⟨-, m, hm⟩ | ⟨hgone, -⟩
        · refine ⟨requests ++ [m], ?_⟩
          rw [hown, List.map_append, List.map_singleton, ← hm, List.cons_append]
        · exact absurd ht hgone
      · rw [hne heq]
        exact h.present t ((hothers t heq).mp ht)
    gone := by
      intro t ht hgone
      rw [hsessions] at ht
      by_cases heq : t = event.session
      · subst heq
        rcases hself with ⟨hthere, -⟩ | ⟨-, hdetach⟩
        · exact absurd hthere hgone
        · exact ⟨requests, by rw [hown, ← hdetach]⟩
      · rw [hne heq]
        exact h.gone t ht fun hstays ↦ hgone ((hothers t heq).mpr hstays) }

theorem Lives.effect [ServerApp α] (h : Lives trace s) (heffect : s.Effect happening s')
    (hfew : (sessions (trace ++ [happening])).length < 2 ^ 32) :
    Lives (trace ++ [happening]) s' := by
  cases heffect with
  | connect hopen =>
    rw [sessions_concat, List.length_append] at hfew
    exact h.connect hfew rfl rfl
  | send hclient header payload =>
    exact h.post rfl rfl hclient rfl (fun _ _ ↦ .rfl) (.inl ⟨hclient, _, rfl⟩)
  | disconnect hclient hfree =>
    refine h.post rfl rfl hclient rfl (fun t ht ↦ ?_) (.inr ⟨?_, rfl⟩)
    · exact List.mem_filter.trans (and_iff_left (decide_eq_true ht))
    · simp [Event.session]
  | collect | abandoned | dropConnector | receive | receiveRequest | dispatch | answer | close =>
    exact h.quiet rfl rfl rfl rfl
  | deliver hstage =>
    obtain ⟨pending, answers, heq⟩ := LocalChannel.deliver_channel s.dispatcher s.channel _ _
    rw [heq]
    exact h.quiet rfl rfl rfl rfl

theorem Lives.posted_prefix (h : Lives trace s) (t : SessionId) : ∃ requests : List Message,
    eventsOf t (posted trace) <+: .attach t :: requests.map .io ++ [.detach t] := by
  by_cases ht : t ∈ sessions trace
  · by_cases hclient : t ∈ s.channel.clients
    · obtain ⟨requests, hrequests⟩ := h.present t hclient
      exact ⟨requests, hrequests ▸ List.prefix_append _ _⟩
    · obtain ⟨requests, hrequests⟩ := h.gone t ht hclient
      exact ⟨requests, hrequests ▸ List.prefix_rfl⟩
  · rw [h.absent t ht]
    exact ⟨[], List.nil_prefix⟩

theorem Flows.received_prefix (h : Flows trace s) :
    (received trace).map Event.unnumbered <+: posted trace := by
  rw [← h.fifo, List.map_append]
  exact List.prefix_append _ _

/-- The server sees a session attach first and detach last. -/
theorem received_life (hflows : Flows trace s) (hlives : Lives trace s) (t : SessionId) :
    ∃ requests : List Message, (eventsOf t (received trace)).map Event.unnumbered <+:
      .attach t :: requests.map .io ++ [.detach t] := by
  obtain ⟨requests, hrequests⟩ := hlives.posted_prefix t
  have hreceived := hflows.received_prefix.filter (·.session = t)
  change eventsOf t ((received trace).map Event.unnumbered) <+: eventsOf t (posted trace)
    at hreceived
  rw [eventsOf_unnumbered] at hreceived
  exact ⟨requests, hreceived.trans hrequests⟩

end LocalSystem

end BootNamespace
