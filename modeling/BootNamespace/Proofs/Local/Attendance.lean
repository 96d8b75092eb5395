import BootNamespace.Dispatch.Echo
import BootNamespace.Proofs.Local.Faithful
import BootNamespace.Proofs.Service.Calls
import BootNamespace.Proofs.Service.Coverage
import BootNamespace.Proofs.Service.Protocol
import BootNamespace.Service.App

namespace BootNamespace

instance (context : ServerContext) (m : Message) : Decidable (context.Admits m) :=
  decidable_of_iff (m.header.operation.isSome ∧ m.header.sbytes.toNat ≤ context.bufferSize.toNat ∧
    m.header.sbytes.toNat ≤ m.payload.length)
    ⟨fun ⟨operation, buffer, payload⟩ ↦ ⟨operation, buffer, payload⟩,
      fun ⟨operation, buffer, payload⟩ ↦ ⟨operation, buffer, payload⟩⟩

/-- What a server lets its app know of an event: nothing of a request that is malformed. -/
def ServerContext.passes (context : ServerContext) : Event → Option Event
  | .io m => if context.Admits m then some (.io m.framed) else none
  | event => some event

/-- Whether the session is attached after the event. -/
def Event.attaches (t : SessionId) (attached : Bool) : Event → Bool
  | .attach u => attached || u = t
  | .detach u => attached && u ≠ t
  | .io _ => attached

def attached (t : SessionId) (events : List Event) : Bool :=
  events.foldl (Event.attaches t) false

section Attached

variable {t : SessionId} {events : List Event}

theorem attaches_of_ne {event : Event} (h : event.session ≠ t) (before : Bool) :
    event.attaches t before = before := by
  cases event with
  | attach u => simp [Event.attaches, show u ≠ t from h]
  | detach u => simp [Event.attaches, show u ≠ t from h]
  | io m => rfl

theorem attaches_unnumbered (event : Event) (before : Bool) :
    event.unnumbered.attaches t before = event.attaches t before := by
  cases event <;> rfl

theorem foldl_attaches_passes (context : ServerContext) (events : List Event) (before : Bool) :
    (events.filterMap context.passes).foldl (Event.attaches t) before =
      events.foldl (Event.attaches t) before := by
  induction events generalizing before with
  | nil => rfl
  | cons event events ih =>
    cases event with
    | attach u | detach u => exact ih _
    | io m =>
      rw [List.filterMap_cons, ServerContext.passes]
      split
      next => exact ih before
      next heq =>
        split at heq
        · cases heq
          exact ih before
        · cases heq

/-- Only its own events matter to a session, whatever their numbers. -/
theorem attached_eq (t : SessionId) (events : List Event) :
    attached t events = attached t ((eventsOf t events).map Event.unnumbered) := by
  unfold attached
  generalize false = before
  induction events generalizing before with
  | nil => rfl
  | cons event events ih =>
    by_cases h : event.session = t
    · rw [eventsOf, List.filter_cons_of_pos (by simpa using h), List.map_cons, List.foldl_cons,
        List.foldl_cons, attaches_unnumbered]
      exact ih _
    · rw [eventsOf, List.filter_cons_of_neg (by simpa using h), List.foldl_cons, attaches_of_ne h]
      exact ih _

theorem foldl_attaches_io (requests : List Message) (before : Bool) :
    (requests.map Event.io).foldl (Event.attaches t) before = before := by
  induction requests with
  | nil => rfl
  | cons m requests ih => exact ih

theorem attached_present (t : SessionId) (requests : List Message) :
    attached t (.attach t :: requests.map .io) = true := by
  rw [attached, List.foldl_cons, foldl_attaches_io]
  simp [Event.attaches]

theorem attached_gone (t : SessionId) (requests : List Message) :
    attached t (.attach t :: requests.map .io ++ [.detach t]) = false := by
  rw [attached, List.foldl_append]
  simp [Event.attaches]

/-- What comes before a request is the attach and other requests. -/
theorem present_of_prefix {m : Message} {requests : List Message}
    (h : events ++ [.io m] <+: .attach t :: requests.map .io ++ [.detach t]) :
    ∃ before : List Message, events = .attach t :: before.map .io := by
  cases events with
  | nil =>
    rw [List.nil_append, List.cons_append, List.cons_prefix_cons] at h
    cases h.1
  | cons event events =>
    rw [List.cons_append, List.cons_append, List.cons_prefix_cons] at h
    obtain ⟨rfl, h⟩ := h
    rcases List.prefix_concat_iff.mp h with heq | hprefix
    · cases List.append_inj_right' heq rfl
    · obtain ⟨before, -, heq⟩ := List.prefix_map_iff.mp ((List.prefix_append _ _).trans hprefix)
      exact ⟨before, by rw [heq]⟩

end Attached

namespace Service

variable {σ : Type} [Sharing σ] {s : Service σ} {held : FileId → Nat}

theorem dispatch_run (d : Dispatcher) (s : Service σ) (event : Event) :
    (d.dispatch s event).2.2 = s.run (d.context.passes event).toList := by
  cases event with
  | attach session | detach session => rfl
  | io m =>
    change (d.request s m).2.2 = _
    rw [ServerContext.passes]
    split
    next h =>
      rw [Dispatcher.request_of_admits s h]
      rfl
    next h =>
      rw [Dispatcher.request_of_not_admits s h]
      rfl

theorem Sound.after_isSome (h : s.Sound held) (event : Event) (t : SessionId) :
    ((s.after event).connections.get? t).isSome =
      event.attaches t (s.connections.get? t).isSome := by
  by_cases ht : t = event.session
  swap
  · rw [after_connection_of_ne h.wellFormed ht, attaches_of_ne (Ne.symm ht)]
  subst ht
  cases event with
  | attach session =>
    change ((s.attach session).2.connections.get? session).isSome = _
    rcases attach_cases s session with ⟨conn, hget, heq⟩ | ⟨hget, heq⟩
    · rw [heq]
      simp [Event.attaches, Event.session, hget]
    · rw [heq, connections_put_self]
      simp [Event.attaches, Event.session]
  | detach session =>
    change ((s.detach session).2.connections.get? session).isSome = _
    rcases detach_cases s session with ⟨hget, heq⟩ | ⟨conn, hget, heq⟩
    · rw [heq]
      simp [Event.attaches, Event.session, hget]
    · have hgone : ConnectionTable.get? ⟨s.connections.bySession.erase session⟩ session = none :=
        SessionMap.get?_erase_self
      rw [heq, hgone]
      simp [Event.attaches, Event.session]
  | io m =>
    change ((s.answer m).2.connections.get? m.session).isSome =
      (s.connections.get? m.session).isSome
    cases hget : s.connections.get? m.session with
    | none => rw [answer_detached hget, hget]
    | some before =>
      obtain ⟨after, hafter⟩ := h.answer_attached hget
      rw [hafter]
      rfl

theorem Sound.run_isSome (h : s.Sound held) (events : List Event) (t : SessionId) :
    ((s.run events).connections.get? t).isSome =
      events.foldl (Event.attaches t) (s.connections.get? t).isSome := by
  induction events generalizing s with
  | nil => rfl
  | cons event events ih =>
    rw [List.foldl_cons, ← h.after_isSome event t]
    exact ih (h.after event)

theorem Fresh.run_isSome (h : s.Fresh) (events : List Event) (t : SessionId) :
    ((s.run events).connections.get? t).isSome = attached t events := by
  have hrun := h.sound.run_isSome events t
  rwa [h.connections] at hrun

end Service

namespace SessionMap

theorem size_eq_zero {β : Type} {m : SessionMap β} (h : ∀ t, m.get? t = none) : m.size = 0 := by
  rw [size, List.length_eq_zero_iff, List.eq_nil_iff_forall_not_mem]
  rintro ⟨t, value⟩ hmem
  have hget := get?_eq_some_iff.mpr hmem
  rw [h t] at hget
  cases hget

end SessionMap

namespace LocalSystem

variable {σ : Type} [Sharing σ] {s s' : LocalSystem (Service σ)} {service : Service σ}
variable {trace : List Happening} {happening : Happening} {context : ServerContext}

/-- The service has been through the events that the server has handled. -/
structure Served (context : ServerContext) (service : Service σ) (trace : List Happening)
    (s : LocalSystem (Service σ)) : Prop where
  settings : s.dispatcher.context = context
  app : s.app = service.run ((handledEvents trace).filterMap context.passes)

theorem Served.quiet (h : Served context service trace s) (hhandled : happening.handled? = none)
    (hcontext : s'.dispatcher.context = s.dispatcher.context) (happ : s'.app = s.app) :
    Served context service (trace ++ [happening]) s' := by
  refine ⟨hcontext.trans h.settings, happ.trans ?_⟩
  rw [handledEvents_concat, hhandled, Option.toList_none, List.append_nil]
  exact h.app

theorem Served.dispatch (h : Served context service trace s) {event : Event}
    {pending : List (ReceiveId × Ticket)} {reply : Option Reply}
    (hdispatcher : s'.dispatcher = (s.dispatcher.dispatch s.app event).2.1)
    (happ : s'.app = (s.dispatcher.dispatch s.app event).2.2) :
    Served context service (trace ++ [.handled event pending reply]) s' := by
  refine ⟨?_, ?_⟩
  · rw [hdispatcher, Dispatcher.context_dispatch, h.settings]
  · rw [happ, Service.dispatch_run, h.settings, h.app, handledEvents_concat, Happening.handled?,
      Option.toList_some, filterMap_concat, Service.run, Service.run, Service.run,
      List.foldl_append]

theorem Served.effect (h : Served context service trace s) (heffect : s.Effect happening s') :
    Served context service (trace ++ [happening]) s' := by
  cases heffect with
  | connect | send | collect | abandoned | disconnect | dropConnector | receive | receiveRequest
  | close => exact h.quiet rfl rfl rfl
  | dispatch | answer => exact h.dispatch rfl rfl
  | deliver => exact h.quiet rfl (Dispatcher.context_deliver _ _ _) rfl

theorem Run.served (hrun : (start context service).Run trace s) :
    Served context service trace s := by
  induction hrun with
  | refl => exact ⟨rfl, rfl⟩
  | snoc hrun hstep ih => exact ih.effect (hstep.effect hrun.kept.presence)

/-- A session is attached just if the events that have been handled say so. -/
theorem Run.isSome_connection (hrun : (start context service).Run trace s) (hfresh : service.Fresh)
    (t : SessionId) :
    (s.app.connections.get? t).isSome = attached t (handledEvents trace) := by
  rw [hrun.served.app, hfresh.run_isSome, attached, foldl_attaches_passes, attached]

/-- Every request that comes before the service finds its session attached. -/
theorem Run.finds (hrun : (start context service).Run trace s) (hfresh : service.Fresh)
    (hfew : (sessions trace).length < 2 ^ 32) {m : Message} (hstage : s.stage = .handling (.io m)) :
    ∃ conn, s.app.connections.get? m.session = some conn := by
  obtain ⟨requests, hlife⟩ := received_life hrun.kept.flows (hrun.lives hfew) m.session
  have hreceived := hrun.kept.flows.stage
  have hself : eventsOf m.session [.io m] = [.io m] := eventsOf_singleton_self rfl
  rw [hstage] at hreceived
  rw [hreceived, eventsOf_append, Stage.event?, Option.toList_some, hself, List.map_append,
    List.map_singleton] at hlife
  obtain ⟨before, hbefore⟩ := present_of_prefix hlife
  rw [← Option.isSome_iff_exists, hrun.isSome_connection hfresh, attached_eq, hbefore,
    attached_present]

/-- When all clients have gone and the queue is drained, no session is attached. -/
theorem Run.deserted (hrun : (start context service).Run trace s) (hfresh : service.Fresh)
    (hfew : (sessions trace).length < 2 ^ 32) (hclients : s.channel.clients = [])
    (hdrained : s.Drained) (t : SessionId) : s.app.connections.get? t = none := by
  have hlives := hrun.lives hfew
  have hflows := hrun.kept.flows
  have hnothing : s.stage.event? = none := by
    rcases hdrained.stage with hidle | ⟨result, hended⟩
    · rw [hidle]; rfl
    · rw [hended]; rfl
  have hhandled := hflows.stage
  have hposted := hflows.fifo
  rw [hnothing, Option.toList_none, List.append_nil] at hhandled
  rw [hdrained.queue, List.map_nil, List.append_nil, hhandled] at hposted
  rw [← Option.not_isSome_iff_eq_none, hrun.isSome_connection hfresh, attached_eq,
    ← eventsOf_unnumbered, hposted, Bool.not_eq_true]
  by_cases ht : t ∈ sessions trace
  · obtain ⟨requests, hrequests⟩ := hlives.gone t ht (by simp [hclients])
    rw [hrequests, attached_gone]
  · rw [hlives.absent t ht]
    rfl

theorem Run.deserted_service (hrun : (start context service).Run trace s)
    (hfresh : service.Fresh) (hgone : ∀ t, s.app.connections.get? t = none) :
    s.app.connections.size = 0 ∧ (service.ns.Idle → s.app.ns.Idle) ∧
      ∃ events, s.app = service.run events ∧
        ∀ t, GrantCall.live (service.calls t events) = false := by
  have happ := hrun.served.app
  generalize (handledEvents trace).filterMap context.passes = events at happ
  have hsize : s.app.connections.size = 0 := SessionMap.size_eq_zero hgone
  refine ⟨hsize, fun hidle id file hfile ↦ ?_, events, happ, fun t ↦ ?_⟩
  · have hrefs := (hfresh.sound.run events).refs id
    rw [← happ, ConnectionTable.bindings_of_size hsize, hidle.refs_eq,
      Namespace.refs_of_live hfile] at hrefs
    exact UInt32.toNat_inj.mp hrefs
  · refine ((hfresh.tracks events).live_eq t).trans ?_
    rw [Service.grants_apply, ← happ, Service.granted?_of_detached (hgone t)]
    rfl

theorem Run.deserted_grants {s : LocalSystem (Service GrantTable)} {service : Service GrantTable}
    (hrun : (start context service).Run trace s) (hfresh : service.Fresh)
    (hempty : service.share = .empty) (hgone : ∀ t, s.app.connections.get? t = none)
    (t : SessionId) : s.app.share.grant? t = none := by
  have happ := hrun.served.app
  generalize (handledEvents trace).filterMap context.passes = events at happ
  have hrecorded := hfresh.recorded hempty events
  have hsome := hrecorded.isSome_iff (hfresh.sound.run events) (t := t)
  rw [← happ] at hsome
  rw [← Option.not_isSome_iff_eq_none, hsome]
  rintro ⟨conn, generation, hget, -⟩
  rw [hgone t] at hget
  cases hget

/-- A channel within one process is faithful to its clients, however they and the server take turns.
So a service finds the session of every request attached, and holds nothing for clients that have
gone. -/
theorem local_channel_faithful :
    (∀ {α : Type} [ServerApp α] (context : ServerContext) (app : α) (trace : List Happening)
      (s : LocalSystem α), (start context app).Run trace s → (sessions trace).length < 2 ^ 32 →
        Faithful trace s) ∧
    (∀ {α : Type} [ServerApp α] (context : ServerContext) (app : α), context.workers = 1 →
      (ServerApp.start app context).1 = .ok () → ∀ channel : LocalChannel,
        (Dispatcher.new context).run app channel =
          (start context app).dispatcher.serve (start context app).app channel) ∧
    (∀ {σ : Type} [Sharing σ] (context : ServerContext) (service : Service σ)
      (trace : List Happening) (s : LocalSystem (Service σ)), service.Fresh →
      (start context service).Run trace s → (sessions trace).length < 2 ^ 32 →
        (∀ m, s.stage = .handling (.io m) →
          ∃ conn, s.app.connections.get? m.session = some conn) ∧
        (s.channel.clients = [] → s.Drained →
          s.app.connections.size = 0 ∧ (service.ns.Idle → s.app.ns.Idle) ∧
          ∃ events, s.app = service.run events ∧
            ∀ t, GrantCall.live (service.calls t events) = false)) ∧
    ∀ (context : ServerContext) (service : Service GrantTable) (trace : List Happening)
      (s : LocalSystem (Service GrantTable)), service.Fresh → service.share = .empty →
      (start context service).Run trace s → (sessions trace).length < 2 ^ 32 →
        s.channel.clients = [] → s.Drained → ∀ t, s.app.share.grant? t = none := by
  refine ⟨?_, ?_, ?_, ?_⟩
  · intro α _ context app trace s hrun hfew
    exact hrun.faithful hfew
  · intro α _ context app hworkers hstart channel
    exact Dispatcher.run_of_started (d := .new context) hworkers (Prod.ext hstart rfl) channel
  · intro σ _ context service trace s hfresh hrun hfew
    refine ⟨fun m hstage ↦ hrun.finds hfresh hfew hstage, fun hclients hdrained ↦ ?_⟩
    exact hrun.deserted_service hfresh (hrun.deserted hfresh hfew hclients hdrained)
  · intro context service trace s hfresh hempty hrun hfew hclients hdrained
    exact hrun.deserted_grants hfresh hempty (hrun.deserted hfresh hfew hclients hdrained)

def localContext : ServerContext := ⟨"/proc", 2048, 1⟩

def localHeader : RequestHeader := .new .read 0 1 4

/-- A client attaches and sends, and its request comes before the server. -/
theorem request_comes {α : Type} [ServerApp α] (app : α) :
    ∃ trace s, (start localContext app).Run trace s ∧ sessions trace = [⟨1⟩] ∧
      s.stage = .handling (.io ⟨⟨1⟩, ⟨1⟩, localHeader, .ofList [7]⟩) := by
  refine ⟨_, _, .snoc (.snoc (.snoc (.snoc (.snoc .refl (.connect rfl))
    (.send (show (⟨1⟩ : SessionId) ∈ _ from ?_) ?_ localHeader [7])) (.receive rfl rfl))
    (.dispatch rfl)) (.receive rfl rfl), rfl, rfl⟩
  · exact List.mem_singleton_self _
  · exact fun call hcall ↦ absurd hcall List.not_mem_nil

/-- It gets its answer. -/
theorem request_returns : ∃ trace s,
    (start localContext (Echo.new ⟨false, false, false, false⟩)).Run trace s ∧
      sessions trace = [⟨1⟩] ∧ .returned ⟨1⟩ ⟨0⟩ (.ok ⟨0, [7]⟩) ∈ trace := by
  refine ⟨_, _, .snoc (.snoc (.snoc (.snoc (.snoc (.snoc (.snoc (.snoc .refl (.connect rfl))
    (.send (show (⟨1⟩ : SessionId) ∈ _ from ?_) ?_ localHeader [7])) (.receive rfl rfl))
    (.dispatch rfl)) (.receive rfl rfl)) (.dispatch rfl)) (.deliver rfl))
    (.collect (show ((⟨1⟩ : SessionId), (⟨0⟩ : Ticket)) ∈ _ from ?_)
      (show _ = some (.ok ⟨0, [7]⟩) from ?_)), rfl, ?_⟩
  · exact List.mem_singleton_self _
  · exact fun call hcall ↦ absurd hcall List.not_mem_nil
  · exact List.mem_singleton_self _
  · decide +kernel
  · exact List.mem_append_right _ (List.mem_singleton_self _)

/-- A client comes and goes. -/
theorem client_goes {α : Type} [ServerApp α] (app : α) :
    ∃ trace s, (start localContext app).Run trace s ∧ sessions trace = [⟨1⟩] ∧
      s.channel.clients = [] ∧ s.Drained := by
  refine ⟨_, _, .snoc (.snoc (.snoc (.snoc (.snoc (.snoc .refl (.connect rfl))
    (.disconnect (show (⟨1⟩ : SessionId) ∈ _ from ?_) ?_)) (.receive rfl rfl)) (.dispatch rfl))
    (.receive rfl rfl)) (.dispatch rfl), rfl, rfl, rfl, .inl rfl⟩
  · exact List.mem_singleton_self _
  · exact fun call hcall ↦ absurd hcall List.not_mem_nil

theorem one_client_served :
    (∃ trace s, (start localContext (Echo.new ⟨false, false, false, false⟩)).Run trace s ∧
      (sessions trace).length < 2 ^ 32 ∧ .returned ⟨1⟩ ⟨0⟩ (.ok ⟨0, [7]⟩) ∈ trace ∧
      Faithful trace s) ∧
    (localContext.workers = 1 ∧
      (ServerApp.start (Echo.new ⟨false, false, false, false⟩) localContext).1 = .ok () ∧
      (Dispatcher.new localContext).run (Echo.new ⟨false, false, false, false⟩) LocalChannel.new =
        (start localContext (Echo.new ⟨false, false, false, false⟩)).dispatcher.serve
          (start localContext (Echo.new ⟨false, false, false, false⟩)).app LocalChannel.new) ∧
    (∃ trace s, (Service.new .standard GrantTable.empty).Fresh ∧
      (start localContext (Service.new .standard GrantTable.empty)).Run trace s ∧
      (sessions trace).length < 2 ^ 32 ∧
      s.stage = .handling (.io ⟨⟨1⟩, ⟨1⟩, localHeader, .ofList [7]⟩) ∧
      ∃ conn, s.app.connections.get? ⟨1⟩ = some conn) ∧
    ∃ trace s, (Service.new .standard GrantTable.empty).Fresh ∧
      (Service.new .standard GrantTable.empty).share = .empty ∧
      (start localContext (Service.new .standard GrantTable.empty)).Run trace s ∧
      (sessions trace).length < 2 ^ 32 ∧ s.channel.clients = [] ∧ s.Drained ∧
      s.app.connections.size = 0 ∧ ∀ t, s.app.share.grant? t = none := by
  have hfresh : (Service.new .standard GrantTable.empty).Fresh := Service.fresh_new _ _
  obtain ⟨hfaithful, hloop, hservice, hgrants⟩ := local_channel_faithful
  refine ⟨?_, ?_, ?_, ?_⟩
  · obtain ⟨trace, s, hrun, hsessions, hreturned⟩ := request_returns
    have hfew : (sessions trace).length < 2 ^ 32 := by
      rw [hsessions]
      decide
    exact ⟨trace, s, hrun, hfew, hreturned, hfaithful _ _ trace s hrun hfew⟩
  · exact ⟨rfl, rfl, hloop localContext _ rfl rfl .new⟩
  · obtain ⟨trace, s, hrun, hsessions, hstage⟩ :=
      request_comes (Service.new .standard GrantTable.empty)
    have hfew : (sessions trace).length < 2 ^ 32 := by
      rw [hsessions]
      decide
    exact ⟨trace, s, hfresh, hrun, hfew, hstage, (hservice _ _ trace s hfresh hrun hfew).1 _ hstage⟩
  · obtain ⟨trace, s, hrun, hsessions, hclients, hdrained⟩ :=
      client_goes (Service.new .standard GrantTable.empty)
    have hfew : (sessions trace).length < 2 ^ 32 := by
      rw [hsessions]
      decide
    exact ⟨trace, s, hfresh, rfl, hrun, hfew, hclients, hdrained,
      ((hservice _ _ trace s hfresh hrun hfew).2 hclients hdrained).1,
      hgrants _ _ trace s hfresh rfl hrun hfew hclients hdrained⟩

end LocalSystem

end BootNamespace
