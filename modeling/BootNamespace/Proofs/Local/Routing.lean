import Mathlib.Data.List.Perm.Basic
import BootNamespace.Proofs.Local.Order

namespace BootNamespace

namespace Happening

/-- The ticket of a request that has been put into the channel. -/
def asked? : Happening → Option Ticket
  | sent _ _ _ (.ok ticket) => some ticket
  | _ => none

/-- The ticket of a request for which dispatching has produced a reply. -/
def answered? : Happening → Option Ticket
  | handled (.io _) pending _ => pending.head?.map (·.2)
  | _ => none

/-- The ticket of a request whose client has got its answer. -/
def returned? : Happening → Option Ticket
  | returned _ ticket _ => some ticket
  | _ => none

end Happening

namespace LocalSystem

variable {α : Type} {s s' : LocalSystem α} {trace more : List Happening} {happening : Happening}
variable {m : Message} {ticket : Ticket} {reply : Reply}

def askedTickets (trace : List Happening) : List Ticket := trace.filterMap Happening.asked?

def answeredTickets (trace : List Happening) : List Ticket := trace.filterMap Happening.answered?

def returnedTickets (trace : List Happening) : List Ticket := trace.filterMap Happening.returned?

/-- The message is what a client has sent under the ticket. -/
def Asks (trace : List Happening) (m : Message) (ticket : Ticket) : Prop :=
  .sent m.session m.header m.payload.toList (.ok ticket) ∈ trace

/-- The reply is what dispatching the message has produced while it was the one pending request. -/
structure Answers (trace : List Happening) (m : Message) (ticket : Ticket) (reply : Reply) :
    Prop where
  asks : Asks trace m ticket
  handled : .handled (.io m) [(m.rcvid, ticket)] (some reply) ∈ trace

/-- An envelope carries a ticket just if it is a request, and then that of this request. -/
inductive Genuine (trace : List Happening) : Envelope → Prop
  | other {event : Event} (h : ∀ m, event ≠ .io m) : Genuine trace ⟨event, none⟩
  | request {m : Message} {ticket : Ticket} (h : Asks trace m ticket) :
      Genuine trace ⟨.io m, some ticket⟩

/-- Between receiving a request and delivering its reply the server has that request pending, and
otherwise none. -/
inductive InHand (trace : List Happening) : Stage → List (ReceiveId × Ticket) → Prop
  | idle : InHand trace .idle []
  | ended (result : Except AppError DispatchStats) : InHand trace (.ended result) []
  | other {event : Event} (h : ∀ m, event ≠ .io m) : InHand trace (.handling event) []
  | request {m : Message} {ticket : Ticket} (h : Asks trace m ticket) :
      InHand trace (.handling (.io m)) [(m.rcvid, ticket)]
  | replying {m : Message} {ticket : Ticket} {reply : Reply} (h : Answers trace m ticket reply) :
      InHand trace (.replying m.rcvid reply) [(m.rcvid, ticket)]

/-- The tickets of the request that the server has at hand and has not dispatched. -/
def current (s : LocalSystem α) : List Ticket :=
  match s.stage with
  | .handling _ => s.channel.pending.map (·.2)
  | .idle | .replying _ _ | .ended _ => []

def queued (s : LocalSystem α) : List Ticket := s.channel.queue.filterMap (·.ticket)

/-- What the server has at hand and what comes out of the channel goes back to what clients have
sent and dispatching has produced. -/
structure Vouched (trace : List Happening) (s : LocalSystem α) : Prop where
  genuine : ∀ envelope ∈ s.channel.queue, Genuine trace envelope
  inHand : InHand trace s.stage s.channel.pending
  answers : ∀ answer ∈ s.channel.answers, ∃ m, Answers trace m answer.1 answer.2
  callers : ∀ call ∈ s.waiting, call.1 ∈ s.channel.clients ∧
    ∃ header payload, .sent call.1 header payload (.ok call.2) ∈ trace
  results : ∀ session ticket result, .returned session ticket result ∈ trace →
    ∃ header payload m reply, .sent session header payload (.ok ticket) ∈ trace ∧
      result = .ok reply ∧ Answers trace m ticket reply
  delivered : s.dispatcher.stats.lostReplies = 0

/-- Every request is in one place: in the queue, with the server, among the answers, or back with
its client. -/
structure Conserved (trace : List Happening) (s : LocalSystem α) : Prop where
  tickets : askedTickets trace = (List.range s.channel.nextTicket).map Ticket.mk
  flow : askedTickets trace = answeredTickets trace ++ s.current ++ s.queued
  waiting : (s.waiting.map (·.2)).Perm
    (s.channel.answers.map (·.1) ++ s.channel.pending.map (·.2) ++ s.queued)
  returned : (askedTickets trace).Perm (returnedTickets trace ++ s.waiting.map (·.2))

section Traces

theorem Asks.mono (h : Asks trace m ticket) (more : List Happening) :
    Asks (trace ++ more) m ticket := List.mem_append_left _ h

theorem Answers.mono (h : Answers trace m ticket reply) (more : List Happening) :
    Answers (trace ++ more) m ticket reply :=
  ⟨h.asks.mono more, List.mem_append_left _ h.handled⟩

theorem Genuine.mono {envelope : Envelope} (h : Genuine trace envelope) (more : List Happening) :
    Genuine (trace ++ more) envelope := by
  cases h with
  | other h => exact .other h
  | request h => exact .request (h.mono more)

theorem Genuine.ticket_eq_none {event : Event} {ticket : Option Ticket}
    (h : Genuine trace ⟨event, ticket⟩) (hother : ∀ m, event ≠ .io m) : ticket = none := by
  cases h with
  | other => rfl
  | request => exact absurd rfl (hother _)

theorem Genuine.exists_ticket {ticket : Option Ticket} (h : Genuine trace ⟨.io m, ticket⟩) :
    ∃ asked, ticket = some asked ∧ Asks trace m asked := by
  cases h with
  | other hother => exact absurd rfl (hother m)
  | request hasks => exact ⟨_, rfl, hasks⟩

theorem InHand.mono {stage : Stage} {pending : List (ReceiveId × Ticket)}
    (h : InHand trace stage pending) (more : List Happening) :
    InHand (trace ++ more) stage pending := by
  cases h with
  | idle => exact .idle
  | ended result => exact .ended result
  | other h => exact .other h
  | request h => exact .request (h.mono more)
  | replying h => exact .replying (h.mono more)

theorem InHand.pending_of_idle {stage : Stage} {pending : List (ReceiveId × Ticket)}
    (h : InHand trace stage pending) (hstage : stage = .idle) : pending = [] := by
  subst hstage
  cases h
  rfl

end Traces

section Vouched

theorem Vouched.start [ServerApp α] (context : ServerContext) (app : α) :
    Vouched [] (start context app) where
  genuine := fun _ h ↦ absurd h List.not_mem_nil
  inHand := .idle
  answers := fun _ h ↦ absurd h List.not_mem_nil
  callers := fun _ h ↦ absurd h List.not_mem_nil
  results := fun _ _ _ h ↦ absurd h List.not_mem_nil
  delivered := rfl

theorem Vouched.clients_ne_nil (h : Vouched trace s) {call : SessionId × Ticket}
    (hcall : call ∈ s.waiting) : s.channel.clients ≠ [] :=
  List.ne_nil_of_mem (h.callers call hcall).1

/-- What is vouched for stays so as the trace goes on, if what it adds is. -/
theorem Vouched.mono (h : Vouched trace s) (happening : Happening)
    (hresult : ∀ session ticket result, happening = .returned session ticket result →
      ∃ header payload m reply, .sent session header payload (.ok ticket) ∈ trace ∧
        result = .ok reply ∧ Answers trace m ticket reply) : Vouched (trace ++ [happening]) s where
  genuine envelope henvelope := (h.genuine envelope henvelope).mono _
  inHand := h.inHand.mono _
  answers answer hanswer := by
    obtain ⟨m, hm⟩ := h.answers answer hanswer
    exact ⟨m, hm.mono _⟩
  callers call hcall := by
    obtain ⟨hclient, header, payload, hsent⟩ := h.callers call hcall
    exact ⟨hclient, header, payload, List.mem_append_left _ hsent⟩
  results session ticket result hmem := by
    obtain ⟨header, payload, m, reply, hsent, hresult, hm⟩ :
        ∃ header payload m reply, .sent session header payload (.ok ticket) ∈ trace ∧
          result = .ok reply ∧ Answers trace m ticket reply := by
      rcases List.mem_append.mp hmem with hmem | hmem
      · exact h.results _ _ _ hmem
      · exact hresult _ _ _ (List.mem_singleton.mp hmem).symm
    exact ⟨header, payload, m, reply, List.mem_append_left _ hsent, hresult, hm.mono _⟩
  delivered := h.delivered

/-- What a step shows is vouched for by the state before it. -/
theorem Vouched.seen [ServerApp α] (h : Vouched trace s) (heffect : s.Effect happening s') :
    Vouched (trace ++ [happening]) s := by
  refine h.mono happening fun _ _ _ heq ↦ ?_
  cases heffect with
  | @collect session ticket reply hcall hanswer =>
    cases heq
    obtain ⟨-, header, payload, hsent⟩ := h.callers _ hcall
    obtain ⟨m, hanswers⟩ := h.answers _ hanswer
    exact ⟨header, payload, m, reply, hsent, rfl, hanswers⟩
  | abandoned result hcall hgone => exact absurd hgone (h.clients_ne_nil hcall)
  | connect | send | disconnect | dropConnector | receive | receiveRequest | dispatch | answer
  | deliver | close => cases heq

/-- The only pending request is the one whose reply is due, so that its client gets it. -/
theorem Vouched.deliver_eq [ServerApp α] (h : Vouched trace s) {rcvid : ReceiveId}
    (hstage : s.stage = .replying rcvid reply) :
    ∃ m ticket, Answers trace m ticket reply ∧ s.channel.pending = [(rcvid, ticket)] ∧
      s.dispatcher.deliver s.channel rcvid reply = (s.dispatcher, { s.channel with
        pending := [], answers := s.channel.answers ++ [(ticket, reply)] }) := by
  have hinHand := h.inHand
  rw [hstage] at hinHand
  generalize hpending : s.channel.pending = pending at hinHand
  cases hinHand with
  | @replying m ticket _ hanswers =>
    exact ⟨m, ticket, hanswers, rfl, LocalChannel.deliver_eq hpending _ reply⟩

theorem Vouched.pending_of_handling (h : Vouched trace s) (hstage : s.stage = .handling (.io m)) :
    ∃ ticket, Asks trace m ticket ∧ s.channel.pending = [(m.rcvid, ticket)] := by
  have hinHand := h.inHand
  rw [hstage] at hinHand
  generalize s.channel.pending = pending at hinHand
  cases hinHand with
  | other hother => exact absurd rfl (hother m)
  | @request m ticket hasks => exact ⟨ticket, hasks, rfl⟩

theorem Vouched.pending_of_other (h : Vouched trace s) {event : Event}
    (hstage : s.stage = .handling event) (hother : ∀ m, event ≠ .io m) :
    s.channel.pending = [] := by
  have hinHand := h.inHand
  rw [hstage] at hinHand
  generalize s.channel.pending = pending at hinHand
  cases hinHand with
  | other => rfl
  | request => exact absurd rfl (hother _)

theorem lostReplies_dispatch [ServerApp α] (d : Dispatcher) (app : α) (event : Event) :
    (d.dispatch app event).2.1.stats.lostReplies = d.stats.lostReplies := by
  cases event with
  | attach | detach => rfl
  | io m =>
    change (d.request app m).2.1.stats.lostReplies = _
    by_cases hadmits : d.context.Admits m
    · rw [Dispatcher.request_of_admits app hadmits]
      rfl
    · rw [Dispatcher.request_of_not_admits app hadmits]
      rfl

theorem Vouched.effect [ServerApp α] (h : Vouched trace s) (heffect : s.Effect happening s') :
    Vouched (trace ++ [happening]) s' := by
  have hseen := h.seen heffect
  cases heffect with
  | connect hopen =>
    refine ⟨?_, hseen.inHand, hseen.answers, ?_, hseen.results, hseen.delivered⟩
    · exact List.forall_mem_append.mpr ⟨hseen.genuine,
        List.forall_mem_singleton.mpr (.other (by simp))⟩
    · exact fun call hcall ↦ (hseen.callers call hcall).imp_left (List.mem_append_left _)
  | @send session hclient header payload =>
    have hsent : .sent session header payload (.ok ⟨s.channel.nextTicket⟩) ∈
        trace ++ [.sent session header payload (.ok ⟨s.channel.nextTicket⟩)] :=
      List.mem_append_right _ (List.mem_singleton_self _)
    refine ⟨?_, hseen.inHand, hseen.answers, ?_, hseen.results, hseen.delivered⟩
    · exact List.forall_mem_append.mpr ⟨hseen.genuine,
        List.forall_mem_singleton.mpr (.request hsent)⟩
    · exact List.forall_mem_append.mpr ⟨hseen.callers,
        List.forall_mem_singleton.mpr ⟨hclient, header, payload, hsent⟩⟩
  | collect hcall hanswer =>
    refine ⟨hseen.genuine, hseen.inHand, ?_, ?_, hseen.results, hseen.delivered⟩
    · exact fun answer hmem ↦ hseen.answers answer (List.mem_of_mem_filter hmem)
    · exact fun call hmem ↦ hseen.callers call (List.mem_of_mem_filter hmem)
  | abandoned result hcall hgone => exact absurd hgone (h.clients_ne_nil hcall)
  | disconnect hclient hfree =>
    refine ⟨?_, hseen.inHand, hseen.answers, ?_, hseen.results, hseen.delivered⟩
    · exact List.forall_mem_append.mpr ⟨hseen.genuine,
        List.forall_mem_singleton.mpr (.other (by simp))⟩
    · intro call hcall
      refine (hseen.callers call hcall).imp_left fun hstays ↦ ?_
      exact List.mem_filter.mpr ⟨hstays, by simpa using hfree call hcall⟩
  | dropConnector =>
    exact ⟨hseen.genuine, hseen.inHand, hseen.answers, hseen.callers, hseen.results,
      hseen.delivered⟩
  | receive hstage hqueue hother =>
    refine ⟨?_, ?_, hseen.answers, hseen.callers, hseen.results, hseen.delivered⟩
    · exact fun envelope henvelope ↦
        hseen.genuine envelope (hqueue ▸ List.mem_cons_of_mem _ henvelope)
    · dsimp only
      rw [h.inHand.pending_of_idle hstage]
      exact .other hother
  | receiveRequest hstage hqueue =>
    obtain ⟨ticket, rfl, hasks⟩ :=
      (hseen.genuine _ (hqueue ▸ List.mem_cons_self)).exists_ticket
    refine ⟨?_, ?_, hseen.answers, hseen.callers, hseen.results, hseen.delivered⟩
    · exact fun envelope henvelope ↦
        hseen.genuine envelope (hqueue ▸ List.mem_cons_of_mem _ henvelope)
    · dsimp only [LocalChannel.pendingWith]
      rw [h.inHand.pending_of_idle hstage]
      exact .request hasks
  | dispatch hstage hother =>
    refine ⟨hseen.genuine, ?_, hseen.answers, hseen.callers, hseen.results, ?_⟩
    · dsimp only
      rw [h.pending_of_other hstage hother]
      exact .idle
    · exact (lostReplies_dispatch _ _ _).trans h.delivered
  | @answer m hstage =>
    obtain ⟨ticket, hasks, hpending⟩ := h.pending_of_handling hstage
    have hhandled : .handled (.io m) [(m.rcvid, ticket)] (some (s.dispatcher.request s.app m).1) ∈
        trace ++ [.handled (.io m) s.channel.pending (some (s.dispatcher.request s.app m).1)] := by
      rw [hpending]
      exact List.mem_append_right _ (List.mem_singleton_self _)
    refine ⟨hseen.genuine, ?_, hseen.answers, hseen.callers, hseen.results, ?_⟩
    · dsimp only
      rw [hpending] at hhandled ⊢
      exact .replying ⟨hasks.mono _, hhandled⟩
    · exact (lostReplies_dispatch _ _ _).trans h.delivered
  | deliver hstage =>
    obtain ⟨m, ticket, hanswers, -, heq⟩ := h.deliver_eq hstage
    rw [heq]
    refine ⟨hseen.genuine, .idle, ?_, hseen.callers, hseen.results, hseen.delivered⟩
    exact List.forall_mem_append.mpr ⟨hseen.answers,
      List.forall_mem_singleton.mpr ⟨m, hanswers.mono _⟩⟩
  | close hstage hqueue hconnector hclients =>
    exact ⟨fun envelope henvelope ↦ absurd henvelope List.not_mem_nil, .ended _, hseen.answers,
      hseen.callers, hseen.results, hseen.delivered⟩

end Vouched

section Conserved

theorem askedTickets_concat (trace : List Happening) (happening : Happening) :
    askedTickets (trace ++ [happening]) = askedTickets trace ++ happening.asked?.toList :=
  filterMap_concat ..

theorem answeredTickets_concat (trace : List Happening) (happening : Happening) :
    answeredTickets (trace ++ [happening]) =
      answeredTickets trace ++ happening.answered?.toList := filterMap_concat ..

theorem returnedTickets_concat (trace : List Happening) (happening : Happening) :
    returnedTickets (trace ++ [happening]) =
      returnedTickets trace ++ happening.returned?.toList := filterMap_concat ..

theorem Conserved.start [ServerApp α] (context : ServerContext) (app : α) :
    Conserved [] (start context app) := ⟨rfl, rfl, .refl _, .refl _⟩

theorem Conserved.nodup (h : Conserved trace s) : (askedTickets trace).Nodup := by
  rw [h.tickets]
  exact List.nodup_range.map fun _ _ heq ↦ congrArg Ticket.number heq

theorem Conserved.nodup_waiting (h : Conserved trace s) : (s.waiting.map (·.2)).Nodup :=
  (List.nodup_append.mp (h.returned.nodup_iff.mp h.nodup)).2.1

/-- The server moves requests on, and each of them is still in one place. -/
theorem Conserved.move (h : Conserved trace s) (hasked : happening.asked? = none)
    (hreturned : happening.returned? = none)
    (hticket : s'.channel.nextTicket = s.channel.nextTicket) (hwaiting : s'.waiting = s.waiting)
    (hflow : happening.answered?.toList ++ s'.current ++ s'.queued = s.current ++ s.queued)
    (hplaces : s'.channel.answers.map (·.1) ++ s'.channel.pending.map (·.2) ++ s'.queued =
      s.channel.answers.map (·.1) ++ s.channel.pending.map (·.2) ++ s.queued) :
    Conserved (trace ++ [happening]) s' := by
  have hasked : askedTickets (trace ++ [happening]) = askedTickets trace := by
    rw [askedTickets_concat, hasked, Option.toList_none, List.append_nil]
  have hreturned : returnedTickets (trace ++ [happening]) = returnedTickets trace := by
    rw [returnedTickets_concat, hreturned, Option.toList_none, List.append_nil]
  exact {
    tickets := by rw [hasked, hticket]; exact h.tickets
    flow := by
      rw [hasked, h.flow, answeredTickets_concat, List.append_assoc, ← hflow]
      simp only [List.append_assoc]
    waiting := by rw [hwaiting, hplaces]; exact h.waiting
    returned := by rw [hasked, hreturned, hwaiting]; exact h.returned }

theorem Conserved.quiet (h : Conserved trace s) (hasked : happening.asked? = none)
    (hanswered : happening.answered? = none) (hreturned : happening.returned? = none)
    (hticket : s'.channel.nextTicket = s.channel.nextTicket) (hcurrent : s'.current = s.current)
    (hqueued : s'.queued = s.queued) (hanswers : s'.channel.answers = s.channel.answers)
    (hpending : s'.channel.pending = s.channel.pending) (hwaiting : s'.waiting = s.waiting) :
    Conserved (trace ++ [happening]) s' := by
  refine h.move hasked hreturned hticket hwaiting ?_ ?_
  · rw [hanswered, hcurrent, hqueued]
    rfl
  · rw [hanswers, hpending, hqueued]

theorem Conserved.send (h : Conserved trace s) {session : SessionId} {header : RequestHeader}
    {payload : Bytes} (hticket : s'.channel.nextTicket = s.channel.nextTicket + 1)
    (hcurrent : s'.current = s.current)
    (hqueued : s'.queued = s.queued ++ [⟨s.channel.nextTicket⟩])
    (hanswers : s'.channel.answers = s.channel.answers)
    (hpending : s'.channel.pending = s.channel.pending)
    (hwaiting : s'.waiting = s.waiting ++ [(session, ⟨s.channel.nextTicket⟩)]) :
    Conserved (trace ++ [.sent session header payload (.ok ⟨s.channel.nextTicket⟩)]) s' := by
  have hasked : askedTickets (trace ++ [.sent session header payload
      (.ok ⟨s.channel.nextTicket⟩)]) = askedTickets trace ++ [⟨s.channel.nextTicket⟩] :=
    askedTickets_concat ..
  have hanswered : answeredTickets (trace ++ [.sent session header payload
      (.ok ⟨s.channel.nextTicket⟩)]) = answeredTickets trace :=
    (answeredTickets_concat ..).trans (List.append_nil _)
  have hreturned : returnedTickets (trace ++ [.sent session header payload
      (.ok ⟨s.channel.nextTicket⟩)]) = returnedTickets trace :=
    (returnedTickets_concat ..).trans (List.append_nil _)
  exact {
    tickets := by
      rw [hasked, hticket, h.tickets, List.range_succ, List.map_append, List.map_singleton]
    flow := by rw [hasked, hanswered, hcurrent, hqueued, h.flow, List.append_assoc]
    waiting := by
      rw [hwaiting, hanswers, hpending, hqueued, List.map_append, ← List.append_assoc]
      exact h.waiting.append_right _
    returned := by
      rw [hasked, hreturned, hwaiting, List.map_append, ← List.append_assoc]
      exact h.returned.append_right _ }

/-- Tickets are all different, so that taking one out leaves the rest. -/
theorem perm_cons_filter {tickets : List Ticket} (hnodup : tickets.Nodup)
    (hmem : ticket ∈ tickets) : tickets.Perm (ticket :: tickets.filter (· ≠ ticket)) := by
  have hfilter : tickets.erase ticket = tickets.filter (· ≠ ticket) := by
    rw [hnodup.erase_eq_filter]
    refine List.filter_congr fun other _ ↦ ?_
    rw [decide_not]
    rfl
  rw [← hfilter]
  exact List.perm_cons_erase hmem

theorem Conserved.collect (h : Conserved trace s) {session : SessionId}
    {result : Except FsError Reply} (hcall : (session, ticket) ∈ s.waiting)
    (hanswer : ticket ∈ s.channel.answers.map (·.1))
    (hticket : s'.channel.nextTicket = s.channel.nextTicket) (hcurrent : s'.current = s.current)
    (hqueued : s'.queued = s.queued)
    (hanswers : s'.channel.answers = s.channel.answers.filter (·.1 ≠ ticket))
    (hpending : s'.channel.pending = s.channel.pending)
    (hwaiting : s'.waiting = s.waiting.filter (·.2 ≠ ticket)) :
    Conserved (trace ++ [.returned session ticket result]) s' := by
  have hasked : askedTickets (trace ++ [.returned session ticket result]) = askedTickets trace :=
    (askedTickets_concat ..).trans (List.append_nil _)
  have hanswered : answeredTickets (trace ++ [.returned session ticket result]) =
      answeredTickets trace := (answeredTickets_concat ..).trans (List.append_nil _)
  have hreturned : returnedTickets (trace ++ [.returned session ticket result]) =
      returnedTickets trace ++ [ticket] := returnedTickets_concat ..
  have hrest : s'.waiting.map (·.2) = (s.waiting.map (·.2)).filter (· ≠ ticket) := by
    rw [hwaiting, List.filter_map]
    rfl
  have hleft : s'.channel.answers.map (·.1) =
      (s.channel.answers.map (·.1)).filter (· ≠ ticket) := by
    rw [hanswers, List.filter_map]
    rfl
  have hmem : ticket ∈ s.waiting.map (·.2) := List.mem_map.mpr ⟨_, hcall, rfl⟩
  have hwaits := perm_cons_filter h.nodup_waiting hmem
  have hplaces := h.waiting
  rw [List.append_assoc] at hplaces
  have hnodup := hplaces.nodup_iff.mp h.nodup_waiting
  have hout := perm_cons_filter (List.nodup_append.mp hnodup).1 hanswer
  exact {
    tickets := by rw [hasked, hticket]; exact h.tickets
    flow := by rw [hasked, hanswered, hcurrent, hqueued]; exact h.flow
    waiting := by
      rw [hrest, hleft, hpending, hqueued, List.append_assoc]
      exact (hwaits.symm.trans (hplaces.trans (hout.append_right _))).cons_inv
    returned := by
      rw [hasked, hreturned, hrest, List.append_assoc, List.singleton_append]
      exact h.returned.trans (hwaits.append_left _) }

theorem Conserved.effect [ServerApp α] (h : Conserved trace s) (hvouched : Vouched trace s)
    (heffect : s.Effect happening s') : Conserved (trace ++ [happening]) s' := by
  cases heffect with
  | connect | disconnect =>
    refine h.quiet rfl rfl rfl rfl rfl ?_ rfl rfl rfl
    exact (filterMap_concat ..).trans (List.append_nil _)
  | send hclient header payload => exact h.send rfl rfl (filterMap_concat ..) rfl rfl rfl
  | collect hcall hanswer =>
    exact h.collect hcall (List.mem_map.mpr ⟨_, hanswer, rfl⟩) rfl rfl rfl rfl rfl rfl
  | abandoned result hcall hgone => exact absurd hgone (hvouched.clients_ne_nil hcall)
  | dropConnector => exact h.quiet rfl rfl rfl rfl rfl rfl rfl rfl rfl
  | receive hstage hqueue hother =>
    have hpending := hvouched.inHand.pending_of_idle hstage
    obtain rfl :=
      (hvouched.genuine _ (hqueue ▸ List.mem_cons_self)).ticket_eq_none hother
    refine h.quiet rfl rfl rfl rfl ?_ ?_ rfl rfl rfl
    · simp only [current, hstage, hpending, List.map_nil]
    · simp only [queued, hqueue, List.filterMap_cons_none]
  | receiveRequest hstage hqueue =>
    have hpending := hvouched.inHand.pending_of_idle hstage
    obtain ⟨ticket, rfl, -⟩ :=
      (hvouched.genuine _ (hqueue ▸ List.mem_cons_self)).exists_ticket
    refine h.move rfl rfl rfl rfl ?_ ?_
    · simp [Happening.answered?, current, queued, LocalChannel.pendingWith, hpending, hstage,
        hqueue]
    · simp [queued, LocalChannel.pendingWith, hpending, hqueue]
  | @dispatch event hstage hother =>
    have hpending := hvouched.pending_of_other hstage hother
    have hanswered : (Happening.handled event s.channel.pending none).answered? = none := by
      cases event with
      | attach | detach => rfl
      | io m => exact absurd rfl (hother m)
    refine h.quiet rfl hanswered rfl rfl ?_ rfl rfl rfl rfl
    simp only [current, hstage, hpending, List.map_nil]
  | answer hstage =>
    obtain ⟨ticket, -, hpending⟩ := hvouched.pending_of_handling hstage
    refine h.move rfl rfl rfl rfl ?_ rfl
    simp [Happening.answered?, current, queued, hpending, hstage]
  | deliver hstage =>
    obtain ⟨m, ticket, -, hpending, heq⟩ := hvouched.deliver_eq hstage
    rw [heq]
    refine h.move rfl rfl rfl rfl ?_ ?_
    · simp [Happening.answered?, current, queued, hstage]
    · simp [queued, hpending]
  | close hstage hqueue =>
    have hpending := hvouched.inHand.pending_of_idle hstage
    refine h.quiet rfl rfl rfl rfl ?_ ?_ rfl hpending.symm rfl
    · simp only [current, hstage]
    · simp only [queued, hqueue]
      rfl

end Conserved

end LocalSystem

end BootNamespace
