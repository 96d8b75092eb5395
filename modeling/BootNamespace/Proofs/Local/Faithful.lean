import Mathlib.Data.List.Pairwise
import BootNamespace.Proofs.Local.Routing

namespace BootNamespace

namespace Happening

/-- Nobody who is there is refused. -/
def Succeeds : Happening → Prop
  | connected result => ∃ session, result = .ok session
  | sent _ _ _ result => ∃ ticket, result = .ok ticket
  | _ => True

end Happening

namespace LocalSystem

variable {α : Type} [ServerApp α] {s s' : LocalSystem α} {trace more : List Happening}
variable {happening : Happening} {ticket : Ticket} {context : ServerContext} {app : α}

/-- What holds after anything that the clients and the server have done in turn. -/
structure Kept (trace : List Happening) (s : LocalSystem α) : Prop where
  presence : s.Presence
  flows : Flows trace s
  vouched : Vouched trace s
  conserved : Conserved trace s
  succeeds : ∀ happening ∈ trace, happening.Succeeds

theorem Effect.succeeds (h : s.Effect happening s') : happening.Succeeds := by
  cases h with
  | connect | send => exact ⟨_, rfl⟩
  | _ => trivial

theorem Kept.effect (h : Kept trace s) (heffect : s.Effect happening s') :
    Kept (trace ++ [happening]) s' where
  presence := h.presence.effect heffect
  flows := h.flows.effect heffect
  vouched := h.vouched.effect heffect
  conserved := h.conserved.effect h.vouched heffect
  succeeds := List.forall_mem_append.mpr
    ⟨h.succeeds, List.forall_mem_singleton.mpr heffect.succeeds⟩

theorem Kept.run (h : Kept trace s) (hrun : s.Run more s') : Kept (trace ++ more) s' := by
  induction hrun with
  | refl => rwa [List.append_nil]
  | snoc _ hstep ih =>
    rw [← List.append_assoc]
    exact ih.effect (hstep.effect ih.presence)

theorem Run.kept (hrun : (start context app).Run trace s) : Kept trace s := by
  have hstart : Kept [] (start context app) :=
    ⟨.start context app, .start context app, .start context app, .start context app, by simp⟩
  exact hstart.run hrun

theorem Run.lives (hrun : (start context app).Run trace s)
    (hfew : (sessions trace).length < 2 ^ 32) : Lives trace s := by
  induction hrun with
  | refl => exact .start context app
  | @snoc trace s s' happening hrun hstep ih =>
    have hless : (sessions trace).length < 2 ^ 32 := by
      rw [sessions_concat, List.length_append] at hfew
      omega
    exact (ih hless).effect (hstep.effect hrun.kept.presence) hfew

/-- A ticket stands for one request. -/
theorem asked_unique (hnodup : (askedTickets trace).Nodup) {first second : Happening}
    (hfirst : first ∈ trace) (hsecond : second ∈ trace) (hticket : first.asked? = some ticket)
    (hticket' : second.asked? = some ticket) : first = second := by
  by_contra hne
  have hsymm : Std.Symm fun a b : Happening ↦
      ∀ x, a.asked? = some x → ∀ y, b.asked? = some y → x ≠ y :=
    ⟨fun _ _ h _ hx _ hy ↦ (h _ hy _ hx).symm⟩
  exact (List.pairwise_filterMap.mp hnodup).forall hfirst hsecond hne _ hticket _ hticket' rfl

/-- A server that is left alone comes to the end of what it has at hand. -/
theorem serves_idle (s : LocalSystem α) : ∃ more s', s.Serves more s' ∧
    (s'.stage = .idle ∨ ∃ result, s'.stage = .ended result) := by
  have hreplying (s : LocalSystem α) {rcvid : ReceiveId} {reply : Reply}
      (hstage : s.stage = .replying rcvid reply) : ∃ more s', s.Serves more s' ∧ s'.stage = .idle :=
    ⟨_, _, (Step.deliver hstage).serves rfl, rfl⟩
  cases hstage : s.stage with
  | idle => exact ⟨[], s, .refl s, .inl hstage⟩
  | ended result => exact ⟨[], s, .refl s, .inr ⟨result, hstage⟩⟩
  | replying rcvid reply =>
    obtain ⟨more, s', hserves, hidle⟩ := hreplying s hstage
    exact ⟨more, s', hserves, .inl hidle⟩
  | handling event =>
    have hfirst := (Step.dispatch hstage).serves rfl
    rcases hdispatch : (s.dispatcher.dispatch s.app event).1 with _ | ⟨rcvid, reply⟩
    · exact ⟨_, _, hfirst, .inl (by rw [hdispatch])⟩
    · rw [hdispatch] at hfirst
      obtain ⟨more, s', hserves, hidle⟩ := hreplying ⟨.replying rcvid reply,
        (s.dispatcher.dispatch s.app event).2.1, (s.dispatcher.dispatch s.app event).2.2, s.channel,
        s.waiting⟩ rfl
      exact ⟨_, s', hfirst.trans hserves, .inl hidle⟩

omit [ServerApp α] in
theorem Kept.pending_of_drained (h : Kept trace s) (hdrained : s.Drained) :
    s.channel.pending = [] := by
  have hinHand := h.vouched.inHand
  rcases hdrained.stage with hidle | ⟨result, hended⟩
  · exact hinHand.pending_of_idle hidle
  · rw [hended] at hinHand
    generalize s.channel.pending = pending at hinHand
    cases hinHand
    rfl

/-- A server that is left alone drains its queue. -/
theorem serves_drained (h : Kept trace s) : ∃ more s', s.Serves more s' ∧ s'.Drained := by
  obtain ⟨more, s', hserves, hidle | ⟨result, hended⟩⟩ := s.serves_idle
  · obtain ⟨⟨rest, hrest⟩, hdrained⟩ := serves_settled s' hidle
    exact ⟨_, _, hserves.trans hrest, hdrained⟩
  · refine ⟨more, s', hserves, ?_, .inr ⟨result, hended⟩⟩
    cases (h.run hserves.run).presence with
    | serving server stage => exact absurd hended (stage result)
    | ended connector clients queue => exact queue

omit [ServerApp α] in
/-- Then every client that waits can take its answer. -/
theorem Kept.collects (h : Kept trace s) (hdrained : s.Drained) {call : SessionId × Ticket}
    (hcall : call ∈ s.waiting) : ∃ reply, (s.channel.collect call.2).1 = some (.ok reply) := by
  have hplaces := h.conserved.waiting
  rw [h.pending_of_drained hdrained, queued, hdrained.queue] at hplaces
  simp only [List.map_nil, List.append_nil, List.filterMap_nil] at hplaces
  exact LocalChannel.collect_answered (hplaces.mem_iff.mp (List.mem_map_of_mem hcall))

/-- The channel loses, doubles and misroutes nothing: what has been seen of the clients and the
server in any run, and how it can go on. -/
structure Faithful (trace : List Happening) (s : LocalSystem α) : Prop where
  /-- Nobody is refused, and no session is given to two clients. -/
  succeeds : ∀ happening ∈ trace, happening.Succeeds
  distinct : (sessions trace).Nodup
  /-- The server receives what the clients put in, in that order, and handles it one by one. -/
  fifo : (received trace).map Event.unnumbered <+: posted trace
  handled : received trace = handledEvents trace ++ s.stage.event?.toList
  /-- It sees each session attach before all of its requests, and detach after all of them. -/
  life (t : SessionId) : ∃ requests : List Message,
    (eventsOf t (received trace)).map Event.unnumbered <+:
      .attach t :: requests.map .io ++ [.detach t]
  /-- The table of pending requests is empty before an event is received, and then holds just the
  request that is handled, if it is one. -/
  pending : InHand trace s.stage s.channel.pending
  /-- Each request is sent under a ticket of its own, dispatched at most once, and returns at most
  once. -/
  once : (askedTickets trace).Nodup ∧ (answeredTickets trace).Nodup ∧
    (returnedTickets trace).Nodup
  /-- What returns to a client is what dispatching its own message has produced. -/
  returns : ∀ session ticket result, .returned session ticket result ∈ trace →
    ∃ m reply, m.session = session ∧ result = .ok reply ∧ Answers trace m ticket reply
  delivered : s.dispatcher.stats.lostReplies = 0
  /-- The channel takes each reply that is due. -/
  accepted : ∀ rcvid reply, s.stage = .replying rcvid reply →
    (Channel.reply s.channel rcvid reply).1 = .ok ()
  /-- The loop of the server is made of its steps, -/
  loop : s.stage = .idle → ∃ more, s.Serves more s.settled
  /-- and with these steps alone it drains the queue, until nobody waits in vain. -/
  answers : ∃ more s', s.Serves more s' ∧ s'.Drained ∧
    ∀ call ∈ s.waiting, ∃ reply, (s'.channel.collect call.2).1 = some (.ok reply)

theorem Run.faithful (hrun : (start context app).Run trace s)
    (hfew : (sessions trace).length < 2 ^ 32) : Faithful trace s := by
  have hkept := hrun.kept
  have hlives := hrun.lives hfew
  have hnodup := hkept.conserved.nodup
  exact {
    succeeds := hkept.succeeds
    distinct := hlives.nodup hfew
    fifo := hkept.flows.received_prefix
    handled := hkept.flows.stage
    life := received_life hkept.flows hlives
    pending := hkept.vouched.inHand
    once := by
      refine ⟨hnodup, ?_, ?_⟩
      · have hflow := hkept.conserved.flow
        rw [List.append_assoc] at hflow
        exact hnodup.sublist (hflow ▸ List.sublist_append_left _ _)
      · exact (List.nodup_append.mp (hkept.conserved.returned.nodup_iff.mp hnodup)).1
    returns := by
      intro session ticket result hmem
      obtain ⟨header, payload, m, reply, hsent, hresult, hanswers⟩ :=
        hkept.vouched.results _ _ _ hmem
      have hsame := asked_unique hnodup hsent hanswers.asks rfl rfl
      refine ⟨m, reply, ?_, hresult, hanswers⟩
      cases hsame
      rfl
    delivered := hkept.vouched.delivered
    accepted := by
      intro rcvid reply hstage
      obtain ⟨m, ticket, -, hpending, -⟩ := hkept.vouched.deliver_eq hstage
      exact congrArg Prod.fst (LocalChannel.reply_eq hpending reply)
    loop := fun hidle ↦ (serves_settled s hidle).1
    answers := by
      obtain ⟨more, s', hserves, hdrained⟩ := serves_drained hkept
      refine ⟨more, s', hserves, hdrained, fun call hcall ↦ ?_⟩
      rw [← hserves.waiting] at hcall
      exact (hkept.run hserves.run).collects hdrained hcall }

end LocalSystem

end BootNamespace
