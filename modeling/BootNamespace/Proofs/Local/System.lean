import BootNamespace.Local.Channel
import BootNamespace.Proofs.Dispatch.Serve

namespace BootNamespace

/-- Where the loop of a server stands. -/
inductive Stage where
  | idle
  | handling (event : Event)
  | replying (rcvid : ReceiveId) (reply : Reply)
  | ended (result : Except AppError DispatchStats)

/-- A server and its clients in one process, each going at its own pace. -/
structure LocalSystem (α : Type) where
  stage : Stage
  dispatcher : Dispatcher
  app : α
  channel : LocalChannel
  /-- The clients that wait for an answer, each with the one request it has sent. -/
  waiting : List (SessionId × Ticket)

/-- What a step of a client or of the server shows. -/
inductive Happening where
  | connected (result : Except AppError SessionId)
  | sent (session : SessionId) (header : RequestHeader) (payload : Bytes)
      (result : Except FsError Ticket)
  | returned (session : SessionId) (ticket : Ticket) (result : Except FsError Reply)
  | dropped (session : SessionId)
  | released
  | received (event : Event)
  /-- What dispatching has produced, and the table of pending requests at that time. -/
  | handled (event : Event) (pending : List (ReceiveId × Ticket)) (reply : Option Reply)
  | delivered (rcvid : ReceiveId) (reply : Reply)
  | ended (result : Except AppError DispatchStats)

namespace Happening

def isServer : Happening → Bool
  | received _ | handled _ _ _ | delivered _ _ | ended _ => true
  | connected _ | sent _ _ _ _ | returned _ _ _ | dropped _ | released => false

end Happening

namespace LocalChannel

variable {c : LocalChannel} {session : SessionId} {ticket : Ticket}

theorem connect_eq (h : c.hasServer = true) :
    c.connect = (.ok ⟨c.nextSession⟩, { c with
      nextSession := c.nextSession + 1
      clients := c.clients ++ [⟨c.nextSession⟩]
      queue := c.queue ++ [⟨.attach ⟨c.nextSession⟩, none⟩] }) := by
  simp only [connect, post, h, if_true]

theorem send_eq (h : c.hasServer = true) (session : SessionId) (header : RequestHeader)
    (payload : Bytes) :
    c.send session header payload = (.ok ⟨c.nextTicket⟩, { c with
      nextTicket := c.nextTicket + 1
      queue := c.queue ++
        [⟨.io ⟨⟨0⟩, session, header, payload⟩, some ⟨c.nextTicket⟩⟩] }) := by
  simp only [send, post, h, if_true]

theorem disconnect_eq (h : c.hasServer = true) (session : SessionId) :
    c.disconnect session = { c with
      clients := c.clients.filter (· ≠ session)
      queue := c.queue ++ [⟨.detach session, none⟩] } := by
  simp only [disconnect, post, h, if_true]

/-- The table of pending requests once the next request has been received. -/
def pendingWith (c : LocalChannel) : Option Ticket → List (ReceiveId × Ticket)
  | some ticket => (⟨c.nextReceive⟩, ticket) :: c.pending.filter (·.1 ≠ ⟨c.nextReceive⟩)
  | none => c.pending

/-- What comes out is the head of the queue; a request is numbered and becomes pending. -/
theorem receive_cases {event : Event} {c' : LocalChannel} (h : c.receive = (.event event, c')) :
    ∃ envelope rest, c.queue = envelope :: rest ∧
      (((∀ m, event ≠ .io m) ∧ event = envelope.event ∧ c' = { c with queue := rest }) ∨
      ∃ m, envelope.event = .io m ∧ event = .io { m with rcvid := ⟨c.nextReceive⟩ } ∧
        c' = { c with
          queue := rest
          pending := c.pendingWith envelope.ticket
          nextReceive := c.nextReceive + 1 }) := by
  unfold receive at h
  split at h
  next =>
    split at h
    · cases h
    · cases h
  next m ticket rest heq =>
    cases h
    refine ⟨_, rest, heq, .inr ⟨m, rfl, rfl, ?_⟩⟩
    cases ticket with
    | none | some => rfl
  next other ticket rest hother heq =>
    cases h
    exact ⟨_, rest, heq, .inl ⟨hother, rfl, rfl⟩⟩

theorem receive_waiting {c' : LocalChannel} (h : c.receive = (.waiting, c')) :
    c.queue = [] ∧ c' = c := by
  unfold receive at h
  split at h
  next heq =>
    split at h
    · cases h
      exact ⟨heq, rfl⟩
    · cases h
  next => cases h
  next => cases h

theorem receive_closed {c' : LocalChannel} (h : c.receive = (.closed, c')) :
    c.queue = [] ∧ c.hasConnector = false ∧ c.clients = [] ∧ c' = c := by
  unfold receive at h
  split at h
  next heq =>
    split at h
    · cases h
    next hsender =>
      cases h
      simp only [hasSender, Bool.or_eq_true, Bool.not_eq_true', not_or, Bool.not_eq_true,
        Bool.not_eq_false, List.isEmpty_iff] at hsender
      exact ⟨heq, hsender.1, hsender.2, rfl⟩
  next => cases h
  next => cases h

theorem receive_ne_failed {c' : LocalChannel} {e : AppError} : c.receive ≠ (.failed e, c') := by
  intro h
  unfold receive at h
  split at h
  next =>
    split at h
    · cases h
    · cases h
  next => cases h
  next => cases h

theorem reply_eq {rcvid : ReceiveId} (h : c.pending = [(rcvid, ticket)]) (reply : Reply) :
    c.reply rcvid reply =
      (.ok (), { c with pending := [], answers := c.answers ++ [(ticket, reply)] }) := by
  simp [LocalChannel.reply, h]

theorem collect_cases {result : Except FsError Reply} (h : (c.collect ticket).1 = some result) :
    (∃ reply, (ticket, reply) ∈ c.answers ∧ result = .ok reply ∧
      (c.collect ticket).2 = { c with answers := c.answers.filter (·.1 ≠ ticket) }) ∨
    (c.hasServer = false ∧ (c.collect ticket).2 = c) := by
  unfold collect at h ⊢
  cases hfind : c.answers.find? (·.1 == ticket) with
  | none =>
    rw [hfind] at h
    refine .inr ⟨?_, rfl⟩
    cases hserver : c.hasServer with
    | false => rfl
    | true => simp [hserver] at h
  | some answer =>
    obtain ⟨ticket', reply⟩ := answer
    rw [hfind] at h
    obtain rfl : ticket' = ticket := by simpa using List.find?_some hfind
    cases h
    exact .inl ⟨reply, List.mem_of_find?_eq_some hfind, rfl, rfl⟩

theorem collect_answered (h : ticket ∈ c.answers.map (·.1)) :
    ∃ reply, (c.collect ticket).1 = some (.ok reply) := by
  obtain ⟨answer, hanswer, rfl⟩ := List.mem_map.mp h
  unfold collect
  cases hfind : c.answers.find? (·.1 == answer.1) with
  | none => exact absurd (List.find?_eq_none.mp hfind answer hanswer) (by simp)
  | some found => exact ⟨found.2, rfl⟩

theorem deliver_eq {rcvid : ReceiveId} (h : c.pending = [(rcvid, ticket)]) (d : Dispatcher)
    (reply : Reply) : d.deliver c rcvid reply =
      (d, { c with pending := [], answers := c.answers ++ [(ticket, reply)] }) := by
  have hreply : Channel.reply c rcvid reply = (.ok (), _) := reply_eq h reply
  rw [Dispatcher.deliver, hreply]

/-- Delivering a reply touches only the table of pending requests and the answers. -/
theorem deliver_channel (d : Dispatcher) (c : LocalChannel) (rcvid : ReceiveId) (reply : Reply) :
    ∃ pending answers, (d.deliver c rcvid reply).2 =
      { c with pending := pending, answers := answers } := by
  have hreply : ∃ result pending answers, Channel.reply c rcvid reply =
      (result, { c with pending := pending, answers := answers }) := by
    change ∃ result pending answers, c.reply rcvid reply = _
    unfold LocalChannel.reply
    cases c.pending.find? (·.1 == rcvid) with
    | none => exact ⟨_, c.pending, c.answers, rfl⟩
    | some found => exact ⟨_, _, _, rfl⟩
  obtain ⟨result, pending, answers, hreply⟩ := hreply
  rw [Dispatcher.deliver, hreply]
  cases result with
  | ok | error => exact ⟨pending, answers, rfl⟩

end LocalChannel

namespace LocalSystem

variable {α : Type} {s s' s'' : LocalSystem α} {trace more : List Happening}
variable {happening : Happening}

/-- A server leaves its channel only when nobody is there or can come any more. -/
inductive Presence (s : LocalSystem α) : Prop
  | serving (server : s.channel.hasServer = true) (stage : ∀ result, s.stage ≠ .ended result)
  | ended (connector : s.channel.hasConnector = false) (clients : s.channel.clients = [])
      (queue : s.channel.queue = []) (result : Except AppError DispatchStats)
      (stage : s.stage = .ended result)

theorem Presence.of_client {session : SessionId} (h : s.Presence)
    (hclient : session ∈ s.channel.clients) : s.channel.hasServer = true := by
  cases h with
  | serving server stage => exact server
  | ended connector clients =>
    rw [clients] at hclient
    cases hclient

theorem Presence.of_connector (h : s.Presence) (hopen : s.channel.hasConnector = true) :
    s.channel.hasServer = true := by
  cases h with
  | serving server stage => exact server
  | ended connector =>
    rw [connector] at hopen
    cases hopen

theorem Presence.clients_of_left (h : s.Presence) (hleft : s.channel.hasServer = false) :
    s.channel.clients = [] := by
  cases h with
  | serving server stage =>
    rw [server] at hleft
    cases hleft
  | ended connector clients => exact clients

variable [ServerApp α]

/-- A server that has started, and nobody there yet. -/
def start (context : ServerContext) (app : α) : LocalSystem α :=
  ⟨.idle, .new context, (ServerApp.start app context).2, .new, []⟩

/-- The steps of the clients, of those who may bring in more, and of the server. A client that waits
for an answer does nothing else. -/
inductive Step (s : LocalSystem α) : Happening → LocalSystem α → Prop
  | connect (hopen : s.channel.hasConnector = true) :
      Step s (.connected s.channel.connect.1) { s with channel := s.channel.connect.2 }
  | send {session : SessionId} (hclient : session ∈ s.channel.clients)
      (hfree : ∀ call ∈ s.waiting, call.1 ≠ session) (header : RequestHeader) (payload : Bytes) :
      Step s (.sent session header payload (s.channel.send session header payload).1) { s with
        channel := (s.channel.send session header payload).2
        waiting := s.waiting ++
          ((s.channel.send session header payload).1.toOption.map (session, ·)).toList }
  | collect {session : SessionId} {ticket : Ticket} {result : Except FsError Reply}
      (hcall : (session, ticket) ∈ s.waiting)
      (hresult : (s.channel.collect ticket).1 = some result) :
      Step s (.returned session ticket result) { s with
        channel := (s.channel.collect ticket).2
        waiting := s.waiting.filter (·.2 ≠ ticket) }
  | disconnect {session : SessionId} (hclient : session ∈ s.channel.clients)
      (hfree : ∀ call ∈ s.waiting, call.1 ≠ session) :
      Step s (.dropped session) { s with channel := s.channel.disconnect session }
  | dropConnector : Step s .released { s with channel := s.channel.dropConnector }
  | receive {event : Event} {channel : LocalChannel} (hstage : s.stage = .idle)
      (hreceive : s.channel.receive = (.event event, channel)) :
      Step s (.received event) { s with stage := .handling event, channel := channel }
  | dispatch {event : Event} (hstage : s.stage = .handling event) :
      Step s (.handled event s.channel.pending ((s.dispatcher.dispatch s.app event).1.map (·.2)))
        { s with
          stage := match (s.dispatcher.dispatch s.app event).1 with
            | none => .idle
            | some (rcvid, reply) => .replying rcvid reply
          dispatcher := (s.dispatcher.dispatch s.app event).2.1
          app := (s.dispatcher.dispatch s.app event).2.2 }
  | deliver {rcvid : ReceiveId} {reply : Reply} (hstage : s.stage = .replying rcvid reply) :
      Step s (.delivered rcvid reply) { s with
        stage := .idle
        dispatcher := (s.dispatcher.deliver s.channel rcvid reply).1
        channel := (s.dispatcher.deliver s.channel rcvid reply).2 }
  | close {channel : LocalChannel} (hstage : s.stage = .idle)
      (hreceive : s.channel.receive = (.closed, channel)) :
      Step s (.ended (.ok s.dispatcher.stats)) { s with
        stage := .ended (.ok s.dispatcher.stats)
        app := ServerApp.shutdown s.app s.dispatcher.context
        channel := channel.dropServer }

/-- Any number of steps in any order, with what they show. -/
inductive Run (s : LocalSystem α) : List Happening → LocalSystem α → Prop
  | refl : Run s [] s
  | snoc {trace : List Happening} {s' s'' : LocalSystem α} {happening : Happening}
      (h : Run s trace s') (hstep : Step s' happening s'') : Run s (trace ++ [happening]) s''

theorem Run.one (h : s.Step happening s') : s.Run [happening] s' := .snoc .refl h

theorem Run.trans (h : s.Run trace s') (k : s'.Run more s'') : s.Run (trace ++ more) s'' := by
  induction k with
  | refl => rwa [List.append_nil]
  | snoc _ hstep ih =>
    rw [← List.append_assoc]
    exact .snoc ih hstep

/-- Only the server takes steps. -/
structure Serves (s : LocalSystem α) (trace : List Happening) (s' : LocalSystem α) : Prop where
  run : s.Run trace s'
  server : ∀ happening ∈ trace, happening.isServer
  waiting : s'.waiting = s.waiting
  clients : s'.channel.clients = s.channel.clients

theorem Serves.refl (s : LocalSystem α) : s.Serves [] s := ⟨.refl, by simp, rfl, rfl⟩

theorem Step.serves (h : s.Step happening s') (hserver : happening.isServer) :
    s.Serves [happening] s' := by
  have hrun := Run.one h
  have hall : ∀ other ∈ [happening], other.isServer := List.forall_mem_singleton.mpr hserver
  cases h with
  | connect | send | collect | disconnect | dropConnector => cases hserver
  | dispatch hstage => exact ⟨hrun, hall, rfl, rfl⟩
  | receive hstage hreceive =>
    obtain ⟨envelope, rest, -, ⟨-, -, rfl⟩ | ⟨m, -, -, rfl⟩⟩ := LocalChannel.receive_cases hreceive
    · exact ⟨hrun, hall, rfl, rfl⟩
    · exact ⟨hrun, hall, rfl, rfl⟩
  | @deliver rcvid reply hstage =>
    obtain ⟨pending, answers, heq⟩ :=
      LocalChannel.deliver_channel s.dispatcher s.channel rcvid reply
    exact ⟨hrun, hall, rfl, by rw [heq]⟩
  | close hstage hreceive =>
    obtain ⟨-, -, -, rfl⟩ := LocalChannel.receive_closed hreceive
    exact ⟨hrun, hall, rfl, rfl⟩

theorem Serves.trans (h : s.Serves trace s') (k : s'.Serves more s'') :
    s.Serves (trace ++ more) s'' :=
  ⟨h.run.trans k.run, List.forall_mem_append.mpr ⟨h.server, k.server⟩,
    k.waiting.trans h.waiting, k.clients.trans h.clients⟩

/-- The queue is empty, and the server has nothing at hand. -/
structure Drained (s : LocalSystem α) : Prop where
  queue : s.channel.queue = []
  stage : s.stage = .idle ∨ ∃ result, s.stage = .ended result

/-- The system once the server has gone on alone for as long as it can. -/
def settled (s : LocalSystem α) : LocalSystem α :=
  let served := s.dispatcher.serve s.app s.channel
  match served.outcome with
  | .waiting =>
    { s with dispatcher := served.dispatcher, app := served.app, channel := served.channel }
  | .stopped result =>
    { s with
      stage := .ended result
      dispatcher := served.dispatcher
      app := served.app
      channel := served.channel.dropServer }

/-- The system after the server has handled an event, the delivery of the reply included. -/
def handled (s : LocalSystem α) (channel : LocalChannel) (event : Event) : LocalSystem α :=
  { s with
    dispatcher := (s.dispatcher.handle s.app channel event).1
    app := (s.dispatcher.handle s.app channel event).2.1
    channel := (s.dispatcher.handle s.app channel event).2.2 }

/-- An idle server with an event in the queue handles it in two or three steps. -/
theorem serves_handled {channel : LocalChannel} {event : Event} (hstage : s.stage = .idle)
    (hreceive : s.channel.receive = (.event event, channel)) :
    ∃ trace, s.Serves trace (s.handled channel event) := by
  have hfirst := (Step.receive hstage hreceive).serves rfl
  have hnext := (Step.dispatch
    (s := { s with stage := .handling event, channel := channel }) rfl).serves rfl
  unfold handled Dispatcher.handle
  dsimp only at hnext
  rcases hdispatch : s.dispatcher.dispatch s.app event with ⟨_ | ⟨rcvid, reply⟩, d, app⟩
  · rw [hdispatch] at hnext
    dsimp only at hnext ⊢
    rw [← hstage] at hnext
    exact ⟨_, hfirst.trans hnext⟩
  · rw [hdispatch] at hnext
    have hlast := (Step.deliver
      (s := ⟨.replying rcvid reply, d, app, channel, s.waiting⟩) rfl).serves rfl
    dsimp only at hnext hlast ⊢
    rw [hstage]
    exact ⟨_, (hfirst.trans hnext).trans hlast⟩

theorem settled_of_event {channel : LocalChannel} {event : Event}
    (hreceive : s.channel.receive = (.event event, channel)) :
    s.settled = (s.handled channel event).settled := by
  have hserve : s.dispatcher.serve s.app s.channel = _ := Dispatcher.serve_eq _ _ _
  have hreceive : Channel.receive s.channel = (.event event, channel) := hreceive
  rw [hreceive] at hserve
  unfold settled
  rw [hserve]
  rfl

/-- What the loop comes to is what these steps come to, and then the queue is empty. -/
theorem serves_settled (s : LocalSystem α) (hstage : s.stage = .idle) :
    (∃ trace, s.Serves trace s.settled) ∧ s.settled.Drained := by
  induction hn : s.channel.queue.length using Nat.strongRecOn generalizing s with
  | ind n ih =>
    have hserve : s.dispatcher.serve s.app s.channel = _ := Dispatcher.serve_eq _ _ _
    rcases hreceive : s.channel.receive with ⟨received, channel⟩
    have hreceive' : Channel.receive s.channel = (received, channel) := hreceive
    rw [hreceive'] at hserve
    cases received with
    | event event =>
      obtain ⟨trace, hserves⟩ := serves_handled hstage hreceive
      have hless := Nat.lt_of_le_of_lt
        (Dispatcher.backlog_handle (d := s.dispatcher) s.app channel event)
        (Channel.backlog_receive hreceive')
      rw [settled_of_event hreceive]
      obtain ⟨⟨more, hmore⟩, hrest⟩ := ih _ (hn ▸ hless) (s.handled channel event) hstage rfl
      exact ⟨⟨_, hserves.trans hmore⟩, hrest⟩
    | closed =>
      unfold settled
      rw [hserve]
      exact ⟨⟨_, (Step.close hstage hreceive).serves rfl⟩, rfl, .inr ⟨_, rfl⟩⟩
    | failed e => exact absurd hreceive LocalChannel.receive_ne_failed
    | waiting =>
      obtain ⟨hqueue, rfl⟩ := LocalChannel.receive_waiting hreceive
      unfold settled
      rw [hserve]
      exact ⟨⟨[], .refl s⟩, hqueue, .inl hstage⟩

theorem Presence.start (context : ServerContext) (app : α) : (start context app).Presence :=
  .serving rfl fun result h ↦ by cases h

/-- The effect of each step as it is while a server leaves nobody behind. -/
inductive Effect (s : LocalSystem α) : Happening → LocalSystem α → Prop
  | connect (hopen : s.channel.hasConnector = true) :
      Effect s (.connected (.ok ⟨s.channel.nextSession⟩)) { s with
        channel := { s.channel with
          nextSession := s.channel.nextSession + 1
          clients := s.channel.clients ++ [⟨s.channel.nextSession⟩]
          queue := s.channel.queue ++ [⟨.attach ⟨s.channel.nextSession⟩, none⟩] } }
  | send {session : SessionId} (hclient : session ∈ s.channel.clients) (header : RequestHeader)
      (payload : Bytes) :
      Effect s (.sent session header payload (.ok ⟨s.channel.nextTicket⟩)) { s with
        channel := { s.channel with
          nextTicket := s.channel.nextTicket + 1
          queue := s.channel.queue ++
            [⟨.io ⟨⟨0⟩, session, header, payload⟩, some ⟨s.channel.nextTicket⟩⟩] }
        waiting := s.waiting ++ [(session, ⟨s.channel.nextTicket⟩)] }
  | collect {session : SessionId} {ticket : Ticket} {reply : Reply}
      (hcall : (session, ticket) ∈ s.waiting) (hanswer : (ticket, reply) ∈ s.channel.answers) :
      Effect s (.returned session ticket (.ok reply)) { s with
        channel := { s.channel with answers := s.channel.answers.filter (·.1 ≠ ticket) }
        waiting := s.waiting.filter (·.2 ≠ ticket) }
  | abandoned {session : SessionId} {ticket : Ticket} (result : Except FsError Reply)
      (hcall : (session, ticket) ∈ s.waiting) (hgone : s.channel.clients = []) :
      Effect s (.returned session ticket result) { s with
        waiting := s.waiting.filter (·.2 ≠ ticket) }
  | disconnect {session : SessionId} (hclient : session ∈ s.channel.clients)
      (hfree : ∀ call ∈ s.waiting, call.1 ≠ session) : Effect s (.dropped session) { s with
        channel := { s.channel with
          clients := s.channel.clients.filter (· ≠ session)
          queue := s.channel.queue ++ [⟨.detach session, none⟩] } }
  | dropConnector : Effect s .released { s with channel := s.channel.dropConnector }
  | receive {event : Event} {ticket : Option Ticket} {rest : List Envelope}
      (hstage : s.stage = .idle) (hqueue : s.channel.queue = ⟨event, ticket⟩ :: rest)
      (hother : ∀ m, event ≠ .io m) : Effect s (.received event) { s with
        stage := .handling event
        channel := { s.channel with queue := rest } }
  | receiveRequest {m : Message} {ticket : Option Ticket} {rest : List Envelope}
      (hstage : s.stage = .idle) (hqueue : s.channel.queue = ⟨.io m, ticket⟩ :: rest) :
      Effect s (.received (.io { m with rcvid := ⟨s.channel.nextReceive⟩ })) { s with
        stage := .handling (.io { m with rcvid := ⟨s.channel.nextReceive⟩ })
        channel := { s.channel with
          queue := rest
          pending := s.channel.pendingWith ticket
          nextReceive := s.channel.nextReceive + 1 } }
  | dispatch {event : Event} (hstage : s.stage = .handling event) (hother : ∀ m, event ≠ .io m) :
      Effect s (.handled event s.channel.pending none) { s with
        stage := .idle
        dispatcher := (s.dispatcher.dispatch s.app event).2.1
        app := (s.dispatcher.dispatch s.app event).2.2 }
  | answer {m : Message} (hstage : s.stage = .handling (.io m)) :
      Effect s (.handled (.io m) s.channel.pending (some (s.dispatcher.request s.app m).1)) { s with
        stage := .replying m.rcvid (s.dispatcher.request s.app m).1
        dispatcher := (s.dispatcher.dispatch s.app (.io m)).2.1
        app := (s.dispatcher.dispatch s.app (.io m)).2.2 }
  | deliver {rcvid : ReceiveId} {reply : Reply} (hstage : s.stage = .replying rcvid reply) :
      Effect s (.delivered rcvid reply) { s with
        stage := .idle
        dispatcher := (s.dispatcher.deliver s.channel rcvid reply).1
        channel := (s.dispatcher.deliver s.channel rcvid reply).2 }
  | close (hstage : s.stage = .idle) (hqueue : s.channel.queue = [])
      (hconnector : s.channel.hasConnector = false) (hclients : s.channel.clients = []) :
      Effect s (.ended (.ok s.dispatcher.stats)) { s with
        stage := .ended (.ok s.dispatcher.stats)
        app := ServerApp.shutdown s.app s.dispatcher.context
        channel := s.channel.dropServer }

theorem Step.effect (h : s.Presence) (hstep : s.Step happening s') : s.Effect happening s' := by
  cases hstep with
  | connect hopen =>
    rw [LocalChannel.connect_eq (h.of_connector hopen)]
    exact .connect hopen
  | send hclient hfree header payload =>
    rw [LocalChannel.send_eq (h.of_client hclient)]
    exact .send hclient header payload
  | @collect session ticket result hcall hresult =>
    rcases LocalChannel.collect_cases hresult with ⟨reply, hanswer, rfl, heq⟩ | ⟨hleft, heq⟩
    · rw [heq]
      exact .collect hcall hanswer
    · rw [heq]
      exact .abandoned result hcall (h.clients_of_left hleft)
  | disconnect hclient hfree =>
    rw [LocalChannel.disconnect_eq (h.of_client hclient)]
    exact .disconnect hclient hfree
  | dropConnector => exact .dropConnector
  | receive hstage hreceive =>
    obtain ⟨⟨event, ticket⟩, rest, hqueue, ⟨hother, rfl, rfl⟩ | ⟨m, rfl, rfl, rfl⟩⟩ :=
      LocalChannel.receive_cases hreceive
    · exact .receive hstage hqueue hother
    · exact .receiveRequest hstage hqueue
  | @dispatch event hstage =>
    cases event with
    | attach session => exact .dispatch hstage (by simp)
    | detach session => exact .dispatch hstage (by simp)
    | io m => exact .answer hstage
  | deliver hstage => exact .deliver hstage
  | close hstage hreceive =>
    obtain ⟨hqueue, hconnector, hclients, rfl⟩ := LocalChannel.receive_closed hreceive
    exact .close hstage hqueue hconnector hclients

theorem Presence.effect (h : s.Presence) (heffect : s.Effect happening s') : s'.Presence := by
  cases h with
  | serving server stage =>
    cases heffect with
    | connect | send | collect | abandoned | disconnect | dropConnector =>
      exact .serving server stage
    | receive | receiveRequest | dispatch | answer =>
      exact .serving server fun result h ↦ by cases h
    | @deliver rcvid reply hstage =>
      obtain ⟨pending, answers, heq⟩ :=
        LocalChannel.deliver_channel s.dispatcher s.channel rcvid reply
      rw [heq]
      exact .serving server fun result h ↦ by cases h
    | close hstage hqueue hconnector hclients => exact .ended hconnector hclients rfl _ rfl
  | ended connector clients queue result stage =>
    cases heffect with
    | connect hopen =>
      rw [connector] at hopen
      cases hopen
    | send hclient | disconnect hclient =>
      rw [clients] at hclient
      cases hclient
    | collect | abandoned => exact .ended connector clients queue result stage
    | dropConnector => exact .ended rfl clients queue result stage
    | receive hstage | receiveRequest hstage | dispatch hstage | answer hstage | deliver hstage
    | close hstage =>
      rw [stage] at hstage
      cases hstage

end LocalSystem

end BootNamespace
