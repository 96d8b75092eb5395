import Mathlib.Data.List.Basic
import BootNamespace.Dispatch.Echo
import BootNamespace.Dispatch.Script
import BootNamespace.Proofs.Dispatch.Serve

namespace BootNamespace

deriving instance DecidableEq for Outcome

/-- A call that a server makes of its app, with what came back. -/
inductive AppCall where
  | start (result : Except AppError Unit)
  | attach (session : SessionId) (result : Except AppError Unit)
  | detach (session : SessionId) (result : Except AppError Unit)
  | answer (message : Message) (reply : Reply)
  | shutdown
  deriving DecidableEq

/-- A call that a server makes of its channel, with what came back. -/
inductive ChannelCall where
  | receive (received : Received)
  | reply (rcvid : ReceiveId) (reply : Reply) (result : Except AppError Unit)
  deriving DecidableEq

/-- An app or a channel together with the calls that have been made of it. -/
structure Watched (α κ : Type) where
  inner : α
  calls : List κ
  deriving DecidableEq

namespace Watched

variable {α γ κ : Type}

def new (inner : α) : Watched α κ := ⟨inner, []⟩

def note (w : Watched α κ) (inner : α) (calls : List κ) : Watched α κ := ⟨inner, w.calls ++ calls⟩

@[simp] theorem inner_note (w : Watched α κ) (inner : α) (calls : List κ) :
    (w.note inner calls).inner = inner := rfl

theorem note_note (w : Watched α κ) (inner inner' : α) (calls calls' : List κ) :
    (w.note inner calls).note inner' calls' = w.note inner' (calls ++ calls') := by
  rw [note, note, note, List.append_assoc]

theorem note_nil (w : Watched α κ) : w.note w.inner [] = w := by
  rw [note, List.append_nil]

instance [ServerApp α] : ServerApp (Watched α AppCall) where
  start w context :=
    let (result, inner) := ServerApp.start w.inner context
    (result, w.note inner [.start result])
  attach w context session :=
    let (result, inner) := ServerApp.attach w.inner context session
    (result, w.note inner [.attach session result])
  detach w context session :=
    let (result, inner) := ServerApp.detach w.inner context session
    (result, w.note inner [.detach session result])
  answer w context m :=
    let (reply, inner) := ServerApp.answer w.inner context m
    (reply, w.note inner [.answer m reply])
  shutdown w context := w.note (ServerApp.shutdown w.inner context) [.shutdown]

instance [Channel γ] : Channel (Watched γ ChannelCall) where
  receive w :=
    let (received, inner) := Channel.receive w.inner
    (received, w.note inner [.receive received])
  reply w rcvid reply :=
    let (result, inner) := Channel.reply w.inner rcvid reply
    (result, w.note inner [.reply rcvid reply result])
  backlog w := Channel.backlog w.inner
  backlog_receive {w w' event} h := by
    obtain ⟨hreceived, rfl⟩ := Prod.mk.inj h
    exact Channel.backlog_receive (Prod.ext hreceived rfl)
  backlog_reply w rcvid reply := Channel.backlog_reply w.inner rcvid reply

end Watched

/-- What a server does from one event to the next. -/
inductive Exchange where
  | attach (session : SessionId) (result : Except AppError Unit)
  | detach (session : SessionId) (result : Except AppError Unit)
  /-- The app is asked something for the request, and something of what it answers is sent. -/
  | answered (m asked : Message) (answer sent : Reply) (delivered : Except AppError Unit)
  /-- The request is answered without asking the app. -/
  | rejected (m : Message) (delivered : Except AppError Unit)

namespace Exchange

def event : Exchange → Event
  | attach session _ => .attach session
  | detach session _ => .detach session
  | answered m _ _ _ _ | rejected m _ => .io m

def replies : Exchange → List ChannelCall
  | attach _ _ | detach _ _ => []
  | answered m _ _ sent delivered => [.reply m.rcvid sent delivered]
  | rejected m delivered => [.reply m.rcvid ⟨Status.invalid, []⟩ delivered]

/-- The event comes in, and then the reply goes out, if there is one. -/
def channelCalls (exchange : Exchange) : List ChannelCall :=
  .receive (.event exchange.event) :: exchange.replies

def appCalls : Exchange → List AppCall
  | attach session result => [.attach session result]
  | detach session result => [.detach session result]
  | answered _ asked answer _ _ => [.answer asked answer]
  | rejected _ _ => []

/-- The app is asked exactly for the requests that are to be passed on to it, with the payload cut
to what was declared, and of its answer the client is sent as much as it takes back. -/
inductive Proper (context : ServerContext) : Exchange → Prop
  | attach (session : SessionId) (result : Except AppError Unit) :
      Proper context (.attach session result)
  | detach (session : SessionId) (result : Except AppError Unit) :
      Proper context (.detach session result)
  | answered {m asked : Message} {answer sent : Reply} (delivered : Except AppError Unit)
      (admitted : context.Admits m)
      (same : asked.rcvid = m.rcvid ∧ asked.session = m.session ∧ asked.header = m.header)
      (cut : asked.payload.toList <+: m.payload.toList)
      (whole : asked.payload.length = m.header.sbytes.toNat)
      (status : sent.status = answer.status)
      (start : sent.payload <+: answer.payload)
      (length : sent.payload.length = min m.header.rbytes.toNat answer.payload.length) :
      Proper context (.answered m asked answer sent delivered)
  | rejected {m : Message} (delivered : Except AppError Unit) (refused : ¬context.Admits m) :
      Proper context (.rejected m delivered)

@[simp] def isAttach : Exchange → Bool
  | attach _ _ => true
  | _ => false

@[simp] def isDetach : Exchange → Bool
  | detach _ _ => true
  | _ => false

@[simp] def isRequest : Exchange → Bool
  | answered _ _ _ _ _ | rejected _ _ => true
  | _ => false

@[simp] def isRejected : Exchange → Bool
  | rejected _ _ => true
  | _ => false

@[simp] def isLost : Exchange → Bool
  | answered _ _ _ _ (.error _) | rejected _ (.error _) => true
  | _ => false

def tally (exchanges : List Exchange) : DispatchStats where
  attaches := .ofNat (exchanges.countP isAttach)
  detaches := .ofNat (exchanges.countP isDetach)
  requests := .ofNat (exchanges.countP isRequest)
  rejected := .ofNat (exchanges.countP isRejected)
  lostReplies := .ofNat (exchanges.countP isLost)

end Exchange

/-- Each counter is the number of the exchanges of its sort. -/
structure DispatchStats.Counts (stats : DispatchStats) (exchanges : List Exchange) : Prop where
  attaches : stats.attaches.toNat = exchanges.countP Exchange.isAttach
  detaches : stats.detaches.toNat = exchanges.countP Exchange.isDetach
  requests : stats.requests.toNat = exchanges.countP Exchange.isRequest
  rejected : stats.rejected.toNat = exchanges.countP Exchange.isRejected
  lostReplies : stats.lostReplies.toNat = exchanges.countP Exchange.isLost

theorem Exchange.tally_counts {exchanges : List Exchange} (h : exchanges.length < UInt64.size) :
    (tally exchanges).Counts exchanges := by
  have hexact (p : Exchange → Bool) :
      (UInt64.ofNat (exchanges.countP p)).toNat = exchanges.countP p :=
    UInt64.toNat_ofNat_of_lt (Nat.lt_of_le_of_lt List.countP_le_length h)
  exact ⟨hexact _, hexact _, hexact _, hexact _, hexact _⟩

namespace DispatchStats

def add (stats more : DispatchStats) : DispatchStats where
  attaches := stats.attaches + more.attaches
  detaches := stats.detaches + more.detaches
  requests := stats.requests + more.requests
  rejected := stats.rejected + more.rejected
  lostReplies := stats.lostReplies + more.lostReplies

theorem add_tally_nil (stats : DispatchStats) : stats.add (Exchange.tally []) = stats := by
  simp [add, Exchange.tally]

theorem zero_add (stats : DispatchStats) : zero.add stats = stats := by
  simp only [add, zero, UInt64.zero_add]

theorem add_tally_cons (stats : DispatchStats) (exchange : Exchange) (exchanges : List Exchange) :
    stats.add (Exchange.tally (exchange :: exchanges)) =
      (stats.add (Exchange.tally [exchange])).add (Exchange.tally exchanges) := by
  have hcons (p : Exchange → Bool) : UInt64.ofNat ((exchange :: exchanges).countP p) =
      .ofNat ([exchange].countP p) + .ofNat (exchanges.countP p) := by
    rw [← UInt64.ofNat_add, ← List.countP_append, List.singleton_append]
  simp only [add, Exchange.tally, hcons _, UInt64.add_assoc]

end DispatchStats

/-- How a server ends on what it receives instead of an event, and the calls that it still makes of
its app then. -/
inductive Ends (stats : DispatchStats) : Received → Outcome → List AppCall → Prop
  | closed : Ends stats .closed (.stopped (.ok stats)) [.shutdown]
  | failed (e : AppError) : Ends stats (.failed e) (.stopped (.error e)) [.shutdown]
  | waiting : Ends stats .waiting .waiting []

namespace Dispatcher

variable {α γ : Type} [ServerApp α] [Channel γ] {d : Dispatcher} {m : Message}

theorem deliver_watched (d : Dispatcher) (w : Watched γ ChannelCall) (rcvid : ReceiveId)
    (reply : Reply) : ∃ delivered : Except AppError Unit,
      d.deliver w rcvid reply = ((d.deliver w.inner rcvid reply).1,
        w.note (d.deliver w.inner rcvid reply).2 [.reply rcvid reply delivered]) ∧
      (d.deliver w.inner rcvid reply).1.stats = match delivered with
        | .ok () => d.stats
        | .error _ => { d.stats with lostReplies := d.stats.lostReplies + 1 } := by
  have hreply : Channel.reply w rcvid reply = ((Channel.reply w.inner rcvid reply).1,
      w.note (Channel.reply w.inner rcvid reply).2
        [.reply rcvid reply (Channel.reply w.inner rcvid reply).1]) := rfl
  refine ⟨(Channel.reply w.inner rcvid reply).1, ?_⟩
  rw [deliver, deliver, hreply]
  rcases Channel.reply w.inner rcvid reply with ⟨_ | _, inner⟩
  · exact ⟨rfl, rfl⟩
  · exact ⟨rfl, rfl⟩

theorem proper_of_admits (h : d.context.Admits m) (answer : Reply)
    (delivered : Except AppError Unit) :
    Exchange.Proper d.context
      (.answered m m.framed answer (answer.clamp m.header.rbytes) delivered) := by
  refine .answered delivered h ⟨rfl, rfl, rfl⟩ ?_ ?_ rfl ?_ ?_
  · rw [Message.framed, Buffer.toList_take]
    exact List.take_prefix _ _
  · rw [Message.framed, Buffer.length_take]
    exact Nat.min_eq_left h.payload
  · exact List.take_prefix _ _
  · exact List.length_take

/-- Watching changes nothing about what is done with an event, and shows one proper exchange. -/
theorem handle_watched (d : Dispatcher) (w : Watched α AppCall) (t : Watched γ ChannelCall)
    (event : Event) : ∃ exchange : Exchange, exchange.event = event ∧ exchange.Proper d.context ∧
      (d.handle w.inner t.inner event).1.stats = d.stats.add (Exchange.tally [exchange]) ∧
      d.handle w t event = ((d.handle w.inner t.inner event).1,
        w.note (d.handle w.inner t.inner event).2.1 exchange.appCalls,
        t.note (d.handle w.inner t.inner event).2.2 exchange.replies) := by
  cases event with
  | attach session =>
    refine ⟨.attach session (ServerApp.attach w.inner d.context session).1, rfl, .attach _ _, ?_,
      ?_⟩
    · simp [DispatchStats.add, Exchange.tally, handle, dispatch, count]
    rw [Exchange.replies]
    change (_, _, t) = (_, _, t.note t.inner [])
    rw [t.note_nil]
    rfl
  | detach session =>
    refine ⟨.detach session (ServerApp.detach w.inner d.context session).1, rfl, .detach _ _, ?_,
      ?_⟩
    · simp [DispatchStats.add, Exchange.tally, handle, dispatch, count]
    rw [Exchange.replies]
    change (_, _, t) = (_, _, t.note t.inner [])
    rw [t.note_nil]
    rfl
  | io m =>
    rw [handle_io, handle_io]
    by_cases h : d.context.Admits m
    · have hanswer : ServerApp.answer w d.context m.framed =
          ((ServerApp.answer w.inner d.context m.framed).1,
            w.note (ServerApp.answer w.inner d.context m.framed).2
              [.answer m.framed (ServerApp.answer w.inner d.context m.framed).1]) := rfl
      rw [request_of_admits w h, request_of_admits w.inner h, hanswer]
      rcases ServerApp.answer w.inner d.context m.framed with ⟨answer, inner⟩
      dsimp only
      obtain ⟨delivered, hdeliver, hstats⟩ := deliver_watched
        (d.count fun stats ↦ { stats with requests := stats.requests + 1 }) t m.rcvid
        (answer.clamp m.header.rbytes)
      refine ⟨.answered m m.framed answer (answer.clamp m.header.rbytes) delivered, rfl,
        proper_of_admits h answer delivered, ?_, ?_⟩
      · rw [hstats]
        cases delivered with
        | ok | error => simp [DispatchStats.add, Exchange.tally, count]
      · rw [hdeliver]
        rfl
    · rw [request_of_not_admits w h, request_of_not_admits w.inner h]
      dsimp only
      obtain ⟨delivered, hdeliver, hstats⟩ := deliver_watched (d.count fun stats ↦
        { stats with requests := stats.requests + 1, rejected := stats.rejected + 1 }) t m.rcvid
        (Reply.ofStatus Status.invalid)
      refine ⟨.rejected m delivered, rfl, .rejected delivered h, ?_, ?_⟩
      · rw [hstats]
        cases delivered with
        | ok | error => simp [DispatchStats.add, Exchange.tally, count]
      · rw [hdeliver, Exchange.appCalls, w.note_nil]
        rfl

/-- Watching changes nothing about how a server goes on, and shows one exchange after the other. -/
theorem serve_watched (d : Dispatcher) (w : Watched α AppCall) (t : Watched γ ChannelCall) :
    ∃ (exchanges : List Exchange) (last : Received) (calls : List AppCall),
      (∀ exchange ∈ exchanges, exchange.Proper d.context) ∧
      Ends (d.stats.add (Exchange.tally exchanges)) last (d.serve w.inner t.inner).outcome calls ∧
      d.serve w t = ⟨(d.serve w.inner t.inner).outcome, (d.serve w.inner t.inner).dispatcher,
        w.note (d.serve w.inner t.inner).app (exchanges.flatMap Exchange.appCalls ++ calls),
        t.note (d.serve w.inner t.inner).channel
          (exchanges.flatMap Exchange.channelCalls ++ [.receive last])⟩ := by
  induction hn : Channel.backlog t.inner using Nat.strongRecOn generalizing d w t with
  | ind n ih =>
    have hwatched : Channel.receive t = ((Channel.receive t.inner).1,
        t.note (Channel.receive t.inner).2 [.receive (Channel.receive t.inner).1]) := rfl
    rw [serve_eq d w, serve_eq d w.inner, hwatched]
    rcases hreceive : Channel.receive t.inner with ⟨received, inner⟩
    dsimp only
    cases received with
    | event event =>
      dsimp only
      obtain ⟨exchange, rfl, hproper, hstats, hhandle⟩ :=
        handle_watched d w (t.note inner [.receive (.event event)]) event
      rw [Watched.inner_note] at hhandle hstats
      have hless := Nat.lt_of_le_of_lt (backlog_handle (d := d) w.inner inner exchange.event)
        (Channel.backlog_receive hreceive)
      have hcontext := context_handle (d := d) w.inner inner exchange.event
      rcases hplain : d.handle w.inner inner exchange.event with ⟨d', app, channel⟩
      rw [hplain] at hstats hless hcontext hhandle
      rw [hhandle]
      obtain ⟨exchanges, last, calls, hall, hends, hserve⟩ := ih _ (hn ▸ hless) d'
        (w.note app exchange.appCalls)
        ((t.note inner [.receive (.event exchange.event)]).note channel exchange.replies) rfl
      rw [Watched.inner_note, Watched.inner_note] at hends hserve
      refine ⟨exchange :: exchanges, last, calls, ?_, ?_, ?_⟩
      · rw [hcontext] at hall
        exact List.forall_mem_cons.mpr ⟨hproper, hall⟩
      · rw [DispatchStats.add_tally_cons, ← hstats]
        exact hends
      · rw [hserve, Watched.note_note, Watched.note_note, Watched.note_note, List.flatMap_cons,
          List.flatMap_cons, Exchange.channelCalls, List.append_assoc, List.append_assoc]
        rfl
    | closed =>
      refine ⟨[], .closed, [.shutdown], by simp, ?_, rfl⟩
      rw [DispatchStats.add_tally_nil]
      exact .closed
    | failed e =>
      exact ⟨[], .failed e, [.shutdown], by simp, .failed e, rfl⟩
    | waiting =>
      refine ⟨[], .waiting, [], by simp, .waiting, ?_⟩
      rw [List.flatMap_nil, List.append_nil, w.note_nil]
      rfl

/-- A server that has started goes through one exchange for each event that it receives, in order:
the reply to a request goes out before the next event comes in, and the app is asked in step. After
the last event there is only the end, with the events counted in words of 64 bits. -/
theorem run_exchanges (context : ServerContext) (app : α) (channel : γ)
    (hworkers : context.workers = 1) (hstart : (ServerApp.start app context).1 = .ok ()) :
    ∃ (exchanges : List Exchange) (last : Received) (calls : List AppCall),
      (∀ exchange ∈ exchanges, exchange.Proper context) ∧
      Ends (Exchange.tally exchanges) last ((new context).run app channel).outcome calls ∧
      (exchanges.length < UInt64.size → (Exchange.tally exchanges).Counts exchanges) ∧
      (new context).run (Watched.new app : Watched α AppCall)
          (Watched.new channel : Watched γ ChannelCall) =
        ⟨((new context).run app channel).outcome, ((new context).run app channel).dispatcher,
          ⟨((new context).run app channel).app,
            AppCall.start (.ok ()) :: exchanges.flatMap Exchange.appCalls ++ calls⟩,
          ⟨((new context).run app channel).channel,
            exchanges.flatMap Exchange.channelCalls ++ [.receive last]⟩⟩ := by
  rcases hplain : ServerApp.start app context with ⟨result, app'⟩
  rw [hplain] at hstart
  dsimp only at hstart
  subst hstart
  have hwatched : ServerApp.start (Watched.new app : Watched α AppCall) context =
      (.ok (), (Watched.new app).note app' [AppCall.start (.ok ())]) := by
    change ((ServerApp.start app context).1, (Watched.new app).note (ServerApp.start app context).2
      [AppCall.start (ServerApp.start app context).1]) = _
    rw [hplain]
  rw [run_of_started (d := new context) hworkers hplain,
    run_of_started (d := new context) hworkers hwatched]
  obtain ⟨exchanges, last, calls, hproper, hends, hserve⟩ := serve_watched (new context)
    ((Watched.new app).note app' [AppCall.start (.ok ())]) (Watched.new channel)
  refine ⟨exchanges, last, calls, hproper, ?_, Exchange.tally_counts, hserve⟩
  rw [new, DispatchStats.zero_add] at hends
  exact hends

/-- Requests of all sorts: a good one, one that is cut, one that declares too much. -/
def mixedScript : Script :=
  .play [.ok (.attach ⟨1⟩), .ok (.io ⟨⟨10⟩, ⟨1⟩, .new .read 0 3 2, .ofList [1, 2, 3]⟩),
    .ok (.io ⟨⟨11⟩, ⟨1⟩, .new .write 0 2 16, .ofList [1, 2, 3]⟩),
    .ok (.io ⟨⟨12⟩, ⟨1⟩, .new .read 0 9 16, .ofList [1, 2, 3]⟩), .ok (.detach ⟨1⟩)] [⟨11⟩]

def plainContext : ServerContext := ⟨"/proc", 2048, 1⟩

/-- An app that refuses to let sessions attach. -/
def refusingEcho : Echo := .new ⟨false, true, false, false⟩

/-- What comes of the script: the first answer is cut to what is taken back, the second is lost, and
the third request is not passed on. -/
def mixedExchanges : List Exchange :=
  [.attach ⟨1⟩ (.error (.internal "nope")),
    .answered ⟨⟨10⟩, ⟨1⟩, .new .read 0 3 2, .ofList [1, 2, 3]⟩
      ⟨⟨10⟩, ⟨1⟩, .new .read 0 3 2, .ofList [1, 2, 3]⟩ ⟨0, [1, 2, 3]⟩ ⟨0, [1, 2]⟩ (.ok ()),
    .answered ⟨⟨11⟩, ⟨1⟩, .new .write 0 2 16, .ofList [1, 2, 3]⟩
      ⟨⟨11⟩, ⟨1⟩, .new .write 0 2 16, .ofList [1, 2]⟩ ⟨0, [1, 2]⟩ ⟨0, [1, 2]⟩
      (.error (.ipc (.described "refused"))),
    .rejected ⟨⟨12⟩, ⟨1⟩, .new .read 0 9 16, .ofList [1, 2, 3]⟩ (.ok ()),
    .detach ⟨1⟩ (.ok ())]

theorem mixed_script_exchanged : plainContext.workers = 1 ∧
    (ServerApp.start refusingEcho plainContext).1 = .ok () ∧
    ((new plainContext).run refusingEcho mixedScript).outcome = .stopped (.ok ⟨1, 1, 3, 1, 1⟩) ∧
    ∃ (exchanges : List Exchange) (last : Received) (calls : List AppCall),
      (∀ exchange ∈ exchanges, exchange.Proper plainContext) ∧
      Ends (Exchange.tally exchanges) last (.stopped (.ok ⟨1, 1, 3, 1, 1⟩)) calls ∧
      AppCall.start (.ok ()) :: exchanges.flatMap Exchange.appCalls ++ calls =
        .start (.ok ()) :: mixedExchanges.flatMap Exchange.appCalls ++ [.shutdown] ∧
      exchanges.flatMap Exchange.channelCalls ++ [.receive last] =
        mixedExchanges.flatMap Exchange.channelCalls ++ [.receive .closed] := by
  have hworkers : plainContext.workers = 1 := rfl
  have hstart : (ServerApp.start refusingEcho plainContext).1 = .ok () := rfl
  have houtcome : ((new plainContext).run refusingEcho mixedScript).outcome =
      .stopped (.ok ⟨1, 1, 3, 1, 1⟩) := by decide +kernel
  have hasked : ((new plainContext).run (Watched.new refusingEcho : Watched Echo AppCall)
      (Watched.new mixedScript : Watched Script ChannelCall)).app.calls =
        .start (.ok ()) :: mixedExchanges.flatMap Exchange.appCalls ++ [.shutdown] := by
    decide +kernel
  have htold : ((new plainContext).run (Watched.new refusingEcho : Watched Echo AppCall)
      (Watched.new mixedScript : Watched Script ChannelCall)).channel.calls =
        mixedExchanges.flatMap Exchange.channelCalls ++ [.receive .closed] := by
    decide +kernel
  obtain ⟨exchanges, last, calls, hproper, hends, -, hrun⟩ :=
    run_exchanges plainContext refusingEcho mixedScript hworkers hstart
  rw [hrun] at hasked htold
  rw [houtcome] at hends
  exact ⟨hworkers, hstart, houtcome, exchanges, last, calls, hproper, hends, hasked, htold⟩

end Dispatcher

end BootNamespace
