import BootNamespace.Dispatch.App

namespace BootNamespace

structure DispatchStats where
  attaches : UInt64
  detaches : UInt64
  requests : UInt64
  /-- Requests answered without asking the app. -/
  rejected : UInt64
  /-- Replies that the channel did not deliver. -/
  lostReplies : UInt64
  deriving DecidableEq, Repr

def DispatchStats.zero : DispatchStats := ⟨0, 0, 0, 0, 0⟩

structure Dispatcher where
  context : ServerContext
  stats : DispatchStats
  deriving DecidableEq, Repr

inductive Outcome where
  /-- The channel is open and has nothing to receive. -/
  | waiting
  | stopped (result : Except AppError DispatchStats)

/-- Where dispatching has come to. -/
structure Served (α γ : Type) where
  outcome : Outcome
  dispatcher : Dispatcher
  app : α
  channel : γ

namespace Dispatcher

def new (context : ServerContext) : Dispatcher := ⟨context, .zero⟩

variable (d : Dispatcher)

def count (f : DispatchStats → DispatchStats) : Dispatcher := { d with stats := f d.stats }

/-- Cuts a request's payload to the declared length, or tells why the request is malformed. -/
def frame (m : Message) : Except FramingError Message :=
  let declared := m.header.sbytes.toNat
  if m.header.operation.isNone then .error (.unknownOperation m.header.op)
  else if d.context.bufferSize.toNat < declared then
    .error (.bufferOverflow declared d.context.bufferSize.toNat)
  else if m.payload.length < declared then .error (.payloadOverflow declared m.payload.length)
  else .ok { m with payload := m.payload.take declared }

variable {α : Type} [ServerApp α]

/-- Answers a request, malformed ones without asking the app. The payload fits what was asked for. -/
def request (app : α) (m : Message) : Reply × Dispatcher × α :=
  let d := d.count fun stats ↦ { stats with requests := stats.requests + 1 }
  match d.frame m with
  | .ok framed =>
    let (reply, app) := ServerApp.answer app d.context framed
    (reply.clamp m.header.rbytes, d, app)
  | .error _ =>
    let d := d.count fun stats ↦ { stats with rejected := stats.rejected + 1 }
    ((Reply.ofStatus Status.invalid).clamp m.header.rbytes, d, app)

/-- Handles one event. A request yields a reply, and the others nothing, even if they fail. -/
def dispatch (app : α) (event : Event) : Option (ReceiveId × Reply) × Dispatcher × α :=
  match event with
  | .attach session =>
    (none, d.count fun stats ↦ { stats with attaches := stats.attaches + 1 },
      (ServerApp.attach app d.context session).2)
  | .detach session =>
    (none, d.count fun stats ↦ { stats with detaches := stats.detaches + 1 },
      (ServerApp.detach app d.context session).2)
  | .io m =>
    let (reply, d, app) := d.request app m
    (some (m.rcvid, reply), d, app)

variable {γ : Type} [Channel γ]

/-- Sends a reply. One that gets lost is counted and otherwise passed over. -/
def deliver (channel : γ) (rcvid : ReceiveId) (reply : Reply) : Dispatcher × γ :=
  match Channel.reply channel rcvid reply with
  | (.ok (), channel) => (d, channel)
  | (.error _, channel) =>
    (d.count fun stats ↦ { stats with lostReplies := stats.lostReplies + 1 }, channel)

theorem backlog_deliver (channel : γ) (rcvid : ReceiveId) (reply : Reply) :
    Channel.backlog (d.deliver channel rcvid reply).2 ≤ Channel.backlog channel := by
  have h := Channel.backlog_reply channel rcvid reply
  unfold deliver
  split <;> rename_i heq <;> rw [heq] at h <;> exact h

/-- Receives, handles and answers one event after the other for as long as there are any. -/
def serve (d : Dispatcher) (app : α) (channel : γ) : Served α γ :=
  match _h : Channel.receive channel with
  | (.event event, channel) =>
    match d.dispatch app event with
    | (none, d, app) => serve d app channel
    | (some (rcvid, reply), d, app) =>
      let delivered := d.deliver channel rcvid reply
      serve delivered.1 app delivered.2
  | (.closed, channel) =>
    ⟨.stopped (.ok d.stats), d, ServerApp.shutdown app d.context, channel⟩
  | (.failed e, channel) => ⟨.stopped (.error e), d, ServerApp.shutdown app d.context, channel⟩
  | (.waiting, channel) => ⟨.waiting, d, app, channel⟩
termination_by Channel.backlog channel
decreasing_by
  · exact Channel.backlog_receive _h
  · exact Nat.lt_of_le_of_lt (backlog_deliver _ _ _ _) (Channel.backlog_receive _h)

/-- Starts the app and serves. There is only one worker, so a context that asks for more is refused. -/
def run (app : α) (channel : γ) : Served α γ :=
  if d.context.workers ≠ 1 then
    ⟨.stopped (.error (.startFailed (.workers d.context.workers))), d, app, channel⟩
  else
    match ServerApp.start app d.context with
    | (.error e, app) => ⟨.stopped (.error e), d, app, channel⟩
    | (.ok (), app) => d.serve app channel

end Dispatcher

end BootNamespace
