import BootNamespace.Dispatch.Dispatcher

namespace BootNamespace

/-- A request that is passed on to the app: its operation is known, and the payload that it declares
fits into the buffer and has come with it. -/
structure ServerContext.Admits (context : ServerContext) (m : Message) : Prop where
  operation : m.header.operation.isSome
  buffer : m.header.sbytes.toNat ≤ context.bufferSize.toNat
  payload : m.header.sbytes.toNat ≤ m.payload.length

/-- The request with its payload cut to the declared length. -/
def Message.framed (m : Message) : Message :=
  { m with payload := m.payload.take m.header.sbytes.toNat }

namespace Dispatcher

variable {d : Dispatcher} {m framed : Message}

theorem frame_of_admits (h : d.context.Admits m) : d.frame m = .ok m.framed := by
  rw [frame, Message.framed, if_neg (by simp [Option.ne_none_iff_isSome.mpr h.operation]),
    if_neg (Nat.not_lt.mpr h.buffer), if_neg (Nat.not_lt.mpr h.payload)]

theorem frame_of_not_admits (h : ¬d.context.Admits m) : ∃ e, d.frame m = .error e := by
  unfold frame
  dsimp only
  split
  · exact ⟨_, rfl⟩
  next hop =>
    split
    · exact ⟨_, rfl⟩
    next hbuffer =>
      split
      · exact ⟨_, rfl⟩
      next hpayload =>
        have hknown : m.header.operation.isSome := by
          simpa [Option.isSome_iff_ne_none] using hop
        exact absurd ⟨hknown, Nat.not_lt.mp hbuffer, Nat.not_lt.mp hpayload⟩ h

section App

variable {α : Type} [ServerApp α]

theorem request_of_admits (app : α) (h : d.context.Admits m) :
    d.request app m = ((ServerApp.answer app d.context m.framed).1.clamp m.header.rbytes,
      d.count fun stats ↦ { stats with requests := stats.requests + 1 },
      (ServerApp.answer app d.context m.framed).2) := by
  have hframe : (d.count fun stats ↦ { stats with requests := stats.requests + 1 }).frame m =
      .ok m.framed := frame_of_admits h
  rw [request]
  dsimp only
  rw [hframe]
  rfl

theorem request_of_not_admits (app : α) (h : ¬d.context.Admits m) :
    d.request app m = (Reply.ofStatus Status.invalid,
      d.count fun stats ↦
        { stats with requests := stats.requests + 1, rejected := stats.rejected + 1 }, app) := by
  obtain ⟨e, hframe⟩ :
      ∃ e, (d.count fun stats ↦ { stats with requests := stats.requests + 1 }).frame m = .error e :=
    frame_of_not_admits h
  rw [request]
  dsimp only
  rw [hframe]
  simp [Reply.clamp, Reply.ofStatus, count]

theorem context_request (app : α) (m : Message) : (d.request app m).2.1.context = d.context := by
  by_cases h : d.context.Admits m
  · rw [request_of_admits app h]
    rfl
  · rw [request_of_not_admits app h]
    rfl

theorem context_dispatch (app : α) (event : Event) :
    (d.dispatch app event).2.1.context = d.context := by
  cases event with
  | attach | detach => rfl
  | io m => exact context_request app m

variable {γ : Type} [Channel γ]

/-- All that the server does with an event that it has received, up to the delivery of the reply. -/
def handle (d : Dispatcher) (app : α) (channel : γ) (event : Event) : Dispatcher × α × γ :=
  match d.dispatch app event with
  | (none, d, app) => (d, app, channel)
  | (some (rcvid, reply), d, app) =>
    ((d.deliver channel rcvid reply).1, app, (d.deliver channel rcvid reply).2)

theorem context_deliver (channel : γ) (rcvid : ReceiveId) (reply : Reply) :
    (d.deliver channel rcvid reply).1.context = d.context := by
  unfold deliver
  split <;> rfl

theorem context_handle (app : α) (channel : γ) (event : Event) :
    (d.handle app channel event).1.context = d.context := by
  have hdispatch := context_dispatch (d := d) app event
  unfold handle
  split
  next heq =>
    rw [heq] at hdispatch
    exact hdispatch
  next heq =>
    rw [heq] at hdispatch
    exact (context_deliver channel _ _).trans hdispatch

theorem backlog_handle (app : α) (channel : γ) (event : Event) :
    Channel.backlog (d.handle app channel event).2.2 ≤ Channel.backlog channel := by
  unfold handle
  split
  next => exact Nat.le_refl _
  next => exact backlog_deliver _ _ _ _

theorem handle_io (d : Dispatcher) (app : α) (channel : γ) (m : Message) :
    d.handle app channel (.io m) =
      (((d.request app m).2.1.deliver channel m.rcvid (d.request app m).1).1, (d.request app m).2.2,
        ((d.request app m).2.1.deliver channel m.rcvid (d.request app m).1).2) := rfl

theorem serve_eq (d : Dispatcher) (app : α) (channel : γ) :
    d.serve app channel =
      match Channel.receive channel with
      | (.event event, channel) => (d.handle app channel event).1.serve
          (d.handle app channel event).2.1 (d.handle app channel event).2.2
      | (.closed, channel) =>
        ⟨.stopped (.ok d.stats), d, ServerApp.shutdown app d.context, channel⟩
      | (.failed e, channel) =>
        ⟨.stopped (.error e), d, ServerApp.shutdown app d.context, channel⟩
      | (.waiting, channel) => ⟨.waiting, d, app, channel⟩ := by
  rw [serve]
  split
  next event channel' heq =>
    rw [heq]
    dsimp only
    unfold handle
    rcases d.dispatch app event with ⟨_ | ⟨rcvid, reply⟩, d', app'⟩
    · rfl
    · rfl
  next heq => rw [heq]
  next heq => rw [heq]
  next heq => rw [heq]

theorem run_of_started {app app' : α} (hworkers : d.context.workers = 1)
    (hstart : ServerApp.start app d.context = (.ok (), app')) (channel : γ) :
    d.run app channel = d.serve app' channel := by
  rw [run, if_neg (fun hother ↦ hother hworkers), hstart]

end App

end Dispatcher

end BootNamespace
