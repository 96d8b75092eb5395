import BootNamespace.Client
import BootNamespace.Proofs.Dispatch.Serve
import BootNamespace.Proofs.Service.Protocol
import BootNamespace.Service.App

namespace BootNamespace

/-- A client's way to a dispatcher that handles each request as it comes. -/
structure Link (α : Type) where
  dispatcher : Dispatcher
  app : α
  session : SessionId
  next : UInt32

namespace Link

variable {α : Type} [ServerApp α] (link : Link α) (header : RequestHeader) (payload : Bytes)

/-- The request as the dispatcher gets it. -/
def message : Message := ⟨⟨link.next⟩, link.session, header, payload⟩

instance : Transport (Link α) where
  send link header payload :=
    match link.dispatcher.dispatch link.app (.io (link.message header payload)) with
    | (some (_, reply), dispatcher, app) =>
      (.ok reply, ⟨dispatcher, app, link.session, link.next + 1⟩)
    | (none, dispatcher, app) =>
      (.error (.protocol .requestDropped), ⟨dispatcher, app, link.session, link.next + 1⟩)

/-- The link once a request has been answered. -/
def sent : Link α :=
  ⟨(link.dispatcher.request link.app (link.message header payload)).2.1,
    (link.dispatcher.request link.app (link.message header payload)).2.2, link.session,
    link.next + 1⟩

theorem send_eq : Transport.send link header payload =
    (.ok (link.dispatcher.request link.app (link.message header payload)).1,
      link.sent header payload) := rfl

end Link

theorem FsError.ofStatus_eq_none_iff {code : Int32} : FsError.ofStatus code = none ↔ 0 ≤ code := by
  unfold ofStatus
  split
  next h => simp [h]
  next h =>
    simp only [h, iff_false]
    repeat' split
    all_goals simp

namespace Client

variable {τ : Type} [Transport τ] {c : Client τ} {t : τ} {op : Operation} {code rbytes : UInt32}
variable {payload : Bytes} {reply : Reply}

/-- The request that a call sends. -/
def header (op : Operation) (code : UInt32) (payload : Bytes) (rbytes : UInt32) : RequestHeader :=
  .new op code (.ofNat payload.length) rbytes

theorem operation_header : (header op code payload rbytes).operation = some op := by
  cases op <;> rfl

theorem call_of_send
    (hsend : Transport.send c.transport (header op code payload rbytes) payload = (.ok reply, t)) :
    c.call op code payload rbytes =
      (match FsError.ofStatus reply.status with
        | some e => .error e
        | none => .ok reply, { c with transport := t }) := by
  rw [call]
  dsimp only
  rw [← header, hsend]
  dsimp only
  cases FsError.ofStatus reply.status with
  | none => rfl
  | some e => rfl

end Client

namespace Dispatcher

variable {σ : Type} [Sharing σ] {d : Dispatcher} {m : Message} {op : Operation}

/-- A request that is passed on gets what its handler says, cut to what was asked for. -/
theorem request_of_handle (s : Service σ) (h : d.context.Admits m)
    (hop : m.header.operation = some op) :
    d.request s m = ((Reply.ofResult (s.handle m.framed op).1).clamp m.header.rbytes,
      d.count fun stats ↦ { stats with requests := stats.requests + 1 },
      (s.handle m.framed op).2) := by
  have hframed : m.framed.header.operation = some op := hop
  rw [request_of_admits s h]
  change ((s.answer m.framed).1.clamp _, _, (s.answer m.framed).2) = _
  rw [Service.answer_known s hframed]

end Dispatcher

namespace Client

variable {σ : Type} [Sharing σ] {c : Client (Link (Service σ))} {op : Operation}
variable {code rbytes : UInt32} {payload : Bytes} {reply : Reply} {s' : Service σ}

/-- The request of a call, as the dispatcher of a link gets it. -/
def sends (c : Client (Link (Service σ))) (op : Operation) (code : UInt32) (payload : Bytes)
    (rbytes : UInt32) : Message :=
  c.transport.message (header op code payload rbytes) payload

def answered (c : Client (Link (Service σ))) (op : Operation) (code : UInt32) (payload : Bytes)
    (rbytes : UInt32) : Reply :=
  (c.transport.dispatcher.request c.transport.app (c.sends op code payload rbytes)).1

/-- The client once a call has been answered. -/
def called (c : Client (Link (Service σ))) (op : Operation) (code : UInt32) (payload : Bytes)
    (rbytes : UInt32) : Client (Link (Service σ)) :=
  { c with transport := c.transport.sent (header op code payload rbytes) payload }

theorem call_eq (c : Client (Link (Service σ))) (op : Operation) (code : UInt32) (payload : Bytes)
    (rbytes : UInt32) : c.call op code payload rbytes =
      (match FsError.ofStatus (c.answered op code payload rbytes).status with
        | some e => .error e
        | none => .ok (c.answered op code payload rbytes), c.called op code payload rbytes) :=
  call_of_send (Link.send_eq _ _ _)

section Admitted

variable (hadmits : c.transport.dispatcher.context.Admits (c.sends op code payload rbytes))
include hadmits

theorem answered_eq : c.answered op code payload rbytes =
    (Reply.ofResult (c.transport.app.handle (c.sends op code payload rbytes).framed op).1).clamp
      rbytes := by
  rw [answered, Dispatcher.request_of_handle _ hadmits operation_header]
  rfl

theorem called_app : (c.called op code payload rbytes).transport.app =
    (c.transport.app.handle (c.sends op code payload rbytes).framed op).2 := by
  change (c.transport.dispatcher.request _ (c.sends op code payload rbytes)).2.2 = _
  rw [Dispatcher.request_of_handle _ hadmits operation_header]

theorem call_of_handle_ok
    (hhandle : c.transport.app.handle (c.sends op code payload rbytes).framed op = (.ok reply, s'))
    (hstatus : 0 ≤ reply.status) :
    c.call op code payload rbytes = (.ok (reply.clamp rbytes), c.called op code payload rbytes) := by
  have hanswered : c.answered op code payload rbytes = reply.clamp rbytes := by
    rw [answered_eq hadmits, hhandle]
    rfl
  have hok : FsError.ofStatus (reply.clamp rbytes).status = none :=
    FsError.ofStatus_eq_none_iff.mpr hstatus
  rw [call_eq, hanswered, hok]

end Admitted

/-- Only what the dispatcher passes on and the handler grants comes back as a success. -/
theorem call_eq_ok (hcall : (c.call op code payload rbytes).1 = .ok reply) :
    c.transport.dispatcher.context.Admits (c.sends op code payload rbytes) ∧
      ∃ granted, (c.transport.app.handle (c.sends op code payload rbytes).framed op).1 =
        .ok granted := by
  have hstatus : 0 ≤ (c.answered op code payload rbytes).status := by
    rw [call_eq] at hcall
    dsimp only at hcall
    split at hcall
    next => cases hcall
    next hnone => exact FsError.ofStatus_eq_none_iff.mp hnone
  by_cases hadmits : c.transport.dispatcher.context.Admits (c.sends op code payload rbytes)
  · refine ⟨hadmits, ?_⟩
    rw [answered_eq hadmits] at hstatus
    cases hhandle : (c.transport.app.handle (c.sends op code payload rbytes).framed op).1 with
    | error e =>
      rw [hhandle] at hstatus
      exact absurd e.status_neg (Int32.not_lt.mpr hstatus)
    | ok granted => exact ⟨granted, rfl⟩
  · rw [answered, Dispatcher.request_of_not_admits _ hadmits] at hstatus
    have hinvalid : ¬0 ≤ Status.invalid := by decide
    exact absurd hstatus hinvalid

theorem command_eq (c : Client (Link (Service σ))) (op : Operation) (code : UInt32)
    (payload : Bytes) : c.command op code payload =
      ((c.call op code payload 0).1.map fun _ ↦ (), c.called op code payload 0) := by
  rw [command, call_eq]

end Client

end BootNamespace
