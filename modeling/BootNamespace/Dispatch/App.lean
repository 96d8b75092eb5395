import BootNamespace.AppError

namespace BootNamespace

/-- What a server does at its start and end and with each event. Every request yields one reply. -/
class ServerApp (α : Type) where
  start : α → ServerContext → Except AppError Unit × α
  attach : α → ServerContext → SessionId → Except AppError Unit × α
  detach : α → ServerContext → SessionId → Except AppError Unit × α
  answer : α → ServerContext → Message → Reply × α
  shutdown : α → ServerContext → α

inductive Received where
  | event (event : Event)
  /-- No event will come any more. -/
  | closed
  | failed (error : AppError)
  /-- No event has come yet. -/
  | waiting
  deriving DecidableEq

/-- A source of events and a way back for the replies. The backlog bounds the events that can be
received before someone puts in more. -/
class Channel (γ : Type) where
  receive : γ → Received × γ
  reply : γ → ReceiveId → Reply → Except AppError Unit × γ
  backlog : γ → Nat
  backlog_receive {c c' : γ} {e : Event} : receive c = (.event e, c') → backlog c' < backlog c
  backlog_reply (c : γ) (r : ReceiveId) (reply' : Reply) :
    backlog (reply c r reply').2 ≤ backlog c

end BootNamespace
