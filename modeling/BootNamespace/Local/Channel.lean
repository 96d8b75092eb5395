import BootNamespace.Dispatch.App

namespace BootNamespace

/-- One request that a client has sent and waits for. -/
structure Ticket where
  number : Nat
  deriving DecidableEq, Repr

/-- An event on its way to the server, with the request it is, if it is one. -/
structure Envelope where
  event : Event
  ticket : Option Ticket
  deriving DecidableEq, Repr

/-- A first-in, first-out queue between clients and a server in one process. -/
structure LocalChannel where
  queue : List Envelope
  /-- Requests received and not yet answered. -/
  pending : List (ReceiveId × Ticket)
  answers : List (Ticket × Reply)
  clients : List SessionId
  hasConnector : Bool
  hasServer : Bool
  nextReceive : UInt32
  nextSession : UInt32
  nextTicket : Nat
  deriving DecidableEq, Repr

namespace LocalChannel

def new : LocalChannel := ⟨[], [], [], [], true, true, 1, 1, 0⟩

variable (c : LocalChannel)

/-- Someone can still put in events. -/
def hasSender : Bool := c.hasConnector || !c.clients.isEmpty

def post (event : Event) (ticket : Option Ticket) : LocalChannel :=
  if c.hasServer then { c with queue := c.queue ++ [⟨event, ticket⟩] } else c

/-- Attaches a new client. Its number is used up even if there is no server. -/
def connect : Except AppError SessionId × LocalChannel :=
  let session : SessionId := ⟨c.nextSession⟩
  let c := { c with nextSession := c.nextSession + 1 }
  if c.hasServer then
    (.ok session, { c with clients := c.clients ++ [session] }.post (.attach session) none)
  else (.error (.ipc .serverNotRunning), c)

/-- Puts in a client's request. -/
def send (session : SessionId) (header : RequestHeader) (payload : Bytes) :
    Except FsError Ticket × LocalChannel :=
  if c.hasServer then
    let ticket : Ticket := ⟨c.nextTicket⟩
    (.ok ticket, { c with nextTicket := c.nextTicket + 1 }.post
      (.io ⟨⟨0⟩, session, header, payload⟩) (some ticket))
  else (.error (.protocol .serverNotRunning), c)

/-- What has become of a request; `none` while the server may still answer it. A reply is taken out. -/
def collect (ticket : Ticket) : Option (Except FsError Reply) × LocalChannel :=
  match c.answers.find? (·.1 == ticket) with
  | some (_, reply) =>
    (some (.ok reply), { c with answers := c.answers.filter (·.1 ≠ ticket) })
  | none => (if c.hasServer then none else some (.error (.protocol .requestDropped)), c)

/-- A client that goes away detaches. -/
def disconnect (session : SessionId) : LocalChannel :=
  { c with clients := c.clients.filter (· ≠ session) }.post (.detach session) none

def dropConnector : LocalChannel := { c with hasConnector := false }

/-- Without a server nothing that is queued or pending will be answered. -/
def dropServer : LocalChannel := { c with hasServer := false, queue := [], pending := [] }

/-- Takes the next event. A request gets its receive number now. -/
def receive : Received × LocalChannel :=
  match c.queue with
  | [] => (if c.hasSender then .waiting else .closed, c)
  | ⟨.io m, ticket⟩ :: rest =>
    let rcvid : ReceiveId := ⟨c.nextReceive⟩
    let pending := match ticket with
      | some ticket => (rcvid, ticket) :: c.pending.filter (·.1 ≠ rcvid)
      | none => c.pending
    (.event (.io { m with rcvid := rcvid }),
      { c with queue := rest, pending := pending, nextReceive := c.nextReceive + 1 })
  | ⟨event, _⟩ :: rest => (.event event, { c with queue := rest })

/-- Sends a reply to the client whose request it answers. -/
def reply (rcvid : ReceiveId) (reply : Reply) : Except AppError Unit × LocalChannel :=
  match c.pending.find? (·.1 == rcvid) with
  | some (_, ticket) =>
    (.ok (), { c with
      pending := c.pending.filter (·.1 ≠ rcvid)
      answers := c.answers ++ [(ticket, reply)] })
  | none => (.error (.ipc (.noPendingRequest rcvid)), c)

instance : Channel LocalChannel where
  receive := receive
  reply := reply
  backlog c := c.queue.length
  backlog_receive {c c' e} h := by
    unfold receive at h
    split at h
    · split at h <;> cases h
    next heq =>
      cases h
      simp [heq]
    next heq =>
      cases h
      simp [heq]
  backlog_reply c rcvid r := by
    unfold reply
    split <;> exact Nat.le_refl _

end LocalChannel

end BootNamespace
