import BootNamespace.Client
import BootNamespace.Dispatch.Dispatcher
import BootNamespace.Local.Channel

namespace BootNamespace

/-- How far a server has come. -/
inductive Phase where
  | ready
  | serving
  | ended (result : Except AppError DispatchStats)

/-- A server and its clients in one process. The server gets its turn when a client waits for a reply,
and once more when all clients are gone. -/
structure LocalServer (α : Type) where
  dispatcher : Dispatcher
  app : α
  channel : LocalChannel
  phase : Phase

/-- A client of a local server, as a way to send requests. -/
structure LocalClient (α : Type) where
  server : LocalServer α
  session : SessionId

namespace LocalServer

variable {α : Type} [ServerApp α]

def new (context : ServerContext) (app : α) : LocalServer α := ⟨.new context, app, .new, .ready⟩

/-- A server that has ended leaves its channel. -/
def ofServed (served : Served α LocalChannel) : LocalServer α :=
  match served.outcome with
  | .waiting => ⟨served.dispatcher, served.app, served.channel, .serving⟩
  | .stopped result => ⟨served.dispatcher, served.app, served.channel.dropServer, .ended result⟩

variable (s : LocalServer α)

/-- Lets the server start if it has not, and handle what has been put into the channel. -/
def turn : LocalServer α :=
  match s.phase with
  | .ready => ofServed (s.dispatcher.run s.app s.channel)
  | .serving => ofServed (s.dispatcher.serve s.app s.channel)
  | .ended _ => s

/-- How the server ended, if it has. -/
def result : Option (Except AppError DispatchStats) :=
  match s.phase with
  | .ended result => some result
  | .ready | .serving => none

def connect : Except AppError SessionId × LocalServer α :=
  let (result, channel) := s.channel.connect
  (result, { s with channel := channel })

def send (session : SessionId) (header : RequestHeader) (payload : Bytes) :
    Except FsError Reply × LocalServer α :=
  match s.channel.send session header payload with
  | (.error e, channel) => (.error e, { s with channel := channel })
  | (.ok ticket, channel) =>
    let s := { s with channel := channel }.turn
    match s.channel.collect ticket with
    | (some result, channel) => (result, { s with channel := channel })
    | (none, channel) => (.error (.protocol .requestDropped), { s with channel := channel })

def disconnect (session : SessionId) : LocalServer α :=
  { s with channel := s.channel.disconnect session }

/-- Drops all clients and the connector, which ends the server. -/
def finish : LocalServer α :=
  let s := s.channel.clients.foldl disconnect s
  { s with channel := s.channel.dropConnector }.turn

end LocalServer

instance {α : Type} [ServerApp α] : Transport (LocalClient α) where
  send client header payload :=
    let (result, server) := client.server.send client.session header payload
    (result, { client with server := server })

end BootNamespace
