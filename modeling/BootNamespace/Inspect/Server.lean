import BootNamespace.Dispatch.Dispatcher
import BootNamespace.Dispatch.Echo
import BootNamespace.Inspect.Image
import BootNamespace.Inspect.Namespace
import BootNamespace.Service.Basic

namespace BootNamespace

open Inspect

namespace Inspect

def operation (op : Option Operation) : Json := optional (fun op ↦ .text op.name) op

def status (s : Int32) : Json := .integer s.toInt

def mode (m : OpenMode) : Json := m.toJson

end Inspect

def RequestHeader.inspect (h : RequestHeader) : Json :=
  .ofFields [("op", word h.op), ("code", word h.code), ("sbytes", word h.sbytes),
    ("rbytes", word h.rbytes), ("operation", Inspect.operation h.operation)]

def Reply.inspect (reply : Reply) : Json :=
  .ofFields [("status", Inspect.status reply.status), ("payload", bytes reply.payload)]

def Event.inspect : Event → Json
  | attach s => .ofFields [("attach", word s.number)]
  | detach s => .ofFields [("detach", word s.number)]
  | io m =>
    .ofFields [("io", .array [word m.rcvid.number, word m.session.number, word m.header.op,
      word m.header.code, word m.header.sbytes, word m.header.rbytes, bytes m.payload])]

def ServerContext.inspect (context : ServerContext) : Json :=
  .array [.text context.path, .ofNat context.bufferSize.toNat, .ofNat context.workers.toNat]

def Call.inspect : Call → Json
  | start context => .array [.text "init", context.inspect]
  | attach s => .array [.text "attach", word s.number]
  | detach s => .array [.text "detach", word s.number]
  | io m =>
    .array [.text "io", .array [word m.rcvid.number, word m.session.number,
      Inspect.operation m.header.operation, bytes m.payload]]
  | shutdown => .array [.text "shutdown", .null]

def ConnectionState.inspect : ConnectionState → Json
  | closed => .text "closed"
  | opened => .text "open"
  | mapped generation => .ofFields [("mapped", optional word generation)]

def Connection.inspect (conn : Connection) : Json :=
  .ofFields [("session", word conn.session.number), ("state", conn.state.inspect),
    ("access", optional Inspect.mode conn.mode), ("seek", .ofNat conn.cursor.toNat),
    ("file", optional FileId.inspect conn.file), ("closed", .bool conn.isClosed),
    ("granted", .bool conn.isGranted)]

def ConnectionTable.inspect (table : ConnectionTable) : Json :=
  .array (table.toList.map Connection.inspect)

def Grant.inspect (grant : Grant) : Json := .array [word grant.generation, .ofNat grant.length]

def FaultyGrants.inspect (faulty : FaultyGrants) : Json :=
  .ofFields [
    ("grants", .array (faulty.grants.bySession.entries.map fun (s, grant) ↦
      .array [word s.number, word grant.generation, .ofNat grant.length])),
    ("shares", .ofNat faulty.shares), ("unshares", .ofNat faulty.unshares)]

def DispatchStats.inspect (stats : DispatchStats) : Json :=
  .ofFields [("attaches", .ofNat stats.attaches.toNat), ("detaches", .ofNat stats.detaches.toNat),
    ("requests", .ofNat stats.requests.toNat), ("rejected", .ofNat stats.rejected.toNat),
    ("lost_replies", .ofNat stats.lostReplies.toNat)]

def Outcome.inspect : Outcome → Json
  | waiting => .null
  | stopped result => appResult DispatchStats.inspect result

def BootReport.inspect (report : BootReport) : Json :=
  .ofFields [("version", .text report.version), ("arch", .text report.arch),
    ("machine", .text report.machine), ("ram", report.ram.inspect),
    ("devices", .ofNat report.devices), ("boot_files", .array (report.bootFiles.map .text)),
    ("commands", .array (report.commands.map .text))]

def Service.inspect {σ : Type} (s : Service σ) : Json :=
  .ofFields [("tree", s.ns.inspect), ("report", optional BootReport.inspect s.report),
    ("connections", s.connections.inspect)]

end BootNamespace
