import BootNamespace.Connection.Table
import BootNamespace.Namespace.Content
import BootNamespace.Sharing

namespace BootNamespace

open Image

/-- The server's whole state. -/
structure Service (σ : Type) where
  config : ServerConfig
  ns : Namespace
  connections : ConnectionTable
  share : σ
  image : BootImage
  report : Option BootReport

namespace Service

variable {σ : Type}

def withNamespace (config : ServerConfig) (ns : Namespace) (share : σ) : Service σ :=
  ⟨config, ns, .empty, share, .unmapped, none⟩

def new (config : ServerConfig) (share : σ) : Service σ :=
  withNamespace config (.empty config.pageSize.toNat) share

/-- Fills the namespace from an image. Any failure is final for the server's start. -/
def bootstrap {τ : Type} [ImageSource τ] (s : Service σ) (source : τ) :
    Except BootstrapError BootReport × Service σ :=
  let done := s.ns.bootstrap s.image source s.config.layout
  let s := { s with ns := done.ns, image := done.image }
  match done.result with
  | .ok report => (.ok report, { s with report := some report })
  | .error e => (.error e, s)

variable (s : Service σ)

def connection (session : SessionId) : Except FsError Connection :=
  match s.connections.get? session with
  | some conn => .ok conn
  | none => .error (.protocol (.noConnection session))

/-- A session's connection, with the file and the mode bound to it. -/
def boundConnection (session : SessionId) : Except FsError (Connection × FileId × OpenMode) :=
  match s.connection session with
  | .error e => .error e
  | .ok conn =>
    match conn.bound with
    | .error e => .error e
    | .ok (file, mode) => .ok (conn, file, mode)

def putConnection (session : SessionId) (conn : Connection) : Service σ :=
  { s with connections := s.connections.put session conn }

/-- The path in a request. There is no working directory, so it has to be absolute. -/
def requestPath (m : Message) : Except FsError String :=
  match Path.ofPayload m.payload with
  | .error e => .error e
  | .ok path => if Path.isAbsolute path then .ok path else .error (.invalidPath (.relative path))

end Service

end BootNamespace
