import BootNamespace.Config.Json
import BootNamespace.Local.Server
import BootNamespace.Service.App

namespace BootNamespace.Demo

open Image

abbrev Host := LocalServer (Service GrantTable)

abbrev Session := Client (LocalClient (Service GrantTable))

def padLeft (width : Nat) (s : String) : String :=
  String.ofList (List.replicate (width - s.length) ' ') ++ s

def entryLine (entry : Entry) : String :=
  match entry.kind with
  | .directory => "  d " ++ padLeft 8 "-" ++ "  " ++ entry.name ++ "\n"
  | .file size => "  f " ++ padLeft 8 (toString size.toNat) ++ "  " ++ entry.name ++ "\n"

/-- Part of a demonstration: what it prints, and whether it failed. -/
structure Shown where
  output : Bytes
  failure : Option FsError

def showListing (c : Session) (path : String) : Shown × Session :=
  let title := Bytes.ofText (path ++ ":\n")
  match c.list path with
  | (.error e, c) => (⟨title, some e⟩, c)
  | (.ok entries, c) => (⟨title ++ entries.flatMap (Bytes.ofText ∘ entryLine), none⟩, c)

/-- Shows a whole file. It is closed again before a failure to read it counts. The bytes go out as
they are: those that are no UTF-8 would have to be replaced, but the two files that are shown are
texts. -/
def showFile (c : Session) (path : String) : Shown × Session :=
  match c.openFile path OpenFlags.readOnly with
  | (.error e, c) => (⟨[], some e⟩, c)
  | (.ok (), c) =>
    let (data, c) := c.readToEnd
    match c.close, data with
    | (.error e, c), _ => (⟨[], some e⟩, c)
    | (.ok (), c), .error e => (⟨[], some e⟩, c)
    | (.ok (), c), .ok data => (⟨data, none⟩, c)

/-- Shows one part after the other, up to the first that fails. -/
def showAll (c : Session) : List (Session → Shown × Session) → Shown × Session
  | [] => (⟨[], none⟩, c)
  | part :: parts =>
    let (shown, c) := part c
    match shown.failure with
    | some _ => (shown, c)
    | none =>
      let (rest, c) := showAll c parts
      (⟨shown.output ++ rest.output, rest.failure⟩, c)

/-- Lists the root and the boot directory and shows the two summaries. -/
def session (config : ServerConfig) (host : Host) : Shown × Host :=
  match host.connect with
  | (.error e, host) => (⟨[], some (.protocol (.described e.message))⟩, host)
  | (.ok number, host) =>
    let c : Session := ⟨⟨host, number⟩, config.bufferSize.toUInt32⟩
    let (shown, c) := showAll c
      [(showListing · "/"), (showListing · config.bootDir), (showFile · config.sysPath),
        (showFile · config.devicesPath)]
    (shown, c.transport.server.disconnect number)

/-- What a run of the program prints, and whether it succeeds. -/
structure Result where
  output : Bytes
  success : Bool

def Result.failed : Result := ⟨[], false⟩

/-- Serves an image's namespace to one session. -/
def run (config : ServerConfig) (image : StoredImage) : Result :=
  match (Service.new config GrantTable.empty).bootstrap image with
  | (.error _, _) => .failed
  | (.ok _, service) =>
    let (shown, host) := session config (LocalServer.new config.context service)
    match shown.failure, host.finish.result with
    | none, some (.ok _) => ⟨shown.output, true⟩
    | _, _ => ⟨shown.output, false⟩

/-- The settings that the program goes by: the standard ones, or those of a text that it accepts. -/
def settings? (read : Bytes → Option ServerConfig) :
    Option (Except Unit Bytes) → Option ServerConfig
  | none => some .standard
  | some (.error ()) => none
  | some (.ok text) => (ServerConfig.accept read text).toOption

/-- The program on an image and the text of a configuration, if one is given, with a reader of
configurations. -/
def programWith (read : Bytes → Option ServerConfig) (image : StoredImage)
    (config : Option (Except Unit Bytes)) : Result :=
  match settings? read config with
  | none => .failed
  | some config => run config image

def program (image : StoredImage) (config : Option (Except Unit Bytes)) : Result :=
  programWith ServerConfig.read? image config

end BootNamespace.Demo
