import BootNamespace.AppError
import BootNamespace.Inspect.Bytes
import BootNamespace.Json.Forms

namespace BootNamespace

open Image

def FsError.inspect (e : FsError) : Json :=
  .ofFields [("error", .text e.kind), ("message", .text e.message)]

namespace Image.ImageError

def kind : ImageError → String
  | alreadyMapped => "AlreadyMapped"
  | notMapped => "NotMapped"
  | notParsed => "NotParsed"
  | badMagic _ => "BadMagic"
  | truncated _ _ => "Truncated"
  | outOfBounds _ => "OutOfBounds"
  | badString _ => "BadString"
  | indexOutOfRange _ _ => "IndexOutOfRange"
  | unavailable _ => "Map"

/-- The message, unless the host has put its own words into it. -/
def messageField (e : ImageError) (message : String) : List (String × Json) :=
  match e with
  | unavailable (.host _) => []
  | _ => [("message", .text message)]

def inspect (e : ImageError) : Json := .ofFields (("error", .text e.kind) :: e.messageField e.message)

end Image.ImageError

def BootstrapError.inspect : BootstrapError → Json
  | badImage e =>
    .ofFields (("error", .text "Image") :: ("inner", .text e.kind) ::
      e.messageField (badImage e).message)
  | refused e =>
    .ofFields [("error", .text "Namespace"), ("inner", .text e.kind),
      ("message", .text (refused e).message)]

namespace AppError

def kind : AppError → String
  | startFailed _ => "InitFailed"
  | ipc _ => "IpcError"
  | framing _ => "ProtocolError"
  | shareFailed _ => "ShareFailed"
  | fs _ => "Vfs"
  | internal _ => "Internal"

def inspect (e : AppError) : Json :=
  .ofFields [("error", .text e.kind), ("message", .text e.message)]

end AppError

namespace Inspect

def fsResult {α : Type} (f : α → Json) : Except FsError α → Json
  | .ok a => f a
  | .error e => e.inspect

def imageResult {α : Type} (f : α → Json) : Except ImageError α → Json
  | .ok a => f a
  | .error e => e.inspect

def bootstrapResult {α : Type} (f : α → Json) : Except BootstrapError α → Json
  | .ok a => f a
  | .error e => e.inspect

def appResult {α : Type} (f : α → Json) : Except AppError α → Json
  | .ok a => f a
  | .error e => e.inspect

end Inspect

end BootNamespace
