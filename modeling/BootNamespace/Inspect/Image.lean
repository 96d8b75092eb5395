import BootNamespace.Image.Boot
import BootNamespace.Inspect.Errors

namespace BootNamespace.Image

open Inspect

def Header.inspect (h : Header) : Json := .array (h.words.map word)

def Ram.inspect (ram : Ram) : Json := .array [word ram.addr, word ram.size]

def Irq.inspect (irq : Irq) : Json := .array [word irq.privilege, word irq.shared]

def Device.inspect (device : Device) : Json :=
  .ofFields [("name", .text device.name), ("addr", word device.addr), ("size", word device.size),
    ("access", word device.access)]

def EmbeddedFile.inspect (file : EmbeddedFile) : Json :=
  .ofFields [("name", .text file.name), ("kind", .text file.kind.name),
    ("raw", word file.kind.code), ("data", bytes file.data)]

def StartupCommand.inspect (command : StartupCommand) : Json :=
  .ofFields [("kind", word command.kind), ("priority", .ofNat command.priority.toNat),
    ("privilege", .ofNat command.privilege.toNat), ("file", .ofNat command.file),
    ("arguments", .text command.arguments)]

/-- The records of a table, or none if it is not known how many there are. -/
def inspectTable {α : Type} (count : Except ImageError Nat) (record : Nat → Except ImageError α)
    (f : α → Json) : Json :=
  .array ((List.range (count.toOption.getD 0)).map fun index ↦ imageResult f (record index))

/-- All that an image says. -/
def BootImage.inspect (image : BootImage) : Json :=
  .ofFields [("version", imageResult .text image.version), ("arch", imageResult .text image.arch),
    ("machine", imageResult .text image.machine), ("ram", imageResult Ram.inspect image.ram),
    ("irq", imageResult Irq.inspect image.irq),
    ("device_count", imageResult .ofNat image.deviceCount),
    ("file_count", imageResult .ofNat image.fileCount),
    ("command_count", imageResult .ofNat image.commandCount),
    ("dump_header", imageResult done image.summary),
    ("devices", inspectTable image.deviceCount image.device Device.inspect),
    ("files", inspectTable image.fileCount image.file EmbeddedFile.inspect),
    ("commands", inspectTable image.commandCount image.command StartupCommand.inspect)]

end BootNamespace.Image
