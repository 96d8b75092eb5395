import BootNamespace.Buffer
import BootNamespace.Image.Boot
import BootNamespace.Image.Spec
import BootNamespace.Json.Decode

namespace BootNamespace.Image

open Json

/-- Two words in a list; zeros if the field is missing. -/
def pairOr (j : Json) (key : String) : Decode (UInt32 × UInt32) :=
  match j.field? key with
  | none => .ok (0, 0)
  | some (.array [a, b]) => do return (.ofNat (← a.asNat), .ofNat (← b.asNat))
  | some _ => .error "not a pair"

def DeviceSpec.ofJson : Json → Decode DeviceSpec
  | .array [name, addr, size] => do
    return ⟨← name.asText, .ofNat (← addr.asNat), .ofNat (← size.asNat)⟩
  | _ => .error "not a device"

def FileSpec.ofJson : Json → Decode FileSpec
  | .array [name, kind, data] => do
    return ⟨← name.asText, .ofCode (.ofNat (← kind.asNat)), ← data.asBytes, none⟩
  | _ => .error "not a file"

def CommandSpec.ofJson : Json → Decode CommandSpec
  | .array [file, priority, privilege, arguments] => do
    return ⟨← file.asText, .ofNat (← priority.asNat), .ofNat (← privilege.asNat),
      ← arguments.asText⟩
  | _ => .error "not a command"

/-- Records a wrong size for one file. -/
def ImageSpec.corrupt (spec : ImageSpec) : Json → Decode ImageSpec
  | .array [index, size] => do return spec.recordSize (← index.asNat) (.ofNat (← size.asNat))
  | _ => .error "not a file and a size"

def ImageSpec.ofJson (j : Json) : Decode ImageSpec := do
  let ram ← pairOr j "ram"
  let irq ← pairOr j "irq"
  let spec : ImageSpec := {
    magic := .ofNat (← j.natOr "magic" Header.magicWord.toNat)
    version := ← j.textOr "version" "1.0"
    arch := ← j.textOr "arch" "arm"
    machine := ← j.textOr "machine" "sunxi"
    ram := ⟨ram.1, ram.2⟩
    irq := ⟨irq.1, irq.2⟩
    devices := ← (← j.listOr "devices").mapM DeviceSpec.ofJson
    files := ← (← j.listOr "files").mapM FileSpec.ofJson
    commands := ← (← j.listOr "commands").mapM CommandSpec.ofJson }
  (← j.listOr "corrupt_size").foldlM ImageSpec.corrupt spec

def patch (blob : Bytes) : Json → Decode Bytes
  | .array [offset, data] => do
    return Buffer.overwrite blob (← offset.asNat) (← data.asBytes)
  | _ => .error "not an offset and bytes"

/-- An image given whole or by what it is to hold, then patched, cut and lengthened. -/
def blobOfJson (j : Json) : Decode Bytes := do
  let blob ← match j.field? "hex" with
    | some h => h.asBytes
    | none => do pure (← ImageSpec.ofJson j).build
  let blob ← (← j.listOr "patch").foldlM patch blob
  return blob.take (← j.natOr "truncate" blob.length) ++ (← j.bytesOr "append")

def StoredImage.ofJson (j : Json) : Decode StoredImage := do
  if j.flag "unavailable" then return .missing .absent
  else if j.flag "missing_file" then return .missing (.host "")
  else return .blob (← blobOfJson j)

end BootNamespace.Image
