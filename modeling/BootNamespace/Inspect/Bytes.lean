import BootNamespace.Buffer
import BootNamespace.Json.Basic

namespace BootNamespace

def Bytes.hex (bs : Bytes) : String :=
  String.ofList (bs.flatMap fun b ↦ [Nat.digitChar (b.toNat / 16), Nat.digitChar (b.toNat % 16)])

/-- The 32-bit FNV-1a digest. -/
def Buffer.digest (b : Buffer) : UInt32 :=
  b.bytes.foldl (fun h byte ↦ (h ^^^ byte.toUInt32) * 0x01000193) 0x811c9dc5

namespace Inspect

def word (w : UInt32) : Json := .ofNat w.toNat

/-- A short content in full, and a long one by its ends and its digest. -/
def buffer (b : Buffer) : Json :=
  if b.length ≤ 256 then .text (Bytes.hex b.toList)
  else
    .ofFields [("len", .ofNat b.length), ("head", .text (Bytes.hex (b.read 0 16))),
      ("tail", .text (Bytes.hex (b.read (b.length - 16) 16))), ("fnv", word b.digest)]

def bytes (bs : Bytes) : Json := buffer bs

def optional {α : Type} (f : α → Json) : Option α → Json
  | some a => f a
  | none => .null

def done {α : Type} (_ : α) : Json := .text "ok"

end Inspect

end BootNamespace
