import BootNamespace.Buffer
import BootNamespace.Json.Reader

namespace BootNamespace.Json

/-- What a value is read as, or what is wrong with it. -/
abbrev Decode := Except String

/-- A field of an object. A null is a missing field. -/
def field? (j : Json) (key : String) : Option Json :=
  match j with
  | object fields =>
    match fields.find? fun f ↦ f.1 == some key with
    | some (_, null) => none
    | some (_, value) => some value
    | none => none
  | _ => none

def field (j : Json) (key : String) : Decode Json :=
  match j.field? key with
  | some value => .ok value
  | none => .error s!"missing {key}"

def asInt : Json → Decode Int
  | integer n => .ok n
  | _ => .error "not an integer"

def asNat (j : Json) : Decode Nat := do return (← j.asInt).toNat

def asText : Json → Decode String
  | text s => .ok s
  | _ => .error "not a string"

def asList : Json → Decode (List Json)
  | array items => .ok items
  | _ => .error "not a list"

/-- A field read in one way, or a default for a missing one. -/
def fieldOr {α : Type} (read : Json → Decode α) (j : Json) (key : String) (default : α) : Decode α :=
  match j.field? key with
  | some value => read value
  | none => .ok default

def natOr (j : Json) (key : String) (default : Nat) : Decode Nat := fieldOr asNat j key default

def intOr (j : Json) (key : String) (default : Int) : Decode Int := fieldOr asInt j key default

def textOr (j : Json) (key : String) (default : String) : Decode String :=
  fieldOr asText j key default

def listOr (j : Json) (key : String) : Decode (List Json) := fieldOr asList j key []

def flag (j : Json) (key : String) : Bool :=
  match j.field? key with
  | some (bool b) => b
  | _ => false

def unhex : List Char → Decode Bytes
  | [] => .ok []
  | [_] => .error "half a byte"
  | h :: l :: rest =>
    match hexDigit? h.toUInt8, hexDigit? l.toUInt8 with
    | some h, some l => do return UInt8.ofNat (h * 16 + l) :: (← unhex rest)
    | _, _ => .error "not a hex digit"

/-- Bytes in hex, as the UTF-8 form of a text, or as a repetition. -/
def asBytes (j : Json) : Decode Buffer :=
  match j with
  | text s => do return (← unhex s.toList)
  | _ =>
    match j.field? "text", j.field? "rep" with
    | some (text s), _ => .ok (Bytes.ofText s)
    | _, some (array [text s, n]) => do
      return .replicate (← n.asNat) (← unhex s.toList)
    | _, _ => .error "not bytes"

def bytesOr (j : Json) (key : String) : Decode Buffer := fieldOr asBytes j key .empty

end BootNamespace.Json
