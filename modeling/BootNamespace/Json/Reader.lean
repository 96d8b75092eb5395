import BootNamespace.Bytes
import BootNamespace.Json.Basic

namespace BootNamespace.Json

def byte (c : Char) : UInt8 := c.toUInt8

def isBlank (b : UInt8) : Bool := b == 0x20 || b == 0x0a || b == 0x0d || b == 0x09

def skipBlank (bs : Bytes) : Bytes := bs.dropWhile isBlank

def isDigit (b : UInt8) : Bool := byte '0' ≤ b && b ≤ byte '9'

def hexDigit? (b : UInt8) : Option Nat :=
  if isDigit b then some (b - byte '0').toNat
  else if byte 'a' ≤ b && b ≤ byte 'f' then some ((b - byte 'a').toNat + 10)
  else if byte 'A' ≤ b && b ≤ byte 'F' then some ((b - byte 'A').toNat + 10)
  else none

/-- Part of a string: a byte of its text, or a 16-bit unit given by its number. -/
inductive Piece where
  | raw (b : UInt8)
  | unit (n : Nat)

def escaped? (b : UInt8) : Option UInt8 :=
  if b = byte '"' ∨ b = byte '\\' ∨ b = byte '/' then some b
  else if b = byte 'b' then some 0x08
  else if b = byte 'f' then some 0x0c
  else if b = byte 'n' then some 0x0a
  else if b = byte 'r' then some 0x0d
  else if b = byte 't' then some 0x09
  else none

def unit? (a b c d : UInt8) : Option Nat := do
  return (((← hexDigit? a) * 16 + (← hexDigit? b)) * 16 + (← hexDigit? c)) * 16 + (← hexDigit? d)

/-- The pieces up to the closing quote, and what follows it. Control characters have to be escaped. -/
def pieces : Bytes → Option (List Piece × Bytes)
  | [] => none
  | [b] => if b = byte '"' then some ([], []) else none
  | b :: e :: rest =>
    if b = byte '"' then some ([], e :: rest)
    else if b < 0x20 then none
    else if b ≠ byte '\\' then (pieces (e :: rest)).map fun (ps, rest) ↦ (.raw b :: ps, rest)
    else if e = byte 'u' then
      match rest with
      | h :: i :: j :: k :: rest => do
        let n ← unit? h i j k
        let (ps, rest) ← pieces rest
        return (.unit n :: ps, rest)
      | _ => none
    else do
      let r ← escaped? e
      let (ps, rest) ← pieces rest
      return (.raw r :: ps, rest)

def isHigh (n : Nat) : Bool := 0xD800 ≤ n && n < 0xDC00

def isLow (n : Nat) : Bool := 0xDC00 ≤ n && n < 0xE000

def charBytes (n : Nat) : Bytes := Bytes.ofText (String.ofList [Char.ofNat n])

/-- The bytes of a text. Two units make one character outside the basic plane, and neither of them
may stand alone. -/
def textBytes? : List Piece → Option Bytes
  | [] => some []
  | .raw b :: ps => (textBytes? ps).map (b :: ·)
  | .unit h :: .unit l :: ps =>
    if isHigh h then
      if isLow l then
        (textBytes? ps).map (charBytes (0x10000 + (h - 0xD800) * 0x400 + (l - 0xDC00)) ++ ·)
      else none
    else if isLow h then none
    else (textBytes? (.unit l :: ps)).map (charBytes h ++ ·)
  | .unit n :: ps => if isHigh n || isLow n then none else (textBytes? ps).map (charBytes n ++ ·)

def textOfPieces? (ps : List Piece) : Option String := (textBytes? ps).bind Bytes.toText?

def digits (bs : Bytes) : Bytes × Bytes := (bs.takeWhile isDigit, bs.dropWhile isDigit)

/-- What follows the digits after a point or an exponent, if there are any digits. -/
def afterDigits? (bs : Bytes) : Option Bytes :=
  let (ds, rest) := digits bs
  if ds.isEmpty then none else some rest

def decimal (ds : Bytes) : Nat := ds.foldl (fun n d ↦ n * 10 + (d - byte '0').toNat) 0

def fraction? : Bytes → Option (Bool × Bytes)
  | b :: rest => if b = byte '.' then (afterDigits? rest).map (true, ·) else some (false, b :: rest)
  | [] => some (false, [])

def exponent? : Bytes → Option (Bool × Bytes)
  | b :: rest =>
    if b = byte 'e' ∨ b = byte 'E' then
      match rest with
      | s :: rest' =>
        (afterDigits? (if s = byte '+' ∨ s = byte '-' then rest' else rest)).map (true, ·)
      | [] => none
    else some (false, b :: rest)
  | [] => some (false, [])

/-- A number has no leading zeros. -/
def number? (bs : Bytes) : Option (Json × Bytes) := do
  let (negative, bs) := match bs with
    | b :: rest => if b = byte '-' then (true, rest) else (false, b :: rest)
    | [] => (false, [])
  let (ds, rest) := digits bs
  if ds.isEmpty ∨ (ds.length > 1 ∧ ds.head? = some (byte '0')) then none
  let (hasFraction, rest) ← fraction? rest
  let (hasExponent, rest) ← exponent? rest
  let n := decimal ds
  if hasFraction || hasExponent || (negative && n == 0) then return (.real, rest)
  return (.integer (if negative then -(n : Int) else n), rest)

/-- Takes a word off the front. -/
def word (w : String) (value : Json) (bs : Bytes) : Option (Json × Bytes) :=
  let expected := Bytes.ofText w
  if expected.isPrefixOf bs then some (value, bs.drop expected.length) else none

mutual

/-- One value, and what follows it. -/
def value? : Nat → Bytes → Option (Json × Bytes)
  | 0, _ => none
  | fuel + 1, bs =>
    match skipBlank bs with
    | [] => none
    | b :: rest =>
      if b = byte '"' then
        (pieces rest).map fun (ps, rest) ↦ (((textOfPieces? ps).map .text).getD .garbled, rest)
      else if b = byte '[' then
        match skipBlank rest with
        | [] => none
        | c :: rest' =>
          if c = byte ']' then some (.array [], rest')
          else (items? fuel rest).map fun (items, rest) ↦ (.array items, rest)
      else if b = byte '\x7b' then
        match skipBlank rest with
        | [] => none
        | c :: rest' =>
          if c = byte '\x7d' then some (.object [], rest')
          else (fields? fuel rest).map fun (fields, rest) ↦ (.object fields, rest)
      else if b = byte 't' then word "true" (.bool true) (b :: rest)
      else if b = byte 'f' then word "false" (.bool false) (b :: rest)
      else if b = byte 'n' then word "null" .null (b :: rest)
      else number? (b :: rest)

/-- The items of an array that has some, through its closing bracket. -/
def items? : Nat → Bytes → Option (List Json × Bytes)
  | 0, _ => none
  | fuel + 1, bs =>
    match value? fuel bs with
    | none => none
    | some (item, rest) =>
      match skipBlank rest with
      | [] => none
      | c :: rest =>
        if c = byte ']' then some ([item], rest)
        else if c = byte ',' then
          (items? fuel rest).map fun (items, rest) ↦ (item :: items, rest)
        else none

/-- The fields of an object that has some, through its closing brace. -/
def fields? : Nat → Bytes → Option (List (Option String × Json) × Bytes)
  | 0, _ => none
  | fuel + 1, bs =>
    match member? fuel bs with
    | none => none
    | some (field, rest) =>
      match skipBlank rest with
      | [] => none
      | c :: rest =>
        if c = byte '\x7d' then some ([field], rest)
        else if c = byte ',' then
          (fields? fuel rest).map fun (fields, rest) ↦ (field :: fields, rest)
        else none

/-- A key, a colon and a value. -/
def member? : Nat → Bytes → Option ((Option String × Json) × Bytes)
  | 0, _ => none
  | fuel + 1, bs =>
    match skipBlank bs with
    | [] => none
    | b :: rest =>
      if b ≠ byte '"' then none
      else
        match pieces rest with
        | none => none
        | some (ps, rest) =>
          match skipBlank rest with
          | [] => none
          | c :: rest =>
            if c ≠ byte ':' then none
            else (value? fuel rest).map fun (value, rest) ↦ ((textOfPieces? ps, value), rest)

end

/-- The value that the bytes spell. Between two bytes that a value takes there are at most two steps
into its parts. -/
def read? (bs : Bytes) : Option Json :=
  match value? (3 * bs.length + 3) bs with
  | some (value, rest) => if (skipBlank rest).isEmpty then some value else none
  | none => none

end BootNamespace.Json
