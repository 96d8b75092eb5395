namespace BootNamespace

inductive Json where
  | null
  | bool (value : Bool)
  /-- A number written with digits alone, and perhaps a minus in front. -/
  | integer (value : Int)
  /-- Any other number, and the negative zero. -/
  | real
  | text (value : String)
  /-- A string that spells no text. Readers may only pass over it. -/
  | garbled
  | array (items : List Json)
  /-- Fields in the order written. A key that spells no text is missing. -/
  | object (fields : List (Option String × Json))

namespace Json

def ofNat (n : Nat) : Json := .integer n

def ofFields (fields : List (String × Json)) : Json :=
  .object (fields.map fun (key, value) ↦ (some key, value))

def text? : Json → Option String
  | text value => some value
  | _ => none

/-- A number that fits in a 64-bit word. -/
def word? : Json → Option UInt64
  | integer n => if 0 ≤ n ∧ n < UInt64.size then some (.ofNat n.toNat) else none
  | _ => none

/-- The values of a record's fields by name, or by place in an array. Fields of other names are
passed over, and a field may not come twice. -/
def record? (names : List String) : Json → Option (List (Option Json))
  | array items =>
    if names.length < items.length then none
    else some (items.map some ++ List.replicate (names.length - items.length) none)
  | object fields =>
    if fields.any (·.1.isNone) then none
    else
      names.mapM fun name ↦
        match fields.filter (·.1 == some name) with
        | [] => some none
        | [(_, value)] => some (some value)
        | _ => none
  | _ => none

/-- The name of an alternative, with what it carries. One that carries nothing may stand alone. -/
def alternative? : Json → Option (String × Json)
  | text name => some (name, null)
  | object [(some name, value)] => some (name, value)
  | _ => none

end Json

end BootNamespace
