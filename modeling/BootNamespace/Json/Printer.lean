import BootNamespace.Json.Basic

namespace BootNamespace.Json

def escape (c : Char) : List Char :=
  if c = '"' then ['\\', '"']
  else if c = '\\' then ['\\', '\\']
  else if c = '\x08' then ['\\', 'b']
  else if c = '\x0c' then ['\\', 'f']
  else if c = '\n' then ['\\', 'n']
  else if c = '\r' then ['\\', 'r']
  else if c = '\t' then ['\\', 't']
  else if c.toNat < 0x20 then
    ['\\', 'u', '0', '0', Nat.digitChar (c.toNat / 16), Nat.digitChar (c.toNat % 16)]
  else [c]

def quote (s : String) : String := "\"" ++ String.ofList (s.toList.flatMap escape) ++ "\""

/-- Values one after the other with a comma between them. -/
def separated (values : List String) : String := String.intercalate "," values

mutual

/-- The shortest spelling of a value. What has no exact value is written as null. -/
def print : Json → String
  | null | real | garbled => "null"
  | bool value => if value then "true" else "false"
  | integer value => toString value
  | text value => quote value
  | array items => "[" ++ separated (printItems items) ++ "]"
  | object fields => "\x7b" ++ separated (printFields fields) ++ "\x7d"

def printItems : List Json → List String
  | [] => []
  | item :: rest => print item :: printItems rest

def printFields : List (Option String × Json) → List String
  | [] => []
  | (key, value) :: rest => (quote (key.getD "") ++ ":" ++ print value) :: printFields rest

end

end BootNamespace.Json
