import BootNamespace.Access
import BootNamespace.Json.Basic
import BootNamespace.Listing.Entry

namespace BootNamespace

open Json

namespace OpenMode

def name : OpenMode → String
  | readOnly => "ReadOnly"
  | writeOnly => "WriteOnly"
  | readWrite => "ReadWrite"

def all : List OpenMode := [readOnly, writeOnly, readWrite]

def ofName? (name : String) : Option OpenMode := all.find? (·.name == name)

def toJson (mode : OpenMode) : Json := .text mode.name

def ofJson? (json : Json) : Option OpenMode :=
  match json.alternative? with
  | some (name, .null) => ofName? name
  | _ => none

end OpenMode

namespace EntryKind

def toJson : EntryKind → Json
  | directory => .text "Directory"
  | file size => ofFields [("File", ofFields [("size", ofNat size.toNat)])]

def ofJson? (json : Json) : Option EntryKind :=
  match json.alternative? with
  | some ("Directory", .null) => some directory
  | some ("File", value) =>
    match value.record? ["size"] with
    | some [some size] => size.word?.map file
    | _ => none
  | _ => none

end EntryKind

namespace Entry

def toJson (entry : Entry) : Json :=
  ofFields [("name", .text entry.name), ("kind", entry.kind.toJson)]

def ofJson? (json : Json) : Option Entry :=
  match json.record? ["name", "kind"] with
  | some [some name, some kind] => do return ⟨← name.text?, ← EntryKind.ofJson? kind⟩
  | _ => none

end Entry

namespace FsError

def kind : FsError → String
  | invalidArgument _ => "InvalidArgument"
  | invalidPath _ => "InvalidPath"
  | notFound => "NotFound"
  | busy => "Busy"
  | accessDenied => "AccessDenied"
  | resourceExhausted => "ResourceExhausted"
  | protocol _ => "ProtocolError"
  | invalidState => "InvalidState"

/-- The words that belong to the error alone, if it has any. -/
def detail? : FsError → Option String
  | invalidArgument fault => some fault.text
  | invalidPath fault => some fault.text
  | protocol fault => some fault.text
  | notFound | busy | accessDenied | resourceExhausted | invalidState => none

/-- The error of a kind that has no words of its own. -/
def ofKind? (kind : String) : Option FsError :=
  [notFound, busy, accessDenied, resourceExhausted, invalidState].find? (·.kind == kind)

/-- The error of a kind that comes with words. -/
def ofDetail? (kind detail : String) : Option FsError :=
  [invalidArgument (.described detail), invalidPath (.described detail),
    protocol (.described detail)].find? (·.kind == kind)

def toJson (e : FsError) : Json :=
  match e.detail? with
  | some detail => ofFields [(e.kind, .text detail)]
  | none => .text e.kind

def ofJson? (json : Json) : Option FsError :=
  match json.alternative? with
  | some (kind, .null) => ofKind? kind
  | some (kind, .text detail) => ofDetail? kind detail
  | _ => none

end FsError

end BootNamespace
