import BootNamespace.Inspect.Errors
import BootNamespace.Namespace.Resolve

namespace BootNamespace

open Inspect

/-- A directory is shown by its name and a file by its name and size. -/
def Entry.inspect (entry : Entry) : Json :=
  match entry.kind with
  | .directory => .ofFields [("dir", .text entry.name)]
  | .file size => .ofFields [("file", .text entry.name), ("size", .ofNat size.toNat)]

def FileId.inspect (id : FileId) : Json := .array [.ofNat id.slot, word id.generation]

def DirId.inspect (d : DirId) : Json := .ofNat d.index

def DirNode.facts (node : DirNode) : List (String × Json) :=
  [("name", .text node.name), ("parent", optional DirId.inspect node.parent),
    ("dirs", .ofNat node.dirs.length), ("files", .ofNat node.files.length)]

namespace Inspect

def entries (es : List Entry) : Json := .array (es.map Entry.inspect)

end Inspect

namespace Namespace

variable (ns : Namespace)

def inspectFile (id : FileId) : Json :=
  fsResult (fun file ↦ .ofFields [("id", id.inspect), ("name", .text file.name),
    ("owner", file.owner.inspect), ("size", .ofNat file.size),
    ("access", .ofNat file.access.bits.toNat), ("refs", word file.refs),
    ("buffer", word file.bufferGeneration), ("data", buffer file.data),
    ("path", fsResult .text (ns.pathOf id))]) (ns.file id)

/-- The file behind an entry, unless a directory of the same name hides it. -/
def inspectEntry (d : DirId) (entry : Entry) : Option Json :=
  match entry.kind with
  | .directory => none
  | .file _ =>
    match ns.getFile (some d) entry.name with
    | some id => some (ns.inspectFile id)
    | none => some (.ofFields [("shadowed", .text entry.name)])

def inspectDir (index : Nat) (node : DirNode) : Json :=
  let d : DirId := ⟨index⟩
  let listing := ns.entries d
  let nodes := (listing.toOption.getD []).filterMap (ns.inspectEntry d)
  .ofFields (("dir", d.inspect) :: node.facts ++
    [("entries", fsResult Inspect.entries listing), ("nodes", .array nodes)])

/-- Everything that can be reached by listing, one directory after the other. -/
def inspect : Json :=
  .ofFields [("dirs", .array (ns.dirs.toList.mapIdx ns.inspectDir)), ("dir_count", .ofNat ns.dirCount),
    ("file_count", .ofNat ns.fileCount), ("page_size", .ofNat ns.pageSize)]

end Namespace

end BootNamespace
