import BootNamespace.Listing.Entry
import BootNamespace.Namespace.Basic
import BootNamespace.Path

namespace BootNamespace.Namespace

variable (ns : Namespace)

def childDir (d : DirId) (name : String) : Option DirId :=
  match ns.dir? d with
  | some node => node.dirs.find? fun child ↦ (ns.dir? child).any (·.name == name)
  | none => none

def childFile (d : DirId) (name : String) : Option FileId :=
  match ns.dir? d with
  | some node => node.files.find? fun child ↦ (ns.file? child).any (·.name == name)
  | none => none

/-- Follows existing directories as far as they go; the rest starts at the first name that is none. -/
def walk (d : DirId) (path : List Char) : DirId × Option (List Char) :=
  match _h : Path.dropSlashes path with
  | [] => (d, none)
  | c :: cs =>
    match ns.childDir d (String.ofList ((c :: cs).takeWhile (· ≠ '/'))) with
    | some child => walk child (cs.dropWhile (· ≠ '/'))
    | none => (d, some (c :: cs))
termination_by path.length
decreasing_by
  have hlength : (Path.dropSlashes path).length ≤ path.length := (List.dropWhile_suffix _).length_le
  have hrest : (cs.dropWhile (· ≠ '/')).length ≤ cs.length := (List.dropWhile_suffix _).length_le
  rw [_h, List.length_cons] at hlength
  omega

/-- The deepest directory along a path from `cwd`, or from the root, and what is left of the path. -/
def resolve (cwd : Option DirId) (path : String) : DirId × Option String :=
  let (d, rest) := ns.walk (cwd.getD .root) path.toList
  (d, rest.map String.ofList)

/-- The directory that a whole path names. -/
def lookupDir (cwd : Option DirId) (path : String) : Except FsError DirId :=
  match ns.resolve cwd path with
  | (d, none) => .ok d
  | (_, some rest) => .error (.invalidPath (.notDirectory rest))

/-- The file that a path names. A directory of the same name hides it. -/
def getFile (cwd : Option DirId) (path : String) : Option FileId :=
  if path = "" ∨ Path.endsWithSlash path then none
  else
    match ns.resolve cwd path with
    | (_, none) => none
    | (d, some name) => if name.toList.contains '/' then none else ns.childFile d name

/-- The names from the root down to a directory. The way up ends at a parent that is not older than its
child. -/
def dirPath (d : DirId) : List String :=
  match ns.dir? d with
  | some ⟨name, some parent, _, _⟩ =>
    if parent.index < d.index then dirPath parent ++ [name] else [name]
  | _ => []
termination_by d.index

def pathOf (id : FileId) : Except FsError String :=
  match ns.file id with
  | .ok file => .ok (Path.ofSegments (ns.dirPath file.owner ++ [file.name]))
  | .error e => .error e

/-- Directories and then files, newest first. -/
def entries (d : DirId) : Except FsError (List Entry) :=
  match ns.dir? d with
  | none => .error .notFound
  | some node =>
    let dirs := (node.dirs.filterMap ns.dir?).map fun child ↦ ⟨child.name, .directory⟩
    match node.files.mapM ns.file with
    | .error e => .error e
    | .ok files => .ok (dirs ++ files.map fun file ↦ ⟨file.name, .file (.ofNat file.size)⟩)

end BootNamespace.Namespace
