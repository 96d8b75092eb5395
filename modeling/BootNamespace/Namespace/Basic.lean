import BootNamespace.Access
import BootNamespace.Buffer
import BootNamespace.FsError

namespace BootNamespace

/-- A directory by its place in the order of creation. Directories are never removed. -/
structure DirId where
  index : Nat
  deriving DecidableEq, Repr

/-- A file by its slot and by how often the slot had been given back when the file was made. -/
structure FileId where
  slot : Nat
  generation : UInt32
  deriving DecidableEq, Repr

/-- Children are kept newest first. -/
structure DirNode where
  name : String
  parent : Option DirId
  dirs : List DirId
  files : List FileId
  deriving DecidableEq, Repr

structure FileNode where
  name : String
  owner : DirId
  data : Buffer
  access : Access
  /-- How many connections have the file open. -/
  refs : UInt32
  /-- Counts the replacements of the buffer. -/
  bufferGeneration : UInt32
  deriving DecidableEq, Repr

structure FileSlot where
  generation : UInt32
  node : Option FileNode
  deriving DecidableEq, Repr

structure Namespace where
  dirs : Array DirNode
  slots : Array FileSlot
  /-- Slots without a file; the last one given back is used first. -/
  free : List Nat
  pageSize : Nat
  deriving DecidableEq, Repr

def DirId.root : DirId := ⟨0⟩

def FileNode.size (file : FileNode) : Nat := file.data.length

namespace Namespace

def defaultPageSize : Nat := 4096

/-- How many directories, and how many file slots, a namespace can number. -/
def arenaLimit : Nat := UInt32.size

/-- The allocator, idealised: it gives out every buffer shorter than this, and none that is as long.
A real allocator may refuse a shorter one too, for want of memory. -/
def allocationLimit : Nat := UInt64.size / 4

/-- Only the root. A page size of zero stands for the default. -/
def empty (pageSize : Nat) : Namespace where
  dirs := #[⟨"", none, [], []⟩]
  slots := #[]
  free := []
  pageSize := if pageSize = 0 then defaultPageSize else pageSize

variable (ns : Namespace)

def dirCount : Nat := ns.dirs.size

def fileCount : Nat := ns.slots.toList.countP (·.node.isSome)

def dir? (d : DirId) : Option DirNode := ns.dirs[d.index]?

/-- The file behind a handle, unless it has been deleted. -/
def file? (id : FileId) : Option FileNode :=
  match ns.slots[id.slot]? with
  | some slot => if slot.generation = id.generation then slot.node else none
  | none => none

def file (id : FileId) : Except FsError FileNode :=
  match ns.file? id with
  | some file => .ok file
  | none => .error .notFound

/-- Replaces what is kept about a file. -/
def putFile (id : FileId) (file : FileNode) : Namespace :=
  { ns with slots := ns.slots.modify id.slot fun slot ↦ { slot with node := some file } }

end Namespace

end BootNamespace
