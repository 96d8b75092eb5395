import BootNamespace.Namespace.Resolve

namespace BootNamespace.Namespace

/-- A new, empty directory. -/
def addDir (ns : Namespace) (parent : DirId) (name : String) : DirId × Namespace :=
  let d : DirId := ⟨ns.dirs.size⟩
  let dirs := ns.dirs.push ⟨name, some parent, [], []⟩
  (d, { ns with dirs := dirs.modify parent.index fun node ↦ { node with dirs := d :: node.dirs } })

/-- A chain of new directories, each in the one before. -/
def addDirs (ns : Namespace) (parent : DirId) : List String → DirId × Namespace
  | [] => (parent, ns)
  | name :: names =>
    let (d, ns) := ns.addDir parent name
    addDirs ns d names

/-- Puts a file into the slot given back last, or into a new one. -/
def allocate (ns : Namespace) (file : FileNode) : Except FsError FileId × Namespace :=
  match ns.free with
  | slot :: free =>
    match ns.slots[slot]? with
    | some ⟨generation, _⟩ =>
      (.ok ⟨slot, generation⟩,
        { ns with slots := ns.slots.set! slot ⟨generation, some file⟩, free := free })
    | none => (.error .resourceExhausted, ns)
  | [] =>
    if ns.slots.size < arenaLimit then
      (.ok ⟨ns.slots.size, 0⟩, { ns with slots := ns.slots.push ⟨0, some file⟩ })
    else (.error .resourceExhausted, ns)

def link (ns : Namespace) (d : DirId) (id : FileId) : Namespace :=
  { ns with dirs := ns.dirs.modify d.index fun node ↦ { node with files := id :: node.files } }

/-- Where a new file goes: a directory, the directories missing below it, and a name. -/
structure Site where
  dir : DirId
  missing : List String
  name : String
  deriving DecidableEq, Repr

/-- A file goes below a directory that exists. Its path may also start from the number that the first
of the missing directories is about to get; that directory then is its own parent. -/
def admits (ns : Namespace) (d : DirId) (missing : List String) : Bool :=
  decide (d.index < ns.dirCount) || (d.index == ns.dirCount && !missing.isEmpty)

/-- The place for a new file, if its path is free. Only the names that no directory on the way
matches are checked. -/
def site (ns : Namespace) (cwd : Option DirId) (path : String) : Except FsError Site :=
  match Path.checkCreatable path with
  | .error e => .error e
  | .ok () =>
    match ns.resolve cwd path with
    | (_, none) => .error (.invalidPath .namesDirectory)
    | (d, some rest) =>
      let names := Path.pieces rest
      let missing := names.dropLast
      let name := names.getLastD ""
      match names.find? (!Path.validName ·) with
      | some bad => .error (.invalidPath (.badName bad))
      | none =>
        if missing.isEmpty && (ns.childFile d name).isSome then .error (.invalidPath .fileExists)
        else if arenaLimit ≤ ns.dirs.size + missing.length then .error .resourceExhausted
        else if !ns.admits d missing then .error .notFound
        else .ok ⟨d, missing, name⟩

/-- Creates a file and the directories missing on the way to it. The data is in a buffer that the
caller holds, and is not measured: to refuse a list as long as `allocationLimit` only keeps out what
no buffer could hold. -/
def createFile (ns : Namespace) (cwd : Option DirId) (path : String) (data : Bytes)
    (access : Access) : Except FsError FileId × Namespace :=
  match ns.site cwd path with
  | .error e => (.error e, ns)
  | .ok site =>
    if allocationLimit ≤ data.length then (.error .resourceExhausted, ns)
    else
      let (d, ns) := ns.addDirs site.dir site.missing
      match ns.allocate ⟨site.name, d, data.toArray, access, 0, 0⟩ with
      | (.error e, ns) => (.error e, ns)
      | (.ok id, ns) => (.ok id, ns.link d id)

/-- Removes a file that nobody has open. Its handle is dead from then on. -/
def deleteFile (ns : Namespace) (id : FileId) : Except FsError Unit × Namespace :=
  match ns.file id with
  | .error e => (.error e, ns)
  | .ok file =>
    if 0 < file.refs then (.error .busy, ns)
    else
      (.ok (), { ns with
        dirs := ns.dirs.modify file.owner.index fun node ↦
          { node with files := node.files.filter (· ≠ id) }
        slots := ns.slots.modify id.slot fun slot ↦ ⟨slot.generation + 1, none⟩
        free := id.slot :: ns.free })

end BootNamespace.Namespace
