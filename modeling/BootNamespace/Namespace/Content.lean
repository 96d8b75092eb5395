import BootNamespace.Namespace.Basic

namespace BootNamespace.Namespace

/-- Takes a reference. Only modes that write need permission. -/
def openFile (ns : Namespace) (id : FileId) (mode : OpenMode) : Except FsError Unit × Namespace :=
  match ns.file id with
  | .error e => (.error e, ns)
  | .ok file =>
    if mode ≠ .readOnly ∧ !file.access.contains mode.required then (.error .accessDenied, ns)
    else if file.refs.toNat + 1 < UInt32.size then
      (.ok (), ns.putFile id { file with refs := file.refs + 1 })
    else (.error .resourceExhausted, ns)

/-- Gives a reference back and tells how many are left. -/
def closeFile (ns : Namespace) (id : FileId) : Except FsError UInt32 × Namespace :=
  match ns.file id with
  | .error e => (.error e, ns)
  | .ok file =>
    if file.refs = 0 then (.error (.protocol .noOpenReferences), ns)
    else (.ok (file.refs - 1), ns.putFile id { file with refs := file.refs - 1 })

/-- At most `max` bytes from `offset` on; none at or past the end. -/
def readAt (ns : Namespace) (id : FileId) (offset : UInt64) (max : Nat) : Except FsError Bytes :=
  match ns.file id with
  | .error e => .error e
  | .ok file => .ok (file.data.read offset.toNat max)

/-- Overwrites and never grows; tells how many bytes were stored. -/
def writeAt (ns : Namespace) (id : FileId) (offset : UInt64) (bytes : Buffer) :
    Except FsError Nat × Namespace :=
  match ns.file id with
  | .error e => (.error e, ns)
  | .ok file =>
    (.ok (min bytes.length (file.size - offset.toNat)),
      ns.putFile id { file with data := file.data.overwrite offset.toNat bytes })

/-- Lengths that a 64-bit word cannot count are refused. -/
def roundUp (page size : Nat) : Option Nat :=
  let rounded := (size + page - 1) / page * page
  if rounded < UInt64.size then some rounded else none

/-- Gives a mappable file a new buffer of whole pages and tells its length, if the allocator has
one. -/
def truncate (ns : Namespace) (id : FileId) (size : UInt64) : Except FsError Nat × Namespace :=
  match ns.file id with
  | .error e => (.error e, ns)
  | .ok file =>
    if !file.access.contains .map then (.error .accessDenied, ns)
    else if size = 0 then (.error (.invalidArgument .zeroSize), ns)
    else
      match roundUp ns.pageSize size.toNat with
      | none => (.error (.invalidArgument .sizeOverflow), ns)
      | some length =>
        if allocationLimit ≤ length then (.error .resourceExhausted, ns)
        else
          (.ok length, ns.putFile id { file with
            data := file.data.resize length
            bufferGeneration := file.bufferGeneration + 1 })

end BootNamespace.Namespace
