import BootNamespace.Image.Header

namespace BootNamespace.Image

structure Ram where
  addr : UInt32
  size : UInt32
  deriving DecidableEq, Repr

structure Irq where
  privilege : UInt32
  shared : UInt32
  deriving DecidableEq, Repr

structure Device where
  name : String
  addr : UInt32
  size : UInt32
  access : UInt32
  deriving DecidableEq, Repr

inductive FileKind where
  | exec
  | lib
  | obj
  | unknown (code : UInt32)
  deriving DecidableEq, Repr

structure EmbeddedFile where
  name : String
  kind : FileKind
  data : Bytes
  deriving DecidableEq, Repr

structure StartupCommand where
  kind : UInt32
  priority : UInt16
  privilege : UInt16
  /-- The place of the program in the file table. -/
  file : Nat
  arguments : String
  deriving DecidableEq, Repr

namespace FileKind

def ofCode (code : UInt32) : FileKind :=
  if code = 1 then exec else if code = 2 then lib else if code = 3 then obj else unknown code

def code : FileKind → UInt32
  | exec => 1
  | lib => 2
  | obj => 3
  | unknown code => code

def name : FileKind → String
  | exec => "exec"
  | lib => "lib"
  | obj => "obj"
  | unknown _ => "unknown"

end FileKind

def commandLength : Nat := 16
def ramLength : Nat := 8
def irqLength : Nat := 8
def deviceLength : Nat := 16
def fileLength : Nat := 16

def readWord (blob : Bytes) (pos : Nat) : Except ImageError UInt32 :=
  match Bytes.split? 4 (blob.drop pos) with
  | some (word, _) => .ok (Bytes.toUInt32 word)
  | none => .error (.outOfBounds .field)

def readHalf (blob : Bytes) (pos : Nat) : Except ImageError UInt16 :=
  match Bytes.split? 2 (blob.drop pos) with
  | some (half, _) => .ok (Bytes.toUInt16 half)
  | none => .error (.outOfBounds .field)

/-- The start of `count` records of `length` bytes, if they end by `limit`. -/
def checkRegion (offset count : UInt32) (length limit : Nat) (region : Region) :
    Except ImageError Nat :=
  if limit < offset.toNat + count.toNat * length then .error (.outOfBounds region)
  else .ok offset.toNat

/-- The start of one record of a table. -/
def recordStart (offset count : UInt32) (length index : Nat) (table : Table) :
    Except ImageError Nat :=
  if index < count.toNat then .ok (offset.toNat + index * length)
  else .error (.indexOutOfRange table index)

namespace Header

variable (h : Header) (blob : Bytes)

/-- The text from `offset` in the string table to the next NUL in it. -/
def readString (offset : UInt32) : Except ImageError String :=
  if h.namesSize ≤ offset then .error (.badString offset)
  else
    match Bytes.split? h.namesSize.toNat (blob.drop h.namesOffset.toNat) with
    | none => .error (.badString offset)
    | some (table, _) =>
      let rest := table.drop offset.toNat
      if rest.contains 0 then
        match Bytes.toText? (rest.takeWhile (· ≠ 0)) with
        | some text => .ok text
        | none => .error (.badString offset)
      else .error (.badString offset)

def readRam : Except ImageError Ram := do
  let addr ← readWord blob h.ramOffset.toNat
  let size ← readWord blob (h.ramOffset.toNat + 4)
  return ⟨addr, size⟩

def readIrq : Except ImageError Irq := do
  let privilege ← readWord blob h.irqOffset.toNat
  let shared ← readWord blob (h.irqOffset.toNat + 4)
  return ⟨privilege, shared⟩

def readDevice (index : Nat) : Except ImageError Device := do
  let start ← recordStart h.devicesOffset h.devicesCount deviceLength index .device
  let addr ← readWord blob start
  let size ← readWord blob (start + 4)
  let access ← readWord blob (start + 8)
  let name ← h.readString blob (← readWord blob (start + 12))
  return ⟨name, addr, size, access⟩

def readFile (index : Nat) : Except ImageError EmbeddedFile := do
  let start ← recordStart h.filesOffset h.filesCount fileLength index .file
  let kind ← readWord blob start
  let size ← readWord blob (start + 4)
  let offset ← readWord blob (start + 8)
  let name ← h.readString blob (← readWord blob (start + 12))
  let data ← checkRegion offset size 1 h.size.toNat .fileData
  return ⟨name, .ofCode kind, (blob.drop data).take size.toNat⟩

/-- The place in the file table of the record at `offset`. -/
def fileAt (offset : UInt32) : Except ImageError Nat :=
  let rel := offset.toNat - h.filesOffset.toNat
  if offset < h.filesOffset ∨ rel % fileLength ≠ 0 ∨ h.filesCount.toNat ≤ rel / fileLength then
    .error (.outOfBounds .fileReference)
  else .ok (rel / fileLength)

def readCommand (index : Nat) : Except ImageError StartupCommand := do
  let start ← recordStart h.commandsOffset h.commandsCount commandLength index .command
  let file ← h.fileAt (← readWord blob (start + 8))
  let kind ← readWord blob start
  let priority ← readHalf blob (start + 4)
  let privilege ← readHalf blob (start + 6)
  let arguments ← h.readString blob (← readWord blob (start + 12))
  return ⟨kind, priority, privilege, file, arguments⟩

def checkRegions (limit : Nat) : Except ImageError Unit := do
  let _ ← checkRegion h.ramOffset 1 ramLength limit .ramDescriptor
  let _ ← checkRegion h.irqOffset 1 irqLength limit .irqDescriptor
  let _ ← checkRegion h.namesOffset h.namesSize 1 limit .stringTable
  let _ ← checkRegion h.devicesOffset h.devicesCount deviceLength limit .deviceTable
  let _ ← checkRegion h.filesOffset h.filesCount fileLength limit .fileTable
  let _ ← checkRegion h.commandsOffset h.commandsCount commandLength limit .commandTable

/-- The name of a device; no other field of its record can be wrong. -/
def checkDevice (index : Nat) : Except ImageError Unit := do
  let start ← recordStart h.devicesOffset h.devicesCount deviceLength index .device
  let _ ← h.readString blob (← readWord blob (start + 12))

def checkRecords : Except ImageError Unit := do
  for offset in [h.version, h.arch, h.machine] do
    let _ ← h.readString blob offset
  for index in List.range h.devicesCount.toNat do
    h.checkDevice blob index
  for index in List.range h.filesCount.toNat do
    let _ ← h.readFile blob index
  for index in List.range h.commandsCount.toNat do
    let _ ← h.readCommand blob index

end Header

/-- The header of an image whose every region and record has been found sound. -/
def validate (blob : Bytes) : Except ImageError Header := do
  let h ← Header.decode blob
  if h.magic ≠ Header.magicWord then throw (.badMagic h.magic)
  if h.size.toNat < Header.length ∨ blob.length < h.size.toNat then
    throw (.truncated (max h.size.toNat Header.length) blob.length)
  h.checkRegions h.size.toNat
  h.checkRecords blob
  return h

end BootNamespace.Image
