import BootNamespace.Image.Record

namespace BootNamespace.Image

structure DeviceSpec where
  name : String
  addr : UInt32
  size : UInt32
  deriving DecidableEq, Repr

structure FileSpec where
  name : String
  kind : FileKind
  data : Bytes
  /-- A length to record in place of the true one. -/
  recordedSize : Option UInt32
  deriving DecidableEq, Repr

structure CommandSpec where
  file : String
  priority : UInt16
  privilege : UInt16
  arguments : String
  deriving DecidableEq, Repr

/-- What an image is to hold. -/
structure ImageSpec where
  magic : UInt32
  version : String
  arch : String
  machine : String
  ram : Ram
  irq : Irq
  devices : List DeviceSpec
  files : List FileSpec
  commands : List CommandSpec
  deriving DecidableEq, Repr

namespace ImageSpec

def new (version arch machine : String) : ImageSpec :=
  ⟨Header.magicWord, version, arch, machine, ⟨0, 0⟩, ⟨0, 0⟩, [], [], []⟩

/-- The device record's access word. -/
def deviceAccess : UInt32 := 3

/-- The kind that every command record carries. -/
def commandKind : UInt32 := 1

/-- Stands for the place of a file that is not in the table. -/
def noFile : UInt32 := 0xFFFFFFFF / 32

variable (spec : ImageSpec)

def recordSize (index : Nat) (size : UInt32) : ImageSpec :=
  { spec with files := spec.files.modify index fun file ↦ { file with recordedSize := some size } }

/-- The texts of the string table, in the order of their offsets. -/
def texts : List String :=
  [spec.version, spec.arch, spec.machine] ++ spec.devices.map (·.name) ++
    spec.files.map (·.name) ++ spec.commands.map (·.arguments)

def packText (text : String) : Bytes := Bytes.ofText text ++ [0]

/-- The bytes that the first `n` texts take. -/
def textOffset (n : Nat) : UInt32 :=
  .ofNat ((spec.texts.take n).foldl (fun total text ↦ total + (text.utf8ByteSize + 1)) 0)

/-- The bytes that the data of the first `n` files take. -/
def dataLength (n : Nat) : UInt32 :=
  .ofNat ((spec.files.take n).foldl (fun total file ↦ total + file.data.length) 0)

/-- Header, commands, ram, irq, devices, files, strings and file data follow each other closely. -/
def header : Header :=
  let commandsOffset : UInt32 := 60
  let ramOffset := commandsOffset + 16 * .ofNat spec.commands.length
  let irqOffset := ramOffset + 8
  let devicesOffset := irqOffset + 8
  let filesOffset := devicesOffset + 16 * .ofNat spec.devices.length
  let namesOffset := filesOffset + 16 * .ofNat spec.files.length
  let namesSize := spec.textOffset spec.texts.length
  { magic := spec.magic
    version := spec.textOffset 0
    arch := spec.textOffset 1
    machine := spec.textOffset 2
    size := namesOffset + namesSize + spec.dataLength spec.files.length
    commandsOffset := commandsOffset
    commandsCount := .ofNat spec.commands.length
    ramOffset := ramOffset
    irqOffset := irqOffset
    devicesOffset := devicesOffset
    devicesCount := .ofNat spec.devices.length
    namesOffset := namesOffset
    namesSize := namesSize
    filesOffset := filesOffset
    filesCount := .ofNat spec.files.length }

/-- The place of the first file of a name. -/
def fileIndex (name : String) : UInt32 :=
  match spec.files.findIdx? (·.name == name) with
  | some index => .ofNat index
  | none => noFile

def packWords (words : List UInt32) : Bytes := words.flatMap Bytes.ofUInt32

def packCommand (index : Nat) (command : CommandSpec) : Bytes :=
  packWords [commandKind] ++ Bytes.ofUInt16 command.priority ++ Bytes.ofUInt16 command.privilege ++
    packWords [spec.header.filesOffset + spec.fileIndex command.file * 16,
      spec.textOffset (3 + spec.devices.length + spec.files.length + index)]

def packDevice (index : Nat) (device : DeviceSpec) : Bytes :=
  packWords [device.addr, device.size, deviceAccess, spec.textOffset (3 + index)]

def packFile (index : Nat) (file : FileSpec) : Bytes :=
  packWords [file.kind.code, file.recordedSize.getD (.ofNat file.data.length),
    spec.header.namesOffset + spec.header.namesSize + spec.dataLength index,
    spec.textOffset (3 + spec.devices.length + index)]

def build : Bytes :=
  spec.header.encode ++ (spec.commands.mapIdx spec.packCommand).flatten ++
    packWords [spec.ram.addr, spec.ram.size, spec.irq.privilege, spec.irq.shared] ++
    (spec.devices.mapIdx spec.packDevice).flatten ++ (spec.files.mapIdx spec.packFile).flatten ++
    spec.texts.flatMap packText ++ spec.files.flatMap (·.data)

end ImageSpec

end BootNamespace.Image
