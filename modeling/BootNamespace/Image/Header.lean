import BootNamespace.Bytes
import BootNamespace.Image.Error

namespace BootNamespace.Image

/-- Offsets count from the first byte of the image, names' offsets from the string table. -/
structure Header where
  magic : UInt32
  version : UInt32
  arch : UInt32
  machine : UInt32
  /-- The length of the whole image. -/
  size : UInt32
  commandsOffset : UInt32
  commandsCount : UInt32
  ramOffset : UInt32
  irqOffset : UInt32
  devicesOffset : UInt32
  devicesCount : UInt32
  namesOffset : UInt32
  namesSize : UInt32
  filesOffset : UInt32
  filesCount : UInt32
  deriving DecidableEq, Repr

namespace Header

def magicWord : UInt32 := 0xCACFCACF

def length : Nat := 60

def words (h : Header) : List UInt32 :=
  [h.magic, h.version, h.arch, h.machine, h.size, h.commandsOffset, h.commandsCount, h.ramOffset,
    h.irqOffset, h.devicesOffset, h.devicesCount, h.namesOffset, h.namesSize, h.filesOffset,
    h.filesCount]

def encode (h : Header) : Bytes := h.words.flatMap Bytes.ofUInt32

def decode (blob : Bytes) : Except ImageError Header :=
  if blob.length < length then .error (.truncated length blob.length)
  else
    let word (i : Nat) := Bytes.toUInt32 (blob.drop (4 * i))
    .ok ⟨word 0, word 1, word 2, word 3, word 4, word 5, word 6, word 7, word 8, word 9, word 10,
      word 11, word 12, word 13, word 14⟩

end Header

end BootNamespace.Image
