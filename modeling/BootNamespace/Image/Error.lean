import BootNamespace.Text.Hex

namespace BootNamespace.Image

inductive Table where
  | device
  | file
  | command
  deriving DecidableEq, Repr

inductive Region where
  | field
  | ramDescriptor
  | irqDescriptor
  | stringTable
  | deviceTable
  | fileTable
  | commandTable
  | fileData
  | fileReference
  deriving DecidableEq, Repr

/-- Why a source has no image. -/
inductive SourceFault where
  | absent
  /-- What the host says about the place where the image should be. -/
  | host (text : String)
  deriving DecidableEq, Repr

inductive ImageError where
  | alreadyMapped
  | notMapped
  | notParsed
  | badMagic (magic : UInt32)
  | truncated (needed available : Nat)
  | outOfBounds (region : Region)
  | badString (offset : UInt32)
  | indexOutOfRange (table : Table) (index : Nat)
  | unavailable (fault : SourceFault)
  deriving DecidableEq, Repr

def Table.name : Table → String
  | device => "device"
  | file => "file"
  | command => "command"

def Region.name : Region → String
  | field => "field"
  | ramDescriptor => "ram descriptor"
  | irqDescriptor => "irq descriptor"
  | stringTable => "string table"
  | deviceTable => "device table"
  | fileTable => "file table"
  | commandTable => "command table"
  | fileData => "file data"
  | fileReference => "command file reference"

def SourceFault.text : SourceFault → String
  | absent => "no image present"
  | host text => text

def ImageError.message : ImageError → String
  | alreadyMapped => "boot image already mapped"
  | notMapped => "boot image not mapped"
  | notParsed => "boot image not parsed"
  | badMagic magic => s!"bad image magic {Text.hex magic.toNat}"
  | truncated needed available => s!"image truncated: need {needed} bytes, have {available}"
  | outOfBounds region => s!"{region.name} lies outside the image"
  | badString offset => s!"bad string at offset {Text.hex offset.toNat}"
  | indexOutOfRange table index => s!"{table.name} index {index} out of range"
  | unavailable fault => "failed to map boot image: " ++ fault.text

end BootNamespace.Image
