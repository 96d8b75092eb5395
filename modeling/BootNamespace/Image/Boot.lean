import BootNamespace.Image.Record

namespace BootNamespace.Image

/-- Where an image comes from. Asking may change the source. -/
class ImageSource (σ : Type) where
  map : σ → Except ImageError Bytes × σ

/-- An image at hand, or the reason why there is none. -/
inductive StoredImage where
  | blob (data : Bytes)
  | missing (fault : SourceFault)
  deriving DecidableEq, Repr

instance : ImageSource StoredImage where
  map
    | .blob data => (.ok data, .blob data)
    | .missing fault => (.error (.unavailable fault), .missing fault)

inductive BootImage where
  | unmapped
  | mapped (blob : Bytes)
  | parsed (blob : Bytes) (header : Header)
  deriving DecidableEq, Repr

namespace BootImage

def isMapped : BootImage → Bool
  | unmapped => false
  | mapped _ | parsed _ _ => true

def isParsed : BootImage → Bool
  | parsed _ _ => true
  | unmapped | mapped _ => false

/-- Takes an image from a source, which is asked only if none is held. -/
def load {σ : Type} [ImageSource σ] (image : BootImage) (source : σ) :
    Except ImageError Unit × BootImage × σ :=
  if image.isMapped then (.error .alreadyMapped, image, source)
  else
    match ImageSource.map source with
    | (.ok blob, source) => (.ok (), .mapped blob, source)
    | (.error e, source) => (.error e, image, source)

def parse (image : BootImage) : Except ImageError Header × BootImage :=
  let check (blob : Bytes) : Except ImageError Header × BootImage :=
    match validate blob with
    | .ok h => (.ok h, parsed blob h)
    | .error e => (.error e, mapped blob)
  match image with
  | unmapped => (.error .notMapped, unmapped)
  | mapped blob | parsed blob _ => check blob

def release (image : BootImage) : Except ImageError Unit × BootImage :=
  if image.isMapped then (.ok (), unmapped) else (.error .notMapped, image)

variable (image : BootImage)

def content : Except ImageError (Header × Bytes) :=
  match image with
  | parsed blob h => .ok (h, blob)
  | unmapped | mapped _ => .error .notParsed

def header : Except ImageError Header := do
  let (h, _) ← image.content
  return h

def string (offset : UInt32) : Except ImageError String := do
  let (h, blob) ← image.content
  h.readString blob offset

def version : Except ImageError String := do image.string (← image.header).version

def arch : Except ImageError String := do image.string (← image.header).arch

def machine : Except ImageError String := do image.string (← image.header).machine

def ram : Except ImageError Ram := do
  let (h, blob) ← image.content
  h.readRam blob

def irq : Except ImageError Irq := do
  let (h, blob) ← image.content
  h.readIrq blob

def deviceCount : Except ImageError Nat := do return (← image.header).devicesCount.toNat

def fileCount : Except ImageError Nat := do return (← image.header).filesCount.toNat

def commandCount : Except ImageError Nat := do return (← image.header).commandsCount.toNat

def device (index : Nat) : Except ImageError Device := do
  let (h, blob) ← image.content
  h.readDevice blob index

def file (index : Nat) : Except ImageError EmbeddedFile := do
  let (h, blob) ← image.content
  h.readFile blob index

def command (index : Nat) : Except ImageError StartupCommand := do
  let (h, blob) ← image.content
  h.readCommand blob index

/-- A line for each of the header's facts about the image. -/
def summary : Except ImageError (List String) := do
  let h ← image.header
  return [s!"Type: {Text.hex h.magic.toNat}", "Version: " ++ (← image.version),
    "Arch: " ++ (← image.arch), "Mach: " ++ (← image.machine), s!"Size: {Text.hex h.size.toNat}"]

end BootImage

end BootNamespace.Image
