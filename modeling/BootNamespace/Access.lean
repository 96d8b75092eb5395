import BootNamespace.FsError

namespace BootNamespace

/-- What may be done with a file. Bits without a meaning are kept. -/
structure Access where
  bits : UInt16
  deriving DecidableEq, Repr

namespace Access

def read : Access := ⟨1⟩
def write : Access := ⟨2⟩
def exec : Access := ⟨4⟩
/-- The buffer may be resized and shared. -/
def map : Access := ⟨8⟩

def union (a b : Access) : Access := ⟨a.bits ||| b.bits⟩

instance : OrOp Access := ⟨union⟩

/-- Every bit of `b` is set in `a`. -/
def contains (a b : Access) : Bool := a.bits &&& b.bits == b.bits

def readOnly : Access := read
def created : Access := read ||| write ||| map
def bootFile : Access := read ||| write ||| exec ||| map

end Access

namespace OpenFlags

def modeMask : UInt32 := 0x3
def readOnly : UInt32 := 0x0
def writeOnly : UInt32 := 0x1
def readWrite : UInt32 := 0x2
/-- A missing file is created. -/
def create : UInt32 := 0x10

end OpenFlags

inductive OpenMode where
  | readOnly
  | writeOnly
  | readWrite
  deriving DecidableEq, Repr

namespace OpenMode

def ofFlags (code : UInt32) : Except FsError OpenMode :=
  let mode := code &&& OpenFlags.modeMask
  if mode = OpenFlags.readOnly then .ok .readOnly
  else if mode = OpenFlags.writeOnly then .ok .writeOnly
  else if mode = OpenFlags.readWrite then .ok .readWrite
  else .error (.invalidArgument (.unknownAccessMode mode))

/-- The access a file must carry to be opened in this mode; reading is never checked. -/
def required : OpenMode → Access
  | readOnly => .read
  | writeOnly => .write
  | readWrite => .read ||| .write

def canRead : OpenMode → Bool
  | readOnly | readWrite => true
  | writeOnly => false

def canWrite : OpenMode → Bool
  | writeOnly | readWrite => true
  | readOnly => false

end OpenMode

end BootNamespace
