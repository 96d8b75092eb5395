import BootNamespace.Buffer
import BootNamespace.FsError

namespace BootNamespace

inductive Operation where
  | list
  | read
  | write
  | openFile
  | close
  | share
  | seek
  | truncate
  deriving DecidableEq, Repr

namespace Operation

def code : Operation → UInt32
  | list => 1
  | read => 2
  | write => 3
  | openFile => 4
  | close => 5
  | share => 6
  | seek => 7
  | truncate => 8

def all : List Operation := [list, read, write, openFile, close, share, seek, truncate]

def ofCode (code : UInt32) : Option Operation := all.find? (·.code == code)

def name : Operation → String
  | list => "INFO"
  | read => "READ"
  | write => "WRITE"
  | openFile => "OPEN"
  | close => "CLOSE"
  | share => "SHARE"
  | seek => "SEEK"
  | truncate => "TRUNCATE"

end Operation

namespace Whence

def start : UInt32 := 0
def current : UInt32 := 1
def fileEnd : UInt32 := 2

end Whence

structure RequestHeader where
  op : UInt32
  /-- Flags, whence or kind of listing, as the operation needs it. -/
  code : UInt32
  /-- The length that the request declares for its payload. -/
  sbytes : UInt32
  /-- The longest payload the client takes back. -/
  rbytes : UInt32
  deriving DecidableEq, Repr

namespace RequestHeader

def length : Nat := 16

def new (op : Operation) (code sbytes rbytes : UInt32) : RequestHeader :=
  ⟨op.code, code, sbytes, rbytes⟩

def operation (h : RequestHeader) : Option Operation := Operation.ofCode h.op

def encode (h : RequestHeader) : Bytes :=
  [h.op, h.code, h.sbytes, h.rbytes].flatMap Bytes.ofUInt32

def decode (bs : Bytes) : Option RequestHeader :=
  if bs.length < length then none
  else
    let word (i : Nat) := Bytes.toUInt32 (bs.drop (4 * i))
    some ⟨word 0, word 1, word 2, word 3⟩

end RequestHeader

/-- The facts about a running server. -/
structure ServerContext where
  path : String
  /-- The longest payload of a request. -/
  bufferSize : UInt64
  workers : UInt64
  deriving DecidableEq, Repr

namespace ServerContext

def defaultPath : String := "/proc"

def defaultBufferSize : Nat := 2048

end ServerContext

structure Message where
  rcvid : ReceiveId
  session : SessionId
  header : RequestHeader
  payload : Buffer
  deriving DecidableEq, Repr

inductive Event where
  | attach (session : SessionId)
  | detach (session : SessionId)
  | io (message : Message)
  deriving DecidableEq, Repr

/-- The status is zero or a count on success, and negative otherwise. -/
structure Reply where
  status : Int32
  payload : Bytes
  deriving DecidableEq, Repr

namespace Reply

def ofStatus (status : Int32) : Reply := ⟨status, []⟩

def ok : Reply := ofStatus Status.ok

def okWith (payload : Bytes) : Reply := ⟨Status.ok, payload⟩

def ofError (e : FsError) : Reply := ofStatus e.status

def ofResult : Except FsError Reply → Reply
  | .ok reply => reply
  | .error e => ofError e

def isOk (reply : Reply) : Bool := 0 ≤ reply.status

/-- At most `rbytes` bytes of payload. -/
def clamp (reply : Reply) (rbytes : UInt32) : Reply :=
  { reply with payload := reply.payload.take rbytes.toNat }

end Reply

end BootNamespace
