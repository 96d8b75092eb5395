import BootNamespace.Listing.Packed
import BootNamespace.Path
import BootNamespace.Request

namespace BootNamespace

/-- A way to send one request and wait for its reply. -/
class Transport (τ : Type) where
  send : τ → RequestHeader → Bytes → Except FsError Reply × τ

/-- The client's end of a single connection. -/
structure Client (τ : Type) where
  transport : τ
  /-- The longest payload that reads and listings ask for. -/
  bufferSize : UInt32

namespace Client

variable {τ : Type} [Transport τ]

def new (transport : τ) : Client τ := ⟨transport, .ofNat ServerContext.defaultBufferSize⟩

/-- Sends a request and turns the status of a refusal back into a reason. -/
def call (c : Client τ) (op : Operation) (code : UInt32) (payload : Bytes) (rbytes : UInt32) :
    Except FsError Reply × Client τ :=
  let header := RequestHeader.new op code (.ofNat payload.length) rbytes
  let (result, transport) := Transport.send c.transport header payload
  let c := { c with transport := transport }
  match result with
  | .error e => (.error e, c)
  | .ok reply =>
    match FsError.ofStatus reply.status with
    | some e => (.error e, c)
    | none => (.ok reply, c)

def command (c : Client τ) (op : Operation) (code : UInt32) (payload : Bytes) :
    Except FsError Unit × Client τ :=
  let (result, c) := c.call op code payload 0
  (result.map fun _ ↦ (), c)

variable (c : Client τ)

def openFile (path : String) (flags : UInt32) : Except FsError Unit × Client τ :=
  c.command .openFile flags (Path.toPayload path)

def close : Except FsError Unit × Client τ := c.command .close 0 []

def truncate (size : UInt64) : Except FsError Unit × Client τ :=
  c.command .truncate 0 (Bytes.ofUInt64 size)

def share : Except FsError Unit × Client τ := c.command .share 0 []

/-- Reads at the cursor. -/
def read (length : UInt32) : Except FsError Bytes × Client τ :=
  let (result, c) := c.call .read 0 [] length
  (result.map fun reply ↦ reply.payload.take reply.status.toNatClampNeg, c)

/-- Writes at the cursor and tells how much was taken. -/
def write (data : Bytes) : Except FsError Nat × Client τ :=
  let (result, c) := c.call .write 0 data 0
  (result.map fun reply ↦ reply.status.toNatClampNeg, c)

/-- Moves the cursor and tells where it is then. -/
def seek (offset : Int64) (whence : UInt32) : Except FsError UInt64 × Client τ :=
  let (result, c) := c.call .seek whence (Bytes.ofUInt64 offset.toUInt64) 8
  match result with
  | .error e => (.error e, c)
  | .ok reply =>
    if reply.payload.length < 8 then (.error (.protocol .shortSeekReply), c)
    else (.ok (Bytes.toUInt64 reply.payload), c)

def list (path : String) : Except FsError (List Entry) × Client τ :=
  let (result, c) := c.call .list listAll (Path.toPayload path) c.bufferSize
  (result.bind fun reply ↦ Entry.unpackAll reply.payload, c)

/-- Reads until nothing comes, in at most `reads` reads. -/
def readWithin (c : Client τ) : Nat → Except FsError Bytes × Client τ
  | 0 => (.ok [], c)
  | reads + 1 =>
    match c.read c.bufferSize with
    | (.error e, c) => (.error e, c)
    | (.ok [], c) => (.ok [], c)
    | (.ok chunk, c) =>
      let (rest, c) := readWithin c reads
      (rest.map (chunk ++ ·), c)

/-- Reads until nothing comes. Every read before the last moves a 64-bit cursor forward, so there are
no more of them than the cursor has places. -/
def readToEnd : Except FsError Bytes × Client τ := c.readWithin UInt64.size

end Client

end BootNamespace
