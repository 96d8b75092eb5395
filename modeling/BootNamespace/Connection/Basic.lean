import BootNamespace.Namespace.Basic
import BootNamespace.Session

namespace BootNamespace

inductive ConnectionState where
  | closed
  | opened
  /-- Shared, with the buffer generation that the live grant covers, if there is one. -/
  | mapped (generation : Option UInt32)
  deriving DecidableEq, Repr

namespace ConnectionState

def name : ConnectionState → String
  | closed => "closed"
  | opened => "open"
  | mapped _ => "mapped"

/-- Every state may be closed; open leads from closed to mapped, and mapped stays mapped. -/
def allows : ConnectionState → ConnectionState → Bool
  | _, closed => true
  | closed, opened => true
  | opened, mapped _ => true
  | mapped _, mapped _ => true
  | _, _ => false

end ConnectionState

/-- What the server keeps about one session. -/
structure Connection where
  session : SessionId
  state : ConnectionState
  mode : Option OpenMode
  cursor : UInt64
  file : Option FileId
  deriving DecidableEq, Repr

namespace Connection

def new (session : SessionId) : Connection := ⟨session, .closed, none, 0, none⟩

variable (conn : Connection)

def isClosed : Bool := conn.state == .closed

/-- The session holds a live grant. -/
def isGranted : Bool :=
  match conn.state with
  | .mapped (some _) => true
  | .mapped none | .closed | .opened => false

def setState (next : ConnectionState) : Except FsError Unit × Connection :=
  if conn.state.allows next then (.ok (), { conn with state := next })
  else (.error .invalidState, conn)

def moveTo (cursor : UInt64) : Connection := { conn with cursor := cursor }

/-- Moves the cursor forward, and not past the largest 64-bit word. -/
def advance (n : Nat) : Connection :=
  conn.moveTo (.ofNat (min (conn.cursor.toNat + n) (UInt64.size - 1)))

def bound : Except FsError (FileId × OpenMode) :=
  match conn.state, conn.file, conn.mode with
  | .closed, _, _ => .error (.protocol .notOpen)
  | _, some file, some mode => .ok (file, mode)
  | _, _, _ => .error (.protocol .noBoundFile)

/-- Ties an opened file to a closed connection. -/
def bind (file : FileId) (mode : OpenMode) : Except FsError Unit × Connection :=
  if conn.file.isSome || !conn.isClosed then (.error .busy, conn)
  else
    match conn.setState .opened with
    | (.error e, conn) => (.error e, conn)
    | (.ok (), conn) => (.ok (), { conn with file := some file, mode := some mode, cursor := 0 })

/-- Back to how it was when the session attached, with the file that was bound. -/
def reset : Option FileId × Connection := (conn.file, new conn.session)

end Connection

end BootNamespace
