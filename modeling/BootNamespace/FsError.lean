import BootNamespace.Session
import BootNamespace.Status
import BootNamespace.Text.Hex

namespace BootNamespace

inductive ArgumentFault where
  | unknownAccessMode (bits : UInt32)
  | unknownSeekMode (whence : UInt32)
  | shortSeekPayload
  | seekOutOfRange
  | truncatePayload (length : Nat)
  | zeroSize
  | sizeOverflow
  | unsupportedListing (code : UInt32)
  /-- A fault reported from elsewhere, in its own words. -/
  | described (text : String)
  deriving DecidableEq, Repr

inductive PathFault where
  | notText
  | notRooted
  | trailingSlash
  | notDirectory (rest : String)
  | namesDirectory
  | badName (name : String)
  | fileExists
  | relative (path : String)
  | described (text : String)
  deriving DecidableEq, Repr

inductive ProtocolFault where
  | noOpenReferences
  | entryTruncated
  | unknownTag (tag : UInt32)
  | nameNotText
  | shortSeekReply
  | notOpen
  | noBoundFile
  | noConnection (session : SessionId)
  | serverNotRunning
  | requestDropped
  | described (text : String)
  deriving DecidableEq, Repr

/-- Why an operation on the namespace or on a connection was refused. -/
inductive FsError where
  | invalidArgument (fault : ArgumentFault)
  | invalidPath (fault : PathFault)
  | notFound
  | busy
  | accessDenied
  | resourceExhausted
  | protocol (fault : ProtocolFault)
  | invalidState
  deriving DecidableEq, Repr

def ArgumentFault.text : ArgumentFault → String
  | unknownAccessMode bits => s!"unknown access mode {Text.hex bits.toNat}"
  | unknownSeekMode whence => s!"unknown seek mode {whence.toNat}"
  | shortSeekPayload => "seek payload must hold an i64"
  | seekOutOfRange => "seek out of range"
  | truncatePayload length => s!"truncate payload of {length} bytes"
  | zeroSize => "truncate size must be non-zero"
  | sizeOverflow => "truncate size overflows"
  | unsupportedListing code => s!"unsupported info code {Text.hex code.toNat}"
  | described text => text

def PathFault.text : PathFault → String
  | notText => "path is not valid UTF-8"
  | notRooted => "path must be absolute (start with /)"
  | trailingSlash => "path must not end with /"
  | notDirectory rest => "'" ++ rest ++ "' is not a directory"
  | namesDirectory => "path names an existing directory"
  | badName name => "invalid name '" ++ name ++ "'"
  | fileExists => "file already exists"
  | relative path => "'" ++ path ++ "' is not absolute"
  | described text => text

def ProtocolFault.text : ProtocolFault → String
  | noOpenReferences => "file has no open references"
  | entryTruncated => "listing entry truncated"
  | unknownTag tag => s!"unknown listing tag {Text.hex tag.toNat}"
  | nameNotText => "listing name is not UTF-8"
  | shortSeekReply => "seek reply too short"
  | notOpen => "connection is not open"
  | noBoundFile => "connection has no bound file"
  | noConnection session => s!"no connection for {session.text}"
  | serverNotRunning => "server is not running"
  | requestDropped => "server dropped the request"
  | described text => text

namespace FsError

def message : FsError → String
  | invalidArgument fault => "invalid argument: " ++ fault.text
  | invalidPath fault => "invalid path: " ++ fault.text
  | notFound => "not found"
  | busy => "resource busy"
  | accessDenied => "access denied"
  | resourceExhausted => "resource exhausted"
  | protocol fault => "protocol error: " ++ fault.text
  | invalidState => "invalid state transition"

/-- The status that answers a request refused for this reason. -/
def status : FsError → Int32
  | invalidArgument _ | invalidPath _ => Status.invalid
  | notFound => Status.noResource
  | busy => Status.busy
  | accessDenied => Status.access
  | resourceExhausted => Status.noMemory
  | protocol _ => Status.failed
  | invalidState => Status.state

/-- The reason a status stands for, without its words; `none` for a success or a byte count. -/
def ofStatus (code : Int32) : Option FsError :=
  if 0 ≤ code then none
  else if code = Status.invalid then some (invalidArgument (.described ""))
  else if code = Status.noResource then some notFound
  else if code = Status.busy then some busy
  else if code = Status.access then some accessDenied
  else if code = Status.noMemory then some resourceExhausted
  else if code = Status.state then some invalidState
  else some (protocol (.described ""))

end FsError

end BootNamespace
