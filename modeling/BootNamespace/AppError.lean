import BootNamespace.Config.Basic

namespace BootNamespace

inductive StartFault where
  | workers (count : UInt64)
  | config (error : ConfigError)
  | described (text : String)
  deriving DecidableEq, Repr

inductive IpcFault where
  | noPendingRequest (rcvid : ReceiveId)
  | serverNotRunning
  | described (text : String)
  deriving DecidableEq, Repr

/-- What is wrong with a request before its operation is looked at. -/
inductive FramingError where
  | payloadOverflow (declared available : Nat)
  | bufferOverflow (size limit : Nat)
  | unknownOperation (code : UInt32)
  deriving DecidableEq, Repr

inductive ShareFault where
  | noGrant (session : SessionId)
  | denied
  | described (text : String)
  deriving DecidableEq, Repr

inductive AppError where
  | startFailed (fault : StartFault)
  | ipc (fault : IpcFault)
  | framing (error : FramingError)
  | shareFailed (fault : ShareFault)
  | fs (error : FsError)
  | internal (text : String)
  deriving DecidableEq, Repr

def StartFault.text : StartFault → String
  | workers count => s!"{count.toNat} workers requested, only one is supported"
  | config error => error.message
  | described text => text

def IpcFault.text : IpcFault → String
  | noPendingRequest rcvid => s!"no pending request {rcvid.text}"
  | serverNotRunning => "server is not running"
  | described text => text

def FramingError.message : FramingError → String
  | payloadOverflow declared available =>
    s!"payload overflow: declared {declared} bytes, only {available} available"
  | bufferOverflow size limit => s!"payload of {size} bytes exceeds buffer of {limit}"
  | unknownOperation code => s!"unknown operation: {Text.hex code.toNat}"

def ShareFault.text : ShareFault → String
  | noGrant session => s!"{session.text} holds no grant"
  | denied => "denied"
  | described text => text

def AppError.message : AppError → String
  | startFailed fault => "initialization failed: " ++ fault.text
  | ipc fault => "IPC error: " ++ fault.text
  | framing error => "protocol error: " ++ error.message
  | shareFailed fault => "share failed: " ++ fault.text
  | fs error => "VFS error: " ++ error.message
  | internal text => "internal error: " ++ text

end BootNamespace
