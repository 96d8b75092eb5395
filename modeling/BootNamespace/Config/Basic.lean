import BootNamespace.Bootstrap
import BootNamespace.Request

namespace BootNamespace

structure ServerConfig where
  serverPath : String
  /-- The longest payload of a request, and the longest listing. -/
  bufferSize : UInt64
  workers : UInt64
  /-- Sizes are rounded up to a multiple of this. -/
  pageSize : UInt64
  /-- The largest size that a client may ask for. -/
  maxFileSize : UInt64
  sysPath : String
  devicesPath : String
  bootDir : String
  deriving DecidableEq, Repr

inductive PathSetting where
  | server
  | sys
  | devices
  | boot
  deriving DecidableEq, Repr

inductive ConfigFault where
  | workers (count : UInt64)
  | pageSize (size : UInt64)
  | bufferSize (size : UInt64)
  | noFileSize
  | relativePath (setting : PathSetting) (path : String)
  deriving DecidableEq, Repr

inductive ConfigError where
  | unreadable
  | invalid (fault : ConfigFault)
  deriving DecidableEq, Repr

def PathSetting.field : PathSetting → String
  | server => "server_path"
  | sys => "sys_path"
  | devices => "devices_path"
  | boot => "boot_dir"

def ConfigFault.text : ConfigFault → String
  | workers count => s!"workers must be 1, got {count.toNat}"
  | pageSize size => s!"page_size {size.toNat} is not a power of two"
  | bufferSize size =>
    s!"buffer_size {size.toNat} is smaller than the {RequestHeader.length}-byte header"
  | noFileSize => "max_file_size must be non-zero"
  | relativePath setting path => setting.field ++ " '" ++ path ++ "' must start with '/'"

def ConfigError.message : ConfigError → String
  | unreadable => "failed to parse config"
  | invalid fault => "invalid config: " ++ fault.text

def isPowerOfTwo (n : Nat) : Bool := (List.range 64).any fun k ↦ 1 <<< k == n

namespace ServerConfig

def defaultMaxFileSize : UInt64 := 16777216

def standard : ServerConfig where
  serverPath := ServerContext.defaultPath
  bufferSize := .ofNat ServerContext.defaultBufferSize
  workers := 1
  pageSize := .ofNat Namespace.defaultPageSize
  maxFileSize := defaultMaxFileSize
  sysPath := Layout.standard.sysPath
  devicesPath := Layout.standard.devicesPath
  bootDir := Layout.standard.bootDir

variable (config : ServerConfig)

def paths : List (PathSetting × String) :=
  [(.server, config.serverPath), (.sys, config.sysPath), (.devices, config.devicesPath),
    (.boot, config.bootDir)]

def validate : Except ConfigError Unit :=
  if config.workers ≠ 1 then .error (.invalid (.workers config.workers))
  else if !isPowerOfTwo config.pageSize.toNat then .error (.invalid (.pageSize config.pageSize))
  else if config.bufferSize.toNat < RequestHeader.length then
    .error (.invalid (.bufferSize config.bufferSize))
  else if config.maxFileSize = 0 then .error (.invalid .noFileSize)
  else
    match config.paths.find? fun setting ↦ !Path.isAbsolute setting.2 with
    | some (setting, path) => .error (.invalid (.relativePath setting path))
    | none => .ok ()

def context : ServerContext := ⟨config.serverPath, config.bufferSize, config.workers⟩

def layout : Layout := ⟨config.sysPath, config.devicesPath, config.bootDir⟩

end ServerConfig

end BootNamespace
