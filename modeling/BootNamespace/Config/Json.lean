import BootNamespace.Config.Basic
import BootNamespace.Json.Reader

namespace BootNamespace.ServerConfig

open Json

def fields : List String :=
  ["server_path", "buffer_size", "workers", "page_size", "max_file_size", "sys_path",
    "devices_path", "boot_dir"]

def toJson (config : ServerConfig) : Json :=
  ofFields (fields.zip
    [.text config.serverPath, ofNat config.bufferSize.toNat, ofNat config.workers.toNat,
      ofNat config.pageSize.toNat, ofNat config.maxFileSize.toNat, .text config.sysPath,
      .text config.devicesPath, .text config.bootDir])

/-- A setting that is given, or the default. -/
def setting {α : Type} (read : Json → Option α) (default : α) : Option Json → Option α
  | some json => read json
  | none => some default

def ofJson? (json : Json) : Option ServerConfig :=
  match json.record? fields with
  | some [server, buffer, workers, page, size, sys, devices, boot] => do
    return {
      serverPath := ← setting text? standard.serverPath server
      bufferSize := ← setting word? standard.bufferSize buffer
      workers := ← setting word? standard.workers workers
      pageSize := ← setting word? standard.pageSize page
      maxFileSize := ← setting word? standard.maxFileSize size
      sysPath := ← setting text? standard.sysPath sys
      devicesPath := ← setting text? standard.devicesPath devices
      bootDir := ← setting text? standard.bootDir boot }
  | _ => none

def read? (bs : Bytes) : Option ServerConfig := (Json.read? bs).bind ofJson?

/-- Reads a configuration with a reader of its form, and accepts it only if it is valid. -/
def accept (read : Bytes → Option ServerConfig) (bs : Bytes) : Except ConfigError ServerConfig :=
  match read bs with
  | none => .error .unreadable
  | some config =>
    match config.validate with
    | .error e => .error e
    | .ok () => .ok config

def ofBytes (bs : Bytes) : Except ConfigError ServerConfig := accept read? bs

end BootNamespace.ServerConfig
