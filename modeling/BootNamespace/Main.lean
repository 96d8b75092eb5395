import BootNamespace.Demo

open BootNamespace

/-- A file's bytes, or what the host says instead. -/
def readHostFile (path : String) : IO (Except String Bytes) := do
  try
    return .ok (← IO.FS.readBinFile path).data.toList
  catch e =>
    return .error s!"{path}: {e}"

def fail (reason : String) : IO UInt32 := do
  IO.eprintln reason
  return 1

def main (args : List String) : IO UInt32 := do
  match args with
  | [] => fail "usage: boot-namespace <boot-image> [config.json]"
  | imagePath :: rest =>
    let config ← rest.head?.mapM readHostFile
    let image ← match ← readHostFile imagePath with
      | .ok data => pure (Image.StoredImage.blob data)
      | .error text => pure (Image.StoredImage.missing (.host text))
    let result := Demo.program image (config.map (·.mapError fun _ ↦ ()))
    (← IO.getStdout).write ⟨result.output.toArray⟩
    if result.success then return 0 else fail "failed"
