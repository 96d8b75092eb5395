import BootNamespace.Image.Boot
import BootNamespace.Namespace.Create

namespace BootNamespace

open Image

/-- Where the facts of an image are put. -/
structure Layout where
  sysPath : String
  devicesPath : String
  bootDir : String
  deriving DecidableEq, Repr

def Layout.standard : Layout := ⟨"/sys", "/devices", "/boot"⟩

structure BootReport where
  version : String
  arch : String
  machine : String
  ram : Ram
  devices : Nat
  /-- The paths of the embedded files, in the order of the file table. -/
  bootFiles : List String
  /-- The arguments of the startup commands, in the order of the command table. -/
  commands : List String
  deriving DecidableEq, Repr

inductive BootstrapError where
  | badImage (error : ImageError)
  | refused (error : FsError)
  deriving DecidableEq, Repr

def BootstrapError.message : BootstrapError → String
  | badImage e => "boot image: " ++ e.message
  | refused e => "namespace: " ++ e.message

namespace Bootstrap

def sysText (version arch machine : String) (ram : Ram) : String :=
  "Version: " ++ version ++ "\nArch: " ++ arch ++ "\nMach: " ++ machine ++
    "\nRam Size: " ++ Text.hex ram.size.toNat ++ "\n"

def deviceLine (device : Device) : String :=
  "\x7b\"" ++ device.name ++ "\", @" ++ Text.hex device.addr.toNat ++ ", " ++
    Text.hex device.size.toNat ++ "\x7d\n"

/-- One line for each device, in the order of the device table. -/
def devicesText (image : BootImage) : Except ImageError String := do
  let devices ← (List.range (← image.deviceCount)).mapM image.device
  return String.join (devices.map deviceLine)

variable (image : BootImage)

def imageSysText : Except ImageError String := do
  let ram ← image.ram
  return sysText (← image.version) (← image.arch) (← image.machine) ram

/-- Creates a file under the root. -/
def place (ns : Namespace) (path : String) (data : Bytes) (access : Access) :
    Except BootstrapError Unit × Namespace :=
  match ns.createFile none path data access with
  | (.ok _, ns) => (.ok (), ns)
  | (.error e, ns) => (.error (.refused e), ns)

/-- Creates a read-only file whose text is taken from the image. -/
def placeText (ns : Namespace) (path : String) (text : Except ImageError String) :
    Except BootstrapError Unit × Namespace :=
  match text with
  | .error e => (.error (.badImage e), ns)
  | .ok text => place ns path (Bytes.ofText text) .readOnly

/-- Creates a file for each of the embedded files numbered in the list and tells their paths. -/
def placeFiles (dir : String) (ns : Namespace) :
    List Nat → Except BootstrapError (List String) × Namespace
  | [] => (.ok [], ns)
  | index :: rest =>
    match image.file index with
    | .error e => (.error (.badImage e), ns)
    | .ok file =>
      let path := Path.join dir file.name
      match place ns path file.data .bootFile with
      | (.error e, ns) => (.error e, ns)
      | (.ok (), ns) =>
        match placeFiles dir ns rest with
        | (.error e, ns) => (.error e, ns)
        | (.ok paths, ns) => (.ok (path :: paths), ns)

def placeAllFiles (dir : String) (ns : Namespace) :
    Except BootstrapError (List String) × Namespace :=
  match image.fileCount with
  | .error e => (.error (.badImage e), ns)
  | .ok count => placeFiles image dir ns (List.range count)

def report (bootFiles : List String) : Except ImageError BootReport := do
  let commands ← (List.range (← image.commandCount)).mapM image.command
  return ⟨← image.version, ← image.arch, ← image.machine, ← image.ram, ← image.deviceCount,
    bootFiles, commands.map (·.arguments)⟩

/-- Copies the facts and the files of a parsed image into the namespace. -/
def populate (layout : Layout) (ns : Namespace) : Except BootstrapError BootReport × Namespace :=
  match placeText ns layout.sysPath (imageSysText image) with
  | (.error e, ns) => (.error e, ns)
  | (.ok (), ns) =>
    match placeText ns layout.devicesPath (devicesText image) with
    | (.error e, ns) => (.error e, ns)
    | (.ok (), ns) =>
      match placeAllFiles image layout.bootDir ns with
      | (.error e, ns) => (.error e, ns)
      | (.ok paths, ns) =>
        match report image paths with
        | .error e => (.error (.badImage e), ns)
        | .ok report => (.ok report, ns)

end Bootstrap

/-- The namespace, the image and its source after a bootstrap, and the outcome. -/
structure Bootstrapped (σ : Type) where
  result : Except BootstrapError BootReport
  ns : Namespace
  image : BootImage
  source : σ

/-- Maps and parses an image, fills the namespace from it, and lets go of it whatever the outcome. -/
def Namespace.bootstrap {σ : Type} [ImageSource σ] (ns : Namespace) (image : BootImage) (source : σ)
    (layout : Layout) : Bootstrapped σ :=
  match image.load source with
  | (.error e, image, source) => ⟨.error (.badImage e), ns, image, source⟩
  | (.ok (), image, source) =>
    match image.parse with
    | (.error e, image) => ⟨.error (.badImage e), ns, image.release.2, source⟩
    | (.ok _, image) =>
      let (result, ns) := Bootstrap.populate image layout ns
      ⟨result, ns, image.release.2, source⟩

end BootNamespace
