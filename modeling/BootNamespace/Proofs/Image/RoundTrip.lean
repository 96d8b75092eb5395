import BootNamespace.Proofs.Image.Layout
import BootNamespace.Proofs.Image.Parse

namespace BootNamespace.Image

open Bytes

/-- What an image has to keep to so that nothing of it is lost in the format. -/
structure ImageSpec.Buildable (spec : ImageSpec) : Prop where
  magic : spec.magic = Header.magicWord
  texts : ∀ text ∈ spec.texts, '\x00' ∉ text.toList
  sizes : ∀ file ∈ spec.files, file.recordedSize = none
  kinds : ∀ file ∈ spec.files, ∀ code, file.kind = .unknown code → code ∉ [1, 2, 3]
  commands : ∀ command ∈ spec.commands, ∃ file ∈ spec.files, file.name = command.file
  fits : spec.build.length < UInt32.size

/-- The image answers with what the description holds, at the same places. -/
structure BootImage.ReadsBack (image : BootImage) (spec : ImageSpec) : Prop where
  version : image.version = .ok spec.version
  arch : image.arch = .ok spec.arch
  machine : image.machine = .ok spec.machine
  ram : image.ram = .ok spec.ram
  irq : image.irq = .ok spec.irq
  deviceCount : image.deviceCount = .ok spec.devices.length
  fileCount : image.fileCount = .ok spec.files.length
  commandCount : image.commandCount = .ok spec.commands.length
  device : ∀ index device, spec.devices[index]? = some device →
    image.device index = .ok ⟨device.name, device.addr, device.size, 3⟩
  file : ∀ index file, spec.files[index]? = some file →
    image.file index = .ok ⟨file.name, file.kind, file.data⟩
  command : ∀ index command, spec.commands[index]? = some command →
    image.command index = .ok ⟨1, command.priority, command.privilege,
      spec.files.findIdx (·.name == command.file), command.arguments⟩

theorem FileKind.ofCode_code {kind : FileKind} (h : ∀ code, kind = unknown code → code ∉ [1, 2, 3]) :
    ofCode kind.code = kind := by
  cases kind with
  | exec | lib | obj => rfl
  | unknown code =>
    have hcode := h code rfl
    simp only [List.mem_cons, List.not_mem_nil, or_false, not_or] at hcode
    simp only [ofCode, FileKind.code, hcode, if_false]

section Lists

variable {α : Type} {xs ys : List α} {i j : Nat} {a : α}

theorem getElem?_append_of_left (h : xs[i]? = some a) : (xs ++ ys)[i]? = some a := by
  rw [List.getElem?_append_left (List.getElem?_eq_some_iff.mp h).1]
  exact h

theorem getElem?_append_of_right (h : ys[i]? = some a) (hj : j = xs.length + i) :
    (xs ++ ys)[j]? = some a := by
  subst hj
  rw [List.getElem?_append_right (Nat.le_add_right _ _), Nat.add_sub_cancel_left]
  exact h

end Lists

namespace ImageSpec

variable {spec : ImageSpec} {blob : Bytes} {index : Nat}

theorem dataBefore_succ {file : FileSpec} (hfile : spec.files[index]? = some file) :
    spec.dataBefore (index + 1) = spec.dataBefore index + file.data.length := by
  obtain ⟨hindex, rfl⟩ := List.getElem?_eq_some_iff.mp hfile
  rw [dataBefore, ← List.take_append_getElem hindex, List.flatMap_append, List.length_append,
    List.flatMap_singleton]
  rfl

theorem texts_device {device : DeviceSpec} (hdevice : spec.devices[index]? = some device) :
    spec.texts[3 + index]? = some device.name := by
  have hname : (spec.devices.map (·.name))[index]? = some device.name := by
    rw [List.getElem?_map, hdevice]
    rfl
  exact getElem?_append_of_left (getElem?_append_of_left (getElem?_append_of_right hname rfl))

theorem texts_file {file : FileSpec} (hfile : spec.files[index]? = some file) :
    spec.texts[3 + spec.devices.length + index]? = some file.name := by
  have hname : (spec.files.map (·.name))[index]? = some file.name := by
    rw [List.getElem?_map, hfile]
    rfl
  refine getElem?_append_of_left (getElem?_append_of_right hname ?_)
  simp
  omega

theorem texts_command {command : CommandSpec} (hcommand : spec.commands[index]? = some command) :
    spec.texts[3 + spec.devices.length + spec.files.length + index]? = some command.arguments := by
  have harguments : (spec.commands.map (·.arguments))[index]? = some command.arguments := by
    rw [List.getElem?_map, hcommand]
    rfl
  refine getElem?_append_of_right harguments ?_
  simp
  omega

section Built

variable (hbuildable : spec.Buildable) (hlaid : spec.Laid blob)

include hbuildable hlaid

theorem Buildable.hasText {n : Nat} {text : String} (htext : spec.texts[n]? = some text) :
    spec.header.HasText blob (spec.textOffset n) text := by
  have hplaced := spec.placed hbuildable.fits
  have hnames : spec.header.names blob = spec.texts.flatMap packText := by
    rw [Header.names, hplaced.namesSize, textsBefore, List.take_length]
    exact hlaid.names.take_eq
  have hstands : Stands (spec.texts.flatMap packText) (spec.textOffset n).toNat
      (packText text) := by
    have hwhole := Stands.whole (spec.texts.map packText).flatten
    have hpart : (spec.texts.map packText)[n]? = some (packText text) := by
      rw [List.getElem?_map, htext]
      rfl
    have hat := hwhole.flatten hpart
    rw [Nat.zero_add, ← List.map_take] at hat
    rw [hplaced.textOffset]
    exact hat
  refine ⟨zero_notMem_ofText (hbuildable.texts text (List.mem_of_getElem? htext)), ?_⟩
  rw [hnames]
  exact hstands

theorem Buildable.hasDevice {device : DeviceSpec} (hdevice : spec.devices[index]? = some device) :
    spec.header.HasDevice blob index ⟨device.name, device.addr, device.size, deviceAccess⟩ := by
  have hstands := record_of_stands spec.packDevice_length hlaid.devices hdevice
  refine ⟨word_of_stands hstands 0 rfl, word_of_stands hstands 1 rfl,
    word_of_stands hstands 2 rfl, ?_⟩
  have hname : wordAt blob (spec.header.deviceStart index + 12) = spec.textOffset (3 + index) :=
    word_of_stands hstands 3 rfl
  rw [hname]
  exact hbuildable.hasText hlaid (texts_device hdevice)

theorem Buildable.hasFile {file : FileSpec} (hfile : spec.files[index]? = some file) :
    spec.header.HasFile blob index ⟨file.name, file.kind, file.data⟩ := by
  have hplaced := spec.placed hbuildable.fits
  have hmem := List.mem_of_getElem? hfile
  have hstands := record_of_stands spec.packFile_length hlaid.files hfile
  have hkind : wordAt blob (spec.header.fileStart index) = file.kind.code :=
    word_of_stands hstands 0 rfl
  have hsize : wordAt blob (spec.header.fileStart index + 4) = .ofNat file.data.length := by
    have hword := word_of_stands hstands 1 rfl
    rwa [hbuildable.sizes file hmem] at hword
  have hoffset : wordAt blob (spec.header.fileStart index + 8) =
      spec.header.namesOffset + spec.header.namesSize + spec.dataLength index :=
    word_of_stands hstands 2 rfl
  have hname : wordAt blob (spec.header.fileStart index + 12) =
      spec.textOffset (3 + spec.devices.length + index) :=
    word_of_stands hstands 3 rfl
  have hlength := spec.build_length
  have hend : spec.dataBefore index + file.data.length ≤ spec.dataBefore spec.files.length := by
    rw [← dataBefore_succ hfile]
    exact spec.dataBefore_le (index + 1)
  have hfits := hbuildable.fits
  unfold UInt32.size at hfits
  have hsize_nat : (UInt32.ofNat file.data.length).toNat = file.data.length := by
    rw [UInt32.toNat_ofNat']
    exact Nat.mod_eq_of_lt (by omega)
  have hoffset_nat : (spec.header.namesOffset + spec.header.namesSize +
      spec.dataLength index).toNat = spec.header.namesOffset.toNat +
        spec.header.namesSize.toNat + spec.dataBefore index := by
    simp only [UInt32.toNat_add, hplaced.namesOffset, hplaced.namesSize, hplaced.dataLength]
    omega
  have hdata : Stands blob (spec.header.namesOffset.toNat + spec.header.namesSize.toNat +
      spec.dataBefore index) file.data := by
    have hpart : (spec.files.map (·.data))[index]? = some file.data := by
      rw [List.getElem?_map, hfile]
      rfl
    have hat := Stands.flatten hlaid.data hpart
    rw [← List.map_take] at hat
    exact hat
  constructor
  · rw [hkind]
    exact FileKind.ofCode_code (hbuildable.kinds file hmem)
  · rw [hname]
    exact hbuildable.hasText hlaid (texts_file hfile)
  · rw [hoffset, hsize, hoffset_nat, hsize_nat, hplaced.size, hplaced.namesOffset,
      hplaced.namesSize, hlength]
    omega
  · rw [hoffset, hsize, hoffset_nat, hsize_nat]
    exact hdata.take_eq

theorem Buildable.hasCommand {command : CommandSpec}
    (hcommand : spec.commands[index]? = some command) :
    spec.header.HasCommand blob index ⟨commandKind, command.priority, command.privilege,
      spec.files.findIdx (·.name == command.file), command.arguments⟩ := by
  have hplaced := spec.placed hbuildable.fits
  have hstands := record_of_stands spec.packCommand_length hlaid.commands hcommand
  simp only [packCommand, stands_append, List.length_append, packWords_length, List.length_cons,
    List.length_nil, ofUInt16, littleEndian_length] at hstands
  obtain ⟨⟨⟨hkind, hpriority⟩, hprivilege⟩, htail⟩ := hstands
  obtain ⟨file, hfile, hname⟩ := hbuildable.commands command (List.mem_of_getElem? hcommand)
  have hlt : spec.files.findIdx (·.name == command.file) < spec.files.length :=
    List.findIdx_lt_length_of_exists ⟨file, hfile, by simpa using hname⟩
  have hindex : spec.fileIndex command.file =
      .ofNat (spec.files.findIdx (·.name == command.file)) := by
    rw [fileIndex, List.findIdx?_eq_some_iff_findIdx_eq.mpr ⟨hlt, rfl⟩]
  have hreference : wordAt blob (spec.header.commandStart index + 8) =
      spec.header.filesOffset + spec.fileIndex command.file * 16 :=
    word_of_stands htail 0 rfl
  have harguments : wordAt blob (spec.header.commandStart index + 12) =
      spec.textOffset (3 + spec.devices.length + spec.files.length + index) :=
    word_of_stands htail 1 rfl
  constructor
  · exact word_of_stands hkind 0 rfl
  · exact hpriority.toUInt16
  · exact hprivilege.toUInt16
  · have hlength := spec.build_length
    have hfits := hbuildable.fits
    unfold UInt32.size at hfits
    rw [hreference, hindex, Header.fileStart, fileLength]
    simp only [UInt32.toNat_add, UInt32.toNat_mul, UInt32.toNat_ofNat', UInt32.reduceToNat,
      hplaced.filesOffset]
    omega
  · rw [hplaced.filesCount]
    exact hlt
  · rw [harguments]
    exact hbuildable.hasText hlaid (texts_command hcommand)

theorem Buildable.readsBack (hregions : spec.header.Regions spec.header.size.toNat)
    (hsize : spec.header.size.toNat ≤ blob.length) :
    (BootImage.parsed blob spec.header).ReadsBack spec := by
  have hplaced := spec.placed hbuildable.fits
  have hram := Nat.le_trans hregions.ram hsize
  have hirq := Nat.le_trans hregions.irq hsize
  have htext {n : Nat} {text : String} (hn : spec.texts[n]? = some text) :
      spec.header.readString blob (spec.textOffset n) = .ok text :=
    (hregions.readString_eq_ok hsize).mpr (hbuildable.hasText hlaid hn)
  constructor
  · exact htext rfl
  · exact htext rfl
  · exact htext rfl
  · exact (Header.readRam_eq_ok hram).mpr
      ⟨word_of_stands hlaid.ram 0 rfl, word_of_stands hlaid.ram 1 rfl⟩
  · exact (Header.readIrq_eq_ok hirq).mpr
      ⟨word_of_stands hlaid.irq 0 rfl, word_of_stands hlaid.irq 1 rfl⟩
  · exact congrArg Except.ok hplaced.devicesCount
  · exact congrArg Except.ok hplaced.filesCount
  · exact congrArg Except.ok hplaced.commandsCount
  · intro index device hdevice
    have hindex := (List.getElem?_eq_some_iff.mp hdevice).1
    rw [← hplaced.devicesCount] at hindex
    exact (hregions.readDevice_eq_ok hsize hindex).mpr (hbuildable.hasDevice hlaid hdevice)
  · intro index file hfile
    have hindex := (List.getElem?_eq_some_iff.mp hfile).1
    rw [← hplaced.filesCount] at hindex
    exact (hregions.readFile_eq_ok hsize hindex).mpr (hbuildable.hasFile hlaid hfile)
  · intro index command hcommand
    have hindex := (List.getElem?_eq_some_iff.mp hcommand).1
    rw [← hplaced.commandsCount] at hindex
    exact (hregions.readCommand_eq_ok hsize hindex).mpr (hbuildable.hasCommand hlaid hcommand)

theorem Buildable.wellFormed (hregions : spec.header.Regions spec.header.size.toNat)
    (hsize : spec.header.size.toNat ≤ blob.length) : spec.header.WellFormed blob := by
  have hplaced := spec.placed hbuildable.fits
  have hlength := spec.build_length
  constructor
  · exact hbuildable.magic
  · rw [hplaced.size, hlength, Header.length]
    omega
  · exact hsize
  · exact hregions
  · simp only [List.mem_cons, List.not_mem_nil, or_false]
    rintro offset (rfl | rfl | rfl)
    · exact ⟨spec.version, hbuildable.hasText hlaid rfl⟩
    · exact ⟨spec.arch, hbuildable.hasText hlaid rfl⟩
    · exact ⟨spec.machine, hbuildable.hasText hlaid rfl⟩
  · intro index hindex
    rw [hplaced.devicesCount] at hindex
    exact ⟨_, (hbuildable.hasDevice hlaid (List.getElem?_eq_getElem hindex)).name⟩
  · intro index hindex
    rw [hplaced.filesCount] at hindex
    exact Header.exists_hasFile.mp
      ⟨_, hbuildable.hasFile hlaid (List.getElem?_eq_getElem hindex)⟩
  · intro index hindex
    rw [hplaced.commandsCount] at hindex
    exact Header.exists_hasCommand.mp
      ⟨_, hbuildable.hasCommand hlaid (List.getElem?_eq_getElem hindex)⟩

end Built

theorem regions (hfits : spec.build.length < UInt32.size) :
    spec.header.Regions spec.header.size.toNat := by
  have hplaced := spec.placed hfits
  have hlength := spec.build_length
  rw [hplaced.size, hlength]
  constructor
  · rw [hplaced.ramOffset, ramLength]
    omega
  · rw [hplaced.irqOffset, irqLength]
    omega
  · rw [hplaced.namesOffset, hplaced.namesSize]
    omega
  · rw [Header.deviceStart, hplaced.devicesOffset, hplaced.devicesCount, deviceLength]
    omega
  · rw [Header.fileStart, hplaced.filesOffset, hplaced.filesCount, fileLength]
    omega
  · rw [Header.commandStart, hplaced.commandsOffset, hplaced.commandsCount, commandLength]
    omega

end ImageSpec

/-- What is built is read back whole and in order. -/
theorem read_build {spec : ImageSpec} (hbuildable : spec.Buildable) {σ : Type} [ImageSource σ]
    {source : σ} (hsource : (ImageSource.map source).1 = .ok spec.build) :
    ∃ header, Header.decode spec.build = .ok header ∧ spec.build.length = header.size.toNat ∧
      (BootImage.unmapped.load source).1 = .ok () ∧
      (BootImage.unmapped.load source).2.1.parse.1 = .ok header ∧
      (BootImage.unmapped.load source).2.1.parse.2.ReadsBack spec := by
  have hlaid := spec.laid hbuildable.fits (Stands.whole spec.build)
  have hplaced := spec.placed hbuildable.fits
  have hregions := spec.regions hbuildable.fits
  have hsize := Nat.le_of_eq hplaced.size
  have hdecode := Header.decode_of_stands hlaid.header
  have hvalid : validate spec.build = .ok spec.header :=
    validate_eq_ok.mpr ⟨hdecode, hbuildable.wellFormed hlaid hregions hsize⟩
  obtain ⟨rest, hmap⟩ : ∃ rest, ImageSource.map source = (.ok spec.build, rest) :=
    ⟨(ImageSource.map source).2, Prod.ext hsource rfl⟩
  have hload : BootImage.unmapped.load source = (.ok (), .mapped spec.build, rest) := by
    simp only [BootImage.load, hmap]
    rfl
  have hparse : (BootImage.mapped spec.build).parse =
      (.ok spec.header, .parsed spec.build spec.header) := by
    simp only [BootImage.parse, hvalid]
  rw [hload, hparse]
  exact ⟨spec.header, hdecode, hplaced.size.symm, rfl, rfl,
    hbuildable.readsBack hlaid hregions hsize⟩

theorem smallSpec_buildable : smallSpec.Buildable where
  magic := rfl
  texts := by decide +kernel
  sizes := by decide
  kinds := by
    intro file hfile code hcode
    simp only [smallSpec, List.mem_cons, List.not_mem_nil, or_false] at hfile
    rcases hfile with rfl | rfl | rfl
    · cases hcode
    · cases hcode
      decide
    · cases hcode
  commands := by decide
  fits := by decide +kernel

theorem small_image_read_back : smallSpec.Buildable ∧
    (ImageSource.map (StoredImage.blob smallSpec.build)).1 = .ok smallSpec.build ∧
    ∃ header, Header.decode smallSpec.build = .ok header ∧
      smallSpec.build.length = header.size.toNat ∧
      (BootImage.unmapped.load (StoredImage.blob smallSpec.build)).1 = .ok () ∧
      (BootImage.unmapped.load (StoredImage.blob smallSpec.build)).2.1.parse.1 = .ok header ∧
      (BootImage.unmapped.load (StoredImage.blob smallSpec.build)).2.1.parse.2.ReadsBack
        smallSpec := by
  have hsource : (ImageSource.map (StoredImage.blob smallSpec.build)).1 = .ok smallSpec.build := rfl
  exact ⟨smallSpec_buildable, hsource, read_build smallSpec_buildable hsource⟩

end BootNamespace.Image
