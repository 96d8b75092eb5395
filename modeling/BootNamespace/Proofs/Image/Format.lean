import BootNamespace.Image.Boot
import BootNamespace.Proofs.Bytes

namespace BootNamespace.Image

section Outcomes

variable {ε α β γ : Type} {x : Except ε α} {f : α → Except ε β} {b : β} {p : Prop} [Decidable p]

theorem bind_eq_ok : (x >>= f) = .ok b ↔ ∃ a, x = .ok a ∧ f a = .ok b := by
  cases x with
  | error e => simp [bind, Except.bind]
  | ok a => simp [bind, Except.bind]

theorem pure_eq_ok {a a' : α} : (pure a : Except ε α) = .ok a' ↔ a = a' := by
  simp [pure, Except.pure]

theorem refuse_eq_ok {e : ε} {next : Unit → Except ε β} :
    (if p then throw e >>= next else next ()) = .ok b ↔ ¬p ∧ next () = .ok b := by
  have hthrow : (throw e >>= next) = .error e := rfl
  by_cases hp : p
  · simp [hp, hthrow]
  · simp [hp]

/-- A loop that only checks goes through exactly if each of its rounds does. -/
theorem loop_eq_ok {xs : List α} {f : α → Except ε γ} {u : PUnit} :
    (forIn xs PUnit.unit fun x _ ↦ do
      let _ ← f x
      pure (ForInStep.yield PUnit.unit)) = .ok u ↔ ∀ x ∈ xs, ∃ a, f x = .ok a := by
  induction xs with
  | nil => simp [pure, Except.pure]
  | cons x xs ih =>
    cases hx : f x with
    | error e => simp [hx, bind, Except.bind]
    | ok a =>
      simp only [List.forIn_cons, List.mem_cons, forall_eq_or_imp, hx]
      rw [← ih]
      simp [bind, Except.bind, pure, Except.pure]

end Outcomes

def wordAt (blob : Bytes) (pos : Nat) : UInt32 := Bytes.toUInt32 (blob.drop pos)

def halfAt (blob : Bytes) (pos : Nat) : UInt16 := Bytes.toUInt16 (blob.drop pos)

namespace Header

variable (h : Header) (blob : Bytes)

def names : Bytes := (blob.drop h.namesOffset.toNat).take h.namesSize.toNat

/-- The text stands in the string table at `offset`, with the first NUL after it. -/
def HasText (offset : UInt32) (text : String) : Prop :=
  0 ∉ Bytes.ofText text ∧ Bytes.ofText text ++ [0] <+: (h.names blob).drop offset.toNat

def deviceStart (index : Nat) : Nat := h.devicesOffset.toNat + index * deviceLength

def fileStart (index : Nat) : Nat := h.filesOffset.toNat + index * fileLength

def commandStart (index : Nat) : Nat := h.commandsOffset.toNat + index * commandLength

structure HasDevice (index : Nat) (device : Device) : Prop where
  addr : wordAt blob (h.deviceStart index) = device.addr
  size : wordAt blob (h.deviceStart index + 4) = device.size
  access : wordAt blob (h.deviceStart index + 8) = device.access
  name : h.HasText blob (wordAt blob (h.deviceStart index + 12)) device.name

structure HasFile (index : Nat) (file : EmbeddedFile) : Prop where
  kind : .ofCode (wordAt blob (h.fileStart index)) = file.kind
  name : h.HasText blob (wordAt blob (h.fileStart index + 12)) file.name
  inside : (wordAt blob (h.fileStart index + 8)).toNat +
    (wordAt blob (h.fileStart index + 4)).toNat ≤ h.size.toNat
  data : (blob.drop (wordAt blob (h.fileStart index + 8)).toNat).take
    (wordAt blob (h.fileStart index + 4)).toNat = file.data

/-- A command names its file by the offset of the file's record. -/
structure HasCommand (index : Nat) (command : StartupCommand) : Prop where
  kind : wordAt blob (h.commandStart index) = command.kind
  priority : halfAt blob (h.commandStart index + 4) = command.priority
  privilege : halfAt blob (h.commandStart index + 6) = command.privilege
  file : (wordAt blob (h.commandStart index + 8)).toNat = h.fileStart command.file
  file_lt : command.file < h.filesCount.toNat
  arguments : h.HasText blob (wordAt blob (h.commandStart index + 12)) command.arguments

/-- Every region that the header speaks of ends by the limit. -/
structure Regions (limit : Nat) : Prop where
  ram : h.ramOffset.toNat + ramLength ≤ limit
  irq : h.irqOffset.toNat + irqLength ≤ limit
  names : h.namesOffset.toNat + h.namesSize.toNat ≤ limit
  devices : h.deviceStart h.devicesCount.toNat ≤ limit
  files : h.fileStart h.filesCount.toNat ≤ limit
  commands : h.commandStart h.commandsCount.toNat ≤ limit

/-- What makes an image sound: its regions lie inside it, every text that is asked for is in the
string table, and every file and file reference is where there is one. -/
structure WellFormed : Prop where
  magic : h.magic = magicWord
  length_le : length ≤ h.size.toNat
  size_le : h.size.toNat ≤ blob.length
  regions : h.Regions h.size.toNat
  texts : ∀ offset ∈ [h.version, h.arch, h.machine], ∃ text, h.HasText blob offset text
  devices : ∀ index < h.devicesCount.toNat,
    ∃ name, h.HasText blob (wordAt blob (h.deviceStart index + 12)) name
  files : ∀ index < h.filesCount.toNat,
    (∃ name, h.HasText blob (wordAt blob (h.fileStart index + 12)) name) ∧
    (wordAt blob (h.fileStart index + 8)).toNat + (wordAt blob (h.fileStart index + 4)).toNat ≤
      h.size.toNat
  commands : ∀ index < h.commandsCount.toNat,
    (∃ arguments, h.HasText blob (wordAt blob (h.commandStart index + 12)) arguments) ∧
    ∃ file < h.filesCount.toNat,
      (wordAt blob (h.commandStart index + 8)).toNat = h.fileStart file

end Header

variable {h : Header} {blob : Bytes} {pos index limit : Nat} {offset : UInt32}

theorem readWord_eq_ok {word : UInt32} :
    readWord blob pos = .ok word ↔ pos + 4 ≤ blob.length ∧ wordAt blob pos = word := by
  unfold readWord
  by_cases hfit : pos + 4 ≤ blob.length
  · rw [Bytes.split?_of_le (by rw [List.length_drop]; omega)]
    simp [hfit, wordAt, Bytes.toUInt32, List.take_take]
  · rw [Bytes.split?_of_lt (by rw [List.length_drop]; omega)]
    simp [hfit]

theorem readHalf_eq_ok {half : UInt16} :
    readHalf blob pos = .ok half ↔ pos + 2 ≤ blob.length ∧ halfAt blob pos = half := by
  unfold readHalf
  by_cases hfit : pos + 2 ≤ blob.length
  · rw [Bytes.split?_of_le (by rw [List.length_drop]; omega)]
    simp [hfit, halfAt, Bytes.toUInt16, List.take_take]
  · rw [Bytes.split?_of_lt (by rw [List.length_drop]; omega)]
    simp [hfit]

theorem checkRegion_eq_ok {count : UInt32} {length start : Nat} {region : Region} :
    checkRegion offset count length limit region = .ok start ↔
      offset.toNat + count.toNat * length ≤ limit ∧ offset.toNat = start := by
  unfold checkRegion
  split
  · simp; omega
  · simp; omega

theorem recordStart_eq_ok {count : UInt32} {length start : Nat} {table : Table} :
    recordStart offset count length index table = .ok start ↔
      index < count.toNat ∧ offset.toNat + index * length = start := by
  unfold recordStart
  split
  next hlt => simp [hlt]
  next hge => simp [hge]

/-- What stands before the first occurrence of an element, said without scanning. -/
theorem takeWhile_eq_iff {α : Type} [DecidableEq α] {a : α} {l t : List α} (h : a ∈ l) :
    l.takeWhile (· ≠ a) = t ↔ a ∉ t ∧ t ++ [a] <+: l := by
  induction l generalizing t with
  | nil => cases h
  | cons b l ih =>
    by_cases hb : b = a
    · subst hb
      cases t with
      | nil => simp
      | cons c t =>
        simp only [List.takeWhile_cons, ne_eq, not_true_eq_false, decide_false,
          Bool.false_eq_true, if_false, List.nil_eq, reduceCtorEq, List.mem_cons, not_or,
          List.cons_append, List.cons_prefix_cons, false_iff]
        rintro ⟨⟨hne, -⟩, heq, -⟩
        exact hne heq.symm
    · have hmem : a ∈ l := (List.mem_cons.mp h).resolve_left (Ne.symm hb)
      cases t with
      | nil => simp [hb, Ne.symm hb]
      | cons c t =>
        simp only [List.takeWhile_cons, ne_eq, hb, not_false_eq_true, decide_true, if_true,
          List.cons.injEq, ih hmem, List.mem_cons, not_or, List.cons_append,
          List.cons_prefix_cons]
        constructor
        · rintro ⟨rfl, ht, hstarts⟩
          exact ⟨⟨Ne.symm hb, ht⟩, rfl, hstarts⟩
        · rintro ⟨⟨-, ht⟩, rfl, hstarts⟩
          exact ⟨rfl, ht, hstarts⟩

namespace Header

theorem readString_eq_ok {text : String}
    (hnames : h.namesOffset.toNat + h.namesSize.toNat ≤ blob.length) :
    h.readString blob offset = .ok text ↔ h.HasText blob offset text := by
  have hlength : (h.names blob).length = h.namesSize.toNat := by
    rw [names, List.length_take, List.length_drop]
    omega
  unfold readString
  split
  next hpast =>
    have hnil : (h.names blob).drop offset.toNat = [] := by
      rw [List.drop_eq_nil_iff, hlength]
      exact UInt32.le_iff_toNat_le.mp hpast
    simp [HasText, hnil]
  next =>
    rw [Bytes.split?_of_le (by rw [List.length_drop]; omega)]
    change (if ((h.names blob).drop offset.toNat).contains 0 then _ else _) = _ ↔ _
    split
    next hnul =>
      rw [List.contains_iff_mem] at hnul
      rw [HasText, ← takeWhile_eq_iff hnul, ← Bytes.toText?_eq_some_iff]
      unfold names
      generalize Bytes.toText? _ = decoded
      cases decoded with
      | none => simp
      | some found => simp
    next hnul =>
      rw [List.contains_iff_mem] at hnul
      have hno : ¬h.HasText blob offset text := by
        intro htext
        exact hnul (htext.2.subset (by simp))
      simp [hno]

theorem readRam_eq_ok (hfit : h.ramOffset.toNat + ramLength ≤ blob.length) {ram : Ram} :
    h.readRam blob = .ok ram ↔ wordAt blob h.ramOffset.toNat = ram.addr ∧
      wordAt blob (h.ramOffset.toNat + 4) = ram.size := by
  obtain ⟨addr, size⟩ := ram
  have hfirst : h.ramOffset.toNat + 4 ≤ blob.length := by unfold ramLength at hfit; omega
  have hsecond : h.ramOffset.toNat + 4 + 4 ≤ blob.length := by unfold ramLength at hfit; omega
  simp only [readRam, bind_eq_ok, pure_eq_ok, readWord_eq_ok]
  simp [hfirst, hsecond]

theorem readIrq_eq_ok (hfit : h.irqOffset.toNat + irqLength ≤ blob.length) {irq : Irq} :
    h.readIrq blob = .ok irq ↔ wordAt blob h.irqOffset.toNat = irq.privilege ∧
      wordAt blob (h.irqOffset.toNat + 4) = irq.shared := by
  obtain ⟨privilege, shared⟩ := irq
  have hfirst : h.irqOffset.toNat + 4 ≤ blob.length := by unfold irqLength at hfit; omega
  have hsecond : h.irqOffset.toNat + 4 + 4 ≤ blob.length := by unfold irqLength at hfit; omega
  simp only [readIrq, bind_eq_ok, pure_eq_ok, readWord_eq_ok]
  simp [hfirst, hsecond]

theorem fileAt_eq_ok {file : Nat} :
    h.fileAt offset = .ok file ↔ offset.toNat = h.fileStart file ∧ file < h.filesCount.toNat := by
  unfold fileAt fileStart fileLength
  dsimp only
  have hlt := UInt32.lt_iff_toNat_lt (a := offset) (b := h.filesOffset)
  split
  next hbad =>
    simp only [reduceCtorEq, false_iff]
    rintro ⟨heq, hcount⟩
    rw [hlt] at hbad
    omega
  next hgood =>
    rw [hlt] at hgood
    rw [Except.ok.injEq]
    omega

theorem Regions.device_le (hregions : h.Regions limit)
    (hindex : index < h.devicesCount.toNat) : h.deviceStart index + 16 ≤ limit := by
  have hend := hregions.devices
  unfold deviceStart deviceLength at *
  omega

theorem Regions.file_le (hregions : h.Regions limit)
    (hindex : index < h.filesCount.toNat) : h.fileStart index + 16 ≤ limit := by
  have hend := hregions.files
  unfold fileStart fileLength at *
  omega

theorem Regions.command_le (hregions : h.Regions limit)
    (hindex : index < h.commandsCount.toNat) : h.commandStart index + 16 ≤ limit := by
  have hend := hregions.commands
  unfold commandStart commandLength at *
  omega

section Records

variable (hregions : h.Regions limit) (hlimit : limit ≤ blob.length)

include hregions hlimit

theorem Regions.readString_eq_ok {text : String} :
    h.readString blob offset = .ok text ↔ h.HasText blob offset text :=
  Header.readString_eq_ok (Nat.le_trans hregions.names hlimit)

theorem Regions.readDevice_eq_ok (hindex : index < h.devicesCount.toNat) {device : Device} :
    h.readDevice blob index = .ok device ↔ h.HasDevice blob index device := by
  obtain ⟨name, addr, size, access⟩ := device
  have hfit := Nat.le_trans (hregions.device_le hindex) hlimit
  have hstart : recordStart h.devicesOffset h.devicesCount deviceLength index .device =
      .ok (h.deviceStart index) := recordStart_eq_ok.mpr ⟨hindex, rfl⟩
  simp only [readDevice, hstart, bind_eq_ok, pure_eq_ok, readWord_eq_ok,
    hregions.readString_eq_ok hlimit]
  constructor
  · rintro ⟨_, ⟨⟩, _, ⟨-, rfl⟩, _, ⟨-, rfl⟩, _, ⟨-, rfl⟩, _, ⟨-, rfl⟩, _, htext, ⟨⟩⟩
    exact ⟨rfl, rfl, rfl, htext⟩
  · rintro ⟨rfl, rfl, rfl, htext⟩
    exact ⟨_, rfl, _, ⟨by omega, rfl⟩, _, ⟨by omega, rfl⟩, _, ⟨by omega, rfl⟩, _, ⟨by omega, rfl⟩,
      name, htext, rfl⟩

theorem Regions.checkDevice_eq_ok (hindex : index < h.devicesCount.toNat) :
    h.checkDevice blob index = .ok () ↔
      ∃ name, h.HasText blob (wordAt blob (h.deviceStart index + 12)) name := by
  have hfit := Nat.le_trans (hregions.device_le hindex) hlimit
  have hstart : recordStart h.devicesOffset h.devicesCount deviceLength index .device =
      .ok (h.deviceStart index) := recordStart_eq_ok.mpr ⟨hindex, rfl⟩
  simp only [checkDevice, hstart, bind_eq_ok, pure_eq_ok, readWord_eq_ok,
    hregions.readString_eq_ok hlimit]
  constructor
  · rintro ⟨_, ⟨⟩, _, ⟨-, rfl⟩, name, htext, -⟩
    exact ⟨name, htext⟩
  · rintro ⟨name, htext⟩
    exact ⟨_, rfl, _, ⟨by omega, rfl⟩, name, htext, trivial⟩

theorem Regions.readFile_eq_ok (hindex : index < h.filesCount.toNat) {file : EmbeddedFile} :
    h.readFile blob index = .ok file ↔ h.HasFile blob index file := by
  obtain ⟨name, kind, data⟩ := file
  have hfit := Nat.le_trans (hregions.file_le hindex) hlimit
  have hstart : recordStart h.filesOffset h.filesCount fileLength index .file =
      .ok (h.fileStart index) := recordStart_eq_ok.mpr ⟨hindex, rfl⟩
  simp only [readFile, hstart, bind_eq_ok, pure_eq_ok, readWord_eq_ok, checkRegion_eq_ok,
    hregions.readString_eq_ok hlimit, Nat.mul_one]
  constructor
  · rintro ⟨_, ⟨⟩, _, ⟨-, rfl⟩, _, ⟨-, rfl⟩, _, ⟨-, rfl⟩, _, ⟨-, rfl⟩, _, htext, _, ⟨hinside, rfl⟩,
      ⟨⟩⟩
    exact ⟨rfl, htext, hinside, rfl⟩
  · rintro ⟨rfl, htext, hinside, rfl⟩
    exact ⟨_, rfl, _, ⟨by omega, rfl⟩, _, ⟨by omega, rfl⟩, _, ⟨by omega, rfl⟩, _, ⟨by omega, rfl⟩,
      name, htext, _, ⟨hinside, rfl⟩, rfl⟩

theorem Regions.readCommand_eq_ok (hindex : index < h.commandsCount.toNat)
    {command : StartupCommand} :
    h.readCommand blob index = .ok command ↔ h.HasCommand blob index command := by
  obtain ⟨kind, priority, privilege, file, arguments⟩ := command
  have hfit := Nat.le_trans (hregions.command_le hindex) hlimit
  have hstart : recordStart h.commandsOffset h.commandsCount commandLength index .command =
      .ok (h.commandStart index) := recordStart_eq_ok.mpr ⟨hindex, rfl⟩
  simp only [readCommand, hstart, bind_eq_ok, pure_eq_ok, readWord_eq_ok, readHalf_eq_ok,
    fileAt_eq_ok, hregions.readString_eq_ok hlimit]
  constructor
  · rintro ⟨_, ⟨⟩, _, ⟨-, rfl⟩, _, ⟨hfile, hlt⟩, _, ⟨-, rfl⟩, _, ⟨-, rfl⟩, _, ⟨-, rfl⟩, _, ⟨-, rfl⟩,
      _, htext, ⟨⟩⟩
    exact ⟨rfl, rfl, rfl, hfile, hlt, htext⟩
  · rintro ⟨rfl, rfl, rfl, hfile, hlt, htext⟩
    exact ⟨_, rfl, _, ⟨by omega, rfl⟩, _, ⟨hfile, hlt⟩, _, ⟨by omega, rfl⟩, _, ⟨by omega, rfl⟩,
      _, ⟨by omega, rfl⟩, _, ⟨by omega, rfl⟩, arguments, htext, rfl⟩

end Records

theorem exists_hasFile : (∃ file, h.HasFile blob index file) ↔
    (∃ name, h.HasText blob (wordAt blob (h.fileStart index + 12)) name) ∧
    (wordAt blob (h.fileStart index + 8)).toNat + (wordAt blob (h.fileStart index + 4)).toNat ≤
      h.size.toNat := by
  constructor
  · rintro ⟨file, hfile⟩
    exact ⟨⟨_, hfile.name⟩, hfile.inside⟩
  · rintro ⟨⟨name, htext⟩, hinside⟩
    exact ⟨⟨name, _, _⟩, rfl, htext, hinside, rfl⟩

theorem exists_hasCommand : (∃ command, h.HasCommand blob index command) ↔
    (∃ arguments, h.HasText blob (wordAt blob (h.commandStart index + 12)) arguments) ∧
    ∃ file < h.filesCount.toNat,
      (wordAt blob (h.commandStart index + 8)).toNat = h.fileStart file := by
  constructor
  · rintro ⟨command, hcommand⟩
    exact ⟨⟨_, hcommand.arguments⟩, _, hcommand.file_lt, hcommand.file⟩
  · rintro ⟨⟨arguments, htext⟩, file, hlt, hfile⟩
    exact ⟨⟨_, _, _, file, arguments⟩, rfl, rfl, rfl, hfile, hlt, htext⟩

theorem checkRegions_eq_ok : h.checkRegions limit = .ok () ↔ h.Regions limit := by
  simp only [checkRegions, bind_eq_ok, pure_eq_ok, checkRegion_eq_ok]
  constructor
  · rintro ⟨_, ⟨hram, -⟩, _, ⟨hirq, -⟩, _, ⟨hnames, -⟩, _, ⟨hdevices, -⟩, _, ⟨hfiles, -⟩, _,
      ⟨hcommands, -⟩, -⟩
    exact ⟨by simpa using hram, by simpa using hirq, by simpa using hnames, hdevices, hfiles,
      hcommands⟩
  · rintro ⟨hram, hirq, hnames, hdevices, hfiles, hcommands⟩
    exact ⟨_, ⟨by simpa using hram, rfl⟩, _, ⟨by simpa using hirq, rfl⟩, _,
      ⟨by simpa using hnames, rfl⟩, _, ⟨hdevices, rfl⟩, _, ⟨hfiles, rfl⟩, _, ⟨hcommands, rfl⟩,
      trivial⟩

theorem Regions.checkRecords_eq_ok (hregions : h.Regions limit) (hlimit : limit ≤ blob.length) :
    h.checkRecords blob = .ok () ↔
      (∀ offset ∈ [h.version, h.arch, h.machine], ∃ text, h.HasText blob offset text) ∧
      (∀ index < h.devicesCount.toNat,
        ∃ name, h.HasText blob (wordAt blob (h.deviceStart index + 12)) name) ∧
      (∀ index < h.filesCount.toNat, ∃ file, h.HasFile blob index file) ∧
      ∀ index < h.commandsCount.toNat, ∃ command, h.HasCommand blob index command := by
  simp only [checkRecords, bind_eq_ok, loop_eq_ok, pure_eq_ok, List.mem_range,
    hregions.readString_eq_ok hlimit, exists_const, and_true]
  refine and_congr_right' (and_congr ?_ (and_congr ?_ ?_))
  · refine forall₂_congr fun index hindex ↦ ?_
    rw [← hregions.checkDevice_eq_ok hlimit hindex]
    exact ⟨fun ⟨_, hok⟩ ↦ hok, fun hok ↦ ⟨(), hok⟩⟩
  · refine forall₂_congr fun index hindex ↦ exists_congr fun file ↦ ?_
    exact hregions.readFile_eq_ok hlimit hindex
  · refine forall₂_congr fun index hindex ↦ exists_congr fun command ↦ ?_
    exact hregions.readCommand_eq_ok hlimit hindex

end Header

/-- The checks find an image sound exactly if it is. -/
theorem validate_eq_ok :
    validate blob = .ok h ↔ Header.decode blob = .ok h ∧ h.WellFormed blob := by
  unfold validate
  simp only [bind_eq_ok]
  constructor
  · rintro ⟨header, hdecode, hchecks⟩
    obtain ⟨hmagic, hchecks⟩ := refuse_eq_ok.mp hchecks
    obtain ⟨hsize, hchecks⟩ := refuse_eq_ok.mp hchecks
    rw [not_or] at hsize
    simp only [bind_eq_ok, pure_eq_ok] at hchecks
    obtain ⟨⟨⟩, hregions, ⟨⟩, hrecords, rfl⟩ := hchecks
    have hsize_le : header.size.toNat ≤ blob.length := Nat.not_lt.mp hsize.2
    rw [Header.checkRegions_eq_ok] at hregions
    obtain ⟨htexts, hdevices, hfiles, hcommands⟩ :=
      (hregions.checkRecords_eq_ok hsize_le).mp hrecords
    exact ⟨hdecode, not_not.mp hmagic, Nat.not_lt.mp hsize.1, hsize_le, hregions, htexts, hdevices,
      fun index hindex ↦ Header.exists_hasFile.mp (hfiles index hindex),
      fun index hindex ↦ Header.exists_hasCommand.mp (hcommands index hindex)⟩
  · rintro ⟨hdecode, hsound⟩
    refine ⟨h, hdecode, refuse_eq_ok.mpr ⟨not_not.mpr hsound.magic, refuse_eq_ok.mpr ⟨?_, ?_⟩⟩⟩
    · rintro (hshort | hlong)
      · exact Nat.not_lt.mpr hsound.length_le hshort
      · exact Nat.not_lt.mpr hsound.size_le hlong
    · simp only [bind_eq_ok, pure_eq_ok]
      refine ⟨(), Header.checkRegions_eq_ok.mpr hsound.regions, (), ?_, trivial⟩
      exact (hsound.regions.checkRecords_eq_ok hsound.size_le).mpr ⟨hsound.texts, hsound.devices,
        fun index hindex ↦ Header.exists_hasFile.mpr (hsound.files index hindex),
        fun index hindex ↦ Header.exists_hasCommand.mpr (hsound.commands index hindex)⟩

end BootNamespace.Image
