import BootNamespace.Image.Spec
import BootNamespace.Proofs.Image.Traced

namespace BootNamespace.Image

/-- What a parsed image may be asked for, by the type of the answer. -/
inductive Query : Type → Type
  | version : Query String
  | arch : Query String
  | machine : Query String
  | ram : Query Ram
  | irq : Query Irq
  | device (index : Nat) : Query Device
  | file (index : Nat) : Query EmbeddedFile
  | command (index : Nat) : Query StartupCommand

namespace Query

variable {α : Type}

def InRange (h : Header) : Query α → Prop
  | device index => index < h.devicesCount.toNat
  | file index => index < h.filesCount.toNat
  | command index => index < h.commandsCount.toNat
  | _ => True

def trace (h : Header) (blob : Bytes) : Query α → Traced α
  | version => h.traceString blob h.version
  | arch => h.traceString blob h.arch
  | machine => h.traceString blob h.machine
  | ram => h.traceRam blob
  | irq => h.traceIrq blob
  | device index => h.traceDevice blob index
  | file index => h.traceFile blob index
  | command index => h.traceCommand blob index

end Query

namespace BootImage

variable {α : Type}

def held? : BootImage → Option Bytes
  | unmapped => none
  | mapped blob | parsed blob _ => some blob

def ask (image : BootImage) : Query α → Except ImageError α
  | .version => image.version
  | .arch => image.arch
  | .machine => image.machine
  | .ram => image.ram
  | .irq => image.irq
  | .device index => image.device index
  | .file index => image.file index
  | .command index => image.command index

/-- Every question within the counts is answered, every other refused by its index, and the way to
an answer stays inside the image. -/
structure Serves (image : BootImage) (h : Header) (blob : Bytes) : Prop where
  header : image.header = .ok h
  deviceCount : image.deviceCount = .ok h.devicesCount.toNat
  fileCount : image.fileCount = .ok h.filesCount.toNat
  commandCount : image.commandCount = .ok h.commandsCount.toNat
  answer : ∀ {α : Type} (q : Query α), q.InRange h → ∃ a, image.ask q = .ok a
  no_device : ∀ index, h.devicesCount.toNat ≤ index →
    image.device index = .error (.indexOutOfRange .device index)
  no_file : ∀ index, h.filesCount.toNat ≤ index →
    image.file index = .error (.indexOutOfRange .file index)
  no_command : ∀ index, h.commandsCount.toNat ≤ index →
    image.command index = .error (.indexOutOfRange .command index)
  file_lt : ∀ index command, image.command index = .ok command →
    command.file < h.filesCount.toNat
  way : ∀ {α : Type} (q : Query α),
    (q.trace h blob).result = image.ask q ∧ (q.trace h blob).Within h.size.toNat

end BootImage

variable {h : Header} {blob : Bytes} {index : Nat} {α : Type}

theorem recordStart_past {offset count : UInt32} {length : Nat} {table : Table}
    (hindex : count.toNat ≤ index) :
    recordStart offset count length index table = .error (.indexOutOfRange table index) :=
  if_neg (Nat.not_lt.mpr hindex)

theorem Query.trace_result (q : Query α) :
    (q.trace h blob).result = (BootImage.parsed blob h).ask q := by
  cases q with
  | version | arch | machine => rfl
  | ram => exact Header.traceRam_result
  | irq => exact Header.traceIrq_result
  | device index => exact Header.traceDevice_result
  | file index => exact Header.traceFile_result
  | command index => exact Header.traceCommand_result

namespace Header

theorem Regions.trace_within (hregions : h.Regions h.size.toNat) (q : Query α) :
    (q.trace h blob).Within h.size.toNat := by
  cases q with
  | version | arch | machine => exact hregions.traceString_within
  | ram => exact hregions.traceRam_within
  | irq => exact hregions.traceIrq_within
  | device index => exact hregions.traceDevice_within
  | file index => exact hregions.traceFile_within
  | command index => exact hregions.traceCommand_within

theorem WellFormed.answer (hsound : h.WellFormed blob) (q : Query α) (hq : q.InRange h) :
    ∃ a, (BootImage.parsed blob h).ask q = .ok a := by
  have hregions := hsound.regions
  have hsize := hsound.size_le
  have htext (offset : UInt32) (hoffset : offset ∈ [h.version, h.arch, h.machine]) :
      ∃ text, h.readString blob offset = .ok text := by
    obtain ⟨text, htext⟩ := hsound.texts offset hoffset
    exact ⟨text, (hregions.readString_eq_ok hsize).mpr htext⟩
  cases q with
  | version => exact htext _ (by simp)
  | arch => exact htext _ (by simp)
  | machine => exact htext _ (by simp)
  | ram => exact ⟨⟨_, _⟩, (readRam_eq_ok (Nat.le_trans hregions.ram hsize)).mpr ⟨rfl, rfl⟩⟩
  | irq => exact ⟨⟨_, _⟩, (readIrq_eq_ok (Nat.le_trans hregions.irq hsize)).mpr ⟨rfl, rfl⟩⟩
  | device index =>
    obtain ⟨name, hname⟩ := hsound.devices index hq
    exact ⟨⟨name, _, _, _⟩, (hregions.readDevice_eq_ok hsize hq).mpr ⟨rfl, rfl, rfl, hname⟩⟩
  | file index =>
    obtain ⟨file, hfile⟩ := exists_hasFile.mpr (hsound.files index hq)
    exact ⟨file, (hregions.readFile_eq_ok hsize hq).mpr hfile⟩
  | command index =>
    obtain ⟨command, hcommand⟩ := exists_hasCommand.mpr (hsound.commands index hq)
    exact ⟨command, (hregions.readCommand_eq_ok hsize hq).mpr hcommand⟩

theorem readDevice_past (hindex : h.devicesCount.toNat ≤ index) :
    h.readDevice blob index = .error (.indexOutOfRange .device index) := by
  simp only [readDevice, recordStart_past hindex]
  rfl

theorem readFile_past (hindex : h.filesCount.toNat ≤ index) :
    h.readFile blob index = .error (.indexOutOfRange .file index) := by
  simp only [readFile, recordStart_past hindex]
  rfl

theorem readCommand_past (hindex : h.commandsCount.toNat ≤ index) :
    h.readCommand blob index = .error (.indexOutOfRange .command index) := by
  simp only [readCommand, recordStart_past hindex]
  rfl

theorem WellFormed.file_lt (hsound : h.WellFormed blob) {command : StartupCommand}
    (hcommand : h.readCommand blob index = .ok command) : command.file < h.filesCount.toNat := by
  rcases Nat.lt_or_ge index h.commandsCount.toNat with hlt | hge
  · exact ((hsound.regions.readCommand_eq_ok hsound.size_le hlt).mp hcommand).file_lt
  · rw [readCommand_past hge] at hcommand
    cases hcommand

theorem WellFormed.serves (hsound : h.WellFormed blob) :
    (BootImage.parsed blob h).Serves h blob where
  header := rfl
  deviceCount := rfl
  fileCount := rfl
  commandCount := rfl
  answer := hsound.answer
  no_device _ := readDevice_past
  no_file _ := readFile_past
  no_command _ := readCommand_past
  file_lt _ _ := hsound.file_lt
  way q := ⟨q.trace_result, hsound.regions.trace_within q⟩

end Header

namespace BootImage

variable {image : BootImage} {e : ImageError}

theorem parse_of_ok (hheld : image.held? = some blob) (hvalid : validate blob = .ok h) :
    image.parse = (.ok h, .parsed blob h) := by
  cases image with
  | unmapped => cases hheld
  | mapped | parsed =>
    cases hheld
    simp only [parse, hvalid]

theorem parse_of_error (hheld : image.held? = some blob) (hvalid : validate blob = .error e) :
    image.parse = (.error e, .mapped blob) := by
  cases image with
  | unmapped => cases hheld
  | mapped | parsed =>
    cases hheld
    simp only [parse, hvalid]

theorem parse_eq_ok (hheld : image.held? = some blob) :
    image.parse.1 = .ok h ↔ validate blob = .ok h ∧ image.parse.2 = .parsed blob h := by
  cases hvalid : validate blob with
  | error e => simp [parse_of_error hheld hvalid]
  | ok header => simp [parse_of_ok hheld hvalid, eq_comm]

end BootImage

/-- Parsing takes exactly the well-formed images, and what it has taken answers every question
without a look past the image's end. -/
theorem parse_sound_complete {image : BootImage} (hheld : image.held? = some blob) :
    ((∃ h, image.parse.1 = .ok h) ↔ ∃ h, Header.decode blob = .ok h ∧ h.WellFormed blob) ∧
    ∀ h, image.parse.1 = .ok h → image.parse.2.Serves h blob ∧
      (traceValidate blob).result = .ok h ∧ (traceValidate blob).Within h.size.toNat := by
  constructor
  · constructor
    · rintro ⟨h, hok⟩
      exact ⟨h, validate_eq_ok.mp ((BootImage.parse_eq_ok hheld).mp hok).1⟩
    · rintro ⟨h, hsound⟩
      have hvalid := validate_eq_ok.mpr hsound
      cases image with
      | unmapped => cases hheld
      | mapped blob' | parsed blob' _ =>
        cases hheld
        exact ⟨h, by simp only [BootImage.parse, hvalid]⟩
  · intro h hok
    obtain ⟨hvalid, hparsed⟩ := (BootImage.parse_eq_ok hheld).mp hok
    obtain ⟨hdecode, hsound⟩ := validate_eq_ok.mp hvalid
    rw [hparsed]
    exact ⟨hsound.serves, traceValidate_result.trans hvalid, traceValidate_within hdecode hsound⟩

/-- Two of the files share a name, and one of those has a kind of its own. -/
def smallSpec : ImageSpec :=
  { ImageSpec.new "1.0" "arm" "sunxi" with
    devices := [⟨"uart0", 0x01C28000, 0x400⟩]
    files := [⟨"init", .exec, [1, 2, 3], none⟩, ⟨"cfg", .unknown 7, [], none⟩,
      ⟨"cfg", .obj, [9], none⟩]
    commands := [⟨"cfg", 1, 0, ""⟩, ⟨"init", 2, 1, "-v"⟩] }

theorem small_image_served : (BootImage.mapped smallSpec.build).held? = some smallSpec.build ∧
    ∃ h, (BootImage.mapped smallSpec.build).parse.1 = .ok h ∧ h.devicesCount = 1 ∧
      h.filesCount = 3 ∧ h.commandsCount = 2 ∧
      (BootImage.mapped smallSpec.build).parse.2.Serves h smallSpec.build ∧
      (traceValidate smallSpec.build).result = .ok h ∧
      (traceValidate smallSpec.build).Within h.size.toNat := by
  have hheld : (BootImage.mapped smallSpec.build).held? = some smallSpec.build := rfl
  have hok : (BootImage.mapped smallSpec.build).parse.1 = .ok smallSpec.header := by
    decide +kernel
  exact ⟨hheld, smallSpec.header, hok, rfl, rfl, rfl,
    (parse_sound_complete hheld).2 smallSpec.header hok⟩

end BootNamespace.Image
