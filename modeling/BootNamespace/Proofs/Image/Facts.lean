import Mathlib.Data.List.Forall2
import BootNamespace.Bootstrap
import BootNamespace.Proofs.Image.Parse

namespace BootNamespace.Image

/-- What a bootstrap takes out of an image, each table in its order. -/
structure Facts where
  version : String
  arch : String
  machine : String
  ram : Ram
  devices : List Device
  files : List EmbeddedFile
  commands : List StartupCommand
  deriving DecidableEq, Repr

/-- The answers of an accessor to the numbers below their count. -/
def Answers {α : Type} (f : Nat → Except ImageError α) (answers : List α) : Prop :=
  List.Forall₂ (fun index answer ↦ f index = .ok answer) (List.range answers.length) answers

/-- Every accessor that a bootstrap asks answers with these facts. -/
structure BootImage.Tells (image : BootImage) (facts : Facts) : Prop where
  summary : ∃ lines, image.summary = .ok lines
  version : image.version = .ok facts.version
  arch : image.arch = .ok facts.arch
  machine : image.machine = .ok facts.machine
  ram : image.ram = .ok facts.ram
  deviceCount : image.deviceCount = .ok facts.devices.length
  devices : Answers image.device facts.devices
  fileCount : image.fileCount = .ok facts.files.length
  files : Answers image.file facts.files
  commandCount : image.commandCount = .ok facts.commands.length
  commands : Answers image.command facts.commands

section Lists

variable {α β ε : Type} {R : α → β → Prop} {as : List α} {bs : List β}

theorem exists_forall₂ (h : ∀ a ∈ as, ∃ b, R a b) : ∃ bs, List.Forall₂ R as bs := by
  induction as with
  | nil => exact ⟨[], .nil⟩
  | cons a as ih =>
    obtain ⟨b, hb⟩ := h a List.mem_cons_self
    obtain ⟨bs, hbs⟩ := ih fun a' ha' ↦ h a' (List.mem_cons_of_mem _ ha')
    exact ⟨b :: bs, .cons hb hbs⟩

theorem mapM_of_forall₂ {f : α → Except ε β} (h : List.Forall₂ (fun a b ↦ f a = .ok b) as bs) :
    as.mapM f = .ok bs := by
  induction h with
  | nil => rfl
  | cons hb _ ih =>
    rw [List.mapM_cons, hb, ih]
    rfl

theorem exists_answers {f : Nat → Except ImageError α} {count : Nat}
    (h : ∀ index < count, ∃ answer, f index = .ok answer) :
    ∃ answers, answers.length = count ∧ Answers f answers := by
  have hall : ∀ index ∈ List.range count, ∃ answer, f index = .ok answer :=
    fun index hindex ↦ h index (List.mem_range.mp hindex)
  obtain ⟨answers, hanswers⟩ := exists_forall₂ hall
  have hlength : answers.length = count := by
    rw [← hanswers.length_eq, List.length_range]
  exact ⟨answers, hlength, by rwa [Answers, hlength]⟩

end Lists

variable {image : BootImage} {h : Header} {blob : Bytes} {facts : Facts}

theorem BootImage.Serves.tells (hserves : image.Serves h blob) : ∃ facts, image.Tells facts := by
  obtain ⟨version, hversion⟩ := hserves.answer .version trivial
  obtain ⟨arch, harch⟩ := hserves.answer .arch trivial
  obtain ⟨machine, hmachine⟩ := hserves.answer .machine trivial
  obtain ⟨ram, hram⟩ := hserves.answer .ram trivial
  obtain ⟨devices, hdeviceCount, hdevices⟩ :=
    exists_answers fun index hindex ↦ hserves.answer (.device index) hindex
  obtain ⟨files, hfileCount, hfiles⟩ :=
    exists_answers fun index hindex ↦ hserves.answer (.file index) hindex
  obtain ⟨commands, hcommandCount, hcommands⟩ :=
    exists_answers fun index hindex ↦ hserves.answer (.command index) hindex
  have hsummary : ∃ lines, image.summary = .ok lines := by
    change image.version = .ok version at hversion
    change image.arch = .ok arch at harch
    change image.machine = .ok machine at hmachine
    rw [BootImage.summary, hserves.header, hversion, harch, hmachine]
    exact ⟨_, rfl⟩
  refine ⟨⟨version, arch, machine, ram, devices, files, commands⟩, ?_⟩
  exact {
    summary := hsummary
    version := hversion
    arch := harch
    machine := hmachine
    ram := hram
    deviceCount := by rw [hserves.deviceCount, hdeviceCount]
    devices := hdevices
    fileCount := by rw [hserves.fileCount, hfileCount]
    files := hfiles
    commandCount := by rw [hserves.commandCount, hcommandCount]
    commands := hcommands }

/-- What an image tells, read off its accessors. -/
def BootImage.facts? (image : BootImage) : Except ImageError Facts := do
  return ⟨← image.version, ← image.arch, ← image.machine, ← image.ram,
    ← (List.range (← image.deviceCount)).mapM image.device,
    ← (List.range (← image.fileCount)).mapM image.file,
    ← (List.range (← image.commandCount)).mapM image.command⟩

theorem BootImage.Tells.facts?_eq (h : image.Tells facts) : image.facts? = .ok facts := by
  simp only [facts?, h.version, h.arch, h.machine, h.ram, h.deviceCount, h.fileCount,
    h.commandCount, mapM_of_forall₂ h.devices, mapM_of_forall₂ h.files, mapM_of_forall₂ h.commands,
    bind, Except.bind, pure, Except.pure]

/-- Once the checks have found an image sound, nothing that a bootstrap asks of it fails. -/
theorem tells_of_validate (hvalid : validate blob = .ok h) :
    ∃ facts, (BootImage.parsed blob h).Tells facts :=
  (validate_eq_ok.mp hvalid).2.serves.tells

end BootNamespace.Image
