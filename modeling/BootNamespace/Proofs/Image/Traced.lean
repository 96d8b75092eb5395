import BootNamespace.Proofs.Image.Format

namespace BootNamespace.Image

/-- What a reader does on its way: it works out a position, or takes the bytes between two. -/
inductive Probe where
  | position (value : Nat)
  | slice (start stop : Nat)

/-- The position fits a 64-bit word, or the slice is one of the first `limit` bytes. -/
def Probe.Within (limit : Nat) : Probe → Prop
  | .position value => value < UInt64.size
  | .slice start stop => start ≤ stop ∧ stop ≤ limit

/-- An outcome, and everything done on the way to it. -/
structure Traced (α : Type) where
  result : Except ImageError α
  probes : List Probe

namespace Traced

variable {α β γ : Type} {x : Traced α} {f : α → Traced β} {limit : Nat}

instance : Monad Traced where
  pure a := ⟨.ok a, []⟩
  bind x f :=
    match x.result with
    | .ok a => ⟨(f a).result, x.probes ++ (f a).probes⟩
    | .error e => ⟨.error e, x.probes⟩

def quiet (result : Except ImageError α) : Traced α := ⟨result, []⟩

theorem result_bind : (x >>= f).result = x.result >>= fun a ↦ (f a).result := by
  obtain ⟨result, probes⟩ := x
  cases result with
  | error e => rfl
  | ok a => rfl

theorem result_pure (a : α) : (pure a : Traced α).result = pure a := rfl

theorem result_loop (xs : List α) (f : α → Traced γ) :
    (forIn xs PUnit.unit fun x _ ↦ do
      let _ ← f x
      pure (ForInStep.yield PUnit.unit) : Traced PUnit).result =
    (forIn xs PUnit.unit fun x _ ↦ do
      let _ ← (f x).result
      pure (ForInStep.yield PUnit.unit)) := by
  induction xs with
  | nil => rfl
  | cons x xs ih =>
    simp only [List.forIn_cons, result_bind]
    cases hx : (f x).result with
    | error e => rfl
    | ok a => exact ih

def Within (limit : Nat) (x : Traced α) : Prop := ∀ probe ∈ x.probes, probe.Within limit

theorem within_quiet (result : Except ImageError α) : (quiet result).Within limit := by
  intro probe hprobe
  cases hprobe

theorem within_pure (a : α) : (pure a : Traced α).Within limit := within_quiet (.ok a)

theorem within_bind (hx : x.Within limit) (hf : ∀ a, x.result = .ok a → (f a).Within limit) :
    (x >>= f).Within limit := by
  obtain ⟨result, probes⟩ := x
  cases result with
  | error e => exact hx
  | ok a =>
    intro probe hprobe
    rcases List.mem_append.mp hprobe with hprobe | hprobe
    · exact hx probe hprobe
    · exact hf a rfl probe hprobe

theorem within_loop {xs : List α} {f : α → Traced γ} (h : ∀ x ∈ xs, (f x).Within limit) :
    (forIn xs PUnit.unit fun x _ ↦ do
      let _ ← f x
      pure (ForInStep.yield PUnit.unit) : Traced PUnit).Within limit := by
  induction xs with
  | nil => exact within_pure PUnit.unit
  | cons x xs ih =>
    rw [List.forIn_cons]
    refine within_bind (within_bind (h x List.mem_cons_self) fun _ _ ↦ within_pure _) ?_
    intro step hstep
    have hyield : step = ForInStep.yield PUnit.unit := by
      rw [result_bind, bind_eq_ok] at hstep
      obtain ⟨a, -, ha⟩ := hstep
      cases ha
      rfl
    subst hyield
    exact ih fun x hx ↦ h x (List.mem_cons_of_mem _ hx)

end Traced

open Traced

def traceWord (blob : Bytes) (pos : Nat) : Traced UInt32 :=
  ⟨readWord blob pos, [.position pos, .position (pos + 4), .slice pos (pos + 4)]⟩

def traceHalf (blob : Bytes) (pos : Nat) : Traced UInt16 :=
  ⟨readHalf blob pos, [.position pos, .position (pos + 2), .slice pos (pos + 2)]⟩

def traceRegion (offset count : UInt32) (length limit : Nat) (region : Region) : Traced Nat :=
  ⟨checkRegion offset count length limit region,
    [.position (count.toNat * length), .position (offset.toNat + count.toNat * length)]⟩

def traceStart (offset count : UInt32) (length index : Nat) (table : Table) : Traced Nat :=
  ⟨recordStart offset count length index table,
    if index < count.toNat then
      [.position (index * length), .position (offset.toNat + index * length)]
    else []⟩

def traceSlice (start length : Nat) : Traced Unit :=
  ⟨.ok (), [.position (start + length), .slice start (start + length)]⟩

namespace Header

variable (h : Header) (blob : Bytes)

/-- The rest of the string table is taken first, then the text in it. -/
def traceString (offset : UInt32) : Traced String :=
  let start := h.namesOffset.toNat + offset.toNat
  let stop := h.namesOffset.toNat + h.namesSize.toNat
  let text := ((blob.take stop).drop start).takeWhile (· ≠ 0)
  ⟨h.readString blob offset,
    if h.namesSize ≤ offset then []
    else [.position start, .position stop, .slice start stop, .slice start (start + text.length)]⟩

def traceRam : Traced Ram := do
  let addr ← traceWord blob h.ramOffset.toNat
  let size ← traceWord blob (h.ramOffset.toNat + 4)
  return ⟨addr, size⟩

def traceIrq : Traced Irq := do
  let privilege ← traceWord blob h.irqOffset.toNat
  let shared ← traceWord blob (h.irqOffset.toNat + 4)
  return ⟨privilege, shared⟩

def traceDevice (index : Nat) : Traced Device := do
  let start ← traceStart h.devicesOffset h.devicesCount deviceLength index .device
  let addr ← traceWord blob start
  let size ← traceWord blob (start + 4)
  let access ← traceWord blob (start + 8)
  let name ← h.traceString blob (← traceWord blob (start + 12))
  return ⟨name, addr, size, access⟩

def traceFile (index : Nat) : Traced EmbeddedFile := do
  let start ← traceStart h.filesOffset h.filesCount fileLength index .file
  let kind ← traceWord blob start
  let size ← traceWord blob (start + 4)
  let offset ← traceWord blob (start + 8)
  let name ← h.traceString blob (← traceWord blob (start + 12))
  let data ← traceRegion offset size 1 h.size.toNat .fileData
  traceSlice data size.toNat
  return ⟨name, .ofCode kind, (blob.drop data).take size.toNat⟩

def traceCommand (index : Nat) : Traced StartupCommand := do
  let start ← traceStart h.commandsOffset h.commandsCount commandLength index .command
  let file ← quiet (h.fileAt (← traceWord blob (start + 8)))
  let kind ← traceWord blob start
  let priority ← traceHalf blob (start + 4)
  let privilege ← traceHalf blob (start + 6)
  let arguments ← h.traceString blob (← traceWord blob (start + 12))
  return ⟨kind, priority, privilege, file, arguments⟩

def traceDecode : Traced Header :=
  ⟨decode blob,
    if blob.length < length then []
    else (List.range 15).flatMap fun i ↦
      [.position (4 * i), .position (4 * i + 4), .slice (4 * i) (4 * i + 4)]⟩

def traceRegions (limit : Nat) : Traced Unit := do
  let _ ← traceRegion h.ramOffset 1 ramLength limit .ramDescriptor
  let _ ← traceRegion h.irqOffset 1 irqLength limit .irqDescriptor
  let _ ← traceRegion h.namesOffset h.namesSize 1 limit .stringTable
  let _ ← traceRegion h.devicesOffset h.devicesCount deviceLength limit .deviceTable
  let _ ← traceRegion h.filesOffset h.filesCount fileLength limit .fileTable
  let _ ← traceRegion h.commandsOffset h.commandsCount commandLength limit .commandTable

def traceDeviceCheck (index : Nat) : Traced Unit := do
  let start ← traceStart h.devicesOffset h.devicesCount deviceLength index .device
  let _ ← h.traceString blob (← traceWord blob (start + 12))

def traceRecords : Traced Unit := do
  for offset in [h.version, h.arch, h.machine] do
    let _ ← h.traceString blob offset
  for index in List.range h.devicesCount.toNat do
    h.traceDeviceCheck blob index
  for index in List.range h.filesCount.toNat do
    let _ ← h.traceFile blob index
  for index in List.range h.commandsCount.toNat do
    let _ ← h.traceCommand blob index

end Header

def traceValidate (blob : Bytes) : Traced Header := do
  let h ← Header.traceDecode blob
  quiet (if h.magic ≠ Header.magicWord then .error (.badMagic h.magic) else .ok ())
  quiet (if h.size.toNat < Header.length ∨ blob.length < h.size.toNat then
    .error (.truncated (max h.size.toNat Header.length) blob.length) else .ok ())
  h.traceRegions h.size.toNat
  h.traceRecords blob
  return h

variable {h : Header} {blob : Bytes} {pos index limit length : Nat} {offset count : UInt32}

namespace Header

theorem traceRam_result : (h.traceRam blob).result = h.readRam blob := by
  simp only [traceRam, readRam, result_bind, result_pure, traceWord]

theorem traceIrq_result : (h.traceIrq blob).result = h.readIrq blob := by
  simp only [traceIrq, readIrq, result_bind, result_pure, traceWord]

theorem traceDevice_result : (h.traceDevice blob index).result = h.readDevice blob index := by
  simp only [traceDevice, readDevice, result_bind, result_pure, traceStart, traceWord, traceString]

theorem traceFile_result : (h.traceFile blob index).result = h.readFile blob index := by
  simp only [traceFile, readFile, result_bind, result_pure, traceStart, traceWord, traceString,
    traceRegion, traceSlice]
  rfl

theorem traceCommand_result : (h.traceCommand blob index).result = h.readCommand blob index := by
  simp only [traceCommand, readCommand, result_bind, result_pure, traceStart, traceWord, traceHalf,
    traceString, quiet]

theorem traceRegions_result : (h.traceRegions limit).result = h.checkRegions limit := by
  simp only [traceRegions, checkRegions, result_bind, result_pure, traceRegion]

theorem traceDeviceCheck_result :
    (h.traceDeviceCheck blob index).result = h.checkDevice blob index := by
  simp only [traceDeviceCheck, checkDevice, result_bind, result_pure, traceStart, traceWord,
    traceString]

theorem traceRecords_result : (h.traceRecords blob).result = h.checkRecords blob := by
  simp only [traceRecords, checkRecords, result_bind, result_pure, result_loop,
    traceDeviceCheck_result, traceFile_result, traceCommand_result, traceString]

end Header

theorem traceValidate_result : (traceValidate blob).result = validate blob := by
  simp only [traceValidate, validate, result_bind, result_pure, Header.traceRegions_result,
    Header.traceRecords_result, Header.traceDecode, quiet]
  congr 1
  funext h
  by_cases hmagic : h.magic = Header.magicWord
  · by_cases hsize : h.size.toNat < Header.length ∨ blob.length < h.size.toNat
    · simp only [hmagic, hsize, if_true, ne_eq, not_true_eq_false, if_false]
      rfl
    · simp only [hmagic, hsize, ne_eq, not_true_eq_false, if_false]
      rfl
  · simp only [hmagic, ne_eq, not_false_eq_true, if_true]
    rfl

theorem within_read {α : Type} (result : Except ImageError α) {width : Nat}
    (hfit : pos + width ≤ limit) (hlimit : limit < UInt64.size) :
    (⟨result, [.position pos, .position (pos + width), .slice pos (pos + width)]⟩ :
      Traced α).Within limit := by
  simp only [Within, List.mem_cons, List.not_mem_nil, or_false]
  rintro probe (rfl | rfl | rfl)
  · exact Nat.lt_of_le_of_lt (by omega) hlimit
  · exact Nat.lt_of_le_of_lt hfit hlimit
  · exact ⟨by omega, hfit⟩

theorem traceWord_within (hfit : pos + 4 ≤ limit) (hlimit : limit < UInt64.size) :
    (traceWord blob pos).Within limit :=
  within_read _ hfit hlimit

theorem traceHalf_within (hfit : pos + 2 ≤ limit) (hlimit : limit < UInt64.size) :
    (traceHalf blob pos).Within limit :=
  within_read _ hfit hlimit

/-- A product of a 32-bit count and a record's length stays far from the end of a 64-bit word. -/
theorem position_lt {n : Nat} (offset : UInt32) (hn : n ≤ count.toNat) (hlength : length ≤ 16) :
    n * length < UInt64.size ∧ offset.toNat + n * length < UInt64.size := by
  have hcount := count.toNat_lt
  have hoffset := offset.toNat_lt
  have hproduct : n * length ≤ count.toNat * 16 := Nat.mul_le_mul hn hlength
  unfold UInt64.size
  omega

theorem traceRegion_within {region : Region} {stop : Nat} (hlength : length ≤ 16) :
    (traceRegion offset count length stop region).Within limit := by
  have hlt := position_lt offset (Nat.le_refl count.toNat) hlength
  simp only [traceRegion, Within, List.mem_cons, List.not_mem_nil, or_false]
  rintro probe (rfl | rfl)
  · exact hlt.1
  · exact hlt.2

theorem traceStart_within {table : Table} (hlength : length ≤ 16) :
    (traceStart offset count length index table).Within limit := by
  unfold traceStart Within
  split
  next hindex =>
    have hlt := position_lt offset (Nat.le_of_lt hindex) hlength
    simp only [List.mem_cons, List.not_mem_nil, or_false]
    rintro probe (rfl | rfl)
    · exact hlt.1
    · exact hlt.2
  next =>
    intro probe hprobe
    cases hprobe

theorem traceSlice_within {start : Nat} (hfit : start + length ≤ limit)
    (hlimit : limit < UInt64.size) : (traceSlice start length).Within limit := by
  simp only [traceSlice, Within, List.mem_cons, List.not_mem_nil, or_false]
  rintro probe (rfl | rfl)
  · exact Nat.lt_of_le_of_lt hfit hlimit
  · exact ⟨by omega, hfit⟩

namespace Header

theorem size_lt : h.size.toNat < UInt64.size :=
  Nat.lt_trans h.size.toNat_lt (by decide)

theorem traceDecode_within (hlength : Header.length ≤ limit) :
    (traceDecode blob).Within limit := by
  unfold traceDecode Within
  split
  · intro probe hprobe
    cases hprobe
  · simp only [List.mem_flatMap, List.mem_range, List.mem_cons, List.not_mem_nil, or_false]
    unfold Header.length at hlength
    rintro probe ⟨i, hi, rfl | rfl | rfl⟩
    · simp only [Probe.Within, UInt64.size]
      omega
    · simp only [Probe.Within, UInt64.size]
      omega
    · simp only [Probe.Within]
      omega

section Readers

variable (hregions : h.Regions h.size.toNat)

include hregions

theorem Regions.traceString_within : (h.traceString blob offset).Within h.size.toNat := by
  have hnames := hregions.names
  have hsize := size_lt (h := h)
  unfold traceString Within
  dsimp only
  split
  next =>
    intro probe hprobe
    cases hprobe
  next hoffset =>
    have hlt : offset.toNat < h.namesSize.toNat := by
      rwa [UInt32.le_iff_toNat_le, Nat.not_le] at hoffset
    have htext := List.IsPrefix.length_le (List.takeWhile_prefix (· ≠ 0)
      (l := (blob.take (h.namesOffset.toNat + h.namesSize.toNat)).drop
        (h.namesOffset.toNat + offset.toNat)))
    rw [List.length_drop, List.length_take] at htext
    simp only [List.mem_cons, List.not_mem_nil, or_false]
    rintro probe (rfl | rfl | rfl | rfl)
    · simp only [Probe.Within]
      omega
    · simp only [Probe.Within]
      omega
    · simp only [Probe.Within]
      omega
    · simp only [Probe.Within]
      omega

theorem Regions.traceRam_within : (h.traceRam blob).Within h.size.toNat := by
  have hram := hregions.ram
  unfold ramLength at hram
  refine within_bind (traceWord_within (by omega) size_lt) fun _ _ ↦ ?_
  refine within_bind (traceWord_within (by omega) size_lt) fun _ _ ↦ ?_
  exact within_pure _

theorem Regions.traceIrq_within : (h.traceIrq blob).Within h.size.toNat := by
  have hirq := hregions.irq
  unfold irqLength at hirq
  refine within_bind (traceWord_within (by omega) size_lt) fun _ _ ↦ ?_
  refine within_bind (traceWord_within (by omega) size_lt) fun _ _ ↦ ?_
  exact within_pure _

theorem Regions.traceDevice_within : (h.traceDevice blob index).Within h.size.toNat := by
  refine within_bind (traceStart_within (by decide)) fun start hstart ↦ ?_
  obtain ⟨hindex, rfl⟩ := recordStart_eq_ok.mp hstart
  have hfit := hregions.device_le hindex
  unfold deviceStart at hfit
  refine within_bind (traceWord_within (by omega) size_lt) fun _ _ ↦ ?_
  refine within_bind (traceWord_within (by omega) size_lt) fun _ _ ↦ ?_
  refine within_bind (traceWord_within (by omega) size_lt) fun _ _ ↦ ?_
  refine within_bind (traceWord_within (by omega) size_lt) fun _ _ ↦ ?_
  refine within_bind hregions.traceString_within fun _ _ ↦ ?_
  exact within_pure _

theorem Regions.traceFile_within : (h.traceFile blob index).Within h.size.toNat := by
  refine within_bind (traceStart_within (by decide)) fun start hstart ↦ ?_
  obtain ⟨hindex, rfl⟩ := recordStart_eq_ok.mp hstart
  have hfit := hregions.file_le hindex
  unfold fileStart at hfit
  refine within_bind (traceWord_within (by omega) size_lt) fun _ _ ↦ ?_
  refine within_bind (traceWord_within (by omega) size_lt) fun _ _ ↦ ?_
  refine within_bind (traceWord_within (by omega) size_lt) fun _ _ ↦ ?_
  refine within_bind (traceWord_within (by omega) size_lt) fun _ _ ↦ ?_
  refine within_bind hregions.traceString_within fun _ _ ↦ ?_
  refine within_bind (traceRegion_within (by decide)) fun data hdata ↦ ?_
  obtain ⟨hinside, rfl⟩ := checkRegion_eq_ok.mp hdata
  rw [Nat.mul_one] at hinside
  refine within_bind (traceSlice_within hinside size_lt) fun _ _ ↦ ?_
  exact within_pure _

theorem Regions.traceCommand_within : (h.traceCommand blob index).Within h.size.toNat := by
  refine within_bind (traceStart_within (by decide)) fun start hstart ↦ ?_
  obtain ⟨hindex, rfl⟩ := recordStart_eq_ok.mp hstart
  have hfit := hregions.command_le hindex
  unfold commandStart at hfit
  refine within_bind (traceWord_within (by omega) size_lt) fun _ _ ↦ ?_
  refine within_bind (within_quiet _) fun _ _ ↦ ?_
  refine within_bind (traceWord_within (by omega) size_lt) fun _ _ ↦ ?_
  refine within_bind (traceHalf_within (by omega) size_lt) fun _ _ ↦ ?_
  refine within_bind (traceHalf_within (by omega) size_lt) fun _ _ ↦ ?_
  refine within_bind (traceWord_within (by omega) size_lt) fun _ _ ↦ ?_
  refine within_bind hregions.traceString_within fun _ _ ↦ ?_
  exact within_pure _

theorem Regions.traceDeviceCheck_within :
    (h.traceDeviceCheck blob index).Within h.size.toNat := by
  refine within_bind (traceStart_within (by decide)) fun start hstart ↦ ?_
  obtain ⟨hindex, rfl⟩ := recordStart_eq_ok.mp hstart
  have hfit := hregions.device_le hindex
  unfold deviceStart at hfit
  refine within_bind (traceWord_within (by omega) size_lt) fun _ _ ↦ ?_
  refine within_bind hregions.traceString_within fun _ _ ↦ ?_
  exact within_pure _

theorem Regions.traceRecords_within : (h.traceRecords blob).Within h.size.toNat := by
  refine within_bind (within_loop fun _ _ ↦ hregions.traceString_within) fun _ _ ↦ ?_
  refine within_bind (within_loop fun _ _ ↦ hregions.traceDeviceCheck_within) fun _ _ ↦ ?_
  refine within_bind (within_loop fun _ _ ↦ hregions.traceFile_within) fun _ _ ↦ ?_
  refine within_bind (within_loop fun _ _ ↦ hregions.traceCommand_within) fun _ _ ↦ ?_
  exact within_pure _

end Readers

theorem traceRegions_within : (h.traceRegions limit).Within limit := by
  refine within_bind (traceRegion_within (by decide)) fun _ _ ↦ ?_
  refine within_bind (traceRegion_within (by decide)) fun _ _ ↦ ?_
  refine within_bind (traceRegion_within (by decide)) fun _ _ ↦ ?_
  refine within_bind (traceRegion_within (by decide)) fun _ _ ↦ ?_
  refine within_bind (traceRegion_within (by decide)) fun _ _ ↦ ?_
  refine within_bind (traceRegion_within (by decide)) fun _ _ ↦ ?_
  exact within_pure _

end Header

/-- The checks work out no position past a word and look at nothing behind the end of the image,
whether they find it sound or not. -/
theorem traceValidate_within_size (hdecode : Header.decode blob = .ok h)
    (hlength : Header.length ≤ h.size.toNat) : (traceValidate blob).Within h.size.toNat := by
  refine within_bind (Header.traceDecode_within hlength) fun header hheader ↦ ?_
  obtain rfl : h = header := Except.ok.inj (hdecode.symm.trans hheader)
  refine within_bind (within_quiet _) fun _ _ ↦ ?_
  refine within_bind (within_quiet _) fun _ _ ↦ ?_
  refine within_bind Header.traceRegions_within fun u hregions ↦ ?_
  have hregions := Header.checkRegions_eq_ok.mp (Header.traceRegions_result.symm.trans hregions)
  refine within_bind hregions.traceRecords_within fun _ _ ↦ ?_
  exact within_pure _

theorem traceValidate_within (hdecode : Header.decode blob = .ok h) (hsound : h.WellFormed blob) :
    (traceValidate blob).Within h.size.toNat :=
  traceValidate_within_size hdecode hsound.length_le

end BootNamespace.Image
