import BootNamespace.Image.Spec
import BootNamespace.Proofs.Headers
import BootNamespace.Proofs.Image.Format

namespace BootNamespace

namespace Bytes

def Stands (blob : Bytes) (pos : Nat) (part : Bytes) : Prop := part <+: blob.drop pos

variable {blob part a b : Bytes} {parts : List Bytes} {pos index : Nat}

theorem Stands.whole (blob : Bytes) : Stands blob 0 blob := List.prefix_refl _

theorem Stands.of_eq {pos' : Nat} (h : Stands blob pos part) (heq : pos = pos') :
    Stands blob pos' part :=
  heq ▸ h

theorem stands_append :
    Stands blob pos (a ++ b) ↔ Stands blob pos a ∧ Stands blob (pos + a.length) b := by
  unfold Stands
  rw [← List.drop_drop]
  constructor
  · rintro ⟨rest, hrest⟩
    rw [← hrest, List.append_assoc]
    exact ⟨List.prefix_append _ _, by rw [List.drop_left]; exact List.prefix_append _ _⟩
  · rintro ⟨⟨rest, hrest⟩, hb⟩
    rw [← hrest, List.drop_left] at hb
    rw [← hrest]
    exact (List.prefix_append_right_inj a).mpr hb

theorem Stands.flatten (h : Stands blob pos parts.flatten) (hpart : parts[index]? = some part) :
    Stands blob (pos + (parts.take index).flatten.length) part := by
  obtain ⟨hindex, rfl⟩ := List.getElem?_eq_some_iff.mp hpart
  have hsplit : parts.flatten =
      (parts.take index).flatten ++ (parts[index] ++ (parts.drop (index + 1)).flatten) := by
    rw [← List.flatten_cons, ← List.drop_eq_getElem_cons hindex, ← List.flatten_append,
      List.take_append_drop]
  rw [hsplit] at h
  exact (stands_append.mp (stands_append.mp h).2).1

theorem length_flatten_of_uniform (width : Nat) (hwidth : ∀ part ∈ parts, part.length = width) :
    parts.flatten.length = parts.length * width := by
  rw [List.length_flatten, List.map_congr_left hwidth, List.map_const', List.sum_replicate_nat]

theorem Stands.uniform (width : Nat) (h : Stands blob pos parts.flatten)
    (hwidth : ∀ part ∈ parts, part.length = width) (hpart : parts[index]? = some part) :
    Stands blob (pos + index * width) part := by
  have hindex := (List.getElem?_eq_some_iff.mp hpart).1
  have hlength : (parts.take index).flatten.length = index * width := by
    rw [length_flatten_of_uniform width fun part hmem ↦ hwidth part (List.mem_of_mem_take hmem),
      List.length_take, Nat.min_eq_left (Nat.le_of_lt hindex)]
  rw [← hlength]
  exact h.flatten hpart

theorem Stands.take_eq (h : Stands blob pos part) : (blob.drop pos).take part.length = part :=
  List.prefix_iff_eq_take.mp h |>.symm

theorem Stands.toUInt32 {w : UInt32} (h : Stands blob pos (ofUInt32 w)) :
    Bytes.toUInt32 (blob.drop pos) = w := by
  obtain ⟨rest, hrest⟩ := h
  rw [← hrest]
  exact toUInt32_ofUInt32_append w rest

theorem Stands.toUInt16 {w : UInt16} (h : Stands blob pos (ofUInt16 w)) :
    Bytes.toUInt16 (blob.drop pos) = w := by
  obtain ⟨rest, hrest⟩ := h
  rw [← hrest]
  exact toUInt16_ofUInt16_append w rest

end Bytes

namespace Image

open Bytes

namespace ImageSpec

theorem packWords_length (words : List UInt32) : (packWords words).length = words.length * 4 := by
  rw [packWords, length_flatMap_ofUInt32, Nat.mul_comm]

/-- The word at an index of a row of words. -/
theorem word_of_stands {blob : Bytes} {pos : Nat} {words : List UInt32}
    (h : Stands blob pos (packWords words)) (index : Nat) {w : UInt32}
    (hw : words[index]? = some w) : wordAt blob (pos + 4 * index) = w := by
  rw [packWords, List.flatMap_def] at h
  have hpart : (words.map ofUInt32)[index]? = some (ofUInt32 w) := by
    rw [List.getElem?_map, hw]
    rfl
  have hstands := h.uniform 4 (by simp [ofUInt32]) hpart
  rw [Nat.mul_comm] at hstands
  exact hstands.toUInt32

end ImageSpec

theorem Header.decode_of_stands {blob : Bytes} {h : Header} (hstands : Stands blob 0 h.encode) :
    Header.decode blob = .ok h := by
  obtain ⟨rest, hrest⟩ := hstands
  rw [List.drop_zero] at hrest
  rw [← hrest]
  exact Header.rowOfWords.reads_append h rest

namespace ImageSpec

variable (spec : ImageSpec)

def textsBefore (n : Nat) : Nat := ((spec.texts.take n).flatMap packText).length

def dataBefore (n : Nat) : Nat := ((spec.files.take n).flatMap (·.data)).length

theorem foldl_add_length {α : Type} {size : α → Nat} {pack : α → Bytes}
    (hsize : ∀ a, size a = (pack a).length) (xs : List α) (n : Nat) :
    xs.foldl (fun total a ↦ total + size a) n = n + (xs.flatMap pack).length := by
  induction xs generalizing n with
  | nil => rfl
  | cons x xs ih =>
    rw [List.foldl_cons, ih, List.flatMap_cons, List.length_append, hsize, Nat.add_assoc]

theorem flatMap_take_length_le {α : Type} {pack : α → Bytes} (xs : List α) (n : Nat) :
    ((xs.take n).flatMap pack).length ≤ (xs.flatMap pack).length := by
  have hsplit : xs.flatMap pack = (xs.take n).flatMap pack ++ (xs.drop n).flatMap pack := by
    rw [← List.flatMap_append, List.take_append_drop]
  rw [hsplit, List.length_append]
  exact Nat.le_add_right _ _

theorem textsBefore_le (n : Nat) : spec.textsBefore n ≤ spec.textsBefore spec.texts.length := by
  unfold textsBefore
  rw [List.take_length]
  exact flatMap_take_length_le spec.texts n

theorem dataBefore_le (n : Nat) : spec.dataBefore n ≤ spec.dataBefore spec.files.length := by
  unfold dataBefore
  rw [List.take_length]
  exact flatMap_take_length_le spec.files n

theorem packCommand_length (index : Nat) (command : CommandSpec) :
    (spec.packCommand index command).length = 16 := by
  simp [packCommand, packWords_length, ofUInt16]

theorem packDevice_length (index : Nat) (device : DeviceSpec) :
    (spec.packDevice index device).length = 16 :=
  packWords_length _

theorem packFile_length (index : Nat) (file : FileSpec) :
    (spec.packFile index file).length = 16 :=
  packWords_length _

theorem mapIdx_length {α : Type} {pack : Nat → α → Bytes}
    (hpack : ∀ index a, (pack index a).length = 16) (xs : List α) :
    ∀ part ∈ xs.mapIdx pack, part.length = 16 := by
  intro part hpart
  obtain ⟨index, hindex, rfl⟩ := List.mem_mapIdx.mp hpart
  exact hpack index _

theorem mapIdx_flatten_length {α : Type} {pack : Nat → α → Bytes}
    (hpack : ∀ index a, (pack index a).length = 16) (xs : List α) :
    (xs.mapIdx pack).flatten.length = xs.length * 16 := by
  rw [length_flatten_of_uniform 16 (mapIdx_length hpack xs), List.length_mapIdx]

/-- A record of a table of records. -/
theorem record_of_stands {α : Type} {pack : Nat → α → Bytes} {blob : Bytes} {pos index : Nat}
    (hpack : ∀ index a, (pack index a).length = 16) {xs : List α} {a : α}
    (h : Stands blob pos (xs.mapIdx pack).flatten) (ha : xs[index]? = some a) :
    Stands blob (pos + index * 16) (pack index a) := by
  have hpart : (xs.mapIdx pack)[index]? = some (pack index a) := by
    rw [List.getElem?_mapIdx, ha]
    rfl
  exact h.uniform 16 (mapIdx_length hpack xs) hpart

theorem build_length : spec.build.length = 76 + spec.commands.length * 16 +
    spec.devices.length * 16 + spec.files.length * 16 + spec.textsBefore spec.texts.length +
      spec.dataBefore spec.files.length := by
  have hencode : spec.header.encode.length = 60 := packWords_length spec.header.words
  simp only [build, List.length_append, hencode, packWords_length, textsBefore, dataBefore,
    mapIdx_flatten_length spec.packCommand_length, mapIdx_flatten_length spec.packDevice_length,
    mapIdx_flatten_length spec.packFile_length, List.take_length, List.length_cons, List.length_nil]
  omega

/-- Where the parts of the built image begin, and how many of them there are. -/
structure Placed : Prop where
  size : spec.header.size.toNat = spec.build.length
  commandsOffset : spec.header.commandsOffset.toNat = 60
  commandsCount : spec.header.commandsCount.toNat = spec.commands.length
  ramOffset : spec.header.ramOffset.toNat = 60 + spec.commands.length * 16
  irqOffset : spec.header.irqOffset.toNat = 68 + spec.commands.length * 16
  devicesOffset : spec.header.devicesOffset.toNat = 76 + spec.commands.length * 16
  devicesCount : spec.header.devicesCount.toNat = spec.devices.length
  filesOffset : spec.header.filesOffset.toNat =
    76 + spec.commands.length * 16 + spec.devices.length * 16
  filesCount : spec.header.filesCount.toNat = spec.files.length
  namesOffset : spec.header.namesOffset.toNat =
    76 + spec.commands.length * 16 + spec.devices.length * 16 + spec.files.length * 16
  namesSize : spec.header.namesSize.toNat = spec.textsBefore spec.texts.length
  textOffset : ∀ n, (spec.textOffset n).toNat = spec.textsBefore n
  dataLength : ∀ n, (spec.dataLength n).toNat = spec.dataBefore n

theorem textOffset_toNat (hfits : spec.build.length < UInt32.size) (n : Nat) :
    (spec.textOffset n).toNat = spec.textsBefore n := by
  have hle := spec.textsBefore_le n
  have hlt : spec.textsBefore n < UInt32.size := by
    have hlength := spec.build_length
    omega
  have hpack (text : String) : text.utf8ByteSize + 1 = (packText text).length := by
    rw [packText, List.length_append, ofText_length]
    rfl
  rw [textOffset, foldl_add_length hpack, UInt32.toNat_ofNat', Nat.zero_add]
  exact Nat.mod_eq_of_lt hlt

theorem dataLength_toNat (hfits : spec.build.length < UInt32.size) (n : Nat) :
    (spec.dataLength n).toNat = spec.dataBefore n := by
  have hle := spec.dataBefore_le n
  have hlt : spec.dataBefore n < UInt32.size := by
    have hlength := spec.build_length
    omega
  have hpack (file : FileSpec) : file.data.length = file.data.length := rfl
  rw [dataLength, foldl_add_length hpack, UInt32.toNat_ofNat', Nat.zero_add]
  exact Nat.mod_eq_of_lt hlt

theorem placed (hfits : spec.build.length < UInt32.size) : spec.Placed := by
  have hlength := spec.build_length
  have htexts := spec.textOffset_toNat hfits
  have hdata := spec.dataLength_toNat hfits
  unfold UInt32.size at hfits
  refine ⟨?_, rfl, ?_, ?_, ?_, ?_, ?_, ?_, ?_, ?_, htexts _, htexts, hdata⟩
  -- No sum wraps: each is at most the length of the image.
  all_goals
    simp only [header, UInt32.toNat_add, UInt32.toNat_mul, UInt32.toNat_ofNat',
      UInt32.reduceToNat, htexts, hdata]
    omega

/-- Each part of the image stands where the header says. -/
structure Laid (blob : Bytes) : Prop where
  header : Stands blob 0 spec.header.encode
  commands : Stands blob spec.header.commandsOffset.toNat
    (spec.commands.mapIdx spec.packCommand).flatten
  ram : Stands blob spec.header.ramOffset.toNat (packWords [spec.ram.addr, spec.ram.size])
  irq : Stands blob spec.header.irqOffset.toNat
    (packWords [spec.irq.privilege, spec.irq.shared])
  devices : Stands blob spec.header.devicesOffset.toNat
    (spec.devices.mapIdx spec.packDevice).flatten
  files : Stands blob spec.header.filesOffset.toNat (spec.files.mapIdx spec.packFile).flatten
  names : Stands blob spec.header.namesOffset.toNat (spec.texts.flatMap packText)
  data : Stands blob (spec.header.namesOffset.toNat + spec.header.namesSize.toNat)
    (spec.files.flatMap (·.data))

theorem laid {blob : Bytes} (hfits : spec.build.length < UInt32.size)
    (hstands : Stands blob 0 spec.build) : spec.Laid blob := by
  have hplaced := spec.placed hfits
  have hencode : spec.header.encode.length = 60 := packWords_length spec.header.words
  have hpair : packWords [spec.ram.addr, spec.ram.size, spec.irq.privilege, spec.irq.shared] =
      packWords [spec.ram.addr, spec.ram.size] ++
        packWords [spec.irq.privilege, spec.irq.shared] := rfl
  have hnames : (spec.texts.flatMap packText).length = spec.textsBefore spec.texts.length := by
    rw [textsBefore, List.take_length]
  simp only [build, hpair, stands_append, List.length_append, hencode, packWords_length,
    mapIdx_flatten_length spec.packCommand_length, mapIdx_flatten_length spec.packDevice_length,
    mapIdx_flatten_length spec.packFile_length, hnames, List.length_cons,
    List.length_nil] at hstands
  obtain ⟨⟨⟨⟨⟨⟨hheader, hcommands⟩, hram, hirq⟩, hdevices⟩, hfiles⟩, htexts⟩, hdata⟩ := hstands
  exact
    { header := hheader
      commands := hcommands.of_eq (by rw [hplaced.commandsOffset])
      ram := hram.of_eq (by rw [hplaced.ramOffset]; omega)
      irq := hirq.of_eq (by rw [hplaced.irqOffset]; omega)
      devices := hdevices.of_eq (by rw [hplaced.devicesOffset]; omega)
      files := hfiles.of_eq (by rw [hplaced.filesOffset]; omega)
      names := htexts.of_eq (by rw [hplaced.namesOffset]; omega)
      data := hdata.of_eq (by rw [hplaced.namesOffset, hplaced.namesSize]; omega) }

end ImageSpec

end Image

end BootNamespace
