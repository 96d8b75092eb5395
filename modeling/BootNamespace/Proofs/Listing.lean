import BootNamespace.Listing.Packed
import BootNamespace.Proofs.Bytes

namespace BootNamespace.Entry

variable {entry : Entry} {entries shown other : List Entry} {limit : Nat} {name : String}

def packedKind : EntryKind → Bytes
  | .directory => Bytes.ofUInt32 directoryTag
  | .file size => Bytes.ofUInt32 fileTag ++ Bytes.ofUInt64 size

def packedName (name : String) : Bytes :=
  Bytes.littleEndian 2 name.utf8ByteSize ++ (Bytes.ofText name ++ [0])

theorem pack_eq (entry : Entry) : entry.pack = packedKind entry.kind ++ packedName entry.name := by
  obtain ⟨name, kind⟩ := entry
  cases kind with
  | directory => simp only [pack, packedKind, packedName, List.append_assoc]
  | file size => simp only [pack, packedKind, packedName, List.append_assoc]

theorem pack_length (entry : Entry) : entry.pack.length = entry.packedLength := by
  have hname : (packedName entry.name).length = 2 + (entry.name.utf8ByteSize + 1) := by
    simp only [packedName, List.length_append, Bytes.littleEndian_length, Bytes.ofText_length,
      List.length_singleton]
  obtain ⟨name, kind⟩ := entry
  rw [pack_eq, List.length_append, hname, packedLength]
  cases kind with
  | directory =>
    simp only [packedKind, Bytes.ofUInt32, Bytes.littleEndian_length]
    omega
  | file size =>
    simp only [packedKind, Bytes.ofUInt32, Bytes.ofUInt64, List.length_append,
      Bytes.littleEndian_length]
    omega

theorem field_append {n : Nat} {head : Bytes} (h : head.length = n) (tail : Bytes) :
    field n (head ++ tail) = .ok (head, tail) := by
  have hlength : n ≤ (head ++ tail).length := by
    rw [List.length_append]
    omega
  rw [field, Bytes.split?_of_le hlength, List.take_left' h, List.drop_left' h]

theorem field_word (w : UInt32) (tail : Bytes) :
    field 4 (Bytes.ofUInt32 w ++ tail) = .ok (Bytes.ofUInt32 w, tail) :=
  field_append (Bytes.littleEndian_length 4 _) tail

theorem unpackKind_append (kind : EntryKind) (tail : Bytes) :
    unpackKind (packedKind kind ++ tail) = .ok (kind, tail) := by
  have hword (w : UInt32) : Bytes.toUInt32 (Bytes.ofUInt32 w) = w := by
    rw [← List.append_nil (Bytes.ofUInt32 w), Bytes.toUInt32_ofUInt32_append]
  cases kind with
  | directory =>
    rw [packedKind, unpackKind, field_word]
    dsimp only
    rw [hword, if_pos rfl]
  | file size =>
    have hother : fileTag ≠ directoryTag := by decide
    have hsize : field 8 (Bytes.ofUInt64 size ++ tail) = .ok (Bytes.ofUInt64 size, tail) :=
      field_append (Bytes.littleEndian_length 8 _) tail
    rw [packedKind, unpackKind, List.append_assoc, field_word]
    dsimp only
    rw [hword, if_neg hother, if_pos rfl, hsize]
    dsimp only
    rw [Bytes.toUInt64_ofUInt64]

/-- It makes no difference which byte stands behind the name. -/
theorem unpackName_append (h : name.utf8ByteSize < UInt16.size) (terminator : UInt8) (tail : Bytes) :
    unpackName (Bytes.littleEndian 2 name.utf8ByteSize ++ (Bytes.ofText name ++ [terminator]) ++
      tail) = .ok (name, tail) := by
  have hcount : Bytes.value (Bytes.littleEndian 2 name.utf8ByteSize) = name.utf8ByteSize := by
    rw [Bytes.value_littleEndian]
    exact Nat.mod_eq_of_lt h
  have hlength : (Bytes.ofText name ++ [terminator]).length = name.utf8ByteSize + 1 := by
    rw [List.length_append, Bytes.ofText_length]
    rfl
  rw [unpackName, List.append_assoc, field_append (Bytes.littleEndian_length 2 _)]
  dsimp only
  rw [hcount, field_append hlength]
  dsimp only
  rw [List.dropLast_concat, Bytes.toText?_ofText]

/-- An entry is read back as it was packed, whatever follows it. -/
theorem unpack_pack_append (h : entry.packable) (tail : Bytes) :
    unpack (entry.pack ++ tail) = .ok (entry, tail) := by
  have hname : entry.name.utf8ByteSize < UInt16.size := by simpa [packable] using h
  rw [pack_eq, List.append_assoc, unpack, unpackKind_append]
  dsimp only
  rw [packedName, unpackName_append hname]

theorem unpackEach_nil : unpackEach [] = ([], none) := by
  rw [unpackEach]
  rfl

theorem unpackEach_of_error {bs : Bytes} {e : FsError} (hbytes : bs ≠ [])
    (hunpack : unpack bs = .error e) : unpackEach bs = ([], some e) := by
  rw [unpackEach, if_neg (by simpa using hbytes)]
  split
  next heq =>
    cases hunpack.symm.trans heq
    rfl
  next heq => cases hunpack.symm.trans heq

theorem unpackEach_of_ok {bs rest : Bytes} (hunpack : unpack bs = .ok (entry, rest)) :
    unpackEach bs = (entry :: (unpackEach rest).1, (unpackEach rest).2) := by
  have hbytes : ¬bs.isEmpty := by
    intro hempty
    rw [List.isEmpty_iff.mp hempty] at hunpack
    cases hunpack
  rw [unpackEach, if_neg hbytes]
  split
  next heq => cases hunpack.symm.trans heq
  next heq =>
    cases hunpack.symm.trans heq
    rfl

/-- A listing is read back entry for entry. -/
theorem unpackAll_flatMap_pack (h : ∀ entry ∈ entries, entry.packable) :
    unpackAll (entries.flatMap pack) = .ok entries := by
  have heach : unpackEach (entries.flatMap pack) = (entries, none) := by
    induction entries with
    | nil => exact unpackEach_nil
    | cons entry rest ih =>
      have hunpack := unpack_pack_append (h entry List.mem_cons_self) (rest.flatMap pack)
      rw [List.flatMap_cons, unpackEach_of_ok hunpack,
        ih fun other hother ↦ h other (List.mem_cons_of_mem _ hother)]
  rw [unpackAll, heach]

/-- The bytes that all of the packed entries take. -/
def packedSize (entries : List Entry) : Nat := (entries.map packedLength).sum

/-- The longest beginning of a listing that fits into some bytes. -/
structure LongestWithin (limit : Nat) (entries shown : List Entry) : Prop where
  beginning : shown <+: entries
  fits : packedSize shown ≤ limit
  longest {other : List Entry} (h : other <+: entries) (hfits : packedSize other ≤ limit) :
    other <+: shown

theorem flatMap_pack_length (entries : List Entry) :
    (entries.flatMap pack).length = packedSize entries := by
  rw [List.length_flatMap, packedSize]
  simp only [pack_length]

/-- What is packed is the longest beginning of the listing that fits. -/
theorem packAll_longestWithin (h : ∀ entry ∈ entries, entry.packable) (limit : Nat) :
    ∃ shown, LongestWithin limit entries shown ∧ packAll limit entries = shown.flatMap pack := by
  induction entries generalizing limit with
  | nil => exact ⟨[], ⟨List.prefix_rfl, Nat.zero_le _, fun h _ ↦ h⟩, rfl⟩
  | cons entry rest ih =>
    have hentry : ¬(!entry.packable) := by simp [h entry List.mem_cons_self]
    have hsize (more : List Entry) :
        packedSize (entry :: more) = entry.packedLength + packedSize more := by
      rw [packedSize, List.map_cons, List.sum_cons, packedSize]
    rw [packAll, if_neg hentry]
    split
    next hfull =>
      refine ⟨[], ⟨List.nil_prefix, Nat.zero_le _, fun {other} hother hfits ↦ ?_⟩, rfl⟩
      cases other with
      | nil => exact List.prefix_rfl
      | cons first more =>
        obtain ⟨rfl, -⟩ := List.cons_prefix_cons.mp hother
        rw [hsize] at hfits
        omega
    next hroom =>
      obtain ⟨shown, hshown, hpacked⟩ := ih
        (fun other hother ↦ h other (List.mem_cons_of_mem _ hother)) (limit - entry.packedLength)
      have hfits := hshown.fits
      refine ⟨entry :: shown, ⟨?_, ?_, fun {other} hother hlimit ↦ ?_⟩, ?_⟩
      · exact List.cons_prefix_cons.mpr ⟨rfl, hshown.beginning⟩
      · rw [hsize]
        omega
      · cases other with
        | nil => exact List.nil_prefix
        | cons first more =>
          obtain ⟨rfl, hmore⟩ := List.cons_prefix_cons.mp hother
          rw [hsize] at hlimit
          exact List.cons_prefix_cons.mpr ⟨rfl, hshown.longest hmore (by omega)⟩
      · rw [hpacked, List.flatMap_cons]

/-- An entry whose name is too long is passed over wherever it stands. -/
theorem packAll_filter_packable (limit : Nat) (entries : List Entry) :
    packAll limit (entries.filter packable) = packAll limit entries := by
  induction entries generalizing limit with
  | nil => rfl
  | cons entry rest ih =>
    by_cases hentry : entry.packable
    · simp only [List.filter_cons_of_pos hentry, packAll, ih]
    · have hskipped : packAll limit (entry :: rest) = packAll limit rest := by
        rw [packAll, if_pos (by simpa using hentry)]
      rw [List.filter_cons_of_neg hentry, hskipped, ih]

/-- What is packed under a limit is read back as the longest beginning that fits, of the listing
without the entries whose names are too long. -/
theorem packed_listing_read_back (limit : Nat) (entries : List Entry) :
    ∃ shown, LongestWithin limit (entries.filter (·.name.utf8ByteSize ≤ 65535)) shown ∧
      packAll limit entries = shown.flatMap pack ∧
      (packAll limit entries).length = (shown.map packedLength).sum ∧
      (packAll limit entries).length ≤ limit ∧
      unpackAll (packAll limit entries) = .ok shown := by
  have hfilter : entries.filter (·.name.utf8ByteSize ≤ 65535) = entries.filter packable :=
    List.filter_congr fun entry _ ↦ decide_eq_decide.mpr Nat.lt_succ_iff.symm
  have hpackable : ∀ entry ∈ entries.filter packable, entry.packable :=
    fun entry hentry ↦ (List.mem_filter.mp hentry).2
  obtain ⟨shown, hshown, hpacked⟩ := packAll_longestWithin hpackable limit
  have hlength := flatMap_pack_length shown
  rw [packAll_filter_packable] at hpacked
  rw [hfilter, hpacked]
  refine ⟨shown, hshown, rfl, hlength, Nat.le_trans (Nat.le_of_eq hlength) hshown.fits, ?_⟩
  exact unpackAll_flatMap_pack fun entry hentry ↦
    hpackable entry (hshown.beginning.subset hentry)

end BootNamespace.Entry
