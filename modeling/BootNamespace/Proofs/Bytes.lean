import Mathlib.Algebra.Ring.Nat
import BootNamespace.Bytes

namespace BootNamespace.Bytes

theorem value_littleEndian (width n : Nat) : value (littleEndian width n) = n % 256 ^ width := by
  induction width generalizing n with
  | zero => simp [littleEndian, value, Nat.mod_one]
  | succ width ih =>
    have hb : (UInt8.ofNat n).toNat = n % 256 := UInt8.toNat_ofNat'
    rw [littleEndian, value, ih, hb, Nat.pow_succ', Nat.mod_mul]

theorem value_lt (bs : Bytes) : value bs < 256 ^ bs.length := by
  induction bs with
  | nil => simp [value]
  | cons b bs ih =>
    have hb := b.toNat_lt
    simp only [value, List.length_cons, Nat.pow_succ']
    omega

theorem littleEndian_value (bs : Bytes) : littleEndian bs.length (value bs) = bs := by
  induction bs with
  | nil => rfl
  | cons b bs ih =>
    have hb := b.toNat_lt
    have hq : (b.toNat + 256 * value bs) / 256 = value bs := by omega
    simp only [List.length_cons, littleEndian, value, hq, ih]
    congr 1
    apply UInt8.toNat_inj.mp
    simp only [UInt8.toNat_ofNat']
    omega

theorem split?_of_le {n : Nat} {bs : Bytes} (h : n ≤ bs.length) :
    split? n bs = some (bs.take n, bs.drop n) :=
  split?_eq_some_iff.mpr ⟨h, rfl, rfl⟩

theorem split?_of_lt {n : Nat} {bs : Bytes} (h : bs.length < n) : split? n bs = none := by
  have hshort : (bs.take n).length ≠ n := by
    rw [List.length_take]
    omega
  exact if_neg hshort

theorem toText?_eq_some_iff {bs : Bytes} {s : String} : toText? bs = some s ↔ bs = ofText s := by
  constructor
  · intro h
    obtain ⟨hvalid, hs⟩ := Option.dite_none_right_eq_some.mp h
    cases hs
    rfl
  · rintro rfl
    exact toText?_ofText s

theorem toUInt32_ofUInt32_append (w : UInt32) (bs : Bytes) : toUInt32 (ofUInt32 w ++ bs) = w := by
  have hlen : (ofUInt32 w).length = 4 := by simp [ofUInt32]
  have htake : (ofUInt32 w ++ bs).take 4 = ofUInt32 w := by rw [← hlen, List.take_left']; rfl
  rw [toUInt32, htake, ofUInt32, value_littleEndian]
  apply UInt32.toNat_inj.mp
  have := w.toNat_lt
  simp only [UInt32.toNat_ofNat']
  omega

theorem toUInt64_ofUInt64 (w : UInt64) : toUInt64 (ofUInt64 w) = w := by
  have hlen : (ofUInt64 w).length = 8 := by simp [ofUInt64]
  rw [toUInt64, List.take_of_length_le (Nat.le_of_eq hlen), ofUInt64, value_littleEndian]
  apply UInt64.toNat_inj.mp
  have := w.toNat_lt
  simp only [UInt64.toNat_ofNat']
  omega

theorem ofUInt32_toUInt32 {bs : Bytes} (h : bs.length = 4) : ofUInt32 (toUInt32 bs) = bs := by
  have hlt : value bs < UInt32.size := Nat.lt_of_lt_of_eq (value_lt bs) (by rw [h]; rfl)
  have hvalue : (UInt32.ofNat (value bs)).toNat = value bs := by
    rw [UInt32.toNat_ofNat']
    exact Nat.mod_eq_of_lt hlt
  rw [toUInt32, List.take_of_length_le (Nat.le_of_eq h), ofUInt32, hvalue, ← h, littleEndian_value]

theorem ofUInt64_toUInt64 {bs : Bytes} (h : bs.length = 8) : ofUInt64 (toUInt64 bs) = bs := by
  have hlt : value bs < UInt64.size := Nat.lt_of_lt_of_eq (value_lt bs) (by rw [h]; rfl)
  have hvalue : (UInt64.ofNat (value bs)).toNat = value bs := by
    rw [UInt64.toNat_ofNat']
    exact Nat.mod_eq_of_lt hlt
  rw [toUInt64, List.take_of_length_le (Nat.le_of_eq h), ofUInt64, hvalue, ← h, littleEndian_value]

theorem toUInt16_ofUInt16_append (w : UInt16) (bs : Bytes) : toUInt16 (ofUInt16 w ++ bs) = w := by
  have hlen : (ofUInt16 w).length = 2 := by simp [ofUInt16]
  have htake : (ofUInt16 w ++ bs).take 2 = ofUInt16 w := by rw [← hlen, List.take_left']; rfl
  rw [toUInt16, htake, ofUInt16, value_littleEndian]
  apply UInt16.toNat_inj.mp
  have := w.toNat_lt
  simp only [UInt16.toNat_ofNat']
  omega

theorem ofText_eq (s : String) : ofText s = s.toList.flatMap String.utf8EncodeChar := by
  rw [ofText, ← String.utf8Encode_toList, List.utf8Encode, List.data_toByteArray]

theorem ofText_append (s t : String) : ofText (s ++ t) = ofText s ++ ofText t := by
  rw [ofText_eq, ofText_eq, ofText_eq, String.toList_append, List.flatMap_append]

theorem ofText_join (texts : List String) : ofText (String.join texts) = texts.flatMap ofText := by
  induction texts with
  | nil => rfl
  | cons text texts ih => rw [String.join_cons, ofText_append, ih, List.flatMap_cons]

theorem ofText_length (s : String) : (ofText s).length = s.utf8ByteSize := by
  rw [ofText, Array.length_toList]
  rfl

theorem zero_ne_ofNat {n : Nat} (h : n % 256 ≠ 0) : (0 : UInt8) ≠ UInt8.ofNat n := by
  intro heq
  have hnat := congrArg UInt8.toNat heq
  rw [UInt8.toNat_ofNat'] at hnat
  exact h hnat.symm

theorem zero_notMem_utf8EncodeChar {c : Char} (h : c.val.toNat ≠ 0) :
    0 ∉ String.utf8EncodeChar c := by
  unfold String.utf8EncodeChar
  dsimp only
  split
  · simp only [List.mem_cons, List.not_mem_nil, or_false]
    exact zero_ne_ofNat (by omega)
  split
  · simp only [List.mem_cons, List.not_mem_nil, or_false, not_or]
    exact ⟨zero_ne_ofNat (by omega), zero_ne_ofNat (by omega)⟩
  split
  · simp only [List.mem_cons, List.not_mem_nil, or_false, not_or]
    exact ⟨zero_ne_ofNat (by omega), zero_ne_ofNat (by omega), zero_ne_ofNat (by omega)⟩
  · simp only [List.mem_cons, List.not_mem_nil, or_false, not_or]
    exact ⟨zero_ne_ofNat (by omega), zero_ne_ofNat (by omega), zero_ne_ofNat (by omega),
      zero_ne_ofNat (by omega)⟩

/-- Only the character NUL has a zero byte in its UTF-8 form. -/
theorem zero_notMem_ofText {s : String} (h : Char.ofNat 0 ∉ s.toList) : 0 ∉ ofText s := by
  rw [ofText_eq, List.mem_flatMap]
  rintro ⟨c, hc, hzero⟩
  refine zero_notMem_utf8EncodeChar (fun heq ↦ h ?_) hzero
  have hnul : c = Char.ofNat 0 := Char.ext (UInt32.toNat_inj.mp heq)
  exact hnul ▸ hc

theorem isValidUTF8_utf8Encode_append_iff (cs : List Char) {b : ByteArray} :
    (cs.utf8Encode ++ b).IsValidUTF8 ↔ b.IsValidUTF8 := by
  induction cs with
  | nil => rw [List.utf8Encode_nil, ByteArray.empty_append]
  | cons c cs ih =>
    rw [← List.singleton_append, List.utf8Encode_append, ByteArray.append_assoc,
      ByteArray.isValidUTF8_utf8Encode_singleton_append_iff, ih]

/-- What follows a text inside the UTF-8 form of a longer one is a text too. -/
theorem eq_append_of_ofText_prefix {s t : String} (h : ofText s <+: ofText t) :
    ∃ u, t = s ++ u := by
  obtain ⟨bs, hbs⟩ := h
  have hbytes : t.toByteArray = s.toByteArray ++ ⟨bs.toArray⟩ := by
    rw [ByteArray.ext_iff, ByteArray.data_append, ← Array.toList_inj, Array.toList_append]
    exact hbs.symm
  have hvalid : (⟨bs.toArray⟩ : ByteArray).IsValidUTF8 := by
    rw [← isValidUTF8_utf8Encode_append_iff s.toList, String.utf8Encode_toList, ← hbytes]
    exact t.isValidUTF8
  refine ⟨⟨⟨bs.toArray⟩, hvalid⟩, ?_⟩
  rw [← String.toByteArray_inj, String.toByteArray_append, hbytes]

theorem zero_mem_ofText {s : String} (h : Char.ofNat 0 ∈ s.toList) : 0 ∈ ofText s := by
  rw [ofText_eq, List.mem_flatMap]
  exact ⟨_, h, by decide⟩

end BootNamespace.Bytes
