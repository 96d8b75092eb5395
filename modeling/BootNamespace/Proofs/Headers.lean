import Mathlib.Logic.Function.Basic
import BootNamespace.Image.Header
import BootNamespace.Proofs.Bytes
import BootNamespace.Request

namespace BootNamespace

namespace Bytes

variable {α : Type} {count : Nat} {words : α → List UInt32} {Reads : Bytes → α → Prop} {bs : Bytes}

/-- The words that stand in the bytes from the first one on. -/
def toWords (count : Nat) (bs : Bytes) : List UInt32 :=
  (List.range count).map fun index ↦ toUInt32 (bs.drop (4 * index))

/-- A record is made of its words, and read where there are enough bytes for them. -/
structure RowOfWords (count : Nat) (words : α → List UInt32) (Reads : Bytes → α → Prop) :
    Prop where
  length_eq : ∀ a, (words a).length = count
  injective : Function.Injective words
  reads : ∀ bs, 4 * count ≤ bs.length → ∃ a, Reads bs a ∧ words a = toWords count bs

theorem toWords_succ (count : Nat) (bs : Bytes) :
    toWords (count + 1) bs = toUInt32 bs :: toWords count (bs.drop 4) := by
  simp only [toWords, List.range_succ_eq_map, List.map_cons, List.map_map, Nat.mul_zero,
    List.drop_zero, List.drop_drop, List.cons.injEq, true_and]
  refine List.map_congr_left fun index _ ↦ ?_
  rw [Function.comp_apply, Nat.mul_succ, Nat.add_comm]

theorem ofUInt32_toUInt32_take (h : 4 ≤ bs.length) : ofUInt32 (toUInt32 bs) = bs.take 4 := by
  have hlength : (bs.take 4).length = 4 := by rw [List.length_take, Nat.min_eq_left h]
  have hword : toUInt32 (bs.take 4) = toUInt32 bs := by
    rw [toUInt32, List.take_take, Nat.min_self, toUInt32]
  rw [← hword, ofUInt32_toUInt32 hlength]

theorem length_flatMap_ofUInt32 (ws : List UInt32) :
    (ws.flatMap ofUInt32).length = 4 * ws.length := by
  simp [List.length_flatMap, ofUInt32, List.map_const', Nat.mul_comm]

theorem toWords_append (ws : List UInt32) (rest : Bytes) :
    toWords ws.length (ws.flatMap ofUInt32 ++ rest) = ws := by
  induction ws with
  | nil => rfl
  | cons w ws ih =>
    have hlength : (ofUInt32 w).length = 4 := by simp [ofUInt32]
    rw [List.length_cons, toWords_succ, List.flatMap_cons, List.append_assoc,
      toUInt32_ofUInt32_append, List.drop_left' hlength, ih]

theorem flatMap_toWords (h : 4 * count ≤ bs.length) :
    (toWords count bs).flatMap ofUInt32 = bs.take (4 * count) := by
  induction count generalizing bs with
  | zero => rfl
  | succ count ih =>
    have hrest : 4 * count ≤ (bs.drop 4).length := by
      rw [List.length_drop]
      omega
    rw [toWords_succ, List.flatMap_cons, ih hrest, ofUInt32_toUInt32_take (by omega),
      Nat.mul_succ, Nat.add_comm, List.take_add]

theorem RowOfWords.reads_append (h : RowOfWords count words Reads) (a : α) (rest : Bytes) :
    Reads ((words a).flatMap ofUInt32 ++ rest) a := by
  have hlength : 4 * count ≤ ((words a).flatMap ofUInt32 ++ rest).length := by
    rw [List.length_append, length_flatMap_ofUInt32, h.length_eq]
    exact Nat.le_add_right _ _
  obtain ⟨b, hreads, hwords⟩ := h.reads _ hlength
  have hread : words b = words a := by
    rw [hwords, ← h.length_eq a, toWords_append]
  exact h.injective hread ▸ hreads

theorem RowOfWords.exists_reads (h : RowOfWords count words Reads)
    (hlength : 4 * count ≤ bs.length) :
    ∃ a, Reads bs a ∧ (words a).flatMap ofUInt32 = bs.take (4 * count) := by
  obtain ⟨a, hreads, hwords⟩ := h.reads bs hlength
  exact ⟨a, hreads, by rw [hwords, flatMap_toWords hlength]⟩

end Bytes

open Bytes

namespace Image.Header

theorem rowOfWords : RowOfWords 15 words fun blob h ↦ decode blob = .ok h where
  length_eq _ := rfl
  injective h h' heq := by
    cases h
    cases h'
    simpa [words] using heq
  reads _ hlength := ⟨_, if_neg (Nat.not_lt.mpr hlength), rfl⟩

end Image.Header

namespace RequestHeader

def words (h : RequestHeader) : List UInt32 := [h.op, h.code, h.sbytes, h.rbytes]

theorem rowOfWords : RowOfWords 4 words fun bs h ↦ decode bs = some h where
  length_eq _ := rfl
  injective h h' heq := by
    cases h
    cases h'
    simpa [words] using heq
  reads _ hlength := ⟨_, if_neg (Nat.not_lt.mpr hlength), rfl⟩

end RequestHeader

/-- Either header is read back from its bytes whatever follows them. A buffer that is long enough
starts with the bytes of the header that is read from it, and a shorter one is refused. -/
theorem header_codecs_inverse :
    (∀ (h : Image.Header) (rest : Bytes), Image.Header.decode (h.encode ++ rest) = .ok h) ∧
    (∀ blob : Bytes, 60 ≤ blob.length →
      ∃ h, Image.Header.decode blob = .ok h ∧ h.encode = blob.take 60) ∧
    (∀ blob : Bytes, blob.length < 60 →
      Image.Header.decode blob = .error (.truncated 60 blob.length)) ∧
    (∀ (h : RequestHeader) (rest : Bytes), RequestHeader.decode (h.encode ++ rest) = some h) ∧
    (∀ bs : Bytes, 16 ≤ bs.length →
      ∃ h, RequestHeader.decode bs = some h ∧ h.encode = bs.take 16) ∧
    ∀ bs : Bytes, bs.length < 16 → RequestHeader.decode bs = none := by
  have himage := Image.Header.rowOfWords
  have hrequest := RequestHeader.rowOfWords
  exact ⟨himage.reads_append, fun _ ↦ himage.exists_reads, fun _ hshort ↦ if_pos hshort,
    hrequest.reads_append, fun _ ↦ hrequest.exists_reads, fun _ hshort ↦ if_pos hshort⟩

/-- Bytes no two of which are the same. -/
def countedBytes : Bytes := (List.range 64).map UInt8.ofNat

theorem counted_bytes_reread : 60 ≤ countedBytes.length ∧ 16 ≤ countedBytes.length ∧
    (∃ h, Image.Header.decode countedBytes = .ok h ∧ h.encode = countedBytes.take 60) ∧
    (∃ h, RequestHeader.decode countedBytes = some h ∧ h.encode = countedBytes.take 16) ∧
    (countedBytes.drop 5).length < 60 ∧
    Image.Header.decode (countedBytes.drop 5) = .error (.truncated 60 59) ∧
    (countedBytes.drop 49).length < 16 ∧ RequestHeader.decode (countedBytes.drop 49) = none := by
  obtain ⟨-, hlong, hshort, -, hlong', hshort'⟩ := header_codecs_inverse
  have himage : 60 ≤ countedBytes.length := by decide
  have hrequest : 16 ≤ countedBytes.length := by decide
  have hcut : (countedBytes.drop 5).length < 60 := by decide
  have hcut' : (countedBytes.drop 49).length < 16 := by decide
  exact ⟨himage, hrequest, hlong _ himage, hlong' _ hrequest, hcut, hshort _ hcut, hcut',
    hshort' _ hcut'⟩

end BootNamespace
