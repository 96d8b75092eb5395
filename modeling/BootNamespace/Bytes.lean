namespace BootNamespace

abbrev Bytes := List UInt8

namespace Bytes

/-- The low `width` bytes of a number, least significant first. -/
def littleEndian : Nat → Nat → Bytes
  | 0, _ => []
  | width + 1, n => UInt8.ofNat n :: littleEndian width (n / 256)

/-- The number that little-endian bytes spell. -/
def value : Bytes → Nat
  | [] => 0
  | b :: bs => b.toNat + 256 * value bs

def ofUInt16 (w : UInt16) : Bytes := littleEndian 2 w.toNat

def ofUInt32 (w : UInt32) : Bytes := littleEndian 4 w.toNat

def ofUInt64 (w : UInt64) : Bytes := littleEndian 8 w.toNat

def toUInt16 (bs : Bytes) : UInt16 := UInt16.ofNat (value (bs.take 2))

def toUInt32 (bs : Bytes) : UInt32 := UInt32.ofNat (value (bs.take 4))

def toUInt64 (bs : Bytes) : UInt64 := UInt64.ofNat (value (bs.take 8))

/-- The first `n` bytes and the rest, if there are that many. -/
def split? (n : Nat) (bs : Bytes) : Option (Bytes × Bytes) :=
  let head := bs.take n
  if head.length = n then some (head, bs.drop n) else none

/-- The UTF-8 form of a text. -/
def ofText (s : String) : Bytes := s.toByteArray.data.toList

/-- The text that the bytes spell in UTF-8, if they spell one. -/
def toText? (bs : Bytes) : Option String := String.fromUTF8? ⟨bs.toArray⟩

@[simp] theorem littleEndian_length (width n : Nat) : (littleEndian width n).length = width := by
  induction width generalizing n with
  | zero => rfl
  | succ width ih => simp [littleEndian, ih]

theorem split?_eq_some_iff {n : Nat} {bs head rest : Bytes} :
    split? n bs = some (head, rest) ↔ n ≤ bs.length ∧ head = bs.take n ∧ rest = bs.drop n := by
  simp only [split?, List.length_take]
  split
  next h =>
    have hn : n ≤ bs.length := by omega
    simp only [Option.some.injEq, Prod.mk.injEq, hn, true_and, eq_comm]
  next h =>
    have hn : ¬n ≤ bs.length := by omega
    simp only [hn, false_and, reduceCtorEq]

theorem toText?_ofText (s : String) : toText? (ofText s) = some s := by
  simp only [toText?, ofText, Array.toArray_toList, String.fromUTF8?]
  exact dif_pos s.isValidUTF8

end Bytes

end BootNamespace
