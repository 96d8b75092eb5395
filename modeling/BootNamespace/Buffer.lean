import BootNamespace.Bytes

namespace BootNamespace

/-- Bytes in one piece, as a file or a request holds them. -/
structure Buffer where
  bytes : ByteArray

namespace Buffer

def ofArray (bytes : Array UInt8) : Buffer := ⟨⟨bytes⟩⟩

def ofList (bytes : Bytes) : Buffer := ofArray bytes.toArray

def empty : Buffer := ofList []

variable (b : Buffer)

def toArray : Array UInt8 := b.bytes.data

def toList : Bytes := b.toArray.toList

instance : Coe (Array UInt8) Buffer := ⟨ofArray⟩

instance : Coe Bytes Buffer := ⟨ofList⟩

instance : Coe Buffer Bytes := ⟨toList⟩

theorem toList_inj {b c : Buffer} : b.toList = c.toList ↔ b = c :=
  ⟨fun h ↦ congrArg ofList h, congrArg toList⟩

instance : DecidableEq Buffer := fun _ _ ↦ decidable_of_decidable_of_iff toList_inj

instance : Repr Buffer := ⟨fun b ↦ reprPrec b.toList⟩

def length : Nat := b.bytes.size

/-- The bytes from `start` on and before `stop`. -/
def extract (start stop : Nat) : Buffer := ⟨b.bytes.extract start (min stop b.length)⟩

def take (n : Nat) : Buffer := if b.length ≤ n then b else b.extract 0 n

/-- At most `max` bytes from `offset` on; none at or past the end. -/
def read (offset max : Nat) : Bytes := (b.extract offset (offset + max)).toList

def append (b c : Buffer) : Buffer := ⟨b.bytes ++ c.bytes⟩

instance : Append Buffer := ⟨append⟩

/-- Bytes laid over the content from `offset` on; what would stand past the end is dropped. -/
def overwrite (offset : Nat) (bytes : Buffer) : Buffer :=
  let kept := bytes.take (b.length - offset)
  b.take offset ++ kept ++ b.extract (offset + kept.length) b.length

def appendEach (piece : Buffer) : Nat → Buffer → Buffer
  | 0, b => b
  | n + 1, b => appendEach piece n (b ++ piece)

/-- The content and then `n` copies of a piece, most of them laid down many at a time. -/
def appendCopies (piece : Buffer) (n : Nat) : Buffer :=
  appendEach piece (n % 256) (appendEach (appendEach piece 256 empty) (n / 256) b)

/-- No bytes, and room for `capacity`. -/
def withCapacity (capacity : Nat) : Buffer := ⟨.emptyWithCapacity capacity⟩

def replicate (n : Nat) (piece : Buffer) : Buffer :=
  (withCapacity (n * piece.length)).appendCopies piece n

/-- The first `length` bytes, with zeros for those that are missing. -/
def resize (length : Nat) : Buffer :=
  (withCapacity length ++ b.take length).appendCopies (ofList [0]) (length - b.length)

@[simp] theorem toList_ofList (bytes : Bytes) : (ofList bytes).toList = bytes := rfl

@[simp] theorem toList_empty : empty.toList = [] := rfl

@[simp] theorem toList_withCapacity (capacity : Nat) : (withCapacity capacity).toList = [] := rfl

@[simp] theorem length_toList : b.toList.length = b.length := rfl

@[simp] theorem toList_ofArray (bytes : Array UInt8) : (ofArray bytes).toList = bytes.toList := rfl

@[simp] theorem length_ofArray (bytes : Array UInt8) : (ofArray bytes).length = bytes.size := rfl

@[simp] theorem toList_append (c : Buffer) : (b ++ c).toList = b.toList ++ c.toList := rfl

@[simp] theorem toList_extract (start stop : Nat) :
    (b.extract start stop).toList = (b.toList.drop start).take (stop - start) := by
  simp only [extract, toList, toArray, ByteArray.data_extract, Array.toList_extract,
    List.extract_eq_take_drop, List.take_eq_take_iff, List.length_drop, length]
  rw [Array.length_toList, ByteArray.size_data]
  omega

@[simp] theorem toList_take (n : Nat) : (b.take n).toList = b.toList.take n := by
  unfold take
  split
  next h => exact (List.take_of_length_le h).symm
  next => simp

@[simp] theorem length_take (n : Nat) : (b.take n).length = min n b.length := by
  simp [← length_toList]

theorem take_of_length_le {b : Buffer} {n : Nat} (h : b.length ≤ n) : b.take n = b := if_pos h

@[simp] theorem read_eq (offset max : Nat) :
    b.read offset max = (b.toList.drop offset).take max := by
  simp [read]

@[simp] theorem toList_overwrite (offset : Nat) (bytes : Buffer) :
    (b.overwrite offset bytes).toList =
      b.toList.take offset ++ bytes.toList.take (b.length - offset) ++
        b.toList.drop (offset + min (b.length - offset) bytes.length) := by
  simp [overwrite, List.take_of_length_le]

@[simp] theorem length_overwrite (offset : Nat) (bytes : Buffer) :
    (b.overwrite offset bytes).length = b.length := by
  simp only [← length_toList, toList_overwrite, List.length_append, List.length_take,
    List.length_drop]
  omega

theorem toList_appendEach (piece : Buffer) (n : Nat) (b : Buffer) :
    (appendEach piece n b).toList = b.toList ++ (List.replicate n piece.toList).flatten := by
  induction n generalizing b with
  | zero => simp [appendEach]
  | succ n ih => simp [appendEach, ih, List.replicate_succ]

@[simp] theorem toList_appendCopies (piece : Buffer) (n : Nat) :
    (b.appendCopies piece n).toList = b.toList ++ (List.replicate n piece.toList).flatten := by
  have hmany (copies : Nat) :
      (List.replicate copies (List.replicate 256 piece.toList).flatten).flatten =
        (List.replicate (copies * 256) piece.toList).flatten := by
    rw [← List.map_replicate, ← List.flatten_flatten, List.flatten_replicate_replicate]
  simp only [appendCopies, toList_appendEach, toList_empty, List.nil_append, hmany,
    List.append_assoc, ← List.flatten_append, List.replicate_append_replicate]
  rw [Nat.div_add_mod']

@[simp] theorem toList_replicate (n : Nat) (piece : Buffer) :
    (replicate n piece).toList = (List.replicate n piece.toList).flatten := by
  simp [replicate]

@[simp] theorem toList_resize (length : Nat) :
    (b.resize length).toList = b.toList.take length ++ List.replicate (length - b.length) 0 := by
  simp [resize]

@[simp] theorem length_resize (length : Nat) : (b.resize length).length = length := by
  rw [← length_toList, toList_resize, List.length_append, List.length_take, List.length_replicate,
    length_toList]
  omega

end Buffer

end BootNamespace
