import BootNamespace.Bytes
import BootNamespace.FsError
import BootNamespace.Listing.Entry

namespace BootNamespace

/-- The listing request that asks for every directory and then every file. -/
def listAll : UInt32 := 1

namespace Entry

def directoryTag : UInt32 := 1
def fileTag : UInt32 := 2

/-- Bytes the packed entry takes. -/
def packedLength (entry : Entry) : Nat :=
  (match entry.kind with
    | .directory => 6
    | .file _ => 14) + entry.name.utf8ByteSize + 1

/-- Tag, size (of a file), length of the name, name, and a NUL. -/
def pack (entry : Entry) : Bytes :=
  let head := match entry.kind with
    | .directory => Bytes.ofUInt32 directoryTag
    | .file size => Bytes.ofUInt32 fileTag ++ Bytes.ofUInt64 size
  head ++ Bytes.littleEndian 2 entry.name.utf8ByteSize ++ Bytes.ofText entry.name ++ [0]

/-- Names that a 16-bit length can count. -/
def packable (entry : Entry) : Bool := entry.name.utf8ByteSize < UInt16.size

/-- Whole entries while they fit in `limit` bytes; one with too long a name is passed over. -/
def packAll (limit : Nat) : List Entry → Bytes
  | [] => []
  | entry :: rest =>
    if !entry.packable then packAll limit rest
    else if limit < entry.packedLength then []
    else entry.pack ++ packAll (limit - entry.packedLength) rest

/-- The next `n` bytes of an entry, and what follows them. -/
def field (n : Nat) (bs : Bytes) : Except FsError (Bytes × Bytes) :=
  match bs.split? n with
  | some parts => .ok parts
  | none => .error (.protocol .entryTruncated)

def unpackKind (bs : Bytes) : Except FsError (EntryKind × Bytes) :=
  match field 4 bs with
  | .error e => .error e
  | .ok (word, rest) =>
    let tag := Bytes.toUInt32 word
    if tag = directoryTag then .ok (.directory, rest)
    else if tag = fileTag then
      match field 8 rest with
      | .error e => .error e
      | .ok (size, rest) => .ok (.file (Bytes.toUInt64 size), rest)
    else .error (.protocol (.unknownTag tag))

def unpackName (bs : Bytes) : Except FsError (String × Bytes) :=
  match field 2 bs with
  | .error e => .error e
  | .ok (length, rest) =>
    match field (Bytes.value length + 1) rest with
    | .error e => .error e
    | .ok (name, rest) =>
      match Bytes.toText? name.dropLast with
      | some name => .ok (name, rest)
      | none => .error (.protocol .nameNotText)

/-- The entry at the head of a packed listing, and what follows it. -/
def unpack (bs : Bytes) : Except FsError (Entry × Bytes) :=
  match unpackKind bs with
  | .error e => .error e
  | .ok (kind, rest) =>
    match unpackName rest with
    | .error e => .error e
    | .ok (name, rest) => .ok (⟨name, kind⟩, rest)

theorem field_length {n : Nat} {bs head rest : Bytes} (h : field n bs = .ok (head, rest)) :
    rest.length + n = bs.length := by
  unfold field at h
  split at h
  next parts hp =>
    cases h
    obtain ⟨hn, _, rfl⟩ := Bytes.split?_eq_some_iff.mp hp
    simp only [List.length_drop]
    omega
  next => cases h

theorem unpackKind_length {bs rest : Bytes} {kind : EntryKind}
    (h : unpackKind bs = .ok (kind, rest)) : rest.length < bs.length := by
  unfold unpackKind at h
  split at h
  · cases h
  next hw =>
    have hw := field_length hw
    dsimp only at h
    split at h
    · cases h
      omega
    · split at h
      · split at h
        · cases h
        next hs =>
          have hs := field_length hs
          cases h
          omega
      · cases h

theorem unpackName_length {bs rest : Bytes} {name : String}
    (h : unpackName bs = .ok (name, rest)) : rest.length < bs.length := by
  unfold unpackName at h
  split at h
  · cases h
  next hl =>
    have hl := field_length hl
    split at h
    · cases h
    next hn =>
      have hn := field_length hn
      split at h
      · cases h
        omega
      · cases h

theorem unpack_length {bs rest : Bytes} {entry : Entry}
    (h : unpack bs = .ok (entry, rest)) : rest.length < bs.length := by
  unfold unpack at h
  split at h
  · cases h
  next hk =>
    have hk := unpackKind_length hk
    split at h
    · cases h
    next hn =>
      have hn := unpackName_length hn
      cases h
      omega

/-- Every entry up to the end or up to the first one that does not unpack, with the reason. -/
def unpackEach (bs : Bytes) : List Entry × Option FsError :=
  if bs.isEmpty then ([], none)
  else
    match _hu : unpack bs with
    | .error e => ([], some e)
    | .ok (entry, rest) =>
      let (entries, fault) := unpackEach rest
      (entry :: entries, fault)
termination_by bs.length
decreasing_by exact unpack_length _hu

/-- All entries of a packed listing. -/
def unpackAll (bs : Bytes) : Except FsError (List Entry) :=
  match unpackEach bs with
  | (entries, none) => .ok entries
  | (_, some e) => .error e

/-- A packed listing on its way through the entries. After the first that does not unpack it is at
its end. -/
inductive Reader where
  | reading (rest : Bytes)
  | failed

namespace Reader

/-- The next item, if there is one, and the reader after it. -/
def next : Reader → Option (Except FsError Entry) × Reader
  | failed => (none, failed)
  | reading bs =>
    if bs.isEmpty then (none, reading bs)
    else
      match unpack bs with
      | .error e => (some (.error e), failed)
      | .ok (entry, rest) => (some (.ok entry), reading rest)

/-- The item after `n` others. -/
def item (reader : Reader) : Nat → Option (Except FsError Entry)
  | 0 => reader.next.1
  | n + 1 => reader.next.2.item n

end Reader

end Entry

end BootNamespace
