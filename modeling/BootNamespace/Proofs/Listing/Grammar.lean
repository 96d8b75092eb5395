import Mathlib.Data.List.Forall2
import BootNamespace.Proofs.Listing

namespace BootNamespace.Entry

variable {entry : Entry} {entries shown : List Entry} {kind : EntryKind} {name : String}
variable {bs head piece rest : Bytes} {pieces : List Bytes} {fault : Option FsError} {n : Nat}

/-- What stands in front of the length of the name: a tag, and the size of a file. -/
inductive KindSpelled : EntryKind → Bytes → Prop
  | directory : KindSpelled .directory [1, 0, 0, 0]
  | file (size : UInt64) :
      KindSpelled (.file size) ([2, 0, 0, 0] ++ Bytes.littleEndian 8 size.toNat)

/-- An entry in bytes. Behind the name stands one more byte, and any will do. -/
inductive Spelled : Entry → Bytes → Prop
  | intro {kind : EntryKind} {name : String} {head text : Bytes} (hkind : KindSpelled kind head)
      (htext : Bytes.toText? text = some name) (hlength : text.length < 2 ^ 16)
      (terminator : UInt8) :
      Spelled ⟨name, kind⟩ (head ++ Bytes.littleEndian 2 text.length ++ text ++ [terminator])

theorem kindSpelled_iff : KindSpelled kind head ↔ head = packedKind kind := by
  constructor
  · intro hkind
    cases hkind with
    | directory => rfl
    | file size => rfl
  · rintro rfl
    cases kind with
    | directory => exact .directory
    | file size => exact .file size

theorem spelled_iff : Spelled entry piece ↔ entry.packable ∧ ∃ terminator,
    piece = packedKind entry.kind ++ (Bytes.littleEndian 2 entry.name.utf8ByteSize ++
      (Bytes.ofText entry.name ++ [terminator])) := by
  constructor
  · rintro ⟨hkind, htext, hlength, terminator⟩
    rw [kindSpelled_iff] at hkind
    rw [Bytes.toText?_eq_some_iff] at htext
    subst hkind htext
    rw [Bytes.ofText_length] at hlength ⊢
    refine ⟨by simpa [packable] using hlength, terminator, ?_⟩
    simp only [List.append_assoc]
  · rintro ⟨hpackable, terminator, rfl⟩
    obtain ⟨name, kind⟩ := entry
    have hlength : (Bytes.ofText name).length < 2 ^ 16 := by
      rw [Bytes.ofText_length]
      simpa [packable] using hpackable
    have hspelled := Spelled.intro (kindSpelled_iff.mpr rfl : KindSpelled kind _)
      (Bytes.toText?_ofText name) hlength terminator
    simpa only [Bytes.ofText_length, List.append_assoc] using hspelled

theorem field_eq_ok_iff : field n bs = .ok (head, rest) ↔ head.length = n ∧ bs = head ++ rest := by
  constructor
  · intro h
    unfold field at h
    split at h
    next hsplit =>
      cases h
      obtain ⟨hn, rfl, rfl⟩ := Bytes.split?_eq_some_iff.mp hsplit
      exact ⟨List.length_take_of_le hn, (List.take_append_drop n bs).symm⟩
    next => cases h
  · rintro ⟨hn, rfl⟩
    exact field_append hn rest

theorem eq_packedKind_append (h : unpackKind bs = .ok (kind, rest)) :
    bs = packedKind kind ++ rest := by
  unfold unpackKind at h
  split at h
  · cases h
  next word tail hword =>
    obtain ⟨hlength, rfl⟩ := field_eq_ok_iff.mp hword
    have hspelled := Bytes.ofUInt32_toUInt32 hlength
    dsimp only at h
    split at h
    next hdir =>
      cases h
      rw [packedKind, ← hdir, hspelled]
    next =>
      split at h
      next hfile =>
        split at h
        · cases h
        next size rest hsize =>
          cases h
          obtain ⟨hlength, rfl⟩ := field_eq_ok_iff.mp hsize
          rw [packedKind, ← hfile, hspelled, Bytes.ofUInt64_toUInt64 hlength, List.append_assoc]
      next => cases h

theorem exists_packedName (h : unpackName bs = .ok (name, rest)) : name.utf8ByteSize < UInt16.size ∧
    ∃ terminator, bs = Bytes.littleEndian 2 name.utf8ByteSize ++
      (Bytes.ofText name ++ [terminator]) ++ rest := by
  unfold unpackName at h
  split at h
  · cases h
  next count tail hcount =>
    obtain ⟨hwidth, rfl⟩ := field_eq_ok_iff.mp hcount
    split at h
    · cases h
    next text rest htext =>
      obtain ⟨hlength, rfl⟩ := field_eq_ok_iff.mp htext
      split at h
      next name hname =>
        cases h
        rw [Bytes.toText?_eq_some_iff] at hname
        have hne : text ≠ [] := List.ne_nil_of_length_eq_add_one hlength
        have hsize : Bytes.value count = name.utf8ByteSize := by
          rw [← Bytes.ofText_length, ← hname, List.length_dropLast, hlength, Nat.add_sub_cancel]
        have hlt := Bytes.value_lt count
        have hspelled := Bytes.littleEndian_value count
        rw [hwidth, hsize] at hlt hspelled
        refine ⟨hlt, text.getLast hne, ?_⟩
        rw [hspelled, ← hname, List.dropLast_concat_getLast, List.append_assoc]
      next => cases h

/-- What unpacks is an entry in bytes, whatever follows it. -/
theorem unpack_eq_ok_iff :
    unpack bs = .ok (entry, rest) ↔ ∃ piece, Spelled entry piece ∧ bs = piece ++ rest := by
  constructor
  · intro h
    unfold unpack at h
    split at h
    · cases h
    next kind tail hkind =>
      split at h
      · cases h
      next name rest hname =>
        cases h
        obtain ⟨hlength, terminator, rfl⟩ := exists_packedName hname
        refine ⟨_, spelled_iff.mpr ⟨by simpa [packable] using hlength, terminator, rfl⟩, ?_⟩
        rw [eq_packedKind_append hkind]
        simp only [List.append_assoc]
  · rintro ⟨piece, hspelled, rfl⟩
    obtain ⟨hpackable, terminator, rfl⟩ := spelled_iff.mp hspelled
    have hname : entry.name.utf8ByteSize < UInt16.size := by simpa [packable] using hpackable
    rw [List.append_assoc, unpack, unpackKind_append]
    dsimp only
    rw [unpackName_append hname]

theorem Spelled.ne_nil (h : Spelled entry piece) : piece ≠ [] := by
  obtain ⟨-, -, -, terminator⟩ := h
  simp

/-- The packed form is the one with a NUL behind the name. -/
theorem Spelled.pack_eq (h : Spelled entry piece) : entry.pack = piece.dropLast ++ [0] := by
  obtain ⟨-, terminator, rfl⟩ := spelled_iff.mp h
  rw [Entry.pack_eq, packedName, ← List.append_assoc, ← List.append_assoc, ← List.append_assoc,
    ← List.append_assoc, List.dropLast_concat]

theorem Spelled.length_eq (h : Spelled entry piece) : piece.length = entry.packedLength := by
  have hpos := List.length_pos_of_ne_nil h.ne_nil
  rw [← pack_length, h.pack_eq, List.length_append, List.length_dropLast, List.length_singleton]
  omega

/-- Some bytes as entries, one after the other, and a rest that starts with none. -/
structure Split (bs : Bytes) (entries : List Entry) (fault : Option FsError) (pieces : List Bytes)
    (rest : Bytes) : Prop where
  spelled : List.Forall₂ Spelled entries pieces
  whole : bs = pieces.flatten ++ rest
  fault_none : fault = none ↔ rest = []
  stops {entry : Entry} {piece : Bytes} (h : Spelled entry piece) : ¬piece <+: rest

theorem Split.nil : Split [] [] none [] [] where
  spelled := .nil
  whole := rfl
  fault_none := by simp
  stops h hprefix := h.ne_nil (List.prefix_nil.mp hprefix)

theorem Split.error {e : FsError} (hbytes : bs ≠ []) (hunpack : unpack bs = .error e) :
    Split bs [] (some e) [] bs where
  spelled := .nil
  whole := rfl
  fault_none := by simpa using hbytes
  stops {entry piece} h hprefix := by
    obtain ⟨rest, hrest⟩ := hprefix
    have hok := unpack_eq_ok_iff.mpr ⟨piece, h, hrest.symm⟩
    cases hunpack.symm.trans hok

theorem Split.cons {tail : Bytes} (hentry : Spelled entry piece)
    (htail : Split tail entries fault pieces rest) :
    Split (piece ++ tail) (entry :: entries) fault (piece :: pieces) rest where
  spelled := .cons hentry htail.spelled
  whole := by rw [htail.whole, List.flatten_cons, List.append_assoc]
  fault_none := htail.fault_none
  stops h := htail.stops h

theorem exists_split (bs : Bytes) :
    ∃ pieces rest, Split bs (unpackEach bs).1 (unpackEach bs).2 pieces rest := by
  induction bs using unpackEach.induct with
  | case1 bs hempty =>
    rw [List.isEmpty_iff.mp hempty, unpackEach_nil]
    exact ⟨[], [], .nil⟩
  | case2 bs hbytes e hunpack =>
    have hbytes : bs ≠ [] := by simpa using hbytes
    rw [unpackEach_of_error hbytes hunpack]
    exact ⟨[], bs, .error hbytes hunpack⟩
  | case3 bs hbytes entry tail hunpack entries fault heach ih =>
    obtain ⟨piece, hentry, rfl⟩ := unpack_eq_ok_iff.mp hunpack
    obtain ⟨pieces, rest, htail⟩ := ih
    rw [unpackEach_of_ok hunpack]
    exact ⟨piece :: pieces, rest, htail.cons hentry⟩

namespace Reader

theorem item_of_done {reader : Reader} (h : reader.next = (none, reader)) (n : Nat) :
    reader.item n = none := by
  induction n with
  | zero => rw [item, h]
  | succ n ih => rw [item, h, ih]

theorem next_of_error {e : FsError} (hbytes : bs ≠ []) (hunpack : unpack bs = .error e) :
    (reading bs).next = (some (.error e), failed) := by
  rw [next, if_neg (by simpa using hbytes), hunpack]

theorem next_of_ok (hunpack : unpack bs = .ok (entry, rest)) :
    (reading bs).next = (some (.ok entry), reading rest) := by
  obtain ⟨piece, hentry, rfl⟩ := unpack_eq_ok_iff.mp hunpack
  rw [next, if_neg (by simp [hentry.ne_nil]), hunpack]

/-- A reader gives the entries and then the fault, if there is one, and nothing after that. -/
theorem item_reading (bs : Bytes) (n : Nat) : (reading bs).item n =
    ((unpackEach bs).1.map .ok ++ (unpackEach bs).2.toList.map .error)[n]? := by
  induction bs using unpackEach.induct generalizing n with
  | case1 bs hempty =>
    rw [List.isEmpty_iff.mp hempty, unpackEach_nil, item_of_done rfl]
    rfl
  | case2 bs hbytes e hunpack =>
    have hbytes : bs ≠ [] := by simpa using hbytes
    rw [unpackEach_of_error hbytes hunpack]
    cases n with
    | zero =>
      rw [item, next_of_error hbytes hunpack]
      rfl
    | succ n =>
      rw [item, next_of_error hbytes hunpack, item_of_done rfl]
      rfl
  | case3 bs hbytes entry tail hunpack entries fault heach ih =>
    rw [unpackEach_of_ok hunpack]
    cases n with
    | zero =>
      rw [item, next_of_ok hunpack]
      rfl
    | succ n =>
      rw [item, next_of_ok hunpack, ih]
      rfl

end Reader

/-- What fits is packed whole. -/
theorem packAll_of_fits (h : ∀ entry ∈ entries, entry.packable) {limit : Nat}
    (hfits : packedSize entries ≤ limit) : packAll limit entries = entries.flatMap pack := by
  obtain ⟨shown, hshown, hpacked⟩ := packAll_longestWithin h limit
  have hall : entries <+: shown := hshown.longest List.prefix_rfl hfits
  rw [hpacked, hall.eq_of_length_le hshown.beginning.length_le]

theorem flatMap_pack_of_spelled (h : List.Forall₂ Spelled entries pieces) :
    entries.flatMap pack = pieces.flatMap fun piece ↦ piece.dropLast ++ [0] := by
  induction h with
  | nil => rfl
  | cons hentry _ ih => rw [List.flatMap_cons, List.flatMap_cons, hentry.pack_eq, ih]

theorem packedSize_of_spelled (h : List.Forall₂ Spelled entries pieces) :
    packedSize entries = pieces.flatten.length := by
  induction h with
  | nil => rfl
  | cons hentry _ ih =>
    rw [packedSize, List.map_cons, List.sum_cons, ← packedSize, ih, List.flatten_cons,
      List.length_append, hentry.length_eq]

theorem packable_of_spelled (h : List.Forall₂ Spelled entries pieces) :
    ∀ entry ∈ entries, entry.packable := by
  induction h with
  | nil => simp
  | cons hentry _ ih => exact List.forall_mem_cons.mpr ⟨(spelled_iff.mp hentry).1, ih⟩

theorem unpackEach_of_spelled (h : List.Forall₂ Spelled entries pieces) :
    unpackEach pieces.flatten = (entries, none) := by
  induction h with
  | nil => exact unpackEach_nil
  | cons hentry _ ih =>
    rw [List.flatten_cons, unpackEach_of_ok (unpack_eq_ok_iff.mpr ⟨_, hentry, rfl⟩), ih]

theorem unpackAll_eq_ok_iff : unpackAll bs = .ok shown ↔ unpackEach bs = (shown, none) := by
  unfold unpackAll
  split
  next heq => simp [heq]
  next heq => simp [heq]

/-- Reading a packed listing gives the entries that it starts with and stops, with a fault where it
is no entry that comes next. The listing is read whole if it is made of entries, and is then packed
again as it was, but for the bytes behind the names. -/
theorem listing_read_by_grammar (bs : Bytes) : ∃ entries fault pieces rest,
    (∀ n, (Reader.reading bs).item n = (entries.map .ok ++ fault.toList.map .error)[n]?) ∧
    Split bs entries fault pieces rest ∧
    (unpackAll bs = .ok entries ↔ rest = []) ∧
    (rest = [] → (packAll bs.length entries).length = bs.length ∧
      packAll bs.length entries = pieces.flatMap fun piece ↦ piece.dropLast ++ [0]) ∧
    ∀ shown, unpackAll bs = .ok shown ↔
      ∃ pieces, List.Forall₂ Spelled shown pieces ∧ bs = pieces.flatten := by
  obtain ⟨pieces, rest, hsplit⟩ := exists_split bs
  refine ⟨_, _, pieces, rest, Reader.item_reading bs, hsplit, ?_, ?_, ?_⟩
  · rw [unpackAll_eq_ok_iff, ← hsplit.fault_none, Prod.ext_iff]
    exact and_iff_right rfl
  · rintro rfl
    have hwhole : bs = pieces.flatten := hsplit.whole.trans (List.append_nil _)
    have hsize := packedSize_of_spelled hsplit.spelled
    rw [← hwhole] at hsize
    have hpacked := packAll_of_fits (packable_of_spelled hsplit.spelled) (Nat.le_of_eq hsize)
    refine ⟨?_, hpacked.trans (flatMap_pack_of_spelled hsplit.spelled)⟩
    rw [hpacked, flatMap_pack_length, hsize]
  · intro shown
    rw [unpackAll_eq_ok_iff]
    constructor
    · intro heach
      rw [heach] at hsplit
      rw [hsplit.fault_none.mp rfl] at hsplit
      exact ⟨pieces, hsplit.spelled, hsplit.whole.trans (List.append_nil _)⟩
    · rintro ⟨pieces, hspelled, rfl⟩
      exact unpackEach_of_spelled hspelled

end BootNamespace.Entry
