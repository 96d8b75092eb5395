import BootNamespace.Proofs.Namespace.Lookup

namespace BootNamespace.Namespace

variable {ns ns' : Namespace} {id other : FileId} {old file : FileNode}

theorem openFile_cases (ns : Namespace) (id : FileId) (mode : OpenMode) :
    (∃ e, ns.openFile id mode = (.error e, ns)) ∨
    (∃ old, ns.file? id = some old ∧ (mode ≠ .readOnly → old.access.contains mode.required) ∧
      old.refs.toNat + 1 < UInt32.size ∧
      ns.openFile id mode = (.ok (), ns.putFile id { old with refs := old.refs + 1 })) := by
  unfold openFile
  cases hfile : ns.file? id with
  | none =>
    rw [file_eq_error hfile]
    exact .inl ⟨_, rfl⟩
  | some old =>
    rw [file_eq_ok hfile]
    dsimp only
    split
    next => exact .inl ⟨_, rfl⟩
    next hallowed =>
      split
      next hroom =>
        refine .inr ⟨old, rfl, fun hmode ↦ ?_, hroom, rfl⟩
        simpa [hmode] using hallowed
      next => exact .inl ⟨_, rfl⟩

theorem closeFile_cases (ns : Namespace) (id : FileId) :
    (ns.file? id = none ∧ ns.closeFile id = (.error .notFound, ns)) ∨
    (∃ old, ns.file? id = some old ∧ old.refs = 0 ∧
      ns.closeFile id = (.error (.protocol .noOpenReferences), ns)) ∨
    (∃ old, ns.file? id = some old ∧ old.refs ≠ 0 ∧
      ns.closeFile id = (.ok (old.refs - 1), ns.putFile id { old with refs := old.refs - 1 })) := by
  unfold closeFile
  cases hfile : ns.file? id with
  | none =>
    rw [file_eq_error hfile]
    exact .inl ⟨rfl, rfl⟩
  | some old =>
    rw [file_eq_ok hfile]
    dsimp only
    split
    next hrefs => exact .inr (.inl ⟨old, rfl, hrefs, rfl⟩)
    next hrefs => exact .inr (.inr ⟨old, rfl, hrefs, rfl⟩)

theorem writeAt_cases (ns : Namespace) (id : FileId) (offset : UInt64) (bytes : Buffer) :
    (ns.file? id = none ∧ ns.writeAt id offset bytes = (.error .notFound, ns)) ∨
    (∃ old, ns.file? id = some old ∧ ns.writeAt id offset bytes =
      (.ok (min bytes.length (old.size - offset.toNat)),
        ns.putFile id { old with data := old.data.overwrite offset.toNat bytes })) := by
  unfold writeAt
  cases hfile : ns.file? id with
  | none =>
    rw [file_eq_error hfile]
    exact .inl ⟨rfl, rfl⟩
  | some old =>
    rw [file_eq_ok hfile]
    exact .inr ⟨old, rfl, rfl⟩

theorem truncate_cases (ns : Namespace) (id : FileId) (size : UInt64) :
    (ns.file? id = none ∧ ns.truncate id size = (.error .notFound, ns)) ∨
    (∃ old e, ns.file? id = some old ∧ ns.truncate id size = (.error e, ns) ∧
      (e = .accessDenied ∨ e = .invalidArgument .zeroSize ∨ e = .invalidArgument .sizeOverflow ∨
        e = .resourceExhausted)) ∨
    (∃ old length, ns.file? id = some old ∧ old.access.contains .map ∧ size ≠ 0 ∧
      roundUp ns.pageSize size.toNat = some length ∧ length < allocationLimit ∧
      ns.truncate id size = (.ok length, ns.putFile id { old with
        data := old.data.resize length
        bufferGeneration := old.bufferGeneration + 1 })) := by
  unfold truncate
  cases hfile : ns.file? id with
  | none =>
    rw [file_eq_error hfile]
    exact .inl ⟨rfl, rfl⟩
  | some old =>
    rw [file_eq_ok hfile]
    refine .inr ?_
    dsimp only
    split
    next => exact .inl ⟨old, _, rfl, rfl, .inl rfl⟩
    next hmap =>
      split
      next => exact .inl ⟨old, _, rfl, rfl, .inr (.inl rfl)⟩
      next hsize =>
        split
        next => exact .inl ⟨old, _, rfl, rfl, .inr (.inr (.inl rfl))⟩
        next length hlength =>
          split
          next => exact .inl ⟨old, _, rfl, rfl, .inr (.inr (.inr rfl))⟩
          next hlimit =>
            refine .inr ⟨old, length, rfl, ?_, hsize, hlength, Nat.lt_of_not_le hlimit, rfl⟩
            simpa using hmap

theorem truncate_eq_ok {size : UInt64} {length : Nat} (hold : ns.file? id = some old)
    (hmap : old.access.contains .map) (hsize : size ≠ 0)
    (hround : roundUp ns.pageSize size.toNat = some length) (hlimit : length < allocationLimit) :
    ns.truncate id size = (.ok length, ns.putFile id { old with
      data := old.data.resize length
      bufferGeneration := old.bufferGeneration + 1 }) := by
  rw [truncate, file_eq_ok hold]
  dsimp only
  rw [hmap, hround]
  simp only [Bool.not_true, Bool.false_eq_true, if_false, hsize, Nat.not_le.mpr hlimit]

theorem readAt_eq (hfile : ns.file? id = some file) (offset : UInt64) (max : Nat) :
    ns.readAt id offset max = .ok (file.data.read offset.toNat max) := by
  rw [readAt, file_eq_ok hfile]

end BootNamespace.Namespace
