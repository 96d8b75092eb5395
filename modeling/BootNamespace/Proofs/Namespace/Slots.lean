import BootNamespace.Proofs.Namespace.Lookup

namespace BootNamespace.Namespace

variable {ns : Namespace} {d p : DirId} {id other : FileId} {file old : FileNode}

/-- The free list holds exactly the slots without a file, each once. -/
structure SlotsSound (ns : Namespace) : Prop where
  free_iff (slot : Nat) :
    slot ∈ ns.free ↔ ∃ generation, ns.slots[slot]? = some ⟨generation, none⟩
  free_nodup : ns.free.Nodup

theorem SlotsSound.empty (pageSize : Nat) : (Namespace.empty pageSize).SlotsSound where
  free_iff slot := by simp [Namespace.empty]
  free_nodup := List.nodup_nil

theorem SlotsSound.putFile (h : ns.SlotsSound) (hold : ns.file? id = some old) :
    (ns.putFile id file).SlotsSound where
  free_iff slot := by
    have hslot := file?_eq_some_iff.mp hold
    refine (h.free_iff slot).trans ?_
    simp only [Namespace.putFile, Array.getElem?_modify]
    split
    next he =>
      subst he
      simp [hslot]
    next => rfl
  free_nodup := h.free_nodup

theorem SlotsSound.link (h : ns.SlotsSound) (d : DirId) (id : FileId) : (ns.link d id).SlotsSound :=
  ⟨h.free_iff, h.free_nodup⟩

theorem getElem?_setIfInBounds_slot {slot : Nat} {generation : UInt32}
    (h : ns.slots[slot]? = some ⟨generation, none⟩) (i : Nat) :
    (ns.slots.set! slot ⟨generation, some file⟩)[i]? =
      if i = slot then some ⟨generation, some file⟩ else ns.slots[i]? := by
  have hlt := (Array.getElem?_eq_some_iff.mp h).1
  rw [Array.set!_eq_setIfInBounds, Array.getElem?_setIfInBounds]
  by_cases hi : i = slot
  · simp [hi, hlt]
  · rw [if_neg (Ne.symm hi), if_neg hi]

/-- A slot that was without a file now has one, and no other handle is affected. -/
theorem file?_of_filled (id : FileId) {ns' : Namespace}
    (hfree : ∀ generation, ns.file? ⟨id.slot, generation⟩ = none)
    (hslots : ∀ i, ns'.slots[i]? =
      if i = id.slot then some ⟨id.generation, some file⟩ else ns.slots[i]?) :
    ns'.file? other = if other = id then some file else ns.file? other := by
  apply Option.ext
  intro found
  rw [file?_eq_some_iff, hslots]
  by_cases hs : other.slot = id.slot
  -- Another generation of the slot was dead before, and is dead now because it is another.
  · rw [if_pos hs]
    by_cases he : other = id
    · simp [he]
    · have hdead : ns.file? other = none := by
        have := hfree other.generation
        rwa [← hs] at this
      have hne : id.generation ≠ other.generation := by
        intro hg
        apply he
        cases id
        cases other
        simp_all
      simp [he, hdead, hne]
  · have he : other ≠ id := by
      rintro rfl
      exact hs rfl
    rw [if_neg hs, if_neg he, file?_eq_some_iff]

/-- What a successful allocation does: a handle that was dead is live, and nothing else changes. -/
structure Allocated (ns : Namespace) (file : FileNode) (id : FileId) (ns' : Namespace) : Prop where
  dirs : ns'.dirs = ns.dirs
  pageSize : ns'.pageSize = ns.pageSize
  dead : ns.file? id = none
  file? (other : FileId) : ns'.file? other = if other = id then some file else ns.file? other
  slots : ns'.SlotsSound

theorem allocated_reused (h : ns.SlotsSound) {slot : Nat} {rest : List Nat} {generation : UInt32}
    (hfree : ns.free = slot :: rest) (hslot : ns.slots[slot]? = some ⟨generation, none⟩) :
    ns.Allocated file ⟨slot, generation⟩
      { ns with slots := ns.slots.set! slot ⟨generation, some file⟩, free := rest } where
  dirs := rfl
  pageSize := rfl
  dead := file?_eq_none_of_slot hslot
  file? other := by
    refine file?_of_filled ⟨slot, generation⟩ (fun g ↦ ?_) (getElem?_setIfInBounds_slot hslot)
    exact file?_eq_none_of_slot hslot
  slots := by
    have hnodup := h.free_nodup
    rw [hfree, List.nodup_cons] at hnodup
    refine ⟨fun i ↦ ?_, hnodup.2⟩
    simp only [getElem?_setIfInBounds_slot hslot]
    have hi := h.free_iff i
    rw [hfree, List.mem_cons] at hi
    by_cases he : i = slot
    · subst he
      simp [hnodup.1]
    · rw [if_neg he, ← hi]
      simp [he]

theorem allocated_pushed (h : ns.SlotsSound) :
    ns.Allocated file ⟨ns.slots.size, 0⟩ { ns with slots := ns.slots.push ⟨0, some file⟩ } where
  dirs := rfl
  pageSize := rfl
  dead := by simp [Namespace.file?]
  file? other := by
    refine file?_of_filled ⟨ns.slots.size, 0⟩ (fun g ↦ by simp [Namespace.file?]) fun i ↦ ?_
    exact Array.getElem?_push
  slots := by
    refine ⟨fun i ↦ ?_, h.free_nodup⟩
    refine (h.free_iff i).trans ?_
    simp only [Array.getElem?_push]
    split
    next he => simp [he]
    next => rfl

theorem fileCount_eq_size (h : ns.SlotsSound) (hfree : ns.free = []) :
    ns.fileCount = ns.slots.size := by
  have hall : ∀ slot ∈ ns.slots.toList, slot.node.isSome := by
    intro slot hmem
    obtain ⟨i, hi⟩ := List.mem_iff_getElem?.mp hmem
    rw [Array.getElem?_toList] at hi
    cases hnode : slot.node with
    | some file => rfl
    | none =>
      have hin : i ∈ ns.free := by
        refine (h.free_iff i).mpr ⟨slot.generation, ?_⟩
        rw [hi, ← hnode]
      simp [hfree] at hin
  rw [fileCount, List.countP_eq_length.mpr hall, Array.length_toList]

theorem allocate_cases (h : ns.SlotsSound) (file : FileNode) :
    (∃ id ns', ns.allocate file = (.ok id, ns') ∧ ns.Allocated file id ns') ∨
    (ns.allocate file = (.error .resourceExhausted, ns) ∧ arenaLimit ≤ ns.fileCount) := by
  unfold allocate
  split
  next slot rest hfree =>
    have hin : slot ∈ ns.free := by simp [hfree]
    obtain ⟨generation, hslot⟩ := (h.free_iff slot).mp hin
    simp only [hslot]
    exact .inl ⟨_, _, rfl, allocated_reused h hfree hslot⟩
  next hfree =>
    split
    next => exact .inl ⟨_, _, rfl, allocated_pushed h⟩
    next hfull =>
      refine .inr ⟨rfl, ?_⟩
      rw [fileCount_eq_size h hfree]
      exact Nat.le_of_not_lt hfull

/-- The namespace once a file is off its directory's list and its slot is given back. -/
def withoutFile (ns : Namespace) (id : FileId) (owner : DirId) : Namespace :=
  { ns with
    dirs := ns.dirs.modify owner.index fun node ↦ { node with files := node.files.filter (· ≠ id) }
    slots := ns.slots.modify id.slot fun slot ↦ ⟨slot.generation + 1, none⟩
    free := id.slot :: ns.free }

theorem deleteFile_eq (h : ns.file? id = some file) :
    ns.deleteFile id =
      if 0 < file.refs then (.error .busy, ns) else (.ok (), ns.withoutFile id file.owner) := by
  rw [deleteFile, file_eq_ok h]
  rfl

theorem deleteFile_eq_notFound (h : ns.file? id = none) :
    ns.deleteFile id = (.error .notFound, ns) := by
  rw [deleteFile, file_eq_error h]

theorem deleteFile_cases (ns : Namespace) (id : FileId) :
    (ns.file? id = none ∧ ns.deleteFile id = (.error .notFound, ns)) ∨
    (∃ file, ns.file? id = some file ∧ 0 < file.refs ∧ ns.deleteFile id = (.error .busy, ns)) ∨
    (∃ file, ns.file? id = some file ∧ file.refs = 0 ∧
      ns.deleteFile id = (.ok (), ns.withoutFile id file.owner)) := by
  cases hfile : ns.file? id with
  | none => exact .inl ⟨rfl, deleteFile_eq_notFound hfile⟩
  | some file =>
    rw [deleteFile_eq hfile]
    split
    next hopen => exact .inr (.inl ⟨file, rfl, hopen, rfl⟩)
    next hclosed =>
      have hrefs : file.refs = 0 := by
        rw [UInt32.lt_iff_toNat_lt] at hclosed
        rw [← UInt32.toNat_inj]
        exact Nat.eq_zero_of_not_pos hclosed
      exact .inr (.inr ⟨file, rfl, hrefs, rfl⟩)

theorem dir?_withoutFile (owner : DirId) :
    (ns.withoutFile id owner).dir? d =
      if d = owner then (ns.dir? d).map fun node ↦ { node with files := node.files.filter (· ≠ id) }
      else ns.dir? d :=
  dir?_modify _

theorem getElem?_withoutFile (owner : DirId) (i : Nat) :
    (ns.withoutFile id owner).slots[i]? =
      if i = id.slot then ns.slots[i]?.map fun slot ↦ ⟨slot.generation + 1, none⟩
      else ns.slots[i]? := by
  rw [withoutFile, Array.getElem?_modify]
  by_cases h : i = id.slot
  · subst h
    simp
  · rw [if_neg (Ne.symm h), if_neg h]

theorem file?_withoutFile (h : ns.file? id = some old) (owner : DirId) :
    (ns.withoutFile id owner).file? other = if other = id then none else ns.file? other := by
  have hslot := file?_eq_some_iff.mp h
  by_cases hs : other.slot = id.slot
  · have hdead : (ns.withoutFile id owner).file? other = none := by
      have hgiven : (ns.withoutFile id owner).slots[other.slot]? =
          some ⟨id.generation + 1, none⟩ := by
        rw [getElem?_withoutFile, if_pos hs, hs, hslot]
        rfl
      exact file?_eq_none_of_slot hgiven
    rw [hdead]
    split
    next => rfl
    next hne =>
      symm
      rw [Option.eq_none_iff_forall_ne_some]
      exact fun found hfound ↦ hne (slot_inj h hfound hs)
  · have he : other ≠ id := by
      rintro rfl
      exact hs rfl
    apply Option.ext
    intro found
    rw [if_neg he, file?_eq_some_iff, file?_eq_some_iff, getElem?_withoutFile, if_neg hs]

theorem SlotsSound.withoutFile (h : ns.SlotsSound) (hold : ns.file? id = some old)
    (owner : DirId) : (ns.withoutFile id owner).SlotsSound where
  free_iff slot := by
    have hslot := file?_eq_some_iff.mp hold
    simp only [getElem?_withoutFile]
    change slot ∈ id.slot :: ns.free ↔ _
    rw [List.mem_cons, h.free_iff]
    by_cases he : slot = id.slot
    · subst he
      simp [hslot]
    · simp [he]
  free_nodup := by
    refine List.nodup_cons.mpr ⟨fun hin ↦ ?_, h.free_nodup⟩
    obtain ⟨generation, hfree⟩ := (h.free_iff _).mp hin
    rw [file?_eq_some_iff.mp hold] at hfree
    simp at hfree

end BootNamespace.Namespace
