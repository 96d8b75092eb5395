import BootNamespace.Namespace.Content
import BootNamespace.Namespace.Create

namespace BootNamespace.Namespace

variable {ns : Namespace} {d p : DirId} {node : DirNode} {id other : FileId} {file old : FileNode}

theorem index_inj : d.index = p.index ↔ d = p := by
  cases d
  cases p
  simp

theorem lt_of_dir? (h : ns.dir? d = some node) : d.index < ns.dirs.size :=
  (Array.getElem?_eq_some_iff.mp h).1

theorem dir?_of_lt (h : d.index < ns.dirs.size) : ∃ node, ns.dir? d = some node :=
  ⟨_, Array.getElem?_eq_getElem h⟩

theorem file?_eq_some_iff :
    ns.file? id = some file ↔ ns.slots[id.slot]? = some ⟨id.generation, some file⟩ := by
  unfold file?
  cases hslot : ns.slots[id.slot]? with
  | none => simp
  | some slot =>
    obtain ⟨generation, node⟩ := slot
    dsimp only
    split
    next h => simp [h]
    next h => simp [h]

theorem file?_eq_none_of_slot {generation : UInt32}
    (h : ns.slots[id.slot]? = some ⟨generation, none⟩) : ns.file? id = none := by
  rw [Option.eq_none_iff_forall_ne_some]
  intro file hfile
  rw [file?_eq_some_iff, h] at hfile
  simp at hfile

theorem file_eq_ok (h : ns.file? id = some file) : ns.file id = .ok file := by
  rw [Namespace.file, h]

theorem file_eq_ok_iff : ns.file id = .ok file ↔ ns.file? id = some file := by
  unfold Namespace.file
  cases ns.file? id with
  | none => simp
  | some found => simp

theorem file_eq_error (h : ns.file? id = none) : ns.file id = .error .notFound := by
  rw [Namespace.file, h]

theorem find?_eq_some_iff_of_unique {α : Type} {xs : List α} {f : α → Bool} {a : α}
    (hunique : ∀ b ∈ xs, f b → a ∈ xs → f a → b = a) :
    xs.find? f = some a ↔ a ∈ xs ∧ f a := by
  constructor
  · exact fun h ↦ ⟨List.mem_of_find?_eq_some h, List.find?_some h⟩
  · rintro ⟨hmem, hf⟩
    cases hfind : xs.find? f with
    | none => exact absurd hf (List.find?_eq_none.mp hfind a hmem)
    | some b => rw [hunique b (List.mem_of_find?_eq_some hfind) (List.find?_some hfind) hmem hf]

/-- Two handles of one slot are never live at once. -/
theorem slot_inj (h : ns.file? id = some file) (k : ns.file? other = some old)
    (hslot : other.slot = id.slot) : other = id := by
  rw [file?_eq_some_iff] at h k
  rw [hslot, h] at k
  cases id
  cases other
  simp_all

theorem dir?_modify (f : DirNode → DirNode) :
    ({ ns with dirs := ns.dirs.modify p.index f } : Namespace).dir? d =
      if d = p then (ns.dir? d).map f else ns.dir? d := by
  unfold dir?
  rw [Array.getElem?_modify]
  by_cases h : d = p
  · subst h
    simp
  · rw [if_neg (fun he ↦ h (index_inj.mp he.symm)), if_neg h]

theorem file?_putFile (h : ns.file? id = some old) :
    (ns.putFile id file).file? other = if other = id then some file else ns.file? other := by
  have hslot := file?_eq_some_iff.mp h
  apply Option.ext
  intro found
  rw [file?_eq_some_iff, putFile, Array.getElem?_modify]
  by_cases hs : id.slot = other.slot
  · rw [if_pos hs, ← hs, hslot]
    by_cases hother : other = id
    · simp [hother]
    · have hdead : ns.file? other = none := by
        rw [Option.eq_none_iff_forall_ne_some]
        exact fun found hfound ↦ hother (slot_inj h hfound hs.symm)
      have hne : id.generation ≠ other.generation := by
        rintro hgeneration
        apply hother
        cases id
        cases other
        simp_all
      simp [hother, hdead, hne]
  · have hother : other ≠ id := by
      rintro rfl
      exact hs rfl
    rw [if_neg hs, if_neg hother, file?_eq_some_iff]

theorem file?_putFile_self (h : ns.file? id = some old) :
    (ns.putFile id file).file? id = some file := by
  rw [file?_putFile h, if_pos rfl]

theorem putFile_putFile (ns : Namespace) (id : FileId) (file file' : FileNode) :
    (ns.putFile id file).putFile id file' = ns.putFile id file' := by
  simp only [putFile, mk.injEq, and_true, true_and]
  apply Array.ext_getElem?
  intro i
  simp only [Array.getElem?_modify]
  split
  · rw [Option.map_map]
    rfl
  · rfl

theorem putFile_self (h : ns.file? id = some file) : ns.putFile id file = ns := by
  have hslot := file?_eq_some_iff.mp h
  have hsame : ns.slots.modify id.slot (fun slot ↦ { slot with node := some file }) = ns.slots := by
    apply Array.ext_getElem?
    intro i
    rw [Array.getElem?_modify]
    split
    next hi =>
      rw [← hi, hslot]
      rfl
    next => rfl
  rw [putFile, hsame]

theorem putFile_comm (h : ns.file? id = some file) (k : ns.file? other = some old)
    (hother : other ≠ id) (file' old' : FileNode) :
    (ns.putFile id file').putFile other old' = (ns.putFile other old').putFile id file' := by
  have hslot : id.slot ≠ other.slot := fun hs ↦ hother (slot_inj h k hs.symm)
  simp only [putFile, mk.injEq, and_true, true_and]
  apply Array.ext_getElem?
  intro i
  simp only [Array.getElem?_modify]
  split
  next hi =>
    have hid : ¬id.slot = i := fun hs ↦ hslot (hs.trans hi.symm)
    simp only [if_neg hid]
  next => rfl

theorem dir?_addDir (hp : p.index < ns.dirs.size) (name : String) :
    (ns.addDir p name).2.dir? d =
      if d.index = ns.dirs.size then some ⟨name, some p, [], []⟩
      else if d = p then
        (ns.dir? d).map fun node ↦ { node with dirs := ⟨ns.dirs.size⟩ :: node.dirs }
      else ns.dir? d := by
  have hmodify := @dir?_modify { ns with dirs := ns.dirs.push ⟨name, some p, [], []⟩ } d p
    fun node ↦ { node with dirs := ⟨ns.dirs.size⟩ :: node.dirs }
  refine Eq.trans hmodify ?_
  have hpush : ({ ns with dirs := ns.dirs.push ⟨name, some p, [], []⟩ } : Namespace).dir? d =
      if d.index = ns.dirs.size then some ⟨name, some p, [], []⟩ else ns.dir? d := by
    unfold dir?
    rw [Array.getElem?_push]
  rw [hpush]
  by_cases hd : d.index = ns.dirs.size
  · have hne : d ≠ p := by
      rintro rfl
      omega
    simp [hd, hne]
  · simp only [if_neg hd]

theorem size_dirs_addDir (name : String) :
    (ns.addDir p name).2.dirs.size = ns.dirs.size + 1 := by
  simp [addDir]

theorem dir?_link : (ns.link p id).dir? d =
    if d = p then (ns.dir? d).map fun node ↦ { node with files := id :: node.files }
    else ns.dir? d :=
  dir?_modify _

@[simp] theorem file?_link : (ns.link p id).file? other = ns.file? other := rfl

end BootNamespace.Namespace
