import BootNamespace.Proofs.Namespace.Slots

namespace BootNamespace.Namespace

variable {ns ns' : Namespace} {d p q : DirId} {node : DirNode} {name : String}
variable {id other : FileId} {file old : FileNode}

/-- `id` is the file called `name` in `p`. -/
def HasFile (ns : Namespace) (p : DirId) (name : String) (id : FileId) : Prop :=
  ∃ file, ns.file? id = some file ∧ file.owner = p ∧ file.name = name

/-- The directory of a file exists, and lists it once and under a name of its own. -/
structure FilesSound (ns : Namespace) : Prop where
  owner {id : FileId} {file : FileNode} (h : ns.file? id = some file) :
    file.owner.index < ns.dirs.size
  mem_files {p : DirId} {node : DirNode} {id : FileId} (h : ns.dir? p = some node) :
    id ∈ node.files ↔ ∃ name, ns.HasFile p name id
  files_nodup {p : DirId} {node : DirNode} (h : ns.dir? p = some node) : node.files.Nodup
  name_inj {p : DirId} {name : String} {id other : FileId} (h : ns.HasFile p name id)
    (k : ns.HasFile p name other) : id = other
  valid {p : DirId} {name : String} {id : FileId} (h : ns.HasFile p name id) : Path.validName name

theorem childFile_eq_some_iff (h : ns.FilesSound) :
    ns.childFile p name = some id ↔ ns.HasFile p name id := by
  unfold childFile
  cases hp : ns.dir? p with
  | none =>
    simp only [reduceCtorEq, false_iff]
    rintro ⟨file, hfile, rfl, -⟩
    obtain ⟨node, hnode⟩ := dir?_of_lt (h.owner hfile)
    rw [hp] at hnode
    cases hnode
  | some pnode =>
    have hnamed (other : FileId) : (ns.file? other).any (·.name == name) ∧ other ∈ pnode.files ↔
        ns.HasFile p name other := by
      rw [h.mem_files hp, Option.any_eq_true]
      simp only [beq_iff_eq]
      constructor
      · rintro ⟨⟨file, hfile, hname⟩, _, file', hfile', howner, -⟩
        rw [hfile] at hfile'
        cases hfile'
        exact ⟨file, hfile, howner, hname⟩
      · rintro ⟨file, hfile, howner, hname⟩
        exact ⟨⟨file, hfile, hname⟩, name, file, hfile, howner, hname⟩
    refine (find?_eq_some_iff_of_unique fun i hi hname hid hidname ↦ ?_).trans
      (and_comm.trans (hnamed id))
    exact h.name_inj ((hnamed i).mp ⟨hname, hi⟩) ((hnamed id).mp ⟨hidname, hid⟩)

theorem childFile_eq_none_iff (h : ns.FilesSound) :
    ns.childFile p name = none ↔ ∀ id, ¬ns.HasFile p name id := by
  rw [Option.eq_none_iff_forall_ne_some]
  simp only [ne_eq, childFile_eq_some_iff h]

theorem FilesSound.empty (pageSize : Nat) : (Namespace.empty pageSize).FilesSound := by
  have hdead (id : FileId) : (Namespace.empty pageSize).file? id = none := rfl
  have hno (p : DirId) (name : String) (id : FileId) :
      ¬(Namespace.empty pageSize).HasFile p name id := by
    rintro ⟨file, hfile, -⟩
    cases hfile
  have hfiles (p : DirId) (node : DirNode) (h : (Namespace.empty pageSize).dir? p = some node) :
      node.files = [] := by
    have hlt : p.index < 1 := lt_of_dir? h
    obtain ⟨_ | index⟩ := p
    · cases h
      rfl
    · exact absurd hlt (by simp)
  refine ⟨fun {id file} h ↦ ?_, fun {p node id} h ↦ ?_, fun {p node} h ↦ ?_,
    fun h ↦ absurd h (hno _ _ _), fun h ↦ absurd h (hno _ _ _)⟩
  · rw [hdead] at h
    cases h
  · simp [hfiles p node h, hno]
  · simp [hfiles p node h]

theorem FilesSound.addDir (h : ns.FilesSound) (hp : p.index < ns.dirs.size) :
    (ns.addDir p name).2.FilesSound := by
  have hnode {q : DirId} {node : DirNode} (hq : (ns.addDir p name).2.dir? q = some node) :
      (q.index = ns.dirs.size ∧ node.files = []) ∨
        ∃ old, ns.dir? q = some old ∧ old.files = node.files := by
    rw [dir?_addDir hp] at hq
    split at hq
    next hsize =>
      cases hq
      exact .inl ⟨hsize, rfl⟩
    next =>
      split at hq
      · obtain ⟨old, hold, rfl⟩ := Option.map_eq_some_iff.mp hq
        exact .inr ⟨old, hold, rfl⟩
      · exact .inr ⟨node, hq, rfl⟩
  refine ⟨fun {id file} hfile ↦ ?_, fun {q node id} hq ↦ ?_, fun {q node} hq ↦ ?_,
    h.name_inj, h.valid⟩
  · have hlt := h.owner hfile
    rw [size_dirs_addDir]
    omega
  · rcases hnode hq with ⟨hsize, hempty⟩ | ⟨old, hold, hsame⟩
    · have hno (name : String) : ¬ns.HasFile q name id := by
        rintro ⟨file, hfile, rfl, -⟩
        have := h.owner hfile
        omega
      rw [hempty]
      constructor
      · intro hmem
        cases hmem
      · rintro ⟨name, hfile⟩
        exact absurd hfile (hno name)
    · rw [← hsame]
      exact h.mem_files hold
  · rcases hnode hq with ⟨-, hempty⟩ | ⟨old, hold, hsame⟩
    · rw [hempty]
      exact List.nodup_nil
    · rw [← hsame]
      exact h.files_nodup hold

theorem hasFile_putFile (hold : ns.file? id = some old) (hname : file.name = old.name)
    (howner : file.owner = old.owner) :
    (ns.putFile id file).HasFile p name other ↔ ns.HasFile p name other := by
  unfold HasFile
  rw [file?_putFile hold]
  by_cases he : other = id
  · subst he
    simp [hold, hname, howner]
  · simp [he]

/-- What is kept about a file may change, but not where it is. -/
theorem FilesSound.putFile (h : ns.FilesSound) (hold : ns.file? id = some old)
    (hname : file.name = old.name) (howner : file.owner = old.owner) :
    (ns.putFile id file).FilesSound := by
  have hhas {p : DirId} {name : String} {other : FileId} :
      (ns.putFile id file).HasFile p name other ↔ ns.HasFile p name other :=
    hasFile_putFile hold hname howner
  refine ⟨fun {other found} hfound ↦ ?_, fun {p node other} hp ↦ ?_, h.files_nodup,
    fun h₁ h₂ ↦ h.name_inj (hhas.mp h₁) (hhas.mp h₂), fun h₁ ↦ h.valid (hhas.mp h₁)⟩
  · obtain ⟨before, hbefore, hsame, -⟩ := hhas.mp ⟨found, hfound, rfl, rfl⟩
    rw [← hsame]
    exact h.owner hbefore
  · simp only [hhas]
    exact h.mem_files hp

theorem hasFile_link {ns₁ : Namespace} (halloc : ns.Allocated file id ns₁) :
    (ns₁.link file.owner id).HasFile p name other ↔
      (other = id ∧ p = file.owner ∧ name = file.name) ∨ ns.HasFile p name other := by
  unfold HasFile
  rw [file?_link, halloc.file?]
  by_cases he : other = id
  · subst he
    simp only [if_true, Option.some.injEq, true_and, halloc.dead, reduceCtorEq, false_and,
      exists_false, or_false]
    constructor
    · rintro ⟨found, rfl, rfl, rfl⟩
      exact ⟨rfl, rfl⟩
    · rintro ⟨rfl, rfl⟩
      exact ⟨file, rfl, rfl, rfl⟩
  · simp [he]

/-- Only the directory of a new file lists another one. -/
theorem files_link {ns₁ : Namespace} (halloc : ns.Allocated file id ns₁)
    (hq : (ns₁.link file.owner id).dir? q = some node) :
    ∃ before, ns.dir? q = some before ∧
      node.files = if q = file.owner then id :: before.files else before.files := by
  have hdir : ns₁.dir? q = ns.dir? q := by rw [dir?, dir?, halloc.dirs]
  rw [dir?_link, hdir] at hq
  split at hq
  next he =>
    obtain ⟨before, hbefore, rfl⟩ := Option.map_eq_some_iff.mp hq
    exact ⟨before, hbefore, (if_pos he).symm⟩
  next hne => exact ⟨node, hq, (if_neg hne).symm⟩

theorem mem_files_link {ns₁ : Namespace} (h : ns.FilesSound) (halloc : ns.Allocated file id ns₁)
    (hq : (ns₁.link file.owner id).dir? q = some node) :
    other ∈ node.files ↔ ∃ name, (ns₁.link file.owner id).HasFile q name other := by
  obtain ⟨before, hbefore, hfiles⟩ := files_link halloc hq
  simp only [hasFile_link halloc]
  rw [hfiles]
  split
  next heq =>
    rw [List.mem_cons, h.mem_files hbefore]
    constructor
    · rintro (he | ⟨name, hfile⟩)
      · exact ⟨file.name, .inl ⟨he, heq, rfl⟩⟩
      · exact ⟨name, .inr hfile⟩
    · rintro ⟨name, ⟨he, -, -⟩ | hfile⟩
      · exact .inl he
      · exact .inr ⟨name, hfile⟩
  next hne =>
    rw [h.mem_files hbefore]
    simp [hne]

/-- A new file under a name that no file beside it has keeps the files sound. -/
theorem FilesSound.link {ns₁ : Namespace} (h : ns.FilesSound) (halloc : ns.Allocated file id ns₁)
    (howner : file.owner.index < ns.dirs.size) (hname : Path.validName file.name)
    (hnew : ∀ id, ¬ns.HasFile file.owner file.name id) :
    (ns₁.link file.owner id).FilesSound := by
  refine ⟨fun {other found} hfound ↦ ?_, fun {q node other} hq ↦ mem_files_link h halloc hq,
    fun {q node} hq ↦ ?_, fun {p name i j} hi hj ↦ ?_, fun {p name i} hi ↦ ?_⟩
  · have hsize : (ns₁.link file.owner id).dirs.size = ns.dirs.size := by
      rw [Namespace.link, Array.size_modify, halloc.dirs]
    rw [hsize]
    rcases (hasFile_link halloc).mp ⟨found, hfound, rfl, rfl⟩ with
      ⟨-, he, -⟩ | ⟨before, hbefore, he, -⟩
    · rw [he]
      exact howner
    · rw [← he]
      exact h.owner hbefore
  · obtain ⟨before, hbefore, hfiles⟩ := files_link halloc hq
    rw [hfiles]
    split
    · refine List.nodup_cons.mpr ⟨fun hmem ↦ ?_, h.files_nodup hbefore⟩
      obtain ⟨name, found, hfound, -⟩ := (h.mem_files hbefore).mp hmem
      rw [halloc.dead] at hfound
      cases hfound
    · exact h.files_nodup hbefore
  · rw [hasFile_link halloc] at hi hj
    rcases hi with ⟨rfl, rfl, rfl⟩ | hi
    · rcases hj with ⟨rfl, -, -⟩ | hj
      · rfl
      · exact absurd hj (hnew _)
    · rcases hj with ⟨rfl, rfl, rfl⟩ | hj
      · exact absurd hi (hnew _)
      · exact h.name_inj hi hj
  · rcases (hasFile_link halloc).mp hi with ⟨-, -, rfl⟩ | hi
    · exact hname
    · exact h.valid hi

theorem hasFile_withoutFile (hold : ns.file? id = some old) (owner : DirId) :
    (ns.withoutFile id owner).HasFile p name other ↔ other ≠ id ∧ ns.HasFile p name other := by
  unfold HasFile
  rw [file?_withoutFile hold]
  by_cases he : other = id
  · simp [he]
  · simp [he]

theorem FilesSound.withoutFile (h : ns.FilesSound) (hold : ns.file? id = some old) :
    (ns.withoutFile id old.owner).FilesSound := by
  refine ⟨fun {other found} hfound ↦ ?_, fun {q node other} hq ↦ ?_, fun {q node} hq ↦ ?_,
    fun {p name i j} hi hj ↦ ?_, fun {p name i} hi ↦ ?_⟩
  · obtain ⟨-, before, hbefore, he, -⟩ := (hasFile_withoutFile hold _).mp ⟨found, hfound, rfl, rfl⟩
    rw [Namespace.withoutFile, Array.size_modify, ← he]
    exact h.owner hbefore
  · simp only [hasFile_withoutFile hold]
    rw [dir?_withoutFile] at hq
    split at hq
    next heq =>
      subst heq
      obtain ⟨before, hbefore, rfl⟩ := Option.map_eq_some_iff.mp hq
      rw [List.mem_filter, h.mem_files hbefore]
      simp [and_comm]
    next hne =>
      rw [h.mem_files hq]
      constructor
      · rintro ⟨name, hfile⟩
        refine ⟨name, ?_, hfile⟩
        rintro rfl
        obtain ⟨found, hfound, rfl, -⟩ := hfile
        rw [hold] at hfound
        cases hfound
        exact hne rfl
      · rintro ⟨name, -, hfile⟩
        exact ⟨name, hfile⟩
  · rw [dir?_withoutFile] at hq
    split at hq
    next =>
      obtain ⟨before, hbefore, rfl⟩ := Option.map_eq_some_iff.mp hq
      exact (h.files_nodup hbefore).filter _
    next => exact h.files_nodup hq
  · exact h.name_inj ((hasFile_withoutFile hold _).mp hi).2 ((hasFile_withoutFile hold _).mp hj).2
  · exact h.valid ((hasFile_withoutFile hold _).mp hi).2

end BootNamespace.Namespace
