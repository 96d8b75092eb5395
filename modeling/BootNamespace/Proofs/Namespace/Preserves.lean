import BootNamespace.Proofs.Namespace.References

namespace BootNamespace.Namespace

variable {ns ns' ns'' : Namespace} {id other : FileId} {old file : FileNode}

/-- Every live file is as it was, its count of references apart. -/
def Preserves (ns ns' : Namespace) : Prop :=
  ∀ id old, ns.file? id = some old → ∃ refs, ns'.file? id = some { old with refs := refs }

theorem Preserves.refl (ns : Namespace) : ns.Preserves ns := by
  intro id old hold
  exact ⟨old.refs, hold⟩

theorem Preserves.trans (h : ns.Preserves ns') (k : ns'.Preserves ns'') : ns.Preserves ns'' := by
  intro id old hold
  obtain ⟨refs, hfile⟩ := h id old hold
  obtain ⟨refs', hfile'⟩ := k id _ hfile
  exact ⟨refs', hfile'⟩

theorem Preserves.putRefs (hold : ns.file? id = some old) (refs : UInt32) :
    ns.Preserves (ns.putFile id { old with refs := refs }) := by
  intro other found hfound
  rw [file?_putFile hold]
  split
  next he =>
    rw [he, hold] at hfound
    cases hfound
    exact ⟨refs, rfl⟩
  next => exact ⟨found.refs, hfound⟩

theorem openFile_preserves (ns : Namespace) (id : FileId) (mode : OpenMode) :
    ns.Preserves (ns.openFile id mode).2 := by
  rcases openFile_cases ns id mode with ⟨e, heq⟩ | ⟨old, hold, -, -, heq⟩
  · rw [heq]
    exact .refl ns
  · rw [heq]
    exact .putRefs hold _

theorem closeFile_preserves (ns : Namespace) (id : FileId) :
    ns.Preserves (ns.closeFile id).2 := by
  rcases closeFile_cases ns id with ⟨-, heq⟩ | ⟨old, -, -, heq⟩ | ⟨old, hold, -, heq⟩
  · rw [heq]
    exact .refl ns
  · rw [heq]
    exact .refl ns
  · rw [heq]
    exact .putRefs hold _

theorem createFile_preserves (h : ns.WellFormed) {cwd : Option DirId}
    (hcwd : ∀ d ∈ cwd, d.index < ns.dirs.size) (path : String) (data : Bytes) (access : Access) :
    ns.Preserves (ns.createFile cwd path data access).2 := by
  rcases createFile_cases h hcwd path data access with
    ⟨e, heq, -⟩ | ⟨site, d, ns', -, -, hext, -, heq⟩ | ⟨site, d, id, ns', -, -, hcreated, heq⟩
  · rw [heq]
    exact .refl ns
  · rw [heq]
    intro id old hold
    exact ⟨old.refs, (hext.file? id).trans hold⟩
  · rw [heq]
    intro other old hold
    rw [hcreated.file?]
    split
    next he =>
      rw [he, hcreated.dead] at hold
      cases hold
    next => exact ⟨old.refs, hold⟩

theorem createFile_ok (h : ns.WellFormed) {cwd : Option DirId}
    (hcwd : ∀ d ∈ cwd, d.index < ns.dirs.size) {path : String} {data : Bytes} {access : Access}
    (hcreate : ns.createFile cwd path data access = (.ok id, ns')) :
    ns'.WellFormed ∧ ns.Preserves ns' ∧
      ∃ file, ns'.file? id = some file ∧ file.data = data.toArray ∧ file.access = access := by
  have hns := h.createFile hcwd path data access
  have hkept := createFile_preserves h hcwd path data access
  rw [hcreate] at hns hkept
  refine ⟨hns, hkept, ?_⟩
  rcases createFile_cases h hcwd path data access with
    ⟨e, heq, -⟩ | ⟨site, d, ns₁, -, -, -, -, heq⟩ | ⟨site, d, id', ns₁, -, -, hcreated, heq⟩
  · rw [hcreate] at heq
    cases heq
  · rw [hcreate] at heq
    cases heq
  · rw [hcreate] at heq
    cases heq
    have hlive := hcreated.file? id
    rw [if_pos rfl] at hlive
    exact ⟨_, hlive, rfl, rfl⟩

end BootNamespace.Namespace
