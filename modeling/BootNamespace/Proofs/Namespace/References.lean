import BootNamespace.Proofs.Namespace.Reachable

namespace BootNamespace.Namespace

variable {ns ns' ns'' : Namespace} {id other : FileId} {old file : FileNode}
variable {mode : OpenMode}

/-- How often a file is open; a dead handle never is. -/
def refs (ns : Namespace) (id : FileId) : Nat := ((ns.file? id).map (·.refs.toNat)).getD 0

/-- Every file that was live is where it was, and may be used as before. -/
def Keeps (ns ns' : Namespace) : Prop :=
  ∀ id old, ns.file? id = some old → ∃ file, ns'.file? id = some file ∧
    file.name = old.name ∧ file.owner = old.owner ∧ file.access = old.access

theorem refs_of_live (h : ns.file? id = some file) : ns.refs id = file.refs.toNat := by
  rw [refs, h]
  rfl

theorem refs_of_dead (h : ns.file? id = none) : ns.refs id = 0 := by
  rw [refs, h]
  rfl

theorem refs_putFile (hold : ns.file? id = some old) :
    (ns.putFile id file).refs other = if other = id then file.refs.toNat else ns.refs other := by
  rw [refs, file?_putFile hold]
  split
  · rfl
  · rfl

theorem Keeps.refl (ns : Namespace) : ns.Keeps ns :=
  fun _ old hold ↦ ⟨old, hold, rfl, rfl, rfl⟩

theorem Keeps.trans (h : ns.Keeps ns') (k : ns'.Keeps ns'') : ns.Keeps ns'' := by
  intro id old hold
  obtain ⟨file, hfile, hname, howner, haccess⟩ := h id old hold
  obtain ⟨file', hfile', hname', howner', haccess'⟩ := k id file hfile
  exact ⟨file', hfile', hname'.trans hname, howner'.trans howner, haccess'.trans haccess⟩

theorem Touched.keeps (h : ns.Touched id ns') : ns.Keeps ns' := by
  cases h with
  | same => exact .refl ns
  | @put before file hbefore hname howner haccess =>
    intro other old hold
    rw [file?_putFile hbefore]
    split
    next he =>
      subst he
      rw [hbefore] at hold
      cases hold
      exact ⟨file, rfl, hname, howner, haccess⟩
    next => exact ⟨old, hold, rfl, rfl, rfl⟩

theorem refs_putFile_of_same (hold : ns.file? id = some old) (hrefs : file.refs = old.refs)
    (other : FileId) : (ns.putFile id file).refs other = ns.refs other := by
  rw [refs_putFile hold]
  split
  next he => rw [he, refs_of_live hold, hrefs]
  next => rfl

theorem refs_writeAt (ns : Namespace) (id : FileId) (offset : UInt64) (bytes : Buffer)
    (other : FileId) : (ns.writeAt id offset bytes).2.refs other = ns.refs other := by
  rcases writeAt_cases ns id offset bytes with ⟨-, heq⟩ | ⟨old, hold, heq⟩
  · rw [heq]
  · rw [heq]
    apply refs_putFile_of_same hold
    rfl

theorem refs_truncate (ns : Namespace) (id : FileId) (size : UInt64) (other : FileId) :
    (ns.truncate id size).2.refs other = ns.refs other := by
  rcases truncate_cases ns id size with
    ⟨-, heq⟩ | ⟨old, e, -, heq, -⟩ | ⟨old, length, hold, -, -, -, -, heq⟩
  · rw [heq]
  · rw [heq]
  · rw [heq]
    apply refs_putFile_of_same hold
    rfl

theorem refs_openFile (h : ns.openFile id mode = (.ok (), ns')) (other : FileId) :
    ns'.refs other = ns.refs other + if other = id then 1 else 0 := by
  rcases openFile_cases ns id mode with ⟨e, heq⟩ | ⟨old, hold, -, hroom, heq⟩
  · rw [h] at heq
    cases heq
  · rw [h] at heq
    cases heq
    rw [refs_putFile hold]
    split
    next he =>
      rw [he, refs_of_live hold, UInt32.toNat_add]
      exact Nat.mod_eq_of_lt hroom
    next => rfl

theorem one_le_of_ne_zero {n : UInt32} (h : n ≠ 0) : 1 ≤ n := by
  rw [UInt32.le_iff_toNat_le]
  rw [ne_eq, ← UInt32.toNat_inj] at h
  exact Nat.one_le_iff_ne_zero.mpr h

/-- Closing takes back one reference, if there is one. -/
theorem refs_closeFile (ns : Namespace) (id other : FileId) :
    (ns.closeFile id).2.refs other = ns.refs other - if other = id then 1 else 0 := by
  rcases closeFile_cases ns id with ⟨hdead, heq⟩ | ⟨old, hold, hzero, heq⟩ | ⟨old, hold, hrefs, heq⟩
  · rw [heq]
    split
    next he => rw [he, refs_of_dead hdead]
    next => rfl
  · rw [heq]
    split
    next he => rw [he, refs_of_live hold, hzero]; rfl
    next => rfl
  · rw [heq, refs_putFile hold]
    split
    next he =>
      have hpos : 1 ≤ old.refs := one_le_of_ne_zero hrefs
      rw [he, refs_of_live hold, UInt32.toNat_sub_of_le _ _ hpos]
      rfl
    next => rfl

theorem closeFile_ok_of_refs (h : 0 < ns.refs id) : ∃ left, (ns.closeFile id).1 = .ok left := by
  rcases closeFile_cases ns id with ⟨hdead, heq⟩ | ⟨old, hold, hzero, heq⟩ | ⟨old, -, -, heq⟩
  · rw [refs_of_dead hdead] at h
    exact absurd h (Nat.lt_irrefl 0)
  · rw [refs_of_live hold, hzero] at h
    exact absurd h (Nat.lt_irrefl 0)
  · exact ⟨_, by rw [heq]⟩

theorem Extended.refs_eq {p d : DirId} {names : List String} (h : ns.Extended p names d ns')
    (id : FileId) : ns'.refs id = ns.refs id := by
  rw [refs, refs, h.file?]

theorem Created.refs_eq {site : Site} (h : ns.Created site file id ns') (hrefs : file.refs = 0)
    (other : FileId) : ns'.refs other = ns.refs other := by
  rw [refs, h.file?]
  split
  next he =>
    rw [he, refs_of_dead h.dead, Option.map_some, hrefs]
    rfl
  next => rfl

theorem Created.keeps {site : Site} (h : ns.Created site file id ns') : ns.Keeps ns' := by
  intro other old hold
  rw [h.file?]
  split
  next he =>
    rw [he, h.dead] at hold
    cases hold
  next => exact ⟨old, hold, rfl, rfl, rfl⟩

theorem createFile_keeps (h : ns.WellFormed) {cwd : Option DirId}
    (hcwd : ∀ d ∈ cwd, d.index < ns.dirs.size) (path : String) (data : Bytes) (access : Access) :
    ns.Keeps (ns.createFile cwd path data access).2 ∧
      ∀ id, (ns.createFile cwd path data access).2.refs id = ns.refs id := by
  rcases createFile_cases h hcwd path data access with
    ⟨e, heq, -⟩ | ⟨site, d, ns', -, -, hext, -, heq⟩ | ⟨site, d, id, ns', -, -, hcreated, heq⟩
  · rw [heq]
    exact ⟨.refl ns, fun _ ↦ rfl⟩
  · rw [heq]
    refine ⟨fun id old hold ↦ ⟨old, ?_, rfl, rfl, rfl⟩, hext.refs_eq⟩
    rw [hext.file?, hold]
  · rw [heq]
    exact ⟨hcreated.keeps, hcreated.refs_eq rfl⟩

/-- No file is open. -/
def Idle (ns : Namespace) : Prop := ∀ id file, ns.file? id = some file → file.refs = 0

theorem Idle.refs_eq (h : ns.Idle) (id : FileId) : ns.refs id = 0 := by
  cases hfile : ns.file? id with
  | none => exact refs_of_dead hfile
  | some file =>
    rw [refs_of_live hfile, h id file hfile]
    rfl

theorem deleteFile_busy_iff : (ns.deleteFile id).1 = .error .busy ↔ 0 < ns.refs id := by
  cases hfile : ns.file? id with
  | none =>
    rw [deleteFile_eq_notFound hfile, refs_of_dead hfile]
    simp
  | some file =>
    rw [deleteFile_eq hfile, refs_of_live hfile]
    split
    next hrefs => simpa using UInt32.lt_iff_toNat_lt.mp hrefs
    next hrefs => simpa [UInt32.lt_iff_toNat_lt] using hrefs

end BootNamespace.Namespace
