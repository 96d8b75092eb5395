import BootNamespace.Proofs.Namespace.Naming

namespace BootNamespace.Namespace

variable {ns ns' : Namespace} {d : DirId} {id other : FileId} {file : FileNode} {name path : String}
variable {target : List String} {cwd : Option DirId}

theorem childDir_congr (h : ns.DirsSound) (h' : ns'.DirsSound)
    (hlinks : ∀ d, (ns'.dir? d).map DirNode.links = (ns.dir? d).map DirNode.links) :
    ns'.childDir d name = ns.childDir d name := by
  apply Option.ext
  intro child
  rw [childDir_eq_some_iff h, childDir_eq_some_iff h', hasDir_congr hlinks]

/-- Names that lead to one of the other files lead there still, and the file's own lead nowhere. -/
theorem namesFile_withoutFile (h : ns.WellFormed) (hfile : ns.file? id = some file) :
    (ns.withoutFile id file.owner).NamesFile target other ↔
      other ≠ id ∧ ns.NamesFile target other := by
  have hlinks (d : DirId) : ((ns.withoutFile id file.owner).dir? d).map DirNode.links =
      (ns.dir? d).map DirNode.links := links_withoutFile id file.owner d
  simp only [namesFile_iff, leadsTo_congr hlinks, hasFile_withoutFile hfile,
    childDir_congr h.dirs (h.dirs.congr hlinks) hlinks]
  constructor
  · rintro ⟨names, name, d, hnames, hd, ⟨hother, hname⟩, hchild⟩
    exact ⟨hother, names, name, d, hnames, hd, hname, hchild⟩
  · rintro ⟨hother, names, name, d, hnames, hd, hname, hchild⟩
    exact ⟨names, name, d, hnames, hd, ⟨hother, hname⟩, hchild⟩

theorem getFile_withoutFile (h : ns.WellFormed) (hfile : ns.file? id = some file)
    (hcwd : ∀ d ∈ cwd, d.index < ns.dirs.size) (path : String) :
    (ns.withoutFile id file.owner).getFile cwd path =
      if ns.getFile cwd path = some id then none else ns.getFile cwd path := by
  have hlinks (d : DirId) : ((ns.withoutFile id file.owner).dir? d).map DirNode.links =
      (ns.dir? d).map DirNode.links := links_withoutFile id file.owner d
  have hstart := leadsTo_start h hcwd
  have hns' : (ns.withoutFile id file.owner).WellFormed :=
    ⟨h.dirs.congr hlinks, h.files.withoutFile hfile, h.slots.withoutFile hfile _⟩
  apply Option.ext
  intro other
  rw [getFile_from_eq_some_iff hns' ((leadsTo_congr hlinks).mpr hstart),
    namesFile_withoutFile h hfile, and_left_comm, ← getFile_from_eq_some_iff h hstart]
  split
  next hid => simp [hid, eq_comm]
  next hid =>
    refine and_iff_right_of_imp fun hother ↦ ?_
    rintro rfl
    exact hid hother

/-- Every directory lists what it listed, but for the file. -/
theorem files_withoutFile (h : ns.FilesSound) (hfile : ns.file? id = some file) (d : DirId) :
    ((ns.withoutFile id file.owner).dir? d).map (·.files) =
      (ns.dir? d).map fun node ↦ node.files.filter (· ≠ id) := by
  rw [dir?_withoutFile]
  split
  next =>
    rw [Option.map_map]
    rfl
  next hne =>
    cases hnode : ns.dir? d with
    | none => rfl
    | some node =>
      have hnot : id ∉ node.files := by
        intro hmem
        obtain ⟨_, found, hfound, howner, -⟩ := (h.mem_files hnode).mp hmem
        cases hfile.symm.trans hfound
        exact hne howner.symm
      have hall : node.files.filter (· ≠ id) = node.files :=
        List.filter_eq_self.mpr fun other hother ↦ by
          have hne : other ≠ id := by
            rintro rfl
            exact hnot hother
          simpa using hne
      rw [Option.map_some, Option.map_some, hall]

/-- A file is gone, and everything else is as it was. -/
structure Loses (ns : Namespace) (id : FileId) (ns' : Namespace) : Prop where
  dead : ns'.file id = .error .notFound
  others (other : FileId) (h : other ≠ id) : ns'.file other = ns.file other
  dirs (d : DirId) : (ns'.dir? d).map DirNode.links = (ns.dir? d).map DirNode.links
  listed (d : DirId) :
    (ns'.dir? d).map (·.files) = (ns.dir? d).map fun node ↦ node.files.filter (· ≠ id)
  found (cwd : Option DirId) (hcwd : ∀ d ∈ cwd, d.index < ns.dirCount) (path : String) :
    ns'.getFile cwd path = if ns.getFile cwd path = some id then none else ns.getFile cwd path

theorem withoutFile_loses (h : ns.WellFormed) (hfile : ns.file? id = some file) :
    ns.Loses id (ns.withoutFile id file.owner) where
  dead := file_eq_error (by rw [file?_withoutFile hfile, if_pos rfl])
  others other hother := by
    rw [Namespace.file, Namespace.file, file?_withoutFile hfile, if_neg hother]
  dirs := links_withoutFile id file.owner
  listed := files_withoutFile h.files hfile
  found cwd hcwd path := getFile_withoutFile h hfile hcwd path

/-- A file that nobody has open is deleted, and it alone; otherwise nothing happens. -/
theorem deletion_removes_one_file (h : ns.Reachable) (id : FileId) :
    ((ns.deleteFile id).1 = .ok () ↔ ∃ file, ns.file id = .ok file ∧ file.refs = 0) ∧
    ((ns.deleteFile id).1 = .error .busy ↔ ∃ file, ns.file id = .ok file ∧ 0 < file.refs) ∧
    ((ns.deleteFile id).1 = .error .notFound ↔ ns.file id = .error .notFound) ∧
    match ns.deleteFile id with
    | (.error e, ns') => (e = .busy ∨ e = .notFound) ∧ ns' = ns
    | (.ok (), ns') => ns.Loses id ns' := by
  rcases deleteFile_cases ns id with ⟨hdead, heq⟩ | ⟨file, hfile, hopen, heq⟩ |
    ⟨file, hfile, hclosed, heq⟩
  · rw [heq, file_eq_error hdead]
    simp
  · have hne : file.refs ≠ 0 := by
      intro hzero
      rw [hzero] at hopen
      exact absurd hopen (by decide)
    rw [heq, file_eq_ok hfile]
    simp [hopen, hne]
  · rw [heq, file_eq_ok hfile]
    simp [hclosed, withoutFile_loses h.wellFormed hfile]

/-- The path of a deleted file leads nowhere, and the directory made for it stays. -/
theorem directory_outlives_its_file : ∃ ns ns' : Namespace, ns.Reachable ∧
    ns.deleteFile ⟨1, 0⟩ = (.ok (), ns') ∧ ns.Loses ⟨1, 0⟩ ns' ∧
    ns.getFile none "/sys/x" = some ⟨1, 0⟩ ∧ ns'.getFile none "/sys/x" = none ∧
    (ns'.dir? ⟨1⟩).map DirNode.links = some ("sys", some .root, []) := by
  have hreach : (burial.foldl perform (empty 4096)).Reachable := ⟨4096, burial, burial_run 4096⟩
  obtain ⟨hok, -, -, hloses⟩ := deletion_removes_one_file hreach ⟨1, 0⟩
  have hfile : (burial.foldl perform (empty 4096)).file ⟨1, 0⟩ =
      .ok ⟨"x", ⟨1⟩, .empty, .created, 0, 0⟩ := by decide +kernel
  have hget : (burial.foldl perform (empty 4096)).getFile none "/sys/x" = some ⟨1, 0⟩ := by
    decide +kernel
  have hlinks : ((burial.foldl perform (empty 4096)).dir? ⟨1⟩).map DirNode.links =
      some ("sys", some .root, []) := by decide +kernel
  rcases hdelete : (burial.foldl perform (empty 4096)).deleteFile ⟨1, 0⟩ with ⟨result, ns'⟩
  rw [hdelete] at hok hloses
  cases hok.mpr ⟨_, hfile, rfl⟩
  have hgone := hloses.found none (by simp) "/sys/x"
  rw [if_pos hget] at hgone
  exact ⟨_, ns', hreach, hdelete, hloses, hget, hgone, (hloses.dirs ⟨1⟩).trans hlinks⟩

end BootNamespace.Namespace
