import Mathlib.Data.List.Nodup
import BootNamespace.Proofs.Namespace.Reachable

namespace BootNamespace.Namespace

variable {ns ns' : Namespace} {d p q : DirId} {node : DirNode} {id : FileId} {file : FileNode}
variable {change : Change} {changes : List Change}

/-- Both tables and the free list, with every link between them. -/
structure Intact (ns : Namespace) : Prop where
  root : ∃ node, ns.dir? .root = some node
  parent_none {d : DirId} {node : DirNode} (h : ns.dir? d = some node) :
    node.parent = none ↔ d = .root
  parent_lt {d p : DirId} {node : DirNode} (h : ns.dir? d = some node) (hp : node.parent = some p) :
    p.index < d.index
  /-- The parent lists a directory once, and no other directory lists it. -/
  count_dirs {d p q : DirId} {node other : DirNode} (h : ns.dir? d = some node)
    (hp : node.parent = some p) (hq : ns.dir? q = some other) :
    other.dirs.count d = if q = p then 1 else 0
  dirs_exist {d e : DirId} {node : DirNode} (h : ns.dir? d = some node) (he : e ∈ node.dirs) :
    ∃ child, ns.dir? e = some child
  owner_exists {id : FileId} {file : FileNode} (h : ns.file? id = some file) :
    ∃ node, ns.dir? file.owner = some node
  /-- The owner lists a file once, and no other directory lists it. -/
  count_files {id : FileId} {file : FileNode} {q : DirId} {other : DirNode}
    (h : ns.file? id = some file) (hq : ns.dir? q = some other) :
    other.files.count id = if q = file.owner then 1 else 0
  files_live {d : DirId} {id : FileId} {node : DirNode} (h : ns.dir? d = some node)
    (hid : id ∈ node.files) : ∃ file, ns.file? id = some file
  dir_names {d : DirId} {node : DirNode} (h : ns.dir? d = some node) :
    (node.dirs.map fun e ↦ (ns.dir? e).map (·.name)).Nodup
  file_names {d : DirId} {node : DirNode} (h : ns.dir? d = some node) :
    (node.files.map fun id ↦ (ns.file? id).map (·.name)).Nodup
  valid_dir {d : DirId} {node : DirNode} (h : ns.dir? d = some node) (hd : d ≠ .root) :
    Path.validName node.name
  valid_file {id : FileId} {file : FileNode} (h : ns.file? id = some file) :
    Path.validName file.name
  free_iff (slot : Nat) :
    slot ∈ ns.free ↔ ∃ generation, ns.slots[slot]? = some ⟨generation, none⟩
  free_nodup : ns.free.Nodup

theorem hasDir_iff (hd : ns.dir? d = some node) :
    (∃ name, ns.HasDir q name d) ↔ node.parent = some q := by
  constructor
  · rintro ⟨name, found, hfound, hparent, -⟩
    rw [hd] at hfound
    cases hfound
    exact hparent
  · intro hparent
    exact ⟨node.name, node, hd, hparent, rfl⟩

theorem hasFile_iff (hfile : ns.file? id = some file) :
    (∃ name, ns.HasFile q name id) ↔ file.owner = q := by
  constructor
  · rintro ⟨name, found, hfound, howner, -⟩
    rw [hfile] at hfound
    cases hfound
    exact howner
  · intro howner
    exact ⟨file.name, file, hfile, howner, rfl⟩

theorem DirsSound.names_nodup (h : ns.DirsSound) (hd : ns.dir? d = some node) :
    (node.dirs.map fun e ↦ (ns.dir? e).map (·.name)).Nodup := by
  refine List.Nodup.map_on (fun e he e' he' hsame ↦ ?_) (h.dirs_nodup hd)
  obtain ⟨name, hname⟩ := (h.mem_dirs hd).mp he
  obtain ⟨name', hname'⟩ := (h.mem_dirs hd).mp he'
  have hequal : name = name' := by
    obtain ⟨child, hchild, -, rfl⟩ := hname
    obtain ⟨child', hchild', -, rfl⟩ := hname'
    simpa [hchild, hchild'] using hsame
  rw [← hequal] at hname'
  exact h.name_inj hname hname'

theorem FilesSound.names_nodup (h : ns.FilesSound) (hd : ns.dir? d = some node) :
    (node.files.map fun id ↦ (ns.file? id).map (·.name)).Nodup := by
  refine List.Nodup.map_on (fun i hi i' hi' hsame ↦ ?_) (h.files_nodup hd)
  obtain ⟨name, hname⟩ := (h.mem_files hd).mp hi
  obtain ⟨name', hname'⟩ := (h.mem_files hd).mp hi'
  have hequal : name = name' := by
    obtain ⟨file, hfile, -, rfl⟩ := hname
    obtain ⟨file', hfile', -, rfl⟩ := hname'
    simpa [hfile, hfile'] using hsame
  rw [← hequal] at hname'
  exact h.name_inj hname hname'

theorem DirsSound.parent_none (h : ns.DirsSound) (hd : ns.dir? d = some node) :
    node.parent = none ↔ d = .root := by
  constructor
  · intro hnone
    by_contra hne
    obtain ⟨p, hparent, -⟩ := h.parent hd hne
    rw [hnone] at hparent
    cases hparent
  · intro hroot
    obtain ⟨root, hfound, hnone⟩ := h.root
    rw [← hroot, hd] at hfound
    cases hfound
    exact hnone

theorem WellFormed.intact (h : ns.WellFormed) : ns.Intact where
  root := by
    obtain ⟨node, hnode, -⟩ := h.dirs.root
    exact ⟨node, hnode⟩
  parent_none hd := h.dirs.parent_none hd
  parent_lt {d p node} hd hp := h.dirs.index_lt ⟨node, hd, hp, rfl⟩
  count_dirs {d p q node other} hd hp hq := by
    have hmem : d ∈ other.dirs ↔ q = p := by
      rw [h.dirs.mem_dirs hq, hasDir_iff hd, hp, Option.some.injEq, eq_comm]
    rw [(h.dirs.dirs_nodup hq).count]
    simp only [hmem]
  dirs_exist hd he := by
    obtain ⟨name, hchild⟩ := (h.dirs.mem_dirs hd).mp he
    exact hchild.exists_dir?
  owner_exists hfile := dir?_of_lt (h.files.owner hfile)
  count_files {id file q other} hfile hq := by
    have hmem : id ∈ other.files ↔ q = file.owner := by
      rw [h.files.mem_files hq, hasFile_iff hfile, eq_comm]
    rw [(h.files.files_nodup hq).count]
    simp only [hmem]
  files_live hd hid := by
    obtain ⟨name, file, hfile, -⟩ := (h.files.mem_files hd).mp hid
    exact ⟨file, hfile⟩
  dir_names hd := h.dirs.names_nodup hd
  file_names hd := h.files.names_nodup hd
  valid_dir {d node} hd hne := by
    obtain ⟨p, hparent, -⟩ := h.dirs.parent hd hne
    exact h.dirs.valid ⟨node, hd, hparent, rfl⟩
  valid_file {id file} hfile := h.files.valid ⟨file, hfile, rfl, rfl⟩
  free_iff := h.slots.free_iff
  free_nodup := h.slots.free_nodup

/-- Every file is short enough for its size to be told in a word. -/
def Short (ns : Namespace) : Prop :=
  ∀ id file, ns.file? id = some file → file.size < allocationLimit

theorem Short.empty (pageSize : Nat) : (Namespace.empty pageSize).Short := by
  intro id file hfile
  cases hfile

theorem Short.putFile (h : ns.Short) {old : FileNode} (hold : ns.file? id = some old)
    (hsize : file.size < allocationLimit) : (ns.putFile id file).Short := by
  intro other found hfound
  rw [file?_putFile hold] at hfound
  split at hfound
  · cases hfound
    exact hsize
  · exact h other found hfound

theorem Short.createFile (h : ns.Short) (hns : ns.WellFormed) {cwd : Option DirId}
    (hcwd : ∀ d ∈ cwd, d.index < ns.dirs.size) (path : String) (data : Bytes) (access : Access) :
    (ns.createFile cwd path data access).2.Short := by
  rcases createFile_cases hns hcwd path data access with
    ⟨e, heq, -⟩ | ⟨site, d, ns', -, -, hext, -, heq⟩ | ⟨site, d, id, ns', -, hdata, hcreated, heq⟩
  · rw [heq]
    exact h
  · rw [heq]
    intro id file hfile
    rw [hext.file?] at hfile
    exact h id file hfile
  · rw [heq]
    intro other found hfound
    rw [hcreated.file?] at hfound
    split at hfound
    · cases hfound
      simpa [FileNode.size] using hdata
    · exact h other found hfound

theorem Short.perform (h : ns.Short) (hns : ns.WellFormed) (hc : change.Grounded ns) :
    (ns.perform change).Short := by
  cases change with
  | create cwd path data access => exact h.createFile hns hc path data access
  | delete id =>
    cases hfile : ns.file? id with
    | none =>
      rw [perform, deleteFile_eq_notFound hfile]
      exact h
    | some file =>
      rw [perform, deleteFile_eq hfile]
      split
      · exact h
      · intro other found hfound
        rw [file?_withoutFile hfile] at hfound
        split at hfound
        · cases hfound
        · exact h other found hfound
  | openFile id mode =>
    rcases openFile_cases ns id mode with ⟨e, heq⟩ | ⟨old, hold, -, -, heq⟩
    · rw [perform, heq]
      exact h
    · rw [perform, heq]
      exact h.putFile hold (h id old hold)
  | closeFile id =>
    rcases closeFile_cases ns id with ⟨-, heq⟩ | ⟨old, -, -, heq⟩ | ⟨old, hold, -, heq⟩
    · rw [perform, heq]
      exact h
    · rw [perform, heq]
      exact h
    · rw [perform, heq]
      exact h.putFile hold (h id old hold)
  | writeAt id offset bytes =>
    rcases writeAt_cases ns id offset bytes with ⟨-, heq⟩ | ⟨old, hold, heq⟩
    · rw [perform, heq]
      exact h
    · rw [perform, heq]
      refine h.putFile hold ?_
      have hsize := h id old hold
      simpa [FileNode.size] using hsize
  | truncate id size =>
    rcases truncate_cases ns id size with
      ⟨-, heq⟩ | ⟨old, e, -, heq, -⟩ | ⟨old, length, hold, -, -, -, hlimit, heq⟩
    · rw [perform, heq]
      exact h
    · rw [perform, heq]
      exact h
    · rw [perform, heq]
      refine h.putFile hold ?_
      simpa [FileNode.size] using hlimit

theorem Run.short (h : ns.Run changes ns') (hns : ns.WellFormed) (hshort : ns.Short) :
    ns'.Short := by
  induction h with
  | nil => exact hshort
  | cons hc h ih => exact ih (hns.perform hc) (hshort.perform hns hc)

def ShowsDir (ns : Namespace) (d : DirId) (entry : Entry) : Prop :=
  ∃ node, ns.dir? d = some node ∧ entry = ⟨node.name, .directory⟩

def ShowsFile (ns : Namespace) (id : FileId) (entry : Entry) : Prop :=
  ∃ file size, ns.file? id = some file ∧ entry = ⟨file.name, .file size⟩ ∧ size.toNat = file.size

/-- One entry for each directory whose parent is `d`, and then one for each file of `d`, with the
size that the file has. -/
def Shown (ns : Namespace) (d : DirId) (entries : List Entry) : Prop :=
  ∃ dirs files dirEntries fileEntries, entries = dirEntries ++ fileEntries ∧
    dirs.Nodup ∧ (∀ e, e ∈ dirs ↔ ∃ node, ns.dir? e = some node ∧ node.parent = some d) ∧
    files.Nodup ∧ (∀ id, id ∈ files ↔ ∃ file, ns.file? id = some file ∧ file.owner = d) ∧
    List.Forall₂ ns.ShowsDir dirs dirEntries ∧ List.Forall₂ ns.ShowsFile files fileEntries

theorem forall₂_showsDir {dirs : List DirId} (h : ∀ e ∈ dirs, ∃ node, ns.dir? e = some node) :
    List.Forall₂ ns.ShowsDir dirs
      ((dirs.filterMap ns.dir?).map fun child ↦ ⟨child.name, .directory⟩) := by
  induction dirs with
  | nil => exact .nil
  | cons e dirs ih =>
    obtain ⟨node, hnode⟩ := h e List.mem_cons_self
    have hrest := ih fun e' he' ↦ h e' (List.mem_cons_of_mem _ he')
    rw [List.filterMap_cons_some hnode, List.map_cons]
    exact .cons ⟨node, hnode, rfl⟩ hrest

theorem mapM_file (hshort : ns.Short) {ids : List FileId}
    (h : ∀ id ∈ ids, ∃ file, ns.file? id = some file) :
    ∃ files, ids.mapM ns.file = .ok files ∧ List.Forall₂ ns.ShowsFile ids
      (files.map fun file ↦ ⟨file.name, .file (.ofNat file.size)⟩) := by
  induction ids with
  | nil => exact ⟨[], rfl, .nil⟩
  | cons id ids ih =>
    obtain ⟨file, hfile⟩ := h id List.mem_cons_self
    obtain ⟨files, hfiles, hrest⟩ := ih fun other hother ↦ h other (List.mem_cons_of_mem _ hother)
    have hlt : file.size < UInt64.size := by
      have hlimit := hshort id file hfile
      have hbound : allocationLimit ≤ UInt64.size := by decide
      omega
    refine ⟨file :: files, ?_, ?_⟩
    · rw [List.mapM_cons, file_eq_ok hfile, hfiles]
      rfl
    · rw [List.map_cons]
      exact .cons ⟨file, _, hfile, rfl, UInt64.toNat_ofNat_of_lt' hlt⟩ hrest

theorem entries_shown (h : ns.WellFormed) (hshort : ns.Short) (hd : ns.dir? d = some node) :
    ∃ entries, ns.entries d = .ok entries ∧ ns.Shown d entries := by
  have hintact := h.intact
  have hdirs := forall₂_showsDir fun e he ↦ hintact.dirs_exist hd he
  obtain ⟨files, hmap, hfiles⟩ := mapM_file hshort fun id hid ↦ hintact.files_live hd hid
  unfold Namespace.entries
  rw [hd]
  dsimp only
  rw [hmap]
  refine ⟨_, rfl, node.dirs, node.files, _, _, rfl, h.dirs.dirs_nodup hd, fun e ↦ ?_,
    h.files.files_nodup hd, fun id ↦ ?_, hdirs, hfiles⟩
  · rw [h.dirs.mem_dirs hd]
    constructor
    · rintro ⟨name, child, hchild, hparent, -⟩
      exact ⟨child, hchild, hparent⟩
    · rintro ⟨child, hchild, hparent⟩
      exact ⟨child.name, child, hchild, hparent, rfl⟩
  · rw [h.files.mem_files hd]
    constructor
    · rintro ⟨name, file, hfile, howner, -⟩
      exact ⟨file, hfile, howner⟩
    · rintro ⟨file, hfile, howner⟩
      exact ⟨file.name, file, hfile, howner, rfl⟩

/-- From a directory that exists the walk ends in one, which then admits the new file. -/
theorem site_ne_notFound (h : ns.WellFormed) {cwd : Option DirId}
    (hcwd : ∀ d ∈ cwd, d.index < ns.dirs.size) (path : String) :
    ns.site cwd path ≠ .error .notFound := by
  intro hsite
  have hlt := resolve_lt h hcwd path
  unfold site at hsite
  split at hsite
  next e he =>
    obtain ⟨fault, rfl⟩ := Path.checkCreatable_error he
    cases hsite
  next =>
    split at hsite
    next => cases hsite
    next d rest hresolve =>
      rw [hresolve] at hlt
      have hadmits (missing : List String) : ns.admits d missing = true := by
        simp [admits, dirCount, show d.index < ns.dirs.size from hlt]
      dsimp only at hsite
      split at hsite
      · cases hsite
      · simp only [hadmits, Bool.not_true, Bool.false_eq_true, if_false] at hsite
        split at hsite
        · cases hsite
        · split at hsite
          · cases hsite
          · cases hsite

theorem createFile_ne_notFound (h : ns.WellFormed) {cwd : Option DirId}
    (hcwd : ∀ d ∈ cwd, d.index < ns.dirs.size) (path : String) (data : Bytes) (access : Access) :
    (ns.createFile cwd path data access).1 ≠ .error .notFound := by
  have hends := ns.createFile_ends cwd path data access
  generalize ns.createFile cwd path data access = ended at hends ⊢
  cases hends with
  | refused hsite =>
    rintro ⟨⟩
    exact site_ne_notFound h hcwd path hsite
  | tooLong => simp
  | full _ _ _ halloc => simp [allocate_error halloc]
  | done => simp

/-- After any run all links agree, every listing is complete, and no operation meets a number that
stands for nothing: a walk ends in a directory, and a new file always has one to go into. -/
theorem intact_after_run {pageSize : Nat} (h : (Namespace.empty pageSize).Run changes ns) :
    ns.Intact ∧
    (∀ d node, ns.dir? d = some node → ∃ entries, ns.entries d = .ok entries ∧
      ns.Shown d entries) ∧
    ∀ cwd path, (∀ d ∈ cwd, ∃ node, ns.dir? d = some node) →
      (∃ node, ns.dir? (ns.resolve cwd path).1 = some node) ∧
      ∀ data access, (ns.createFile cwd path data access).1 ≠ .error .notFound := by
  have hempty := WellFormed.empty pageSize
  have hns := h.wellFormed hempty
  have hshort := h.short hempty (.empty pageSize)
  refine ⟨hns.intact, fun d node hd ↦ entries_shown hns hshort hd, fun cwd path hcwd ↦ ?_⟩
  have hlt : ∀ d ∈ cwd, d.index < ns.dirs.size := by
    intro d hd
    obtain ⟨node, hnode⟩ := hcwd d hd
    exact lt_of_dir? hnode
  exact ⟨dir?_of_lt (resolve_lt hns hlt path), createFile_ne_notFound hns hlt path⟩

/-- Two files in a new directory; the slot of the first is used again, from that directory. -/
def slotReuse : List Change :=
  [.create none "/a/x" [1] .created, .create none "/a/y" [2, 3] .created, .delete ⟨0, 0⟩,
    .create (some ⟨1⟩) "/b/z" [] .readOnly]

theorem slot_reuse_intact : ∃ ns, (Namespace.empty 4096).Run slotReuse ns ∧ ns.Intact ∧
    ∃ entries, ns.entries ⟨1⟩ = .ok entries ∧ ns.Shown ⟨1⟩ entries := by
  have hrun : (Namespace.empty 4096).Run slotReuse
      (slotReuse.foldl perform (Namespace.empty 4096)) := by
    refine .cons ?_ (.cons ?_ (.cons trivial (.cons ?_ (.nil _))))
    · simp [Change.Grounded]
    · simp [Change.Grounded]
    · intro d hd
      cases hd
      decide +kernel
  obtain ⟨hintact, hentries, -⟩ := intact_after_run hrun
  have hlt : (⟨1⟩ : DirId).index < (slotReuse.foldl perform (Namespace.empty 4096)).dirs.size := by
    decide +kernel
  obtain ⟨node, hnode⟩ := dir?_of_lt hlt
  exact ⟨_, hrun, hintact, hentries ⟨1⟩ node hnode⟩

end BootNamespace.Namespace
