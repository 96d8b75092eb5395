import BootNamespace.Proofs.Namespace.Naming

namespace BootNamespace.Namespace

variable {ns ns' ns'' : Namespace} {d e p : DirId} {id : FileId} {file : FileNode}
variable {names : List String} {cwd : Option DirId} {path : String} {data : Bytes} {access : Access}

/-- Where a chain of new directories below `p` has come to after `i` of its names. The new
directories get the next numbers. -/
def stage (ns : Namespace) (p : DirId) : Nat → DirId
  | 0 => p
  | i + 1 => ⟨ns.dirs.size + i⟩

/-- What the `i`-th stage of a chain gets for a child: the stage after it, if there is one. -/
def nextStage (ns : Namespace) (p : DirId) (names : List String) (i : Nat) : List DirId :=
  if i < names.length then [ns.stage p (i + 1)] else []

/-- What the `i`-th stage of a chain gets for files: those that are put at its end. -/
def endFiles (names : List String) (ids : List FileId) (i : Nat) : List FileId :=
  if i = names.length then ids else []

/-- The directories are those that were there and one chain below `p`, a directory for each name, with
the files at its end. -/
structure Chained (ns : Namespace) (p : DirId) (names : List String) (ids : List FileId)
    (ns' : Namespace) : Prop where
  size : ns'.dirs.size = ns.dirs.size + names.length
  new (i : Nat) (hi : i < names.length) : ns'.dir? (ns.stage p (i + 1)) =
    some ⟨names[i], some (ns.stage p i), ns.nextStage p names (i + 1), endFiles names ids (i + 1)⟩
  /-- Only `p` has more than it had. -/
  old {e : DirId} (he : e.index < ns.dirs.size) : ns'.dir? e = (ns.dir? e).map fun node ↦
    if e = p then { node with
      dirs := ns.nextStage p names 0 ++ node.dirs
      files := endFiles names ids 0 ++ node.files }
    else node

theorem stage_addDir (name : String) (i : Nat) :
    (ns.addDir p name).2.stage ⟨ns.dirs.size⟩ i = ns.stage p (i + 1) := by
  cases i with
  | zero => rfl
  | succ i =>
    rw [stage, stage, size_dirs_addDir, Nat.add_assoc, Nat.add_comm 1 i]

theorem nextStage_addDir (name : String) (i : Nat) :
    (ns.addDir p name).2.nextStage ⟨ns.dirs.size⟩ names i =
      ns.nextStage p (name :: names) (i + 1) := by
  simp only [nextStage, stage_addDir, List.length_cons, Nat.add_lt_add_iff_right]

theorem endFiles_cons (name : String) (ids : List FileId) (i : Nat) :
    endFiles (name :: names) ids (i + 1) = endFiles names ids i := by
  simp only [endFiles, List.length_cons, Nat.add_right_cancel_iff]

@[simp] theorem endFiles_nil (i : Nat) : endFiles names [] i = [] := by simp [endFiles]

theorem stage_inj (hp : p.index < ns.dirs.size) {i j : Nat} :
    ns.stage p i = ns.stage p j ↔ i = j := by
  cases i with
  | zero =>
    cases j with
    | zero => simp
    | succ j => simp only [stage, ← index_inj]; omega
  | succ i =>
    cases j with
    | zero => simp only [stage, ← index_inj]; omega
    | succ j => simp only [stage, ← index_inj]; omega

theorem addDirs_chained (hp : p.index < ns.dirs.size) (names : List String) :
    ns.Chained p names [] (ns.addDirs p names).2 ∧
      (ns.addDirs p names).1 = ns.stage p names.length := by
  induction names generalizing ns p with
  | nil =>
    refine ⟨⟨rfl, fun i hi ↦ absurd hi (Nat.not_lt_zero i), fun {e} he ↦ ?_⟩, rfl⟩
    simp [nextStage, endFiles, addDirs]
  | cons name names ih =>
    have hsize : (ns.addDir p name).2.dirs.size = ns.dirs.size + 1 := size_dirs_addDir name
    have hnew : (⟨ns.dirs.size⟩ : DirId).index < (ns.addDir p name).2.dirs.size := by
      rw [hsize]
      exact Nat.lt_succ_self _
    obtain ⟨hchain, hlast⟩ := ih hnew
    have hadd : ns.addDirs p (name :: names) =
        (ns.addDir p name).2.addDirs ⟨ns.dirs.size⟩ names := rfl
    rw [hadd]
    refine ⟨⟨?_, fun i hi ↦ ?_, fun {e} he ↦ ?_⟩, hlast.trans (stage_addDir name _)⟩
    · rw [hchain.size, hsize, List.length_cons, Nat.add_assoc, Nat.add_comm 1]
    · cases i with
      | zero =>
        -- The first of the new directories is an old one for the rest of the chain.
        have hfirst := hchain.old hnew
        rw [dir?_addDir hp, if_pos rfl, Option.map_some, if_pos rfl, nextStage_addDir,
          ← endFiles_cons name, List.append_nil, List.append_nil] at hfirst
        exact hfirst
      | succ i =>
        have hnext := hchain.new i (Nat.lt_of_succ_lt_succ hi)
        rw [stage_addDir, stage_addDir, nextStage_addDir, ← endFiles_cons name] at hnext
        exact hnext
    · have hold : e.index ≠ ns.dirs.size := Nat.ne_of_lt he
      have hne : e ≠ ⟨ns.dirs.size⟩ := fun heq ↦ hold (congrArg DirId.index heq)
      rw [hchain.old (by omega), dir?_addDir hp, if_neg hold]
      simp only [if_neg hne, Option.map_id']
      split
      next heq => simp [heq, nextStage, stage, endFiles]
      next => simp

/-- An entry for a file at the end of a chain. -/
theorem Chained.link (h : ns.Chained p names [] ns') (hp : p.index < ns.dirs.size) (id : FileId)
    (hdirs : ns''.dirs = ns'.dirs) :
    ns.Chained p names [id] (ns''.link (ns.stage p names.length) id) := by
  have hdir (d : DirId) : ns''.dir? d = ns'.dir? d := by rw [dir?, dir?, hdirs]
  refine ⟨?_, fun i hi ↦ ?_, fun {e} he ↦ ?_⟩
  · rw [Namespace.link, Array.size_modify, hdirs, h.size]
  · rw [dir?_link, hdir, h.new i hi]
    simp only [stage_inj hp, endFiles_nil, Option.map_some]
    by_cases hlast : i + 1 = names.length
    · simp [endFiles, hlast]
    · simp [endFiles, hlast]
  · rw [dir?_link, hdir, h.old he]
    cases names with
    | nil =>
      simp only [List.length_nil, stage, endFiles]
      split
      next heq => simp [heq, Function.comp_def]
      next => simp
    | cons name names =>
      have hne : e ≠ ns.stage p (name :: names).length := by
        simp only [List.length_cons, stage, ne_eq, ← index_inj]
        omega
      rw [if_neg hne]
      simp [endFiles]

/-- All that a creation does: its file is there and found, what was missing of its path is one chain of
directories that ends with the file, and the rest is as it was. -/
structure AddsFile (ns : Namespace) (cwd : Option DirId) (path : String) (data : Bytes)
    (access : Access) (id : FileId) (ns' : Namespace) : Prop where
  dead : ns.file? id = none
  found : ns'.getFile cwd path = some id
  /-- The path goes through directories as far as they are there, then on through new ones. -/
  placed : ∃ top rest used missing name, ns.resolve cwd path = (top, some rest) ∧
    Path.segments rest = missing ++ [name] ∧ Path.segments path = used ++ Path.segments rest ∧
    ns.dirPath top = ns.dirPath (cwd.getD .root) ++ used ∧ ns.Chained top missing [id] ns' ∧
    ns'.file? id = some ⟨name, ns.stage top missing.length, data.toArray, access, 0, 0⟩
  others (other : FileId) (h : other ≠ id) : ns'.file? other = ns.file? other
  retains : ns.Retains ns'

theorem createFile_addsFile (h : ns.WellFormed) (hcwd : ∀ d ∈ cwd, d.index < ns.dirs.size)
    (hcreate : ns.createFile cwd path data access = (.ok id, ns')) :
    ns.AddsFile cwd path data access id ns' := by
  obtain ⟨hretains, hdead, hothers⟩ := createFile_retains h hcwd hcreate
  have hfound := getFile_createFile h hcwd hcreate
  obtain ⟨site, d, ns₁, ns₂, hsite, hvacant, hadd, hext, halloc, rfl⟩ :=
    createFile_steps h hcwd hcreate
  obtain ⟨rest, hresolve, hnames, hvalid, -⟩ := site_eq_ok hsite
  obtain ⟨used, htop, hused⟩ := site_used h.dirs hsite
  obtain ⟨hchain, hlast⟩ := addDirs_chained hvacant.dir site.missing
  rw [hadd] at hchain hlast
  have hsegments : Path.segments rest = site.missing ++ [site.name] := by
    rw [Path.segments_of_valid hvalid, hnames]
  have hfile : (ns₂.link d id).file? id = some _ := (halloc.file? id).trans (if_pos rfl)
  dsimp only at hlast
  subst hlast
  exact ⟨hdead, hfound, ⟨site.dir, rest, used, site.missing, site.name, hresolve, hsegments,
    hsegments ▸ hused, htop, hchain.link hvacant.dir id halloc.dirs, hfile⟩, hothers, hretains⟩

/-- A creation that fails changes nothing, and one that succeeds adds one file. Without room for
another file a creation can fail when its directories are made already. -/
theorem creation_all_or_nothing (h : ns.Reachable) (hroom : ns.fileCount < arenaLimit)
    (hcwd : ∀ d ∈ cwd, d.index < ns.dirCount) (path : String) (data : Bytes) (access : Access) :
    match ns.createFile cwd path data access with
    | (.error _, ns') => ns' = ns
    | (.ok id, ns') => ns.AddsFile cwd path data access id ns' := by
  split
  next hcreate => exact createFile_error h.wellFormed hcwd hroom hcreate
  next hcreate => exact createFile_addsFile h.wellFormed hcwd hcreate

/-- Two files, the first of them deleted again. -/
def slotFreed : List Change :=
  [.create none "/a/b/x" [1] .created, .create none "/a/y" [2, 3] .created, .delete ⟨0, 0⟩]

/-- The path goes through one directory and gets another; the free slot takes the file. -/
theorem chain_below_a_directory : ∃ ns ns', (Namespace.empty 4096).Run slotFreed ns ∧
    ns.fileCount < arenaLimit ∧
    ns.createFile (some ⟨1⟩) "/b/c/z" [7] .readOnly = (.ok ⟨0, 1⟩, ns') ∧
    ns.AddsFile (some ⟨1⟩) "/b/c/z" [7] .readOnly ⟨0, 1⟩ ns' := by
  have hrun : (Namespace.empty 4096).Run slotFreed
      (slotFreed.foldl perform (Namespace.empty 4096)) := by
    refine .cons ?_ (.cons ?_ (.cons trivial (.nil _)))
    · simp [Change.Grounded]
    · simp [Change.Grounded]
  generalize hns : slotFreed.foldl perform (Namespace.empty 4096) = ns at hrun
  have hroom : ns.fileCount < arenaLimit := by
    rw [← hns]
    decide +kernel
  have hcwd : ∀ d ∈ some (⟨1⟩ : DirId), d.index < ns.dirCount := by
    rintro d ⟨⟩
    rw [← hns]
    decide +kernel
  have hok : (ns.createFile (some ⟨1⟩) "/b/c/z" [7] .readOnly).1 = .ok ⟨0, 1⟩ := by
    rw [← hns]
    decide +kernel
  have hadds := creation_all_or_nothing ⟨4096, _, hrun⟩ hroom hcwd "/b/c/z" [7] .readOnly
  rcases hcreate : ns.createFile (some ⟨1⟩) "/b/c/z" [7] .readOnly with ⟨result, ns'⟩
  rw [hcreate] at hok hadds
  dsimp only at hok
  subst hok
  exact ⟨ns, ns', hrun, hroom, hcreate, hadds⟩

end BootNamespace.Namespace
