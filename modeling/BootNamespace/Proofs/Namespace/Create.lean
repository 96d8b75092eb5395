import BootNamespace.Proofs.Namespace.Files
import BootNamespace.Proofs.Namespace.Walk

namespace BootNamespace.Namespace

variable {ns : Namespace} {d p q : DirId} {name other : String} {names : List String}
variable {cwd : Option DirId} {path : String} {data : Bytes} {access : Access} {site : Site}

/-- Directories, files and slots agree with each other. -/
structure WellFormed (ns : Namespace) : Prop where
  dirs : ns.DirsSound
  files : ns.FilesSound
  slots : ns.SlotsSound

theorem WellFormed.empty (pageSize : Nat) : (Namespace.empty pageSize).WellFormed :=
  ⟨.empty pageSize, .empty pageSize, .empty pageSize⟩

theorem WellFormed.root_lt (h : ns.WellFormed) : DirId.root.index < ns.dirs.size := by
  obtain ⟨node, hnode, -⟩ := h.dirs.root
  exact lt_of_dir? hnode

/-- A place that a new file can go to. -/
structure Vacant (ns : Namespace) (site : Site) : Prop where
  dir : site.dir.index < ns.dirs.size
  valid : ∀ name ∈ site.missing ++ [site.name], Path.validName name
  noDir : ∀ name ∈ (site.missing ++ [site.name]).head?, ns.childDir site.dir name = none
  noFile : site.missing = [] → ns.childFile site.dir site.name = none

theorem start_lt (h : ns.WellFormed) (hcwd : ∀ d ∈ cwd, d.index < ns.dirs.size) :
    (cwd.getD .root).index < ns.dirs.size := by
  cases cwd with
  | none => exact h.root_lt
  | some d => exact hcwd d rfl

theorem resolve_lt (h : ns.WellFormed) (hcwd : ∀ d ∈ cwd, d.index < ns.dirs.size) (path : String) :
    (ns.resolve cwd path).1.index < ns.dirs.size :=
  walk_lt h.dirs (start_lt h hcwd) path.toList

/-- The first of the names that are left belongs to no directory. -/
theorem resolve_head {rest : String} (h : ns.resolve cwd path = (d, some rest)) :
    ∀ name ∈ (Path.pieces rest).head?, ns.childDir d name = none := by
  intro name hname
  unfold resolve at h
  cases hwalk : ns.walk (cwd.getD .root) path.toList with
  | mk e left =>
    rw [hwalk] at h
    simp only [Prod.mk.injEq, Option.map_eq_some_iff] at h
    obtain ⟨rfl, cs, rfl, rfl⟩ := h
    rw [Path.pieces, String.toList_ofList, List.head?_map, Path.head?_splitSlash,
      Option.map_some, Option.mem_some_iff] at hname
    rw [← hname]
    exact walk_rest hwalk

theorem pieces_ne_nil (path : String) : Path.pieces path ≠ [] := by
  simp [Path.pieces, Path.splitSlash_ne_nil]

theorem dropLast_append_getLastD {xs : List String} (h : xs ≠ []) :
    xs.dropLast ++ [xs.getLastD ""] = xs := by
  rw [List.getLastD_eq_getLast?, List.getLast?_eq_some_getLast h]
  exact List.dropLast_concat_getLast h

theorem site_eq_ok (hsite : ns.site cwd path = .ok site) :
    ∃ rest, ns.resolve cwd path = (site.dir, some rest) ∧
      Path.pieces rest = site.missing ++ [site.name] ∧
      (∀ name ∈ Path.pieces rest, Path.validName name) ∧
      (site.missing = [] → ns.childFile site.dir site.name = none) := by
  unfold Namespace.site at hsite
  split at hsite
  · cases hsite
  · split at hsite
    · cases hsite
    next d rest hresolve =>
      dsimp only at hsite
      split at hsite
      · cases hsite
      next hvalid =>
        split at hsite
        · cases hsite
        next hfile =>
          split at hsite
          · cases hsite
          · split at hsite
            · cases hsite
            · cases hsite
              refine ⟨rest, hresolve, (dropLast_append_getLastD (pieces_ne_nil rest)).symm, ?_, ?_⟩
              · intro name hname
                simpa using List.find?_eq_none.mp hvalid name hname
              · intro hmissing
                dsimp only at hmissing
                rw [hmissing, List.isEmpty_nil, Bool.true_and,
                  Option.not_isSome_iff_eq_none] at hfile
                exact hfile

theorem site_vacant (h : ns.WellFormed) (hcwd : ∀ d ∈ cwd, d.index < ns.dirs.size)
    (hsite : ns.site cwd path = .ok site) : ns.Vacant site := by
  obtain ⟨rest, hresolve, hnames, hvalid, hfile⟩ := site_eq_ok hsite
  have hlt := resolve_lt h hcwd path
  have hhead := resolve_head hresolve
  rw [hresolve] at hlt
  rw [hnames] at hvalid hhead
  exact ⟨hlt, hvalid, hhead, hfile⟩

/-- What a chain of new directories below `p` does. It ends in `d`. -/
structure Extended (ns : Namespace) (p : DirId) (names : List String) (d : DirId)
    (ns' : Namespace) : Prop where
  dirs : ns'.DirsSound
  files : ns'.FilesSound
  size : ns'.dirs.size = ns.dirs.size + names.length
  slots : ns'.slots = ns.slots
  free : ns'.free = ns.free
  pageSize : ns'.pageSize = ns.pageSize
  last : d.index < ns'.dirs.size
  stays : names = [] → d = p
  /-- The last of the new directories is empty. -/
  fresh : names ≠ [] → ns.dirs.size ≤ d.index ∧ ∀ name e, ¬ns'.HasDir d name e
  kept {q e : DirId} {name : String} (h : ns.HasDir q name e) : ns'.HasDir q name e
  first : ∀ name ∈ names.head?, ∃ e, ns'.HasDir p name e
  /-- Of the directories that were there, only `p` gets a new one. -/
  old {q e : DirId} {name : String} (hq : q.index < ns.dirs.size) (h : ns'.HasDir q name e) :
    ns.HasDir q name e ∨ (q = p ∧ names.head? = some name)

theorem addDirs_extended (hd : ns.DirsSound) (hf : ns.FilesSound) (hp : p.index < ns.dirs.size)
    (hvalid : ∀ name ∈ names, Path.validName name)
    (hnew : ∀ name ∈ names.head?, ∀ e, ¬ns.HasDir p name e) :
    ns.Extended p names (ns.addDirs p names).1 (ns.addDirs p names).2 := by
  induction names generalizing ns p with
  | nil =>
    exact {
      dirs := hd
      files := hf
      size := rfl
      slots := rfl
      free := rfl
      pageSize := rfl
      last := hp
      stays := fun _ ↦ rfl
      fresh := fun h ↦ absurd rfl h
      kept := id
      first := fun _ h ↦ absurd h (by simp)
      old := fun _ h ↦ .inl h }
  | cons name names ih =>
    have hname := hvalid name List.mem_cons_self
    have hfree := hnew name rfl
    have hsize : (ns.addDir p name).2.dirs.size = ns.dirs.size + 1 := size_dirs_addDir name
    have hempty (other : String) (e : DirId) :
        ¬(ns.addDir p name).2.HasDir ⟨ns.dirs.size⟩ other e := by
      intro h
      rcases (hasDir_addDir hp).mp h with ⟨-, he, -⟩ | h
      · rw [← he] at hp
        exact Nat.lt_irrefl _ hp
      · obtain ⟨node, hnode⟩ := hd.parent_exists h
        exact Nat.lt_irrefl _ (lt_of_dir? hnode)
    have hlt : ns.dirs.size < (ns.addDir p name).2.dirs.size := by omega
    -- Nothing is below the new directory yet, so the rest of the chain meets no other name.
    have hrest := ih (p := ⟨ns.dirs.size⟩) (hd.addDir hp hname hfree) (hf.addDir hp) hlt
      (fun other h ↦ hvalid other (List.mem_cons_of_mem _ h)) (fun other _ ↦ hempty other)
    have hadd : ns.addDirs p (name :: names) =
        (ns.addDir p name).2.addDirs ⟨ns.dirs.size⟩ names := rfl
    rw [hadd]
    refine ⟨hrest.dirs, hrest.files, ?_, hrest.slots, hrest.free, hrest.pageSize, hrest.last,
      fun h ↦ absurd h (by simp), fun _ ↦ ?_, fun h ↦ ?_, fun other h ↦ ?_, fun hq h ↦ ?_⟩
    · rw [hrest.size, hsize, List.length_cons]
      omega
    · cases names with
      | nil => exact ⟨Nat.le_refl _, hempty⟩
      | cons other names =>
        obtain ⟨hle, hno⟩ := hrest.fresh (by simp)
        exact ⟨by omega, hno⟩
    · exact hrest.kept ((hasDir_addDir hp).mpr (.inr h))
    · cases h
      exact ⟨_, hrest.kept ((hasDir_addDir hp).mpr (.inl ⟨rfl, rfl, rfl⟩))⟩
    · rcases hrest.old (by omega) h with h | ⟨he, -⟩
      · rcases (hasDir_addDir hp).mp h with ⟨-, he, hother⟩ | h
        · exact .inr ⟨he, by rw [hother, List.head?_cons]⟩
        · exact .inl h
      · rw [he] at hq
        exact absurd hq (Nat.lt_irrefl _)

theorem Extended.slotsSound {ns' : Namespace} (h : ns.Extended p names d ns') (hs : ns.SlotsSound) :
    ns'.SlotsSound := by
  refine ⟨fun slot ↦ ?_, ?_⟩
  · rw [h.slots, h.free]
    exact hs.free_iff slot
  · rw [h.free]
    exact hs.free_nodup

theorem Extended.file? {ns' : Namespace} (h : ns.Extended p names d ns') (id : FileId) :
    ns'.file? id = ns.file? id := by
  rw [Namespace.file?, Namespace.file?, h.slots]

theorem Extended.hasFile {ns' : Namespace} (h : ns.Extended p names d ns') {id : FileId} :
    ns'.HasFile q name id ↔ ns.HasFile q name id := by
  rw [HasFile, HasFile, h.file?]

theorem Extended.wellFormed {ns' : Namespace} (h : ns.Extended p names d ns') (hs : ns.SlotsSound) :
    ns'.WellFormed :=
  ⟨h.dirs, h.files, h.slotsSound hs⟩

/-- A new file stands at its site: the missing directories, then a slot, then the entry in the last
of the directories. -/
def Created (ns : Namespace) (site : Site) (file : FileNode) (id : FileId) (ns' : Namespace) :
    Prop :=
  ∃ ns₁ ns₂, ns.Extended site.dir site.missing file.owner ns₁ ∧ ns₁.Allocated file id ns₂ ∧
    ns' = ns₂.link file.owner id

theorem Vacant.extended (h : ns.WellFormed) (hsite : ns.Vacant site) :
    ns.Extended site.dir site.missing (ns.addDirs site.dir site.missing).1
      (ns.addDirs site.dir site.missing).2 := by
  refine addDirs_extended h.dirs h.files hsite.dir ?_ ?_
  · exact fun name hname ↦ hsite.valid name (List.mem_append_left _ hname)
  · intro name hname
    refine (childDir_eq_none_iff h.dirs).mp (hsite.noDir name ?_)
    cases hmissing : site.missing with
    | nil => simp [hmissing] at hname
    | cons first rest =>
      rw [hmissing] at hname
      exact hname

/-- No file of the site's name is in the directory that the new file is put into. -/
theorem Vacant.no_file (h : ns.WellFormed) (hsite : ns.Vacant site) {ns' : Namespace}
    (hext : ns.Extended site.dir site.missing d ns') (id : FileId) :
    ¬ns'.HasFile d site.name id := by
  rw [hext.hasFile]
  by_cases hmissing : site.missing = []
  · rw [hext.stays hmissing]
    exact (childFile_eq_none_iff h.files).mp (hsite.noFile hmissing) id
  · rintro ⟨file, hfile, rfl, -⟩
    have hlt := h.files.owner hfile
    have hle := (hext.fresh hmissing).1
    omega

theorem Vacant.no_dir (h : ns.WellFormed) (hsite : ns.Vacant site) {ns' : Namespace}
    (hext : ns.Extended site.dir site.missing d ns') (e : DirId) :
    ¬ns'.HasDir d site.name e := by
  by_cases hmissing : site.missing = []
  · rw [hext.stays hmissing]
    intro he
    rcases hext.old hsite.dir he with he | ⟨-, hhead⟩
    · have hno := hsite.noDir site.name (by rw [hmissing]; rfl)
      exact (childDir_eq_none_iff h.dirs).mp hno e he
    · rw [hmissing] at hhead
      cases hhead
  · exact (hext.fresh hmissing).2 site.name e

/-- Making directories changes nothing but the directories. -/
theorem addDirs_frame {mid : Namespace} (hdirs : ns.addDirs p names = (d, mid)) :
    mid = { ns with dirs := mid.dirs } := by
  induction names generalizing ns p with
  | nil =>
    cases hdirs
    rfl
  | cons name names ih =>
    have hrest : (ns.addDir p name).2.addDirs ⟨ns.dirs.size⟩ names = (d, mid) := hdirs
    have hmid := ih hrest
    exact hmid

/-- An allocation changes nothing but the slots. -/
theorem allocate_frame {file : FileNode} {result : Except FsError FileId} {ns' : Namespace}
    (halloc : ns.allocate file = (result, ns')) :
    ns' = { ns with slots := ns'.slots, free := ns'.free } := by
  unfold allocate at halloc
  split at halloc
  next =>
    split at halloc
    next => cases halloc; rfl
    next => cases halloc; rfl
  next =>
    split at halloc
    next => cases halloc; rfl
    next => cases halloc; rfl

theorem allocate_error {file : FileNode} {e : FsError} {ns' : Namespace}
    (halloc : ns.allocate file = (.error e, ns')) : e = .resourceExhausted := by
  unfold allocate at halloc
  split at halloc
  next =>
    split at halloc
    next => cases halloc
    next => cases halloc; rfl
  next =>
    split at halloc
    next => cases halloc
    next => cases halloc; rfl

/-- The ways a creation can end: without a place for the file, with too many bytes, without a slot
when its directories are made, or with the file in its directory. -/
inductive CreateEnds (ns : Namespace) (cwd : Option DirId) (path : String) (data : Bytes)
    (access : Access) : Except FsError FileId × Namespace → Prop
  | refused {e : FsError} (hsite : ns.site cwd path = .error e) :
      CreateEnds ns cwd path data access (.error e, ns)
  | tooLong (hdata : allocationLimit ≤ data.length) :
      CreateEnds ns cwd path data access (.error .resourceExhausted, ns)
  | full {site : Site} {d : DirId} {mid ns' : Namespace} {e : FsError}
      (hsite : ns.site cwd path = .ok site) (hdata : data.length < allocationLimit)
      (hdirs : ns.addDirs site.dir site.missing = (d, mid))
      (halloc : mid.allocate ⟨site.name, d, data.toArray, access, 0, 0⟩ = (.error e, ns')) :
      CreateEnds ns cwd path data access (.error e, ns')
  | done {site : Site} {d : DirId} {mid ns' : Namespace} {id : FileId}
      (hsite : ns.site cwd path = .ok site) (hdata : data.length < allocationLimit)
      (hdirs : ns.addDirs site.dir site.missing = (d, mid))
      (halloc : mid.allocate ⟨site.name, d, data.toArray, access, 0, 0⟩ = (.ok id, ns')) :
      CreateEnds ns cwd path data access (.ok id, ns'.link d id)

theorem createFile_ends (ns : Namespace) (cwd : Option DirId) (path : String) (data : Bytes)
    (access : Access) :
    ns.CreateEnds cwd path data access (ns.createFile cwd path data access) := by
  unfold createFile
  split
  next hsite => exact .refused hsite
  next hsite =>
    split
    next hlong => exact .tooLong hlong
    next hshort =>
      dsimp only
      split
      next halloc => exact .full hsite (Nat.lt_of_not_le hshort) rfl halloc
      next halloc => exact .done hsite (Nat.lt_of_not_le hshort) rfl halloc

theorem createFile_of_site_error {e : FsError} (hsite : ns.site cwd path = .error e) :
    ns.createFile cwd path data access = (.error e, ns) := by
  rw [createFile, hsite]

/-- A path matters only through the place that it gives. -/
theorem createFile_congr {other : String} (hsite : ns.site cwd other = ns.site cwd path)
    (data : Bytes) (access : Access) :
    ns.createFile cwd other data access = ns.createFile cwd path data access := by
  rw [createFile, createFile, hsite]

theorem createFile_cases (h : ns.WellFormed) (hcwd : ∀ d ∈ cwd, d.index < ns.dirs.size)
    (path : String) (data : Bytes) (access : Access) :
    (∃ e, ns.createFile cwd path data access = (.error e, ns) ∧
      ∀ site, ns.site cwd path = .ok site → allocationLimit ≤ data.length) ∨
    (∃ site d ns', ns.site cwd path = .ok site ∧ data.length < allocationLimit ∧
      ns.Extended site.dir site.missing d ns' ∧ arenaLimit ≤ ns.fileCount ∧
      ns.createFile cwd path data access = (.error .resourceExhausted, ns')) ∨
    (∃ site d id ns', ns.site cwd path = .ok site ∧ data.length < allocationLimit ∧
      ns.Created site ⟨site.name, d, data.toArray, access, 0, 0⟩ id ns' ∧
      ns.createFile cwd path data access = (.ok id, ns')) := by
  have hends := ns.createFile_ends cwd path data access
  generalize ns.createFile cwd path data access = ended at hends ⊢
  have hext {site : Site} {d : DirId} {mid : Namespace} (hsite : ns.site cwd path = .ok site)
      (hdirs : ns.addDirs site.dir site.missing = (d, mid)) :
      ns.Extended site.dir site.missing d mid := by
    have hext := (site_vacant h hcwd hsite).extended h
    rwa [hdirs] at hext
  cases hends with
  | @refused e hsite => exact .inl ⟨e, rfl, fun site hok ↦ nomatch hsite.symm.trans hok⟩
  | tooLong hdata => exact .inl ⟨_, rfl, fun _ _ ↦ hdata⟩
  | @full site d mid ns' e hsite hdata hdirs halloc =>
    have hext := hext hsite hdirs
    have hcount : mid.fileCount = ns.fileCount := by rw [fileCount, fileCount, hext.slots]
    obtain ⟨id, ns'', heq, -⟩ | ⟨heq, hfull⟩ := allocate_cases (hext.slotsSound h.slots)
      ⟨site.name, d, data.toArray, access, 0, 0⟩
    · cases halloc.symm.trans heq
    · cases halloc.symm.trans heq
      exact .inr (.inl ⟨site, d, mid, hsite, hdata, hext, hcount ▸ hfull, rfl⟩)
  | @done site d mid ns' id hsite hdata hdirs halloc =>
    have hext := hext hsite hdirs
    obtain ⟨id', ns'', heq, hallocated⟩ | ⟨heq, -⟩ := allocate_cases (hext.slotsSound h.slots)
      ⟨site.name, d, data.toArray, access, 0, 0⟩
    · cases halloc.symm.trans heq
      exact .inr (.inr ⟨site, d, id, _, hsite, hdata, ⟨mid, ns', hext, hallocated, rfl⟩, rfl⟩)
    · cases halloc.symm.trans heq

theorem links_link {ns' : Namespace} {file : FileNode} {id : FileId} (h : ns.Allocated file id ns')
    (p : DirId) (other : FileId) (q : DirId) :
    ((ns'.link p other).dir? q).map DirNode.links = (ns.dir? q).map DirNode.links := by
  have hdir : ns'.dir? q = ns.dir? q := by rw [dir?, dir?, h.dirs]
  rw [dir?_link, hdir]
  split
  · rw [Option.map_map]
    rfl
  · rfl

theorem Created.wellFormed {file : FileNode} {id : FileId} {ns' : Namespace} (h : ns.WellFormed)
    (hsite : ns.Vacant site) (hname : file.name = site.name)
    (hcreated : ns.Created site file id ns') : ns'.WellFormed := by
  obtain ⟨ns₁, ns₂, hext, halloc, rfl⟩ := hcreated
  refine ⟨hext.dirs.congr (links_link halloc _ _), hext.files.link halloc hext.last ?_ ?_,
    halloc.slots.link _ _⟩
  · rw [hname]
    exact hsite.valid _ (List.mem_append_right _ List.mem_cons_self)
  · rw [hname]
    exact hsite.no_file h hext

theorem WellFormed.createFile (h : ns.WellFormed) (hcwd : ∀ d ∈ cwd, d.index < ns.dirs.size)
    (path : String) (data : Bytes) (access : Access) :
    (ns.createFile cwd path data access).2.WellFormed := by
  rcases createFile_cases h hcwd path data access with
    ⟨e, heq, -⟩ | ⟨site, d, ns', -, -, hext, -, heq⟩ | ⟨site, d, id, ns', hsite, -, hcreated, heq⟩
  · rw [heq]
    exact h
  · rw [heq]
    exact hext.wellFormed h.slots
  · rw [heq]
    exact hcreated.wellFormed h (site_vacant h hcwd hsite) rfl

/-- While there is room for another file, a creation that fails changes nothing. -/
theorem createFile_error (h : ns.WellFormed) (hcwd : ∀ d ∈ cwd, d.index < ns.dirs.size)
    (hroom : ns.fileCount < arenaLimit) {e : FsError} {ns' : Namespace}
    (hcreate : ns.createFile cwd path data access = (.error e, ns')) : ns' = ns := by
  rcases createFile_cases h hcwd path data access with
    ⟨e', heq, -⟩ | ⟨site, d, ns₁, -, -, -, hfull, -⟩ | ⟨site, d, id, ns₁, -, -, -, heq⟩
  · rw [hcreate] at heq
    cases heq
    rfl
  · exact absurd hroom (Nat.not_lt_of_le hfull)
  · rw [hcreate] at heq
    cases heq

theorem Created.file? {file : FileNode} {id : FileId} {ns' : Namespace}
    (h : ns.Created site file id ns') (other : FileId) :
    ns'.file? other = if other = id then some file else ns.file? other := by
  obtain ⟨ns₁, ns₂, hext, halloc, rfl⟩ := h
  rw [file?_link, halloc.file?, hext.file?]

theorem Created.dead {file : FileNode} {id : FileId} {ns' : Namespace}
    (h : ns.Created site file id ns') : ns.file? id = none := by
  obtain ⟨ns₁, ns₂, hext, halloc, rfl⟩ := h
  rw [← hext.file?]
  exact halloc.dead

theorem createFile_live (h : ns.WellFormed) (hcwd : ∀ d ∈ cwd, d.index < ns.dirs.size)
    {id : FileId} {ns' : Namespace} (hcreate : ns.createFile cwd path data access = (.ok id, ns')) :
    ∃ file, ns'.file? id = some file ∧ file.access = access ∧ file.refs = 0 := by
  rcases createFile_cases h hcwd path data access with
    ⟨e, heq, -⟩ | ⟨site, d, ns₁, -, -, -, -, heq⟩ | ⟨site, d, id', ns₁, -, -, hcreated, heq⟩
  · rw [hcreate] at heq
    cases heq
  · rw [hcreate] at heq
    cases heq
  · rw [hcreate] at heq
    cases heq
    have hlive := hcreated.file? id
    rw [if_pos rfl] at hlive
    exact ⟨_, hlive, rfl, rfl⟩

end BootNamespace.Namespace
