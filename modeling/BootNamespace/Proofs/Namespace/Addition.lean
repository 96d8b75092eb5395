import BootNamespace.Proofs.Namespace.Found

namespace BootNamespace.Namespace

variable {ns ns' ns'' : Namespace} {d e p : DirId} {id other : FileId} {file : FileNode}
variable {name path : String} {names : List String} {cwd : Option DirId} {data : Bytes}
variable {access : Access}

/-- Every file that was there is there as it was, and every directory under its name and where it
was. -/
structure Retains (ns ns' : Namespace) : Prop where
  file {id : FileId} {file : FileNode} (h : ns.file? id = some file) : ns'.file? id = some file
  dir {d : DirId} {node : DirNode} (h : ns.dir? d = some node) :
    ∃ node', ns'.dir? d = some node' ∧ node'.name = node.name ∧ node'.parent = node.parent

theorem Retains.refl (ns : Namespace) : ns.Retains ns := ⟨id, fun {_ node} h ↦ ⟨node, h, rfl, rfl⟩⟩

theorem Retains.trans (h : ns.Retains ns') (k : ns'.Retains ns'') : ns.Retains ns'' := by
  refine ⟨fun hfile ↦ k.file (h.file hfile), fun {d node} hnode ↦ ?_⟩
  obtain ⟨node', hnode', hname, hparent⟩ := h.dir hnode
  obtain ⟨node'', hnode'', hname', hparent'⟩ := k.dir hnode'
  exact ⟨node'', hnode'', hname'.trans hname, hparent'.trans hparent⟩

/-- Every directory that was there is there under its name and where it was. -/
def KeepsDirs (ns ns' : Namespace) : Prop :=
  ∀ d node, ns.dir? d = some node →
    ∃ node', ns'.dir? d = some node' ∧ node'.name = node.name ∧ node'.parent = node.parent

theorem KeepsDirs.trans (h : ns.KeepsDirs ns') (k : ns'.KeepsDirs ns'') : ns.KeepsDirs ns'' := by
  intro d node hnode
  obtain ⟨node', hnode', hname, hparent⟩ := h d node hnode
  obtain ⟨node'', hnode'', hname', hparent'⟩ := k d node' hnode'
  exact ⟨node'', hnode'', hname'.trans hname, hparent'.trans hparent⟩

theorem KeepsDirs.of_links
    (hlinks : ∀ d, (ns'.dir? d).map DirNode.links = (ns.dir? d).map DirNode.links) :
    ns.KeepsDirs ns' := by
  intro d node hnode
  have hd := hlinks d
  rw [hnode] at hd
  obtain ⟨node', hnode', hlink⟩ := Option.map_eq_some_iff.mp hd
  simp only [DirNode.links, Prod.mk.injEq] at hlink
  exact ⟨node', hnode', hlink.1, hlink.2.1⟩

theorem KeepsDirs.of_dirs (hdirs : ns'.dirs = ns.dirs) : ns.KeepsDirs ns' :=
  .of_links fun d ↦ by rw [dir?, dir?, hdirs]

/-- The names on the way up to the root stay, because no directory on it is replaced. -/
theorem KeepsDirs.dirPath (h : ns.KeepsDirs ns') (hd : d.index < ns.dirs.size) :
    ns'.dirPath d = ns.dirPath d := by
  induction hn : d.index using Nat.strongRecOn generalizing d with
  | ind n ih =>
    obtain ⟨⟨name, parent, dirs, files⟩, hnode⟩ := dir?_of_lt hd
    obtain ⟨⟨name', parent', dirs', files'⟩, hnode', hname, hparent⟩ := h d _ hnode
    dsimp only at hname hparent
    subst hname hparent
    rw [Namespace.dirPath, Namespace.dirPath, hnode, hnode']
    cases parent' with
    | none => rfl
    | some p =>
      dsimp only
      split
      next hlt => rw [ih p.index (hn ▸ hlt) (Nat.lt_trans hlt hd) rfl]
      next => rfl

theorem Retains.keepsDirs (h : ns.Retains ns') : ns.KeepsDirs ns' := fun _ _ ↦ h.dir

theorem Retains.dirPath (h : ns.Retains ns') (hd : d.index < ns.dirs.size) :
    ns'.dirPath d = ns.dirPath d := h.keepsDirs.dirPath hd

theorem Retains.pathOf (h : ns.Retains ns') (hns : ns.FilesSound)
    (hfile : ns.file? id = some file) : ns'.pathOf id = ns.pathOf id := by
  rw [pathOf_eq_ok hfile, pathOf_eq_ok (h.file hfile), h.dirPath (hns.owner hfile)]

theorem addDir_retains (hp : p.index < ns.dirs.size) (name : String) :
    ns.Retains (ns.addDir p name).2 := by
  refine ⟨fun hfile ↦ hfile, fun {d node} hnode ↦ ?_⟩
  have hold : d.index ≠ ns.dirs.size := Nat.ne_of_lt (lt_of_dir? hnode)
  rw [dir?_addDir hp, if_neg hold, hnode]
  split
  · exact ⟨_, rfl, rfl, rfl⟩
  · exact ⟨_, rfl, rfl, rfl⟩

theorem dirPath_addDir (hp : p.index < ns.dirs.size) (name : String) :
    (ns.addDir p name).2.dirPath ⟨ns.dirs.size⟩ = ns.dirPath p ++ [name] := by
  rw [dirPath, dir?_addDir hp, if_pos rfl]
  dsimp only
  rw [if_pos hp, (addDir_retains hp name).dirPath hp]

/-- A chain of new directories ends in one whose path goes on along the names of the chain. -/
theorem addDirs_retains (hp : p.index < ns.dirs.size) (names : List String) :
    ns.Retains (ns.addDirs p names).2 ∧
      (ns.addDirs p names).2.dirPath (ns.addDirs p names).1 = ns.dirPath p ++ names := by
  induction names generalizing ns p with
  | nil => exact ⟨.refl ns, (List.append_nil _).symm⟩
  | cons name names ih =>
    have hnew : (⟨ns.dirs.size⟩ : DirId).index < (ns.addDir p name).2.dirs.size := by
      rw [size_dirs_addDir]
      exact Nat.lt_succ_self _
    obtain ⟨hretains, hpath⟩ := ih hnew
    refine ⟨(addDir_retains hp name).trans hretains, hpath.trans ?_⟩
    rw [dirPath_addDir hp, List.append_assoc, List.singleton_append]

theorem link_retains (ns : Namespace) (d : DirId) (id : FileId) : ns.Retains (ns.link d id) := by
  refine ⟨fun hfile ↦ hfile, fun {e node} hnode ↦ ?_⟩
  rw [dir?_link, hnode]
  split
  · exact ⟨_, rfl, rfl, rfl⟩
  · exact ⟨_, rfl, rfl, rfl⟩

theorem Allocated.retains (h : ns.Allocated file id ns') : ns.Retains ns' := by
  refine ⟨fun {other found} hfound ↦ ?_, fun {d node} hnode ↦ ?_⟩
  · have hother : other ≠ id := by
      intro he
      rw [he, h.dead] at hfound
      cases hfound
    rw [h.file?, if_neg hother, hfound]
  · have hdir : ns'.dir? d = ns.dir? d := by rw [dir?, dir?, h.dirs]
    exact ⟨node, hdir.trans hnode, rfl, rfl⟩

theorem Descends.dirPath {names : List String} (h : ns.DirsSound) (hdown : ns.Descends d names e) :
    ns.dirPath e = ns.dirPath d ++ names := by
  induction hdown with
  | here => exact (List.append_nil _).symm
  | down hchild hrest ih =>
    rw [ih, dirPath_of_hasDir h hchild, List.append_assoc, List.singleton_append]

/-- No name is lost on a walk: those that it uses go over to the directory's path, and the others are
left. -/
theorem walk_used (h : ns.DirsSound) {cs : List Char} {rest : Option (List Char)}
    (hwalk : ns.walk d cs = (e, rest)) : ∃ used, ns.dirPath e = ns.dirPath d ++ used ∧
      Path.names cs = used ++ Path.names (rest.getD []) := by
  obtain ⟨before, -, hdown, hnames⟩ := walk_descends h hwalk
  exact ⟨Path.names before, hdown.dirPath h, hnames⟩

theorem walk_names (h : ns.DirsSound) {cs : List Char} {rest : Option (List Char)}
    (hwalk : ns.walk d cs = (e, rest)) :
    ns.dirPath e ++ Path.names (rest.getD []) = ns.dirPath d ++ Path.names cs := by
  obtain ⟨used, hpath, hnames⟩ := walk_used h hwalk
  rw [hpath, hnames, List.append_assoc]

/-- The names of a path are those of the directories that it goes through, those that are missing, and
the file's. -/
theorem site_used (h : ns.DirsSound) {site : Site} (hsite : ns.site cwd path = .ok site) :
    ∃ used, ns.dirPath site.dir = ns.dirPath (cwd.getD .root) ++ used ∧
      Path.segments path = used ++ (site.missing ++ [site.name]) := by
  obtain ⟨rest, hresolve, hnames, hvalid, -⟩ := site_eq_ok hsite
  rw [← hnames, ← Path.segments_of_valid hvalid]
  unfold resolve at hresolve
  rcases hwalk : ns.walk (cwd.getD .root) path.toList with ⟨e, left⟩
  rw [hwalk] at hresolve
  simp only [Prod.mk.injEq, Option.map_eq_some_iff] at hresolve
  obtain ⟨rfl, cs, rfl, rfl⟩ := hresolve
  rw [Path.segments_ofList]
  exact walk_used h hwalk

theorem site_names (h : ns.DirsSound) {site : Site} (hsite : ns.site cwd path = .ok site) :
    ns.dirPath site.dir ++ (site.missing ++ [site.name]) =
      ns.dirPath (cwd.getD .root) ++ Path.segments path := by
  obtain ⟨used, hpath, hnames⟩ := site_used h hsite
  rw [hpath, hnames, List.append_assoc]

theorem checkCreatable_of_site {site : Site} (hsite : ns.site cwd path = .ok site) :
    Path.checkCreatable path = .ok () := by
  unfold Namespace.site at hsite
  split at hsite
  next => cases hsite
  next heq => exact heq

/-- The steps of a creation that succeeds: a chain of directories, a slot, and an entry. -/
theorem createFile_steps (h : ns.WellFormed) (hcwd : ∀ d ∈ cwd, d.index < ns.dirs.size)
    (hcreate : ns.createFile cwd path data access = (.ok id, ns')) :
    ∃ site d ns₁ ns₂, ns.site cwd path = .ok site ∧ ns.Vacant site ∧
      ns.addDirs site.dir site.missing = (d, ns₁) ∧ ns.Extended site.dir site.missing d ns₁ ∧
      ns₁.Allocated ⟨site.name, d, data.toArray, access, 0, 0⟩ id ns₂ ∧ ns' = ns₂.link d id := by
  have hends := ns.createFile_ends cwd path data access
  rw [hcreate] at hends
  cases hends with
  | @done site d ns₁ ns₂ _ hsite hdata hdirs halloc =>
    have hvacant := site_vacant h hcwd hsite
    have hext := hvacant.extended h
    rw [hdirs] at hext
    obtain ⟨id', ns₂', heq, hallocated⟩ | ⟨heq, -⟩ := allocate_cases (hext.slotsSound h.slots)
      ⟨site.name, d, data.toArray, access, 0, 0⟩
    · cases halloc.symm.trans heq
      exact ⟨site, d, ns₁, ns₂, hsite, hvacant, hdirs, hext, hallocated, rfl⟩
    · cases halloc.symm.trans heq

/-- What a file is made of: where it is to stand, its bytes, and what may be done with it. -/
structure Placement where
  path : String
  data : Bytes
  access : Access
  deriving DecidableEq, Repr

/-- The file is live as it was placed, closed, and under the path it was given. -/
def Placed (ns : Namespace) (id : FileId) (placement : Placement) : Prop :=
  ∃ file, ns.file? id = some file ∧ file.data = placement.data ∧ file.access = placement.access ∧
    file.refs = 0 ∧ ns.pathOf id = .ok (Path.collapsed placement.path)

theorem Placed.retained {placement : Placement} (h : ns.Placed id placement)
    (hns : ns.FilesSound) (hretains : ns.Retains ns') : ns'.Placed id placement := by
  obtain ⟨file, hfile, hdata, haccess, hrefs, hpath⟩ := h
  exact ⟨file, hretains.file hfile, hdata, haccess, hrefs, (hretains.pathOf hns hfile).trans hpath⟩

/-- A creation that succeeds brings in one file, and but for that file and the directories on the
way to it everything stays. -/
theorem createFile_retains (h : ns.WellFormed) (hcwd : ∀ d ∈ cwd, d.index < ns.dirs.size)
    (hcreate : ns.createFile cwd path data access = (.ok id, ns')) :
    ns.Retains ns' ∧ ns.file? id = none ∧ ∀ other, other ≠ id → ns'.file? other = ns.file? other := by
  obtain ⟨site, d, ns₁, ns₂, hsite, hvacant, hadd, hext, halloc, rfl⟩ :=
    createFile_steps h hcwd hcreate
  obtain ⟨hdirs, -⟩ := addDirs_retains hvacant.dir site.missing
  rw [hadd] at hdirs
  have hdead := halloc.dead
  rw [hext.file?] at hdead
  refine ⟨hdirs.trans (halloc.retains.trans (link_retains ns₂ d id)), hdead, fun other hother ↦ ?_⟩
  rw [file?_link, halloc.file?, if_neg hother, hext.file?]

theorem createFile_placed (h : ns.WellFormed)
    (hcreate : ns.createFile none path data access = (.ok id, ns')) :
    ns'.Placed id ⟨path, data, access⟩ := by
  obtain ⟨site, d, ns₁, ns₂, hsite, hvacant, hadd, hext, halloc, rfl⟩ :=
    createFile_steps h (by simp) hcreate
  obtain ⟨-, hpath⟩ := addDirs_retains hvacant.dir site.missing
  rw [hadd] at hpath
  have hlinked := halloc.retains.trans (link_retains ns₂ d id)
  have hlive : (ns₂.link d id).file? id = some _ := (halloc.file? id).trans (if_pos rfl)
  refine ⟨_, hlive, rfl, rfl, rfl, (pathOf_eq_ok hlive).trans ?_⟩
  rw [hlinked.dirPath hext.last, hpath, List.append_assoc, site_names h.dirs hsite,
    Option.getD_none, dirPath_root h.dirs, List.nil_append,
    Path.ofSegments_segments (checkCreatable_of_site hsite)]

end BootNamespace.Namespace
