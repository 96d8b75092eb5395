import BootNamespace.Proofs.Namespace.Naming

namespace BootNamespace.Namespace

variable {ns ns' : Namespace} {d : DirId} {id other : FileId} {file : FileNode} {change : Change}
variable {path : String} {names : List String} {cwd : Option DirId}

/-- The names on the way to a live file are those of the path. A directory may have taken the file's
place for those who look it up. -/
structure StandsAt (ns : Namespace) (path : String) (id : FileId) (file : FileNode) : Prop where
  live : ns.file? id = some file
  names : ns.dirPath file.owner ++ [file.name] = Path.segments path

theorem StandsAt.retained (h : ns.StandsAt path id file) (hns : ns.FilesSound)
    (hretains : ns.Retains ns') : ns'.StandsAt path id file := by
  refine ⟨hretains.file h.live, ?_⟩
  rw [hretains.dirPath (hns.owner h.live), h.names]

theorem StandsAt.of_getFile (h : ns.WellFormed) (hget : ns.getFile none path = some id) :
    ∃ file, ns.StandsAt path id file := by
  obtain ⟨-, hnames, hd, ⟨file, hlive, rfl, rfl⟩, -⟩ := (getFile_eq_some_iff h).mp hget
  exact ⟨file, hlive, by rw [hd.dirPath, hnames]⟩

/-- No two files stand at one path. -/
theorem StandsAt.unique {file' : FileNode} (h : ns.WellFormed) (hfile : ns.StandsAt path id file)
    (hother : ns.StandsAt path other file') : id = other := by
  obtain ⟨hdir, hname⟩ := List.append_inj' (hfile.names.trans hother.names.symm) rfl
  have howner : file.owner = file'.owner :=
    LeadsTo.unique h.dirs ⟨h.files.owner hfile.live, hdir⟩ ⟨h.files.owner hother.live, rfl⟩
  exact h.files.name_inj ⟨file, hfile.live, rfl, rfl⟩
    ⟨file', hother.live, howner.symm, (List.cons.inj hname).1.symm⟩

theorem validName_of_owner (h : ns.WellFormed) (hfile : ns.file? id = some file) :
    ∀ name ∈ ns.dirPath file.owner ++ [file.name], Path.validName name := by
  rw [List.forall_mem_append, List.forall_mem_singleton]
  exact ⟨validName_of_leadsTo h.dirs ⟨h.files.owner hfile, rfl⟩,
    h.files.valid ⟨file, hfile, rfl, rfl⟩⟩

/-- A path that a file stands at holds no NUL, because its names hold none. -/
theorem StandsAt.noNul (h : ns.WellFormed) (hfile : ns.StandsAt path id file) :
    '\x00' ∉ path.toList := by
  have hvalid := validName_of_owner h hfile.live
  rw [hfile.names] at hvalid
  intro hnul
  have hmem : '\x00' ∈ path.toList.filter (· ≠ '/') := List.mem_filter.mpr ⟨hnul, by decide⟩
  rw [← Path.flatMap_toList_names] at hmem
  obtain ⟨name, hmem, hin⟩ := List.mem_flatMap.mp hmem
  exact (Path.validName_iff.mp (hvalid name hmem)).2.2.2 hin

/-- The way up from a directory to one without a parent, with the names of the others from the top
down. -/
inductive Ascends (ns : Namespace) : DirId → List String → Prop
  | top {d : DirId} {node : DirNode} (hd : ns.dir? d = some node) (hparent : node.parent = none) :
      Ascends ns d []
  | up {d p : DirId} {node : DirNode} {names : List String} (hd : ns.dir? d = some node)
      (hparent : node.parent = some p) (hup : Ascends ns p names) :
      Ascends ns d (names ++ [node.name])

theorem Ascends.unique {names' : List String} (h : ns.Ascends d names) (k : ns.Ascends d names') :
    names = names' := by
  induction h generalizing names' with
  | top hd hnone =>
    cases k with
    | top => rfl
    | up hd' hparent =>
      cases hd.symm.trans hd'
      cases hnone.symm.trans hparent
  | up hd hparent hup ih =>
    cases k with
    | top hd' hnone =>
      cases hd.symm.trans hd'
      cases hparent.symm.trans hnone
    | up hd' hparent' hup' =>
      cases hd.symm.trans hd'
      cases hparent.symm.trans hparent'
      rw [ih hup']

/-- From every directory the way up comes to an end. -/
theorem ascends_dirPath (h : ns.DirsSound) (hd : d.index < ns.dirs.size) :
    ns.Ascends d (ns.dirPath d) := by
  -- A parent has a smaller number than its children.
  induction hn : d.index using Nat.strongRecOn generalizing d with
  | ind n ih =>
    by_cases hroot : d = .root
    · obtain ⟨node, hnode, hnone⟩ := h.root
      rw [hroot, dirPath_root h]
      exact .top hnode hnone
    · obtain ⟨node, hnode⟩ := dir?_of_lt hd
      obtain ⟨p, hparent, hlt⟩ := h.parent hnode hroot
      rw [dirPath_of_hasDir h ⟨node, hnode, hparent, rfl⟩]
      exact .up hnode hparent (ih p.index (hn ▸ hlt) (Nat.lt_trans hlt hd) rfl)

theorem StandsAt.of_pathOf (h : ns.WellFormed) (hpath : ns.pathOf id = .ok path) :
    ∃ file, ns.StandsAt path id file := by
  cases hfile : ns.file? id with
  | none =>
    rw [pathOf, file_eq_error hfile] at hpath
    cases hpath
  | some file =>
    rw [pathOf_eq_ok hfile] at hpath
    cases hpath
    exact ⟨file, hfile, (Path.segments_ofSegments (validName_of_owner h hfile)).symm⟩

theorem StandsAt.pathOf_eq (h : ns.StandsAt path id file) :
    ns.pathOf id = .ok (Path.absolute (Path.segments path)) := by
  rw [pathOf_eq_ok h.live, h.names, Path.ofSegments_eq_absolute]
  rw [← h.names]
  exact List.append_ne_nil_of_right_ne_nil _ (List.cons_ne_nil _ _)

theorem createFile_keepsDirs (h : ns.WellFormed) (hcwd : ∀ d ∈ cwd, d.index < ns.dirs.size)
    (path : String) (data : Bytes) (access : Access) :
    ns.KeepsDirs (ns.createFile cwd path data access).2 := by
  have hends := ns.createFile_ends cwd path data access
  generalize ns.createFile cwd path data access = ended at hends ⊢
  have hadd {site : Site} {d : DirId} {mid : Namespace} (hsite : ns.site cwd path = .ok site)
      (hdirs : ns.addDirs site.dir site.missing = (d, mid)) : ns.KeepsDirs mid := by
    have hretains := (addDirs_retains (site_vacant h hcwd hsite).dir site.missing).1
    rw [hdirs] at hretains
    exact hretains.keepsDirs
  cases hends with
  | refused => exact .of_dirs rfl
  | tooLong => exact .of_dirs rfl
  | full hsite _ hdirs halloc =>
    have hsame := congrArg dirs (allocate_frame halloc)
    exact (hadd hsite hdirs).trans (.of_dirs hsame)
  | done hsite _ hdirs halloc =>
    have hsame := congrArg dirs (allocate_frame halloc)
    exact ((hadd hsite hdirs).trans (.of_dirs hsame)).trans (link_retains _ _ _).keepsDirs

theorem deleteFile_keepsDirs (ns : Namespace) (id : FileId) :
    ns.KeepsDirs (ns.deleteFile id).2 := by
  rcases deleteFile_cases ns id with ⟨-, heq⟩ | ⟨file, -, -, heq⟩ | ⟨file, -, -, heq⟩
  · exact heq ▸ .of_dirs rfl
  · exact heq ▸ .of_dirs rfl
  · exact heq ▸ .of_links (links_withoutFile id file.owner)

theorem Touched.keepsDirs (h : ns.Touched id ns') : ns.KeepsDirs ns' := by
  cases h with
  | same => exact .of_dirs rfl
  | put => exact .of_dirs rfl

theorem perform_keepsDirs (h : ns.WellFormed) (hc : change.Grounded ns) :
    ns.KeepsDirs (ns.perform change) := by
  cases change with
  | create cwd path data access => exact createFile_keepsDirs h hc path data access
  | delete id => exact ns.deleteFile_keepsDirs id
  | openFile id mode => exact (openFile_touched ns id mode).keepsDirs
  | closeFile id => exact (closeFile_touched ns id).keepsDirs
  | writeAt id offset bytes => exact (writeAt_touched ns id offset bytes).keepsDirs
  | truncate id size => exact (truncate_touched ns id size).keepsDirs

/-- Whatever is done later, a directory stays under its name and where it is. -/
theorem Reaches.keepsDirs (h : ns.Reaches ns') (hns : ns.WellFormed) : ns.KeepsDirs ns' := by
  obtain ⟨changes, h⟩ := h
  induction h with
  | nil ns => exact .of_dirs rfl
  | cons hc h ih => exact (perform_keepsDirs hns hc).trans (ih (hns.perform hc))

/-- A directory is found by the names that lead to it, now and later. -/
theorem LeadsTo.lookupDir (h : ns.WellFormed) (hd : ns.LeadsTo names d) (hlater : ns.Reaches ns') :
    ns'.lookupDir none (Path.absolute names) = .ok d := by
  rw [lookupDir_eq_ok_iff (hlater.wellFormed h).dirs,
    Path.segments_absolute (validName_of_leadsTo h.dirs hd)]
  exact (hlater.keepsDirs h).leadsTo hd

/-- The way up from a live file ends at the root and gives its path, which no other live file has.
What a path is found to name has the path's own names. A directory is found by the names on its way
up, whatever is done in the meantime. -/
theorem paths_name_nodes (h : ns.Reachable) :
    (∀ id file, ns.file? id = some file → ∃ names, ns.Ascends file.owner names ∧
      ns.pathOf id = .ok (Path.absolute (names ++ [file.name]))) ∧
    (∀ id other path, ns.pathOf id = .ok path → ns.pathOf other = .ok path → id = other) ∧
    (∀ path id, ns.getFile none path = some id → (∃ file, ns.file? id = some file) ∧
      ns.pathOf id = .ok (Path.absolute (Path.segments path))) ∧
    ∀ d node, ns.dir? d = some node → ∃ names, ns.Ascends d names ∧
      ∀ ns', ns.Reaches ns' → ns'.lookupDir none (Path.absolute names) = .ok d := by
  have hns := h.wellFormed
  refine ⟨fun id file hfile ↦ ?_, fun id other path hpath hother ↦ ?_, fun path id hget ↦ ?_,
    fun d node hd ↦ ?_⟩
  · refine ⟨_, ascends_dirPath hns.dirs (hns.files.owner hfile), ?_⟩
    rw [pathOf_eq_ok hfile, Path.ofSegments_eq_absolute]
    exact List.append_ne_nil_of_right_ne_nil _ (List.cons_ne_nil _ _)
  · obtain ⟨file, hfile⟩ := StandsAt.of_pathOf hns hpath
    obtain ⟨file', hfile'⟩ := StandsAt.of_pathOf hns hother
    exact hfile.unique hns hfile'
  · obtain ⟨file, hfile⟩ := StandsAt.of_getFile hns hget
    exact ⟨⟨file, hfile.live⟩, hfile.pathOf_eq⟩
  · have hlt := lt_of_dir? hd
    refine ⟨_, ascends_dirPath hns.dirs hlt, fun ns' hlater ↦ ?_⟩
    exact LeadsTo.lookupDir hns ⟨hlt, rfl⟩ hlater

/-- A directory that has taken a file's name is still told from it, and the file below it found. -/
theorem nodes_named_after_burial : ∃ ns : Namespace, ns.Reachable ∧
    ns.getFile none "sys//x" = some ⟨1, 0⟩ ∧ ns.pathOf ⟨1, 0⟩ = .ok "/sys/x" ∧
    (∀ other, ns.pathOf other = .ok "/sys/x" → other = ⟨1, 0⟩) ∧
    ∀ ns', ns.Reaches ns' → ns'.lookupDir none "/sys" = .ok ⟨1⟩ := by
  have hreach : (burial.foldl perform (empty 4096)).Reachable := ⟨4096, burial, burial_run 4096⟩
  obtain ⟨-, hunique, hfound, hdirs⟩ := paths_name_nodes hreach
  have hget : (burial.foldl perform (empty 4096)).getFile none "sys//x" = some ⟨1, 0⟩ := by
    decide +kernel
  have hroot : (burial.foldl perform (empty 4096)).dir? .root =
      some ⟨"", none, [⟨1⟩], [⟨0, 0⟩]⟩ := by decide +kernel
  have hsys : (burial.foldl perform (empty 4096)).dir? ⟨1⟩ =
      some ⟨"sys", some .root, [], [⟨1, 0⟩]⟩ := by decide +kernel
  have hname : Path.absolute (Path.segments "sys//x") = "/sys/x" := by decide +kernel
  have hpath := (hfound "sys//x" ⟨1, 0⟩ hget).2
  rw [hname] at hpath
  obtain ⟨names, hup, hlookup⟩ := hdirs ⟨1⟩ _ hsys
  rw [hup.unique (.up hsys rfl (.top hroot rfl))] at hlookup
  refine ⟨_, hreach, hget, hpath, fun other hother ↦ ?_, hlookup⟩
  exact hunique other ⟨1, 0⟩ "/sys/x" hother hpath

end BootNamespace.Namespace
