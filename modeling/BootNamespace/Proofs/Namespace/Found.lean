import BootNamespace.Proofs.Namespace.Reachable

namespace BootNamespace

/-- A creation that puts a directory next to a file and gives it the file's name. -/
def Change.Buries (ns : Namespace) : Change → Prop
  | .create cwd path data _ =>
    data.length < Namespace.allocationLimit ∧ ∃ site name, ns.site cwd path = .ok site ∧
      site.missing.head? = some name ∧ (ns.childFile site.dir name).isSome
  | .delete _ | .openFile _ _ | .closeFile _ | .writeAt _ _ _ | .truncate _ _ => False

namespace Namespace

variable {ns ns' : Namespace} {d p : DirId} {name : String} {names : List String}
variable {id : FileId} {file : FileNode} {change : Change} {changes : List Change}

/-- Every live file is found under its own path. -/
def AllFound (ns : Namespace) : Prop :=
  ∀ id file, ns.file? id = some file →
    ∃ path, ns.pathOf id = .ok path ∧ ns.getFile none path = some id

/-- No directory stands beside a file of its name. -/
def Clear (ns : Namespace) : Prop :=
  ∀ p name id d, ns.HasFile p name id → ¬ns.HasDir p name d

theorem dirPath_of_hasDir (h : ns.DirsSound) (hd : ns.HasDir p name d) :
    ns.dirPath d = ns.dirPath p ++ [name] := by
  have hlt := h.index_lt hd
  obtain ⟨⟨name, parent, dirs, files⟩, hnode, rfl, rfl⟩ := hd
  rw [dirPath]
  simp only [hnode, hlt, if_true]

theorem dirPath_root (h : ns.DirsSound) : ns.dirPath .root = [] := by
  obtain ⟨⟨name, parent, dirs, files⟩, hroot, rfl⟩ := h.root
  rw [dirPath]
  simp only [hroot]

theorem walk_dirPath (h : ns.DirsSound) (hd : d.index < ns.dirs.size) {tail : List Char}
    (ht : Path.Follows tail) :
    ns.walk .root ((Path.ofSegments (ns.dirPath d)).toList ++ tail) = ns.walk d tail := by
  -- A parent is older than its child, so the index goes down on the way to the root.
  induction hn : d.index using Nat.strongRecOn generalizing d tail with
  | ind n ih =>
    by_cases hroot : d = .root
    · rw [hroot, dirPath_root h]
      rfl
    · obtain ⟨node, hnode⟩ := dir?_of_lt hd
      obtain ⟨p, hparent, hlt⟩ := h.parent hnode hroot
      have hchild : ns.HasDir p node.name d := ⟨node, hnode, hparent, rfl⟩
      rw [dirPath_of_hasDir h hchild, Path.toList_ofSegments_concat, List.append_assoc,
        List.cons_append, ih p.index (hn ▸ hlt) (Nat.lt_trans hlt hd) (Path.follows_slash _) rfl]
      exact walk_name (h.valid hchild) ht ((childDir_eq_some_iff h).mpr hchild)

theorem pathOf_eq_ok (hfile : ns.file? id = some file) :
    ns.pathOf id = .ok (Path.ofSegments (ns.dirPath file.owner ++ [file.name])) := by
  rw [pathOf, file_eq_ok hfile]

theorem resolve_pathOf (h : ns.WellFormed) (hfile : ns.file? id = some file) :
    ns.resolve none (Path.ofSegments (ns.dirPath file.owner ++ [file.name])) =
      match ns.childDir file.owner file.name with
      | none => (file.owner, some file.name)
      | some d => (d, none) := by
  have hvalid := h.files.valid ⟨file, hfile, rfl, rfl⟩
  have hwalk := walk_dirPath h.dirs (h.files.owner hfile)
    (Path.follows_slash (file.name.toList ++ []))
  unfold resolve
  rw [Path.toList_ofSegments_concat, Option.getD_none, ← List.append_nil file.name.toList, hwalk]
  cases hchild : ns.childDir file.owner file.name with
  | none =>
    rw [walk_stop hvalid Path.follows_nil hchild, List.append_nil]
    simp
  | some d =>
    rw [walk_name hvalid Path.follows_nil hchild, walk_eq_of_nil rfl]
    rfl

/-- Only a directory of its name keeps a file from being found under its own path. -/
theorem getFile_pathOf (h : ns.WellFormed) (hfile : ns.file? id = some file) :
    ns.getFile none (Path.ofSegments (ns.dirPath file.owner ++ [file.name])) = some id ↔
      ns.childDir file.owner file.name = none := by
  have hvalid := h.files.valid ⟨file, hfile, rfl, rfl⟩
  have hslash := Path.ne_slash_of_validName hvalid
  obtain ⟨last, hlast⟩ : ∃ c, file.name.toList.getLast? = some c :=
    Option.ne_none_iff_exists'.mp
      fun hnone ↦ Path.toList_ne_nil_of_validName hvalid (List.getLast?_eq_none_iff.mp hnone)
  have hend : ¬(Path.ofSegments (ns.dirPath file.owner ++ [file.name]) = "" ∨
      Path.endsWithSlash (Path.ofSegments (ns.dirPath file.owner ++ [file.name]))) := by
    rw [← String.toList_eq_nil_iff, Path.endsWithSlash, Path.toList_ofSegments_concat,
      List.getLast?_append, List.getLast?_cons, hlast]
    have hne := hslash last (List.mem_of_getLast? hlast)
    simp [hne]
  unfold getFile
  rw [if_neg hend, resolve_pathOf h hfile]
  cases hchild : ns.childDir file.owner file.name with
  | none =>
    have hno : file.name.toList.contains '/' = false := by
      simpa using fun hmem ↦ hslash _ hmem rfl
    simp only [hno, Bool.false_eq_true, if_false, iff_true]
    exact (childFile_eq_some_iff h.files).mpr ⟨file, hfile, rfl, rfl⟩
  | some d => simp

theorem allFound_iff_clear (h : ns.WellFormed) : ns.AllFound ↔ ns.Clear := by
  constructor
  · rintro hall p name id d ⟨file, hfile, rfl, rfl⟩ hd
    obtain ⟨path, hpath, hget⟩ := hall id file hfile
    rw [pathOf_eq_ok hfile] at hpath
    cases hpath
    rw [getFile_pathOf h hfile, childDir_eq_none_iff h.dirs] at hget
    exact hget d hd
  · intro hclear id file hfile
    refine ⟨_, pathOf_eq_ok hfile, (getFile_pathOf h hfile).mpr ?_⟩
    rw [childDir_eq_none_iff h.dirs]
    exact fun d ↦ hclear _ _ id d ⟨file, hfile, rfl, rfl⟩

theorem Touched.clear (ht : ns.Touched id ns') (h : ns.Clear) : ns'.Clear := by
  cases ht with
  | same => exact h
  | put hold hname howner haccess =>
    intro p name other d hfile hd
    exact h p name other d ((hasFile_putFile hold hname howner).mp hfile) hd

theorem Clear.deleteFile (h : ns.Clear) (id : FileId) : (ns.deleteFile id).2.Clear := by
  cases hfile : ns.file? id with
  | none =>
    rw [deleteFile_eq_notFound hfile]
    exact h
  | some file =>
    rw [deleteFile_eq hfile]
    split
    · exact h
    · intro p name other d hother hd
      have hkept := (hasFile_withoutFile hfile file.owner).mp hother
      exact h p name other d hkept.2 ((hasDir_congr (links_withoutFile id file.owner)).mp hd)

/-- The first of the new directories is the only one that can stand beside an older file. -/
theorem Extended.clear_iff (h : ns.WellFormed) (hext : ns.Extended p names d ns')
    (hclear : ns.Clear) :
    ns'.Clear ↔ ∀ name ∈ names.head?, ns.childFile p name = none := by
  constructor
  · intro hclear' name hname
    rw [childFile_eq_none_iff h.files]
    intro id hfile
    obtain ⟨e, he⟩ := hext.first name hname
    exact hclear' p name id e (hext.hasFile.mpr hfile) he
  · intro hfirst q name id e hfile he
    have hold := hext.hasFile.mp hfile
    have hq : q.index < ns.dirs.size := by
      obtain ⟨file, hlive, rfl, -⟩ := hold
      exact h.files.owner hlive
    rcases hext.old hq he with he | ⟨rfl, hname⟩
    · exact hclear q name id e hold he
    · exact (childFile_eq_none_iff h.files).mp (hfirst name hname) id hold

theorem Created.clear_iff {site : Site} (h : ns.WellFormed) (hsite : ns.Vacant site)
    (hname : file.name = site.name) (hcreated : ns.Created site file id ns') (hclear : ns.Clear) :
    ns'.Clear ↔ ∀ name ∈ site.missing.head?, ns.childFile site.dir name = none := by
  obtain ⟨ns₁, ns₂, hext, halloc, rfl⟩ := hcreated
  rw [← hext.clear_iff h hclear]
  have hdir {q e : DirId} {other : String} :
      (ns₂.link file.owner id).HasDir q other e ↔ ns₁.HasDir q other e :=
    hasDir_congr (links_link halloc file.owner id)
  constructor
  · intro hclear' q other i e hfile hd
    exact hclear' q other i e ((hasFile_link halloc).mpr (.inr hfile)) (hdir.mpr hd)
  · intro hclear' q other i e hfile hd
    rw [hdir] at hd
    -- The new file is in an empty directory, or at a name that was checked against directories.
    rcases (hasFile_link halloc).mp hfile with ⟨-, rfl, rfl⟩ | hfile
    · exact hsite.no_dir h hext e (hname ▸ hd)
    · exact hclear' q other i e hfile hd

theorem clear_createFile_iff (h : ns.WellFormed) (hclear : ns.Clear) {cwd : Option DirId}
    (hcwd : ∀ d ∈ cwd, d.index < ns.dirCount) (path : String) (data : Bytes) (access : Access) :
    (ns.createFile cwd path data access).2.Clear ↔
      ¬(Change.create cwd path data access).Buries ns := by
  have hburies {site : Site} (hsite : ns.site cwd path = .ok site)
      (hdata : data.length < allocationLimit) :
      (Change.create cwd path data access).Buries ns ↔
        ∃ name ∈ site.missing.head?, (ns.childFile site.dir name).isSome := by
    simp [Change.Buries, hsite, hdata]
  have hfree (site : Site) : (∀ name ∈ site.missing.head?, ns.childFile site.dir name = none) ↔
      ¬∃ name ∈ site.missing.head?, (ns.childFile site.dir name).isSome := by
    simp
  rcases createFile_cases h hcwd path data access with
    ⟨e, heq, hrefused⟩ | ⟨site, d, ns', hsite, hdata, hext, -, heq⟩ |
      ⟨site, d, id, ns', hsite, hdata, hcreated, heq⟩
  · rw [heq]
    refine ⟨fun _ ↦ ?_, fun _ ↦ hclear⟩
    rintro ⟨hdata, site, name, hsite, -⟩
    exact absurd hdata (Nat.not_lt_of_le (hrefused site hsite))
  · rw [heq, hburies hsite hdata, ← hfree]
    exact hext.clear_iff h hclear
  · rw [heq, hburies hsite hdata, ← hfree]
    exact hcreated.clear_iff h (site_vacant h hcwd hsite) rfl hclear

/-- One change hides a file exactly if it is a creation that buries one. -/
theorem clear_perform_iff (h : ns.WellFormed) (hc : change.Grounded ns) (hclear : ns.Clear) :
    (ns.perform change).Clear ↔ ¬change.Buries ns := by
  cases change with
  | create cwd path data access => exact clear_createFile_iff h hclear hc path data access
  | delete id => exact ⟨fun _ h ↦ h, fun _ ↦ hclear.deleteFile id⟩
  | openFile id mode => exact ⟨fun _ h ↦ h, fun _ ↦ (openFile_touched ns id mode).clear hclear⟩
  | closeFile id => exact ⟨fun _ h ↦ h, fun _ ↦ (closeFile_touched ns id).clear hclear⟩
  | writeAt id offset bytes =>
    exact ⟨fun _ h ↦ h, fun _ ↦ (writeAt_touched ns id offset bytes).clear hclear⟩
  | truncate id size => exact ⟨fun _ h ↦ h, fun _ ↦ (truncate_touched ns id size).clear hclear⟩

/-- The namespaces that a run passes through are its first one and those of the rest. -/
theorem forall_prefix_cons {P : Namespace → Prop} (hc : change.Grounded ns) :
    (∀ before after mid, change :: changes = before ++ after → ns.Run before mid → P mid) ↔
      P ns ∧ ∀ before after mid, changes = before ++ after → (ns.perform change).Run before mid →
        P mid := by
  constructor
  · intro hall
    refine ⟨hall [] (change :: changes) ns rfl (.nil ns), fun before after mid hsplit hrun ↦ ?_⟩
    exact hall (change :: before) after mid (by rw [hsplit, List.cons_append]) (.cons hc hrun)
  · rintro ⟨hfirst, hrest⟩ before after mid hsplit hrun
    cases hrun with
    | nil => exact hfirst
    | cons hc' hrun =>
      cases hsplit
      exact hrest _ after mid rfl hrun

/-- The changes of a run are its first one and those of the rest. -/
theorem forall_split_cons {P : Namespace → Change → Prop} (hc : change.Grounded ns) :
    (∀ before other after mid, change :: changes = before ++ other :: after → ns.Run before mid →
        P mid other) ↔
      P ns change ∧ ∀ before other after mid, changes = before ++ other :: after →
        (ns.perform change).Run before mid → P mid other := by
  constructor
  · intro hall
    refine ⟨hall [] change changes ns rfl (.nil ns), fun before other after mid hsplit hrun ↦ ?_⟩
    exact hall (change :: before) other after mid (by rw [hsplit, List.cons_append]) (.cons hc hrun)
  · rintro ⟨hfirst, hrest⟩ before other after mid hsplit hrun
    cases hrun with
    | nil =>
      cases hsplit
      exact hfirst
    | cons hc' hrun =>
      cases hsplit
      exact hrest _ other after mid rfl hrun

theorem Run.clear_iff (h : ns.Run changes ns') (hns : ns.WellFormed) (hclear : ns.Clear) :
    (∀ before after mid, changes = before ++ after → ns.Run before mid → mid.Clear) ↔
      ∀ before change after mid, changes = before ++ change :: after → ns.Run before mid →
        ¬change.Buries mid := by
  induction h with
  | nil ns =>
    constructor
    · intro _ before change after mid hsplit
      simp at hsplit
    · intro _ before after mid hsplit hrun
      rw [(List.append_eq_nil_iff.mp hsplit.symm).1] at hrun
      cases hrun
      exact hclear
  | @cons ns ns' change changes hc h ih =>
    rw [forall_prefix_cons hc, forall_split_cons hc]
    -- Either side says that the namespace after the first change is clear, as the induction needs.
    have hstep := clear_perform_iff hns hc hclear
    constructor
    · rintro ⟨-, hrest⟩
      have hnext := hrest [] changes _ rfl (.nil _)
      exact ⟨hstep.mp hnext, (ih (hns.perform hc) hnext).mp hrest⟩
    · rintro ⟨hfirst, hrest⟩
      have hnext := hstep.mpr hfirst
      exact ⟨hclear, (ih (hns.perform hc) hnext).mpr hrest⟩

theorem Clear.empty (pageSize : Nat) : (Namespace.empty pageSize).Clear := by
  rintro p name id d ⟨file, hfile, -⟩
  simp [file?, Namespace.empty] at hfile

/-- A file is found under its own path unless a directory beside it has its name. No file is lost
along a run exactly if none of its changes buries one. -/
theorem found_iff_never_buried {pageSize : Nat} (h : (Namespace.empty pageSize).Run changes ns) :
    (∀ id file, ns.file? id = some file → ∃ path, ns.pathOf id = .ok path ∧
      (ns.getFile none path = some id ↔ ns.childDir file.owner file.name = none)) ∧
    ((∀ before after mid, changes = before ++ after → (Namespace.empty pageSize).Run before mid →
        mid.AllFound) ↔
      ∀ before change after mid, changes = before ++ change :: after →
        (Namespace.empty pageSize).Run before mid → ¬change.Buries mid) := by
  have hempty := WellFormed.empty pageSize
  have hfound {before : List Change} {mid : Namespace}
      (hrun : (Namespace.empty pageSize).Run before mid) : mid.AllFound ↔ mid.Clear :=
    allFound_iff_clear (hrun.wellFormed hempty)
  constructor
  · intro id file hfile
    exact ⟨_, pathOf_eq_ok hfile, getFile_pathOf (h.wellFormed hempty) hfile⟩
  · rw [← h.clear_iff hempty (.empty pageSize)]
    constructor
    · intro hall before after mid hsplit hrun
      exact (hfound hrun).mp (hall before after mid hsplit hrun)
    · intro hall before after mid hsplit hrun
      exact (hfound hrun).mpr (hall before after mid hsplit hrun)

/-- A file of the root, and then one below its name. -/
def burial : List Change :=
  [.create none "/sys" [] .readOnly, .create none "/sys/x" [] .created]

theorem burial_run (pageSize : Nat) : (Namespace.empty pageSize).Run burial
    (burial.foldl perform (Namespace.empty pageSize)) :=
  .cons (by simp [Change.Grounded]) (.cons (by simp [Change.Grounded]) (.nil _))

theorem later_file_found_after_burial : ∃ ns, (Namespace.empty 4096).Run burial ns ∧
    ∃ path, ns.pathOf ⟨1, 0⟩ = .ok path ∧ ns.getFile none path = some ⟨1, 0⟩ := by
  refine ⟨_, burial_run 4096, ?_⟩
  obtain ⟨path, hpath, hfound⟩ := (found_iff_never_buried (burial_run 4096)).1 ⟨1, 0⟩
    ⟨"x", ⟨1⟩, .empty, .created, 0, 0⟩ (by decide +kernel)
  exact ⟨path, hpath, hfound.mpr (by decide +kernel)⟩

theorem earlier_file_lost_by_burial : ∃ ns, (Namespace.empty 4096).Run burial ns ∧
    ns.file? ⟨0, 0⟩ = some ⟨"sys", .root, .empty, .readOnly, 0, 0⟩ ∧
    ns.pathOf ⟨0, 0⟩ = .ok "/sys" ∧ ns.getFile none "/sys" = none := by
  have hlive : (burial.foldl perform (Namespace.empty 4096)).file? ⟨0, 0⟩ =
      some ⟨"sys", .root, .empty, .readOnly, 0, 0⟩ := by decide +kernel
  refine ⟨_, burial_run 4096, hlive, (pathOf_eq_ok hlive).trans (congrArg _ ?_), ?_⟩
  · decide +kernel
  · decide +kernel

end Namespace

end BootNamespace
