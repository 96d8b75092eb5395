import Mathlib.Data.List.Induction
import Mathlib.Tactic.MkIffOfInductiveProp
import BootNamespace.Proofs.Namespace.Addition

namespace BootNamespace.Namespace

variable {ns ns' : Namespace} {d e p : DirId} {id : FileId} {file : FileNode}
variable {name path : String} {base names more target : List String} {cwd : Option DirId}
variable {data : Bytes} {access : Access}

/-- The names lead from the root to the directory. -/
structure LeadsTo (ns : Namespace) (names : List String) (d : DirId) : Prop where
  lt : d.index < ns.dirs.size
  dirPath : ns.dirPath d = names

theorem leadsTo_nil_iff (h : ns.DirsSound) : ns.LeadsTo [] d ↔ d = .root := by
  constructor
  · rintro ⟨hlt, hpath⟩
    by_contra hne
    obtain ⟨node, hnode⟩ := dir?_of_lt hlt
    obtain ⟨p, hparent, -⟩ := h.parent hnode hne
    rw [dirPath_of_hasDir h ⟨node, hnode, hparent, rfl⟩] at hpath
    simp at hpath
  · rintro rfl
    obtain ⟨node, hnode, -⟩ := h.root
    exact ⟨lt_of_dir? hnode, dirPath_root h⟩

theorem leadsTo_concat_iff (h : ns.DirsSound) :
    ns.LeadsTo (names ++ [name]) d ↔ ∃ p, ns.LeadsTo names p ∧ ns.HasDir p name d := by
  constructor
  · rintro ⟨hlt, hpath⟩
    have hne : d ≠ .root := by
      rintro rfl
      rw [dirPath_root h] at hpath
      simp at hpath
    obtain ⟨node, hnode⟩ := dir?_of_lt hlt
    obtain ⟨p, hparent, hp⟩ := h.parent hnode hne
    have hchild : ns.HasDir p node.name d := ⟨node, hnode, hparent, rfl⟩
    rw [dirPath_of_hasDir h hchild] at hpath
    obtain ⟨hnames, hname⟩ := List.append_inj' hpath rfl
    cases hname
    exact ⟨p, ⟨Nat.lt_trans hp hlt, hnames⟩, hchild⟩
  · rintro ⟨p, ⟨-, hnames⟩, hchild⟩
    obtain ⟨node, hnode⟩ := hchild.exists_dir?
    exact ⟨lt_of_dir? hnode, by rw [dirPath_of_hasDir h hchild, hnames]⟩

/-- Directories are told apart by the names that lead to them. -/
theorem LeadsTo.unique (h : ns.DirsSound) (hd : ns.LeadsTo names d) (he : ns.LeadsTo names e) :
    d = e := by
  induction names using List.reverseRecOn generalizing d e with
  | nil => rw [(leadsTo_nil_iff h).mp hd, (leadsTo_nil_iff h).mp he]
  | append_singleton names name ih =>
    obtain ⟨p, hp, hd⟩ := (leadsTo_concat_iff h).mp hd
    obtain ⟨q, hq, he⟩ := (leadsTo_concat_iff h).mp he
    rw [ih hq hp] at he
    exact h.name_inj hd he

theorem validName_of_leadsTo (h : ns.DirsSound) (hd : ns.LeadsTo names d) :
    ∀ name ∈ names, Path.validName name := by
  induction names using List.reverseRecOn generalizing d with
  | nil => simp
  | append_singleton names name ih =>
    obtain ⟨p, hp, hchild⟩ := (leadsTo_concat_iff h).mp hd
    rw [List.forall_mem_append, List.forall_mem_singleton]
    exact ⟨ih hp, h.valid hchild⟩

theorem LeadsTo.of_append (h : ns.DirsSound) (hd : ns.LeadsTo (names ++ more) d) :
    ∃ e, ns.LeadsTo names e := by
  induction more using List.reverseRecOn generalizing d with
  | nil => exact ⟨d, by rwa [List.append_nil] at hd⟩
  | append_singleton more name ih =>
    rw [← List.append_assoc] at hd
    obtain ⟨p, hp, -⟩ := (leadsTo_concat_iff h).mp hd
    exact ih hp

/-- In front of what is left of a path no directory has the next name. -/
theorem LeadsTo.no_child (h : ns.DirsSound) (hd : ns.LeadsTo names d)
    (hchild : ns.childDir d name = none) (e : DirId) : ¬ns.LeadsTo (names ++ name :: more) e := by
  intro he
  rw [← List.singleton_append, ← List.append_assoc] at he
  obtain ⟨f, hf⟩ := he.of_append h
  obtain ⟨p, hp, hf⟩ := (leadsTo_concat_iff h).mp hf
  rw [hp.unique h hd] at hf
  exact (childDir_eq_none_iff h).mp hchild f hf

theorem walk_rest_head {cs rest : List Char} (hwalk : ns.walk d cs = (e, some rest)) :
    ∃ c tail, rest = c :: tail ∧ c ≠ '/' ∧ rest <:+ cs := by
  induction d, cs using walk.induct ns with
  | case1 d cs hnil =>
    rw [walk_eq_of_nil hnil] at hwalk
    cases hwalk
  | case2 d cs c tail hcons child hchild ih =>
    rw [walk_eq_of_child hcons hchild] at hwalk
    obtain ⟨first, rest, hrest, hfirst, hsuffix⟩ := ih hwalk
    have hdrop := List.dropWhile_suffix (l := cs) (· = '/')
    rw [← Path.dropSlashes, hcons] at hdrop
    have htail := (List.dropWhile_suffix (l := tail) (· ≠ '/')).trans (List.suffix_cons c tail)
    exact ⟨first, rest, hrest, hfirst, (hsuffix.trans htail).trans hdrop⟩
  | case3 d cs c tail hcons hchild =>
    rw [walk_eq_of_no_child hcons hchild] at hwalk
    cases hwalk
    have hsuffix := List.dropWhile_suffix (l := cs) (· = '/')
    rw [← Path.dropSlashes, hcons] at hsuffix
    exact ⟨c, tail, rfl, Path.ne_slash_of_dropSlashes hcons, hsuffix⟩

theorem leadsTo_root (h : ns.DirsSound) : ns.LeadsTo [] .root := (leadsTo_nil_iff h).mpr rfl

theorem leadsTo_start (h : ns.WellFormed) (hcwd : ∀ d ∈ cwd, d.index < ns.dirs.size) :
    ns.LeadsTo (ns.dirPath (cwd.getD .root)) (cwd.getD .root) := ⟨start_lt h hcwd, rfl⟩

/-- Where a walk along a path ends that starts where the names `base` lead: in the directory that the
path's names lead to from there, or in front of a name that no directory has. -/
inductive Ends (ns : Namespace) (base : List String) (path : String) :
    DirId × Option (List Char) → Prop
  | dir {d : DirId} (hd : ns.LeadsTo (base ++ Path.segments path) d) : Ends ns base path (d, none)
  | rest {d : DirId} {names : List String} {c : Char} {cs : List Char} (hd : ns.LeadsTo names d)
      (hnames : names ++ Path.names (c :: cs) = base ++ Path.segments path) (hc : c ≠ '/')
      (hchild : ns.childDir d (String.ofList ((c :: cs).takeWhile (· ≠ '/'))) = none)
      (hsuffix : c :: cs <:+ path.toList) : Ends ns base path (d, some (c :: cs))

theorem walk_ends (h : ns.DirsSound) (hstart : ns.LeadsTo base d) (path : String) :
    ns.Ends base path (ns.walk d path.toList) := by
  have hlt := walk_lt h hstart.lt path.toList
  rcases hwalk : ns.walk d path.toList with ⟨e, rest⟩
  have hnames := walk_names h hwalk
  rw [hwalk] at hlt
  rw [hstart.dirPath] at hnames
  cases rest with
  | none =>
    rw [Option.getD_none, Path.names_nil, List.append_nil] at hnames
    exact .dir ⟨hlt, hnames⟩
  | some rest =>
    obtain ⟨c, cs, rfl, hc, hsuffix⟩ := walk_rest_head hwalk
    exact .rest ⟨hlt, rfl⟩ hnames hc (walk_rest hwalk) hsuffix

/-- A path names the one directory that its names lead to. -/
theorem lookupDir_eq_ok_iff (h : ns.DirsSound) :
    ns.lookupDir none path = .ok d ↔ ns.LeadsTo (Path.segments path) d := by
  have hends := walk_ends h (leadsTo_root h) path
  unfold lookupDir resolve
  rw [Option.getD_none]
  rw [← List.nil_append (Path.segments path)]
  generalize ns.walk .root path.toList = walked at hends
  cases hends with
  | dir he =>
    simp only [Option.map_none, Except.ok.injEq]
    constructor
    · rintro rfl
      exact he
    · exact he.unique h
  | rest he hnames hc hchild =>
    rw [Path.names_name hc] at hnames
    simp only [Option.map_some, reduceCtorEq, false_iff]
    rw [← hnames]
    exact he.no_child h hchild d

/-- The names lead to a file: the last of them is the file's, and no directory beside the file has
it too. -/
@[mk_iff]
inductive NamesFile (ns : Namespace) (target : List String) (id : FileId) : Prop
  | intro {names : List String} {name : String} {d : DirId} (hnames : names ++ [name] = target)
      (hd : ns.LeadsTo names d) (hfile : ns.HasFile d name id) (hchild : ns.childDir d name = none)

theorem not_namesFile_of_dir (h : ns.DirsSound) (hd : ns.LeadsTo target d) :
    ¬ns.NamesFile target id := by
  rintro ⟨rfl, hp, -, hchild⟩
  exact hp.no_child h hchild _ hd

/-- With a name left behind one that no directory has, the file's directory is missing. -/
theorem not_namesFile_of_more (h : ns.DirsSound) (hd : ns.LeadsTo names d)
    (hchild : ns.childDir d name = none) (hmore : more ≠ []) :
    ¬ns.NamesFile (names ++ name :: more) id := by
  rintro ⟨hnames, hp, -⟩
  rw [← List.dropLast_concat_getLast hmore, ← List.cons_append, ← List.append_assoc] at hnames
  rw [(List.append_inj' hnames rfl).1] at hp
  exact hd.no_child h hchild _ hp

theorem namesFile_concat_iff (h : ns.WellFormed) (hd : ns.LeadsTo names d)
    (hchild : ns.childDir d name = none) :
    ns.NamesFile (names ++ [name]) id ↔ ns.childFile d name = some id := by
  rw [childFile_eq_some_iff h.files]
  constructor
  · rintro ⟨hnames, hp, hfile, -⟩
    obtain ⟨rfl, hname⟩ := List.append_inj' hnames rfl
    cases hname
    rwa [hd.unique h.dirs hp]
  · exact fun hfile ↦ .intro rfl hd hfile hchild

/-- A path that does not end in a slash names the file that its names lead to from the directory that
it is looked up in. -/
theorem getFile_from_eq_some_iff (h : ns.WellFormed) (hstart : ns.LeadsTo base (cwd.getD .root)) :
    ns.getFile cwd path = some id ↔
      ¬Path.endsWithSlash path ∧ ns.NamesFile (base ++ Path.segments path) id := by
  unfold getFile resolve
  by_cases hempty : path = ""
  · subst hempty
    rw [if_pos (.inl rfl)]
    have hempty : Path.segments "" = [] := by decide
    rw [hempty, List.append_nil]
    simp only [reduceCtorEq, false_iff]
    exact fun hnames ↦ not_namesFile_of_dir h.dirs hstart hnames.2
  by_cases hslash : Path.endsWithSlash path
  · rw [if_pos (.inr hslash)]
    simp [hslash]
  rw [if_neg (not_or.mpr ⟨hempty, hslash⟩), iff_true_intro hslash, true_and]
  have hends := walk_ends h.dirs hstart path
  generalize ns.walk (cwd.getD .root) path.toList = walked at hends
  cases hends with
  | dir he => simpa using not_namesFile_of_dir h.dirs he
  | @rest e front c cs he hnames hc hchild hsuffix =>
    have hlast : (c :: cs).getLast? ≠ some '/' := by
      obtain ⟨before, hpath⟩ := hsuffix
      intro heq
      rw [Path.endsWithSlash, ← hpath, List.getLast?_append, heq] at hslash
      exact hslash rfl
    have hsplit := Path.names_name hc cs
    rw [← hnames]
    simp only [Option.map_some, String.toList_ofList]
    split
    next hinner =>
      have hmore : Path.names (cs.dropWhile (· ≠ '/')) ≠ [] := by
        intro hnil
        rw [hnil, Path.names_eq_singleton_iff hc hlast] at hsplit
        exact hsplit.1 (by simpa using hinner)
      rw [hsplit]
      simpa using not_namesFile_of_more h.dirs he hchild hmore
    next hinner =>
      have hsingle := (Path.names_eq_singleton_iff hc hlast).mpr ⟨by simpa using hinner, rfl⟩
      rw [← (List.cons_eq_cons.mp (hsingle.symm.trans hsplit)).1] at hchild
      rw [hsingle]
      exact (namesFile_concat_iff h he hchild).symm

/-- A path that does not end in a slash names the file that its names lead to. -/
theorem getFile_eq_some_iff (h : ns.WellFormed) : ns.getFile none path = some id ↔
    ¬Path.endsWithSlash path ∧ ns.NamesFile (Path.segments path) id := by
  have hroot : ns.LeadsTo [] ((none : Option DirId).getD .root) := leadsTo_root h.dirs
  rw [getFile_from_eq_some_iff h hroot, List.nil_append]

theorem KeepsDirs.leadsTo (h : ns.KeepsDirs ns') (hd : ns.LeadsTo names d) :
    ns'.LeadsTo names d := by
  obtain ⟨node, hnode⟩ := dir?_of_lt hd.lt
  obtain ⟨node', hnode', -⟩ := h d node hnode
  exact ⟨lt_of_dir? hnode', (h.dirPath hd.lt).trans hd.dirPath⟩

theorem Retains.leadsTo (h : ns.Retains ns') (hd : ns.LeadsTo names d) : ns'.LeadsTo names d :=
  h.keepsDirs.leadsTo hd

/-- Names that lead to a directory that was there have led there before. -/
theorem Retains.leadsTo_of_lt (h : ns.Retains ns') (hlt : d.index < ns.dirs.size)
    (hd : ns'.LeadsTo names d) : ns.LeadsTo names d :=
  ⟨hlt, (h.dirPath hlt).symm.trans hd.dirPath⟩

theorem leadsTo_congr
    (hlinks : ∀ d, (ns'.dir? d).map DirNode.links = (ns.dir? d).map DirNode.links) :
    ns'.LeadsTo names d ↔ ns.LeadsTo names d :=
  ⟨(KeepsDirs.of_links fun d ↦ (hlinks d).symm).leadsTo, (KeepsDirs.of_links hlinks).leadsTo⟩

/-- The names to a new directory go on to the end of the chain that it is part of. -/
theorem leadsTo_of_addDirs (hp : ns.LeadsTo names p)
    (hd : (ns.addDirs p more).2.LeadsTo target d) :
    (∃ e, ns.LeadsTo target e) ∨ target <+: names ++ more := by
  induction more generalizing ns p names with
  | nil => exact .inl ⟨d, hd⟩
  | cons name more ih =>
    have hretains := addDir_retains hp.lt name
    have hsize : (ns.addDir p name).2.dirs.size = ns.dirs.size + 1 := size_dirs_addDir name
    have hnew : (ns.addDir p name).2.LeadsTo (names ++ [name]) ⟨ns.dirs.size⟩ :=
      ⟨hsize ▸ Nat.lt_succ_self _, by rw [dirPath_addDir hp.lt, hp.dirPath]⟩
    have hsplit : names ++ name :: more = names ++ [name] ++ more := by simp
    rw [hsplit]
    rcases ih hnew hd with ⟨e, he⟩ | hprefix
    · by_cases hlt : e.index < ns.dirs.size
      · exact .inl ⟨e, hretains.leadsTo_of_lt hlt he⟩
      · have hbound := he.lt
        obtain rfl : e = ⟨ns.dirs.size⟩ := index_inj.mp (show e.index = ns.dirs.size by omega)
        rw [← he.dirPath, hnew.dirPath]
        exact .inr (List.prefix_append _ _)
    · exact .inr hprefix

theorem leadsTo_link_of_allocated {ns₁ : Namespace} (halloc : ns₁.Allocated file id ns') :
    (ns'.link p id).LeadsTo target d ↔ ns₁.LeadsTo target d := by
  have hretains := halloc.retains.trans (link_retains ns' p id)
  have hsize : (ns'.link p id).dirs.size = ns₁.dirs.size := by
    rw [link, Array.size_modify, halloc.dirs]
  exact ⟨fun hd ↦ hretains.leadsTo_of_lt (hsize ▸ hd.lt) hd, hretains.leadsTo⟩

/-- After a creation names lead to a directory if they did before, or if they are on the way to the
new file. -/
theorem exists_leadsTo_createFile (h : ns.WellFormed)
    (hcreate : ns.createFile none path data access = (.ok id, ns')) :
    (∃ d, ns'.LeadsTo target d) ↔
      (∃ d, ns.LeadsTo target d) ∨ target <+: (Path.segments path).dropLast := by
  obtain ⟨site, d, ns₁, ns₂, hsite, hvacant, hadd, hext, halloc, rfl⟩ :=
    createFile_steps h (by simp) hcreate
  obtain ⟨hdirs, hpath⟩ := addDirs_retains hvacant.dir site.missing
  have hdir : ns.LeadsTo (ns.dirPath site.dir) site.dir := ⟨hvacant.dir, rfl⟩
  rw [hadd] at hdirs hpath
  have hnames := site_names h.dirs hsite
  rw [Option.getD_none, dirPath_root h.dirs, List.nil_append] at hnames
  rw [← hnames, ← List.append_assoc, List.dropLast_concat]
  simp only [leadsTo_link_of_allocated halloc]
  constructor
  · rintro ⟨e, he⟩
    exact leadsTo_of_addDirs hdir (by rwa [hadd])
  · rintro (⟨e, he⟩ | ⟨more, hmore⟩)
    · exact ⟨e, hdirs.leadsTo he⟩
    · have hlast : ns₁.LeadsTo (ns.dirPath site.dir ++ site.missing) d := ⟨hext.last, hpath⟩
      rw [← hmore] at hlast
      exact hlast.of_append hext.dirs

/-- A file is found under the path that it has just been created with, from the directory that the
path was followed from. -/
theorem getFile_createFile (h : ns.WellFormed) (hcwd : ∀ d ∈ cwd, d.index < ns.dirs.size)
    (hcreate : ns.createFile cwd path data access = (.ok id, ns')) :
    ns'.getFile cwd path = some id := by
  have hns' := h.createFile hcwd path data access
  have hstart := leadsTo_start h hcwd
  obtain ⟨site, d, ns₁, ns₂, hsite, hvacant, hadd, hext, halloc, rfl⟩ :=
    createFile_steps h hcwd hcreate
  obtain ⟨hdirs, hpath⟩ := addDirs_retains hvacant.dir site.missing
  rw [hcreate] at hns'
  rw [hadd] at hdirs hpath
  have hnames := site_names h.dirs hsite
  rw [← List.append_assoc] at hnames
  have hdir : (ns₂.link d id).LeadsTo (ns.dirPath site.dir ++ site.missing) d :=
    (leadsTo_link_of_allocated halloc).mpr ⟨hext.last, hpath⟩
  have hfile : (ns₂.link d id).HasFile d site.name id :=
    (hasFile_link halloc).mpr (.inl ⟨rfl, rfl, rfl⟩)
  have hbase := (hdirs.trans (halloc.retains.trans (link_retains ns₂ d id))).leadsTo hstart
  refine (getFile_from_eq_some_iff hns' hbase).mpr ⟨?_, .intro hnames hdir hfile ?_⟩
  · have hcheck := checkCreatable_of_site hsite
    intro hslash
    rw [Path.checkCreatable, if_pos hslash] at hcheck
    split at hcheck <;> cases hcheck
  · rw [childDir_eq_none_iff hns'.dirs]
    intro e he
    rw [hasDir_congr (links_link halloc d id)] at he
    exact hvacant.no_dir h hext e he

end BootNamespace.Namespace
