import BootNamespace.Proofs.Namespace.Reachable

namespace BootNamespace.Path

variable {path cs : List Char} {c : Char}

/-- Cutting down the slashes of a path changes nothing about its first name. -/
theorem first_name_collapse (h : dropSlashes path = c :: cs) :
    dropSlashes (collapse path) = c :: collapse cs ∧
      (c :: collapse cs).takeWhile (· ≠ '/') = (c :: cs).takeWhile (· ≠ '/') := by
  have hcons := collapse_cons (ne_slash_of_dropSlashes h) cs
  exact ⟨by rw [dropSlashes_collapse, h, hcons], by rw [← hcons, takeWhile_collapse]⟩

end BootNamespace.Path

namespace BootNamespace.Namespace

variable {ns : Namespace} {cwd : Option DirId} {path : String}

/-- Slashes in a row lead no other way than a single one. -/
theorem walk_collapse (ns : Namespace) (d : DirId) (path : List Char) :
    ns.walk d (Path.collapse path) =
      ((ns.walk d path).1, (ns.walk d path).2.map Path.collapse) := by
  induction d, path using walk.induct ns with
  | case1 d path hnil =>
    have hcut : Path.dropSlashes (Path.collapse path) = [] := by
      rw [Path.dropSlashes_collapse, hnil]
      rfl
    rw [walk_eq_of_nil hnil, walk_eq_of_nil hcut]
    rfl
  | case2 d path c cs hcons child hchild ih =>
    obtain ⟨hcut, hname⟩ := Path.first_name_collapse hcons
    rw [walk_eq_of_child hcons hchild, walk_eq_of_child hcut (hname ▸ hchild),
      Path.dropWhile_collapse]
    exact ih
  | case3 d path c cs hcons hchild =>
    obtain ⟨hcut, hname⟩ := Path.first_name_collapse hcons
    rw [walk_eq_of_no_child hcons hchild, walk_eq_of_no_child hcut (hname ▸ hchild),
      Option.map_some, Path.collapse_cons (Path.ne_slash_of_dropSlashes hcons)]

theorem resolve_collapsed (ns : Namespace) (cwd : Option DirId) (path : String) :
    ns.resolve cwd (Path.collapsed path) =
      ((ns.resolve cwd path).1, (ns.resolve cwd path).2.map Path.collapsed) := by
  unfold resolve
  rw [Path.collapsed, String.toList_ofList, walk_collapse]
  rcases ns.walk (cwd.getD .root) path.toList with ⟨d, _ | left⟩
  · rfl
  · simp [Path.collapsed]

/-- Behind the first name on the path that no directory has, two slashes stand in a row. -/
def LeavesDoubleSlash (ns : Namespace) (cwd : Option DirId) (path : String) : Prop :=
  ∃ rest, (ns.resolve cwd path).2 = some rest ∧ Path.DoubleSlash rest

theorem site_of_leaves (hleft : ns.LeavesDoubleSlash cwd path) :
    ∃ fault, ns.site cwd path = .error (.invalidPath fault) := by
  obtain ⟨rest, hrest, hslashes⟩ := hleft
  obtain ⟨bad, hbad⟩ : ∃ bad, (Path.pieces rest).find? (!Path.validName ·) = some bad := by
    rw [← Option.isSome_iff_exists, List.find?_isSome]
    exact ⟨"", Path.empty_mem_pieces hslashes, by decide +kernel⟩
  unfold site
  split
  next e he =>
    obtain ⟨fault, rfl⟩ := Path.checkCreatable_error he
    exact ⟨fault, rfl⟩
  next =>
    rcases hresolve : ns.resolve cwd path with ⟨d, left⟩
    rw [hresolve] at hrest
    cases hrest
    exact ⟨.badName bad, by simp only [hbad]⟩

/-- Where the slashes in a row are all among the directories, they make no difference. -/
theorem site_collapsed (hleft : ¬ns.LeavesDoubleSlash cwd path) :
    ns.site cwd (Path.collapsed path) = ns.site cwd path := by
  have hresolve : ns.resolve cwd (Path.collapsed path) = ns.resolve cwd path := by
    rw [resolve_collapsed]
    rcases hresolve : ns.resolve cwd path with ⟨d, _ | rest⟩
    · rfl
    · have hslashes : ¬['/', '/'] <:+: rest.toList :=
        fun hslashes ↦ hleft ⟨rest, congrArg Prod.snd hresolve, hslashes⟩
      simp [Path.collapsed, Path.collapse_eq_self hslashes]
  unfold site
  rw [Path.checkCreatable_collapsed, hresolve]

/-- An empty name is refused where it stands behind the first name that no directory has. Among the
directories it is passed over: the path is taken for the one with single slashes. -/
theorem empty_names_refused_iff (ns : Namespace) (cwd : Option DirId) (path : String) (data : Bytes)
    (access : Access) :
    ((∃ fault, ns.createFile cwd path data access = (.error (.invalidPath fault), ns)) ↔
      ns.LeavesDoubleSlash cwd path ∨ ∃ fault,
        ns.createFile cwd (Path.collapsed path) data access = (.error (.invalidPath fault), ns)) ∧
    (ns.LeavesDoubleSlash cwd path ∨
      ns.createFile cwd path data access =
        ns.createFile cwd (Path.collapsed path) data access) := by
  by_cases hleft : ns.LeavesDoubleSlash cwd path
  · obtain ⟨fault, hsite⟩ := site_of_leaves hleft
    have hrefused : ns.createFile cwd path data access = (.error (.invalidPath fault), ns) :=
      createFile_of_site_error hsite
    exact ⟨iff_of_true ⟨fault, hrefused⟩ (.inl hleft), .inl hleft⟩
  · have hsame := createFile_congr (site_collapsed hleft) data access
    rw [hsame]
    exact ⟨(or_iff_right hleft).symm, .inr rfl⟩

/-- A path is refused for its empty name while its directory is missing, and taken once it is
there. -/
theorem empty_name_passed_over : Path.DoubleSlash "/a//b" ∧
    (∃ fault, (empty 4096).createFile none "/a//b" [] .created =
      (.error (.invalidPath fault), empty 4096)) ∧
    ∃ ns : Namespace, ns.Reachable ∧ ∃ id, (ns.createFile none "/a//b" [] .created).1 = .ok id := by
  have hslashes : Path.DoubleSlash "/a//b" := ⟨['/', 'a'], ['b'], rfl⟩
  have hrun : (empty 4096).Run [.create none "/a/x" [] .created]
      ((empty 4096).createFile none "/a/x" [] .created).2 :=
    .cons (by simp [Change.Grounded]) (.nil _)
  refine ⟨hslashes, ⟨.badName "", createFile_of_site_error (by decide +kernel)⟩, _,
    ⟨4096, _, hrun⟩, ⟨1, 0⟩, by decide +kernel⟩

end BootNamespace.Namespace
