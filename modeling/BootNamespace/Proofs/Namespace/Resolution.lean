import BootNamespace.Proofs.Namespace.Naming

namespace BootNamespace.Namespace

variable {ns : Namespace} {p d e : DirId} {path other name : String} {cwd : Option DirId}
variable {names more used left used' left' : List String} {rest rest' : Option String}

theorem Descends.unique (h : ns.DirsSound) (hd : ns.Descends p names d)
    (he : ns.Descends p names e) : d = e := by
  induction hd with
  | here =>
    cases he
    rfl
  | down hchild hrest ih =>
    cases he with
    | down hchild' hrest' =>
      cases h.name_inj hchild hchild'
      exact ih hrest'

theorem Descends.of_append (he : ns.Descends p (names ++ more) e) :
    ∃ d, ns.Descends p names d ∧ ns.Descends d more e := by
  induction names generalizing p with
  | nil => exact ⟨p, .here p, he⟩
  | cons name names ih =>
    cases he with
    | down hchild hrest =>
      obtain ⟨d, hd, he⟩ := ih hrest
      exact ⟨d, .down hchild hd, he⟩

/-- Along names that no directory has the next of, no more of them can be followed. -/
theorem Descends.longest (h : ns.DirsSound) (hd : ns.Descends p used d)
    (hchild : ns.childDir d name = none) (hnames : names <+: used ++ name :: more)
    (he : ns.Descends p names e) : names.length ≤ used.length := by
  by_contra hlonger
  -- A longer way would lead through `d` into a directory there that is called `name`.
  obtain ⟨after, rfl⟩ := List.prefix_of_prefix_length_le (List.prefix_append _ _) hnames
    (Nat.le_of_not_le hlonger)
  rw [List.prefix_append_right_inj] at hnames
  obtain ⟨m, hm, he⟩ := he.of_append
  cases he with
  | here => simp at hlonger
  | down hnext =>
    rw [hm.unique h hd, (List.cons_prefix_cons.mp hnames).1] at hnext
    exact (childDir_eq_none_iff h).mp hchild _ hnext

/-- A path is followed along `used` to a directory, where `left` of its names are left, and no
directory is reached along more of them. -/
structure Greedy (ns : Namespace) (start : DirId) (path : String) (used left : List String)
    (d : DirId) (rest : Option String) : Prop where
  segments : Path.segments path = used ++ left
  descends : ns.Descends start used d
  longest {names : List String} {e : DirId} (hnames : names <+: Path.segments path)
    (he : ns.Descends start names e) : names.length ≤ used.length
  rest_none : rest = none ↔ left = []
  /-- What is left of the path starts with the first of the names that are left. -/
  rest_some {r : String} (h : rest = some r) : ∃ before name tail, path = before ++ r ∧
    Path.segments before = used ∧ Path.segments r = left ∧ left.head? = some name ∧
    r = name ++ tail ∧ Path.Follows tail.toList

theorem Greedy.segments_rest {r : String} (h : ns.Greedy p path used left d (some r)) :
    Path.segments r = left := by
  obtain ⟨_, _, _, -, -, hleft, -⟩ := h.rest_some rfl
  exact hleft

/-- Paths with the same names are followed equally far. -/
theorem Greedy.unique (h : ns.DirsSound) (hpath : ns.Greedy p path used left d rest)
    (hother : ns.Greedy p other used' left' e rest')
    (hsame : Path.segments other = Path.segments path) : used' = used ∧ left' = left ∧ e = d := by
  have hused : used <+: Path.segments path := hpath.segments ▸ List.prefix_append _ _
  have hused' : used' <+: Path.segments path := hsame ▸ hother.segments ▸ List.prefix_append _ _
  -- Each of the two is a candidate for the longest that the other is.
  have hle := hother.longest (hsame ▸ hused) hpath.descends
  have hge := hpath.longest hused' hother.descends
  have heq : used' = used :=
    (List.prefix_of_prefix_length_le hused' hused hge).eq_of_length_le hle
  subst heq
  refine ⟨rfl, ?_, hother.descends.unique h hpath.descends⟩
  exact List.append_cancel_left (hother.segments.symm.trans (hsame.trans hpath.segments))

theorem resolve_greedy (h : ns.DirsSound) (cwd : Option DirId) (path : String) :
    ∃ used left, ns.Greedy (cwd.getD .root) path used left (ns.resolve cwd path).1
      (ns.resolve cwd path).2 := by
  unfold resolve
  rcases hwalk : ns.walk (cwd.getD .root) path.toList with ⟨d, left⟩
  obtain ⟨before, hsplit, hdown, hnames⟩ := walk_descends h hwalk
  have hpath : Path.segments path = Path.names before ++ Path.names (left.getD []) := hnames
  cases left with
  | none =>
    rw [Option.getD_none, Path.names_nil] at hpath
    refine ⟨_, [], hpath, hdown, fun hprefix _ ↦ ?_, by simp, fun hr ↦ by cases hr⟩
    rw [hpath, List.append_nil] at hprefix
    exact hprefix.length_le
  | some left =>
    obtain ⟨c, cs, rfl, hc, -⟩ := walk_rest_head hwalk
    rw [Option.getD_some] at hsplit
    rw [Option.getD_some, Path.names_name hc] at hpath
    refine ⟨_, _, hpath, hdown, fun hprefix he ↦ ?_, by simp, fun {r} hr ↦ ?_⟩
    · exact hdown.longest h (walk_rest hwalk) (hpath ▸ hprefix) he
    · cases hr
      refine ⟨String.ofList before, String.ofList ((c :: cs).takeWhile (· ≠ '/')),
        String.ofList (cs.dropWhile (· ≠ '/')), ?_, Path.segments_ofList before, ?_, rfl, ?_, ?_⟩
      · rw [← String.ofList_append, ← hsplit, String.ofList_toList]
      · rw [Path.segments_ofList, Path.names_name hc]
      · rw [← String.ofList_append, Path.word_append_rest hc]
      · rw [String.toList_ofList]
        exact Path.follows_dropWhile cs

/-- Behind a path that names a directory the rest is resolved from there. -/
theorem resolve_append (hresolve : ns.resolve cwd path = (d, none)) (more : String) :
    ns.resolve cwd (path ++ "/" ++ more) = ns.resolve (some d) more := by
  unfold resolve at hresolve ⊢
  rcases hwalk : ns.walk (cwd.getD .root) path.toList with ⟨e, left⟩
  rw [hwalk] at hresolve
  obtain ⟨rfl, hleft⟩ := Prod.mk.inj hresolve
  cases Option.map_eq_none_iff.mp hleft
  have hlist : (path ++ "/" ++ more).toList = path.toList ++ '/' :: more.toList := by simp
  have hslash : ns.walk e ('/' :: more.toList) = ns.walk e more.toList := walk_congr rfl
  rw [hlist, walk_append hwalk (Path.follows_slash _), hslash, Option.getD_some]

/-- Two paths are looked up to one directory, or each is refused with what is left of it. -/
inductive SameLookup (ns : Namespace) (cwd : Option DirId) (path other : String) : Prop
  | found {d : DirId} (h : ns.lookupDir cwd path = .ok d) (h' : ns.lookupDir cwd other = .ok d)
  | refused {r r' : String} (hrest : (ns.resolve cwd path).2 = some r)
      (hrest' : (ns.resolve cwd other).2 = some r')
      (h : ns.lookupDir cwd path = .error (.invalidPath (.notDirectory r)))
      (h' : ns.lookupDir cwd other = .error (.invalidPath (.notDirectory r')))
      (hsame : Path.segments r' = Path.segments r)

theorem lookupDir_eq_ok (hresolve : ns.resolve cwd path = (d, none)) :
    ns.lookupDir cwd path = .ok d := by
  rw [lookupDir, hresolve]

theorem lookupDir_eq_error {r : String} (hresolve : ns.resolve cwd path = (d, some r)) :
    ns.lookupDir cwd path = .error (.invalidPath (.notDirectory r)) := by
  rw [lookupDir, hresolve]

theorem sameLookup_of_segments (h : ns.DirsSound)
    (hsame : Path.segments other = Path.segments path) :
    (ns.resolve cwd other).1 = (ns.resolve cwd path).1 ∧ ns.SameLookup cwd path other := by
  obtain ⟨used, left, hpath⟩ := resolve_greedy h cwd path
  obtain ⟨used', left', hother⟩ := resolve_greedy h cwd other
  obtain ⟨-, rfl, hdir⟩ := hpath.unique h hother hsame
  refine ⟨hdir, ?_⟩
  rcases hresolve : ns.resolve cwd path with ⟨d, rest⟩
  rcases hresolve' : ns.resolve cwd other with ⟨e, rest'⟩
  rw [hresolve] at hpath hdir
  rw [hresolve'] at hother hdir
  dsimp only at hpath hother hdir
  subst hdir
  have hnone : rest = none ↔ rest' = none := hpath.rest_none.trans hother.rest_none.symm
  cases rest with
  | none =>
    cases hnone.mp rfl
    exact .found (lookupDir_eq_ok hresolve) (lookupDir_eq_ok hresolve')
  | some r =>
    cases rest' with
    | none => cases hnone.mpr rfl
    | some r' =>
      have hleft : Path.segments r' = Path.segments r :=
        hother.segments_rest.trans hpath.segments_rest.symm
      exact .refused (congrArg Prod.snd hresolve) (congrArg Prod.snd hresolve')
        (lookupDir_eq_error hresolve) (lookupDir_eq_error hresolve') hleft

/-- A path is followed as far as there are directories. Other paths with its names lead to the same
directory, only that a refusal quotes what is left of the path at hand. From a directory that a path
names, resolving goes on as from the start. -/
theorem greedy_walk_composes (h : ns.Reachable) (cwd : Option DirId) (path : String) :
    (∃ used left, ns.Greedy (cwd.getD .root) path used left (ns.resolve cwd path).1
      (ns.resolve cwd path).2) ∧
    (∀ other, Path.segments other = Path.segments path →
      (ns.resolve cwd other).1 = (ns.resolve cwd path).1 ∧ ns.SameLookup cwd path other) ∧
    ∀ d, ns.resolve cwd path = (d, none) →
      ∀ more, ns.resolve cwd (path ++ "/" ++ more) = ns.resolve (some d) more := by
  have hdirs := h.wellFormed.dirs
  exact ⟨resolve_greedy hdirs cwd path, fun other hsame ↦ sameLookup_of_segments hdirs hsame,
    fun d hresolve more ↦ resolve_append hresolve more⟩

/-- Below a directory that has taken a file's name, and in front of what is no directory. -/
theorem walks_after_burial : ∃ ns : Namespace, ns.Reachable ∧
    ns.SameLookup none "/sys/x/" "sys//x" ∧
    (∃ used left, ns.Greedy .root "/sys/x/" used left ⟨1⟩ (some "x/")) ∧
    ∀ more, ns.resolve none ("//sys/" ++ "/" ++ more) = ns.resolve (some ⟨1⟩) more := by
  have hreach : (burial.foldl perform (empty 4096)).Reachable := ⟨4096, burial, burial_run 4096⟩
  obtain ⟨hgreedy, hsame, -⟩ := greedy_walk_composes hreach none "/sys/x/"
  obtain ⟨-, -, hcomposes⟩ := greedy_walk_composes hreach none "//sys/"
  have hrest : (burial.foldl perform (empty 4096)).resolve none "/sys/x/" =
      (⟨1⟩, some "x/") := by decide +kernel
  rw [hrest] at hgreedy
  exact ⟨_, hreach, (hsame "sys//x" (by decide +kernel)).2, hgreedy,
    hcomposes ⟨1⟩ (by decide +kernel)⟩

/-- Two paths with the same names are refused with different texts. -/
theorem refusal_quotes_the_path : ∃ ns : Namespace, ns.Reachable ∧
    Path.segments "/x/y" = Path.segments "/x//y" ∧
    ns.lookupDir none "/x/y" = .error (.invalidPath (.notDirectory "x/y")) ∧
    ns.lookupDir none "/x//y" = .error (.invalidPath (.notDirectory "x//y")) ∧
    ns.lookupDir none "/x/y" ≠ ns.lookupDir none "/x//y" := by
  have hlookup : (empty 4096).lookupDir none "/x/y" =
      .error (.invalidPath (.notDirectory "x/y")) := by decide +kernel
  have hlookup' : (empty 4096).lookupDir none "/x//y" =
      .error (.invalidPath (.notDirectory "x//y")) := by decide +kernel
  refine ⟨empty 4096, ⟨4096, [], .nil _⟩, by decide +kernel, hlookup, hlookup', ?_⟩
  rw [hlookup, hlookup']
  decide

end BootNamespace.Namespace
