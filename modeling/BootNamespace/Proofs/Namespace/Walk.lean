import BootNamespace.Proofs.Namespace.Dirs
import BootNamespace.Proofs.Path

namespace BootNamespace.Namespace

variable {ns : Namespace} {d e p : DirId} {path rest tail : List Char} {name : String}

theorem walk_eq_of_nil (h : Path.dropSlashes path = []) : ns.walk d path = (d, none) := by
  rw [walk]
  split
  next => rfl
  next heq => simp [h] at heq

theorem walk_eq_of_child {c : Char} {cs : List Char} (h : Path.dropSlashes path = c :: cs)
    (hchild : ns.childDir d (String.ofList ((c :: cs).takeWhile (· ≠ '/'))) = some e) :
    ns.walk d path = ns.walk e (cs.dropWhile (· ≠ '/')) := by
  rw [walk]
  split
  next heq => simp [h] at heq
  next heq =>
    rw [h] at heq
    cases heq
    rw [hchild]

theorem walk_eq_of_no_child {c : Char} {cs : List Char} (h : Path.dropSlashes path = c :: cs)
    (hchild : ns.childDir d (String.ofList ((c :: cs).takeWhile (· ≠ '/'))) = none) :
    ns.walk d path = (d, some (c :: cs)) := by
  rw [walk]
  split
  next heq => simp [h] at heq
  next heq =>
    rw [h] at heq
    cases heq
    rw [hchild]

theorem walk_congr {other : List Char} (h : Path.dropSlashes path = Path.dropSlashes other) :
    ns.walk d path = ns.walk d other := by
  rw [walk, walk, h]

/-- The walk stops in front of a name that no directory has. -/
theorem walk_rest (h : ns.walk d path = (e, some rest)) :
    ns.childDir e (String.ofList (rest.takeWhile (· ≠ '/'))) = none := by
  induction d, path using walk.induct ns with
  | case1 d path hnil =>
    rw [walk_eq_of_nil hnil] at h
    cases h
  | case2 d path c cs hcons child hchild ih =>
    rw [walk_eq_of_child hcons hchild] at h
    exact ih h
  | case3 d path c cs hcons hchild =>
    rw [walk_eq_of_no_child hcons hchild] at h
    cases h
    exact hchild

/-- The names lead down from one directory to another, each to a directory in the one before. -/
inductive Descends (ns : Namespace) : DirId → List String → DirId → Prop
  | here (d : DirId) : Descends ns d [] d
  | down {p d e : DirId} {name : String} {names : List String} (hchild : ns.HasDir p name d)
      (hrest : Descends ns d names e) : Descends ns p (name :: names) e

/-- What is walked over and what is left make up the path, and its names with it. -/
theorem walk_descends (h : ns.DirsSound) {left : Option (List Char)}
    (hwalk : ns.walk d path = (e, left)) : ∃ before, path = before ++ left.getD [] ∧
      ns.Descends d (Path.names before) e ∧
      Path.names path = Path.names before ++ Path.names (left.getD []) := by
  induction d, path using walk.induct ns with
  | case1 d path hnil =>
    rw [walk_eq_of_nil hnil] at hwalk
    cases hwalk
    have hnames : Path.names path = [] := by rw [← Path.names_dropSlashes, hnil, Path.names_nil]
    refine ⟨path, (List.append_nil path).symm, ?_, (List.append_nil _).symm⟩
    rw [hnames]
    exact .here _
  | case2 d path c cs hcons child hchild ih =>
    rw [walk_eq_of_child hcons hchild] at hwalk
    obtain ⟨before, hrest, hdown, hleft⟩ := ih hwalk
    have hc := Path.ne_slash_of_dropSlashes hcons
    obtain ⟨slashes, hpath, hslashes⟩ := Path.exists_slashes path
    obtain ⟨word, hword, hnames⟩ := Path.exists_word hc cs
    -- What is walked over below `child` starts with a slash, so the name in front of it ends there.
    have hfollows : Path.Follows (before ++ left.getD []) := hrest ▸ Path.follows_dropWhile cs
    have hbefore := (hslashes (word ++ before)).trans (hnames before hfollows.of_append)
    refine ⟨slashes ++ (word ++ before), ?_, ?_, ?_⟩
    · rw [List.append_assoc, List.append_assoc, ← hrest, ← hword, ← hcons, ← hpath]
    · rw [hbefore]
      exact .down ((childDir_eq_some_iff h).mp hchild) hdown
    · rw [hbefore, List.cons_append, ← hleft, ← Path.names_name hc, ← hcons,
        Path.names_dropSlashes]
  | case3 d path c cs hcons hchild =>
    rw [walk_eq_of_no_child hcons hchild] at hwalk
    cases hwalk
    obtain ⟨slashes, hpath, hslashes⟩ := Path.exists_slashes path
    have hnames : Path.names slashes = [] := by
      rw [← List.append_nil slashes, hslashes, Path.names_nil]
    rw [Option.getD_some, ← hcons]
    refine ⟨slashes, hpath, ?_, ?_⟩
    · rw [hnames]
      exact .here _
    · rw [hnames, Path.names_dropSlashes, List.nil_append]

/-- Behind a path that ends in a directory the walk goes on from there. -/
theorem walk_append (hwalk : ns.walk d path = (e, none)) (ht : Path.Follows tail) :
    ns.walk d (path ++ tail) = ns.walk e tail := by
  induction d, path using walk.induct ns with
  | case1 d path hnil =>
    rw [walk_eq_of_nil hnil] at hwalk
    cases hwalk
    refine walk_congr ?_
    rw [Path.dropSlashes, List.dropWhile_append, ← Path.dropSlashes, hnil]
    rfl
  | case2 d path c cs hcons child hchild ih =>
    rw [walk_eq_of_child hcons hchild] at hwalk
    have hdrop : Path.dropSlashes (path ++ tail) = c :: (cs ++ tail) := by
      rw [Path.dropSlashes, List.dropWhile_append, ← Path.dropSlashes, hcons]
      rfl
    have htake : (c :: (cs ++ tail)).takeWhile (· ≠ '/') = (c :: cs).takeWhile (· ≠ '/') := by
      rw [← List.cons_append, Path.takeWhile_append ht]
    rw [walk_eq_of_child hdrop (htake ▸ hchild), Path.dropWhile_append ht]
    exact ih hwalk
  | case3 d path c cs hcons hchild =>
    rw [walk_eq_of_no_child hcons hchild] at hwalk
    cases hwalk

theorem walk_lt (h : ns.DirsSound) (hd : d.index < ns.dirs.size) (path : List Char) :
    (ns.walk d path).1.index < ns.dirs.size := by
  induction d, path using walk.induct ns with
  | case1 d path hnil =>
    rw [walk_eq_of_nil hnil]
    exact hd
  | case2 d path c cs hcons child hchild ih =>
    rw [walk_eq_of_child hcons hchild]
    obtain ⟨node, hnode⟩ := ((childDir_eq_some_iff h).mp hchild).exists_dir?
    exact ih (lt_of_dir? hnode)
  | case3 d path c cs hcons hchild =>
    rw [walk_eq_of_no_child hcons hchild]
    exact hd

theorem walk_name (hname : Path.validName name) (ht : Path.Follows tail)
    (hchild : ns.childDir d name = some e) :
    ns.walk d ('/' :: (name.toList ++ tail)) = ns.walk e tail := by
  have hdrop := Path.dropSlashes_name hname tail
  have htake := Path.takeWhile_name hname ht
  have hrest := Path.dropWhile_name hname ht
  have hslash := Path.ne_slash_of_validName hname
  cases hlist : name.toList with
  | nil => exact absurd hlist (Path.toList_ne_nil_of_validName hname)
  | cons c cs =>
    rw [hlist, List.cons_append] at hdrop htake hrest
    have hc : c ≠ '/' := hslash c (by simp [hlist])
    rw [List.dropWhile_cons_of_pos (by simpa using hc)] at hrest
    rw [List.cons_append, walk_eq_of_child hdrop (e := e), hrest]
    rw [htake, ← hlist, String.ofList_toList]
    exact hchild

theorem walk_stop (hname : Path.validName name) (ht : Path.Follows tail)
    (hchild : ns.childDir d name = none) :
    ns.walk d ('/' :: (name.toList ++ tail)) = (d, some (name.toList ++ tail)) := by
  have hdrop := Path.dropSlashes_name hname tail
  have htake := Path.takeWhile_name hname ht
  cases hlist : name.toList with
  | nil => exact absurd hlist (Path.toList_ne_nil_of_validName hname)
  | cons c cs =>
    rw [hlist, List.cons_append] at hdrop htake
    rw [List.cons_append, walk_eq_of_no_child hdrop]
    rw [htake, ← hlist, String.ofList_toList]
    exact hchild

end BootNamespace.Namespace
