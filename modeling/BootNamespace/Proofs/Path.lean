import Mathlib.Data.List.Induction
import Mathlib.Data.List.TakeWhile
import BootNamespace.Path

namespace BootNamespace.Path

variable {name : String} {cs tail : List Char} {c : Char}

theorem head?_splitSlash (cs : List Char) :
    (splitSlash cs).head? = some (cs.takeWhile (· ≠ '/')) := by
  induction cs with
  | nil => rfl
  | cons c cs ih =>
    unfold splitSlash
    by_cases h : c = '/'
    · simp [h]
    · rw [if_neg h, List.takeWhile_cons_of_pos (by simpa using h)]
      cases hsplit : splitSlash cs with
      | nil =>
        rw [hsplit] at ih
        cases ih
      | cons piece rest =>
        rw [hsplit] at ih
        cases ih
        rfl

theorem splitSlash_ne_nil (cs : List Char) : splitSlash cs ≠ [] := by
  intro h
  have hhead := head?_splitSlash cs
  rw [h] at hhead
  cases hhead

theorem validName_iff : validName name ↔
    name ≠ "" ∧ name.utf8ByteSize ≤ maxNameLength ∧ '/' ∉ name.toList ∧ '\x00' ∉ name.toList := by
  simp [validName, and_assoc]

theorem toList_ne_nil_of_validName (h : validName name) : name.toList ≠ [] := by
  intro hnil
  exact (validName_iff.mp h).1 (String.toList_eq_nil_iff.mp hnil)

theorem ne_slash_of_validName (h : validName name) : ∀ c ∈ name.toList, c ≠ '/' := by
  rintro c hc rfl
  exact (validName_iff.mp h).2.2.1 hc

/-- What may follow a name on a path: nothing, or a slash. -/
def Follows (tail : List Char) : Prop := ∀ c ∈ tail.head?, c = '/'

theorem follows_nil : Follows [] := by simp [Follows]

theorem follows_slash (cs : List Char) : Follows ('/' :: cs) := by simp [Follows]

theorem takeWhile_append (ht : Follows tail) :
    (cs ++ tail).takeWhile (· ≠ '/') = cs.takeWhile (· ≠ '/') := by
  have hnone : tail.takeWhile (· ≠ '/') = [] := by
    cases tail with
    | nil => rfl
    | cons c tail => simp [ht c rfl]
  rw [List.takeWhile_append, hnone, List.append_nil]
  split
  next hall => exact ((List.takeWhile_prefix _).eq_of_length hall).symm
  next => rfl

theorem dropWhile_append (ht : Follows tail) :
    (cs ++ tail).dropWhile (· ≠ '/') = cs.dropWhile (· ≠ '/') ++ tail := by
  have hnone : tail.dropWhile (· ≠ '/') = tail := by
    cases tail with
    | nil => rfl
    | cons c tail => simp [ht c rfl]
  rw [List.dropWhile_append, hnone]
  split
  next hall => rw [List.isEmpty_iff.mp hall, List.nil_append]
  next => rfl

theorem takeWhile_word (h : ∀ c ∈ cs, c ≠ '/') : cs.takeWhile (· ≠ '/') = cs :=
  List.takeWhile_eq_self_iff.mpr fun c hc ↦ by simpa using h c hc

theorem dropWhile_word (h : ∀ c ∈ cs, c ≠ '/') : cs.dropWhile (· ≠ '/') = [] :=
  List.dropWhile_eq_nil_iff.mpr fun c hc ↦ by simpa using h c hc

theorem takeWhile_name (h : validName name) (ht : Follows tail) :
    (name.toList ++ tail).takeWhile (· ≠ '/') = name.toList := by
  rw [takeWhile_append ht, takeWhile_word (ne_slash_of_validName h)]

theorem dropWhile_name (h : validName name) (ht : Follows tail) :
    (name.toList ++ tail).dropWhile (· ≠ '/') = tail := by
  rw [dropWhile_append ht, dropWhile_word (ne_slash_of_validName h), List.nil_append]

theorem dropSlashes_name (h : validName name) (tail : List Char) :
    dropSlashes ('/' :: (name.toList ++ tail)) = name.toList ++ tail := by
  have hne := toList_ne_nil_of_validName h
  have hslash := ne_slash_of_validName h
  cases hlist : name.toList with
  | nil => exact absurd hlist hne
  | cons c cs =>
    have hc : c ≠ '/' := hslash c (by simp [hlist])
    simp [dropSlashes, hc]

theorem toList_ofSegments_concat (names : List String) (name : String) :
    (ofSegments (names ++ [name])).toList = (ofSegments names).toList ++ '/' :: name.toList := by
  simp [ofSegments]

/-- The names that stand between the slashes. -/
def names (cs : List Char) : List String := ((splitSlash cs).map String.ofList).filter (· ≠ "")

/-- Every run of slashes is cut down to one. -/
def collapse : List Char → List Char
  | [] => []
  | c :: cs => if c = '/' ∧ cs.head? = some '/' then collapse cs else c :: collapse cs

def collapsed (path : String) : String := String.ofList (collapse path.toList)

theorem splitSlash_eq (cs : List Char) : splitSlash cs = cs.takeWhile (· ≠ '/') ::
    match cs.dropWhile (· ≠ '/') with
    | [] => []
    | _ :: tail => splitSlash tail := by
  induction cs with
  | nil => rfl
  | cons c cs ih =>
    rw [splitSlash]
    by_cases h : c = '/'
    · rw [if_pos h]
      simp [h]
    · rw [if_neg h, ih, List.takeWhile_cons_of_pos (by simpa using h),
        List.dropWhile_cons_of_pos (by simpa using h)]

theorem word_append_rest (hc : c ≠ '/') (cs : List Char) :
    (c :: cs).takeWhile (· ≠ '/') ++ cs.dropWhile (· ≠ '/') = c :: cs := by
  rw [← List.dropWhile_cons_of_pos (p := (· ≠ '/')) (a := c) (by simpa using hc),
    List.takeWhile_append_dropWhile]

theorem head_dropWhile (h : cs.dropWhile (· ≠ '/') = c :: tail) : c = '/' := by
  have hhead := List.head?_dropWhile_not (· ≠ '/') cs
  rw [h] at hhead
  simpa using hhead

theorem names_nil : names [] = [] := by decide

theorem names_slash (cs : List Char) : names ('/' :: cs) = names cs := by
  rw [names, splitSlash, if_pos rfl, List.map_cons, List.filter_cons_of_neg (by simp)]
  rfl

theorem names_name (hc : c ≠ '/') (cs : List Char) : names (c :: cs) =
    String.ofList ((c :: cs).takeWhile (· ≠ '/')) :: names (cs.dropWhile (· ≠ '/')) := by
  have htake : (c :: cs).takeWhile (· ≠ '/') = c :: cs.takeWhile (· ≠ '/') :=
    List.takeWhile_cons_of_pos (by simpa using hc)
  have hdrop : (c :: cs).dropWhile (· ≠ '/') = cs.dropWhile (· ≠ '/') :=
    List.dropWhile_cons_of_pos (by simpa using hc)
  rw [names, splitSlash_eq, htake, hdrop, List.map_cons, List.filter_cons_of_pos (by simp)]
  cases hrest : cs.dropWhile (· ≠ '/') with
  | nil => simp [names_nil]
  | cons d tail =>
    rw [head_dropWhile hrest, names_slash]
    rfl

theorem names_dropSlashes (cs : List Char) : names (dropSlashes cs) = names cs := by
  induction cs with
  | nil => rfl
  | cons c cs ih =>
    by_cases h : c = '/'
    · have hdrop : dropSlashes ('/' :: cs) = dropSlashes cs := rfl
      rw [h, hdrop, ih, names_slash]
    · have hdrop : dropSlashes (c :: cs) = c :: cs := by simp [dropSlashes, h]
      rw [hdrop]

theorem segments_of_valid {path : String} (h : ∀ name ∈ pieces path, validName name) :
    segments path = pieces path := by
  refine List.filter_eq_self.mpr fun name hname ↦ ?_
  simpa using (validName_iff.mp (h name hname)).1

theorem collapse_run (cs : List Char) : collapse ('/' :: '/' :: cs) = collapse ('/' :: cs) := by
  rw [collapse, if_pos ⟨rfl, rfl⟩]

theorem collapse_cons (hc : c ≠ '/') (cs : List Char) : collapse (c :: cs) = c :: collapse cs := by
  rw [collapse, if_neg fun h ↦ hc h.1]

theorem collapse_name (hname : '/' ∉ cs) (tail : List Char) :
    collapse (cs ++ tail) = cs ++ collapse tail := by
  induction cs with
  | nil => rfl
  | cons c cs ih =>
    obtain ⟨hc, hcs⟩ := List.ne_and_not_mem_of_not_mem_cons hname
    rw [List.cons_append, collapse_cons hc.symm, ih hcs]
    rfl

theorem collapse_eq (cs : List Char) (hlast : ('/' :: cs).getLast? ≠ some '/') :
    collapse ('/' :: cs) = (names cs).flatMap fun name ↦ '/' :: name.toList := by
  induction hn : cs.length using Nat.strongRecOn generalizing cs with
  | ind n ih =>
    cases cs with
    | nil => exact absurd rfl hlast
    | cons c cs =>
      rw [List.length_cons] at hn
      rw [List.getLast?_cons_cons] at hlast
      by_cases hc : c = '/'
      · subst hc
        rw [collapse_run, names_slash]
        exact ih cs.length (by omega) cs hlast rfl
      · have hfirst : collapse ('/' :: c :: cs) = '/' :: collapse (c :: cs) := by
          rw [collapse, if_neg (by simp [hc])]
        have hsplit := word_append_rest hc cs
        have hname : '/' ∉ (c :: cs).takeWhile (· ≠ '/') := by
          intro hmem
          simpa using List.mem_takeWhile_imp hmem
        have hrest : collapse (cs.dropWhile (· ≠ '/')) =
            (names (cs.dropWhile (· ≠ '/'))).flatMap fun name ↦ '/' :: name.toList := by
          have hlength := (List.dropWhile_suffix (l := cs) (· ≠ '/')).length_le
          cases htail : cs.dropWhile (· ≠ '/') with
          | nil => rw [names_nil]; rfl
          | cons d tail =>
            rw [htail, List.length_cons] at hlength
            rw [htail, head_dropWhile htail] at hsplit
            rw [head_dropWhile htail, names_slash]
            refine ih tail.length (by omega) tail ?_ rfl
            intro heq
            rw [← hsplit, List.getLast?_append, heq] at hlast
            exact hlast rfl
        rw [hfirst, names_name hc, List.flatMap_cons, String.toList_ofList, ← hrest,
          List.cons_append, ← collapse_name hname, hsplit]

theorem checkCreatable_error {path : String} {e : FsError} (he : checkCreatable path = .error e) :
    ∃ fault, e = .invalidPath fault := by
  unfold checkCreatable at he
  split at he
  · cases he
    exact ⟨_, rfl⟩
  · split at he
    · cases he
      exact ⟨_, rfl⟩
    · cases he

/-- Along the names of a path goes the path itself, but for its runs of slashes. -/
theorem ofSegments_segments {path : String} (h : checkCreatable path = .ok ()) :
    ofSegments (segments path) = collapsed path := by
  unfold checkCreatable isAbsolute endsWithSlash at h
  cases hpath : path.toList with
  | nil => simp [hpath] at h
  | cons c cs =>
    rw [hpath] at h
    have hc : c = '/' := by
      by_contra hne
      simp [hne] at h
    subst hc
    have hlast : ('/' :: cs).getLast? ≠ some '/' := by
      intro heq
      simp [heq] at h
    have hnames : segments path = names cs := by
      rw [← names_slash, ← hpath]
      rfl
    rw [ofSegments, hnames, collapsed, hpath, collapse_eq cs hlast]

theorem ne_slash_of_dropSlashes {path : List Char} (h : dropSlashes path = c :: cs) : c ≠ '/' := by
  have hhead := List.head?_dropWhile_not (· = '/') path
  rw [dropSlashes] at h
  rw [h] at hhead
  simpa using hhead

theorem flatMap_toList_names (cs : List Char) :
    (names cs).flatMap String.toList = cs.filter (· ≠ '/') := by
  induction hn : cs.length using Nat.strongRecOn generalizing cs with
  | ind n ih =>
    cases cs with
    | nil => rfl
    | cons c cs =>
      rw [List.length_cons] at hn
      by_cases hc : c = '/'
      · subst hc
        rw [names_slash, ih cs.length (by omega) cs rfl]
        simp
      · have hlength := (List.dropWhile_suffix (l := cs) (· ≠ '/')).length_le
        have hname : ((c :: cs).takeWhile (· ≠ '/')).filter (· ≠ '/') =
            (c :: cs).takeWhile (· ≠ '/') :=
          List.filter_eq_self.mpr fun _ hd ↦ List.mem_takeWhile_imp (p := (· ≠ '/')) hd
        rw [names_name hc, List.flatMap_cons, String.toList_ofList,
          ih (cs.dropWhile (· ≠ '/')).length (by omega) _ rfl, ← hname, ← List.filter_append,
          word_append_rest hc]

theorem slash_of_names_eq_nil (h : names cs = []) : ∀ c ∈ cs, c = '/' := by
  induction cs with
  | nil => simp
  | cons c cs ih =>
    by_cases hc : c = '/'
    · subst hc
      rw [names_slash] at h
      simpa using ih h
    · rw [names_name hc] at h
      cases h

/-- A name without a slash is the only one, and a single name with no slash after it has none. -/
theorem names_eq_singleton_iff {name : String} (hc : c ≠ '/')
    (hlast : (c :: cs).getLast? ≠ some '/') :
    names (c :: cs) = [name] ↔ '/' ∉ c :: cs ∧ name = String.ofList (c :: cs) := by
  have hsplit := word_append_rest hc cs
  rw [names_name hc]
  constructor
  · intro h
    obtain ⟨hname, hrest⟩ := List.cons_eq_cons.mp h
    have hnil : cs.dropWhile (· ≠ '/') = [] := by
      by_contra hne
      refine hlast ?_
      rw [← hsplit, List.getLast?_append, List.getLast?_eq_some_getLast hne,
        slash_of_names_eq_nil hrest _ (List.getLast_mem hne)]
      rfl
    rw [hnil, List.append_nil] at hsplit
    rw [hsplit] at hname
    refine ⟨fun hmem ↦ ?_, hname.symm⟩
    rw [← hsplit] at hmem
    simpa using List.mem_takeWhile_imp hmem
  · rintro ⟨hslash, rfl⟩
    have hnil : cs.dropWhile (· ≠ '/') = [] := dropWhile_word fun d hd ↦ by
      rintro rfl
      exact hslash (List.mem_cons_of_mem c hd)
    rw [hnil, List.append_nil] at hsplit
    rw [hnil, names_nil, hsplit]

theorem splitSlash_append (cs tail : List Char) :
    splitSlash (cs ++ '/' :: tail) = splitSlash cs ++ splitSlash tail := by
  induction cs with
  | nil => rfl
  | cons c cs ih =>
    rw [List.cons_append, splitSlash, splitSlash, ih]
    by_cases hc : c = '/'
    · rw [if_pos hc, if_pos hc, List.cons_append]
    · rw [if_neg hc, if_neg hc]
      cases hsplit : splitSlash cs with
      | nil => exact absurd hsplit (splitSlash_ne_nil cs)
      | cons piece rest => rfl

theorem names_append (cs tail : List Char) : names (cs ++ '/' :: tail) = names cs ++ names tail := by
  rw [names, splitSlash_append, List.map_append, List.filter_append, names, names]

theorem names_trimmed (cs : List Char) : names (dropSlashes cs.reverse).reverse = names cs := by
  induction cs using List.reverseRecOn with
  | nil => rfl
  | append_singleton cs c ih =>
    rw [List.reverse_concat, dropSlashes]
    by_cases hc : c = '/'
    · rw [List.dropWhile_cons_of_pos (by simpa using hc), ← dropSlashes, ih, hc, names_append,
        names_nil, List.append_nil]
    · rw [List.dropWhile_cons_of_neg (by simpa using hc), ← List.reverse_concat,
        List.reverse_reverse]

theorem segments_join (dir name : String) :
    segments (join dir name) = segments dir ++ segments name := by
  have hjoin : segments (join dir name) =
      names ((dropSlashes dir.toList.reverse).reverse ++ '/' :: dropSlashes name.toList) := by
    rw [join, segments, pieces, String.toList_ofList, names]
  rw [hjoin, names_append, names_trimmed, names_dropSlashes]
  rfl

/-- What can be created under a directory's path has a name of its own. -/
theorem segments_ne_nil_of_join {dir name : String}
    (h : checkCreatable (join dir name) = .ok ()) : segments name ≠ [] := by
  intro hnil
  have hslashes : ∀ c ∈ name.toList, c = '/' := slash_of_names_eq_nil hnil
  have hnothing : dropSlashes name.toList = [] :=
    List.dropWhile_eq_nil_iff.mpr (by simpa using hslashes)
  have hends : endsWithSlash (join dir name) = true := by
    simp [endsWithSlash, join, hnothing]
  rw [checkCreatable, hends] at h
  split at h
  · cases h
  · cases h

/-- The names with a slash between them, after a slash. -/
def absolute (names : List String) : String := "/" ++ "/".intercalate names

theorem ofSegments_cons (name : String) (names : List String) :
    ofSegments (name :: names) = "/" ++ name ++ ofSegments names := by
  rw [← String.toList_inj]
  simp [ofSegments]

theorem ofSegments_eq_absolute {names : List String} (h : names ≠ []) :
    ofSegments names = absolute names := by
  induction names with
  | nil => exact absurd rfl h
  | cons name names ih =>
    rw [ofSegments_cons, absolute]
    by_cases hnil : names = []
    · rw [hnil, String.intercalate_singleton]
      exact String.append_empty
    · rw [String.intercalate_cons_of_ne_nil hnil, ih hnil, absolute]
      simp only [String.append_assoc]

theorem segments_ofList (cs : List Char) : segments (String.ofList cs) = names cs := by
  rw [segments, pieces, String.toList_ofList, names]

theorem Follows.of_append (h : Follows (cs ++ tail)) : Follows cs := by
  cases cs with
  | nil => exact follows_nil
  | cons c cs => exact h

theorem follows_dropWhile (cs : List Char) : Follows (cs.dropWhile (· ≠ '/')) := by
  intro c hc
  obtain ⟨tail, htail⟩ := List.head?_eq_some_iff.mp hc
  exact head_dropWhile htail

/-- A run of characters up to a slash is a name. -/
theorem names_word (hne : cs ≠ []) (hslash : ∀ c ∈ cs, c ≠ '/') (ht : Follows tail) :
    names (cs ++ tail) = String.ofList cs :: names tail := by
  cases cs with
  | nil => exact absurd rfl hne
  | cons c cs =>
    have hc : c ≠ '/' := hslash c List.mem_cons_self
    have hdrop := dropWhile_word fun d hd ↦ hslash d (List.mem_cons_of_mem c hd)
    rw [List.cons_append, names_name hc, ← List.cons_append, takeWhile_append ht,
      dropWhile_append ht, takeWhile_word hslash, hdrop, List.nil_append]

theorem names_of_valid (h : validName name) : names name.toList = [name] := by
  have hword := names_word (toList_ne_nil_of_validName h) (ne_slash_of_validName h) follows_nil
  rwa [List.append_nil, String.ofList_toList, names_nil] at hword

/-- A path starts with slashes, which are none of its names. -/
theorem exists_slashes (cs : List Char) :
    ∃ slashes, cs = slashes ++ dropSlashes cs ∧ ∀ tail, names (slashes ++ tail) = names tail := by
  refine ⟨cs.takeWhile (· = '/'), List.takeWhile_append_dropWhile.symm, fun tail ↦ ?_⟩
  have hdrop : dropSlashes (cs.takeWhile (· = '/') ++ tail) = dropSlashes tail :=
    List.dropWhile_append_of_pos fun c hc ↦ List.mem_takeWhile_imp (p := (· = '/')) hc
  rw [← names_dropSlashes, hdrop, names_dropSlashes]

/-- Behind its slashes a path starts with a name. -/
theorem exists_word (hc : c ≠ '/') (cs : List Char) :
    ∃ word, c :: cs = word ++ cs.dropWhile (· ≠ '/') ∧ ∀ tail, Follows tail →
      names (word ++ tail) = String.ofList ((c :: cs).takeWhile (· ≠ '/')) :: names tail := by
  refine ⟨_, (word_append_rest hc cs).symm, fun tail ht ↦ names_word (by simp [hc]) ?_ ht⟩
  intro c hc
  simpa using List.mem_takeWhile_imp hc

theorem segments_ofSegments {names : List String} (h : ∀ name ∈ names, validName name) :
    segments (ofSegments names) = names := by
  induction names using List.reverseRecOn with
  | nil => rfl
  | append_singleton front name ih =>
    rw [List.forall_mem_append, List.forall_mem_singleton] at h
    have hsegments : segments (ofSegments (front ++ [name])) =
        names ((ofSegments front).toList ++ '/' :: name.toList) := by
      rw [← toList_ofSegments_concat]
      rfl
    have hfront : names (ofSegments front).toList = front := ih h.1
    rw [hsegments, names_append, hfront, names_of_valid h.2]

/-- An absolute path of usable names goes along these names. -/
theorem segments_absolute {names : List String} (h : ∀ name ∈ names, validName name) :
    segments (absolute names) = names := by
  by_cases hnil : names = []
  · rw [hnil]
    decide +kernel
  · rw [← ofSegments_eq_absolute hnil]
    exact segments_ofSegments h

/-- Somewhere on the path there is an empty piece between two slashes. -/
def DoubleSlash (path : String) : Prop := ['/', '/'] <:+: path.toList

theorem empty_mem_pieces {path : String} (h : DoubleSlash path) : "" ∈ pieces path := by
  obtain ⟨front, back, hpath⟩ := h
  have hslashes : path.toList = front ++ '/' :: '/' :: back := by simpa using hpath.symm
  have hback : splitSlash ('/' :: back) = [] :: splitSlash back := rfl
  rw [pieces, hslashes, splitSlash_append, hback]
  simp

theorem collapse_eq_self (h : ¬['/', '/'] <:+: cs) : collapse cs = cs := by
  induction cs with
  | nil => rfl
  | cons c cs ih =>
    have hcs : ¬['/', '/'] <:+: cs := fun hrun ↦ h (hrun.trans (List.suffix_cons c cs).isInfix)
    have hhead : ¬(c = '/' ∧ cs.head? = some '/') := by
      rintro ⟨rfl, hnext⟩
      obtain ⟨tail, rfl⟩ := List.head?_eq_some_iff.mp hnext
      exact h ⟨[], tail, rfl⟩
    rw [collapse, if_neg hhead, ih hcs]

theorem head?_collapse (cs : List Char) : (collapse cs).head? = cs.head? := by
  induction cs with
  | nil => rfl
  | cons c cs ih =>
    rw [collapse]
    split
    next hrun => rw [ih, hrun.1, hrun.2, List.head?_cons]
    next => rfl

theorem getLast?_collapse (cs : List Char) : (collapse cs).getLast? = cs.getLast? := by
  induction cs with
  | nil => rfl
  | cons c cs ih =>
    cases cs with
    | nil => simp [collapse]
    | cons d cs =>
      rw [List.getLast?_cons_cons, ← ih, collapse]
      split
      next => rfl
      next =>
        have hne : collapse (d :: cs) ≠ [] := by
          intro hnil
          have hhead := head?_collapse (d :: cs)
          rw [hnil] at hhead
          cases hhead
        exact List.getLast?_cons_of_ne_nil hne

theorem dropSlashes_collapse (cs : List Char) :
    dropSlashes (collapse cs) = collapse (dropSlashes cs) := by
  induction cs with
  | nil => rfl
  | cons c cs ih =>
    by_cases hc : c = '/'
    · subst hc
      have hdrop : dropSlashes ('/' :: cs) = dropSlashes cs := rfl
      rw [hdrop, ← ih, collapse]
      split
      next => rfl
      next => rfl
    · have hdrop (tail : List Char) : dropSlashes (c :: tail) = c :: tail := by
        simp [dropSlashes, hc]
      rw [hdrop, collapse_cons hc, hdrop]

theorem Follows.collapse (h : Follows cs) : Follows (collapse cs) := by
  rw [Follows, head?_collapse]
  exact h

/-- Up to its first slash a path stays as it is. -/
theorem collapse_split (cs : List Char) :
    collapse cs = cs.takeWhile (· ≠ '/') ++ collapse (cs.dropWhile (· ≠ '/')) := by
  have hname : '/' ∉ cs.takeWhile (· ≠ '/') := by
    intro hmem
    simpa using List.mem_takeWhile_imp hmem
  rw [← collapse_name hname, List.takeWhile_append_dropWhile]

theorem takeWhile_collapse (cs : List Char) :
    (collapse cs).takeWhile (· ≠ '/') = cs.takeWhile (· ≠ '/') := by
  rw [collapse_split, takeWhile_append (follows_dropWhile cs).collapse, List.takeWhile_idem]

theorem dropWhile_collapse (cs : List Char) :
    (collapse cs).dropWhile (· ≠ '/') = collapse (cs.dropWhile (· ≠ '/')) := by
  have hword : (cs.takeWhile (· ≠ '/')).dropWhile (· ≠ '/') = [] :=
    dropWhile_word fun c hc ↦ by simpa using List.mem_takeWhile_imp hc
  rw [collapse_split, dropWhile_append (follows_dropWhile cs).collapse, hword, List.nil_append]

theorem checkCreatable_collapsed (path : String) :
    checkCreatable (collapsed path) = checkCreatable path := by
  have hroot : isAbsolute (collapsed path) = isAbsolute path := by
    rw [isAbsolute, isAbsolute, collapsed, String.toList_ofList, head?_collapse]
  have hend : endsWithSlash (collapsed path) = endsWithSlash path := by
    rw [endsWithSlash, endsWithSlash, collapsed, String.toList_ofList, getLast?_collapse]
  rw [checkCreatable, checkCreatable, hroot, hend]

end BootNamespace.Path
