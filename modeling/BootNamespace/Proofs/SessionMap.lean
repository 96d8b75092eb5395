import Mathlib.Data.List.Nodup
import Mathlib.Logic.Function.Basic
import BootNamespace.SessionMap

namespace BootNamespace.SessionMap

variable {β : Type} {s t : SessionId} {value other : β} {xs : List (SessionId × β)}

theorem lt_irrefl (s : SessionId) : ¬s < s := UInt32.lt_irrefl s.number

theorem ne_of_lt (h : s < t) : t ≠ s := by
  rintro rfl
  exact lt_irrefl t h

theorem filter_eq_self_of_lt (h : ∀ x ∈ xs, s < x.1) : xs.filter (·.1 ≠ s) = xs := by
  rw [List.filter_eq_self]
  intro x hx
  exact decide_eq_true (ne_of_lt (h x hx))

theorem put_perm (h : xs.Pairwise fun a b ↦ a.1 < b.1) :
    (put s value xs).Perm ((s, value) :: xs.filter (·.1 ≠ s)) := by
  induction xs with
  | nil => exact .refl _
  | cons x xs ih =>
    obtain ⟨hx, hxs⟩ := List.pairwise_cons.mp h
    unfold put
    split
    next hlt =>
      have hall : ∀ y ∈ x :: xs, s < y.1 := by
        intro y hy
        rcases List.mem_cons.mp hy with rfl | hy
        · exact hlt
        · exact lt_trans hlt (hx y hy)
      rw [filter_eq_self_of_lt hall]
    next =>
      split
      next heq =>
        subst heq
        rw [List.filter_cons_of_neg (by simp), filter_eq_self_of_lt hx]
      next hne =>
        rw [List.filter_cons_of_pos (by simpa using Ne.symm hne)]
        exact ((ih hxs).cons x).trans (.swap _ _ _)

theorem perm_of_mem (h : xs.Pairwise fun a b ↦ a.1 < b.1) (hmem : (s, value) ∈ xs) :
    xs.Perm ((s, value) :: xs.filter (·.1 ≠ s)) := by
  induction xs with
  | nil => cases hmem
  | cons x xs ih =>
    obtain ⟨hx, hxs⟩ := List.pairwise_cons.mp h
    rcases List.mem_cons.mp hmem with rfl | hmem
    · rw [List.filter_cons_of_neg (by simp), filter_eq_self_of_lt hx]
    · have hne : x.1 ≠ s := fun he ↦ ne_of_lt (hx _ hmem) he.symm
      rw [List.filter_cons_of_pos (by simpa using hne)]
      exact ((ih hxs hmem).cons x).trans (.swap _ _ _)

variable {m : SessionMap β}

theorem value_unique (h : (s, value) ∈ m.entries) (k : (s, other) ∈ m.entries) : value = other := by
  have hperm := perm_of_mem m.sorted h
  rcases List.mem_cons.mp (hperm.mem_iff.mp k) with he | hmem
  · cases he
    rfl
  · simp at hmem

theorem get?_eq_some_iff : m.get? s = some value ↔ (s, value) ∈ m.entries := by
  constructor
  · intro h
    obtain ⟨x, hfind, rfl⟩ := Option.map_eq_some_iff.mp h
    have hx : x.1 = s := eq_of_beq (List.find?_some hfind :)
    exact hx ▸ List.mem_of_find?_eq_some hfind
  · intro h
    cases hfind : m.entries.find? (·.1 == s) with
    | none =>
      have hno := List.find?_eq_none.mp hfind _ h
      simp at hno
    | some x =>
      have hx : x.1 = s := eq_of_beq (List.find?_some hfind :)
      have hmem : (s, x.2) ∈ m.entries := hx ▸ List.mem_of_find?_eq_some hfind
      rw [get?, hfind, Option.map_some, value_unique h hmem]

theorem mem_insert : (t, other) ∈ (m.insert s value).entries ↔
    (t = s ∧ other = value) ∨ (t ≠ s ∧ (t, other) ∈ m.entries) := by
  rw [insert, (put_perm m.sorted).mem_iff, List.mem_cons, List.mem_filter]
  simp [and_comm]

@[simp] theorem get?_insert_self : (m.insert s value).get? s = some value :=
  get?_eq_some_iff.mpr (mem_insert.mpr (.inl ⟨rfl, rfl⟩))

theorem get?_insert_of_ne (h : t ≠ s) : (m.insert s value).get? t = m.get? t := by
  apply Option.ext
  intro other
  rw [get?_eq_some_iff, get?_eq_some_iff, mem_insert]
  simp [h]

@[simp] theorem get?_erase_self : (m.erase s).get? s = none := by
  rw [Option.eq_none_iff_forall_ne_some]
  intro value h
  have hmem := get?_eq_some_iff.mp h
  simp [erase] at hmem

theorem get?_erase_of_ne (h : t ≠ s) : (m.erase s).get? t = m.get? t := by
  apply Option.ext
  intro other
  rw [get?_eq_some_iff, get?_eq_some_iff, erase, List.mem_filter]
  simp [h]

theorem get?_insert : (m.insert s value).get? = Function.update m.get? s (some value) := by
  funext t
  by_cases ht : t = s
  · subst ht
    rw [get?_insert_self, Function.update_self]
  · rw [get?_insert_of_ne ht, Function.update_of_ne ht]

theorem get?_erase : (m.erase s).get? = Function.update m.get? s none := by
  funext t
  by_cases ht : t = s
  · subst ht
    rw [get?_erase_self, Function.update_self]
  · rw [get?_erase_of_ne ht, Function.update_of_ne ht]

theorem mem_values_iff : value ∈ m.values ↔ ∃ s, m.get? s = some value := by
  simp only [values, List.mem_map, get?_eq_some_iff, Prod.exists, exists_eq_right]

theorem insert_values_perm : (m.insert s value).values.Perm (value :: (m.erase s).values) :=
  (put_perm m.sorted).map _

theorem values_perm_of_get? (h : m.get? s = some value) :
    m.values.Perm (value :: (m.erase s).values) :=
  (perm_of_mem m.sorted (get?_eq_some_iff.mp h)).map _

theorem erase_eq_self_of_get? (h : m.get? s = none) : m.erase s = m := by
  have hfilter : m.entries.filter (·.1 ≠ s) = m.entries := by
    rw [List.filter_eq_self]
    rintro ⟨t, value⟩ hmem
    refine decide_eq_true ?_
    rintro rfl
    rw [get?_eq_some_iff.mpr hmem] at h
    cases h
  cases m
  simp only [erase, mk.injEq]
  exact hfilter

/-- A map is what it holds: its one form is sorted. -/
theorem eq_of_get? {n : SessionMap β} (h : m.get? = n.get?) : m = n := by
  have hnodup (k : SessionMap β) : k.entries.Nodup :=
    k.sorted.imp fun {a b} hlt heq ↦ ne_of_lt hlt (congrArg Prod.fst heq).symm
  have hperm : m.entries.Perm n.entries := by
    refine (List.perm_ext_iff_of_nodup (hnodup m) (hnodup n)).mpr fun ⟨s, value⟩ ↦ ?_
    rw [← get?_eq_some_iff, ← get?_eq_some_iff, h]
  have hentries := hperm.eq_of_pairwise
    (fun a b _ _ hab hba ↦ absurd (lt_trans hab hba) (lt_irrefl a.1)) m.sorted n.sorted
  cases m
  cases n
  simp only [mk.injEq]
  exact hentries

/-- The map with this for the session: a value, or nothing. -/
def assign (m : SessionMap β) (s : SessionId) : Option β → SessionMap β
  | some value => m.insert s value
  | none => m.erase s

theorem get?_assign (value : Option β) :
    (m.assign s value).get? = Function.update m.get? s value := by
  cases value with
  | none => exact get?_erase
  | some value => exact get?_insert

theorem assign_assign (first second : Option β) :
    (m.assign s first).assign s second = m.assign s second := by
  apply eq_of_get?
  simp only [get?_assign, Function.update_idem]

theorem assign_comm (h : s ≠ t) (first second : Option β) :
    (m.assign s first).assign t second = (m.assign t second).assign s first := by
  apply eq_of_get?
  simp only [get?_assign]
  exact Function.update_comm h first second m.get?

theorem assign_get? (m : SessionMap β) (s : SessionId) : m.assign s (m.get? s) = m := by
  apply eq_of_get?
  rw [get?_assign, Function.update_eq_self]

end BootNamespace.SessionMap
