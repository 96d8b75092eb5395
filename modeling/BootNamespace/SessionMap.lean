import BootNamespace.Session

namespace BootNamespace

/-- Values by session, in the order of the sessions' numbers. -/
structure SessionMap (β : Type) where
  entries : List (SessionId × β)
  sorted : entries.Pairwise fun a b ↦ a.1 < b.1

namespace SessionMap

variable {β : Type}

theorem lt_trans {a b c : SessionId} (h : a < b) (k : b < c) : a < c := UInt32.lt_trans h k

theorem lt_of_not_lt_of_ne {a b : SessionId} (h : ¬a < b) (k : a ≠ b) : b < a := by
  have hle : b.number ≤ a.number := UInt32.not_lt.mp h
  refine UInt32.lt_of_le_of_ne hle fun he ↦ k ?_
  cases a
  cases b
  cases he
  rfl

def put (s : SessionId) (value : β) : List (SessionId × β) → List (SessionId × β)
  | [] => [(s, value)]
  | (t, other) :: rest =>
    if s < t then (s, value) :: (t, other) :: rest
    else if s = t then (s, value) :: rest
    else (t, other) :: put s value rest

theorem mem_put {s : SessionId} {value : β} {xs : List (SessionId × β)} {x : SessionId × β}
    (h : x ∈ put s value xs) : x = (s, value) ∨ x ∈ xs := by
  induction xs with
  | nil => exact .inl (List.mem_singleton.mp h)
  | cons y ys ih =>
    unfold put at h
    split at h
    · exact (List.mem_cons.mp h)
    · split at h
      · rcases List.mem_cons.mp h with h | h
        · exact .inl h
        · exact .inr (List.mem_cons_of_mem _ h)
      · rcases List.mem_cons.mp h with h | h
        · exact .inr (h ▸ List.mem_cons_self)
        · exact (ih h).imp_right (List.mem_cons_of_mem _)

theorem sorted_put {s : SessionId} {value : β} {xs : List (SessionId × β)}
    (h : xs.Pairwise fun a b ↦ a.1 < b.1) : (put s value xs).Pairwise fun a b ↦ a.1 < b.1 := by
  induction xs with
  | nil => exact List.pairwise_singleton _ _
  | cons y ys ih =>
    obtain ⟨hy, hys⟩ := List.pairwise_cons.mp h
    unfold put
    split
    next hlt =>
      refine List.pairwise_cons.mpr ⟨fun z hz ↦ ?_, h⟩
      rcases List.mem_cons.mp hz with rfl | hz
      · exact hlt
      · exact lt_trans hlt (hy z hz)
    next hlt =>
      split
      next heq => exact List.pairwise_cons.mpr ⟨fun z hz ↦ heq ▸ hy z hz, hys⟩
      next hne =>
        refine List.pairwise_cons.mpr ⟨fun z hz ↦ ?_, ih hys⟩
        rcases mem_put hz with rfl | hz
        · exact lt_of_not_lt_of_ne hlt hne
        · exact hy z hz

def empty : SessionMap β := ⟨[], .nil⟩

variable (m : SessionMap β)

def get? (s : SessionId) : Option β := (m.entries.find? (·.1 == s)).map (·.2)

def insert (s : SessionId) (value : β) : SessionMap β := ⟨put s value m.entries, sorted_put m.sorted⟩

def erase (s : SessionId) : SessionMap β := ⟨m.entries.filter (·.1 ≠ s), m.sorted.filter _⟩

def size : Nat := m.entries.length

def values : List β := m.entries.map (·.2)

end SessionMap

end BootNamespace
