import BootNamespace.Proofs.Namespace.Lookup

namespace BootNamespace

/-- What a directory says about directories. -/
def DirNode.links (node : DirNode) : String × Option DirId × List DirId :=
  (node.name, node.parent, node.dirs)

namespace Namespace

variable {ns ns' : Namespace} {d e p q : DirId} {node : DirNode} {name other : String}

/-- `d` is the directory called `name` in `p`. -/
def HasDir (ns : Namespace) (p : DirId) (name : String) (d : DirId) : Prop :=
  ∃ node, ns.dir? d = some node ∧ node.parent = some p ∧ node.name = name

/-- All directories but the root have an older parent, which lists them once and under a name of
their own. -/
structure DirsSound (ns : Namespace) : Prop where
  root : ∃ node, ns.dir? .root = some node ∧ node.parent = none
  parent {d : DirId} {node : DirNode} (h : ns.dir? d = some node) (hd : d ≠ .root) :
    ∃ p, node.parent = some p ∧ p.index < d.index
  mem_dirs {p d : DirId} {node : DirNode} (h : ns.dir? p = some node) :
    d ∈ node.dirs ↔ ∃ name, ns.HasDir p name d
  dirs_nodup {p : DirId} {node : DirNode} (h : ns.dir? p = some node) : node.dirs.Nodup
  name_inj {p d e : DirId} {name : String} (hd : ns.HasDir p name d) (he : ns.HasDir p name e) :
    d = e
  valid {p d : DirId} {name : String} (h : ns.HasDir p name d) : Path.validName name

theorem HasDir.exists_dir? (h : ns.HasDir p name d) : ∃ node, ns.dir? d = some node := by
  obtain ⟨node, hnode, -⟩ := h
  exact ⟨node, hnode⟩

theorem hasDir_congr
    (hlinks : ∀ d, (ns'.dir? d).map DirNode.links = (ns.dir? d).map DirNode.links) :
    ns'.HasDir p name d ↔ ns.HasDir p name d := by
  have hiff (ns : Namespace) : ns.HasDir p name d ↔
      ∃ dirs, (ns.dir? d).map DirNode.links = some (name, some p, dirs) := by
    simp only [HasDir, DirNode.links, Option.map_eq_some_iff, Prod.mk.injEq]
    constructor
    · rintro ⟨node, hnode, hparent, hname⟩
      exact ⟨node.dirs, node, hnode, hname, hparent, rfl⟩
    · rintro ⟨dirs, node, hnode, hname, hparent, -⟩
      exact ⟨node, hnode, hparent, hname⟩
  rw [hiff, hiff, hlinks]

theorem DirsSound.index_lt (h : ns.DirsSound) (hd : ns.HasDir p name d) : p.index < d.index := by
  obtain ⟨node, hnode, hparent, -⟩ := hd
  have hne : d ≠ .root := by
    rintro rfl
    obtain ⟨root, hroot, hnone⟩ := h.root
    rw [hroot] at hnode
    cases hnode
    rw [hnone] at hparent
    cases hparent
  obtain ⟨p', hparent', hlt⟩ := h.parent hnode hne
  rw [hparent] at hparent'
  cases hparent'
  exact hlt

theorem DirsSound.parent_exists (h : ns.DirsSound) (hd : ns.HasDir p name d) :
    ∃ node, ns.dir? p = some node := by
  obtain ⟨node, hnode⟩ := hd.exists_dir?
  exact dir?_of_lt (Nat.lt_trans (h.index_lt hd) (lt_of_dir? hnode))

theorem childDir_eq_some_iff (h : ns.DirsSound) :
    ns.childDir p name = some d ↔ ns.HasDir p name d := by
  unfold childDir
  cases hp : ns.dir? p with
  | none =>
    simp only [reduceCtorEq, false_iff]
    intro hd
    obtain ⟨node, hnode⟩ := h.parent_exists hd
    rw [hp] at hnode
    cases hnode
  | some pnode =>
    have hnamed (e : DirId) : (ns.dir? e).any (·.name == name) ∧ e ∈ pnode.dirs ↔
        ns.HasDir p name e := by
      rw [h.mem_dirs hp, Option.any_eq_true]
      simp only [beq_iff_eq]
      constructor
      · rintro ⟨⟨node, hnode, hname⟩, other, node', hnode', hparent, -⟩
        rw [hnode] at hnode'
        cases hnode'
        exact ⟨node, hnode, hparent, hname⟩
      · rintro ⟨node, hnode, hparent, hname⟩
        exact ⟨⟨node, hnode, hname⟩, name, node, hnode, hparent, hname⟩
    refine (find?_eq_some_iff_of_unique fun e he hname hd hdname ↦ ?_).trans
      (and_comm.trans (hnamed d))
    exact h.name_inj ((hnamed e).mp ⟨hname, he⟩) ((hnamed d).mp ⟨hdname, hd⟩)

theorem childDir_eq_none_iff (h : ns.DirsSound) :
    ns.childDir p name = none ↔ ∀ d, ¬ns.HasDir p name d := by
  rw [Option.eq_none_iff_forall_ne_some]
  simp only [ne_eq, childDir_eq_some_iff h]

theorem DirsSound.empty (pageSize : Nat) : (Namespace.empty pageSize).DirsSound := by
  have hdir (d : DirId) (node : DirNode) (h : (Namespace.empty pageSize).dir? d = some node) :
      d = .root ∧ node = ⟨"", none, [], []⟩ := by
    have hlt : d.index < 1 := lt_of_dir? h
    obtain ⟨_ | index⟩ := d
    · exact ⟨rfl, (Option.some.inj h).symm⟩
    · exact absurd hlt (by simp)
  have hno (p d : DirId) (name : String) : ¬(Namespace.empty pageSize).HasDir p name d := by
    rintro ⟨node, hnode, hparent, -⟩
    obtain ⟨-, rfl⟩ := hdir d node hnode
    cases hparent
  refine ⟨⟨_, rfl, rfl⟩, fun h hd ↦ absurd (hdir _ _ h).1 hd, fun {p d node} h ↦ ?_,
    fun {p node} h ↦ ?_, fun hd ↦ absurd hd (hno _ _ _), fun hd ↦ absurd hd (hno _ _ _)⟩
  · obtain ⟨-, rfl⟩ := hdir p node h
    simp [hno]
  · obtain ⟨-, rfl⟩ := hdir p node h
    exact List.nodup_nil

theorem DirsSound.congr (h : ns.DirsSound)
    (hlinks : ∀ d, (ns'.dir? d).map DirNode.links = (ns.dir? d).map DirNode.links) :
    ns'.DirsSound := by
  have hold {d : DirId} {node' : DirNode} (hnode : ns'.dir? d = some node') :
      ∃ node, ns.dir? d = some node ∧ node.links = node'.links := by
    have hd := hlinks d
    rw [hnode] at hd
    exact Option.map_eq_some_iff.mp hd.symm
  have hhas {p d : DirId} {name : String} : ns'.HasDir p name d ↔ ns.HasDir p name d :=
    hasDir_congr hlinks
  refine ⟨?_, fun {d node} hd hne ↦ ?_, fun {p d node} hp ↦ ?_, fun {p node} hp ↦ ?_,
    fun hd he ↦ h.name_inj (hhas.mp hd) (hhas.mp he), fun hd ↦ h.valid (hhas.mp hd)⟩
  · obtain ⟨root, hroot, hnone⟩ := h.root
    have hd := hlinks .root
    rw [hroot] at hd
    obtain ⟨node, hnode, hlink⟩ := Option.map_eq_some_iff.mp hd
    simp only [DirNode.links, Prod.mk.injEq] at hlink
    exact ⟨node, hnode, hlink.2.1.trans hnone⟩
  · obtain ⟨old, hnode, hlink⟩ := hold hd
    simp only [DirNode.links, Prod.mk.injEq] at hlink
    rw [← hlink.2.1]
    exact h.parent hnode hne
  · obtain ⟨old, hnode, hlink⟩ := hold hp
    simp only [DirNode.links, Prod.mk.injEq] at hlink
    simp only [← hlink.2.2, h.mem_dirs hnode, hhas]
  · obtain ⟨old, hnode, hlink⟩ := hold hp
    simp only [DirNode.links, Prod.mk.injEq] at hlink
    rw [← hlink.2.2]
    exact h.dirs_nodup hnode

theorem hasDir_addDir (hp : p.index < ns.dirs.size) :
    (ns.addDir p name).2.HasDir q other d ↔
      (d.index = ns.dirs.size ∧ q = p ∧ other = name) ∨ ns.HasDir q other d := by
  unfold HasDir
  rw [dir?_addDir hp]
  by_cases hd : d.index = ns.dirs.size
  · have hnone : ns.dir? d = none := by
      unfold dir?
      rw [hd, Array.getElem?_size]
    simp only [hd, if_true, hnone, Option.some.injEq, true_and, reduceCtorEq, false_and,
      exists_false, or_false]
    constructor
    · rintro ⟨node, rfl, hparent, rfl⟩
      exact ⟨(Option.some.inj hparent).symm, rfl⟩
    · rintro ⟨rfl, rfl⟩
      exact ⟨_, rfl, rfl, rfl⟩
  · simp only [hd, if_false, false_and, false_or]
    by_cases he : d = p
    · simp only [he, if_true, Option.map_eq_some_iff]
      constructor
      · rintro ⟨_, ⟨node, hnode, rfl⟩, hparent, hname⟩
        exact ⟨node, hnode, hparent, hname⟩
      · rintro ⟨node, hnode, hparent, hname⟩
        exact ⟨_, ⟨node, hnode, rfl⟩, hparent, hname⟩
    · simp only [he, if_false]

theorem not_hasDir_fresh (h : ns.DirsSound) (q : DirId) (other : String) :
    ¬ns.HasDir q other ⟨ns.dirs.size⟩ ∧ ∀ d, ¬ns.HasDir ⟨ns.dirs.size⟩ other d := by
  constructor
  · intro hd
    obtain ⟨node, hnode⟩ := hd.exists_dir?
    exact Nat.lt_irrefl _ (lt_of_dir? hnode)
  · intro d hd
    obtain ⟨node, hnode⟩ := h.parent_exists hd
    exact Nat.lt_irrefl _ (lt_of_dir? hnode)

/-- Only the parent of a new directory lists another one, and the new directory lists none. -/
theorem dirs_addDir (hp : p.index < ns.dirs.size) (hq : (ns.addDir p name).2.dir? q = some node) :
    (q = ⟨ns.dirs.size⟩ ∧ node.parent = some p ∧ node.dirs = []) ∨
      ∃ old, ns.dir? q = some old ∧ node.parent = old.parent ∧
        node.dirs = if q = p then ⟨ns.dirs.size⟩ :: old.dirs else old.dirs := by
  rw [dir?_addDir hp] at hq
  split at hq
  next hsize =>
    cases hq
    exact .inl ⟨index_inj.mp hsize, rfl, rfl⟩
  next =>
    split at hq
    next he =>
      obtain ⟨old, hold, rfl⟩ := Option.map_eq_some_iff.mp hq
      exact .inr ⟨old, hold, rfl, (if_pos he).symm⟩
    next hne => exact .inr ⟨node, hq, rfl, (if_neg hne).symm⟩

theorem mem_dirs_addDir (h : ns.DirsSound) (hp : p.index < ns.dirs.size)
    (hq : (ns.addDir p name).2.dir? q = some node) :
    d ∈ node.dirs ↔ ∃ other, (ns.addDir p name).2.HasDir q other d := by
  simp only [hasDir_addDir hp]
  rcases dirs_addDir hp hq with ⟨rfl, -, hdirs⟩ | ⟨old, hold, -, hdirs⟩
  · have hne : (⟨ns.dirs.size⟩ : DirId) ≠ p := by
      rintro rfl
      exact Nat.lt_irrefl _ hp
    have hno (other : String) := (not_hasDir_fresh h .root other).2 d
    simp [hdirs, hno, hne]
  · rw [hdirs]
    split
    next he =>
      rw [List.mem_cons, h.mem_dirs hold, ← index_inj]
      constructor
      · rintro (hnew | ⟨other, hd⟩)
        · exact ⟨name, .inl ⟨hnew, he, rfl⟩⟩
        · exact ⟨other, .inr hd⟩
      · rintro ⟨other, ⟨hnew, -, -⟩ | hd⟩
        · exact .inl hnew
        · exact .inr ⟨other, hd⟩
    next hne =>
      rw [h.mem_dirs hold]
      simp [hne]

/-- A new directory under a name that no directory beside it has keeps the tree sound. -/
theorem DirsSound.addDir (h : ns.DirsSound) (hp : p.index < ns.dirs.size)
    (hname : Path.validName name) (hnew : ∀ d, ¬ns.HasDir p name d) :
    (ns.addDir p name).2.DirsSound := by
  refine ⟨?_, fun {d node} hd hne ↦ ?_, fun {q d node} hq ↦ mem_dirs_addDir h hp hq,
    fun {q node} hq ↦ ?_, fun {q d e other} hd he ↦ ?_, fun {q d other} hd ↦ ?_⟩
  · obtain ⟨root, hroot, hnone⟩ := h.root
    have hlt : 0 < ns.dirs.size := lt_of_dir? hroot
    have hne : DirId.root.index ≠ ns.dirs.size := Nat.ne_of_lt hlt
    rw [dir?_addDir hp, if_neg hne, hroot]
    split
    · exact ⟨_, rfl, hnone⟩
    · exact ⟨_, rfl, hnone⟩
  · rcases dirs_addDir hp hd with ⟨rfl, hparent, -⟩ | ⟨old, hold, hparent, -⟩
    · exact ⟨p, hparent, hp⟩
    · rw [hparent]
      exact h.parent hold hne
  · rcases dirs_addDir hp hq with ⟨-, -, hdirs⟩ | ⟨old, hold, -, hdirs⟩
    · rw [hdirs]
      exact List.nodup_nil
    · rw [hdirs]
      split
      · refine List.nodup_cons.mpr ⟨fun hmem ↦ ?_, h.dirs_nodup hold⟩
        obtain ⟨other, hd⟩ := (h.mem_dirs hold).mp hmem
        exact (not_hasDir_fresh h _ _).1 hd
      · exact h.dirs_nodup hold
  · rw [hasDir_addDir hp] at hd he
    rcases hd with ⟨hd, rfl, rfl⟩ | hd
    · rcases he with ⟨he, -, -⟩ | he
      · exact index_inj.mp (hd.trans he.symm)
      · exact absurd he (hnew _)
    · rcases he with ⟨-, rfl, rfl⟩ | he
      · exact absurd hd (hnew _)
      · exact h.name_inj hd he
  · rw [hasDir_addDir hp] at hd
    rcases hd with ⟨-, -, rfl⟩ | hd
    · exact hname
    · exact h.valid hd

end Namespace

end BootNamespace
