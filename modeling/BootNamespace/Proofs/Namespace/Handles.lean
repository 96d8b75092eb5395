import BootNamespace.Proofs.Namespace.Reachable

namespace BootNamespace.Namespace

variable {ns ns' : Namespace} {id other : FileId} {file old : FileNode} {change : Change}
variable {changes more : List Change} {given taken : List FileId} {slot : Nat}

/-- Whatever is asked about the handle is answered with `notFound`, and nothing changes. -/
structure Dead (ns : Namespace) (id : FileId) : Prop where
  file : ns.file id = .error .notFound
  pathOf : ns.pathOf id = .error .notFound
  openFile (mode : OpenMode) : ns.openFile id mode = (.error .notFound, ns)
  closeFile : ns.closeFile id = (.error .notFound, ns)
  readAt (offset : UInt64) (max : Nat) : ns.readAt id offset max = .error .notFound
  writeAt (offset : UInt64) (bytes : Buffer) : ns.writeAt id offset bytes = (.error .notFound, ns)
  truncate (size : UInt64) : ns.truncate id size = (.error .notFound, ns)
  deleteFile : ns.deleteFile id = (.error .notFound, ns)

theorem dead_of_file? (h : ns.file? id = none) : ns.Dead id := by
  have hfile := file_eq_error h
  constructor
  · exact hfile
  · rw [pathOf, hfile]
  · intro mode
    rw [Namespace.openFile, hfile]
  · rw [Namespace.closeFile, hfile]
  · intro offset max
    rw [Namespace.readAt, hfile]
  · intro offset bytes
    rw [Namespace.writeAt, hfile]
  · intro size
    rw [Namespace.truncate, hfile]
  · exact deleteFile_eq_notFound h

/-- The handle that a change gives out. -/
def gives (ns : Namespace) : Change → Option FileId
  | .create cwd path data access => (ns.createFile cwd path data access).1.toOption
  | .delete _ | .openFile _ _ | .closeFile _ | .writeAt _ _ _ | .truncate _ _ => none

/-- The handle that a change takes back. -/
def takes (ns : Namespace) : Change → Option FileId
  | .delete id => (ns.deleteFile id).1.toOption.map fun _ ↦ id
  | .create _ _ _ _ | .openFile _ _ | .closeFile _ | .writeAt _ _ _ | .truncate _ _ => none

/-- The namespace after some changes, each successful or refused. -/
def after (ns : Namespace) (changes : List Change) : Namespace := changes.foldl perform ns

/-- The handles that come up along some changes, in their order. -/
def handles (of : Namespace → Change → Option FileId) (ns : Namespace) : List Change → List FileId
  | [] => []
  | change :: changes => (of ns change).toList ++ handles of (ns.perform change) changes

theorem after_append (ns : Namespace) (changes more : List Change) :
    ns.after (changes ++ more) = (ns.after changes).after more :=
  List.foldl_append

theorem handles_append (of : Namespace → Change → Option FileId) (ns : Namespace)
    (changes more : List Change) :
    ns.handles of (changes ++ more) =
      ns.handles of changes ++ (ns.after changes).handles of more := by
  induction changes generalizing ns with
  | nil => rfl
  | cons change changes ih =>
    rw [List.cons_append, handles, ih, handles, List.append_assoc]
    rfl

theorem handles_concat (of : Namespace → Change → Option FileId) (ns : Namespace)
    (changes : List Change) (change : Change) :
    ns.handles of (changes ++ [change]) =
      ns.handles of changes ++ (of (ns.after changes) change).toList := by
  rw [handles_append, handles, handles, List.append_nil]

/-- How often a slot has been given back, as far as the slot can tell. -/
def age (ns : Namespace) (slot : Nat) : UInt32 := (ns.slots[slot]?.map (·.generation)).getD 0

def Live (ns : Namespace) (id : FileId) : Prop := ∃ file, ns.file? id = some file

theorem not_live_iff : ¬ns.Live id ↔ ns.file? id = none := by
  rw [Live, Option.eq_none_iff_forall_ne_some, not_exists]

theorem Live.generation_eq (h : ns.Live id) : id.generation = ns.age id.slot := by
  obtain ⟨file, hfile⟩ := h
  rw [age, file?_eq_some_iff.mp hfile]
  rfl

/-- What a change does to handles: one may come, dead before and of its slot's age, and one may go,
live before, which ages its slot. -/
structure Turns (ns : Namespace) (given taken : Option FileId) (ns' : Namespace) : Prop where
  slots : ns'.SlotsSound
  age (slot : Nat) :
    ns'.age slot = if slot ∈ taken.map (·.slot) then ns.age slot + 1 else ns.age slot
  live (id : FileId) : ns'.Live id ↔ (id ∈ given ∨ ns.Live id) ∧ id ∉ taken
  given {id : FileId} (h : id ∈ given) : ¬ns.Live id ∧ id.generation = ns.age id.slot
  taken {id : FileId} (h : id ∈ taken) : ns.Live id

theorem Turns.of_same (h : ns'.SlotsSound) (hage : ∀ slot, ns'.age slot = ns.age slot)
    (hlive : ∀ id, ns'.Live id ↔ ns.Live id) : ns.Turns none none ns' where
  slots := h
  age slot := by simpa using hage slot
  live id := by simpa using hlive id
  given h := by cases h
  taken h := by cases h

theorem age_congr (h : ns'.slots = ns.slots) (slot : Nat) : ns'.age slot = ns.age slot := by
  rw [age, age, h]

theorem live_congr (h : ns'.slots = ns.slots) (id : FileId) : ns'.Live id ↔ ns.Live id := by
  rw [Live, Live, file?, file?, h]

theorem Turns.of_slots (h : ns.SlotsSound) (hslots : ns'.slots = ns.slots)
    (hfree : ns'.free = ns.free) : ns.Turns none none ns' := by
  refine .of_same ⟨?_, ?_⟩ (age_congr hslots) (live_congr hslots)
  · rw [hslots, hfree]
    exact h.free_iff
  · rw [hfree]
    exact h.free_nodup

/-- An allocation leaves every slot at its age, and the handle is of that age. -/
theorem allocate_age (h : ns.SlotsSound) (halloc : ns.allocate file = (.ok id, ns')) :
    id.generation = ns.age id.slot ∧ ∀ slot, ns'.age slot = ns.age slot := by
  unfold allocate at halloc
  split at halloc
  next reused free hfree =>
    obtain ⟨generation, hreused⟩ := (h.free_iff reused).mp (by simp [hfree])
    rw [hreused] at halloc
    cases halloc
    refine ⟨by simp [age, hreused], fun slot ↦ ?_⟩
    simp only [age, getElem?_setIfInBounds_slot hreused]
    split
    next heq =>
      rw [heq, hreused]
      rfl
    next => rfl
  next =>
    split at halloc
    next =>
      cases halloc
      refine ⟨by simp [age], fun slot ↦ ?_⟩
      simp only [age, Array.getElem?_push]
      split
      next heq => simp [heq]
      next => rfl
    next => cases halloc

theorem allocate_turns (h : ns.SlotsSound) (halloc : ns.allocate file = (.ok id, ns'))
    (d : DirId) : ns.Turns (some id) none (ns'.link d id) := by
  obtain ⟨hgeneration, hage⟩ := allocate_age h halloc
  obtain ⟨_, _, heq, hallocated⟩ | ⟨heq, -⟩ := allocate_cases h file
  · cases halloc.symm.trans heq
    refine ⟨hallocated.slots.link d id, hage, fun other ↦ ?_, fun {other} hother ↦ ?_,
      fun hother ↦ ?_⟩
    · rw [Live, file?_link, hallocated.file?]
      split
      next he => simp [he]
      next hne => simp [Ne.symm hne, Live]
    · cases hother
      exact ⟨not_live_iff.mpr hallocated.dead, hgeneration⟩
    · cases hother
  · cases halloc.symm.trans heq

theorem Turns.congr {given taken : Option FileId} {mid : Namespace}
    (h : mid.Turns given taken ns') (hslots : mid.slots = ns.slots) : ns.Turns given taken ns' where
  slots := h.slots
  age slot := by rw [h.age, age_congr hslots]
  live id := by rw [h.live, live_congr hslots]
  given hid := by
    rw [← live_congr hslots, ← age_congr hslots]
    exact h.given hid
  taken hid := (live_congr hslots _).mp (h.taken hid)

theorem createFile_turns (h : ns.SlotsSound) (cwd : Option DirId) (path : String) (data : Bytes)
    (access : Access) : ns.Turns (ns.createFile cwd path data access).1.toOption none
      (ns.createFile cwd path data access).2 := by
  have hends := ns.createFile_ends cwd path data access
  generalize ns.createFile cwd path data access = ended at hends ⊢
  cases hends with
  | refused => exact .of_slots h rfl rfl
  | tooLong => exact .of_slots h rfl rfl
  | full _ _ hdirs halloc =>
    have hslots := congrArg slots (addDirs_frame hdirs)
    have hfree := congrArg free (addDirs_frame hdirs)
    have hmid := Turns.of_slots h hslots hfree
    obtain ⟨_, _, heq, -⟩ | ⟨heq, -⟩ := allocate_cases hmid.slots _
    · cases halloc.symm.trans heq
    · cases halloc.symm.trans heq
      exact hmid
  | done _ _ hdirs halloc =>
    have hslots := congrArg slots (addDirs_frame hdirs)
    have hfree := congrArg free (addDirs_frame hdirs)
    have hmid := Turns.of_slots h hslots hfree
    exact (allocate_turns hmid.slots halloc _).congr hslots

theorem deleteFile_turns (h : ns.SlotsSound) (id : FileId) :
    ns.Turns none (ns.takes (.delete id)) (ns.deleteFile id).2 := by
  rw [takes]
  rcases deleteFile_cases ns id with ⟨-, heq⟩ | ⟨file, -, -, heq⟩ | ⟨file, hfile, -, heq⟩
  · rw [heq]
    exact .of_slots h rfl rfl
  · rw [heq]
    exact .of_slots h rfl rfl
  · have hslot := file?_eq_some_iff.mp hfile
    rw [heq]
    refine ⟨h.withoutFile hfile _, fun slot ↦ ?_, fun other ↦ ?_, fun hother ↦ ?_, fun hother ↦ ?_⟩
    · rw [age, getElem?_withoutFile, age]
      split
      next heq => simp [heq, hslot, Except.toOption]
      next hne => simp [Ne.symm hne, Except.toOption]
    · rw [Live, file?_withoutFile hfile]
      split
      next he => simp [he, Except.toOption]
      next hne => simp [Ne.symm hne, Live, Except.toOption]
    · cases hother
    · cases hother
      exact ⟨file, hfile⟩

theorem Touched.turns (h : ns.SlotsSound) (ht : ns.Touched id ns') : ns.Turns none none ns' := by
  cases ht with
  | same => exact .of_slots h rfl rfl
  | @put old file hold =>
    have hslot := file?_eq_some_iff.mp hold
    refine .of_same (h.putFile hold) (fun slot ↦ ?_) fun other ↦ ?_
    · rw [age, putFile, Array.getElem?_modify, age]
      split
      next heq =>
        rw [Option.map_map]
        rfl
      next => rfl
    · rw [Live, file?_putFile hold, Live]
      split
      next he => simp [he, hold]
      next => rfl

theorem perform_turns (h : ns.SlotsSound) (change : Change) :
    ns.Turns (ns.gives change) (ns.takes change) (ns.perform change) := by
  cases change with
  | create cwd path data access => exact createFile_turns h cwd path data access
  | delete id => exact deleteFile_turns h id
  | openFile id mode => exact (openFile_touched ns id mode).turns h
  | closeFile id => exact (closeFile_touched ns id).turns h
  | writeAt id offset bytes => exact (writeAt_touched ns id offset bytes).turns h
  | truncate id size => exact (truncate_touched ns id size).turns h

/-- How the slots stand to the handles given out and taken back so far. -/
structure Accounts (ns : Namespace) (given taken : List FileId) : Prop where
  slots : ns.SlotsSound
  age (slot : Nat) : ns.age slot = .ofNat (taken.countP (·.slot = slot))
  /-- A handle that was taken back is younger than its slot. -/
  old {id : FileId} (h : id ∈ taken) : id.generation.toNat < taken.countP (·.slot = id.slot)
  accounted {id : FileId} (h : id ∈ given) : ns.Live id ∨ id ∈ taken
  given_nodup : given.Nodup

theorem Accounts.empty (pageSize : Nat) : (Namespace.empty pageSize).Accounts [] [] where
  slots := .empty pageSize
  age slot := rfl
  old h := by cases h
  accounted h := by cases h
  given_nodup := List.nodup_nil

/-- A slot counts how often it was given back as long as the count fits. -/
theorem Accounts.toNat_age (h : ns.Accounts given taken)
    (hfew : taken.countP (·.slot = slot) < UInt32.size) :
    (ns.age slot).toNat = taken.countP (·.slot = slot) := by
  rw [h.age]
  exact UInt32.toNat_ofNat_of_lt' hfew

/-- A handle as old as its slot has not been taken back. -/
theorem Accounts.not_taken (h : ns.Accounts given taken)
    (hfew : taken.countP (·.slot = id.slot) < UInt32.size) (hid : id.generation = ns.age id.slot) :
    id ∉ taken := by
  intro hmem
  have hlt := h.old hmem
  rw [hid, h.toNat_age hfew] at hlt
  exact Nat.lt_irrefl _ hlt

/-- One change keeps the accounts, if no slot has been given back as often as it can count. -/
theorem Accounts.turns {new gone : Option FileId} (h : ns.Accounts given taken)
    (ht : ns.Turns new gone ns') (hfew : ∀ slot, taken.countP (·.slot = slot) < UInt32.size) :
    ns'.Accounts (given ++ new.toList) (taken ++ gone.toList) where
  slots := ht.slots
  age slot := by
    rw [ht.age, h.age, List.countP_append]
    cases gone with
    | none => simp
    | some id =>
      by_cases hslot : id.slot = slot
      · simp [hslot]
      · simp [hslot]
  old {id} hid := by
    rw [List.countP_append]
    rcases List.mem_append.mp hid with hid | hid
    · exact Nat.lt_of_lt_of_le (h.old hid) (Nat.le_add_right _ _)
    · have hgone := Option.mem_toList.mp hid
      rw [(ht.taken hgone).generation_eq, h.toNat_age (hfew id.slot)]
      have hcount : gone.toList.countP (·.slot = id.slot) = 1 := by
        rw [Option.mem_def.mp hgone]
        simp
      rw [hcount]
      exact Nat.lt_succ_self _
  accounted {id} hid := by
    rw [List.mem_append, Option.mem_toList, ht.live]
    rcases List.mem_append.mp hid with hid | hid
    · rcases h.accounted hid with hlive | htaken
      · by_cases hgone : id ∈ gone
        · exact .inr (.inr hgone)
        · exact .inl ⟨.inr hlive, hgone⟩
      · exact .inr (.inl htaken)
    · by_cases hgone : id ∈ gone
      · exact .inr (.inr hgone)
      · exact .inl ⟨.inl (Option.mem_toList.mp hid), hgone⟩
  given_nodup := by
    cases new with
    | none => simpa using h.given_nodup
    | some id =>
      -- The new handle was dead and is of its slot's age: neither live nor taken back before.
      obtain ⟨hdead, hage⟩ := ht.given rfl
      have hnew : id ∉ given := by
        intro hid
        rcases h.accounted hid with hlive | htaken
        · exact hdead hlive
        · exact h.not_taken (hfew id.slot) hage htaken
      exact List.perm_append_comm.nodup_iff.mpr (List.nodup_cons.mpr ⟨hnew, h.given_nodup⟩)

theorem countP_handles_le (of : Namespace → Change → Option FileId) (ns : Namespace)
    (changes more : List Change) (p : FileId → Bool) :
    (ns.handles of changes).countP p ≤ (ns.handles of (changes ++ more)).countP p := by
  rw [handles_append, List.countP_append]
  exact Nat.le_add_right _ _

/-- The accounts after a run in which no slot is given back as often as it can count. -/
theorem accounts_after (pageSize : Nat)
    (hfew : ∀ slot, ((empty pageSize).handles takes changes).countP (·.slot = slot) < UInt32.size) :
    ((empty pageSize).after changes).Accounts ((empty pageSize).handles gives changes)
      ((empty pageSize).handles takes changes) := by
  induction changes using List.reverseRecOn with
  | nil => exact .empty pageSize
  | append_singleton changes change ih =>
    have hbefore (slot : Nat) :=
      Nat.lt_of_le_of_lt (countP_handles_le takes _ changes [change] (·.slot = slot)) (hfew slot)
    have hold := ih hbefore
    rw [after_append, handles_concat, handles_concat]
    exact hold.turns (perform_turns hold.slots change) hbefore

theorem mem_handles_of_split (of : Namespace → Change → Option FileId) {earlier : List Change}
    (h : of (ns.after earlier) change = some id) (later : List Change) :
    id ∈ ns.handles of (earlier ++ change :: later) := by
  rw [handles_append, handles, h]
  simp

/-- From its deletion on a handle is dead, and no handle is given out twice. A slot that has been
given back 2^32 times is as it was at first. -/
theorem handles_never_alias (pageSize : Nat) (changes : List Change)
    (hfew : ∀ slot, ((empty pageSize).handles takes changes).countP (·.slot = slot) < UInt32.size) :
    (∀ earlier id later rest, changes = earlier ++ .delete id :: later ++ rest →
      (((empty pageSize).after earlier).deleteFile id).1 = .ok () →
        ((empty pageSize).after (earlier ++ .delete id :: later)).Dead id) ∧
    ((empty pageSize).handles gives changes).Nodup := by
  refine ⟨fun earlier id later rest hsplit hok ↦ ?_, (accounts_after pageSize hfew).given_nodup⟩
  have hshort (slot : Nat) :
      ((empty pageSize).handles takes (earlier ++ .delete id :: later)).countP (·.slot = slot) <
        UInt32.size := by
    have hlong := hfew slot
    rw [hsplit] at hlong
    exact Nat.lt_of_le_of_lt (countP_handles_le takes _ _ rest (·.slot = slot)) hlong
  have htaken : ((empty pageSize).after earlier).takes (.delete id) = some id := by
    rw [takes, hok]
    rfl
  have haccounts := accounts_after pageSize hshort
  refine dead_of_file? (not_live_iff.mp fun hlive ↦ ?_)
  have hmem := mem_handles_of_split takes htaken later
  exact haccounts.not_taken (hshort id.slot) hlive.generation_eq hmem

/-- A file, and another one in its slot. -/
def slotHandedOn : List Change :=
  [.create none "/old" [] .created, .delete ⟨0, 0⟩, .create none "/new" [1] .created]

theorem old_handle_stays_dead :
    (∀ slot, ((empty 4096).handles takes slotHandedOn).countP (·.slot = slot) < UInt32.size) ∧
    ((empty 4096).after slotHandedOn).Live ⟨0, 1⟩ ∧ ((empty 4096).after slotHandedOn).Dead ⟨0, 0⟩ ∧
    ((empty 4096).handles gives slotHandedOn).Nodup := by
  have hfew (slot : Nat) :
      ((empty 4096).handles takes slotHandedOn).countP (·.slot = slot) < UInt32.size := by
    have htaken : ((empty 4096).handles takes slotHandedOn).length = 1 := by decide +kernel
    refine Nat.lt_of_le_of_lt List.countP_le_length ?_
    rw [htaken]
    decide
  obtain ⟨hdead, hnodup⟩ := handles_never_alias 4096 slotHandedOn hfew
  refine ⟨hfew, ⟨⟨"new", .root, .ofList [1], .created, 0, 0⟩, by decide +kernel⟩, ?_, hnodup⟩
  exact hdead [.create none "/old" [] .created] ⟨0, 0⟩ [.create none "/new" [1] .created] [] rfl
    (by decide +kernel)

end BootNamespace.Namespace
