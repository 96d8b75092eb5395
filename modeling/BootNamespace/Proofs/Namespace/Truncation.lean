import Mathlib.Order.Bounds.Basic
import BootNamespace.Proofs.Namespace.Reachable

namespace BootNamespace.Namespace

variable {page size length limit : Nat} {ns ns' : Namespace} {id : FileId} {old new : FileNode}

/-- The size of the pages that it takes. -/
def wholePages (page size : Nat) : Nat := (size + page - 1) / page * page

theorem roundUp_eq_some : roundUp page size = some length ↔
    wholePages page size = length ∧ length < UInt64.size := by
  unfold roundUp wholePages
  dsimp only
  split
  next h =>
    constructor
    · intro heq
      cases heq
      exact ⟨rfl, h⟩
    · rintro ⟨rfl, -⟩
      rfl
  next h =>
    constructor
    · intro heq
      cases heq
    · rintro ⟨rfl, hlt⟩
      exact absurd hlt h

theorem dvd_wholePages (page size : Nat) : page ∣ wholePages page size := Nat.dvd_mul_left _ _

theorem le_wholePages (hpage : 0 < page) (size : Nat) : size ≤ wholePages page size := by
  have hdiv := Nat.div_add_mod' (size + page - 1) page
  have hmod := Nat.mod_lt (size + page - 1) hpage
  unfold wholePages
  omega

theorem wholePages_lt (hpage : 0 < page) (size : Nat) : wholePages page size < size + page := by
  have hle := Nat.div_mul_le_self (size + page - 1) page
  unfold wholePages
  omega

theorem wholePages_mono (h : size ≤ limit) : wholePages page size ≤ wholePages page limit := by
  have hdiv : (size + page - 1) / page ≤ (limit + page - 1) / page :=
    Nat.div_le_div_right (by omega)
  exact Nat.mul_le_mul_right page hdiv

theorem wholePages_of_dvd (hpage : 0 < page) (h : page ∣ size) : wholePages page size = size :=
  Nat.le_antisymm
    (Nat.le_of_lt_add_of_dvd (wholePages_lt hpage size) (dvd_wholePages page size) h)
    (le_wholePages hpage size)

/-- Fewer pages than the limit takes end within it. -/
theorem wholePages_le_of_lt (hpage : 0 < page)
    (h : wholePages page size < wholePages page limit) : wholePages page size ≤ limit := by
  by_contra hbeyond
  have hlimit := wholePages_lt hpage limit
  have hle : wholePages page limit ≤ wholePages page size :=
    Nat.le_of_lt_add_of_dvd (by omega) (dvd_wholePages page limit) (dvd_wholePages page size)
  omega

/-- The lengths in whole pages that have room for so many bytes. -/
def roomy (page size : Nat) : Set Nat := {length | page ∣ length ∧ size ≤ length}

theorem wholePages_isLeast (hpage : 0 < page) (size : Nat) :
    IsLeast (roomy page size) (wholePages page size) := by
  refine ⟨⟨dvd_wholePages page size, le_wholePages hpage size⟩, ?_⟩
  intro length hlength
  have hmono : wholePages page size ≤ wholePages page length := wholePages_mono hlength.2
  rwa [wholePages_of_dvd hpage hlength.1] at hmono

theorem wholePages_lt_iff (hpage : 0 < page) :
    wholePages page size < limit ↔ ∃ length ∈ roomy page size, length < limit := by
  have hleast := wholePages_isLeast hpage size
  constructor
  · intro hlt
    exact ⟨_, hleast.1, hlt⟩
  · rintro ⟨length, hlength, hlt⟩
    exact Nat.lt_of_le_of_lt (hleast.2 hlength) hlt

/-- Unless a word cannot count them, the whole pages for so many bytes can be allocated. -/
def Affords (ns : Namespace) (size : UInt64) : Prop :=
  ∀ length, IsLeast (roomy ns.pageSize size.toNat) length → length < UInt64.size →
    length < allocationLimit

theorem affords_iff (hpage : 0 < ns.pageSize) (size : UInt64) : ns.Affords size ↔
    (wholePages ns.pageSize size.toNat < UInt64.size →
      wholePages ns.pageSize size.toNat < allocationLimit) := by
  have hleast := wholePages_isLeast hpage size.toNat
  constructor
  · intro hroom
    exact hroom _ hleast
  · intro hroom length hlength
    rwa [hlength.unique hleast]

theorem pageSize_empty_pos (pageSize : Nat) : 0 < (empty pageSize).pageSize := by
  unfold empty
  dsimp only
  split
  next => decide
  next hpage => exact Nat.pos_of_ne_zero hpage

theorem Reachable.pageSize_pos (h : ns.Reachable) : 0 < ns.pageSize := by
  obtain ⟨pageSize, hreach⟩ := h
  rw [hreach.pageSize]
  exact pageSize_empty_pos pageSize

/-- A file in another buffer, of `length` bytes: the old bytes as far as they fit, then zeros. -/
structure Resized (old new : FileNode) (length : Nat) : Prop where
  name : new.name = old.name
  owner : new.owner = old.owner
  access : new.access = old.access
  refs : new.refs = old.refs
  size : new.size = length
  bytes : new.data.toList =
    old.data.toList.take (min old.size length) ++ List.replicate (length - old.size) 0
  generation : new.bufferGeneration.toNat = (old.bufferGeneration.toNat + 1) % UInt32.size

theorem take_size (file : FileNode) : file.data.toList.take file.size = file.data.toList :=
  List.take_of_length_le (Nat.le_refl _)

theorem resized (old : FileNode) (length : Nat) : Resized old { old with
    data := old.data.resize length
    bufferGeneration := old.bufferGeneration + 1 } length where
  name := rfl
  owner := rfl
  access := rfl
  refs := rfl
  size := Buffer.length_resize old.data length
  bytes := by
    have htake : old.data.toList.take (min old.size length) = old.data.toList.take length := by
      rw [Nat.min_comm, ← List.take_take, take_size]
    rw [Buffer.toList_resize, htake]
    rfl
  generation := by
    simp only [UInt32.toNat_add, UInt32.reduceToNat]

/-- All that a truncation does: one file is resized, to the least number of pages that is enough. -/
structure Truncated (ns : Namespace) (id : FileId) (size : UInt64) (length : Nat)
    (ns' : Namespace) : Prop where
  least : IsLeast (roomy ns.pageSize size.toNat) length
  file : ∃ old new, ns.file id = .ok old ∧ ns'.file id = .ok new ∧ Resized old new length
  others (other : FileId) (h : other ≠ id) : ns'.file other = ns.file other
  slots (i : Nat) (h : i ≠ id.slot) : ns'.slots[i]? = ns.slots[i]?
  /-- The directories, the free slots and the page size stay. -/
  rest : ns' = { ns with slots := ns'.slots }

theorem putFile_truncated (hold : ns.file? id = some old) {size : UInt64}
    (hleast : IsLeast (roomy ns.pageSize size.toNat) length) (hnew : Resized old new length) :
    ns.Truncated id size length (ns.putFile id new) where
  least := hleast
  file := ⟨old, new, file_eq_ok hold, file_eq_ok (file?_putFile_self hold), hnew⟩
  others other hother := by
    rw [Namespace.file, Namespace.file, file?_putFile hold, if_neg hother]
  slots i hi := by
    rw [putFile, Array.getElem?_modify, if_neg (Ne.symm hi)]
  rest := rfl

/-- A truncation succeeds on a live file that can be mapped, if so many bytes in whole pages can be
counted and allocated. -/
theorem truncate_eq_ok_iff (size : UInt64) : (∃ length, (ns.truncate id size).1 = .ok length) ↔
    (∃ file, ns.file? id = some file ∧ file.access.contains .map) ∧ size ≠ 0 ∧
      ∃ length, roundUp ns.pageSize size.toNat = some length ∧ length < allocationLimit := by
  constructor
  · rintro ⟨length, hok⟩
    rcases truncate_cases ns id size with ⟨-, heq⟩ | ⟨old, e, -, heq, -⟩ |
      ⟨old, length, hold, hmap, hsize, hround, hlimit, -⟩
    · rw [heq] at hok
      cases hok
    · rw [heq] at hok
      cases hok
    · exact ⟨⟨old, hold, hmap⟩, hsize, length, hround, hlimit⟩
  · rintro ⟨⟨old, hold, hmap⟩, hsize, length, hround, hlimit⟩
    rw [truncate_eq_ok hold hmap hsize hround hlimit]
    exact ⟨length, rfl⟩

theorem truncate_ok_iff (h : ns.Reachable) (id : FileId) {size : UInt64} (hroom : ns.Affords size) :
    (∃ length, (ns.truncate id size).1 = .ok length) ↔
      (∃ file, ns.file id = .ok file ∧ file.access.contains .map) ∧ 0 < size ∧
        ∃ length ∈ roomy ns.pageSize size.toNat, length < UInt64.size := by
  have hpage := h.pageSize_pos
  have hroom' := (affords_iff hpage size).mp hroom
  rw [truncate_eq_ok_iff, UInt64.pos_iff_ne_zero, ← wholePages_lt_iff hpage]
  simp only [file_eq_ok_iff, roundUp_eq_some]
  refine and_congr_right fun _ ↦ and_congr_right fun _ ↦ ?_
  constructor
  · rintro ⟨length, ⟨rfl, hfits⟩, -⟩
    exact hfits
  · intro hfits
    exact ⟨_, ⟨rfl, hfits⟩, hroom' hfits⟩

/-- A truncation that succeeds resizes the file, and it alone. -/
theorem truncate_truncated (h : ns.Reachable) {size : UInt64}
    (hok : ns.truncate id size = (.ok length, ns')) : ns.Truncated id size length ns' := by
  rcases truncate_cases ns id size with ⟨-, heq⟩ | ⟨old, e, -, heq, -⟩ |
    ⟨old, length, hold, -, -, hround, -, heq⟩
  · cases hok.symm.trans heq
  · cases hok.symm.trans heq
  · cases hok.symm.trans heq
    have hleast := wholePages_isLeast h.pageSize_pos size.toNat
    rw [(roundUp_eq_some.mp hround).1] at hleast
    exact putFile_truncated hold hleast (resized old length)

theorem truncate_error {e : FsError} {size : UInt64}
    (hfail : ns.truncate id size = (.error e, ns')) : ns' = ns := by
  rcases truncate_cases ns id size with ⟨-, heq⟩ | ⟨old, e, -, heq, -⟩ |
    ⟨old, length, -, -, -, -, -, heq⟩
  · cases hfail.symm.trans heq
    rfl
  · cases hfail.symm.trans heq
    rfl
  · cases hfail.symm.trans heq

/-- A truncation to so many bytes succeeds and puts nothing but zeros behind the file's bytes. -/
def ZeroFills (ns : Namespace) (id : FileId) (size : UInt64) : Prop :=
  ∃ old length ns' new, ns.file id = .ok old ∧ ns.truncate id size = (.ok length, ns') ∧
    ns'.file id = .ok new ∧
      new.data.toList = old.data.toList ++ List.replicate (length - old.size) 0

/-- Growing again never brings back a byte that shrinking has dropped. -/
theorem zeroFills_of_truncate (h : ns.Reachable) {size larger : UInt64}
    (hok : ns.truncate id size = (.ok length, ns')) (hlarger : size ≤ larger)
    (hroom : ns.Affords larger)
    (hfits : ∃ length ∈ roomy ns.pageSize larger.toNat, length < UInt64.size) :
    ns'.ZeroFills id larger := by
  have hns' : ns'.Reachable := by
    have hstep := h.reaches (.one (.truncate id size) trivial)
    rwa [perform, hok] at hstep
  have hfirst := truncate_truncated h hok
  have hpage : ns'.pageSize = ns.pageSize := by rw [hfirst.rest]
  obtain ⟨old, mid, hold, hmid, hresized⟩ := hfirst.file
  obtain ⟨⟨file, hfile, hmap⟩, hzero, -⟩ :=
    (truncate_eq_ok_iff size).mp ⟨length, congrArg Prod.fst hok⟩
  cases hold.symm.trans (file_eq_ok hfile)
  have hroom' : ns'.Affords larger := by
    unfold Affords
    rwa [hpage]
  have hzero' : 0 < larger := UInt64.lt_of_lt_of_le (UInt64.pos_iff_ne_zero.mpr hzero) hlarger
  obtain ⟨length', hagain⟩ := (truncate_ok_iff hns' id hroom').mpr
    ⟨⟨mid, hmid, hresized.access ▸ hmap⟩, hzero', hpage ▸ hfits⟩
  rcases htruncate : ns'.truncate id larger with ⟨result, ns''⟩
  rw [htruncate] at hagain
  dsimp only at hagain
  subst hagain
  have hsecond := truncate_truncated hns' htruncate
  obtain ⟨mid', new, hmid', hnew, hresized'⟩ := hsecond.file
  cases hmid.symm.trans hmid'
  -- A length that is enough for the larger size is enough for the smaller one too.
  have hle : mid.size ≤ length' := by
    have hlength := hsecond.least.1
    rw [hpage] at hlength
    rw [hresized.size]
    exact hfirst.least.2 ⟨hlength.1, Nat.le_trans (UInt64.le_iff_toNat_le.mp hlarger) hlength.2⟩
  refine ⟨mid, length', ns'', new, hmid, htruncate, hnew, ?_⟩
  rw [hresized'.bytes, Nat.min_eq_left hle, take_size]

/-- A truncation succeeds exactly on a live file that can be mapped, for a size that is not zero and
still a word in whole pages. It resizes this file and leaves everything else alone, and one that
fails changes nothing. What it cuts off does not come back. -/
theorem truncation_resizes_one_file (h : ns.Reachable) (id : FileId) {size : UInt64}
    (hroom : ns.Affords size) :
    ((∃ length, (ns.truncate id size).1 = .ok length) ↔
      (∃ file, ns.file id = .ok file ∧ file.access.contains .map) ∧ 0 < size ∧
        ∃ length ∈ roomy ns.pageSize size.toNat, length < UInt64.size) ∧
    match ns.truncate id size with
    | (.error _, ns') => ns' = ns
    | (.ok length, ns') => ns.Truncated id size length ns' ∧
      ∀ larger : UInt64, size ≤ larger → ns.Affords larger →
        (∃ length ∈ roomy ns.pageSize larger.toNat, length < UInt64.size) →
          ns'.ZeroFills id larger := by
  refine ⟨truncate_ok_iff h id hroom, ?_⟩
  split
  next hfail => exact truncate_error hfail
  next hok =>
    refine ⟨truncate_truncated h hok, ?_⟩
    intro larger hlarger hroom' hfits
    exact zeroFills_of_truncate h hok hlarger hroom' hfits

/-- Seven bytes on pages of three: six are left of them, and three zeros come behind these. -/
theorem shrunk_file_grows_with_zeros : ∃ ns ns' : Namespace, ns.Reachable ∧ ns.Affords 4 ∧
    ns.truncate ⟨0, 0⟩ 4 = (.ok 6, ns') ∧ ns.Truncated ⟨0, 0⟩ 4 6 ns' ∧ ns'.ZeroFills ⟨0, 0⟩ 8 := by
  let change := Change.create none "/f" [1, 2, 3, 4, 5, 6, 7] .created
  let ns := (empty 3).perform change
  have hreach : ns.Reachable :=
    (Reachable.empty 3).reaches (.one change (by simp [change, Change.Grounded]))
  have hpage : ns.pageSize = 3 := perform_pageSize _ change
  have hroom (size : UInt64) (hsize : wholePages 3 size.toNat < allocationLimit) :
      ns.Affords size := by
    rw [affords_iff hreach.pageSize_pos, hpage]
    exact fun _ ↦ hsize
  have hnine : 9 ∈ roomy ns.pageSize (8 : UInt64).toNat := by
    rw [hpage]
    exact ⟨by decide, by decide⟩
  obtain ⟨-, htruncate⟩ := truncation_resizes_one_file hreach ⟨0, 0⟩ (hroom 4 (by decide))
  have hok : (ns.truncate ⟨0, 0⟩ 4).1 = .ok 6 := by decide +kernel
  rcases heq : ns.truncate ⟨0, 0⟩ 4 with ⟨result, ns'⟩
  rw [heq] at hok htruncate
  dsimp only at hok
  subst hok
  exact ⟨ns, ns', hreach, hroom 4 (by decide), heq, htruncate.1,
    htruncate.2 8 (by decide) (hroom 8 (by decide)) ⟨9, hnine, by decide⟩⟩

end BootNamespace.Namespace
