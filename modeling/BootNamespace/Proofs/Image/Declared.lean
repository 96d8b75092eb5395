import BootNamespace.Proofs.Image.Parse

namespace BootNamespace.Image

variable {blob other : Bytes} {h : Header} {limit start length pos : Nat} {offset : UInt32}

/-- Two blobs have the same first `limit` bytes. What follows them may differ, and so may its
length. -/
structure Agree (limit : Nat) (blob other : Bytes) : Prop where
  left : limit ≤ blob.length
  right : limit ≤ other.length
  taken : blob.take limit = other.take limit

theorem Agree.slice (hagree : Agree limit blob other) (hfit : start + length ≤ limit) :
    (blob.drop start).take length = (other.drop start).take length := by
  have hcut (bs : Bytes) :
      (bs.drop start).take length = ((bs.take limit).drop start).take length := by
    rw [List.drop_take, List.take_take, Nat.min_eq_left (by omega)]
  rw [hcut blob, hcut other, hagree.taken]

theorem Agree.wordAt (hagree : Agree limit blob other) (hfit : pos + 4 ≤ limit) :
    wordAt blob pos = wordAt other pos := by
  rw [Image.wordAt, Image.wordAt, Bytes.toUInt32, Bytes.toUInt32, hagree.slice hfit]

theorem Agree.halfAt (hagree : Agree limit blob other) (hfit : pos + 2 ≤ limit) :
    halfAt blob pos = halfAt other pos := by
  rw [Image.halfAt, Image.halfAt, Bytes.toUInt16, Bytes.toUInt16, hagree.slice hfit]

namespace Traced

variable {α β γ : Type} {x : Traced α} {f : α → Traced β}

theorem within_of_bind (hwithin : (x >>= f).Within limit) :
    x.Within limit ∧ ∀ a, x.result = .ok a → (f a).Within limit := by
  obtain ⟨result, probes⟩ := x
  cases result with
  | error e => exact ⟨hwithin, fun a ha ↦ by cases ha⟩
  | ok a =>
    refine ⟨fun probe hprobe ↦ hwithin probe (List.mem_append_left _ hprobe), ?_⟩
    intro b hb probe hprobe
    cases hb
    exact hwithin probe (List.mem_append_right _ hprobe)

theorem bind_congr {g : α → Traced β} (hnext : ∀ a, x.result = .ok a → f a = g a) :
    x >>= f = x >>= g := by
  obtain ⟨result, probes⟩ := x
  cases result with
  | error e => rfl
  | ok a =>
    change (⟨(f a).result, probes ++ (f a).probes⟩ : Traced β) = ⟨(g a).result, _⟩
    rw [hnext a rfl]

/-- All that a reader does and answers depends on the bytes that it takes: where these are among the
first of a blob, every blob that starts with the same bytes is read alike. -/
def Local (read : Bytes → Traced α) : Prop :=
  ∀ ⦃limit blob other⦄, Agree limit blob other → (read blob).Within limit → read blob = read other

theorem local_const (x : Traced α) : Local fun _ ↦ x := fun _ _ _ _ _ ↦ rfl

theorem local_bind {read : Bytes → Traced α} {next : α → Bytes → Traced β} (hread : Local read)
    (hnext : ∀ a, Local (next a)) : Local fun blob ↦ read blob >>= fun a ↦ next a blob := by
  intro limit blob other hagree hwithin
  obtain ⟨hfirst, hrest⟩ := within_of_bind hwithin
  dsimp only
  rw [← hread hagree hfirst]
  exact bind_congr fun a ha ↦ hnext a hagree (hrest a ha)

theorem local_loop (xs : List α) {read : α → Bytes → Traced γ} (hread : ∀ x, Local (read x)) :
    Local fun blob ↦ (forIn xs PUnit.unit fun x _ ↦ do
      let _ ← read x blob
      pure (ForInStep.yield PUnit.unit) : Traced PUnit) := by
  induction xs with
  | nil => exact local_const _
  | cons x xs ih =>
    simp only [List.forIn_cons]
    refine local_bind (local_bind (hread x) fun _ ↦ local_const _) fun step ↦ ?_
    cases step with
    | done u => exact local_const _
    | yield u => exact ih

end Traced

open Traced

theorem traceWord_local (pos : Nat) : Local (traceWord · pos) := by
  intro limit blob other hagree hwithin
  have hfit : pos ≤ pos + 4 ∧ pos + 4 ≤ limit :=
    hwithin (.slice pos (pos + 4)) (by simp [traceWord])
  have hleft := readWord_eq_ok.mpr ⟨Nat.le_trans hfit.2 hagree.left, rfl⟩
  have hright := readWord_eq_ok.mpr ⟨Nat.le_trans hfit.2 hagree.right, rfl⟩
  simp only [traceWord, hleft, hright, hagree.wordAt hfit.2]

theorem traceHalf_local (pos : Nat) : Local (traceHalf · pos) := by
  intro limit blob other hagree hwithin
  have hfit : pos ≤ pos + 2 ∧ pos + 2 ≤ limit :=
    hwithin (.slice pos (pos + 2)) (by simp [traceHalf])
  have hleft := readHalf_eq_ok.mpr ⟨Nat.le_trans hfit.2 hagree.left, rfl⟩
  have hright := readHalf_eq_ok.mpr ⟨Nat.le_trans hfit.2 hagree.right, rfl⟩
  simp only [traceHalf, hleft, hright, hagree.halfAt hfit.2]

theorem traceSlice_local {α : Type} (start length : Nat) (f : Bytes → α) :
    Local fun blob ↦ do
      traceSlice start length
      return f ((blob.drop start).take length) := by
  intro limit blob other hagree hwithin
  have hfit : start ≤ start + length ∧ start + length ≤ limit :=
    (within_of_bind hwithin).1 (.slice start (start + length)) (by simp [traceSlice])
  dsimp only
  rw [hagree.slice hfit.2]

namespace Header

variable {index : Nat}

theorem traceString_local (h : Header) (offset : UInt32) : Local (h.traceString · offset) := by
  intro limit blob other hagree hwithin
  by_cases hoffset : h.namesSize ≤ offset
  · simp only [traceString, readString, if_pos hoffset]
  · have hfit : h.namesOffset.toNat + offset.toNat ≤ h.namesOffset.toNat + h.namesSize.toNat ∧
        h.namesOffset.toNat + h.namesSize.toNat ≤ limit :=
      hwithin (.slice (h.namesOffset.toNat + offset.toNat)
        (h.namesOffset.toNat + h.namesSize.toNat)) (by simp [traceString, hoffset])
    have hsplit {bs : Bytes} (hlength : limit ≤ bs.length) :
        Bytes.split? h.namesSize.toNat (bs.drop h.namesOffset.toNat) = some
          ((bs.drop h.namesOffset.toNat).take h.namesSize.toNat,
            (bs.drop h.namesOffset.toNat).drop h.namesSize.toNat) :=
      Bytes.split?_of_le (by rw [List.length_drop]; omega)
    have htext : blob.take (h.namesOffset.toNat + h.namesSize.toNat) =
        other.take (h.namesOffset.toNat + h.namesSize.toNat) := by
      have hfront : (blob.drop 0).take (h.namesOffset.toNat + h.namesSize.toNat) =
          (other.drop 0).take (h.namesOffset.toNat + h.namesSize.toNat) :=
        hagree.slice (by omega)
      simpa using hfront
    simp only [traceString, readString, if_neg hoffset, hsplit hagree.left, hsplit hagree.right,
      hagree.slice hfit.2, htext]

theorem traceRam_local (h : Header) : Local h.traceRam := by
  refine local_bind (traceWord_local _) fun _ ↦ ?_
  refine local_bind (traceWord_local _) fun _ ↦ ?_
  exact local_const _

theorem traceIrq_local (h : Header) : Local h.traceIrq := by
  refine local_bind (traceWord_local _) fun _ ↦ ?_
  refine local_bind (traceWord_local _) fun _ ↦ ?_
  exact local_const _

theorem traceDevice_local (h : Header) (index : Nat) : Local (h.traceDevice · index) := by
  refine local_bind (local_const _) fun _ ↦ ?_
  refine local_bind (traceWord_local _) fun _ ↦ ?_
  refine local_bind (traceWord_local _) fun _ ↦ ?_
  refine local_bind (traceWord_local _) fun _ ↦ ?_
  refine local_bind (traceWord_local _) fun _ ↦ ?_
  refine local_bind (h.traceString_local _) fun _ ↦ ?_
  exact local_const _

theorem traceFile_local (h : Header) (index : Nat) : Local (h.traceFile · index) := by
  refine local_bind (local_const _) fun _ ↦ ?_
  refine local_bind (traceWord_local _) fun kind ↦ ?_
  refine local_bind (traceWord_local _) fun size ↦ ?_
  refine local_bind (traceWord_local _) fun _ ↦ ?_
  refine local_bind (traceWord_local _) fun _ ↦ ?_
  refine local_bind (h.traceString_local _) fun name ↦ ?_
  refine local_bind (local_const _) fun start ↦ ?_
  exact traceSlice_local start size.toNat fun data ↦
    (⟨name, .ofCode kind, data⟩ : EmbeddedFile)

theorem traceCommand_local (h : Header) (index : Nat) : Local (h.traceCommand · index) := by
  refine local_bind (local_const _) fun _ ↦ ?_
  refine local_bind (traceWord_local _) fun _ ↦ ?_
  refine local_bind (local_const _) fun _ ↦ ?_
  refine local_bind (traceWord_local _) fun _ ↦ ?_
  refine local_bind (traceHalf_local _) fun _ ↦ ?_
  refine local_bind (traceHalf_local _) fun _ ↦ ?_
  refine local_bind (traceWord_local _) fun _ ↦ ?_
  refine local_bind (h.traceString_local _) fun _ ↦ ?_
  exact local_const _

theorem traceDeviceCheck_local (h : Header) (index : Nat) :
    Local (h.traceDeviceCheck · index) := by
  refine local_bind (local_const _) fun _ ↦ ?_
  refine local_bind (traceWord_local _) fun _ ↦ ?_
  refine local_bind (h.traceString_local _) fun _ ↦ ?_
  exact local_const _

theorem traceRecords_local (h : Header) : Local h.traceRecords := by
  refine local_bind (local_loop _ h.traceString_local) fun _ ↦ ?_
  refine local_bind (local_loop _ h.traceDeviceCheck_local) fun _ ↦ ?_
  refine local_bind (local_loop _ h.traceFile_local) fun _ ↦ ?_
  refine local_bind (local_loop _ h.traceCommand_local) fun _ ↦ ?_
  exact local_const _

theorem traceDecode_agree (hagree : Agree limit blob other) (hlimit : Header.length ≤ limit) :
    traceDecode blob = traceDecode other := by
  have hleft : ¬blob.length < Header.length := Nat.not_lt.mpr (Nat.le_trans hlimit hagree.left)
  have hright : ¬other.length < Header.length := Nat.not_lt.mpr (Nat.le_trans hlimit hagree.right)
  have hword (i : Nat) (hi : i < 15) :
      Bytes.toUInt32 (blob.drop (4 * i)) = Bytes.toUInt32 (other.drop (4 * i)) := by
    unfold Header.length at hlimit
    exact hagree.wordAt (by omega)
  rw [traceDecode, traceDecode, if_neg hleft, if_neg hright, decode, decode, if_neg hleft,
    if_neg hright]
  simp (disch := decide) only [hword]

end Header

theorem Query.trace_local {α : Type} (q : Query α) (h : Header) : Local (q.trace h) := by
  cases q with
  | version | arch | machine => exact h.traceString_local _
  | ram => exact h.traceRam_local
  | irq => exact h.traceIrq_local
  | device index => exact h.traceDevice_local index
  | file index => exact h.traceFile_local index
  | command index => exact h.traceCommand_local index

/-- The checks do the same on two blobs that agree on the bytes that the header declares, and come
to the same end. -/
theorem traceValidate_agree (hdecode : Header.decode blob = .ok h)
    (hlength : Header.length ≤ h.size.toNat) (hagree : Agree h.size.toNat blob other) :
    traceValidate blob = traceValidate other := by
  rw [traceValidate, traceValidate, ← Header.traceDecode_agree hagree hlength]
  refine bind_congr fun header hheader ↦ ?_
  obtain rfl : h = header := Except.ok.inj (hdecode.symm.trans hheader)
  have hfits {bs : Bytes} (hle : h.size.toNat ≤ bs.length) :
      ¬(h.size.toNat < Header.length ∨ bs.length < h.size.toNat) := by
    omega
  refine bind_congr fun _ _ ↦ ?_
  rw [if_neg (hfits hagree.left), if_neg (hfits hagree.right)]
  refine bind_congr fun _ _ ↦ bind_congr fun u hchecked ↦ ?_
  -- Only where the regions lie inside the declared bytes does a record get read.
  have hregions := Header.checkRegions_eq_ok.mp (Header.traceRegions_result.symm.trans hchecked)
  rw [h.traceRecords_local hagree hregions.traceRecords_within]

namespace BootImage

variable {image twin : BootImage}

theorem parse_result (hheld : image.held? = some blob) : image.parse.1 = validate blob := by
  cases hvalid : validate blob with
  | error e => rw [parse_of_error hheld hvalid]
  | ok header => rw [parse_of_ok hheld hvalid]

/-- Two images that cannot be told apart by asking them. -/
structure Alike (image twin : BootImage) : Prop where
  header : image.header = twin.header
  string (offset : UInt32) : image.string offset = twin.string offset
  ask {α : Type} (q : Query α) : image.ask q = twin.ask q
  deviceCount : image.deviceCount = twin.deviceCount
  fileCount : image.fileCount = twin.fileCount
  commandCount : image.commandCount = twin.commandCount
  summary : image.summary = twin.summary

theorem alike_of_agree (hregions : h.Regions h.size.toNat)
    (hagree : Agree h.size.toNat blob other) : (parsed blob h).Alike (parsed other h) := by
  have hstring (offset : UInt32) : h.readString blob offset = h.readString other offset :=
    congrArg Traced.result (h.traceString_local offset hagree hregions.traceString_within)
  exact {
    header := rfl
    string := hstring
    ask := fun q ↦ calc
      (parsed blob h).ask q = (q.trace h blob).result := q.trace_result.symm
      _ = (q.trace h other).result :=
        congrArg Traced.result (q.trace_local h hagree (hregions.trace_within q))
      _ = (parsed other h).ask q := q.trace_result
    deviceCount := rfl
    fileCount := rfl
    commandCount := rfl
    summary := by
      simp only [summary, version, arch, machine, string, header, content, hstring, bind,
        Except.bind] }

/-- Parsing an image and asking it depend on nothing but the bytes that its header declares. What
stands behind them is never looked at. -/
theorem parsing_ignores_trailing (hheld : image.held? = some blob) (htwin : twin.held? = some other)
    (hdecode : Header.decode blob = .ok h) (hlength : Header.length ≤ h.size.toNat)
    (hagree : Agree h.size.toNat blob other) :
    image.parse.1 = twin.parse.1 ∧
    (traceValidate blob).result = image.parse.1 ∧ (traceValidate blob).Within h.size.toNat ∧
    ∀ header, image.parse.1 = .ok header → image.parse.2.Alike twin.parse.2 ∧
      (∀ offset, (h.traceString blob offset).result = image.parse.2.string offset ∧
        (h.traceString blob offset).Within h.size.toNat) ∧
      ∀ {α : Type} (q : Query α), (q.trace h blob).result = image.parse.2.ask q ∧
        (q.trace h blob).Within h.size.toNat := by
  have hresult {image : BootImage} {blob : Bytes} (hheld : image.held? = some blob) :
      (traceValidate blob).result = image.parse.1 := by
    rw [traceValidate_result, parse_result hheld]
  have hsame : image.parse.1 = twin.parse.1 := by
    rw [← hresult hheld, ← hresult htwin, traceValidate_agree hdecode hlength hagree]
  refine ⟨hsame, hresult hheld, traceValidate_within_size hdecode hlength, fun header hok ↦ ?_⟩
  obtain ⟨hvalid, hparsed⟩ := (parse_eq_ok hheld).mp hok
  obtain ⟨-, htwinParsed⟩ := (parse_eq_ok htwin).mp (hsame.symm.trans hok)
  obtain ⟨hheader, hsound⟩ := validate_eq_ok.mp hvalid
  obtain rfl : h = header := Except.ok.inj (hdecode.symm.trans hheader)
  rw [hparsed, htwinParsed]
  refine ⟨alike_of_agree hsound.regions hagree, fun offset ↦ ?_, fun q ↦ ?_⟩
  · exact ⟨rfl, hsound.regions.traceString_within⟩
  · exact ⟨q.trace_result, hsound.regions.trace_within q⟩

theorem padding_makes_no_difference :
    (mapped (smallSpec.build ++ [1])).held? = some (smallSpec.build ++ [1]) ∧
    (mapped (smallSpec.build ++ [2, 3])).held? = some (smallSpec.build ++ [2, 3]) ∧
    Header.decode (smallSpec.build ++ [1]) = .ok smallSpec.header ∧
    Header.length ≤ smallSpec.header.size.toNat ∧
    Agree smallSpec.header.size.toNat (smallSpec.build ++ [1]) (smallSpec.build ++ [2, 3]) ∧
    (mapped (smallSpec.build ++ [1])).parse.1 = .ok smallSpec.header ∧
    (mapped (smallSpec.build ++ [2, 3])).parse.1 = .ok smallSpec.header ∧
    (mapped (smallSpec.build ++ [1])).parse.2.Alike (mapped (smallSpec.build ++ [2, 3])).parse.2 := by
  have hdecode : Header.decode (smallSpec.build ++ [1]) = .ok smallSpec.header := by
    decide +kernel
  have hlength : Header.length ≤ smallSpec.header.size.toNat := by decide +kernel
  have hsize : smallSpec.build.length = smallSpec.header.size.toNat := by decide +kernel
  have hfits (more : Bytes) : smallSpec.header.size.toNat ≤ (smallSpec.build ++ more).length := by
    rw [List.length_append]
    omega
  have hagree : Agree smallSpec.header.size.toNat (smallSpec.build ++ [1])
      (smallSpec.build ++ [2, 3]) :=
    ⟨hfits _, hfits _, by rw [List.take_left' hsize, List.take_left' hsize]⟩
  have hok : (mapped (smallSpec.build ++ [1])).parse.1 = .ok smallSpec.header := by
    decide +kernel
  have hheld (more : Bytes) : (mapped (smallSpec.build ++ more)).held? =
      some (smallSpec.build ++ more) := rfl
  obtain ⟨hsame, -, -, halike⟩ :=
    parsing_ignores_trailing (hheld [1]) (hheld [2, 3]) hdecode hlength hagree
  exact ⟨hheld [1], hheld [2, 3], hdecode, hlength, hagree, hok, hsame.symm.trans hok,
    (halike smallSpec.header hok).1⟩

end BootImage

end BootNamespace.Image
