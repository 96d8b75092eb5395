import BootNamespace.Proofs.Image.Facts

namespace BootNamespace.Image

/-- Everything that an image can be asked, by the type of the answer. -/
inductive Question : Type → Type 1
  | header : Question Header
  | string (offset : UInt32) : Question String
  | query {α : Type} (q : Query α) : Question α
  | deviceCount : Question Nat
  | fileCount : Question Nat
  | commandCount : Question Nat
  | summary : Question (List String)

/-- A source together with the number of times that it was asked. -/
structure Counted (σ : Type) where
  source : σ
  asked : Nat

instance {σ : Type} [ImageSource σ] : ImageSource (Counted σ) where
  map counted :=
    let (answer, source) := ImageSource.map counted.source
    (answer, ⟨source, counted.asked + 1⟩)

inductive Call : Type 1
  | load {σ : Type} [ImageSource σ] (source : σ)
  | parse
  | release
  | ask {α : Type} (q : Question α)

/-- What a call did, where it succeeded and was not a question. -/
inductive Deed
  | loaded (blob : Bytes)
  | parsed
  | released
  deriving DecidableEq, Repr

/-- The last load among the deeds took in this blob, and these deeds came after it. -/
def LastLoad (deeds : List Deed) (blob : Bytes) (later : List Deed) : Prop :=
  (∃ before, deeds = before ++ .loaded blob :: later) ∧ ∀ other, .loaded other ∉ later

namespace BootImage

def answer {α : Type} (image : BootImage) : Question α → Except ImageError α
  | .header => image.header
  | .string offset => image.string offset
  | .query q => image.ask q
  | .deviceCount => image.deviceCount
  | .fileCount => image.fileCount
  | .commandCount => image.commandCount
  | .summary => image.summary

def perform (image : BootImage) : Call → BootImage
  | @Call.load _ _ source => (image.load source).2.1
  | .parse => image.parse.2
  | .release => image.release.2
  | .ask _ => image

/-- A call's deed is told from the answers of the image and of the source alone. -/
def deed? (image : BootImage) : Call → Option Deed
  | @Call.load _ _ source =>
    match (image.load source).1, (ImageSource.map source).1 with
    | .ok (), .ok blob => some (.loaded blob)
    | _, _ => none
  | .parse => image.parse.1.toOption.map fun _ ↦ .parsed
  | .release => image.release.1.toOption.map fun _ ↦ .released
  | .ask _ => none

/-- The image after the calls, made one after the other. -/
def after (image : BootImage) (calls : List Call) : BootImage := calls.foldl perform image

/-- The deeds of the calls, in their order. -/
def deeds (image : BootImage) : List Call → List Deed
  | [] => []
  | call :: calls => (image.deed? call).toList ++ (image.perform call).deeds calls

/-- All that a call can do to an image, by the deed that it does. -/
inductive Effect (image : BootImage) : Option Deed → BootImage → Prop
  | idle : Effect image none image
  | refused {blob : Bytes} {e : ImageError} (hheld : image.held? = some blob)
      (hinvalid : validate blob = .error e) : Effect image none (.mapped blob)
  | loaded (blob : Bytes) (hfree : image = .unmapped) :
      Effect image (some (.loaded blob)) (.mapped blob)
  | parsed {blob : Bytes} {h : Header} (hheld : image.held? = some blob)
      (hvalid : validate blob = .ok h) : Effect image (some .parsed) (.parsed blob h)
  | released {blob : Bytes} (hheld : image.held? = some blob) :
      Effect image (some .released) .unmapped

/-- What the deeds so far make of an image that was empty before them. -/
inductive Tracks (deeds : List Deed) : BootImage → Prop
  | fresh (hnone : deeds = []) : Tracks deeds .unmapped
  | released {blob : Bytes} {later : List Deed} (hload : LastLoad deeds blob later)
      (hgone : .released ∈ later) : Tracks deeds .unmapped
  | mapped {blob : Bytes} {later : List Deed} (hload : LastLoad deeds blob later)
      (hkept : .released ∉ later) (hraw : .parsed ∉ later) : Tracks deeds (.mapped blob)
  | parsed {blob : Bytes} {h : Header} {later : List Deed} (hload : LastLoad deeds blob later)
      (hkept : .released ∉ later) (hread : .parsed ∈ later) (hvalid : validate blob = .ok h) :
      Tracks deeds (.parsed blob h)

end BootImage

variable {deeds later later' : List Deed} {deed : Deed} {blob blob' : Bytes} {h : Header}

namespace LastLoad

theorem of_loaded (deeds : List Deed) (blob : Bytes) :
    LastLoad (deeds ++ [.loaded blob]) blob [] :=
  ⟨⟨deeds, rfl⟩, fun _ ↦ List.not_mem_nil⟩

theorem concat (h : LastLoad deeds blob later) (hdeed : ∀ other, deed ≠ .loaded other) :
    LastLoad (deeds ++ [deed]) blob (later ++ [deed]) := by
  obtain ⟨⟨before, rfl⟩, hlater⟩ := h
  refine ⟨⟨before, by simp⟩, fun other hmem ↦ ?_⟩
  rcases List.mem_append.mp hmem with hmem | hmem
  · exact hlater other hmem
  · exact hdeed other (List.mem_singleton.mp hmem).symm

theorem unique (h : LastLoad deeds blob later) (h' : LastLoad deeds blob' later') :
    blob = blob' ∧ later = later' := by
  obtain ⟨⟨before, rfl⟩, hlater⟩ := h
  obtain ⟨⟨before', heq⟩, hlater'⟩ := h'
  -- Were one of the two loads before the other, the other would be among the deeds after it.
  rcases List.append_eq_append_iff.mp heq with ⟨between, -, hrest⟩ | ⟨between, -, hrest⟩
  · cases between with
    | nil => simpa using hrest
    | cons _ between =>
      obtain ⟨-, rfl⟩ := List.cons.inj hrest
      exact absurd (by simp) (hlater blob')
  · cases between with
    | nil => simpa [eq_comm] using hrest
    | cons _ between =>
      obtain ⟨-, rfl⟩ := List.cons.inj hrest
      exact absurd (by simp) (hlater' blob)

end LastLoad

namespace Header

variable {α : Type}

theorem readString_error {offset : UInt32} {e : ImageError}
    (he : h.readString blob offset = .error e) : e = .badString offset := by
  grind [readString]

theorem WellFormed.ask_ne_notParsed (hsound : h.WellFormed blob) (q : Query α) :
    (BootImage.parsed blob h).ask q ≠ .error .notParsed := by
  intro hrefused
  by_cases hq : q.InRange h
  · obtain ⟨a, ha⟩ := hsound.answer q hq
    rw [hrefused] at ha
    cases ha
  · have hserves := hsound.serves
    cases q with
    | version | arch | machine | ram | irq => exact hq trivial
    | device index => cases (hserves.no_device index (Nat.not_lt.mp hq)).symm.trans hrefused
    | file index => cases (hserves.no_file index (Nat.not_lt.mp hq)).symm.trans hrefused
    | command index => cases (hserves.no_command index (Nat.not_lt.mp hq)).symm.trans hrefused

theorem WellFormed.answer_ne_notParsed (hsound : h.WellFormed blob) (q : Question α) :
    (BootImage.parsed blob h).answer q ≠ .error .notParsed := by
  intro hrefused
  cases q with
  | header | deviceCount | fileCount | commandCount => cases hrefused
  | string offset => cases readString_error hrefused
  | query q => exact hsound.ask_ne_notParsed q hrefused
  | summary =>
    obtain ⟨facts, htells⟩ := hsound.serves.tells
    obtain ⟨lines, hlines⟩ := htells.summary
    cases hlines.symm.trans hrefused

end Header

namespace BootImage

variable {σ : Type} [ImageSource σ] {source source' : σ} {image image' : BootImage}
variable {e : ImageError}

theorem isMapped_iff : image.isMapped = true ↔ ∃ blob, image.held? = some blob := by
  cases image with
  | unmapped => simp [isMapped, held?]
  | mapped | parsed => simp [isMapped, held?]

theorem eq_unmapped (hmapped : image.isMapped = false) : image = .unmapped := by
  cases image with
  | unmapped => rfl
  | mapped | parsed => cases hmapped

theorem load_of_mapped (hmapped : image.isMapped = true) (source : σ) :
    image.load source = (.error .alreadyMapped, image, source) := if_pos hmapped

theorem load_of_error (hmap : ImageSource.map source = (.error e, source')) :
    unmapped.load source = (.error e, .unmapped, source') := by
  rw [load, hmap]
  rfl

theorem load_of_ok (hmap : ImageSource.map source = (.ok blob, source')) :
    unmapped.load source = (.ok (), .mapped blob, source') := by
  rw [load, hmap]
  rfl

/-- A source is asked once by an image that holds nothing, and never by another. -/
theorem load_asked (source : σ) (asked : Nat) :
    (image.load (⟨source, asked⟩ : Counted σ)).2.2.asked =
      asked + if image.isMapped then 0 else 1 := by
  cases hmapped : image.isMapped with
  | true =>
    rw [load_of_mapped hmapped]
    rfl
  | false =>
    obtain rfl := eq_unmapped hmapped
    rcases hmap : ImageSource.map source with ⟨e | blob, source'⟩
    · have hcounted : ImageSource.map (⟨source, asked⟩ : Counted σ) =
          (.error e, ⟨source', asked + 1⟩) := by simp only [ImageSource.map, hmap]
      rw [load_of_error hcounted]
      rfl
    · have hcounted : ImageSource.map (⟨source, asked⟩ : Counted σ) =
          (.ok blob, ⟨source', asked + 1⟩) := by simp only [ImageSource.map, hmap]
      rw [load_of_ok hcounted]
      rfl

theorem load_effect (image : BootImage) (source : σ) :
    Effect image (image.deed? (.load source)) (image.perform (.load source)) := by
  dsimp only [deed?, perform]
  cases hmapped : image.isMapped with
  | true =>
    rw [load_of_mapped hmapped]
    exact .idle
  | false =>
    obtain rfl := eq_unmapped hmapped
    rcases hmap : ImageSource.map source with ⟨e | blob, source'⟩
    · rw [load_of_error hmap]
      exact .idle
    · rw [load_of_ok hmap]
      exact .loaded _ rfl

theorem parse_effect (image : BootImage) :
    Effect image (image.deed? .parse) (image.perform .parse) := by
  dsimp only [deed?, perform]
  cases hheld : image.held? with
  | none =>
    cases image with
    | unmapped => exact .idle
    | mapped | parsed => cases hheld
  | some blob =>
    cases hvalid : validate blob with
    | error e =>
      rw [parse_of_error hheld hvalid]
      exact .refused hheld hvalid
    | ok h =>
      rw [parse_of_ok hheld hvalid]
      exact .parsed hheld hvalid

theorem release_effect (image : BootImage) :
    Effect image (image.deed? .release) (image.perform .release) := by
  cases image with
  | unmapped => exact .idle
  | mapped | parsed => exact .released rfl

theorem perform_effect (image : BootImage) (call : Call) :
    Effect image (image.deed? call) (image.perform call) := by
  cases call with
  | load source => exact load_effect image source
  | parse => exact parse_effect image
  | release => exact release_effect image
  | ask => exact .idle

namespace Tracks

/-- An image that holds a blob holds that of the last load, and no release came after it. -/
theorem holds (htracks : Tracks deeds image) (hheld : image.held? = some blob) :
    ∃ later, LastLoad deeds blob later ∧ .released ∉ later ∧
      (image.isParsed = true ↔ .parsed ∈ later) := by
  cases htracks with
  | fresh => cases hheld
  | released => cases hheld
  | mapped hload hkept hraw =>
    cases hheld
    exact ⟨_, hload, hkept, by simp [isParsed, hraw]⟩
  | parsed hload hkept hread hvalid =>
    cases hheld
    exact ⟨_, hload, hkept, by simp [isParsed, hread]⟩

theorem step {done : Option Deed} (htracks : Tracks deeds image)
    (heffect : Effect image done image') : Tracks (deeds ++ done.toList) image' := by
  cases heffect with
  | idle => simpa using htracks
  | refused hheld hinvalid =>
    rw [Option.toList_none, List.append_nil]
    cases htracks with
    | fresh => cases hheld
    | released => cases hheld
    | mapped hload hkept hraw =>
      cases hheld
      exact .mapped hload hkept hraw
    | parsed hload hkept hread hvalid =>
      -- A blob that was found valid once is found valid again.
      cases hheld
      rw [hinvalid] at hvalid
      cases hvalid
  | loaded => exact .mapped (.of_loaded deeds _) List.not_mem_nil List.not_mem_nil
  | parsed hheld hvalid =>
    obtain ⟨later, hload, hkept, -⟩ := htracks.holds hheld
    exact .parsed (hload.concat (by simp)) (by simp [hkept]) (by simp) hvalid
  | released hheld =>
    obtain ⟨later, hload, -⟩ := htracks.holds hheld
    exact .released (hload.concat (by simp)) (by simp)

theorem run (htracks : Tracks deeds image) (calls : List Call) :
    Tracks (deeds ++ image.deeds calls) (image.after calls) := by
  induction calls generalizing deeds image with
  | nil => simpa [after, BootImage.deeds] using htracks
  | cons call calls ih =>
    rw [BootImage.deeds, ← List.append_assoc]
    exact ih (htracks.step (perform_effect image call))

theorem held_iff (htracks : Tracks deeds image) :
    image.held? = some blob ↔ ∃ later, LastLoad deeds blob later ∧ .released ∉ later := by
  constructor
  · intro hheld
    obtain ⟨later, hload, hkept, -⟩ := htracks.holds hheld
    exact ⟨later, hload, hkept⟩
  · rintro ⟨later, hload, hkept⟩
    cases htracks with
    | fresh hnone =>
      obtain ⟨⟨before, hnil⟩, -⟩ := hload
      simp [hnone] at hnil
    | released hload' hgone =>
      obtain ⟨-, rfl⟩ := hload.unique hload'
      exact absurd hgone hkept
    | mapped hload' | parsed hload' =>
      obtain ⟨rfl, -⟩ := hload.unique hload'
      rfl

theorem mapped_iff (htracks : Tracks deeds image) : image.isMapped = true ↔
    ∃ blob later, LastLoad deeds blob later ∧ .released ∉ later := by
  rw [isMapped_iff]
  exact exists_congr fun _ ↦ htracks.held_iff

theorem parsed_iff (htracks : Tracks deeds image) : image.isParsed = true ↔
    ∃ blob later, LastLoad deeds blob later ∧ .released ∉ later ∧ .parsed ∈ later := by
  constructor
  · intro hparsed
    obtain ⟨blob, hheld⟩ : ∃ blob, image.held? = some blob := by
      cases image with
      | unmapped | mapped => cases hparsed
      | parsed blob _ => exact ⟨blob, rfl⟩
    obtain ⟨later, hload, hkept, hread⟩ := htracks.holds hheld
    exact ⟨blob, later, hload, hkept, hread.mp hparsed⟩
  · rintro ⟨blob, later, hload, hkept, hread⟩
    obtain ⟨later', hload', -, hread'⟩ := htracks.holds (htracks.held_iff.mpr ⟨later, hload, hkept⟩)
    obtain ⟨-, rfl⟩ := hload.unique hload'
    exact hread'.mpr hread

end Tracks

theorem answer_of_not_parsed {α : Type} (hraw : image.isParsed = false) (q : Question α) :
    image.answer q = .error .notParsed := by
  cases image with
  | parsed => cases hraw
  | unmapped | mapped =>
    cases q with
    | query q => cases q <;> rfl
    | _ => rfl

/-- What an image is and how it answers, by the deeds that were done to it since it was empty. -/
structure Lifecycle (deeds : List Deed) (image : BootImage) : Prop where
  mapped_iff : image.isMapped = true ↔ ∃ blob later, LastLoad deeds blob later ∧ .released ∉ later
  held_iff : ∀ blob, image.held? = some blob ↔
    ∃ later, LastLoad deeds blob later ∧ .released ∉ later
  parsed_iff : image.isParsed = true ↔
    ∃ blob later, LastLoad deeds blob later ∧ .released ∉ later ∧ .parsed ∈ later
  load_refused : image.isMapped = true → ∀ {σ : Type} [ImageSource σ] (source : σ),
    image.load source = (.error .alreadyMapped, image, source)
  load_asked : ∀ {σ : Type} [ImageSource σ] (source : σ) (asked : Nat),
    (image.load (⟨source, asked⟩ : Counted σ)).2.2.asked = asked + if image.isMapped then 0 else 1
  parse_refused : image.isMapped = false → image.parse = (.error .notMapped, image)
  release_refused : image.isMapped = false → image.release = (.error .notMapped, image)
  load_failed : ∀ {σ : Type} [ImageSource σ] (source : σ) (e : ImageError),
    (image.load source).1 = .error e → (image.load source).2.1 = image
  parse_failed : ∀ e, image.parse.1 = .error e → image.parse.2 = image ∧ image.isParsed = false
  release_failed : ∀ e, image.release.1 = .error e → image.release.2 = image
  refused_iff : ∀ {α : Type} (q : Question α),
    image.answer q = .error .notParsed ↔ image.isParsed = false
  served : image.isParsed = true → ∃ blob later h, LastLoad deeds blob later ∧
    image = .parsed blob h ∧ image.Serves h blob ∧ (mapped blob).parse = (.ok h, image) ∧
    image.parse = (.ok h, image)

theorem load_failed {e : ImageError} (hfailed : (image.load source).1 = .error e) :
    (image.load source).2.1 = image := by
  cases hmapped : image.isMapped with
  | true => rw [load_of_mapped hmapped]
  | false =>
    obtain rfl := eq_unmapped hmapped
    rcases hmap : ImageSource.map source with ⟨e' | blob, source'⟩
    · rw [load_of_error hmap]
    · rw [load_of_ok hmap] at hfailed
      cases hfailed

namespace Tracks

theorem parse_failed {e : ImageError} (htracks : Tracks deeds image)
    (hfailed : image.parse.1 = .error e) : image.parse.2 = image ∧ image.isParsed = false := by
  cases htracks with
  | fresh | released => exact ⟨rfl, rfl⟩
  | mapped hload =>
    cases hvalid : validate _ with
    | error e' => exact ⟨congrArg Prod.snd (parse_of_error rfl hvalid), rfl⟩
    | ok h =>
      rw [parse_of_ok rfl hvalid] at hfailed
      cases hfailed
  | parsed hload hkept hread hvalid =>
    rw [parse_of_ok rfl hvalid] at hfailed
    cases hfailed

theorem lifecycle (htracks : Tracks deeds image) : Lifecycle deeds image where
  mapped_iff := htracks.mapped_iff
  held_iff _ := htracks.held_iff
  parsed_iff := htracks.parsed_iff
  load_refused hmapped _ _ := load_of_mapped hmapped
  load_asked := BootImage.load_asked
  parse_refused hmapped := by
    obtain rfl := eq_unmapped hmapped
    rfl
  release_refused hmapped := by
    obtain rfl := eq_unmapped hmapped
    rfl
  load_failed _ _ := BootImage.load_failed
  parse_failed _ := htracks.parse_failed
  release_failed e hfailed := by
    cases image with
    | unmapped => rfl
    | mapped | parsed => cases hfailed
  refused_iff q := by
    refine ⟨fun hrefused ↦ ?_, fun hraw ↦ answer_of_not_parsed hraw q⟩
    cases htracks with
    | fresh | released | mapped => rfl
    | parsed _ _ _ hvalid =>
      exact absurd hrefused ((validate_eq_ok.mp hvalid).2.answer_ne_notParsed q)
  served hparsed := by
    cases htracks with
    | fresh | released | mapped => cases hparsed
    | parsed hload _ _ hvalid =>
      exact ⟨_, _, _, hload, rfl, (validate_eq_ok.mp hvalid).2.serves, parse_of_ok rfl hvalid,
        parse_of_ok rfl hvalid⟩

end Tracks

/-- An image holds at most one blob, that of the last load, and answers from no other, whatever
calls are made and however they end. -/
theorem last_blob_served (calls : List Call) :
    Lifecycle (unmapped.deeds calls) (unmapped.after calls) :=
  ((Tracks.fresh rfl).run calls).lifecycle

example : unmapped.deeds [.load (StoredImage.missing .absent), .parse,
    .load (StoredImage.blob smallSpec.build), .load (StoredImage.blob [1]), .parse, .release,
    .load (StoredImage.blob [1]), .parse] =
      [.loaded smallSpec.build, .parsed, .released, .loaded [1]] := by
  decide +kernel

end BootImage

end BootNamespace.Image
