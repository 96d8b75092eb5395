import BootNamespace.Proofs.Bootstrap
import BootNamespace.Proofs.Bootstrap.Format
import BootNamespace.Proofs.Image.Lifecycle
import BootNamespace.Proofs.Namespace.Addition

namespace BootNamespace

open Image Namespace

namespace Namespace

variable {ns ns' : Namespace} {ids : List FileId} {plan : List Placement}

/-- Between the two, the files of the plan have come in under these handles, in the plan's order,
and but for them and the directories on their ways nothing has changed. -/
structure Gains (ns ns' : Namespace) (ids : List FileId) (plan : List Placement) : Prop where
  retains : ns.Retains ns'
  nodup : ids.Nodup
  placed : List.Forall₂ ns'.Placed ids plan
  fresh : ∀ id ∈ ids, ns.file? id = none
  others : ∀ id, id ∉ ids → ns'.file? id = ns.file? id

theorem Gains.nil (ns : Namespace) : ns.Gains ns [] [] :=
  ⟨.refl ns, .nil, .nil, fun _ hid ↦ absurd hid List.not_mem_nil, fun _ _ ↦ rfl⟩

theorem Gains.length_eq (h : ns.Gains ns' ids plan) : ids.length = plan.length := h.placed.length_eq

end Namespace

namespace Image.Facts

variable (facts : Facts) (layout : Layout)

def bootFile (file : EmbeddedFile) : Placement :=
  ⟨Path.join layout.bootDir file.name, file.data, .bootFile⟩

/-- The files that a bootstrap makes from an image, in the order in which it makes them. -/
def plan : List Placement :=
  ⟨layout.sysPath, facts.sysData, .readOnly⟩ ::
    ⟨layout.devicesPath, facts.devicesData, .readOnly⟩ :: facts.files.map (bootFile layout)

def report : BootReport where
  version := facts.version
  arch := facts.arch
  machine := facts.machine
  ram := facts.ram
  devices := facts.devices.length
  bootFiles := facts.files.map fun file ↦ Path.join layout.bootDir file.name
  commands := facts.commands.map (·.arguments)

end Image.Facts

namespace Bootstrap

variable {image : BootImage} {facts : Facts} {layout : Layout} {ns ns' : Namespace}
variable {path : String} {data : Bytes} {access : Access} {e : BootstrapError}

/-- Makes the files one after the other, up to the first that is refused. -/
def placeEach (ns : Namespace) : List Placement → Except BootstrapError Unit × Namespace
  | [] => (.ok (), ns)
  | placement :: rest =>
    match place ns placement.path placement.data placement.access with
    | (.error e, ns) => (.error e, ns)
    | (.ok (), ns) => placeEach ns rest

attribute [local irreducible] place in
theorem placeEach_cons (ns : Namespace) (placement : Placement) (rest : List Placement) :
    placeEach ns (placement :: rest) =
      match place ns placement.path placement.data placement.access with
      | (.error e, ns) => (.error e, ns)
      | (.ok (), ns) => placeEach ns rest := rfl

/-- A plan that could be carried out has its first file created, and then the others. -/
theorem placeEach_cons_ok {placement : Placement} {rest : List Placement}
    (h : placeEach ns (placement :: rest) = (.ok (), ns')) : ∃ id ns₁,
      ns.createFile none placement.path placement.data placement.access = (.ok id, ns₁) ∧
      ns.Grows ns₁ ∧ placeEach ns₁ rest = (.ok (), ns') := by
  rw [placeEach_cons] at h
  split at h
  next => cases h
  next ns₁ heq =>
    have hgrown := place_grows ns placement.path placement.data placement.access
    rw [heq] at hgrown
    obtain ⟨id, hcreate⟩ := place_created heq
    exact ⟨id, ns₁, hcreate, hgrown, h⟩

theorem place_refused (h : place ns path data access = (.error e, ns')) :
    ∃ refusal, e = .refused refusal := by
  unfold place at h
  split at h
  next => cases h
  next refusal _ _ =>
    cases h
    exact ⟨refusal, rfl⟩

theorem placeEach_refused {plan : List Placement} (h : placeEach ns plan = (.error e, ns')) :
    ∃ refusal, e = .refused refusal := by
  induction plan generalizing ns with
  | nil => cases h
  | cons placement rest ih =>
    rw [placeEach_cons] at h
    split at h
    next heq =>
      cases h
      exact place_refused heq
    next => exact ih h

theorem placeEach_gains {plan : List Placement} (h : ns.WellFormed)
    (hplace : placeEach ns plan = (.ok (), ns')) : ∃ ids, ns.Gains ns' ids plan := by
  induction plan generalizing ns with
  | nil =>
    cases hplace
    exact ⟨[], .nil _⟩
  | cons placement rest ih =>
    obtain ⟨id, ns₁, hcreate, hgrown, hrest⟩ := placeEach_cons_ok hplace
    have hns₁ := hgrown.reaches.wellFormed h
    obtain ⟨hretains, hdead, hothers⟩ := createFile_retains h (by simp) hcreate
    have hplaced := createFile_placed h hcreate
    obtain ⟨ids, hgains⟩ := ih hns₁ hrest
    -- The first file is live when the others come in, so none of them takes its handle.
    have hfirst : id ∉ ids := by
      intro hmem
      obtain ⟨file, hfile, -⟩ := hplaced
      rw [hgains.fresh id hmem] at hfile
      cases hfile
    refine ⟨id :: ids, hretains.trans hgains.retains, List.nodup_cons.mpr ⟨hfirst, hgains.nodup⟩,
      .cons (hplaced.retained hns₁.files hgains.retains) hgains.placed, ?_, ?_⟩
    · intro other hother
      rcases List.mem_cons.mp hother with rfl | hmem
      · exact hdead
      · rw [← hothers other fun he ↦ hfirst (he ▸ hmem)]
        exact hgains.fresh other hmem
    · intro other hother
      rw [List.mem_cons, not_or] at hother
      rw [hgains.others other hother.2, hothers other hother.1]

section Populate

variable (h : image.Tells facts)
include h

theorem imageSysText_eq :
    imageSysText image = .ok (sysText facts.version facts.arch facts.machine facts.ram) := by
  rw [imageSysText, h.ram, h.version, h.arch, h.machine]
  rfl

theorem devicesText_eq :
    devicesText image = .ok (String.join (facts.devices.map deviceLine)) := by
  simp only [devicesText, h.deviceCount, mapM_of_forall₂ h.devices, bind, Except.bind, pure,
    Except.pure]

theorem report_eq : report image (facts.report layout).bootFiles = .ok (facts.report layout) := by
  simp only [report, h.commandCount, mapM_of_forall₂ h.commands, h.version, h.arch, h.machine,
    h.ram, h.deviceCount, Facts.report, bind, Except.bind, pure, Except.pure]

omit h in
theorem placeFiles_eq (ns : Namespace) {indices : List Nat} {files : List EmbeddedFile}
    (hfiles : List.Forall₂ (fun index file ↦ image.file index = .ok file) indices files) :
    placeFiles image layout.bootDir ns indices =
      match placeEach ns (files.map (Facts.bootFile layout)) with
      | (.error e, ns) => (.error e, ns)
      | (.ok (), ns) => (.ok (files.map fun file ↦ Path.join layout.bootDir file.name), ns) := by
  induction hfiles generalizing ns with
  | nil => rfl
  | @cons index file indices files hfile _ ih =>
    rw [placeFiles_cons, hfile, List.map_cons, placeEach_cons, Facts.bootFile]
    dsimp only
    rcases place ns (Path.join layout.bootDir file.name) file.data .bootFile with ⟨_ | _, ns₁⟩
    · rfl
    dsimp only
    rw [ih ns₁]
    rcases placeEach ns₁ (files.map (Facts.bootFile layout)) with ⟨_ | _, ns₂⟩
    · rfl
    · rfl

theorem placeAllFiles_eq (ns : Namespace) :
    placeAllFiles image layout.bootDir ns =
      match placeEach ns (facts.files.map (Facts.bootFile layout)) with
      | (.error e, ns) => (.error e, ns)
      | (.ok (), ns) => (.ok (facts.report layout).bootFiles, ns) := by
  rw [placeAllFiles, h.fileCount]
  exact placeFiles_eq ns h.files

/-- On an image that answers, a bootstrap only makes the files of its plan. -/
theorem populate_eq (layout : Layout) (ns : Namespace) :
    populate image layout ns =
      match placeEach ns (facts.plan layout) with
      | (.error e, ns) => (.error e, ns)
      | (.ok (), ns) => (.ok (facts.report layout), ns) := by
  rw [populate, imageSysText_eq h, devicesText_eq h, Facts.plan]
  simp only [placeEach_cons, placeText, facts.sysText_eq, facts.devicesText_eq]
  rcases place ns layout.sysPath _ .readOnly with ⟨_ | _, ns₁⟩
  · rfl
  dsimp only
  rcases place ns₁ layout.devicesPath _ .readOnly with ⟨_ | _, ns₂⟩
  · rfl
  dsimp only
  rw [placeAllFiles_eq h]
  rcases placeEach ns₂ (facts.files.map (Facts.bootFile layout)) with ⟨_ | _, ns₃⟩
  · rfl
  · dsimp only
    rw [report_eq h]

theorem populate_refused {layout : Layout} (hpop : (populate image layout ns).1 = .error e) :
    ∃ refusal, e = .refused refusal := by
  rw [populate_eq h] at hpop
  rcases hplace : placeEach ns (facts.plan layout) with ⟨_ | _, ns'⟩
  · rw [hplace] at hpop
    cases hpop
    exact placeEach_refused hplace
  · rw [hplace] at hpop
    cases hpop

end Populate

end Bootstrap

namespace Namespace

variable {σ : Type} [ImageSource σ] {source source' : σ} {image : BootImage} {blob : Bytes}
variable {header : Header} {e : ImageError} {layout : Layout} {ns : Namespace}

theorem bootstrap_of_mapped (ns : Namespace) (source : σ) (layout : Layout)
    (h : image.isMapped = true) :
    ns.bootstrap image source layout = ⟨.error (.badImage .alreadyMapped), ns, image, source⟩ := by
  rw [bootstrap, BootImage.load_of_mapped h]

theorem bootstrap_of_unavailable (ns : Namespace) (layout : Layout)
    (h : ImageSource.map source = (.error e, source')) :
    ns.bootstrap .unmapped source layout = ⟨.error (.badImage e), ns, .unmapped, source'⟩ := by
  rw [bootstrap, BootImage.load_of_error h]

theorem bootstrap_of_invalid (ns : Namespace) (layout : Layout)
    (h : ImageSource.map source = (.ok blob, source')) (hinvalid : validate blob = .error e) :
    ns.bootstrap .unmapped source layout = ⟨.error (.badImage e), ns, .unmapped, source'⟩ := by
  have hparse : (BootImage.mapped blob).parse = (.error e, .mapped blob) :=
    BootImage.parse_of_error rfl hinvalid
  simp only [bootstrap, BootImage.load_of_ok h, hparse]
  rfl

theorem bootstrap_of_valid (ns : Namespace) (layout : Layout)
    (h : ImageSource.map source = (.ok blob, source')) (hvalid : validate blob = .ok header) :
    ns.bootstrap .unmapped source layout =
      ⟨(Bootstrap.populate (.parsed blob header) layout ns).1,
        (Bootstrap.populate (.parsed blob header) layout ns).2, .unmapped, source'⟩ := by
  have hparse : (BootImage.mapped blob).parse = (.ok header, .parsed blob header) :=
    BootImage.parse_of_ok rfl hvalid
  simp only [bootstrap, BootImage.load_of_ok h, hparse]
  rfl

/-- The ways a bootstrap can go. Only on the last of them is the namespace touched. -/
theorem bootstrap_cases (ns : Namespace) (image : BootImage) (source : σ) (layout : Layout) :
    (image.isMapped = true ∧ ns.bootstrap image source layout =
      ⟨.error (.badImage .alreadyMapped), ns, image, source⟩) ∨
    (image = .unmapped ∧ ∃ e source', ns.bootstrap image source layout =
      ⟨.error (.badImage e), ns, .unmapped, source'⟩) ∨
    (image = .unmapped ∧ ∃ blob header facts source', ImageSource.map source = (.ok blob, source') ∧
      validate blob = .ok header ∧ (BootImage.parsed blob header).Tells facts ∧
      ns.bootstrap image source layout =
        ⟨(Bootstrap.populate (.parsed blob header) layout ns).1,
          (Bootstrap.populate (.parsed blob header) layout ns).2, .unmapped, source'⟩) := by
  cases hmapped : image.isMapped with
  | true => exact .inl ⟨rfl, bootstrap_of_mapped ns source layout hmapped⟩
  | false =>
    obtain rfl := BootImage.eq_unmapped hmapped
    refine .inr ?_
    rcases hmap : ImageSource.map source with ⟨e | blob, source'⟩
    · exact .inl ⟨rfl, e, source', bootstrap_of_unavailable ns layout hmap⟩
    cases hvalid : validate blob with
    | error e => exact .inl ⟨rfl, e, source', bootstrap_of_invalid ns layout hmap hvalid⟩
    | ok header =>
      obtain ⟨facts, htells⟩ := tells_of_validate hvalid
      exact .inr ⟨rfl, blob, header, facts, source', rfl, hvalid, htells,
        bootstrap_of_valid ns layout hmap hvalid⟩

/-- A bootstrap that succeeds has carried out the whole plan of what its image tells. -/
theorem bootstrap_places {report : BootReport}
    (hok : (ns.bootstrap .unmapped source layout).result = .ok report) :
    ∃ blob header facts, (ImageSource.map source).1 = .ok blob ∧ validate blob = .ok header ∧
      (BootImage.parsed blob header).Tells facts ∧
      Bootstrap.placeEach ns (facts.plan layout) =
        (.ok (), (ns.bootstrap .unmapped source layout).ns) ∧
      report = facts.report layout := by
  rcases bootstrap_cases ns .unmapped source layout with
    ⟨hmapped, -⟩ | ⟨-, _, _, heq⟩ | ⟨-, blob, header, facts, source', hmap, hvalid, htells, heq⟩
  · cases hmapped
  · rw [heq] at hok
    cases hok
  · rw [heq, Bootstrap.populate_eq htells] at hok ⊢
    rcases hplace : Bootstrap.placeEach ns (facts.plan layout) with ⟨_ | _, ns'⟩
    · rw [hplace] at hok
      cases hok
    · rw [hplace] at hok
      cases hok
      exact ⟨blob, header, facts, by rw [hmap], hvalid, htells, hplace, rfl⟩

theorem parse_tells {parsed : BootImage} (h : image.parse = (.ok header, parsed)) :
    ∃ facts, parsed.Tells facts := by
  obtain ⟨blob, hvalid, rfl⟩ :
      ∃ blob, validate blob = .ok header ∧ parsed = .parsed blob header := by
    cases image with
    | unmapped => cases h
    | mapped blob | parsed blob _ =>
      simp only [BootImage.parse] at h
      split at h
      next header' hvalid =>
        cases h
        exact ⟨blob, hvalid, rfl⟩
      next => cases h
  exact tells_of_validate hvalid

/-- A bootstrap that ends on the image has changed nothing, because nothing that it asks of a parsed
image fails; it lets go of the image that it mapped, and never touches one that was there before. -/
theorem bootstrap_bad_image (ns : Namespace) (image : BootImage) (source : σ) (layout : Layout) :
    (∀ e, (ns.bootstrap image source layout).result = .error (.badImage e) →
      (ns.bootstrap image source layout).ns = ns) ∧
    ((ns.bootstrap image source layout).ns ≠ ns → ∃ blob header source',
      ImageSource.map source = (.ok blob, source') ∧
        (BootImage.mapped blob).parse = (.ok header, .parsed blob header)) ∧
    (∀ (held parsed : BootImage) header, held.parse = (.ok header, parsed) →
      (∃ facts, parsed.Tells facts) ∧ ∀ (ns : Namespace) (layout : Layout) e,
        (Bootstrap.populate parsed layout ns).1 = .error e → ∃ refusal, e = .refused refusal) ∧
    (image.isMapped = false → (ns.bootstrap image source layout).image = .unmapped) ∧
    (image.isMapped = true → ns.bootstrap image source layout =
      ⟨.error (.badImage .alreadyMapped), ns, image, source⟩) := by
  have hparsed : ∀ (held parsed : BootImage) header, held.parse = (.ok header, parsed) →
      (∃ facts, parsed.Tells facts) ∧ ∀ (ns : Namespace) (layout : Layout) e,
        (Bootstrap.populate parsed layout ns).1 = .error e → ∃ refusal, e = .refused refusal := by
    intro held parsed header hparse
    obtain ⟨facts, htells⟩ := parse_tells hparse
    exact ⟨⟨facts, htells⟩, fun ns layout e herror ↦ Bootstrap.populate_refused htells herror⟩
  refine ⟨?_, ?_, hparsed, ?_, bootstrap_of_mapped ns source layout⟩
  · intro e herror
    rcases bootstrap_cases ns image source layout with
      ⟨-, heq⟩ | ⟨-, _, _, heq⟩ | ⟨-, blob, header, facts, source', -, -, htells, heq⟩
    · rw [heq]
    · rw [heq]
    · rw [heq] at herror
      obtain ⟨refusal, hrefusal⟩ := Bootstrap.populate_refused htells herror
      cases hrefusal
  · intro hchanged
    rcases bootstrap_cases ns image source layout with
      ⟨-, heq⟩ | ⟨-, _, _, heq⟩ | ⟨-, blob, header, facts, source', hmap, hvalid, -, -⟩
    · exact absurd (by rw [heq]) hchanged
    · exact absurd (by rw [heq]) hchanged
    · exact ⟨blob, header, source', hmap, by simp only [BootImage.parse, hvalid]⟩
  · intro hunmapped
    rcases bootstrap_cases ns image source layout with
      ⟨hmapped, -⟩ | ⟨-, _, _, heq⟩ | ⟨-, blob, header, facts, source', -, -, -, heq⟩
    · rw [hunmapped] at hmapped
      cases hmapped
    · rw [heq]
    · rw [heq]

theorem bad_magic_bootstrap :
    ((Namespace.empty 4096).bootstrap .unmapped (StoredImage.blob (List.replicate 60 0))
      .standard).result = .error (.badImage (.badMagic 0)) ∧
    ((Namespace.empty 4096).bootstrap .unmapped (StoredImage.blob (List.replicate 60 0))
      .standard).ns = Namespace.empty 4096 ∧
    ((Namespace.empty 4096).bootstrap .unmapped (StoredImage.blob (List.replicate 60 0))
      .standard).image = .unmapped ∧
    (Namespace.empty 4096).bootstrap (.mapped [7]) (StoredImage.missing .absent) .standard =
      ⟨.error (.badImage .alreadyMapped), .empty 4096, .mapped [7], .missing .absent⟩ := by
  have hbad : ((Namespace.empty 4096).bootstrap .unmapped
      (StoredImage.blob (List.replicate 60 0)) .standard).result =
      .error (.badImage (.badMagic 0)) := by
    decide +kernel
  obtain ⟨hkept, -, -, hreleased, -⟩ := bootstrap_bad_image (Namespace.empty 4096) .unmapped
    (StoredImage.blob (List.replicate 60 0)) .standard
  obtain ⟨-, -, -, -, hmapped⟩ := bootstrap_bad_image (Namespace.empty 4096) (.mapped [7])
    (StoredImage.missing .absent) .standard
  exact ⟨hbad, hkept _ hbad, hreleased rfl, hmapped rfl⟩

/-- A bootstrap that succeeds has copied the image: one file for each of its parts and no more. -/
theorem bootstrap_copies {report : BootReport} (h : ns.Reachable)
    (hok : (ns.bootstrap .unmapped source layout).result = .ok report) :
    ∃ blob header facts ids, (ImageSource.map source).1 = .ok blob ∧
      (BootImage.mapped blob).parse = (.ok header, .parsed blob header) ∧
      (BootImage.parsed blob header).Tells facts ∧
      ns.Gains (ns.bootstrap .unmapped source layout).ns ids (facts.plan layout) ∧
      ids.length = facts.files.length + 2 ∧ report = facts.report layout := by
  rcases bootstrap_cases ns .unmapped source layout with
    ⟨hmapped, -⟩ | ⟨-, _, _, heq⟩ | ⟨-, blob, header, facts, source', hmap, hvalid, htells, heq⟩
  · cases hmapped
  · rw [heq] at hok
    cases hok
  · rw [heq, Bootstrap.populate_eq htells] at hok ⊢
    rcases hplace : Bootstrap.placeEach ns (facts.plan layout) with ⟨_ | _, ns'⟩
    · rw [hplace] at hok
      cases hok
    · rw [hplace] at hok
      cases hok
      obtain ⟨ids, hgains⟩ := Bootstrap.placeEach_gains h.wellFormed hplace
      refine ⟨blob, header, facts, ids, by rw [hmap], by simp only [BootImage.parse, hvalid],
        htells, hgains, ?_, rfl⟩
      rw [hgains.length_eq, Facts.plan, List.length_cons, List.length_cons, List.length_map]

def bootSpec : ImageSpec :=
  { ImageSpec.new "1.0" "arm" "sunxi" with
    ram := ⟨0x40000000, 0x1000⟩
    devices := [⟨"uart0", 0x01C28000, 0x400⟩]
    files := [⟨"init", .exec, [1, 2, 3], none⟩, ⟨"/lib//c", .lib, [], none⟩]
    commands := [⟨"init", 2, 1, "-v"⟩] }

def bootedOver : Namespace :=
  ((Namespace.empty 4096).createFile none "/boot/lib/old" [7] .bootFile).2

def bootFacts : Facts where
  version := "1.0"
  arch := "arm"
  machine := "sunxi"
  ram := ⟨0x40000000, 0x1000⟩
  devices := [⟨"uart0", 0x01C28000, 0x400, 3⟩]
  files := [⟨"init", .exec, [1, 2, 3]⟩, ⟨"/lib//c", .lib, []⟩]
  commands := [⟨1, 2, 1, 0, "-v"⟩]

/-- The files that stand for these facts, with their bytes and the bits of their access. -/
def bootPlan : List Placement :=
  [⟨"/sys", Bytes.ofText "Version: 1.0\nArch: arm\nMach: sunxi\nRam Size: 0x1000\n", ⟨1⟩⟩,
    ⟨"/devices", Bytes.ofText "\x7b\"uart0\", @0x1c28000, 0x400\x7d\n", ⟨1⟩⟩,
    ⟨"/boot/init", [1, 2, 3], ⟨15⟩⟩, ⟨"/boot/lib//c", [], ⟨15⟩⟩]

theorem boot_image_copied : bootedOver.Reachable ∧
    (bootedOver.bootstrap .unmapped (StoredImage.blob bootSpec.build) .standard).result =
      .ok ⟨"1.0", "arm", "sunxi", ⟨0x40000000, 0x1000⟩, 1, ["/boot/init", "/boot/lib//c"], ["-v"]⟩ ∧
    ∃ blob header ids, (ImageSource.map (StoredImage.blob bootSpec.build)).1 = .ok blob ∧
      (BootImage.mapped blob).parse = (.ok header, .parsed blob header) ∧
      (BootImage.parsed blob header).Tells bootFacts ∧
      bootedOver.Gains
        (bootedOver.bootstrap .unmapped (StoredImage.blob bootSpec.build) .standard).ns ids
        bootPlan ∧
      ids.length = 4 ∧
      ⟨"1.0", "arm", "sunxi", ⟨0x40000000, 0x1000⟩, 1, ["/boot/init", "/boot/lib//c"], ["-v"]⟩ =
        bootFacts.report .standard := by
  have hreachable : bootedOver.Reachable := (Reachable.empty 4096).reaches
    (.one (.create none "/boot/lib/old" [7] .bootFile) (by simp [Change.Grounded]))
  have hok : (bootedOver.bootstrap .unmapped (StoredImage.blob bootSpec.build) .standard).result =
      .ok ⟨"1.0", "arm", "sunxi", ⟨0x40000000, 0x1000⟩, 1, ["/boot/init", "/boot/lib//c"],
        ["-v"]⟩ := by
    decide +kernel
  have htold : (BootImage.mapped bootSpec.build).parse.2.facts? = .ok bootFacts := by
    decide +kernel
  obtain ⟨blob, header, facts, ids, hblob, hparse, htells, hgains, hlength, hreport⟩ :=
    bootstrap_copies hreachable hok
  cases hblob
  rw [hparse, htells.facts?_eq] at htold
  cases htold
  have hplan : bootFacts.plan .standard = bootPlan := by decide +kernel
  rw [hplan] at hgains
  exact ⟨hreachable, hok, _, header, ids, rfl, hparse, htells, hgains, hlength, hreport⟩

end Namespace

end BootNamespace
