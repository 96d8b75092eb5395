import BootNamespace.Proofs.Bootstrap.Copy
import BootNamespace.Proofs.Namespace.Naming

namespace BootNamespace

open Image Namespace

namespace Namespace

variable {ns ns' : Namespace} {target : List String} {path : String} {data : Bytes}
variable {access : Access} {id : FileId}

theorem leadsTo_empty_iff (pageSize : Nat) :
    (∃ d, (Namespace.empty pageSize).LeadsTo target d) ↔ target = [] := by
  have hns := (WellFormed.empty pageSize).dirs
  constructor
  · rintro ⟨d, hd⟩
    have hroot : d = .root := index_inj.mp (Nat.lt_one_iff.mp hd.lt)
    rw [← hd.dirPath, hroot, dirPath_root hns]
  · rintro rfl
    exact ⟨.root, (leadsTo_nil_iff hns).mpr rfl⟩

theorem checkCreatable_of_createFile (hcreate : ns.createFile none path data access = (.ok id, ns')) :
    Path.checkCreatable path = .ok () := by
  have hends := ns.createFile_ends none path data access
  rw [hcreate] at hends
  cases hends with
  | done hsite => exact checkCreatable_of_site hsite

end Namespace

namespace Bootstrap

variable {ns ns' : Namespace} {plan : List Placement} {target : List String} {layout : Layout}
variable {facts : Facts}

/-- Where all files of a plan could be made, names lead to a directory if they did before, or if they
are on the way to one of the files. -/
theorem exists_leadsTo_placeEach (h : ns.WellFormed)
    (hplace : placeEach ns plan = (.ok (), ns')) :
    (∃ d, ns'.LeadsTo target d) ↔ (∃ d, ns.LeadsTo target d) ∨
      ∃ placement ∈ plan, target <+: (Path.segments placement.path).dropLast := by
  induction plan generalizing ns with
  | nil =>
    cases hplace
    simp
  | cons placement rest ih =>
    obtain ⟨id, ns₁, hcreate, hgrown, hrest⟩ := placeEach_cons_ok hplace
    rw [ih (hgrown.reaches.wellFormed h) hrest, exists_leadsTo_createFile h hcreate, or_assoc,
      List.exists_mem_cons_iff]

/-- Every path of a plan that could be carried out is one that a file can be created under. -/
theorem checkCreatable_of_placeEach (hplace : placeEach ns plan = (.ok (), ns')) :
    ∀ placement ∈ plan, Path.checkCreatable placement.path = .ok () := by
  induction plan generalizing ns with
  | nil => simp
  | cons placement rest ih =>
    obtain ⟨id, ns₁, hcreate, -, hrest⟩ := placeEach_cons_ok hplace
    rw [List.forall_mem_cons]
    exact ⟨checkCreatable_of_createFile hcreate, ih hrest⟩

end Bootstrap

/-- A directory for the embedded files is made with the first of them, or on the way to one of the two
summaries. Nothing else makes it. -/
def Layout.MakesBootDir (layout : Layout) (report : BootReport) : Prop :=
  report.bootFiles ≠ [] ∨ ∃ path ∈ [layout.sysPath, layout.devicesPath],
    Path.segments layout.bootDir <+: (Path.segments path).dropLast

namespace Image.Facts

variable {ns ns' : Namespace} {layout : Layout} {facts : Facts}

theorem bootDir_on_way {file : EmbeddedFile}
    (h : Path.checkCreatable (bootFile layout file).path = .ok ()) :
    Path.segments layout.bootDir <+:
      (Path.segments (bootFile layout file).path).dropLast := by
  have hname := Path.segments_ne_nil_of_join h
  rw [bootFile, Path.segments_join, List.dropLast_append_of_ne_nil hname]
  exact List.prefix_append _ _

theorem plan_makesBootDir_iff (hplace : Bootstrap.placeEach ns (facts.plan layout) = (.ok (), ns')) :
    (∃ placement ∈ facts.plan layout,
      Path.segments layout.bootDir <+: (Path.segments placement.path).dropLast) ↔
      layout.MakesBootDir (facts.report layout) := by
  have hcreatable := Bootstrap.checkCreatable_of_placeEach hplace
  have hfiles : (∃ placement ∈ facts.files.map (bootFile layout),
      Path.segments layout.bootDir <+: (Path.segments placement.path).dropLast) ↔
        (facts.report layout).bootFiles ≠ [] := by
    rw [report, Ne, List.map_eq_nil_iff]
    constructor
    · rintro ⟨placement, hmem, -⟩ hnil
      rw [hnil] at hmem
      cases hmem
    · intro hne
      obtain ⟨file, hfile⟩ := List.exists_mem_of_ne_nil _ hne
      have hmem := List.mem_map_of_mem (f := bootFile layout) hfile
      refine ⟨_, hmem, bootDir_on_way (hcreatable _ ?_)⟩
      exact List.mem_cons_of_mem _ (List.mem_cons_of_mem _ hmem)
  rw [Layout.MakesBootDir, plan, List.exists_mem_cons_iff, List.exists_mem_cons_iff, hfiles,
    ← or_assoc, or_comm]
  simp

end Image.Facts

namespace Namespace

variable {σ : Type} [ImageSource σ] {source : σ} {layout : Layout} {report : BootReport}
variable {pageSize : Nat}

/-- After a bootstrap the directory for the embedded files is there only if something made it. -/
theorem lookupDir_bootDir_iff
    (hok : ((empty pageSize).bootstrap .unmapped source layout).result = .ok report) :
    (∃ d, ((empty pageSize).bootstrap .unmapped source layout).ns.lookupDir none layout.bootDir =
      .ok d) ↔ layout.MakesBootDir report := by
  have hempty := WellFormed.empty pageSize
  have hreaches := bootstrap_reaches (empty pageSize) .unmapped source layout
  simp only [lookupDir_eq_ok_iff (hreaches.wellFormed hempty).dirs]
  obtain ⟨blob, header, facts, -, -, -, hplace, rfl⟩ := bootstrap_places hok
  rw [Bootstrap.exists_leadsTo_placeEach hempty hplace, leadsTo_empty_iff,
    Facts.plan_makesBootDir_iff hplace]
  refine or_iff_right_of_imp fun hroot ↦ .inr ⟨layout.sysPath, List.mem_cons_self, ?_⟩
  rw [hroot]
  exact List.nil_prefix

end Namespace

end BootNamespace
