import BootNamespace.Proofs.Bootstrap.BootDir
import BootNamespace.Proofs.Namespace.Paths
import BootNamespace.Proofs.Service.Moves

namespace BootNamespace

open Image Namespace

namespace Bootstrap

variable {ns ns' : Namespace} {plan : List Placement}

/-- Every file of a plan that could be carried out stands at its path, with its bytes. -/
theorem placeEach_stands (h : ns.WellFormed) (hplace : placeEach ns plan = (.ok (), ns')) :
    ∀ placement ∈ plan, ∃ id file, ns'.StandsAt placement.path id file ∧
      file.data = placement.data := by
  induction plan generalizing ns with
  | nil => simp
  | cons placement rest ih =>
    obtain ⟨id, ns₁, hcreate, hgrown, hrest⟩ := placeEach_cons_ok hplace
    have hns₁ := hgrown.reaches.wellFormed h
    obtain ⟨file, hfile⟩ := StandsAt.of_getFile hns₁ (getFile_createFile h (by simp) hcreate)
    obtain ⟨file', hlive, hdata, -⟩ := createFile_placed h hcreate
    obtain ⟨ids, hgains⟩ := placeEach_gains hns₁ hrest
    cases hlive.symm.trans hfile.live
    rw [List.forall_mem_cons]
    exact ⟨⟨id, file, hfile.retained hns₁.files hgains.retains, hdata⟩, ih hns₁ hrest⟩

end Bootstrap

namespace Namespace

variable {σ : Type} [ImageSource σ] {source : σ} {layout : Layout} {ns : Namespace}
variable {path : String} {data : Bytes} {id : FileId} {file : FileNode}

/-- A file with these bytes stands at the path. -/
def Stores (ns : Namespace) (path : String) (data : Bytes) : Prop :=
  ∃ id file, ns.StandsAt path id file ∧ file.data = data

/-- The bytes of the file that is found under a path. -/
def contents? (ns : Namespace) (path : String) : Option Bytes :=
  ((ns.getFile none path).bind ns.file?).map (·.data.toList)

theorem contents?_of_getFile (hget : ns.getFile none path = some id)
    (hlive : ns.file? id = some file) : ns.contents? path = some file.data.toList := by
  rw [contents?, hget, Option.bind_some, hlive, Option.map_some]

/-- Whoever finds a file under the path finds that one. -/
theorem Stores.contents_eq {found : Bytes} (h : ns.Stores path data) (hns : ns.WellFormed)
    (hfound : ns.contents? path = some found) : found = data := by
  obtain ⟨stored, storedFile, hstands, hdata⟩ := h
  obtain ⟨file, hlive, rfl⟩ := Option.map_eq_some_iff.mp hfound
  obtain ⟨id, hget, hlive⟩ := Option.bind_eq_some_iff.mp hlive
  obtain ⟨other, hother⟩ := StandsAt.of_getFile hns hget
  obtain rfl := hstands.unique hns hother
  cases hlive.symm.trans hstands.live
  rw [hdata, Buffer.toList_ofList]

theorem Stores.noNul (h : ns.Stores path data) (hns : ns.WellFormed) : '\x00' ∉ path.toList := by
  obtain ⟨stored, storedFile, hstands, -⟩ := h
  exact hstands.noNul hns

/-- After a bootstrap the two summaries of what the image tells stand at their paths. -/
theorem bootstrap_summaries {report : BootReport} (h : ns.WellFormed)
    (hok : (ns.bootstrap .unmapped source layout).result = .ok report) :
    ∃ blob header facts, (ImageSource.map source).1 = .ok blob ∧ validate blob = .ok header ∧
      (BootImage.parsed blob header).Tells facts ∧
      (ns.bootstrap .unmapped source layout).ns.Stores layout.sysPath facts.sysData ∧
      (ns.bootstrap .unmapped source layout).ns.Stores layout.devicesPath facts.devicesData := by
  obtain ⟨blob, header, facts, hblob, hvalid, htells, hplace, -⟩ := bootstrap_places hok
  have hstands := Bootstrap.placeEach_stands h hplace
  exact ⟨blob, header, facts, hblob, hvalid, htells, hstands _ List.mem_cons_self,
    hstands _ (List.mem_cons_of_mem _ List.mem_cons_self)⟩

end Namespace

theorem Service.bootstrap_summaries {τ σ : Type} [ImageSource τ] {source : τ} {share : σ}
    {config : ServerConfig} {report : BootReport} {s : Service σ}
    (hboot : (Service.new config share).bootstrap source = (.ok report, s)) :
    ∃ blob header facts, (ImageSource.map source).1 = .ok blob ∧ validate blob = .ok header ∧
      (BootImage.parsed blob header).Tells facts ∧
      s.ns.Stores config.sysPath facts.sysData ∧
      s.ns.Stores config.devicesPath facts.devicesData := by
  have hresult := bootstrap_result (new config share) source
  have hns := bootstrap_ns (new config share) source
  rw [hboot] at hresult hns
  have hempty := (fresh_new config share).reachable.wellFormed
  obtain ⟨blob, header, facts, hblob, hheader, htells, hsys, hdevices⟩ :=
    Namespace.bootstrap_summaries hempty hresult.symm
  exact ⟨blob, header, facts, hblob, hheader, htells, hns ▸ hsys, hns ▸ hdevices⟩

end BootNamespace
