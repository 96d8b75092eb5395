import BootNamespace.Bootstrap
import BootNamespace.Proofs.Namespace.Preserves

namespace BootNamespace

open Image

namespace Namespace

variable {ns ns' ns'' : Namespace}

/-- Reached by creating files under the root, one after the other, whether that works or not. -/
inductive Grows (ns : Namespace) : Namespace → Prop
  | refl : ns.Grows ns
  | create {ns' : Namespace} (h : ns.Grows ns') (path : String) (data : Bytes) (access : Access) :
      ns.Grows (ns'.createFile none path data access).2

theorem Grows.trans (h : ns.Grows ns') (k : ns'.Grows ns'') : ns.Grows ns'' := by
  induction k with
  | refl => exact h
  | create _ path data access ih => exact .create ih path data access

theorem Grows.reaches (h : ns.Grows ns') : ns.Reaches ns' := by
  induction h with
  | refl => exact .refl ns
  | create _ path data access ih =>
    exact ih.trans (.one (.create none path data access) (by simp [Change.Grounded]))

theorem Grows.preserves (h : ns.Grows ns') (hns : ns.WellFormed) : ns.Preserves ns' := by
  induction h with
  | refl => exact .refl ns
  | @create ns' h path data access ih =>
    have hcwd : ∀ d ∈ (none : Option DirId), d.index < ns'.dirs.size := by simp
    exact ih.trans (createFile_preserves (h.reaches.wellFormed hns) hcwd path data access)

end Namespace

namespace Bootstrap

variable (image : BootImage)

theorem place_grows (ns : Namespace) (path : String) (data : Bytes) (access : Access) :
    ns.Grows (place ns path data access).2 := by
  have h : ns.Grows (ns.createFile none path data access).2 := .create .refl path data access
  unfold place
  split
  next heq => rwa [heq] at h
  next heq => rwa [heq] at h

theorem placeText_grows (ns : Namespace) (path : String) (text : Except ImageError String) :
    ns.Grows (placeText ns path text).2 := by
  cases text with
  | error e => exact .refl
  | ok text => exact place_grows ns path _ _

-- A creation is not to be looked into when the two sides are compared.
attribute [local irreducible] place in
theorem placeFiles_cons (dir : String) (ns : Namespace) (index : Nat) (rest : List Nat) :
    placeFiles image dir ns (index :: rest) =
      match image.file index with
      | .error e => (.error (.badImage e), ns)
      | .ok file =>
        match place ns (Path.join dir file.name) file.data .bootFile with
        | (.error e, ns) => (.error e, ns)
        | (.ok (), ns) =>
          match placeFiles image dir ns rest with
          | (.error e, ns) => (.error e, ns)
          | (.ok paths, ns) => (.ok (Path.join dir file.name :: paths), ns) := rfl

theorem placeFiles_grows (dir : String) (ns : Namespace) (indices : List Nat) :
    ns.Grows (placeFiles image dir ns indices).2 := by
  induction indices generalizing ns with
  | nil => exact .refl
  | cons index rest ih =>
    rw [placeFiles_cons]
    split
    next => exact .refl
    next file _ =>
      have hplace := place_grows ns (Path.join dir file.name) file.data .bootFile
      split
      next heq => rwa [heq] at hplace
      next ns' heq =>
        rw [heq] at hplace
        have hrest := hplace.trans (ih ns')
        split
        next heq' => rwa [heq'] at hrest
        next heq' => rwa [heq'] at hrest

theorem placeAllFiles_grows (dir : String) (ns : Namespace) :
    ns.Grows (placeAllFiles image dir ns).2 := by
  unfold placeAllFiles
  split
  next => exact .refl
  next count _ => exact placeFiles_grows image dir ns _

theorem populate_grows (layout : Layout) (ns : Namespace) :
    ns.Grows (populate image layout ns).2 := by
  have hsys := placeText_grows ns layout.sysPath (imageSysText image)
  unfold populate
  split
  next heq => rwa [heq] at hsys
  next ns₁ heq =>
    rw [heq] at hsys
    have hdevices := hsys.trans (placeText_grows ns₁ layout.devicesPath (devicesText image))
    split
    next heq => rwa [heq] at hdevices
    next ns₂ heq =>
      rw [heq] at hdevices
      have hfiles := hdevices.trans (placeAllFiles_grows image layout.bootDir ns₂)
      split
      next heq => rwa [heq] at hfiles
      next heq =>
        rw [heq] at hfiles
        split
        · exact hfiles
        · exact hfiles

/-- On the way from `ns` to `ns'` a file is made from a text, to be read only, and then left alone. -/
def Published (ns ns' : Namespace) (path : String) (id : FileId) (text : Bytes) : Prop :=
  ∃ before after, ns.Reaches before ∧ before.createFile none path text .readOnly = (.ok id, after) ∧
    after.Reaches ns' ∧ after.Preserves ns'

theorem place_created {ns ns' : Namespace} {path : String} {data : Bytes} {access : Access}
    (h : place ns path data access = (.ok (), ns')) :
    ∃ id, ns.createFile none path data access = (.ok id, ns') := by
  unfold place at h
  split at h
  next id ns₁ heq =>
    cases h
    exact ⟨id, heq⟩
  next => cases h

theorem placeText_ok {ns ns' : Namespace} {path : String} {text : Except ImageError String}
    (h : placeText ns path text = (.ok (), ns')) :
    ∃ id data, ns.createFile none path data .readOnly = (.ok id, ns') := by
  cases text with
  | error e => cases h
  | ok text =>
    obtain ⟨id, hcreate⟩ := place_created h
    exact ⟨id, _, hcreate⟩

theorem populate_published {layout : Layout} {ns ns' : Namespace} {report : BootReport}
    (h : ns.WellFormed) (hok : populate image layout ns = (.ok report, ns')) :
    ∀ path ∈ [layout.sysPath, layout.devicesPath], ∃ id text, Published ns ns' path id text := by
  unfold populate at hok
  split at hok
  · cases hok
  next ns₁ hsys =>
    split at hok
    · cases hok
    next ns₂ hdevices =>
      split at hok
      · cases hok
      next paths ns₃ hfiles =>
        split at hok
        · cases hok
        · cases hok
          have hgrown₁ := placeText_grows ns layout.sysPath (imageSysText image)
          have hgrown₂ := placeText_grows ns₁ layout.devicesPath (devicesText image)
          have hgrown₃ := placeAllFiles_grows image layout.bootDir ns₂
          rw [hsys] at hgrown₁
          rw [hdevices] at hgrown₂
          rw [hfiles] at hgrown₃
          have hns₁ := hgrown₁.reaches.wellFormed h
          have hns₂ := hgrown₂.reaches.wellFormed hns₁
          have hrest := hgrown₂.trans hgrown₃
          obtain ⟨sys, sysText, hsys⟩ := placeText_ok hsys
          obtain ⟨devices, devicesText, hdevices⟩ := placeText_ok hdevices
          intro path hpath
          simp only [List.mem_cons, List.not_mem_nil, or_false] at hpath
          rcases hpath with rfl | rfl
          · exact ⟨sys, sysText, ns, ns₁, .refl ns, hsys, hrest.reaches, hrest.preserves hns₁⟩
          · exact ⟨devices, devicesText, ns₁, ns₂, hgrown₁.reaches, hdevices, hgrown₃.reaches,
              hgrown₃.preserves hns₂⟩

end Bootstrap

theorem Namespace.bootstrap_published {τ : Type} [ImageSource τ] {ns : Namespace}
    (h : ns.WellFormed) {image : BootImage} {source : τ} {layout : Layout} {report : BootReport}
    (hok : (ns.bootstrap image source layout).result = .ok report) :
    ∀ path ∈ [layout.sysPath, layout.devicesPath], ∃ id text,
      Bootstrap.Published ns (ns.bootstrap image source layout).ns path id text := by
  simp only [Namespace.bootstrap] at hok ⊢
  split at hok
  next => cases hok
  next image' source' _ =>
    split at hok
    next => cases hok
    next parsed _ =>
      rcases hpopulate : Bootstrap.populate parsed layout ns with ⟨result, ns'⟩
      rw [hpopulate] at hok
      cases hok
      exact Bootstrap.populate_published parsed h hpopulate

theorem Namespace.bootstrap_reaches {τ : Type} [ImageSource τ] (ns : Namespace) (image : BootImage)
    (source : τ) (layout : Layout) : ns.Reaches (ns.bootstrap image source layout).ns := by
  simp only [Namespace.bootstrap]
  split
  next => exact .refl ns
  next image' source' _ =>
    split
    next => exact .refl ns
    next parsed _ => exact (Bootstrap.populate_grows parsed layout ns).reaches

end BootNamespace
