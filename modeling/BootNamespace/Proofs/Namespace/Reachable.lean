import BootNamespace.Proofs.Namespace.Content
import BootNamespace.Proofs.Namespace.Create

namespace BootNamespace

/-- What a namespace can be asked to do. -/
inductive Change where
  | create (cwd : Option DirId) (path : String) (data : Bytes) (access : Access)
  | delete (id : FileId)
  | openFile (id : FileId) (mode : OpenMode)
  | closeFile (id : FileId)
  | writeAt (id : FileId) (offset : UInt64) (bytes : Buffer)
  | truncate (id : FileId) (size : UInt64)

/-- A file is created from a directory that exists. -/
def Change.Grounded (ns : Namespace) : Change → Prop
  | .create cwd _ _ _ => ∀ d ∈ cwd, d.index < ns.dirCount
  | .delete _ | .openFile _ _ | .closeFile _ | .writeAt _ _ _ | .truncate _ _ => True

namespace Namespace

variable {ns ns' ns'' : Namespace} {id other : FileId} {old file : FileNode}

/-- The namespace after a change, successful or refused. -/
def perform (ns : Namespace) : Change → Namespace
  | .create cwd path data access => (ns.createFile cwd path data access).2
  | .delete id => (ns.deleteFile id).2
  | .openFile id mode => (ns.openFile id mode).2
  | .closeFile id => (ns.closeFile id).2
  | .writeAt id offset bytes => (ns.writeAt id offset bytes).2
  | .truncate id size => (ns.truncate id size).2

/-- At most one file has changed, in its content or its counters. -/
inductive Touched (ns : Namespace) (id : FileId) : Namespace → Prop
  | same : Touched ns id ns
  | put {old file : FileNode} (h : ns.file? id = some old) (hname : file.name = old.name)
      (howner : file.owner = old.owner) (haccess : file.access = old.access) :
      Touched ns id (ns.putFile id file)

theorem openFile_touched (ns : Namespace) (id : FileId) (mode : OpenMode) :
    ns.Touched id (ns.openFile id mode).2 := by
  rcases openFile_cases ns id mode with ⟨e, heq⟩ | ⟨old, hold, -, -, heq⟩
  · exact heq ▸ .same
  · exact heq ▸ .put hold rfl rfl rfl

theorem closeFile_touched (ns : Namespace) (id : FileId) : ns.Touched id (ns.closeFile id).2 := by
  rcases closeFile_cases ns id with ⟨-, heq⟩ | ⟨old, -, -, heq⟩ | ⟨old, hold, -, heq⟩
  · exact heq ▸ .same
  · exact heq ▸ .same
  · exact heq ▸ .put hold rfl rfl rfl

theorem writeAt_touched (ns : Namespace) (id : FileId) (offset : UInt64) (bytes : Buffer) :
    ns.Touched id (ns.writeAt id offset bytes).2 := by
  rcases writeAt_cases ns id offset bytes with ⟨-, heq⟩ | ⟨old, hold, heq⟩
  · exact heq ▸ .same
  · exact heq ▸ .put hold rfl rfl rfl

theorem truncate_touched (ns : Namespace) (id : FileId) (size : UInt64) :
    ns.Touched id (ns.truncate id size).2 := by
  rcases truncate_cases ns id size with
    ⟨-, heq⟩ | ⟨old, e, -, heq, -⟩ | ⟨old, length, hold, -, -, -, -, heq⟩
  · exact heq ▸ .same
  · exact heq ▸ .same
  · exact heq ▸ .put hold rfl rfl rfl

theorem Touched.wellFormed (h : ns.WellFormed) (ht : ns.Touched id ns') : ns'.WellFormed := by
  cases ht with
  | same => exact h
  | put hold hname howner haccess =>
    exact ⟨h.dirs.congr fun _ ↦ rfl, h.files.putFile hold hname howner, h.slots.putFile hold⟩

theorem links_withoutFile (id : FileId) (owner d : DirId) :
    ((ns.withoutFile id owner).dir? d).map DirNode.links = (ns.dir? d).map DirNode.links := by
  rw [dir?_withoutFile]
  split
  · rw [Option.map_map]
    rfl
  · rfl

theorem WellFormed.deleteFile (h : ns.WellFormed) (id : FileId) :
    (ns.deleteFile id).2.WellFormed := by
  cases hfile : ns.file? id with
  | none =>
    rw [deleteFile_eq_notFound hfile]
    exact h
  | some file =>
    rw [deleteFile_eq hfile]
    split
    · exact h
    · exact ⟨h.dirs.congr (links_withoutFile id file.owner), h.files.withoutFile hfile,
        h.slots.withoutFile hfile _⟩

theorem createFile_pageSize (ns : Namespace) (cwd : Option DirId) (path : String) (data : Bytes)
    (access : Access) : (ns.createFile cwd path data access).2.pageSize = ns.pageSize := by
  have hends := ns.createFile_ends cwd path data access
  generalize ns.createFile cwd path data access = ended at hends ⊢
  cases hends with
  | refused => rfl
  | tooLong => rfl
  | full _ _ hdirs halloc =>
    have hmid := congrArg pageSize (addDirs_frame hdirs)
    exact (congrArg pageSize (allocate_frame halloc)).trans hmid
  | done _ _ hdirs halloc =>
    have hmid := congrArg pageSize (addDirs_frame hdirs)
    exact (congrArg pageSize (allocate_frame halloc)).trans hmid

theorem Touched.pageSize (h : ns.Touched id ns') : ns'.pageSize = ns.pageSize := by
  cases h with
  | same => rfl
  | put => rfl

/-- No change turns the page size into another. -/
theorem perform_pageSize (ns : Namespace) (change : Change) :
    (ns.perform change).pageSize = ns.pageSize := by
  cases change with
  | create cwd path data access => exact ns.createFile_pageSize cwd path data access
  | delete id =>
    cases hfile : ns.file? id with
    | none => rw [perform, deleteFile_eq_notFound hfile]
    | some file =>
      rw [perform, deleteFile_eq hfile]
      split
      · rfl
      · rfl
  | openFile id mode => exact (openFile_touched ns id mode).pageSize
  | closeFile id => exact (closeFile_touched ns id).pageSize
  | writeAt id offset bytes => exact (writeAt_touched ns id offset bytes).pageSize
  | truncate id size => exact (truncate_touched ns id size).pageSize

theorem WellFormed.perform (h : ns.WellFormed) {change : Change} (hc : change.Grounded ns) :
    (ns.perform change).WellFormed := by
  cases change with
  | create cwd path data access => exact h.createFile hc path data access
  | delete id => exact h.deleteFile id
  | openFile id mode => exact (openFile_touched ns id mode).wellFormed h
  | closeFile id => exact (closeFile_touched ns id).wellFormed h
  | writeAt id offset bytes => exact (writeAt_touched ns id offset bytes).wellFormed h
  | truncate id size => exact (truncate_touched ns id size).wellFormed h

inductive Run : Namespace → List Change → Namespace → Prop
  | nil (ns : Namespace) : Run ns [] ns
  | cons {ns ns' : Namespace} {change : Change} {changes : List Change}
      (hc : change.Grounded ns) (h : Run (ns.perform change) changes ns') :
      Run ns (change :: changes) ns'

def Reaches (ns ns' : Namespace) : Prop := ∃ changes, ns.Run changes ns'

/-- Some changes lead here from a namespace with only the root. -/
def Reachable (ns : Namespace) : Prop := ∃ pageSize, (empty pageSize).Reaches ns

theorem Run.append {changes more : List Change} (h : ns.Run changes ns') (k : ns'.Run more ns'') :
    ns.Run (changes ++ more) ns'' := by
  induction h with
  | nil => exact k
  | cons hc h ih => exact .cons hc (ih k)

theorem Run.wellFormed {changes : List Change} (h : ns.Run changes ns') (hns : ns.WellFormed) :
    ns'.WellFormed := by
  induction h with
  | nil => exact hns
  | cons hc h ih => exact ih (hns.perform hc)

theorem Reaches.refl (ns : Namespace) : ns.Reaches ns := ⟨[], .nil ns⟩

theorem Reaches.one (change : Change) (hc : change.Grounded ns) : ns.Reaches (ns.perform change) :=
  ⟨[change], .cons hc (.nil _)⟩

theorem Reaches.trans (h : ns.Reaches ns') (k : ns'.Reaches ns'') : ns.Reaches ns'' := by
  obtain ⟨changes, h⟩ := h
  obtain ⟨more, k⟩ := k
  exact ⟨changes ++ more, h.append k⟩

theorem Reaches.pageSize (h : ns.Reaches ns') : ns'.pageSize = ns.pageSize := by
  obtain ⟨changes, h⟩ := h
  induction h with
  | nil => rfl
  | cons _ _ ih => exact ih.trans (perform_pageSize _ _)

theorem Reaches.wellFormed (h : ns.Reaches ns') (hns : ns.WellFormed) : ns'.WellFormed := by
  obtain ⟨changes, h⟩ := h
  exact h.wellFormed hns

theorem Reachable.empty (pageSize : Nat) : (Namespace.empty pageSize).Reachable :=
  ⟨pageSize, .refl _⟩

theorem Reachable.reaches (h : ns.Reachable) (k : ns.Reaches ns') : ns'.Reachable := by
  obtain ⟨pageSize, h⟩ := h
  exact ⟨pageSize, h.trans k⟩

theorem Reachable.wellFormed (h : ns.Reachable) : ns.WellFormed := by
  obtain ⟨pageSize, changes, h⟩ := h
  exact h.wellFormed (.empty pageSize)

end Namespace

end BootNamespace
