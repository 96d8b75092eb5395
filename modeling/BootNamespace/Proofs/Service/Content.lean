import BootNamespace.Image.Spec
import BootNamespace.Proofs.Namespace.Preserves
import BootNamespace.Proofs.Service.Sound

namespace BootNamespace

open Image

theorem Access.contains_of_union {a b c : Access} (h : a.contains (b ||| c)) : a.contains c := by
  have hunion : a.bits &&& (b.bits ||| c.bits) = b.bits ||| c.bits := eq_of_beq h
  have habsorb : (b.bits ||| c.bits) &&& c.bits = c.bits := by
    apply UInt16.toBitVec_inj.mp
    rw [UInt16.toBitVec_and, UInt16.toBitVec_or]
    ext i hi
    simp only [BitVec.getElem_and, BitVec.getElem_or]
    cases b.bits.toBitVec[i] <;> cases c.bits.toBitVec[i] <;> rfl
  have hc : a.bits &&& c.bits = c.bits := by
    calc a.bits &&& c.bits = a.bits &&& ((b.bits ||| c.bits) &&& c.bits) := by rw [habsorb]
      _ = (a.bits &&& (b.bits ||| c.bits)) &&& c.bits := (UInt16.and_assoc _ _ _).symm
      _ = c.bits := by rw [hunion, habsorb]
  exact beq_iff_eq.mpr hc

theorem OpenMode.contains_write {mode : OpenMode} {a : Access} (hmode : mode.canWrite)
    (h : a.contains mode.required) : a.contains .write := by
  cases mode with
  | readOnly => cases hmode
  | writeOnly => exact h
  | readWrite => exact Access.contains_of_union h

namespace Service

variable {σ : Type} {s : Service σ} {m : Message} {conn : Connection} {id : FileId}
variable {mode : OpenMode} {old : FileNode} {held : FileId → Nat}

/-- What an event can do to the files that were there: to one of them, in one of two ways. -/
inductive FileStep (s : Service σ) : Event → Namespace → Prop
  | kept {event : Event} {ns' : Namespace} (h : s.ns.Preserves ns') : FileStep s event ns'
  | written {m : Message} {conn : Connection} {id : FileId} {mode : OpenMode} {old : FileNode}
      (hop : m.header.operation = some .write)
      (hbound : s.boundConnection m.session = .ok (conn, id, mode)) (hmode : mode.canWrite)
      (hold : s.ns.file? id = some old) :
      FileStep s (.io m) (s.ns.putFile id
        { old with data := old.data.overwrite conn.cursor.toNat m.payload })
  | resized {m : Message} {conn : Connection} {id : FileId} {mode : OpenMode} {old : FileNode}
      {length : Nat} (hop : m.header.operation = some .truncate)
      (hbound : s.boundConnection m.session = .ok (conn, id, mode))
      (hold : s.ns.file? id = some old) (hmap : old.access.contains .map)
      (hok : (s.truncate m).1 = .ok .ok) :
      FileStep s (.io m) (s.ns.putFile id { old with
        data := old.data.resize length
        bufferGeneration := old.bufferGeneration + 1 })

theorem FileStep.refl (s : Service σ) (event : Event) : s.FileStep event s.ns := .kept (.refl s.ns)

theorem read_ns (s : Service σ) (m : Message) : (s.read m).2.ns = s.ns := by
  rcases read_cases s m with ⟨e, heq⟩ | ⟨conn, id, mode, data, -, -, -, heq⟩
  · rw [heq]
  · rw [heq]
    rfl

theorem seek_ns (s : Service σ) (m : Message) : (s.seek m).2.ns = s.ns := by
  rcases seek_cases s m with ⟨e, heq⟩ | ⟨conn, id, mode, _, _, cursor, -, -, -, -, heq⟩
  · rw [heq]
  · rw [heq]
    rfl

theorem list_ns (s : Service σ) (m : Message) : (s.list m).2.ns = s.ns := by
  rw [list_unchanged]

theorem openFile_preserves (h : s.ns.WellFormed) (m : Message) :
    s.ns.Preserves (s.openFile m).2.ns := by
  have hcwd : ∀ d ∈ (none : Option DirId), d.index < s.ns.dirs.size := by simp
  have hcreated (path : String) := Namespace.createFile_preserves h hcwd path [] .created
  rcases openFile_cases h m with ⟨e, heq⟩ | ⟨path, e, ns', -, hcreate, heq⟩ |
    ⟨conn, path, mode, id, ns₁, ns₂, -, -, -, -, -, hwhere, hopen, heq⟩
  · rw [heq]
    exact .refl s.ns
  · have hkept := hcreated path
    rw [hcreate] at hkept
    rw [heq]
    exact hkept
  · have hopened := Namespace.openFile_preserves ns₁ id mode
    rw [hopen] at hopened
    rw [heq]
    rcases hwhere with ⟨-, rfl⟩ | ⟨-, -, hcreate⟩
    · exact hopened
    · have hkept := hcreated path
      rw [hcreate] at hkept
      exact hkept.trans hopened

theorem write_fileStep (s : Service σ) (hop : m.header.operation = some .write) :
    s.FileStep (.io m) (s.write m).2.ns := by
  rcases write_cases s m with ⟨e, heq⟩ | ⟨conn, id, mode, count, ns', hbound, hmode, hwrite, heq⟩
  · rw [heq]
    exact .refl s _
  · rw [heq]
    rcases Namespace.writeAt_cases s.ns id conn.cursor m.payload with ⟨-, hat⟩ | ⟨old, hold, hat⟩
    · rw [hwrite] at hat
      cases hat
    · rw [hwrite] at hat
      cases hat
      exact .written hop hbound hmode hold

theorem truncate_fileStep (s : Service σ) (hop : m.header.operation = some .truncate) :
    s.FileStep (.io m) (s.truncate m).2.ns := by
  rcases truncate_cases s m with
    ⟨e, heq⟩ | ⟨conn, id, mode, size, length, ns', hbound, -, -, htruncate, heq⟩
  · rw [heq]
    exact .refl s _
  · have hok : (s.truncate m).1 = .ok .ok := by rw [heq]
    rw [heq]
    rcases Namespace.truncate_cases s.ns id size with
      ⟨-, hat⟩ | ⟨old, e, -, hat, -⟩ | ⟨old, length', hold, hmap, -, -, -, hat⟩
    · rw [htruncate] at hat
      cases hat
    · rw [htruncate] at hat
      cases hat
    · rw [htruncate] at hat
      cases hat
      exact .resized hop hbound hold hmap hok

theorem Sound.contains_write (h : s.Sound held)
    (hbound : s.boundConnection m.session = .ok (conn, id, mode)) (hmode : mode.canWrite)
    (hold : s.ns.file? id = some old) : old.access.contains .write := by
  obtain ⟨hget, hfile⟩ := boundConnection_eq_ok.mp hbound
  obtain ⟨hopen, hid, hcmode⟩ := Connection.bound_eq_ok.mp hfile
  have hrecord := h.record hget
  cases hrecord with
  | closed => exact absurd rfl hopen
  | @bound state mode' cursor id' node hstate hnode hallowed =>
    cases hid
    cases hcmode
    rw [hold] at hnode
    cases hnode
    refine OpenMode.contains_write hmode (hallowed ?_)
    rintro rfl
    cases hmode

section Shares

variable [Sharing σ]

theorem released_preserves (s : Service σ) (conn : Connection) :
    s.ns.Preserves (s.released conn).ns := by
  unfold released
  cases conn.file with
  | none => exact .refl s.ns
  | some id => exact Namespace.closeFile_preserves s.ns id

theorem close_preserves (s : Service σ) (m : Message) : s.ns.Preserves (s.close m).2.ns := by
  rcases close_cases s m with ⟨-, heq⟩ | ⟨conn, -, heq⟩
  · rw [heq]
    exact .refl s.ns
  · rw [heq]
    exact released_preserves s conn

theorem detach_preserves (s : Service σ) (session : SessionId) :
    s.ns.Preserves (s.detach session).2.ns := by
  rcases detach_cases s session with ⟨-, heq⟩ | ⟨conn, -, heq⟩
  · rw [heq]
    exact .refl s.ns
  · rw [heq]
    exact released_preserves s conn

theorem grant_ns (s : Service σ) (m : Message) (hopen : conn.state ≠ .closed) (node : FileNode) :
    (s.grant m conn node).2.ns = s.ns := by
  rcases grant_cases s m hopen node with ⟨e, share, -, heq⟩ | ⟨share, -, heq⟩
  · rw [heq]
  · rw [heq]
    rfl

theorem shareFile_ns (s : Service σ) (m : Message) : (s.shareFile m).2.ns = s.ns := by
  rcases shareFile_cases s m with
    ⟨e, heq⟩ | ⟨-, -, -, -, -, -, -, -, heq⟩ |
    ⟨conn, id, mode, node, conn', s', hbound, -, -, -, hrevoke, heq⟩
  · rw [heq]
  · rw [heq]
  · have hopen := (Connection.bound_eq_ok.mp (boundConnection_eq_ok.mp hbound).2).1
    rw [heq]
    rcases revokeStale_cases s m hopen with ⟨-, hsame⟩ | ⟨-, hstale⟩
    · rw [hsame] at hrevoke
      cases hrevoke
      exact grant_ns s m hopen node
    · rw [hstale] at hrevoke
      cases hrevoke
      exact grant_ns _ m (by simp) node

theorem handle_fileStep (h : s.ns.WellFormed) {op : Operation}
    (hop : m.header.operation = some op) : s.FileStep (.io m) (s.handle m op).2.ns := by
  cases op with
  | list => exact list_ns s m ▸ .refl s _
  | read => exact read_ns s m ▸ .refl s _
  | write => exact write_fileStep s hop
  | openFile => exact .kept (openFile_preserves h m)
  | close => exact .kept (close_preserves s m)
  | share => exact shareFile_ns s m ▸ .refl s _
  | seek => exact seek_ns s m ▸ .refl s _
  | truncate => exact truncate_fileStep s hop

theorem after_fileStep (h : s.ns.WellFormed) (event : Event) :
    s.FileStep event (s.after event).ns := by
  cases event with
  | attach session =>
    have hns : (s.attach session).2.ns = s.ns := rfl
    exact hns ▸ .refl s _
  | detach session => exact .kept (detach_preserves s session)
  | io m =>
    change s.FileStep (.io m) (s.answer m).2.ns
    cases hop : m.header.operation with
    | none =>
      rw [answer_unknown s hop]
      exact .refl s _
    | some op =>
      rw [answer_known s hop]
      exact handle_fileStep h hop

/-- A request that may change what is in a file: a write of a session that has it open for writing,
or a truncation of a session that has it open. The file carries the flag for it. -/
inductive Authorised (s : Service σ) (id : FileId) (file : FileNode) : Event → Prop
  | write {m : Message} {conn : Connection} {mode : OpenMode}
      (hop : m.header.operation = some .write)
      (hbound : s.boundConnection m.session = .ok (conn, id, mode)) (hmode : mode.canWrite)
      (haccess : file.access.contains .write) : Authorised s id file (.io m)
  | truncate {m : Message} {conn : Connection} {mode : OpenMode}
      (hop : m.header.operation = some .truncate)
      (hbound : s.boundConnection m.session = .ok (conn, id, mode))
      (haccess : file.access.contains .map) : Authorised s id file (.io m)

theorem Sound.after_file (h : s.Sound held) (event : Event) (hold : s.ns.file? id = some old) :
    ∃ file, (s.after event).ns.file? id = some file ∧ file.name = old.name ∧
      file.owner = old.owner ∧ file.access = old.access ∧
      ((file.data = old.data ∧ file.bufferGeneration = old.bufferGeneration) ∨
        s.Authorised id old event) := by
  have hstep := after_fileStep h.wellFormed event
  generalize (s.after event).ns = ns' at hstep
  cases hstep with
  | kept hkept =>
    obtain ⟨refs, hfile⟩ := hkept id old hold
    exact ⟨_, hfile, rfl, rfl, rfl, .inl ⟨rfl, rfl⟩⟩
  | @written m conn other mode before hop hbound hmode hbefore =>
    rw [Namespace.file?_putFile hbefore]
    split
    next he =>
      rw [← he, hold] at hbefore
      cases hbefore
      rw [← he] at hbound
      exact ⟨_, rfl, rfl, rfl, rfl, .inr (.write hop hbound hmode
        (h.contains_write hbound hmode hold))⟩
    next => exact ⟨old, hold, rfl, rfl, rfl, .inl ⟨rfl, rfl⟩⟩
  | @resized m conn other mode before length hop hbound hbefore hmap hok =>
    rw [Namespace.file?_putFile hbefore]
    split
    next he =>
      rw [← he, hold] at hbefore
      cases hbefore
      rw [← he] at hbound
      exact ⟨_, rfl, rfl, rfl, rfl, .inr (.truncate hop hbound hmap)⟩
    next => exact ⟨old, hold, rfl, rfl, rfl, .inl ⟨rfl, rfl⟩⟩

/-- Neither a write nor a truncation of the file is ever permitted. -/
theorem Sound.run_file (h : s.Sound held) (hold : s.ns.file? id = some old)
    (hwrite : ¬old.access.contains .write) (hmap : ¬old.access.contains .map)
    (events : List Event) :
    ∃ file, (s.run events).ns.file? id = some file ∧ file.name = old.name ∧
      file.owner = old.owner ∧ file.access = old.access ∧ file.data = old.data := by
  induction events generalizing s old with
  | nil => exact ⟨old, hold, rfl, rfl, rfl, rfl⟩
  | cons event events ih =>
    obtain ⟨file, hfile, hname, howner, haccess, hcontent⟩ := h.after_file event hold
    have hdata : file.data = old.data := by
      rcases hcontent with ⟨hdata, -⟩ | hauthorised
      · exact hdata
      · cases hauthorised with
        | write _ _ _ hflag => exact absurd hflag hwrite
        | truncate _ _ hflag => exact absurd hflag hmap
    rw [← haccess] at hwrite hmap
    obtain ⟨file', hfile', hname', howner', haccess', hdata'⟩ :=
      ih (h.after event) hfile hwrite hmap
    exact ⟨file', hfile', hname'.trans hname, howner'.trans howner, haccess'.trans haccess,
      hdata'.trans hdata⟩

/-- What a bootstrap publishes carries neither flag, so it stays as the image had it. -/
theorem Fresh.published_stays (h : s.Fresh) {τ : Type} [ImageSource τ] {source : τ} {path : String}
    {text : Bytes}
    (hpublished : Bootstrap.Published s.ns (s.bootstrap source).2.ns path id text)
    (events : List Event) :
    ∃ file, ((s.bootstrap source).2.run events).ns.file? id = some file ∧
      file.data.toList = text := by
  obtain ⟨before, after, hbefore, hcreate, -, hkept⟩ := hpublished
  have hns := hbefore.wellFormed h.reachable.wellFormed
  obtain ⟨-, -, file, hfile, hdata, haccess⟩ := Namespace.createFile_ok hns (by simp) hcreate
  obtain ⟨refs, hlive⟩ := hkept id file hfile
  have hwrite : ¬Access.readOnly.contains .write := by decide
  have hmap : ¬Access.readOnly.contains .map := by decide
  rw [← haccess] at hwrite hmap
  obtain ⟨file', hfile', -, -, -, hdata'⟩ :=
    (h.bootstrap source).sound.run_file hlive hwrite hmap events
  refine ⟨file', hfile', ?_⟩
  rw [hdata', hdata, Buffer.toList_ofArray]

/-- Only an authorised request changes what is in a file, so a file that carries neither flag stays
as it is for good, the two texts that a bootstrap takes from the image among them. -/
theorem content_changes_authorised (h : s.Fresh) (events : List Event) :
    (∀ event id old, (s.run events).ns.file? id = some old →
      ∃ file, ((s.run events).after event).ns.file? id = some file ∧ file.name = old.name ∧
        file.owner = old.owner ∧ file.access = old.access ∧
        ((file.data = old.data ∧ file.bufferGeneration = old.bufferGeneration) ∨
          (s.run events).Authorised id old event)) ∧
    (∀ id old, (s.run events).ns.file? id = some old → ¬old.access.contains .write →
      ¬old.access.contains .map → ∀ more, ∃ file,
        ((s.run events).run more).ns.file? id = some file ∧ file.data = old.data) ∧
    ∀ (τ : Type) [ImageSource τ] (source : τ) (report : BootReport),
      (s.bootstrap source).1 = .ok report → ∀ path ∈ [s.config.sysPath, s.config.devicesPath],
        ∃ id text, Bootstrap.Published s.ns (s.bootstrap source).2.ns path id text ∧
          ∀ more, ∃ file, ((s.bootstrap source).2.run more).ns.file? id = some file ∧
            file.data.toList = text := by
  have hsound := h.sound.run events
  refine ⟨fun event id old hold ↦ hsound.after_file event hold,
    fun id old hold hwrite hmap more ↦ ?_, fun τ _ source report hok path hpath ↦ ?_⟩
  · obtain ⟨file, hfile, -, -, -, hdata⟩ := hsound.run_file hold hwrite hmap more
    exact ⟨file, hfile, hdata⟩
  · rw [bootstrap_result] at hok
    obtain ⟨id, text, hpublished⟩ :=
      Namespace.bootstrap_published h.reachable.wellFormed hok path hpath
    rw [← bootstrap_ns] at hpublished
    exact ⟨id, text, hpublished, h.published_stays hpublished⟩

/-- An image of three texts and nothing else. -/
def smallImage : StoredImage := .blob (ImageSpec.new "1.0" "arm" "sunxi").build

theorem boot_texts_stay : (new .standard GrantTable.empty).Fresh ∧
    (∃ report, ((new .standard GrantTable.empty).bootstrap smallImage).1 = .ok report) ∧
    ∀ path ∈ ["/sys", "/devices"], ∃ id text,
      Bootstrap.Published (new .standard GrantTable.empty).ns
        ((new .standard GrantTable.empty).bootstrap smallImage).2.ns path id text ∧
      ∀ more, ∃ file,
        (((new .standard GrantTable.empty).bootstrap smallImage).2.run more).ns.file? id =
          some file ∧ file.data.toList = text := by
  have hfresh : (new .standard GrantTable.empty).Fresh := fresh_new _ _
  have hok : ((new .standard GrantTable.empty).bootstrap smallImage).1.isOk := by decide +kernel
  obtain ⟨report, hreport⟩ :
      ∃ report, ((new .standard GrantTable.empty).bootstrap smallImage).1 = .ok report := by
    cases hresult : ((new .standard GrantTable.empty).bootstrap smallImage).1 with
    | error e =>
      rw [hresult] at hok
      cases hok
    | ok report => exact ⟨report, rfl⟩
  exact ⟨hfresh, ⟨report, hreport⟩,
    (content_changes_authorised hfresh []).2.2 StoredImage smallImage report hreport⟩

end Shares

end Service

end BootNamespace
