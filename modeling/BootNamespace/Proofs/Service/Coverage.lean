import BootNamespace.Proofs.Service.Content
import BootNamespace.Proofs.Service.Grants

namespace BootNamespace

theorem FsError.status_ne_ok (e : FsError) : e.status ≠ Status.ok := by
  unfold status
  split <;> decide

theorem Reply.isOk_of_status {result : Except FsError Reply}
    (h : (ofResult result).status = Status.ok) : result.isOk := by
  cases result with
  | error e => exact absurd h e.status_ne_ok
  | ok reply => rfl

namespace GrantTable

variable {grants : GrantTable} {t : SessionId} {region : SharedRegion}

theorem grant?_share : (Sharing.share grants t region).2.grant? =
    Function.update grants.grant? t (some ⟨region.generation, region.data.length⟩) :=
  SessionMap.get?_insert

theorem grant?_unshare :
    (Sharing.unshare grants t).2.grant? = Function.update grants.grant? t none := by
  change (grants.unshare t).2.grant? = _
  unfold unshare
  split
  next => exact SessionMap.get?_erase
  next h => rw [← h, Function.update_eq_self]

end GrantTable

/-- A grant was made of the buffer that a file had under that generation, at most `limit`
truncations of the file ago. -/
structure Grant.Covers (ns : Namespace) (limit : FileId → Nat) (grant : Grant)
    (view : UInt32 × FileId) : Prop where
  generation : grant.generation = view.1
  file : ∃ node lag, ns.file? view.2 = some node ∧ node.access.contains .map ∧
    lag ≤ limit view.2 ∧ node.bufferGeneration = grant.generation + .ofNat lag ∧
    (lag = 0 → grant.length = node.size)

/-- While a file's generations have not come round, the same generation means the same buffer. -/
theorem Grant.Covers.length_eq {ns : Namespace} {limit : FileId → Nat} {grant : Grant}
    {view : UInt32 × FileId} {node : FileNode} (h : grant.Covers ns limit view)
    (hfew : limit view.2 < UInt32.size) (hnode : ns.file? view.2 = some node)
    (hcurrent : grant.generation = node.bufferGeneration) : grant.length = node.size := by
  obtain ⟨node', lag, hnode', -, hlag, hgeneration, hlength⟩ := h.file
  rw [hnode] at hnode'
  cases hnode'
  have hzero : UInt32.ofNat lag = 0 := by
    rw [hcurrent] at hgeneration
    simpa using hgeneration
  have hnat : lag = 0 := by
    have htoNat := congrArg UInt32.toNat hzero
    rwa [UInt32.toNat_ofNat_of_lt' (Nat.lt_of_le_of_lt hlag hfew)] at htoNat
  exact hlength hnat

namespace Service

section Truncations

variable {σ : Type} [Sharing σ] {s : Service σ} {ns' : Namespace} {event : Event}
variable {limit : FileId → Nat} {grant : Grant} {view : UInt32 × FileId}

/-- The event is a truncation of the file, and succeeds. -/
def truncates (s : Service σ) (id : FileId) : Event → Bool
  | .io m => m.header.operation == some .truncate &&
      (s.connections.get? m.session).any (·.file == some id) && (s.answer m).1.status == Status.ok
  | .attach _ | .detach _ => false

def truncations (s : Service σ) (id : FileId) : List Event → Nat
  | [] => 0
  | event :: events => (s.truncates id event).toNat + (s.after event).truncations id events

theorem truncations_le_length (s : Service σ) (id : FileId) (events : List Event) :
    s.truncations id events ≤ events.length := by
  induction events generalizing s with
  | nil => exact Nat.le_refl 0
  | cons event events ih =>
    have hone := Bool.toNat_le (s.truncates id event)
    have hrest := ih (s.after event)
    rw [truncations, List.length_cons]
    omega

theorem truncates_of_ok {m : Message} {conn : Connection} {id : FileId} {mode : OpenMode}
    (hop : m.header.operation = some .truncate)
    (hbound : s.boundConnection m.session = .ok (conn, id, mode))
    (hok : (s.truncate m).1 = .ok .ok) : s.truncates id (.io m) := by
  obtain ⟨hget, hfile⟩ := boundConnection_eq_ok.mp hbound
  have hfile := (Connection.bound_eq_ok.mp hfile).2.1
  have hstatus : (s.answer m).1.status = Status.ok := by
    rw [answer_known s hop, handle, hok]
    rfl
  simp [truncates, hop, hget, hfile, hstatus]

theorem FileStep.covers (hstep : s.FileStep event ns') (h : grant.Covers s.ns limit view) :
    grant.Covers ns' (fun id ↦ limit id + (s.truncates id event).toNat) view := by
  obtain ⟨node, lag, hnode, hmap, hlag, hgeneration, hlength⟩ := h.file
  have hmore : lag ≤ limit view.2 + (s.truncates view.2 event).toNat :=
    Nat.le_add_right_of_le hlag
  refine ⟨h.generation, ?_⟩
  cases hstep with
  | kept hkept =>
    obtain ⟨refs, hnode'⟩ := hkept _ _ hnode
    exact ⟨_, lag, hnode', hmap, hmore, hgeneration, hlength⟩
  | @written m conn id mode old hop hbound hmode hold =>
    rw [Namespace.file?_putFile hold]
    split
    next he =>
      rw [he, hold] at hnode
      cases hnode
      refine ⟨_, lag, rfl, hmap, hmore, hgeneration, fun hzero ↦ ?_⟩
      rw [hlength hzero]
      exact (Buffer.length_overwrite _ _ _).symm
    next => exact ⟨node, lag, hnode, hmap, hmore, hgeneration, hlength⟩
  | @resized m conn id mode old length hop hbound hold hmap' hok =>
    rw [Namespace.file?_putFile hold]
    split
    next he =>
      -- The grant falls behind by one more, and one more truncation has been counted.
      have hcounted : s.truncates view.2 (.io m) := he ▸ truncates_of_ok hop hbound hok
      rw [he, hold] at hnode
      cases hnode
      refine ⟨_, lag + 1, rfl, hmap, ?_, ?_, fun hzero ↦ by cases hzero⟩
      · rw [hcounted]
        exact Nat.succ_le_succ hlag
      · rw [UInt32.ofNat_add, ← UInt32.add_assoc, ← hgeneration]
        rfl
    next => exact ⟨node, lag, hnode, hmap, hmore, hgeneration, hlength⟩

end Truncations

section Records

variable {s s' : Service GrantTable} {conn : Connection} {t : SessionId} {id : FileId}
variable {mode : OpenMode} {node : FileNode} {result : Except AppError Unit} {event : Event}
variable {limit refs : FileId → Nat} {ns : Namespace} {grants : GrantTable}
variable {granted : SessionId → Option (UInt32 × FileId)}

/-- The table has a grant for each session that holds one, and no other. -/
def Recorded (ns : Namespace) (limit : FileId → Nat) (grants : GrantTable)
    (granted : SessionId → Option (UInt32 × FileId)) : Prop :=
  ∀ t, Option.Rel (Grant.Covers ns limit) (grants.grant? t) (granted t)

theorem Recorded.imp {ns' : Namespace} {limit' : FileId → Nat}
    (h : Recorded ns limit grants granted)
    (himp : ∀ grant view, Grant.Covers ns limit grant view → Grant.Covers ns' limit' grant view) :
    Recorded ns' limit' grants granted := by
  intro t
  have ht := h t
  generalize grants.grant? t = grant at ht
  generalize granted t = view at ht
  cases ht with
  | none => exact .none
  | some hcovers => exact .some (himp _ _ hcovers)

theorem Recorded.update (h : Recorded ns limit grants granted) {after : GrantTable}
    {grant : Option Grant} {view : Option (UInt32 × FileId)}
    (hafter : after.grant? = Function.update grants.grant? t grant)
    (hview : Option.Rel (Grant.Covers ns limit) grant view) :
    Recorded ns limit after (Function.update granted t view) := by
  intro u
  rw [hafter]
  by_cases hu : u = t
  · subst hu
    rwa [Function.update_self, Function.update_self]
  · rw [Function.update_of_ne hu, Function.update_of_ne hu]
    exact h u

theorem revoked_recorded (h : Recorded s.ns limit s.share s.granted?) (hsound : s.Sound refs)
    (hget : s.connections.get? t = some conn) :
    Recorded s.ns limit (s.revoked t conn) (Function.update s.granted? t none) := by
  unfold revoked
  split
  next => exact h.update GrantTable.grant?_unshare .none
  next hno =>
    have hnone := hsound.granted?_eq_none hget hno
    rwa [← hnone, Function.update_eq_self]

theorem Regranted.recorded (h : s.Regranted t conn id node result s')
    (hrecorded : Recorded s.ns limit s.share s.granted?) (hsound : s.Sound refs)
    (hget : s.connections.get? t = some conn) (hnode : s.ns.file? id = some node)
    (hmap : node.access.contains .map) : Recorded s.ns limit s'.share s'.granted? ∧
      s'.granted? t = some (node.bufferGeneration, id) ∧
      s'.share.grant? t = some ⟨node.bufferGeneration, node.size⟩ := by
  have hok : Except.ok () = result := congrArg Prod.fst h.call
  have hshare : (Sharing.share (s.revoked t conn) t ⟨node.bufferGeneration, node.data⟩).2 =
      s'.share := congrArg Prod.snd h.call
  have hgrant : s'.share.grant? = Function.update (s.revoked t conn).grant? t
      (some ⟨node.bufferGeneration, node.size⟩) := hshare ▸ GrantTable.grant?_share
  have hcovers : Grant.Covers s.ns limit ⟨node.bufferGeneration, node.size⟩
      (node.bufferGeneration, id) :=
    ⟨rfl, node, 0, hnode, hmap, Nat.zero_le _, (UInt32.add_zero _).symm, fun _ ↦ rfl⟩
  have hnext := (revoked_recorded hrecorded hsound hget).update hgrant (.some hcovers)
  subst hok
  rw [Function.update_idem] at hnext
  rw [h.granted?, hgrant, Function.update_self, Function.update_self]
  exact ⟨hnext, rfl, rfl⟩

theorem after_recorded (h : Recorded s.ns limit s.share s.granted?) (hsound : s.Sound refs)
    (event : Event) :
    Recorded (s.after event).ns (fun id ↦ limit id + (s.truncates id event).toNat)
      (s.after event).share (s.after event).granted? := by
  have hfile := after_fileStep hsound.wellFormed event
  have hstep := after_grantStep hsound event
  generalize s.after event = s' at hfile hstep
  refine Recorded.imp ?_ fun grant view hcovers ↦ hfile.covers hcovers
  cases hstep with
  | quiet hquiet => rwa [hquiet.share, hquiet.granted?]
  | released hget hreleased =>
    rw [hreleased.share, hreleased.granted?]
    exact revoked_recorded h hsound hget
  | regranted hop hbound hnode hmap hregranted =>
    have hget := (boundConnection_eq_ok.mp hbound).1
    exact (hregranted.recorded h hsound hget hnode hmap).1

theorem run_recorded (h : Recorded s.ns limit s.share s.granted?) (hsound : s.Sound refs)
    (events : List Event) : Recorded (s.run events).ns (fun id ↦ limit id + s.truncations id events)
      (s.run events).share (s.run events).granted? := by
  induction events generalizing s limit with
  | nil => exact h
  | cons event events ih =>
    have hrest := ih (after_recorded h hsound event) (hsound.after event)
    simp only [Nat.add_assoc] at hrest
    exact hrest

theorem Fresh.recorded (h : s.Fresh) (hempty : s.share = .empty) (events : List Event) :
    Recorded (s.run events).ns (s.truncations · events) (s.run events).share
      (s.run events).granted? := by
  have hstart : Recorded s.ns (fun _ ↦ 0) s.share s.granted? := by
    intro t
    rw [hempty, granted?_of_detached (by rw [h.connections]; rfl)]
    exact .none
  have hrun := run_recorded hstart h.sound events
  simp only [Nat.zero_add] at hrun
  exact hrun

theorem Recorded.of_grant {grant : Grant} (h : Recorded ns limit grants granted)
    (hgrant : grants.grant? t = some grant) :
    ∃ id, granted t = some (grant.generation, id) ∧
      grant.Covers ns limit (grant.generation, id) := by
  have ht := h t
  rw [hgrant] at ht
  generalize granted t = view at ht
  cases ht with
  | @some _ view hcovers =>
    obtain ⟨generation, id⟩ := view
    cases hcovers.generation
    exact ⟨id, rfl, hcovers⟩

theorem Recorded.of_granted {view : UInt32 × FileId} (h : Recorded ns limit grants granted)
    (hview : granted t = some view) :
    ∃ grant, grants.grant? t = some grant ∧ grant.Covers ns limit view := by
  have ht := h t
  rw [hview] at ht
  generalize grants.grant? t = grant at ht
  cases ht with
  | some hcovers => exact ⟨_, rfl, hcovers⟩

theorem shareFile_eq_self {m : Message}
    (hbound : s.boundConnection m.session = .ok (conn, id, mode))
    (hnode : s.ns.file? id = some node) (hmap : node.access.contains .map)
    (hstate : conn.state = .mapped (some node.bufferGeneration)) :
    s.shareFile m = (.ok .ok, s) := by
  obtain ⟨hget, hfile⟩ := boundConnection_eq_ok.mp hbound
  unfold shareFile
  rw [connection_eq_ok.mpr hget]
  simp [Connection.isClosed, hstate, hfile, Namespace.file_eq_ok hnode, hmap]

theorem Recorded.isSome_iff (h : Recorded s.ns limit s.share s.granted?) (hsound : s.Sound refs) :
    (s.share.grant? t).isSome ↔ ∃ conn generation, s.connections.get? t = some conn ∧
      conn.state = .mapped (some generation) := by
  constructor
  · intro hsome
    obtain ⟨grant, hgrant⟩ := Option.isSome_iff_exists.mp hsome
    obtain ⟨id, hview, -⟩ := h.of_grant hgrant
    obtain ⟨conn, hget, hstate, -⟩ := granted?_eq_some.mp hview
    exact ⟨conn, grant.generation, hget, hstate⟩
  · rintro ⟨conn, generation, hget, hstate⟩
    obtain ⟨id, mode, hbound⟩ := (hsound.record hget).exists_bound (by simp [hstate])
    have hfile := (Connection.bound_eq_ok.mp hbound).2.1
    obtain ⟨grant, hgrant, -⟩ :=
      h.of_granted (granted?_eq_some.mpr ⟨conn, hget, hstate, hfile⟩)
    rw [hgrant]
    rfl

theorem Recorded.share_again (h : Recorded s.ns limit s.share s.granted?) (hsound : s.Sound refs)
    {m : Message} {grant : Grant} (hgrant : s.share.grant? m.session = some grant)
    (hget : s.connections.get? m.session = some conn) (hfile : conn.file = some id)
    (hnode : s.ns.file? id = some node) (hcurrent : grant.generation = node.bufferGeneration) :
    s.shareFile m = (.ok .ok, s) := by
  obtain ⟨id', hview, hcovers⟩ := h.of_grant hgrant
  obtain ⟨conn', hget', hstate, hfile'⟩ := granted?_eq_some.mp hview
  obtain ⟨node', lag, hnode', hmap, -⟩ := hcovers.file
  cases hget.symm.trans hget'
  cases hfile.symm.trans hfile'
  cases hnode.symm.trans hnode'
  obtain ⟨other, mode, hbound⟩ := (hsound.record hget).exists_bound (by simp [hstate])
  rw [hcurrent] at hstate
  cases hfile.symm.trans (Connection.bound_eq_ok.mp hbound).2.1
  exact shareFile_eq_self (boundConnection_eq_ok.mpr ⟨hget, hbound⟩) hnode hmap hstate

theorem Recorded.share_covers (h : Recorded s.ns limit s.share s.granted?) (hsound : s.Sound refs)
    (hfew : ∀ id, limit id < UInt32.size) {m : Message} (hok : (s.shareFile m).1.isOk) :
    ∃ conn id node, (s.shareFile m).2.connections.get? m.session = some conn ∧
      conn.file = some id ∧ (s.shareFile m).2.ns.file? id = some node ∧
      (s.shareFile m).2.share.grant? m.session = some ⟨node.bufferGeneration, node.size⟩ := by
  rcases shareFile_grants hsound m with ⟨e, heq⟩ |
    ⟨conn, id, mode, node, hbound, hnode, -, hstate, heq⟩ |
    ⟨conn, id, mode, node, result, hbound, hnode, hmap, hregranted, -⟩
  · rw [heq] at hok
    cases hok
  · obtain ⟨hget, hfile⟩ := boundConnection_eq_ok.mp hbound
    have hfile := (Connection.bound_eq_ok.mp hfile).2.1
    obtain ⟨⟨generation, length⟩, hgrant, hcovers⟩ :=
      h.of_granted (granted?_eq_some.mpr ⟨conn, hget, hstate, hfile⟩)
    have hgeneration : generation = node.bufferGeneration := hcovers.generation
    have hlength : length = node.size := hcovers.length_eq (hfew id) hnode hgeneration
    rw [hlength, hgeneration] at hgrant
    rw [heq]
    exact ⟨conn, id, node, hget, hfile, hnode, hgrant⟩
  · have hget := (boundConnection_eq_ok.mp hbound).1
    obtain ⟨-, hview, hgrant⟩ := hregranted.recorded h hsound hget hnode hmap
    obtain ⟨conn', hget', -, hfile'⟩ := granted?_eq_some.mp hview
    exact ⟨conn', id, node, hget', hfile', hregranted.ns ▸ hnode, hgrant⟩

/-- As long as no file has been truncated so often that its generations come round, the table has
what the connections say, a share that succeeds leaves a grant of the whole buffer of that moment,
and one that is not needed leaves everything. -/
theorem grants_cover_buffers (h : s.Fresh) (hempty : s.share = .empty) (events : List Event)
    (hfew : ∀ id, s.truncations id events < UInt32.size) :
    (∀ t, ((s.run events).share.grant? t).isSome ↔ ∃ conn generation,
      (s.run events).connections.get? t = some conn ∧ conn.state = .mapped (some generation)) ∧
    (∀ t grant, (s.run events).share.grant? t = some grant → ∃ conn id node,
      (s.run events).connections.get? t = some conn ∧
      conn.state = .mapped (some grant.generation) ∧ conn.file = some id ∧
      (s.run events).ns.file? id = some node ∧
      (grant.generation = node.bufferGeneration → grant.length = node.size)) ∧
    (∀ m, m.header.operation = some .share → ((s.run events).answer m).1.status = Status.ok →
      ∃ conn id node, ((s.run events).answer m).2.connections.get? m.session = some conn ∧
        conn.file = some id ∧ ((s.run events).answer m).2.ns.file? id = some node ∧
        ((s.run events).answer m).2.share.grant? m.session =
          some ⟨node.bufferGeneration, node.size⟩) ∧
    ∀ m grant conn id node, m.header.operation = some .share →
      (s.run events).share.grant? m.session = some grant →
      (s.run events).connections.get? m.session = some conn → conn.file = some id →
      (s.run events).ns.file? id = some node → grant.generation = node.bufferGeneration →
      (s.run events).answer m = (.ok, s.run events) := by
  have hsound := h.sound.run events
  have hrecorded := h.recorded hempty events
  refine ⟨fun t ↦ hrecorded.isSome_iff hsound, fun t grant hgrant ↦ ?_, fun m hop hstatus ↦ ?_,
    fun m grant conn id node hop hgrant hget hfile hnode hcurrent ↦ ?_⟩
  · obtain ⟨id, hview, hcovers⟩ := hrecorded.of_grant hgrant
    obtain ⟨conn, hget, hstate, hfile⟩ := granted?_eq_some.mp hview
    obtain ⟨node, lag, hnode, -⟩ := hcovers.file
    exact ⟨conn, id, node, hget, hstate, hfile, hnode, hcovers.length_eq (hfew id) hnode⟩
  · rw [answer_known _ hop] at hstatus ⊢
    exact hrecorded.share_covers hsound hfew (Reply.isOk_of_status hstatus)
  · have heq := hrecorded.share_again hsound hgrant hget hfile hnode hcurrent
    rw [answer_known _ hop, handle, heq]
    rfl

theorem reshare_covers_buffer : (new bytewise GrantTable.empty).Fresh ∧
    (new bytewise GrantTable.empty).share = .empty ∧
    (∀ id, (new bytewise GrantTable.empty).truncations id (resharing ⟨7⟩ "/a") < UInt32.size) ∧
    ((new bytewise GrantTable.empty).run (resharing ⟨7⟩ "/a")).share.grant? ⟨7⟩ = some ⟨2, 2⟩ ∧
    ((new bytewise GrantTable.empty).run (resharing ⟨7⟩ "/a")).answer (fileRequest ⟨7⟩ .share []) =
      (.ok, (new bytewise GrantTable.empty).run (resharing ⟨7⟩ "/a")) := by
  have hfresh : (new bytewise GrantTable.empty).Fresh := fresh_new _ _
  have hfew (id : FileId) :
      (new bytewise GrantTable.empty).truncations id (resharing ⟨7⟩ "/a") < UInt32.size :=
    Nat.lt_of_le_of_lt (truncations_le_length _ id _) (by decide)
  have hgrant : ((new bytewise GrantTable.empty).run (resharing ⟨7⟩ "/a")).share.grant? ⟨7⟩ =
      some ⟨2, 2⟩ := by decide +kernel
  obtain ⟨-, -, -, hagain⟩ := grants_cover_buffers hfresh rfl (resharing ⟨7⟩ "/a") hfew
  refine ⟨hfresh, rfl, hfew, hgrant, ?_⟩
  exact hagain (fileRequest ⟨7⟩ .share []) ⟨2, 2⟩
    ⟨⟨7⟩, .mapped (some 2), some .readOnly, 0, some ⟨0, 0⟩⟩ ⟨0, 0⟩
    ⟨"a", .root, .ofList [0, 0], .created, 1, 2⟩ rfl hgrant (by decide +kernel) rfl (by decide +kernel) rfl

end Records

end Service

end BootNamespace
