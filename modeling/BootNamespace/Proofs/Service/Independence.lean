import BootNamespace.Proofs.Service.Frame
import BootNamespace.Proofs.Service.Holding

namespace BootNamespace

/-- The request is for the file that its session has open. -/
def Message.OnFile (m : Message) : Prop :=
  ∃ op, m.header.operation = some op ∧ op ≠ .list ∧ op ≠ .openFile

namespace Service

variable {s : Service GrantTable} {m n : Message} {op : Operation} {id other : FileId}
variable {ours theirs before after : Holding} {mode mode' : OpenMode} {config : ServerConfig}
variable {pageSize : Nat} {result : Except FsError Reply}

/-- What such a request does is settled by what its session holds. -/
theorem handle_confined (hop : op ≠ .list ∧ op ≠ .openFile)
    (hopened : before.Opened m.session id mode) :
    ∃ result after, Confined op config pageSize m id before result after := by
  cases op with
  | list => exact absurd rfl hop.1
  | openFile => exact absurd rfl hop.2
  | read =>
    obtain ⟨result, cursor, h⟩ := read_confined hopened.bound
    exact ⟨result, _, h⟩
  | write => exact write_confined hopened.bound
  | close => exact ⟨_, _, close_confined hopened⟩
  | share =>
    obtain ⟨result, after, h, -⟩ := share_confined hopened.bound
    exact ⟨result, after, h⟩
  | seek =>
    obtain ⟨result, cursor, h⟩ := seek_confined hopened.bound
    exact ⟨result, _, h⟩
  | truncate => exact truncate_confined hopened.bound

theorem Confined.answer (h : Confined op s.config s.ns.pageSize m id before result after)
    (hop : m.header.operation = some op) (hholds : s.Holds m.session id before) :
    s.answer m = (.ofResult result, s.hold m.session id after) := by
  rw [answer_known s hop, h s rfl rfl hholds]

/-- Two such requests of sessions with different files can be handled in either order. -/
theorem answer_comm (hm : m.OnFile) (hn : n.OnFile) (hsession : m.session ≠ n.session)
    (hfile : id ≠ other) (hours : s.Holds m.session id ours)
    (htheirs : s.Holds n.session other theirs) (hopened : ours.Opened m.session id mode)
    (hopened' : theirs.Opened n.session other mode') :
    ((s.answer m).2.answer n).1 = (s.answer n).1 ∧
    ((s.answer n).2.answer m).1 = (s.answer m).1 ∧
    ((s.answer m).2.answer n).2 = ((s.answer n).2.answer m).2 := by
  obtain ⟨op, hop, hallowed⟩ := hm
  obtain ⟨op', hop', hallowed'⟩ := hn
  obtain ⟨result, after, hconfined⟩ := handle_confined hallowed hopened
  obtain ⟨result', after', hconfined'⟩ := handle_confined hallowed' hopened'
  have hkept := hours.of_hold_other htheirs hsession hfile after'
  have hkept' := htheirs.of_hold_other hours hsession.symm hfile.symm after
  have hfirst := hconfined.answer hop hours
  have hfirst' := hconfined'.answer hop' htheirs
  have hsecond : (s.hold n.session other after').answer m =
      (.ofResult result, (s.hold n.session other after').hold m.session id after) :=
    Confined.answer hconfined hop hkept
  have hsecond' : (s.hold m.session id after).answer n =
      (.ofResult result', (s.hold m.session id after).hold n.session other after') :=
    Confined.answer hconfined' hop' hkept'
  rw [hfirst, hfirst']
  dsimp only
  rw [hsecond, hsecond']
  exact ⟨rfl, rfl, hours.hold_comm htheirs hsession hfile after after'⟩

/-- In every state that a service comes to, requests on different files do not see each other, and
an event of one session leaves the records and the grants of the others as they are. -/
theorem sessions_independent (h : s.Fresh) (events : List Event) :
    (∀ m n conn conn' id other, m.OnFile → n.OnFile → m.session ≠ n.session →
      (s.run events).connections.get? m.session = some conn → conn.file = some id →
      (s.run events).connections.get? n.session = some conn' → conn'.file = some other →
      id ≠ other →
      (((s.run events).answer m).2.answer n).1 = ((s.run events).answer n).1 ∧
      (((s.run events).answer n).2.answer m).1 = ((s.run events).answer m).1 ∧
      (((s.run events).answer m).2.answer n).2 = (((s.run events).answer n).2.answer m).2) ∧
    ∀ event t, t ≠ event.session →
      ((s.run events).after event).connections.get? t = (s.run events).connections.get? t ∧
      ((s.run events).after event).share.grant? t = (s.run events).share.grant? t := by
  have hsound := h.sound.run events
  refine ⟨fun m n conn conn' id other hm hn hsession hget hfile hget' hfile' hother ↦ ?_,
    fun event t ht ↦ ⟨after_connection_of_ne hsound.wellFormed ht, hsound.after_grant_of_ne ht⟩⟩
  obtain ⟨ours, mode, hours, hopened⟩ := hsound.holds hget hfile
  obtain ⟨theirs, mode', htheirs, hopened'⟩ := hsound.holds hget' hfile'
  exact answer_comm hm hn hsession hother hours htheirs hopened hopened'

/-- Two sessions, each with a file of its own. -/
def apart : List Event := opening ⟨7⟩ "/a" ++ opening ⟨8⟩ "/b"

theorem truncate_and_share_in_either_order : (new .standard GrantTable.empty).Fresh ∧
    (fileRequest ⟨7⟩ .truncate (Bytes.ofUInt32 5)).OnFile ∧ (fileRequest ⟨8⟩ .share []).OnFile ∧
    (((new .standard GrantTable.empty).run apart).answer
      (fileRequest ⟨7⟩ .truncate (Bytes.ofUInt32 5))).2.answer (fileRequest ⟨8⟩ .share []) =
    (.ok, ((((new .standard GrantTable.empty).run apart).answer
      (fileRequest ⟨8⟩ .share [])).2.answer (fileRequest ⟨7⟩ .truncate (Bytes.ofUInt32 5))).2) ∧
    (((new .standard GrantTable.empty).run apart).answer
      (fileRequest ⟨8⟩ .share [])).2.connections.get? ⟨7⟩ =
        some ⟨⟨7⟩, .opened, some .readOnly, 0, some ⟨0, 0⟩⟩ := by
  have hfresh : (new .standard GrantTable.empty).Fresh := fresh_new _ _
  have htruncate : (fileRequest ⟨7⟩ .truncate (Bytes.ofUInt32 5)).OnFile :=
    ⟨.truncate, rfl, by decide⟩
  have hshare : (fileRequest ⟨8⟩ .share []).OnFile := ⟨.share, rfl, by decide⟩
  have hget : ((new .standard GrantTable.empty).run apart).connections.get? ⟨7⟩ =
      some ⟨⟨7⟩, .opened, some .readOnly, 0, some ⟨0, 0⟩⟩ := by decide +kernel
  have hget' : ((new .standard GrantTable.empty).run apart).connections.get? ⟨8⟩ =
      some ⟨⟨8⟩, .opened, some .readOnly, 0, some ⟨1, 0⟩⟩ := by decide +kernel
  obtain ⟨hcomm, hframe⟩ := sessions_independent hfresh apart
  obtain ⟨hreply, -, hend⟩ := hcomm _ _ _ _ _ _ htruncate hshare (by decide) hget rfl hget' rfl
    (by decide)
  have hok : (((new .standard GrantTable.empty).run apart).answer
      (fileRequest ⟨8⟩ .share [])).1 = .ok := by decide +kernel
  refine ⟨hfresh, htruncate, hshare, Prod.ext (hreply.trans hok) hend, ?_⟩
  exact (hframe (.io (fileRequest ⟨8⟩ .share [])) ⟨7⟩ (by decide)).1.trans hget

end Service

end BootNamespace
