import BootNamespace.Proofs.Service.Sound

namespace BootNamespace

theorem Service.ofNat_nonneg {n : Nat} (h : n ≤ maxCount) : 0 ≤ Int32.ofNat n := by
  have hlt : n < 2 ^ 31 := by
    have hmax : maxCount = 2147483647 := rfl
    omega
  rw [Int32.le_iff_toInt_le, Int32.toInt_ofNat_of_lt hlt]
  exact Int.natCast_nonneg n

namespace Namespace

variable {ns ns' : Namespace} {id : FileId}

theorem readAt_length {offset : UInt64} {max : Nat} {data : Bytes}
    (h : ns.readAt id offset max = .ok data) : data.length ≤ max := by
  cases hfile : ns.file? id with
  | none =>
    rw [readAt, file_eq_error hfile] at h
    cases h
  | some file =>
    rw [readAt_eq hfile, Buffer.read_eq] at h
    cases h
    exact List.length_take_le _ _

theorem writeAt_count {offset : UInt64} {bytes : Buffer} {count : Nat}
    (h : ns.writeAt id offset bytes = (.ok count, ns')) : count ≤ bytes.length := by
  rcases writeAt_cases ns id offset bytes with ⟨-, heq⟩ | ⟨old, -, heq⟩
  · rw [h] at heq
    cases heq
  · rw [h] at heq
    cases heq
    exact Nat.min_le_left _ _

end Namespace

namespace Service

variable {σ : Type} {s : Service σ} {m : Message}

/-- Refused without any effect, or answered with a status that is not negative. -/
inductive Atomic (s : Service σ) : Except FsError Reply × Service σ → Prop
  | refused (e : FsError) : s.Atomic (.error e, s)
  | answered {reply : Reply} (h : 0 ≤ reply.status) (s' : Service σ) : s.Atomic (.ok reply, s')

theorem Atomic.count {n : Nat} (h : n ≤ maxCount) (payload : Bytes) (s' : Service σ) :
    s.Atomic (.ok ⟨.ofNat n, payload⟩, s') := by
  refine .answered ?_ s'
  dsimp only
  exact ofNat_nonneg h

theorem Atomic.okWith (payload : Bytes) (s' : Service σ) :
    s.Atomic (.ok (.okWith payload), s') := by
  have hzero : 0 ≤ Status.ok := by decide
  refine .answered ?_ s'
  exact hzero

theorem Atomic.ok (s' : Service σ) : s.Atomic (.ok .ok, s') := .okWith [] s'

theorem list_atomic (s : Service σ) (m : Message) : s.Atomic (s.list m) := by
  rcases list_cases s m with ⟨e, heq⟩ | ⟨payload, heq⟩
  · exact heq ▸ .refused e
  · exact heq ▸ .okWith payload s

theorem read_atomic (s : Service σ) (m : Message) : s.Atomic (s.read m) := by
  rcases read_cases s m with ⟨e, heq⟩ | ⟨conn, id, mode, data, -, -, hdata, heq⟩
  · exact heq ▸ .refused e
  · have hlength := Namespace.readAt_length hdata
    rw [heq]
    exact .count (Nat.le_trans hlength (Nat.min_le_right _ _)) data _

theorem write_atomic (hpayload : m.payload.length ≤ maxCount) : s.Atomic (s.write m) := by
  rcases write_cases s m with ⟨e, heq⟩ | ⟨conn, id, mode, count, ns', -, -, hwrite, heq⟩
  · exact heq ▸ .refused e
  · have hcount := Namespace.writeAt_count hwrite
    rw [heq]
    exact .count (Nat.le_trans hcount hpayload) [] _

theorem seek_atomic (s : Service σ) (m : Message) : s.Atomic (s.seek m) := by
  rcases seek_cases s m with ⟨e, heq⟩ | ⟨conn, id, mode, offset, base, cursor, -, -, -, -, heq⟩
  · exact heq ▸ .refused e
  · exact heq ▸ .okWith _ _

theorem truncate_atomic (s : Service σ) (m : Message) : s.Atomic (s.truncate m) := by
  rcases truncate_cases s m with ⟨e, heq⟩ | ⟨conn, id, mode, size, length, ns', -, -, -, -, heq⟩
  · exact heq ▸ .refused e
  · exact heq ▸ .ok _

/-- The one step of an open request that can fail after a change is the one that finds no room for a
file below the directories it has made. -/
theorem openFile_atomic (h : s.ns.WellFormed) (hroom : s.ns.fileCount < Namespace.arenaLimit)
    (m : Message) : s.Atomic (s.openFile m) := by
  rcases openFile_cases h m with ⟨e, heq⟩ | ⟨path, e, ns', -, hcreate, heq⟩ |
    ⟨conn, path, mode, id, ns₁, ns₂, -, -, -, -, -, -, -, heq⟩
  · exact heq ▸ .refused e
  · have hsame := Namespace.createFile_error h (by simp) hroom hcreate
    rw [heq, hsame]
    exact .refused e
  · exact heq ▸ .ok _

theorem attach_eq_self {session : SessionId} {e : FsError} (he : (s.attach session).1 = .error e) :
    (s.attach session).2 = s := by
  rcases attach_cases s session with ⟨conn, -, heq⟩ | ⟨-, heq⟩
  · rw [heq]
  · rw [heq] at he
    cases he

variable [Sharing σ]

theorem close_atomic (s : Service σ) (m : Message) : s.Atomic (s.close m) := by
  rcases close_cases s m with ⟨-, heq⟩ | ⟨conn, -, heq⟩
  · exact heq ▸ .ok _
  · exact heq ▸ .ok _

/-- A stale grant is revoked before a new one is made, so the new one must not be refused. -/
theorem shareFile_atomic
    (hgrants : ∀ (grants : σ) session region, (Sharing.share grants session region).1 = .ok ())
    (s : Service σ) (m : Message) : s.Atomic (s.shareFile m) := by
  rcases shareFile_cases s m with
    ⟨e, heq⟩ | ⟨-, -, -, -, -, -, -, -, heq⟩ |
    ⟨conn, id, mode, node, conn', s', hbound, -, -, -, hrevoke, heq⟩
  · exact heq ▸ .refused e
  · exact heq ▸ .ok _
  · have hopen := (Connection.bound_eq_ok.mp (boundConnection_eq_ok.mp hbound).2).1
    have hopen' : conn'.state ≠ .closed := by
      rcases revokeStale_cases s m hopen with ⟨-, hsame⟩ | ⟨-, hstale⟩
      · rw [hsame] at hrevoke
        cases hrevoke
        exact hopen
      · rw [hstale] at hrevoke
        cases hrevoke
        simp
    rw [heq]
    rcases grant_cases s' m hopen' node with ⟨e, share, hshare, -⟩ | ⟨share, -, heq⟩
    · have hnever := hgrants s'.share m.session ⟨node.bufferGeneration, node.data⟩
      rw [hshare] at hnever
      cases hnever
    · exact heq ▸ .ok _

theorem handle_atomic
    (hgrants : ∀ (grants : σ) session region, (Sharing.share grants session region).1 = .ok ())
    (h : s.ns.WellFormed) (hroom : s.ns.fileCount < Namespace.arenaLimit)
    (hpayload : m.payload.length ≤ maxCount) (op : Operation) : s.Atomic (s.handle m op) := by
  cases op with
  | list => exact list_atomic s m
  | read => exact read_atomic s m
  | write => exact write_atomic hpayload
  | openFile => exact openFile_atomic h hroom m
  | close => exact close_atomic s m
  | share => exact shareFile_atomic hgrants s m
  | seek => exact seek_atomic s m
  | truncate => exact truncate_atomic s m

theorem answer_eq_self
    (hgrants : ∀ (grants : σ) session region, (Sharing.share grants session region).1 = .ok ())
    (h : s.ns.WellFormed) (hroom : s.ns.fileCount < Namespace.arenaLimit)
    (hpayload : m.payload.length ≤ maxCount) (hstatus : (s.answer m).1.status < 0) :
    (s.answer m).2 = s := by
  unfold answer at hstatus ⊢
  cases hop : m.header.operation with
  | none => rfl
  | some op =>
    have hatomic := handle_atomic hgrants h hroom hpayload op
    rcases hhandle : s.handle m op with ⟨result, s'⟩
    rw [hhandle] at hatomic
    simp only [hop, hhandle] at hstatus ⊢
    cases hatomic with
    | refused e => rfl
    | answered hreply => exact absurd hreply (Int32.not_le.mpr hstatus)

theorem detach_eq_self {session : SessionId} {e : FsError} (he : (s.detach session).1 = .error e) :
    (s.detach session).2 = s := by
  rcases detach_cases s session with ⟨-, heq⟩ | ⟨conn, -, heq⟩
  · rw [heq]
  · rw [heq] at he
    cases he

/-- While there is room for another file, an event that fails changes nothing at all. -/
theorem failed_event_changes_nothing {s : Service GrantTable} (h : s.Fresh) (events : List Event)
    (hroom : (s.run events).ns.fileCount < Namespace.arenaLimit) :
    (∀ m : Message, m.payload.length ≤ maxCount → ((s.run events).answer m).1.status < 0 →
      ((s.run events).answer m).2 = s.run events) ∧
    (∀ session e, ((s.run events).attach session).1 = .error e →
      ((s.run events).attach session).2 = s.run events) ∧
    ∀ session e, ((s.run events).detach session).1 = .error e →
      ((s.run events).detach session).2 = s.run events := by
  have hsound := h.sound.run events
  refine ⟨fun m hpayload hstatus ↦ ?_, fun session e ↦ attach_eq_self,
    fun session e ↦ detach_eq_self⟩
  exact answer_eq_self (fun _ _ _ ↦ rfl) hsound.wellFormed hroom hpayload hstatus

theorem second_open_changes_nothing : (new .standard GrantTable.empty).Fresh ∧
    ((new .standard GrantTable.empty).run (opening ⟨7⟩ "/a")).ns.fileCount < Namespace.arenaLimit ∧
    (((new .standard GrantTable.empty).run (opening ⟨7⟩ "/a")).answer (openRequest ⟨7⟩ "/b/c")).2 =
      (new .standard GrantTable.empty).run (opening ⟨7⟩ "/a") := by
  have hfresh : (new .standard GrantTable.empty).Fresh := fresh_new _ _
  have hroom : ((new .standard GrantTable.empty).run (opening ⟨7⟩ "/a")).ns.fileCount <
      Namespace.arenaLimit := by decide +kernel
  refine ⟨hfresh, hroom, ?_⟩
  exact (failed_event_changes_nothing hfresh _ hroom).1 (openRequest ⟨7⟩ "/b/c") (by decide)
    (by decide +kernel)

end Service

end BootNamespace
