import BootNamespace.Proofs.Connection

namespace BootNamespace

/-- What can be asked of a connection's record by itself. -/
inductive RecordChange where
  | bind (file : FileId) (mode : OpenMode)
  | setState (next : ConnectionState)
  | moveTo (cursor : UInt64)
  | advance (n : Nat)
  | reset
  deriving DecidableEq, Repr

/-- A change of the state alone that opens the record or closes it. -/
def RecordChange.Uncouples (conn : Connection) : RecordChange → Prop
  | .setState .opened => conn.state = .closed
  | .setState .closed => conn.state ≠ .closed
  | .setState (.mapped _) | .bind _ _ | .moveTo _ | .advance _ | .reset => False

namespace ConnectionState

variable {state : ConnectionState} {generation : Option UInt32}

theorem allows_closed (state : ConnectionState) : state.allows .closed := by
  cases state <;> rfl

theorem allows_opened_iff : state.allows .opened ↔ state = .closed := by
  cases state <;> simp [allows]

theorem allows_mapped_iff : state.allows (.mapped generation) ↔ state ≠ .closed := by
  cases state <;> simp [allows]

end ConnectionState

namespace Connection

/-- The record after a change, made or refused. -/
def perform (conn : Connection) : RecordChange → Connection
  | .bind file mode => (conn.bind file mode).2
  | .setState next => (conn.setState next).2
  | .moveTo cursor => conn.moveTo cursor
  | .advance n => conn.advance n
  | .reset => conn.reset.2

/-- The record after the changes, asked for one after the other. -/
def after (conn : Connection) (changes : List RecordChange) : Connection :=
  changes.foldl perform conn

/-- A file stands in the record, with its mode, just while the record is open. -/
structure Coupled (conn : Connection) : Prop where
  open_of_file : conn.file.isSome → conn.state ≠ .closed
  mode_iff_file : conn.mode.isSome ↔ conn.file.isSome
  file_of_open : conn.state ≠ .closed → conn.file.isSome

/-- The record tells its file and mode, or takes any file that it is given. -/
def Usable (conn : Connection) : Prop :=
  (∃ file mode, conn.bound = .ok (file, mode)) ∨ ∀ file mode, (conn.bind file mode).1 = .ok ()

/-- All that a change can do to a record, as far as its state, file and mode go together. -/
inductive Effect (conn : Connection) (change : RecordChange) : Connection → Prop
  | kept {next : Connection} (hcalm : ¬change.Uncouples conn)
      (hstate : next.state = .closed ↔ conn.state = .closed) (hmode : next.mode = conn.mode)
      (hfile : next.file = conn.file) : Effect conn change next
  | turned {next : Connection} (hlone : change.Uncouples conn)
      (hstate : next.state = .closed ↔ conn.state ≠ .closed) (hmode : next.mode = conn.mode)
      (hfile : next.file = conn.file) : Effect conn change next
  | tied (id : FileId) (mode : OpenMode) (hcalm : ¬change.Uncouples conn)
      (hfile : conn.file = none) (hclosed : conn.state = .closed) :
      Effect conn change (conn.tied id mode)
  | renewed (hcalm : ¬change.Uncouples conn) : Effect conn change (.new conn.session)

variable {conn next : Connection} {change : RecordChange} {changes : List RecordChange}

theorem bind_cases (conn : Connection) (id : FileId) (mode : OpenMode) :
    conn.file = none ∧ conn.state = .closed ∧ conn.bind id mode = (.ok (), conn.tied id mode) ∨
      conn.bind id mode = (.error .busy, conn) := by
  by_cases hfree : conn.file = none ∧ conn.state = .closed
  · exact .inl ⟨hfree.1, hfree.2, bind_eq hfree.1 hfree.2 id mode⟩
  · refine .inr (if_pos ?_)
    simpa [isClosed, ← Option.ne_none_iff_isSome, or_iff_not_imp_left] using hfree

theorem setState_of_allowed {next : ConnectionState} (h : conn.state.allows next) :
    conn.setState next = (.ok (), { conn with state := next }) := if_pos h

theorem setState_of_refused {next : ConnectionState} (h : ¬conn.state.allows next) :
    conn.setState next = (.error .invalidState, conn) := if_neg h

theorem Effect.unchanged (hcalm : ¬change.Uncouples conn) : conn.Effect change conn :=
  .kept hcalm Iff.rfl rfl rfl

theorem setState_effect (conn : Connection) (next : ConnectionState) :
    conn.Effect (.setState next) (conn.perform (.setState next)) := by
  rw [perform]
  by_cases hclosed : conn.state = .closed
  · cases next with
    | closed =>
      rw [setState_of_allowed (ConnectionState.allows_closed _)]
      exact .kept (not_not.mpr hclosed) (iff_of_true rfl hclosed) rfl rfl
    | opened =>
      rw [setState_of_allowed (ConnectionState.allows_opened_iff.mpr hclosed)]
      exact .turned hclosed (iff_of_false nofun (not_not.mpr hclosed)) rfl rfl
    | mapped generation =>
      rw [setState_of_refused fun h ↦ ConnectionState.allows_mapped_iff.mp h hclosed]
      exact .unchanged not_false
  · cases next with
    | closed =>
      rw [setState_of_allowed (ConnectionState.allows_closed _)]
      exact .turned hclosed (iff_of_true rfl hclosed) rfl rfl
    | opened =>
      rw [setState_of_refused fun h ↦ hclosed (ConnectionState.allows_opened_iff.mp h)]
      exact .unchanged hclosed
    | mapped generation =>
      rw [setState_mapped hclosed]
      exact .kept not_false (iff_of_false nofun hclosed) rfl rfl

theorem perform_effect (conn : Connection) (change : RecordChange) :
    conn.Effect change (conn.perform change) := by
  cases change with
  | bind id mode =>
    rw [perform]
    rcases bind_cases conn id mode with ⟨hfile, hclosed, heq⟩ | heq
    · rw [heq]
      exact .tied id mode not_false hfile hclosed
    · rw [heq]
      exact .unchanged not_false
  | setState next => exact setState_effect conn next
  | moveTo cursor => exact .kept not_false Iff.rfl rfl rfl
  | advance n => exact .kept not_false Iff.rfl rfl rfl
  | reset => exact .renewed not_false

theorem coupled_new (session : SessionId) : (new session).Coupled :=
  ⟨nofun, Iff.rfl, fun hopen ↦ absurd rfl hopen⟩

theorem coupled_tied (conn : Connection) (id : FileId) (mode : OpenMode) :
    (conn.tied id mode).Coupled :=
  ⟨fun _ ↦ nofun, Iff.rfl, fun _ ↦ rfl⟩

theorem Effect.mode_iff_file (h : conn.Effect change next)
    (hmode : conn.mode.isSome ↔ conn.file.isSome) : next.mode.isSome ↔ next.file.isSome := by
  cases h with
  | kept hcalm hstate hmode' hfile => rw [hmode', hfile, hmode]
  | turned hlone hstate hmode' hfile => rw [hmode', hfile, hmode]
  | tied id mode => exact (coupled_tied conn id mode).mode_iff_file
  | renewed => exact (coupled_new conn.session).mode_iff_file

/-- One change uncouples a record exactly if it opens or closes it without its file. -/
theorem Effect.coupled_iff (h : conn.Effect change next) (hconn : conn.Coupled) :
    next.Coupled ↔ ¬change.Uncouples conn := by
  cases h with
  | kept hcalm hstate hmode hfile =>
    refine iff_of_true ⟨?_, ?_, ?_⟩ hcalm
    · rw [hfile, ne_eq, hstate]
      exact hconn.open_of_file
    · rw [hmode, hfile]
      exact hconn.mode_iff_file
    · rw [hfile, ne_eq, hstate]
      exact hconn.file_of_open
  | turned hlone hstate hmode hfile =>
    refine iff_of_false (fun hnext ↦ ?_) (not_not.mpr hlone)
    -- The file stays as it was, while the state goes over to the other side.
    by_cases hclosed : conn.state = .closed
    · have hsome := hnext.file_of_open fun hnext ↦ hstate.mp hnext hclosed
      rw [hfile] at hsome
      exact hconn.open_of_file hsome hclosed
    · have hsome := hconn.file_of_open hclosed
      rw [← hfile] at hsome
      exact hnext.open_of_file hsome (hstate.mpr hclosed)
  | tied id mode hcalm => exact iff_of_true (coupled_tied conn id mode) hcalm
  | renewed hcalm => exact iff_of_true (coupled_new conn.session) hcalm

theorem after_concat (conn : Connection) (changes : List RecordChange) (change : RecordChange) :
    conn.after (changes ++ [change]) = (conn.after changes).perform change := by
  rw [after, List.foldl_append]
  rfl

theorem mode_iff_file_after (h : conn.mode.isSome ↔ conn.file.isSome)
    (changes : List RecordChange) :
    (conn.after changes).mode.isSome ↔ (conn.after changes).file.isSome := by
  induction changes using List.reverseRecOn with
  | nil => exact h
  | append_singleton changes change ih =>
    rw [after_concat]
    exact (perform_effect _ change).mode_iff_file ih

theorem coupled_iff_usable (hmode : conn.mode.isSome ↔ conn.file.isSome) :
    conn.Coupled ↔ conn.Usable := by
  constructor
  · intro h
    by_cases hclosed : conn.state = .closed
    · have hfile : conn.file = none := by
        rw [← Option.not_isSome_iff_eq_none]
        exact fun hsome ↦ h.open_of_file hsome hclosed
      refine .inr fun id mode ↦ ?_
      rw [bind_eq hfile hclosed]
    · have hsome := h.file_of_open hclosed
      obtain ⟨id, hfile⟩ := Option.isSome_iff_exists.mp hsome
      obtain ⟨mode, hmode⟩ := Option.isSome_iff_exists.mp (hmode.mpr hsome)
      exact .inl ⟨id, mode, bound_eq_ok.mpr ⟨hclosed, hfile, hmode⟩⟩
  · rintro (⟨id, mode, hbound⟩ | hbind)
    · obtain ⟨hopen, hfile, -⟩ := bound_eq_ok.mp hbound
      exact ⟨fun _ ↦ hopen, hmode, fun _ ↦ by rw [hfile]; rfl⟩
    · rcases bind_cases conn ⟨0, 0⟩ .readOnly with ⟨hfile, hclosed, -⟩ | heq
      · refine ⟨fun hsome ↦ ?_, hmode, fun hopen ↦ absurd hclosed hopen⟩
        rw [hfile] at hsome
        cases hsome
      · have hok := hbind ⟨0, 0⟩ .readOnly
        rw [heq] at hok
        cases hok

/-- A record stays coupled along a run exactly if no change of the run uncouples it. -/
theorem coupled_along_iff (h : conn.Coupled) :
    (∀ prior, prior <+: changes → (conn.after prior).Coupled) ↔
      ∀ prior change, prior ++ [change] <+: changes → ¬change.Uncouples (conn.after prior) := by
  constructor
  · intro hall prior change hprior
    have hnext := hall _ hprior
    rw [after_concat] at hnext
    have hnow := hall prior ((List.prefix_append prior [change]).trans hprior)
    exact ((perform_effect _ change).coupled_iff hnow).mp hnext
  · intro hnone prior
    -- From the end of the run, since a change is judged by the record that it meets.
    induction prior using List.reverseRecOn with
    | nil => exact fun _ ↦ h
    | append_singleton prior change ih =>
      intro hprior
      have hnow := ih ((List.prefix_append prior [change]).trans hprior)
      rw [after_concat]
      exact ((perform_effect _ change).coupled_iff hnow).mpr (hnone prior change hprior)

end Connection

namespace ConnectionTable

open Connection

variable {table table' : ConnectionTable} {session : SessionId}

theorem attach_eq_ok (h : table.attach session = (.ok (), table')) :
    table'.get? session = some (.new session) := by
  unfold attach at h
  split at h
  · cases h
  · cases h
    exact get?_put_self

/-- Whatever is asked of a new record, it has a mode just if it has a file, and is coupled just as
long as it can be used. It is coupled again once it is reset, and stays so through a run exactly if
its state is never changed alone so that it opens or closes. -/
theorem attached_coupled_iff (h : table.attach session = (.ok (), table')) :
    ∃ conn, table'.get? session = some conn ∧ ∀ changes : List RecordChange,
      ((conn.after changes).mode.isSome ↔ (conn.after changes).file.isSome) ∧
      ((conn.after changes).Coupled ↔ (conn.after changes).Usable) ∧
      (conn.after (changes ++ [.reset])).Coupled ∧
      ((∀ prior, prior <+: changes → (conn.after prior).Coupled) ↔
        ∀ prior change, prior ++ [change] <+: changes → ¬change.Uncouples (conn.after prior)) := by
  refine ⟨.new session, attach_eq_ok h, fun changes ↦ ?_⟩
  have hnew := coupled_new session
  have hmode := mode_iff_file_after hnew.mode_iff_file changes
  refine ⟨hmode, coupled_iff_usable hmode, ?_, coupled_along_iff hnew⟩
  rw [after_concat]
  exact coupled_new _

/-- A record that is bound, shared and moved through. -/
def sharedUse : List RecordChange :=
  [.bind ⟨0, 0⟩ .readWrite, .setState (.mapped (some 3)), .advance 5, .setState (.mapped none)]

theorem shared_record_coupled : ∃ table conn, empty.attach ⟨7⟩ = (.ok (), table) ∧
    table.get? ⟨7⟩ = some conn ∧ (conn.after sharedUse).Coupled ∧
    conn.after sharedUse = ⟨⟨7⟩, .mapped none, some .readWrite, 5, some ⟨0, 0⟩⟩ := by
  have hattach : empty.attach ⟨7⟩ = (.ok (), empty.put ⟨7⟩ (.new ⟨7⟩)) := rfl
  obtain ⟨conn, hget, hrun⟩ := attached_coupled_iff hattach
  cases hget
  obtain ⟨-, -, -, halong⟩ := hrun sharedUse
  refine ⟨_, _, hattach, rfl, halong.mpr (fun prior change hprior ↦ ?_) _ List.prefix_rfl, rfl⟩
  have hmem : change ∈ sharedUse := hprior.subset (by simp)
  simp only [sharedUse, List.mem_cons, List.not_mem_nil, or_false] at hmem
  rcases hmem with rfl | rfl | rfl | rfl <;> exact not_false

/-- A bound record that is closed by its state alone keeps the file, and a new one that is opened so
has none. -/
theorem closed_record_keeps_file : ∃ table conn, empty.attach ⟨0⟩ = (.ok (), table) ∧
    table.get? ⟨0⟩ = some conn ∧
    conn.after [.bind ⟨0, 0⟩ .readOnly, .setState .closed] =
      ⟨⟨0⟩, .closed, some .readOnly, 0, some ⟨0, 0⟩⟩ ∧
    ¬(conn.after [.bind ⟨0, 0⟩ .readOnly, .setState .closed]).Coupled ∧
    conn.after [.setState .opened] = ⟨⟨0⟩, .opened, none, 0, none⟩ ∧
    ¬(conn.after [.setState .opened]).Coupled := by
  refine ⟨empty.put ⟨0⟩ (.new ⟨0⟩), .new ⟨0⟩, rfl, rfl, rfl, ?_, rfl, ?_⟩
  · exact fun h ↦ h.open_of_file rfl rfl
  · exact fun h ↦ nomatch h.file_of_open nofun

end ConnectionTable

end BootNamespace
