import BootNamespace.Proofs.Service.Cursors
import BootNamespace.Service.App
import BootNamespace.Dispatch.Dispatcher

namespace BootNamespace

namespace PlainFiles

variable (p p' : PlainFiles) (m : Message)

/-- `n` bytes have gone from the file to the reply. -/
structure Delivered (id : FileId) (payload : Bytes) (n : Nat) : Prop where
  bytes : payload = ((p.content id).drop (p.cursor m.session)).take n
  length : payload.length = n
  files : p' = p.moveTo m.session (p.cursor m.session + n)

/-- `n` bytes of the payload have gone into the file. -/
structure Stored (id : FileId) (n : Nat) : Prop where
  length : n ≤ m.payload.length
  inside : n ≤ (p.content id).length - p.cursor m.session
  files : p' = (p.store id ((p.content id).take (p.cursor m.session) ++ m.payload.toList.take n ++
    (p.content id).drop (p.cursor m.session + n))).moveTo m.session (p.cursor m.session + n)

variable (bound : SessionId → Option (FileId × OpenMode))

/-- A status that is not negative counts the bytes that a read or a write has moved, the cursor with
them, and behind a negative one nothing has moved. -/
structure Honest (reply : Reply) : Prop where
  counted : 0 ≤ reply.status → ∃ (n : Nat) (id : FileId) (mode : OpenMode),
    reply.status.toInt = n ∧ bound m.session = some (id, mode) ∧
    (m.header.operation = some .read → p.Delivered p' m id reply.payload n) ∧
    (m.header.operation = some .write → p.Stored p' m id n)
  unmoved : reply.status < 0 → p' = p

/-- A permitted write that has more bytes to store, and room for them, than a status can count. -/
def Overlong : Prop :=
  m.header.operation = some .write ∧ ∃ id mode, bound m.session = some (id, mode) ∧
    mode.canWrite ∧ 2 ^ 31 ≤ min m.payload.length ((p.content id).length - p.cursor m.session)

variable {p p' m bound} {reply : Reply}

theorem Honest.of_negative (h : reply.status < 0) (hsame : p' = p) : p.Honest p' m bound reply where
  counted hnonneg := absurd h (Int32.not_lt.mpr hnonneg)
  unmoved _ := hsame

theorem honest_refused {status : Int32} (h : status < 0) (rbytes : UInt32) :
    p.Honest p m bound ((Answer.refused status).narrowed.clamp rbytes) := by
  refine .of_negative ?_ rfl
  dsimp only [Reply.clamp, Answer.narrowed, Answer.refused]
  rw [Int32.ofInt_toInt]
  exact h

theorem read_honest {id : FileId} {mode : OpenMode} (hbound : bound m.session = some (id, mode))
    (hop : m.header.operation = some .read) :
    p.Honest (p.read m id).2 m bound ((p.read m id).1.narrowed.clamp m.header.rbytes) := by
  unfold read
  dsimp only [Answer.narrowed, Reply.clamp]
  generalize hdata : ((p.content id).drop (p.cursor m.session)).take
    (min m.header.rbytes.toNat (2 ^ 31 - 1)) = data
  have hlength : data.length ≤ min m.header.rbytes.toNat (2 ^ 31 - 1) := by
    rw [← hdata]
    exact List.length_take_le _ _
  have hwhole : data.take m.header.rbytes.toNat = data :=
    List.take_of_length_le (Nat.le_trans hlength (Nat.min_le_left _ _))
  have hstarts : data = ((p.content id).drop (p.cursor m.session)).take data.length := by
    rw [← hdata]
    exact List.prefix_iff_eq_take.mp (List.take_prefix _ _)
  have hstatus : (Int32.ofInt data.length).toInt = data.length :=
    Int32.toInt_ofInt_of_le (by omega) (by omega)
  rw [hwhole]
  refine ⟨fun _ ↦ ⟨data.length, id, mode, hstatus, hbound, fun _ ↦ ⟨hstarts, rfl, rfl⟩, ?_⟩,
    fun hnegative ↦ ?_⟩
  · intro hwrite
    rw [hop] at hwrite
    cases hwrite
  · rw [Int32.lt_iff_toInt_lt] at hnegative
    dsimp only at hnegative
    rw [hstatus] at hnegative
    exact absurd hnegative (Int.not_lt.mpr (Int.natCast_nonneg _))

/-- A count of 31 bits is told, and a longer one comes out negative. -/
theorem write_honest_iff {id : FileId} {mode : OpenMode}
    (hbound : bound m.session = some (id, mode)) (hop : m.header.operation = some .write)
    (hpayload : m.payload.length < 2 ^ 32) :
    p.Honest (p.write m id).2 m bound ((p.write m id).1.narrowed.clamp m.header.rbytes) ↔
      min m.payload.length ((p.content id).length - p.cursor m.session) < 2 ^ 31 := by
  unfold write
  dsimp only [Answer.narrowed, Reply.clamp]
  generalize hn : min m.payload.length ((p.content id).length - p.cursor m.session) = n
  have hcount : (m.payload.toList.take ((p.content id).length - p.cursor m.session)).length =
      n := by
    rw [List.length_take, Buffer.length_toList, Nat.min_comm, hn]
  have hstored : m.payload.toList.take ((p.content id).length - p.cursor m.session) =
      m.payload.toList.take n := by
    rw [← hcount]
    exact List.prefix_iff_eq_take.mp (List.take_prefix _ _)
  rw [hcount, hstored]
  constructor
  · intro hhonest
    by_contra hlong
    have hstatus : (Int32.ofInt n).toInt = n - 2 ^ 32 := by
      rw [Int32.toInt_ofInt, Int.bmod_def]
      unfold Int32.size
      omega
    have hnegative : Int32.ofInt n < 0 := by
      rw [Int32.lt_iff_toInt_lt, hstatus]
      change (n : Int) - 2 ^ 32 < 0
      omega
    have hcursor := congrArg (fun q ↦ q.cursor m.session) (hhonest.unmoved hnegative)
    dsimp only [moveTo, store] at hcursor
    rw [if_pos rfl] at hcursor
    omega
  · intro hshort
    have hstatus : (Int32.ofInt n).toInt = n := Int32.toInt_ofInt_of_le (by omega) (by omega)
    refine ⟨fun _ ↦ ⟨n, id, mode, hstatus, hbound, ?_, fun _ ↦ ⟨?_, ?_, rfl⟩⟩, fun hnegative ↦ ?_⟩
    · intro hread
      rw [hop] at hread
      cases hread
    · omega
    · omega
    · rw [Int32.lt_iff_toInt_lt] at hnegative
      dsimp only at hnegative
      rw [hstatus] at hnegative
      exact absurd hnegative (Int.not_lt.mpr (Int.natCast_nonneg _))

theorem step_honest_iff (hpayload : m.payload.length < 2 ^ 32)
    (hop : m.header.operation = some .read ∨ m.header.operation = some .write) :
    p.Honest (p.step m bound).2 m bound ((p.step m bound).1.narrowed.clamp m.header.rbytes) ↔
      ¬p.Overlong m bound := by
  unfold step
  cases hbound : bound m.session with
  | none =>
    refine iff_of_true (honest_refused (by decide) _) ?_
    rintro ⟨-, id, mode, hsome, -⟩
    rw [hbound] at hsome
    cases hsome
  | some opened =>
    obtain ⟨id, mode⟩ := opened
    rcases hop with hop | hop
    · have hnot : ¬p.Overlong m bound := by
        rintro ⟨hwrite, -⟩
        rw [hop] at hwrite
        cases hwrite
      rw [hop]
      dsimp only
      cases mode.canRead with
      | false => exact iff_of_true (honest_refused (by decide) _) hnot
      | true => exact iff_of_true (read_honest hbound hop) hnot
    · have hoverlong : p.Overlong m bound ↔ mode.canWrite ∧
          2 ^ 31 ≤ min m.payload.length ((p.content id).length - p.cursor m.session) := by
        constructor
        · rintro ⟨-, id', mode', hsome, hlong⟩
          rw [hbound] at hsome
          cases hsome
          exact hlong
        · exact fun hlong ↦ ⟨hop, id, mode, hbound, hlong⟩
      rw [hop, hoverlong]
      dsimp only
      cases mode.canWrite with
      | false => exact iff_of_true (honest_refused (by decide) _) (by simp)
      | true =>
        refine (write_honest_iff hbound hop hpayload).trans ?_
        rw [← Nat.not_le]
        exact not_congr (and_iff_right rfl).symm

end PlainFiles

namespace Service

variable {σ : Type} [Sharing σ] {s : Service σ} {d : Dispatcher} {m framed : Message}
variable {held : FileId → Nat} {conn : Connection} {id : FileId} {mode : OpenMode} {old : FileNode}

theorem frame_cases (hframe : d.frame m = .ok framed) :
    framed.header = m.header ∧ framed.payload.length ≤ d.context.bufferSize.toNat ∧
      framed.payload.length < 2 ^ 32 := by
  unfold Dispatcher.frame at hframe
  dsimp only at hframe
  split at hframe
  · cases hframe
  · split at hframe
    · cases hframe
    · split at hframe
      · cases hframe
      · cases hframe
        have hdeclared := m.header.sbytes.toNat_lt
        refine ⟨rfl, ?_⟩
        rw [Buffer.length_take]
        omega

omit [Sharing σ] in
theorem frame_eq_ok (hop : m.header.operation.isNone = false)
    (hbuffer : m.header.sbytes.toNat ≤ d.context.bufferSize.toNat)
    (hlength : m.payload.length = m.header.sbytes.toNat) : d.frame m = .ok m := by
  have hwhole : m.payload.take m.header.sbytes.toNat = m.payload :=
    Buffer.take_of_length_le (Nat.le_of_eq hlength)
  have hfits : ¬m.payload.length < m.header.sbytes.toNat := by omega
  rw [Dispatcher.frame, hop, if_neg (by decide), if_neg (Nat.not_lt.mpr hbuffer), if_neg hfits,
    hwhole]

theorem request_admitted (s : Service σ) (hframe : d.frame m = .ok framed) :
    (d.request s m).1 = (s.answer framed).1.clamp m.header.rbytes ∧
      (d.request s m).2.2 = (s.answer framed).2 := by
  have hcounted : (d.count fun stats ↦ { stats with requests := stats.requests + 1 }).frame m =
      .ok framed := hframe
  rw [Dispatcher.request]
  dsimp only
  rw [hcounted]
  exact ⟨rfl, rfl⟩

theorem Sound.request_honest_iff (h : s.Sound held) (hframe : d.frame m = .ok framed)
    (hop : m.header.operation = some .read ∨ m.header.operation = some .write) :
    s.plain.Honest (d.request s m).2.2.plain framed s.bound? (d.request s m).1 ↔
      ¬s.plain.Overlong framed s.bound? := by
  obtain ⟨hheader, -, hlength⟩ := frame_cases hframe
  obtain ⟨hrequest, hnext⟩ := request_admitted s hframe
  rw [← hheader] at hop
  have hmoves : framed.MovesCursor := by
    rcases hop with hop | hop
    · exact .read hop
    · exact .write hop
  obtain ⟨hreply, hplain, -⟩ := answer_mirrors h hmoves
  rw [hrequest, hnext, hreply, hplain, ← hheader]
  exact PlainFiles.step_honest_iff hlength hop

/-- The status of an admitted read or write tells what has moved, but for a write of more bytes than
a signed 32-bit word can count. A buffer that is no longer than that keeps such a write out. -/
theorem status_honest_iff (h : s.Fresh) (events : List Event) (hframe : d.frame m = .ok framed)
    (hop : m.header.operation = some .read ∨ m.header.operation = some .write) :
    ((s.run events).plain.Honest (d.request (s.run events) m).2.2.plain framed
        (s.run events).bound? (d.request (s.run events) m).1 ↔
      ¬(s.run events).plain.Overlong framed (s.run events).bound?) ∧
    (d.context.bufferSize.toNat < 2 ^ 31 →
      ¬(s.run events).plain.Overlong framed (s.run events).bound?) := by
  refine ⟨(h.sound.run events).request_honest_iff hframe hop, ?_⟩
  rintro hsmall ⟨-, id, mode, -, -, hlong⟩
  have hbuffer := (frame_cases hframe).2.1
  omega

omit [Sharing σ] in
theorem overlong_of_room (hbound : s.bound? m.session = some (id, mode)) (hmode : mode.canWrite)
    (hop : m.header.operation = some .write) (hpayload : 2 ^ 31 ≤ m.payload.length)
    (hroom : s.cursor m.session + 2 ^ 31 ≤ (s.content id).length) :
    s.plain.Overlong m s.bound? := by
  refine ⟨hop, id, mode, hbound, hmode, ?_⟩
  dsimp only [plain]
  omega

def writeThree : Message := ⟨⟨0⟩, ⟨7⟩, .new .write 0 3 0, .ofList [1, 2, 3]⟩

theorem short_write_counted : (new bytewise GrantTable.empty).Fresh ∧
    (Dispatcher.new bytewise.context).frame writeThree = .ok writeThree ∧
    ((new bytewise GrantTable.empty).run sharedFile).plain.Honest
      ((Dispatcher.new bytewise.context).request
        ((new bytewise GrantTable.empty).run sharedFile) writeThree).2.2.plain writeThree
      ((new bytewise GrantTable.empty).run sharedFile).bound?
      ((Dispatcher.new bytewise.context).request
        ((new bytewise GrantTable.empty).run sharedFile) writeThree).1 := by
  have hfresh : (new bytewise GrantTable.empty).Fresh := fresh_new _ _
  have hframe : (Dispatcher.new bytewise.context).frame writeThree = .ok writeThree :=
    frame_eq_ok rfl (by decide) rfl
  obtain ⟨hiff, hsmall⟩ := status_honest_iff hfresh sharedFile hframe (.inr rfl)
  exact ⟨hfresh, hframe, hiff.mpr (hsmall (by decide))⟩

/-- A configuration under which a request may be longer than a status can count. -/
def roomy : ServerConfig :=
  { ServerConfig.standard with bufferSize := 4294967296, maxFileSize := 2147483648 }

/-- A session has a file of two gibibytes open for writing. -/
def longFile : List Event :=
  [.attach ⟨7⟩,
    .io ⟨⟨0⟩, ⟨7⟩, .new .openFile (OpenFlags.readWrite ||| OpenFlags.create) 0 0,
      Path.toPayload "/f"⟩,
    truncateTo ⟨7⟩ 2147483648]

def longWrite : Message :=
  ⟨⟨0⟩, ⟨7⟩, .new .write 0 2147483648 0, .ofList (List.replicate 2147483648 97)⟩

theorem longWrite_length : longWrite.payload.length = 2147483648 := List.length_replicate

theorem longFile_open : ((new roomy GrantTable.empty).run longFile).bound? ⟨7⟩ =
      some (⟨0, 0⟩, .readWrite) ∧
    (((new roomy GrantTable.empty).run longFile).content ⟨0, 0⟩).length = 2147483648 ∧
    ((new roomy GrantTable.empty).run longFile).cursor ⟨7⟩ = 0 := by
  obtain ⟨opened, hopened⟩ : ∃ opened, opened =
      (new roomy GrantTable.empty).run (longFile.take 2) := ⟨_, rfl⟩
  have hbound : opened.boundConnection ⟨7⟩ =
      .ok (⟨⟨7⟩, .opened, some .readWrite, 0, some ⟨0, 0⟩⟩, ⟨0, 0⟩, .readWrite) := by
    rw [hopened]
    decide +kernel
  have hlive : opened.ns.file? ⟨0, 0⟩ = some ⟨"f", .root, .empty, .created, 1, 0⟩ := by
    rw [hopened]
    decide +kernel
  have hmax : 2147483648 ≤ opened.config.maxFileSize := by
    rw [hopened]
    decide +kernel
  have hround : Namespace.roundUp opened.ns.pageSize 2147483648 = some 2147483648 := by
    rw [hopened]
    decide +kernel
  obtain ⟨request, hrequest⟩ : ∃ request, request =
      fileRequest ⟨7⟩ .truncate (Bytes.ofUInt32 2147483648) := ⟨_, rfl⟩
  have hop : request.header.operation = some .truncate := by rw [hrequest]; rfl
  have hsize : truncateSize request.payload = .ok 2147483648 := by
    rw [hrequest]
    decide +kernel
  have hsession : request.session = ⟨7⟩ := by rw [hrequest]; rfl
  have hlast : (new roomy GrantTable.empty).run longFile = (opened.truncate request).2 := by
    have hafter : (new roomy GrantTable.empty).run longFile = opened.after (.io request) := by
      rw [hopened, hrequest]
      rfl
    rw [hafter, after, answer_known _ hop, handle]
  rw [← hsession] at hbound ⊢
  rw [hlast, truncate_file hbound hlive (by decide) hsize (by decide) hmax hround (by decide)]
  refine ⟨bound?_eq_some hbound, ?_, ?_⟩
  · rw [content_of_file? (Namespace.file?_putFile_self hlive), Buffer.length_toList,
      Buffer.length_resize]
  · exact cursor_of_get? (boundConnection_eq_ok.mp hbound).1

/-- A write of two gibibytes is stored and answered as if it had failed. -/
theorem long_write_miscounted : roomy.validate = .ok () ∧ (new roomy GrantTable.empty).Fresh ∧
    (Dispatcher.new roomy.context).frame longWrite = .ok longWrite ∧
    ¬((new roomy GrantTable.empty).run longFile).plain.Honest
      ((Dispatcher.new roomy.context).request
        ((new roomy GrantTable.empty).run longFile) longWrite).2.2.plain longWrite
      ((new roomy GrantTable.empty).run longFile).bound?
      ((Dispatcher.new roomy.context).request
        ((new roomy GrantTable.empty).run longFile) longWrite).1 := by
  have hfresh : (new roomy GrantTable.empty).Fresh := fresh_new _ _
  have hsbytes : longWrite.header.sbytes.toNat = 2147483648 := by decide
  have hframe : (Dispatcher.new roomy.context).frame longWrite = .ok longWrite :=
    frame_eq_ok rfl (by decide) (longWrite_length.trans hsbytes.symm)
  obtain ⟨hbound, hcontent, hcursor⟩ := longFile_open
  refine ⟨rfl, hfresh, hframe, ?_⟩
  rw [(hfresh.sound.run longFile).request_honest_iff hframe (.inr rfl), not_not]
  refine overlong_of_room hbound rfl rfl ?_ ?_
  · rw [longWrite_length]
    decide
  · rw [hcontent]
    exact Nat.le_of_eq (congrArg (· + 2 ^ 31) hcursor)

end Service

end BootNamespace
