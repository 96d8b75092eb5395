import Mathlib.Algebra.Ring.Int.Defs
import Mathlib.Algebra.Ring.Nat
import BootNamespace.Proofs.Namespace.Intact
import BootNamespace.Proofs.Service.Consistency
import BootNamespace.Proofs.Service.Grants

namespace BootNamespace

/-- What the files hold, and how far each session has got in its own. -/
structure PlainFiles where
  content : FileId → Bytes
  cursor : SessionId → Nat

namespace PlainFiles

structure Answer where
  status : Int
  payload : Bytes
  deriving DecidableEq

def Answer.refused (status : Int32) : Answer := ⟨status.toInt, []⟩

/-- The reply in which the status has the 32 bits that replies have for it. -/
def Answer.narrowed (answer : Answer) : Reply := ⟨.ofInt answer.status, answer.payload⟩

end PlainFiles

def Reply.plain (reply : Reply) : PlainFiles.Answer := ⟨reply.status.toInt, reply.payload⟩

namespace PlainFiles

variable (p : PlainFiles) (m : Message) (id : FileId)

def moveTo (session : SessionId) (cursor : Nat) : PlainFiles :=
  { p with cursor := fun t ↦ if t = session then cursor else p.cursor t }

def store (bytes : Bytes) : PlainFiles :=
  { p with content := fun other ↦ if other = id then bytes else p.content other }

def read : Answer × PlainFiles :=
  let cursor := p.cursor m.session
  let data := ((p.content id).drop cursor).take (min m.header.rbytes.toNat (2 ^ 31 - 1))
  (⟨data.length, data⟩, p.moveTo m.session (cursor + data.length))

def write : Answer × PlainFiles :=
  let cursor := p.cursor m.session
  let old := p.content id
  let stored := m.payload.toList.take (old.length - cursor)
  let new := old.take cursor ++ stored ++ old.drop (cursor + stored.length)
  (⟨stored.length, []⟩, (p.store id new).moveTo m.session (cursor + stored.length))

def seekBase? : Option Nat :=
  if m.header.code = Whence.start then some 0
  else if m.header.code = Whence.current then some (p.cursor m.session)
  else if m.header.code = Whence.fileEnd then some (p.content id).length
  else none

def seek : Answer × PlainFiles :=
  match p.seekBase? m id with
  | none => (.refused Status.invalid, p)
  | some base =>
    let target := base + Int.bmod (Bytes.value (m.payload.toList.take 8)) (2 ^ 64)
    if 0 ≤ target ∧ target < 2 ^ 64 then
      (⟨0, Bytes.littleEndian 8 target.toNat⟩, p.moveTo m.session target.toNat)
    else (.refused Status.invalid, p)

def step (bound : SessionId → Option (FileId × OpenMode)) : Answer × PlainFiles :=
  match bound m.session with
  | none => (.refused Status.failed, p)
  | some (id, mode) =>
    match m.header.operation with
    | some .read => if mode.canRead then p.read m id else (.refused Status.access, p)
    | some .write => if mode.canWrite then p.write m id else (.refused Status.access, p)
    | some .seek => p.seek m id
    | _ => (.refused Status.invalid, p)

def run (bound : SessionId → Option (FileId × OpenMode)) :
    PlainFiles → List Message → List Answer × PlainFiles
  | p, [] => ([], p)
  | p, m :: ms =>
    let (answer, p) := p.step m bound
    let (answers, p) := run bound p ms
    (answer :: answers, p)

theorem write_length (p : PlainFiles) (m : Message) (id other : FileId) :
    ((p.write m id).2.content other).length = (p.content other).length := by
  dsimp only [write, moveTo, store]
  split
  next hother =>
    subst hother
    simp only [List.length_append, List.length_take, List.length_drop]
    omega
  next => rfl

theorem seek_cases (p : PlainFiles) (m : Message) (id : FileId) :
    p.seek m id = (.refused Status.invalid, p) ∨
      ∃ payload cursor, p.seek m id = (⟨0, payload⟩, p.moveTo m.session cursor) := by
  unfold seek
  cases p.seekBase? m id with
  | none => exact .inl rfl
  | some base =>
    dsimp only
    generalize (base : Int) + Int.bmod (Bytes.value (m.payload.toList.take 8)) (2 ^ 64) = target
    by_cases hrange : 0 ≤ target ∧ target < 2 ^ 64
    · exact .inr ⟨_, _, if_pos hrange⟩
    · exact .inl (if_neg hrange)

theorem step_length (p : PlainFiles) (m : Message)
    (bound : SessionId → Option (FileId × OpenMode)) (id : FileId) :
    ((p.step m bound).2.content id).length = (p.content id).length := by
  unfold step
  split
  next => rfl
  next file mode _ =>
    split
    next =>
      split
      next => rfl
      next => rfl
    next =>
      split
      next => exact p.write_length m file id
      next => rfl
    next =>
      rcases p.seek_cases m file with hseek | ⟨payload, cursor, hseek⟩
      · rw [hseek]
      · rw [hseek]
        rfl
    next => rfl

/-- A status has room for every answer but the count of a very long write. -/
theorem step_status (p : PlainFiles) {m : Message} (bound : SessionId → Option (FileId × OpenMode))
    (hshort : m.header.operation = some .write → m.payload.length ≤ 2 ^ 31 - 1) :
    -2 ^ 31 ≤ (p.step m bound).1.status ∧ (p.step m bound).1.status < 2 ^ 31 := by
  have hrefused (status : Int32) : -2 ^ 31 ≤ (Answer.refused status).status ∧
      (Answer.refused status).status < 2 ^ 31 := ⟨status.le_toInt, status.toInt_lt⟩
  unfold step
  split
  next => exact hrefused _
  next id mode _ =>
    split
    next =>
      split
      next =>
        dsimp only [read]
        rw [List.length_take]
        omega
      next => exact hrefused _
    next hop =>
      split
      next =>
        have hlength := hshort hop
        dsimp only [write]
        rw [List.length_take, Buffer.length_toList]
        omega
      next => exact hrefused _
    next =>
      rcases p.seek_cases m id with hseek | ⟨payload, cursor, hseek⟩
      · rw [hseek]
        exact hrefused _
      · rw [hseek]
        dsimp only
        omega
    next => exact hrefused _

theorem Answer.plain_narrowed {answer : Answer} (hge : -2 ^ 31 ≤ answer.status)
    (hlt : answer.status < 2 ^ 31) : answer.narrowed.plain = answer := by
  rw [Reply.plain, narrowed, Int32.toInt_ofInt_of_le hge hlt]

/-- No file gets longer or shorter. -/
theorem run_length (p : PlainFiles) (bound : SessionId → Option (FileId × OpenMode))
    (ms : List Message) (id : FileId) :
    ((p.run bound ms).2.content id).length = (p.content id).length := by
  induction ms generalizing p with
  | nil => rfl
  | cons m ms ih => exact (ih (p.step m bound).2).trans (p.step_length m bound id)

end PlainFiles

/-- A read, a write, or a seek that says how far. -/
inductive Message.MovesCursor (m : Message) : Prop
  | read (hop : m.header.operation = some .read)
  | write (hop : m.header.operation = some .write)
  | seek (hop : m.header.operation = some .seek) (hpayload : 8 ≤ m.payload.length)

namespace Service

variable {σ : Type}

def content (s : Service σ) (id : FileId) : Bytes :=
  match s.ns.file? id with
  | some file => file.data.toList
  | none => []

def cursor (s : Service σ) (session : SessionId) : Nat :=
  match s.connections.get? session with
  | some conn => conn.cursor.toNat
  | none => 0

def plain (s : Service σ) : PlainFiles := ⟨s.content, s.cursor⟩

/-- The file that a session has open, and how. -/
def bound? (s : Service σ) (session : SessionId) : Option (FileId × OpenMode) :=
  match s.boundConnection session with
  | .ok (_, id, mode) => some (id, mode)
  | .error _ => none

section Serve

variable [Sharing σ]

/-- The replies to messages that come one after the other, and the service after the last. -/
def serve : Service σ → List Message → List Reply × Service σ
  | s, [] => ([], s)
  | s, m :: ms =>
    let (reply, s) := s.answer m
    let (replies, s) := serve s ms
    (reply :: replies, s)

end Serve

/-- A handler does to the service what was done to the plain files, and says the same. -/
structure Mirrors (s : Service σ) (result : Except FsError Reply × Service σ)
    (answer : PlainFiles.Answer × PlainFiles) : Prop where
  reply : Reply.ofResult result.1 = answer.1.narrowed
  plain : result.2.plain = answer.2
  bound : result.2.bound? = s.bound?

variable {s : Service σ} {m : Message} {held : FileId → Nat} {session : SessionId}
variable {conn : Connection} {id : FileId} {mode : OpenMode} {file old : FileNode} {ns' : Namespace}

theorem content_of_file? (hfile : s.ns.file? id = some file) : s.content id = file.data.toList := by
  rw [content, hfile]

theorem cursor_of_get? (hget : s.connections.get? session = some conn) :
    s.cursor session = conn.cursor.toNat := by
  rw [cursor, hget]

theorem plain_putConnection (s : Service σ) (session : SessionId) (conn : Connection) :
    (s.putConnection session conn).plain = s.plain.moveTo session conn.cursor.toNat := by
  have hcursor : (s.putConnection session conn).cursor =
      (s.plain.moveTo session conn.cursor.toNat).cursor := by
    funext t
    dsimp only [PlainFiles.moveTo, plain]
    by_cases ht : t = session
    · subst ht
      rw [if_pos rfl, cursor_of_get? connections_put_self]
    · rw [if_neg ht, cursor, cursor, putConnection, ConnectionTable.get?_put_of_ne ht]
  rw [plain, hcursor]
  rfl

theorem plain_putFile (hold : s.ns.file? id = some old) (file : FileNode) :
    { s with ns := s.ns.putFile id file }.plain = s.plain.store id file.data.toList := by
  have hcontent : { s with ns := s.ns.putFile id file }.content =
      (s.plain.store id file.data.toList).content := by
    funext other
    dsimp only [PlainFiles.store, plain, content]
    rw [Namespace.file?_putFile hold]
    by_cases hother : other = id
    · rw [if_pos hother, if_pos hother]
    · rw [if_neg hother, if_neg hother]
  rw [plain, hcontent]
  rfl

theorem bound?_eq_some (hbound : s.boundConnection session = .ok (conn, id, mode)) :
    s.bound? session = some (id, mode) := by
  rw [bound?, hbound]

theorem bound?_moveTo (hbound : s.boundConnection session = .ok (conn, id, mode))
    (cursor : UInt64) : (s.putConnection session (conn.moveTo cursor)).bound? = s.bound? := by
  funext t
  by_cases ht : t = session
  · subst ht
    have hnext : (s.putConnection t (conn.moveTo cursor)).boundConnection t =
        .ok (conn.moveTo cursor, id, mode) :=
      boundConnection_eq_ok.mpr ⟨connections_put_self, (boundConnection_eq_ok.mp hbound).2⟩
    rw [bound?_eq_some hnext, bound?_eq_some hbound]
  · rw [bound?, bound?, boundConnection, boundConnection, connection, connection, putConnection,
      ConnectionTable.get?_put_of_ne ht]

theorem Sound.file_of_bound (h : s.Sound held)
    (hbound : s.boundConnection session = .ok (conn, id, mode)) :
    ∃ file, s.ns.file? id = some file ∧ file.size < Namespace.allocationLimit ∧
      s.plain.content id = file.data.toList ∧ s.plain.cursor session = conn.cursor.toNat := by
  obtain ⟨hget, hbound⟩ := boundConnection_eq_ok.mp hbound
  obtain ⟨-, hfile, -⟩ := Connection.bound_eq_ok.mp hbound
  obtain ⟨file, hlive⟩ := (h.record hget).live hfile
  obtain ⟨pageSize, changes, hrun⟩ := h.reachable
  exact ⟨file, hlive, hrun.short (.empty pageSize) (.empty pageSize) id file hlive,
    content_of_file? hlive, cursor_of_get? hget⟩

/-- No file is so long that moving on inside it would reach the last cursor. -/
theorem cursor_advance {n : Nat} (hn : n ≤ file.size - conn.cursor.toNat)
    (hsize : file.size < Namespace.allocationLimit) :
    (conn.advance n).cursor.toNat = conn.cursor.toNat + n := by
  have hcursor := conn.cursor.toNat_lt
  have hlimit : Namespace.allocationLimit = 2 ^ 62 := by decide
  have hfits : conn.cursor.toNat + n < UInt64.size := by
    unfold UInt64.size
    omega
  have hmin : min (conn.cursor.toNat + n) (UInt64.size - 1) = conn.cursor.toNat + n := by omega
  rw [Connection.advance, Connection.moveTo, hmin]
  exact UInt64.toNat_ofNat_of_lt' hfits

theorem Mirrors.refused (s : Service σ) {e : FsError} {status : Int32} (h : e.status = status) :
    s.Mirrors (.error e, s) (.refused status, s.plain) := by
  subst h
  refine ⟨?_, rfl, rfl⟩
  dsimp only [PlainFiles.Answer.refused, PlainFiles.Answer.narrowed]
  rw [Int32.ofInt_toInt]
  rfl

/-- A count, and the cursor that much further on. -/
theorem Mirrors.count {n : Nat} {payload : Bytes} {p : PlainFiles} {s' : Service σ}
    (hplain : s'.plain = p) (hbound : s'.boundConnection session = .ok (conn, id, mode))
    (hsame : s'.bound? = s.bound?)
    (hcursor : (conn.advance n).cursor.toNat = conn.cursor.toNat + n) :
    s.Mirrors (.ok ⟨.ofNat n, payload⟩, s'.putConnection session (conn.advance n))
      (⟨n, payload⟩, p.moveTo session (conn.cursor.toNat + n)) where
  reply := rfl
  plain := by
    dsimp only
    rw [plain_putConnection, hcursor, hplain]
  bound := by
    dsimp only
    rw [Connection.advance, bound?_moveTo hbound, hsame]

theorem read_mirrors (h : s.Sound held)
    (hbound : s.boundConnection m.session = .ok (conn, id, mode)) :
    s.Mirrors (s.read m)
      (if mode.canRead then s.plain.read m id else (.refused Status.access, s.plain)) := by
  obtain ⟨file, hlive, hsize, hcontent, hcursor⟩ := h.file_of_bound hbound
  unfold read PlainFiles.read
  rw [hbound, hcontent, hcursor]
  dsimp only
  cases mode.canRead with
  | false => exact .refused s rfl
  | true =>
    rw [Namespace.readAt_eq hlive, Buffer.read_eq]
    have hlength : ((file.data.toList.drop conn.cursor.toNat).take
        (min m.header.rbytes.toNat maxCount)).length ≤ file.size - conn.cursor.toNat := by
      rw [List.length_take, List.length_drop, Buffer.length_toList, FileNode.size]
      exact Nat.min_le_right _ _
    exact .count rfl hbound rfl (cursor_advance hlength hsize)

theorem write_mirrors (h : s.Sound held)
    (hbound : s.boundConnection m.session = .ok (conn, id, mode)) :
    s.Mirrors (s.write m)
      (if mode.canWrite then s.plain.write m id else (.refused Status.access, s.plain)) := by
  obtain ⟨file, hlive, hsize, hcontent, hcursor⟩ := h.file_of_bound hbound
  unfold write PlainFiles.write
  rw [hbound, hcontent, hcursor]
  dsimp only
  cases mode.canWrite with
  | false => exact .refused s rfl
  | true =>
    rcases Namespace.writeAt_cases s.ns id conn.cursor m.payload with ⟨hdead, -⟩ | ⟨old, hold, heq⟩
    · rw [hlive] at hdead
      cases hdead
    · obtain rfl : file = old := Option.some.inj (hlive.symm.trans hold)
      have hstored : (m.payload.toList.take (file.data.toList.length - conn.cursor.toNat)).length =
          min m.payload.length (file.size - conn.cursor.toNat) := by
        rw [List.length_take, Buffer.length_toList, Buffer.length_toList, FileNode.size,
          Nat.min_comm]
      have hplain := plain_putFile hlive
        { file with data := file.data.overwrite conn.cursor.toNat m.payload }
      rw [Buffer.toList_overwrite, Nat.min_comm, ← FileNode.size] at hplain
      rw [heq, hstored]
      exact .count hplain hbound rfl (cursor_advance (Nat.min_le_right _ _) hsize)

theorem seekOffset_eq {payload : Bytes} (h : 8 ≤ payload.length) :
    seekOffset payload = .ok (Int.bmod (Bytes.value (payload.take 8)) (2 ^ 64)) := by
  rw [seekOffset, if_neg (Nat.not_lt.mpr h), Bytes.toUInt64, UInt64.toInt64_ofNat']
  exact congrArg Except.ok Int64.toInt_ofNat'

theorem seekBase_eq (hlive : s.ns.file? id = some file)
    (hcontent : s.plain.content id = file.data.toList)
    (hcursor : s.plain.cursor m.session = conn.cursor.toNat) :
    s.seekBase m conn id = match s.plain.seekBase? m id with
      | some base => .ok base
      | none => .error (.invalidArgument (.unknownSeekMode m.header.code)) := by
  rw [seekBase, PlainFiles.seekBase?, hcontent, hcursor, Namespace.file_eq_ok hlive]
  by_cases hstart : m.header.code = Whence.start
  · rw [if_pos hstart, if_pos hstart]
  rw [if_neg hstart, if_neg hstart]
  by_cases hcurrent : m.header.code = Whence.current
  · rw [if_pos hcurrent, if_pos hcurrent]
  rw [if_neg hcurrent, if_neg hcurrent]
  by_cases hend : m.header.code = Whence.fileEnd
  · rw [if_pos hend, if_pos hend, Buffer.length_toList]
    rfl
  · rw [if_neg hend, if_neg hend]

theorem seek_mirrors (h : s.Sound held)
    (hbound : s.boundConnection m.session = .ok (conn, id, mode))
    (hpayload : 8 ≤ m.payload.length) : s.Mirrors (s.seek m) (s.plain.seek m id) := by
  obtain ⟨file, hlive, -, hcontent, hcursor⟩ := h.file_of_bound hbound
  unfold seek PlainFiles.seek
  rw [hbound]
  dsimp only
  rw [@seekOffset_eq m.payload hpayload]
  dsimp only
  rw [seekBase_eq hlive hcontent hcursor]
  cases s.plain.seekBase? m id with
  | none => exact .refused s rfl
  | some base =>
    dsimp only
    generalize (base : Int) + Int.bmod (Bytes.value (m.payload.toList.take 8)) (2 ^ 64) = target
    by_cases hrange : 0 ≤ target ∧ target < 2 ^ 64
    · have hfits : ¬(target < 0 ∨ UInt64.size ≤ target) := by
        unfold UInt64.size
        omega
      have hlt : target.toNat < UInt64.size := by
        unfold UInt64.size
        omega
      have hnat : (UInt64.ofNat target.toNat).toNat = target.toNat := UInt64.toNat_ofNat_of_lt' hlt
      rw [if_pos hrange, if_neg hfits]
      constructor
      · dsimp only
        rw [Reply.ofResult, Reply.okWith, Bytes.ofUInt64, hnat]
        rfl
      · dsimp only
        rw [plain_putConnection, Connection.moveTo, hnat]
      · exact bound?_moveTo hbound _
    · have hfits : target < 0 ∨ UInt64.size ≤ target := by
        unfold UInt64.size
        omega
      rw [if_neg hrange, if_pos hfits]
      exact .refused s rfl

section Serve

variable [Sharing σ]

theorem answer_mirrors (h : s.Sound held) (hm : m.MovesCursor) :
    (s.answer m).1 = (s.plain.step m s.bound?).1.narrowed ∧
      (s.answer m).2.plain = (s.plain.step m s.bound?).2 ∧ (s.answer m).2.bound? = s.bound? := by
  obtain ⟨op, hop, hmirrors⟩ : ∃ op, m.header.operation = some op ∧
      s.Mirrors (s.handle m op) (s.plain.step m s.bound?) := by
    unfold PlainFiles.step
    cases hbound : s.boundConnection m.session with
    | error e =>
      have hnone : s.bound? m.session = none := by rw [bound?, hbound]
      have hstatus : e.status = Status.failed := by
        rcases h.boundConnection_error hbound with rfl | rfl
        · rfl
        · rfl
      rw [hnone]
      cases hm with
      | read hop =>
        refine ⟨.read, hop, ?_⟩
        rw [handle, read, hbound]
        exact .refused s hstatus
      | write hop =>
        refine ⟨.write, hop, ?_⟩
        rw [handle, write, hbound]
        exact .refused s hstatus
      | seek hop hpayload =>
        refine ⟨.seek, hop, ?_⟩
        rw [handle, seek, hbound]
        exact .refused s hstatus
    | ok found =>
      obtain ⟨conn, id, mode⟩ := found
      rw [bound?_eq_some hbound]
      cases hm with
      | read hop =>
        refine ⟨.read, hop, ?_⟩
        rw [hop]
        exact read_mirrors h hbound
      | write hop =>
        refine ⟨.write, hop, ?_⟩
        rw [hop]
        exact write_mirrors h hbound
      | seek hop hpayload =>
        refine ⟨.seek, hop, ?_⟩
        rw [hop]
        exact seek_mirrors h hbound hpayload
  rw [answer_known s hop]
  exact ⟨hmirrors.reply, hmirrors.plain, hmirrors.bound⟩

theorem serve_mirrors (h : s.Sound held) {ms : List Message} (hms : ∀ m ∈ ms, m.MovesCursor)
    (hshort : ∀ m ∈ ms, m.header.operation = some .write → m.payload.length ≤ 2 ^ 31 - 1) :
    (s.serve ms).1.map Reply.plain = (s.plain.run s.bound? ms).1 ∧
      (s.serve ms).2.plain = (s.plain.run s.bound? ms).2 ∧ (s.serve ms).2.bound? = s.bound? := by
  induction ms generalizing s with
  | nil => exact ⟨rfl, rfl, rfl⟩
  | cons m ms ih =>
    obtain ⟨hreply, hplain, hbound⟩ := answer_mirrors h (hms m List.mem_cons_self)
    obtain ⟨hge, hlt⟩ := s.plain.step_status s.bound? (hshort m List.mem_cons_self)
    have hanswer : (s.answer m).1.plain = (s.plain.step m s.bound?).1 := by
      rw [hreply]
      exact PlainFiles.Answer.plain_narrowed hge hlt
    obtain ⟨hreplies, hend, hsame⟩ := ih (h.after (.io m))
      (fun next hnext ↦ hms next (List.mem_cons_of_mem _ hnext))
      (fun next hnext ↦ hshort next (List.mem_cons_of_mem _ hnext))
    change ((s.answer m).2.serve ms).1.map Reply.plain = _ at hreplies
    change ((s.answer m).2.serve ms).2.plain = _ at hend
    change ((s.answer m).2.serve ms).2.bound? = (s.answer m).2.bound? at hsame
    rw [Service.after] at hreplies hend
    rw [hplain, hbound] at hreplies hend
    refine ⟨?_, hend, hsame.trans hbound⟩
    exact congr_arg₂ List.cons hanswer hreplies

/-- However requests of several sessions are mixed, the service answers them as one that keeps plain
bytes for each file and a number for each session. -/
theorem cursor_io_refines_plain (h : s.Fresh) (events : List Event) {ms : List Message}
    (hms : ∀ m ∈ ms, m.MovesCursor)
    (hshort : ∀ m ∈ ms, m.header.operation = some .write → m.payload.length ≤ 2 ^ 31 - 1) :
    ((s.run events).serve ms).1.map Reply.plain =
        ((s.run events).plain.run (s.run events).bound? ms).1 ∧
      ((s.run events).serve ms).2.plain =
        ((s.run events).plain.run (s.run events).bound? ms).2 ∧
      ((s.run events).serve ms).2.bound? = (s.run events).bound? ∧
      ∀ id, (((s.run events).serve ms).2.content id).length =
        ((s.run events).content id).length := by
  obtain ⟨hreplies, hend, hsame⟩ := serve_mirrors (h.sound.run events) hms hshort
  refine ⟨hreplies, hend, hsame, fun id ↦ ?_⟩
  have hcontent := congrArg (fun p ↦ (p.content id).length) hend
  exact hcontent.trans (PlainFiles.run_length _ _ _ _)

/-- Two sessions on one file of four bytes; only the first may write. -/
def sharedFile : List Event :=
  [.attach ⟨7⟩,
    .io ⟨⟨0⟩, ⟨7⟩, .new .openFile (OpenFlags.readWrite ||| OpenFlags.create) 0 0,
      Path.toPayload "/a"⟩,
    truncateTo ⟨7⟩ 4] ++ opening ⟨8⟩ "/a"

def turns : List Message :=
  [fileRequest ⟨7⟩ .write [1, 2, 3], ⟨⟨0⟩, ⟨8⟩, .new .read 0 0 2, .empty⟩,
    fileRequest ⟨7⟩ .write [4, 5, 6],
    ⟨⟨0⟩, ⟨8⟩, .new .seek Whence.fileEnd 0 0, Bytes.ofUInt64 (0 - 1)⟩,
    ⟨⟨0⟩, ⟨8⟩, .new .read 0 0 9, .empty⟩,
    ⟨⟨0⟩, ⟨8⟩, .new .seek Whence.start 0 0, Bytes.ofUInt64 (0 - 1)⟩,
    fileRequest ⟨8⟩ .write [7]]

theorem shared_file_answers : (new bytewise GrantTable.empty).Fresh ∧
    (∀ m ∈ turns, m.MovesCursor) ∧
    (∀ m ∈ turns, m.header.operation = some .write → m.payload.length ≤ 2 ^ 31 - 1) ∧
    (((new bytewise GrantTable.empty).run sharedFile).serve turns).1.map Reply.plain =
      [⟨3, []⟩, ⟨2, [1, 2]⟩, ⟨1, []⟩, ⟨0, [3, 0, 0, 0, 0, 0, 0, 0]⟩, ⟨1, [4]⟩,
        .refused Status.invalid, .refused Status.access] := by
  have hfresh : (new bytewise GrantTable.empty).Fresh := fresh_new _ _
  have hturns : ∀ m ∈ turns, m.MovesCursor := by
    intro m hm
    simp only [turns, List.mem_cons, List.not_mem_nil, or_false] at hm
    rcases hm with rfl | rfl | rfl | rfl | rfl | rfl | rfl
    · exact .write rfl
    · exact .read rfl
    · exact .write rfl
    · exact .seek rfl (by decide)
    · exact .read rfl
    · exact .seek rfl (by decide)
    · exact .write rfl
  have hshort : ∀ m ∈ turns, m.header.operation = some .write →
      m.payload.length ≤ 2 ^ 31 - 1 := by decide
  refine ⟨hfresh, hturns, hshort,
    (cursor_io_refines_plain hfresh sharedFile hturns hshort).1.trans ?_⟩
  decide +kernel

end Serve

end Service

end BootNamespace
