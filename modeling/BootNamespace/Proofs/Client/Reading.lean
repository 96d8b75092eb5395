import BootNamespace.Proofs.Client.Open
import BootNamespace.Proofs.Service.Atomic

namespace BootNamespace

namespace Client

variable {τ : Type} [Transport τ]

/-- So many reads in a row give these bytes, and the last of them is the first to give nothing. -/
inductive Drains : Client τ → Nat → Bytes → Client τ → Prop
  | done {c c' : Client τ} (h : c.read c.bufferSize = (.ok [], c')) : Drains c 1 [] c'
  | more {c c' c'' : Client τ} {reads : Nat} {chunk rest : Bytes}
      (h : c.read c.bufferSize = (.ok chunk, c')) (hne : chunk ≠ [])
      (hrest : Drains c' reads rest c'') : Drains c (reads + 1) (chunk ++ rest) c''

theorem Drains.readWithin {c c' : Client τ} {reads limit : Nat} {data : Bytes}
    (h : c.Drains reads data c') (hlimit : reads ≤ limit) :
    c.readWithin limit = (.ok data, c') := by
  induction h generalizing limit with
  | done h =>
    obtain ⟨limit, rfl⟩ := Nat.exists_eq_add_of_le' hlimit
    rw [Client.readWithin, h]
  | @more c c' c'' reads chunk rest h hne _ ih =>
    cases limit with
    | zero => exact absurd hlimit (Nat.not_succ_le_zero reads)
    | succ limit =>
      cases chunk with
      | nil => exact absurd rfl hne
      | cons b chunk =>
        rw [Client.readWithin, h]
        dsimp only
        rw [ih (Nat.le_of_succ_le_succ hlimit)]
        rfl

end Client

namespace Service

variable {σ : Type} {s : Service σ} {m : Message} {conn : Connection} {id : FileId}
variable {mode : OpenMode} {file : FileNode}

/-- A session has a file open and may read it. -/
structure Reading (s : Service σ) (session : SessionId) (conn : Connection) (file : FileNode) :
    Prop where
  bound : ∃ id mode, s.boundConnection session = .ok (conn, id, mode) ∧ mode.canRead ∧
    s.ns.file? id = some file
  short : file.size < Namespace.allocationLimit

theorem Reading.read_eq (h : s.Reading m.session conn file) :
    ∃ chunk, chunk = (file.data.toList.drop conn.cursor.toNat).take
        (min m.header.rbytes.toNat maxCount) ∧
      s.read m = (.ok ⟨.ofNat chunk.length, chunk⟩,
        s.putConnection m.session (conn.advance chunk.length)) := by
  obtain ⟨id, mode, hbound, hmode, hlive⟩ := h.bound
  refine ⟨_, rfl, ?_⟩
  rw [read, hbound]
  dsimp only
  rw [hmode, Namespace.readAt_eq hlive, Buffer.read_eq]
  rfl

theorem putConnection_putConnection (s : Service σ) (session : SessionId)
    (conn next : Connection) :
    (s.putConnection session conn).putConnection session next = s.putConnection session next := by
  simp only [putConnection, ConnectionTable.put_put]

/-- A session that has moved its cursor still reads the same file. -/
theorem Reading.moveTo {session : SessionId} (h : s.Reading session conn file) (cursor : UInt64) :
    (s.putConnection session (conn.moveTo cursor)).Reading session (conn.moveTo cursor) file := by
  obtain ⟨id, mode, hbound, hmode, hlive⟩ := h.bound
  have hbound' := (boundConnection_eq_ok.mp hbound).2
  exact ⟨⟨id, mode, boundConnection_eq_ok.mpr ⟨connections_put_self, hbound'⟩, hmode, hlive⟩,
    h.short⟩

end Service

namespace Client

variable {σ : Type} [Sharing σ] {s : Service σ} {c : Client (Link (Service σ))}
variable {conn : Connection} {file : FileNode} {id : FileId} {mode : OpenMode}

/-- The most that one of a client's reads can bring. -/
def readLimit (c : Client (Link (Service σ))) : Nat := min c.bufferSize.toNat Service.maxCount

/-- The client once it has read. -/
def afterRead (c : Client (Link (Service σ))) : Client (Link (Service σ)) :=
  c.called .read 0 [] c.bufferSize

/-- A read brings the next bytes of the file, and the cursor goes on to what follows them. -/
structure Brings (c : Client (Link (Service σ))) (conn : Connection) (file : FileNode)
    (chunk : Bytes) : Prop where
  read : c.read c.bufferSize = (.ok chunk, c.afterRead)
  length : chunk.length = min c.readLimit (file.size - conn.cursor.toNat)
  cursor : (conn.advance chunk.length).cursor.toNat = conn.cursor.toNat + chunk.length
  data : file.data.toList.drop conn.cursor.toNat =
    chunk ++ file.data.toList.drop (conn.advance chunk.length).cursor.toNat
  app : c.afterRead.transport.app =
    c.transport.app.putConnection c.transport.session (conn.advance chunk.length)

theorem read_brings (h : c.transport.app.Reading c.transport.session conn file) :
    ∃ chunk, c.Brings conn file chunk := by
  have hadmits : c.transport.dispatcher.context.Admits (c.sends .read 0 [] c.bufferSize) :=
    ⟨rfl, Nat.zero_le _, Nat.zero_le _⟩
  obtain ⟨chunk, hchunk, hread⟩ :=
    Service.Reading.read_eq (m := (c.sends .read 0 [] c.bufferSize).framed) h
  have hprefix : chunk <+: file.data.toList.drop conn.cursor.toNat := hchunk ▸ List.take_prefix _ _
  have hlength : chunk.length = min c.readLimit (file.size - conn.cursor.toNat) := by
    rw [hchunk, List.length_take, List.length_drop, Buffer.length_toList]
    rfl
  have hasked : chunk.length ≤ c.bufferSize.toNat :=
    hlength.trans_le ((Nat.min_le_left _ _).trans (Nat.min_le_left _ _))
  have hcount : chunk.length ≤ Service.maxCount :=
    hlength.trans_le ((Nat.min_le_left _ _).trans (Nat.min_le_right _ _))
  have hsigned : chunk.length < 2 ^ 31 := Nat.lt_of_le_of_lt hcount (by decide)
  have hcursor : (conn.advance chunk.length).cursor.toNat = conn.cursor.toNat + chunk.length := by
    refine Service.cursor_advance ?_ h.short
    omega
  refine ⟨chunk, ?_, hlength, hcursor, ?_, ?_⟩
  · rw [read, call_of_handle_ok hadmits hread (Service.ofNat_nonneg hcount), afterRead]
    simp only [Except.map, Reply.clamp, List.take_of_length_le hasked,
      Int32.toNatClampNeg_ofNat_of_lt hsigned, List.take_length]
  · rw [hcursor, ← List.drop_drop]
    exact (List.prefix_iff_eq_append.mp hprefix).symm
  · rw [afterRead, called_app hadmits]
    change (c.transport.app.read _).2 = _
    rw [hread]
    rfl

omit [Sharing σ] in
theorem readLimit_pos (hbuffer : c.bufferSize ≠ 0) : 0 < c.readLimit := by
  have hb : 0 < c.bufferSize.toNat :=
    Nat.pos_of_ne_zero fun hzero ↦ hbuffer (UInt32.toNat_inj.mp hzero)
  have hmax : 0 < Service.maxCount := by decide
  exact Nat.lt_min.mpr ⟨hb, hmax⟩

/-- One read takes one chunk off what is left. -/
theorem ceil_sub_min {limit left : Nat} (hlimit : 0 < limit) (hleft : 0 < left) :
    (left - min limit left + limit - 1) / limit + 1 = (left + limit - 1) / limit := by
  rcases Nat.le_total limit left with hle | hle
  · have hsplit : left + limit - 1 = left - limit + limit - 1 + limit := by omega
    rw [Nat.min_eq_left hle, hsplit, Nat.add_div_right _ hlimit]
  · have hone : (left + limit - 1) / limit = 1 :=
      Nat.div_eq_of_lt_le (by omega) (by omega)
    rw [Nat.min_eq_right hle, hone, Nat.div_eq_of_lt (by omega)]

/-- Reading on brings the rest of the file, and but for the cursor the service stays as it is. -/
theorem exists_drains (h : c.transport.app.Reading c.transport.session conn file)
    (hbuffer : c.bufferSize ≠ 0) :
    ∃ c' cursor, c.Drains
        ((file.size - conn.cursor.toNat + c.readLimit - 1) / c.readLimit + 1)
        (file.data.toList.drop conn.cursor.toNat) c' ∧
      cursor.toNat = max conn.cursor.toNat file.size ∧
      c'.transport.app = c.transport.app.putConnection c.transport.session (conn.moveTo cursor) := by
  -- The induction is on what lies behind the cursor, which every read but the last makes less.
  induction hleft : file.size - conn.cursor.toNat using Nat.strongRecOn generalizing c conn with
  | ind left ih =>
    have hpos := readLimit_pos hbuffer
    obtain ⟨chunk, hbrings⟩ := read_brings h
    have hlength := hbrings.length
    have hcursor := hbrings.cursor
    rw [hleft] at hlength
    by_cases hempty : chunk = []
    · subst hempty
      rw [List.length_nil] at hlength hcursor
      have hzero : left = 0 := by omega
      have hnothing : file.data.toList.drop conn.cursor.toNat = [] := by
        rw [List.drop_eq_nil_iff, Buffer.length_toList]
        change file.size ≤ _
        omega
      rw [hnothing, hzero, Nat.div_eq_of_lt (by omega)]
      exact ⟨_, (conn.advance 0).cursor, .done hbrings.read, by omega, hbrings.app⟩
    · have hsome : 0 < chunk.length := List.length_pos_iff.mpr hempty
      have hnext : c.afterRead.transport.app.Reading c.transport.session
          (conn.advance chunk.length) file := by
        rw [hbrings.app]
        exact h.moveTo _
      obtain ⟨c', cursor, hdrains, hend, happ⟩ :=
        ih (left - chunk.length) (by omega) hnext hbuffer (by omega)
      have hcount : (left - chunk.length + c.readLimit - 1) / c.readLimit + 1 =
          (left + c.readLimit - 1) / c.readLimit := by
        rw [hlength]
        exact ceil_sub_min hpos (by omega)
      refine ⟨c', cursor, ?_, by omega, ?_⟩
      · rw [hbrings.data, ← hcount]
        exact .more hbrings.read hempty hdrains
      · rw [happ, hbrings.app]
        exact Service.putConnection_putConnection _ _ _ _

/-- Reading to the end comes to an end. It brings the bytes from the cursor on, leaves the cursor at
the end of the file or where it was behind that, and changes nothing else. -/
theorem readToEnd_brings_rest (h : s.Fresh) (events : List Event)
    (happ : c.transport.app = s.run events)
    (hbound : c.transport.app.boundConnection c.transport.session = .ok (conn, id, mode))
    (hmode : mode.canRead) (hbuffer : c.bufferSize ≠ 0) :
    ∃ file c' cursor, c.transport.app.ns.file? id = some file ∧
      c.Drains ((file.size - conn.cursor.toNat + c.readLimit - 1) / c.readLimit + 1)
        (file.data.toList.drop conn.cursor.toNat) c' ∧
      c.readToEnd = (.ok (file.data.toList.drop conn.cursor.toNat), c') ∧
      cursor.toNat = max conn.cursor.toNat file.size ∧
      c'.transport.app = c.transport.app.putConnection c.transport.session (conn.moveTo cursor) := by
  have hs := h.sound.run events
  rw [← happ] at hs
  obtain ⟨file, hlive, hshort, -⟩ := hs.file_of_bound hbound
  obtain ⟨c', cursor, hdrains, hcursor, happ'⟩ :=
    exists_drains ⟨⟨id, mode, hbound, hmode, hlive⟩, hshort⟩ hbuffer
  refine ⟨file, c', cursor, hlive, hdrains, hdrains.readWithin ?_, hcursor, happ'⟩
  have hle := Nat.div_le_self (file.size - conn.cursor.toNat + c.readLimit - 1) c.readLimit
  have hlimit : c.readLimit ≤ 2 ^ 31 - 1 := Nat.min_le_right _ _
  have hshort' : file.size < 2 ^ 62 := hshort
  unfold UInt64.size
  omega

/-- The second of two sessions on a file of four bytes has gone past the first of them. -/
def halfway : List Event :=
  Service.sharedFile ++ [.io (Service.fileRequest ⟨7⟩ .write [1, 2, 3, 4]),
    .io ⟨⟨0⟩, ⟨8⟩, .new .read 0 0 1, .empty⟩]

theorem three_bytes_read_in_pairs : ∃ c : Client (Link (Service GrantTable)),
    c.transport.app = (Service.new Service.bytewise GrantTable.empty).run halfway ∧
    c.bufferSize = 2 ∧
    c.transport.app.boundConnection c.transport.session =
      .ok (⟨⟨8⟩, .opened, some .readOnly, 1, some ⟨0, 0⟩⟩, ⟨0, 0⟩, .readOnly) ∧
    c.readToEnd.1 = .ok [2, 3, 4] ∧
    ∃ file c' cursor, c.transport.app.ns.file? ⟨0, 0⟩ = some file ∧
      c.Drains ((file.size - 1 + c.readLimit - 1) / c.readLimit + 1)
        (file.data.toList.drop 1) c' ∧
      c.readToEnd = (.ok (file.data.toList.drop 1), c') ∧
      cursor.toNat = max 1 file.size ∧
      c'.transport.app = c.transport.app.putConnection c.transport.session
        ⟨⟨8⟩, .opened, some .readOnly, cursor, some ⟨0, 0⟩⟩ := by
  let c : Client (Link (Service GrantTable)) :=
    { ofEvents Service.bytewise halfway ⟨8⟩ with bufferSize := 2 }
  have hbound : c.transport.app.boundConnection ⟨8⟩ =
      .ok (⟨⟨8⟩, .opened, some .readOnly, 1, some ⟨0, 0⟩⟩, ⟨0, 0⟩, .readOnly) := by decide +kernel
  have hrest := readToEnd_brings_rest (Service.fresh_new Service.bytewise GrantTable.empty)
    halfway (c := c) rfl hbound rfl (by decide)
  have hcontent : c.transport.app.content ⟨0, 0⟩ = [1, 2, 3, 4] := by decide +kernel
  refine ⟨c, rfl, rfl, hbound, ?_, hrest⟩
  obtain ⟨file, c', cursor, hfile, -, hread, -⟩ := hrest
  rw [hread, ← Service.content_of_file? hfile, hcontent]
  rfl

end Client

end BootNamespace
