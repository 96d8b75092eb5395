import BootNamespace.Proofs.Client.Reading
import BootNamespace.Proofs.Service.Visit

namespace BootNamespace

namespace Service

variable {base : Service GrantTable} {t : SessionId} {id : FileId} {held : Holding}
variable {conn : Connection} {mode : OpenMode}

/-- A borrower that has moved its cursor borrows the same. -/
theorem Borrows.moveTo (h : base.Borrows t id held) (cursor : UInt64) :
    base.Borrows t id { held with conn := held.conn.moveTo cursor } := by
  obtain ⟨mode, hopened⟩ := h.opened
  exact ⟨h.file, ⟨mode, hopened.session, hopened.bound, hopened.refs⟩, h.grant⟩

theorem hold_putConnection (base : Service GrantTable) (t : SessionId) (id : FileId)
    (held : Holding) (conn : Connection) :
    (base.hold t id held).putConnection t conn = base.hold t id { held with conn := conn } := by
  simp only [hold, putConnection, ConnectionTable.put_put]

/-- A borrower in a mode that allows it can read the file. -/
theorem Borrows.reading (h : base.Borrows t id held) (hbound : held.conn.bound = .ok (id, mode))
    (hmode : mode.canRead) (hshort : held.file.size < Namespace.allocationLimit) :
    (base.hold t id held).Reading t held.conn held.file := by
  obtain ⟨old, hlive, -⟩ := h.file
  have hholds := holds_hold (t := t) hlive held
  exact ⟨⟨id, mode, boundConnection_eq_ok.mpr ⟨hholds.connection, hbound⟩, hmode, hholds.file⟩,
    hshort⟩

end Service

namespace Client

section Session

variable {σ : Type} [Sharing σ] {c : Client (Link (Service σ))} {conn : Connection}
variable {file : FileNode}

theorem readWithin_session (c : Client (Link (Service σ))) (reads : Nat) :
    (c.readWithin reads).2.transport.session = c.transport.session ∧
      (c.readWithin reads).2.bufferSize = c.bufferSize := by
  induction reads generalizing c with
  | zero => exact ⟨rfl, rfl⟩
  | succ reads ih =>
    have hread : (c.read c.bufferSize).2 = c.afterRead := by rw [read, call_eq, afterRead]
    rw [readWithin]
    generalize c.read c.bufferSize = answer at hread ⊢
    obtain ⟨result, c'⟩ := answer
    obtain rfl : c' = c.afterRead := hread
    cases result with
    | error e => exact ⟨rfl, rfl⟩
    | ok chunk =>
      cases chunk with
      | nil => exact ⟨rfl, rfl⟩
      | cons b chunk => exact ih c.afterRead

/-- A client that asks for nothing at once reads nothing, and any other the rest of its file. -/
theorem readToEnd_of_reading (h : c.transport.app.Reading c.transport.session conn file) :
    ∃ c' cursor, c.readToEnd =
        (.ok (if c.bufferSize = 0 then [] else file.data.toList.drop conn.cursor.toNat), c') ∧
      c'.transport.app =
        c.transport.app.putConnection c.transport.session (conn.moveTo cursor) := by
  by_cases hbuffer : c.bufferSize = 0
  · obtain ⟨chunk, hbrings⟩ := read_brings h
    have hnothing : chunk = [] := by
      have hlength := hbrings.length
      rw [readLimit, hbuffer, UInt32.toNat_zero, Nat.zero_min, Nat.zero_min] at hlength
      exact List.eq_nil_of_length_eq_zero hlength
    subst hnothing
    rw [if_pos hbuffer]
    exact ⟨c.afterRead, _, (Drains.done hbrings.read).readWithin (by decide), hbrings.app⟩
  · obtain ⟨c', cursor, hdrains, -, happ⟩ := exists_drains h hbuffer
    rw [if_neg hbuffer]
    refine ⟨c', cursor, hdrains.readWithin ?_, happ⟩
    have hle := Nat.div_le_self (file.size - conn.cursor.toNat + c.readLimit - 1) c.readLimit
    have hlimit : c.readLimit ≤ 2 ^ 31 - 1 := Nat.min_le_right _ _
    have hshort : file.size < 2 ^ 62 := h.short
    unfold UInt64.size
    omega

end Session

variable {base : Service GrantTable} {c : Client (Link (Service GrantTable))} {path : String}

/-- An open request that is granted lets the client borrow the file of its path. -/
theorem borrows_of_open (hns : base.ns.WellFormed)
    (hgrant : base.share.grant? c.transport.session = none)
    (happ : c.transport.app =
      base.putConnection c.transport.session (.new c.transport.session))
    (hsendable : Path.Sendable path)
    (hopen : (c.openFile path OpenFlags.readOnly).1 = .ok ()) :
    ∃ id file held c', base.ns.getFile none path = some id ∧ base.ns.file? id = some file ∧
      held = ⟨(Connection.new c.transport.session).tied id .readOnly,
        { file with refs := file.refs + 1 }, none⟩ ∧
      base.Borrows c.transport.session id held ∧
      c.openFile path OpenFlags.readOnly = (.ok (), c') ∧
      c'.transport.app = base.hold c.transport.session id held ∧
      c'.transport.session = c.transport.session ∧ c'.bufferSize = c.bufferSize := by
  rw [openFile, command_eq] at hopen ⊢
  dsimp only at hopen
  obtain ⟨reply, hcall⟩ := exists_ok_of_map hopen
  obtain ⟨hadmits, granted, hgranted⟩ := call_eq_ok hcall
  have hafter := called_app hadmits
  rw [happ] at hgranted hafter
  have hpath : Service.requestPath
      (c.sends .openFile OpenFlags.readOnly (Path.toPayload path) 0).framed =
        if Path.isAbsolute path then .ok path else .error (.invalidPath (.relative path)) := by
    rw [Service.requestPath_framed rfl rfl, hsendable.received]
  have hcode : (c.sends .openFile OpenFlags.readOnly (Path.toPayload path) 0).framed.header.code =
      OpenFlags.readOnly := rfl
  have hcreate : OpenFlags.readOnly &&& OpenFlags.create = 0 := by decide
  rcases Service.openFile_borrows hns hgrant (hcode ▸ hcreate) with
    ⟨e, heq⟩ | ⟨p, id, mode, file, held, hmode, hp, hfound, hlive, hheld, hborrows, heq⟩
  · cases (congrArg Prod.fst heq).symm.trans hgranted
  · have hreadOnly : OpenMode.ofFlags OpenFlags.readOnly = .ok .readOnly := rfl
    rw [hcode, hreadOnly] at hmode
    cases hmode
    rw [hp] at hpath
    split at hpath
    next =>
      cases hpath
      rw [hcall]
      exact ⟨id, file, held, c.called .openFile OpenFlags.readOnly (Path.toPayload path) 0, hfound,
        hlive, hheld, hborrows, rfl, hafter.trans (congrArg Prod.snd heq), rfl, rfl⟩
    next => cases hpath

/-- The file that is opened is read from its start to its end, and once it is closed again the
service is as it was. -/
theorem fetch_of_open (hbase : base.Fresh) (hgrant : base.share.grant? c.transport.session = none)
    (happ : c.transport.app =
      base.putConnection c.transport.session (.new c.transport.session))
    (hsendable : Path.Sendable path)
    (hopen : (c.openFile path OpenFlags.readOnly).1 = .ok ()) :
    ∃ id file c₁ c₂ c₃, base.ns.getFile none path = some id ∧ base.ns.file? id = some file ∧
      c.openFile path OpenFlags.readOnly = (.ok (), c₁) ∧
      c₁.readToEnd = (.ok (if c.bufferSize = 0 then [] else file.data.toList), c₂) ∧
      c₂.close = (.ok (), c₃) ∧ c₃.transport.app = c.transport.app ∧
      c₃.transport.session = c.transport.session ∧ c₃.bufferSize = c.bufferSize := by
  have hns := hbase.reachable.wellFormed
  obtain ⟨id, file, held, c₁, hfound, hlive, hheld, hborrows, hopened, happ₁, hsession₁,
    hbuffer₁⟩ := borrows_of_open hns hgrant happ hsendable hopen
  obtain ⟨pageSize, changes, hrun⟩ := hbase.reachable
  have hshort := hrun.short (.empty pageSize) (.empty pageSize) id file hlive
  have hbound : held.conn.bound = .ok (id, .readOnly) := by
    rw [hheld]
    rfl
  have hsize : held.file.size = file.size := by rw [hheld, FileNode.size, FileNode.size]
  have hreading := hborrows.reading hbound rfl (hsize ▸ hshort)
  rw [← happ₁, ← hsession₁] at hreading
  obtain ⟨c₂, cursor, hread, happ₂⟩ := readToEnd_of_reading hreading
  obtain ⟨hsession₂, hbuffer₂⟩ := c₁.readWithin_session UInt64.size
  rw [← readToEnd, hread] at hsession₂ hbuffer₂
  rw [happ₁, hsession₁, Service.hold_putConnection] at happ₂
  have hsession : c₂.transport.session = c.transport.session := hsession₂.trans hsession₁
  rw [← hsession] at hgrant hborrows happ happ₂
  have hadmits : c₂.transport.dispatcher.context.Admits (c₂.sends .close 0 [] 0) :=
    ⟨rfl, Nat.zero_le _, Nat.zero_le _⟩
  have hclosed : c₂.transport.app.handle (c₂.sends .close 0 [] 0).framed .close =
      (.ok .ok, c.transport.app) := by
    rw [happ, happ₂]
    exact Prod.ext (Service.close_ok _ _)
      ((hborrows.moveTo cursor).close (m := (c₂.sends .close 0 [] 0).framed) hgrant)
  have hclose : c₂.close = (.ok (), c₂.called .close 0 [] 0) := by
    rw [close, command_eq, call_of_handle_ok hadmits hclosed (by decide)]
    rfl
  have hdata : held.file.data = file.data := by rw [hheld]
  have hstart : held.conn.cursor.toNat = 0 := by
    rw [hheld]
    rfl
  rw [hbuffer₁, hdata, hstart, List.drop_zero] at hread
  refine ⟨id, file, c₁, c₂, _, hfound, hlive, hopened, hread, hclose, ?_, hsession,
    hbuffer₂.trans hbuffer₁⟩
  rw [called_app hadmits, hclosed]

end Client

end BootNamespace
