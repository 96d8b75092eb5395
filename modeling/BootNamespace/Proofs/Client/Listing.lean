import BootNamespace.Proofs.Client.Open
import BootNamespace.Proofs.Listing
import BootNamespace.Proofs.Namespace.Intact

namespace BootNamespace

namespace Namespace

variable {ns : Namespace} {d : DirId} {entries : List Entry} {path : String}

theorem exists_of_mem_forall₂ {α β : Type} {R : α → β → Prop} {xs : List α} {ys : List β} {y : β}
    (h : List.Forall₂ R xs ys) (hy : y ∈ ys) : ∃ x ∈ xs, R x y := by
  induction h with
  | nil => cases hy
  | cons hxy _ ih =>
    rcases List.mem_cons.mp hy with rfl | hy
    · exact ⟨_, List.mem_cons_self, hxy⟩
    · obtain ⟨x, hx, hxy⟩ := ih hy
      exact ⟨x, List.mem_cons_of_mem _ hx, hxy⟩

theorem packable_of_validName {name : String} (h : Path.validName name) (kind : EntryKind) :
    (Entry.mk name kind).packable := by
  have hlength := (Path.validName_iff.mp h).2.1
  have hlimit : Path.maxNameLength < UInt16.size := by decide
  simp only [Entry.packable, decide_eq_true_eq]
  omega

/-- Every name in a namespace is short enough to be listed. -/
theorem Shown.packable (h : ns.WellFormed) (hshown : ns.Shown d entries) :
    ∀ entry ∈ entries, entry.packable := by
  obtain ⟨dirs, files, dirEntries, fileEntries, rfl, -, hdirs, -, -, hdirEntries, hfileEntries⟩ :=
    hshown
  intro entry hentry
  rcases List.mem_append.mp hentry with hentry | hentry
  · obtain ⟨e, he, node, hnode, rfl⟩ := exists_of_mem_forall₂ hdirEntries hentry
    obtain ⟨node', hnode', hparent⟩ := (hdirs e).mp he
    cases hnode.symm.trans hnode'
    exact packable_of_validName (h.dirs.valid ⟨node, hnode, hparent, rfl⟩) _
  · obtain ⟨id, -, file, size, hfile, rfl, -⟩ := exists_of_mem_forall₂ hfileEntries hentry
    exact packable_of_validName (h.files.valid ⟨file, hfile, rfl, rfl⟩) _

theorem lookupDir_error {e : FsError} (h : ns.lookupDir none path = .error e) :
    ∃ fault, e = .invalidPath fault := by
  unfold lookupDir at h
  split at h
  next => cases h
  next =>
    cases h
    exact ⟨_, rfl⟩

end Namespace

namespace Service

variable {σ : Type} {s : Service σ} {m : Message} {path : String} {b : UInt32}
variable {context : ServerContext} {held : FileId → Nat}

/-- A session asks for the listing of a path that fits into the server's buffer. -/
structure AsksList (s : Service σ) (context : ServerContext) (m : Message) (path : String)
    (b : UInt32) : Prop where
  header : m.header = Client.header .list listAll (Path.toPayload path) b
  payload : m.payload = Path.toPayload path
  attached : ∃ conn, s.connections.get? m.session = some conn
  sendable : Path.Sendable path
  fits : path.utf8ByteSize + 1 ≤ context.bufferSize.toNat

/-- What comes of listing a path: the beginning of a directory's entries, or a refusal. -/
inductive Lists (s : Service σ) (path : String) (limit : Nat) : Except FsError (List Entry) → Prop
  | dir {d : DirId} {entries shown : List Entry} (hroot : Path.isAbsolute path)
      (hdir : s.ns.lookupDir none path = .ok d) (hentries : s.ns.entries d = .ok entries)
      (hshown : Entry.LongestWithin limit entries shown) : Lists s path limit (.ok shown)
  | refused (h : ¬(Path.isAbsolute path ∧ ∃ d, s.ns.lookupDir none path = .ok d)) :
      Lists s path limit (.error (.invalidArgument (.described "")))

theorem Lists.ok_iff {limit : Nat} {result : Except FsError (List Entry)}
    (h : s.Lists path limit result) : (∃ shown, result = .ok shown) ↔
      Path.isAbsolute path ∧ ∃ d, s.ns.lookupDir none path = .ok d := by
  cases h with
  | dir hroot hdir => exact ⟨fun _ ↦ ⟨hroot, _, hdir⟩, fun _ ↦ ⟨_, rfl⟩⟩
  | refused hno => simp [hno]

theorem AsksList.admits (h : s.AsksList context m path b) : context.Admits m := by
  have hlength := h.sendable.length
  rw [← Path.toPayload_length] at hlength
  have hsbytes : m.header.sbytes.toNat = (Path.toPayload path).length := by
    rw [h.header]
    exact UInt32.toNat_ofNat_of_lt' hlength
  refine ⟨?_, ?_, ?_⟩
  · rw [h.header, Client.operation_header]
    rfl
  · rw [hsbytes, Path.toPayload_length]
    exact h.fits
  · rw [hsbytes, h.payload]
    exact Nat.le_refl _

theorem AsksList.requestPath_eq (h : s.AsksList context m path b) : requestPath m.framed =
    if Path.isAbsolute path then .ok path else .error (.invalidPath (.relative path)) := by
  have hsbytes : m.header.sbytes = .ofNat (Path.toPayload path).length := by
    rw [h.header]
    rfl
  rw [requestPath_framed h.payload hsbytes, h.sendable.received]

theorem list_eq {conn : Connection} (hget : s.connections.get? m.session = some conn)
    (hcode : m.header.code = listAll) :
    s.list m = match (do
        let path ← requestPath m
        let d ← s.ns.lookupDir none path
        s.ns.entries d : Except FsError (List Entry)) with
      | .error e => (.error e, s)
      | .ok entries =>
        (.ok (.okWith
          (Entry.packAll (min m.header.rbytes.toNat s.config.bufferSize.toNat) entries)), s) := by
  rw [list, connection_eq_ok.mpr hget]
  exact if_neg (not_not.mpr hcode)

/-- The handler packs the entries of a directory, and refuses every other path as invalid. -/
theorem AsksList.list_cases (h : s.AsksList context m path b) (hs : s.Sound held) :
    (∃ d entries, Path.isAbsolute path ∧ s.ns.lookupDir none path = .ok d ∧
      s.ns.entries d = .ok entries ∧ (∀ entry ∈ entries, entry.packable) ∧ s.list m.framed =
        (.ok (.okWith (Entry.packAll (min b.toNat s.config.bufferSize.toNat) entries)), s)) ∨
    (¬(Path.isAbsolute path ∧ ∃ d, s.ns.lookupDir none path = .ok d) ∧
      ∃ fault, s.list m.framed = (.error (.invalidPath fault), s)) := by
  obtain ⟨conn, hget⟩ := h.attached
  have hlist : s.list m.framed = _ := list_eq (m := m.framed) hget (congrArg (·.code) h.header)
  have hrbytes : m.framed.header.rbytes = b := congrArg (·.rbytes) h.header
  rw [hlist, h.requestPath_eq, hrbytes]
  by_cases hroot : Path.isAbsolute path
  · rw [if_pos hroot]
    cases hdir : s.ns.lookupDir none path with
    | error e =>
      obtain ⟨fault, rfl⟩ := Namespace.lookupDir_error hdir
      refine .inr ⟨by simp, fault, ?_⟩
      simp only [bind, Except.bind, hdir]
    | ok d =>
      have hd := (Namespace.lookupDir_eq_ok_iff hs.wellFormed.dirs).mp hdir
      obtain ⟨node, hnode⟩ := Namespace.dir?_of_lt hd.lt
      obtain ⟨pageSize, changes, hrun⟩ := hs.reachable
      have hshort := hrun.short (.empty pageSize) (.empty pageSize)
      obtain ⟨entries, hentries, hshown⟩ := Namespace.entries_shown hs.wellFormed hshort hnode
      refine .inl ⟨d, entries, hroot, rfl, hentries, hshown.packable hs.wellFormed, ?_⟩
      simp only [bind, Except.bind, hdir, hentries]
  · rw [if_neg hroot]
    exact .inr ⟨fun hboth ↦ hroot hboth.1, _, rfl⟩

end Service

/-- What a client makes of the reply to a listing request. -/
def Reply.listing (reply : Reply) : Except FsError (List Entry) :=
  match FsError.ofStatus reply.status with
  | some e => .error e
  | none => Entry.unpackAll reply.payload

namespace Service

variable {σ : Type} [Sharing σ] {s : Service σ} {d : Dispatcher} {m : Message} {path : String}
variable {b : UInt32} {held : FileId → Nat}

/-- A reply to a listing request fits what was asked for, and can be read to its end. -/
structure TellsList (s : Service σ) (path : String) (b : UInt32) (reply : Reply) : Prop where
  listing : s.Lists path (min b.toNat s.config.bufferSize.toNat) reply.listing
  whole : reply.clamp b = reply
  readable : ∃ entries, Entry.unpackAll reply.payload = .ok entries

theorem AsksList.answer_tells {context : ServerContext} (h : s.AsksList context m path b)
    (hs : s.Sound held) : ∃ reply, s.answer m.framed = (reply, s) ∧ s.TellsList path b reply := by
  have hop : m.framed.header.operation = some .list := by
    rw [Message.framed, h.header]
    exact Client.operation_header
  rw [answer_known s hop, handle]
  rcases h.list_cases hs with
    ⟨dir, entries, hroot, hdir, hentries, hpackable, heq⟩ | ⟨hno, fault, heq⟩
  · obtain ⟨shown, hshown, hpacked⟩ := Entry.packAll_longestWithin hpackable
      (min b.toNat s.config.bufferSize.toNat)
    have hread : Entry.unpackAll (shown.flatMap Entry.pack) = .ok shown :=
      Entry.unpackAll_flatMap_pack fun entry hentry ↦
        hpackable entry (hshown.beginning.subset hentry)
    have hlisting : (Reply.okWith (shown.flatMap Entry.pack)).listing = .ok shown := hread
    have hfits : (shown.flatMap Entry.pack).length ≤ b.toNat := by
      rw [Entry.flatMap_pack_length]
      exact hshown.fits.trans (Nat.min_le_left _ _)
    rw [heq, hpacked]
    refine ⟨_, rfl, ?_, ?_, shown, hread⟩
    · rw [Reply.ofResult, hlisting]
      exact .dir hroot hdir hentries hshown
    · rw [Reply.ofResult, Reply.clamp, Reply.okWith, List.take_of_length_le hfits]
  · have hnothing : Entry.unpackAll (([] : List Entry).flatMap Entry.pack) = .ok [] :=
      Entry.unpackAll_flatMap_pack (by simp)
    rw [heq]
    refine ⟨_, rfl, .refused hno, ?_, [], hnothing⟩
    simp [Reply.ofResult, Reply.clamp, Reply.ofError, Reply.ofStatus]

/-- The dispatcher adds nothing to the service's own reply and cuts nothing off. -/
theorem AsksList.request_tells (h : s.AsksList d.context m path b) (hs : s.Sound held) :
    ∃ reply, s.answer m.framed = (reply, s) ∧ s.TellsList path b reply ∧ d.request s m =
      (reply, d.count fun stats ↦ { stats with requests := stats.requests + 1 }, s) := by
  obtain ⟨reply, hanswer, htells⟩ := h.answer_tells hs
  have hrbytes : m.header.rbytes = b := congrArg (·.rbytes) h.header
  refine ⟨reply, hanswer, htells, ?_⟩
  rw [Dispatcher.request_of_admits s h.admits, hrbytes]
  change ((s.answer m.framed).1.clamp b, _, (s.answer m.framed).2) = _
  rw [hanswer, htells.whole]

end Service

namespace Client

section Transport

variable {τ : Type} [Transport τ] {c : Client τ} {t : τ} {path : String} {reply : Reply}

theorem list_of_send
    (hsend : Transport.send c.transport
      (header .list listAll (Path.toPayload path) c.bufferSize) (Path.toPayload path) =
        (.ok reply, t)) :
    c.list path = (reply.listing, { c with transport := t }) := by
  rw [list, call_of_send hsend]
  dsimp only
  rw [Reply.listing]
  cases FsError.ofStatus reply.status with
  | none => rfl
  | some e => rfl

end Transport

variable {σ : Type} [Sharing σ] {s : Service σ} {c : Client (Link (Service σ))} {path : String}

/-- A client is shown as much of a directory as fits, and is refused every other path. Nothing is
lost of the listing on its way, and the service stays as it is. -/
theorem list_shows_directory (h : s.Fresh) (events : List Event)
    (happ : c.transport.app = s.run events)
    (hcontext : c.transport.dispatcher.context = s.config.context)
    (hattached : ∃ conn, c.transport.app.connections.get? c.transport.session = some conn)
    (hnul : '\x00' ∉ path.toList) (hbuffer : path.utf8ByteSize + 1 ≤ s.config.bufferSize.toNat)
    (hword : path.utf8ByteSize + 1 ≤ 2 ^ 32 - 1) :
    ((∃ shown, (c.list path).1 = .ok shown) ↔
      Path.isAbsolute path ∧ ∃ d, c.transport.app.ns.lookupDir none path = .ok d) ∧
    c.transport.app.Lists path (min c.bufferSize.toNat s.config.bufferSize.toNat) (c.list path).1 ∧
    (c.list path).2.transport.app = c.transport.app ∧
    ∃ reply, c.transport.app.answer
        (c.sends .list listAll (Path.toPayload path) c.bufferSize).framed =
          (reply, c.transport.app) ∧
      reply.clamp c.bufferSize = reply ∧
      ∃ entries, Entry.unpackAll reply.payload = .ok entries := by
  have hs := h.sound.run events
  have hconfig := Service.run_config h.reachable.wellFormed events
  rw [← happ] at hs hconfig
  have hsendable : Path.Sendable path := by
    refine ⟨hnul, ?_⟩
    unfold UInt32.size
    omega
  have hasks : c.transport.app.AsksList c.transport.dispatcher.context
      (c.sends .list listAll (Path.toPayload path) c.bufferSize) path c.bufferSize := by
    refine ⟨rfl, rfl, hattached, hsendable, ?_⟩
    rw [hcontext]
    exact hbuffer
  obtain ⟨reply, hanswer, ⟨hlists, hwhole, hread⟩, hrequest⟩ := hasks.request_tells hs
  have hlist : c.list path =
      (reply.listing, c.called .list listAll (Path.toPayload path) c.bufferSize) := by
    refine list_of_send ?_
    rw [Link.send_eq]
    rw [sends] at hrequest
    rw [hrequest]
  have happ' : (c.called .list listAll (Path.toPayload path) c.bufferSize).transport.app =
      c.transport.app := by
    rw [called_app hasks.admits]
    exact Service.list_unchanged _ _
  rw [hconfig] at hlists
  rw [hlist]
  exact ⟨hlists.ok_iff, hlists, happ', reply, hanswer, hwhole, hread⟩

/-- Two files of sixteen bytes in a listing of sixteen. -/
def twoFiles : List Event :=
  Service.opening ⟨7⟩ "/a/f" ++ Service.opening ⟨8⟩ "/a/g"

theorem newest_file_listed : ∃ c : Client (Link (Service GrantTable)),
    c.transport.app = (Service.new .standard GrantTable.empty).run twoFiles ∧
    (c.list "/a").1 = .ok [⟨"g", .file 0⟩] ∧
    ((∃ shown, (c.list "/a").1 = .ok shown) ↔
      Path.isAbsolute "/a" ∧ ∃ d, c.transport.app.ns.lookupDir none "/a" = .ok d) ∧
    c.transport.app.Lists "/a"
      (min c.bufferSize.toNat (Service.new .standard GrantTable.empty).config.bufferSize.toNat)
      (c.list "/a").1 ∧
    (c.list "/a").2.transport.app = c.transport.app ∧
    ∃ reply, c.transport.app.answer
        (c.sends .list listAll (Path.toPayload "/a") c.bufferSize).framed =
          (reply, c.transport.app) ∧
      reply.clamp c.bufferSize = reply ∧
      ∃ entries, Entry.unpackAll reply.payload = .ok entries := by
  have hattached : (ofEvents .standard twoFiles ⟨7⟩).transport.app.connections.get? ⟨7⟩ =
      some ⟨⟨7⟩, .opened, some .readOnly, 0, some ⟨0, 0⟩⟩ := by decide +kernel
  have hcontext : (ofEvents .standard twoFiles ⟨7⟩).transport.dispatcher.context =
      (Service.new .standard GrantTable.empty).config.context := rfl
  refine ⟨ofEvents .standard twoFiles ⟨7⟩, rfl, by decide +kernel, ?_⟩
  exact list_shows_directory (Service.fresh_new .standard GrantTable.empty) twoFiles rfl hcontext
    ⟨_, hattached⟩ (by decide +kernel) (by decide +kernel) (by decide +kernel)

end Client

end BootNamespace
