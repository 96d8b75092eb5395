import BootNamespace.Proofs.Bytes
import BootNamespace.Proofs.Client.Link
import BootNamespace.Proofs.Namespace.Naming
import BootNamespace.Proofs.Service.Cursors

namespace BootNamespace

namespace Path

variable {path p q : String}

/-- What a server makes of a client's path: as much of its payload as a word can count, up to the
first NUL. -/
def received (path : String) : Except FsError String :=
  ofPayload ((toPayload path).take (UInt32.ofNat (toPayload path).length).toNat)

/-- A path that reaches the server whole. -/
structure Sendable (path : String) : Prop where
  noNul : '\x00' ∉ path.toList
  length : path.utf8ByteSize + 1 < UInt32.size

theorem toPayload_length (path : String) : (toPayload path).length = path.utf8ByteSize + 1 := by
  rw [toPayload, List.length_append, Bytes.ofText_length]
  rfl

theorem takeWhile_toPayload (h : '\x00' ∉ path.toList) :
    (toPayload path).takeWhile (· ≠ 0) = Bytes.ofText path := by
  have hzero : ∀ b ∈ Bytes.ofText path, b ≠ 0 := by
    rintro b hb rfl
    exact Bytes.zero_notMem_ofText h hb
  rw [toPayload, List.takeWhile_append_of_pos (by simpa using hzero)]
  simp

theorem ofPayload_eq_ok {payload : Bytes} :
    ofPayload payload = .ok p ↔ payload.takeWhile (· ≠ 0) = Bytes.ofText p := by
  unfold ofPayload
  rw [← Bytes.toText?_eq_some_iff]
  cases Bytes.toText? (payload.takeWhile (· ≠ 0)) with
  | none => simp
  | some text => simp

theorem Sendable.received (h : Sendable path) : Path.received path = .ok path := by
  have hlength := h.length
  rw [← toPayload_length] at hlength
  rw [Path.received, UInt32.toNat_ofNat_of_lt' hlength, List.take_length, ofPayload_eq_ok]
  exact takeWhile_toPayload h.noNul

/-- A server never takes a path for another that is not the beginning of it. -/
theorem received_eq_ok (h : received path = .ok p) :
    ∃ q, path = p ++ q ∧ (q = "" ↔ Sendable path) := by
  have hbytes := ofPayload_eq_ok.mp h
  have hzero : 0 ∉ Bytes.ofText p := by
    rw [← hbytes]
    intro hmem
    simpa using List.mem_takeWhile_imp hmem
  have hprefix : Bytes.ofText p <+: toPayload path := by
    rw [← hbytes]
    exact (List.takeWhile_prefix _).trans (List.take_prefix _ _)
  rw [toPayload, List.prefix_concat_iff] at hprefix
  obtain ⟨q, hq⟩ : ∃ q, path = p ++ q := by
    rcases hprefix with hwhole | hprefix
    · rw [hwhole] at hzero
      simp at hzero
    · exact Bytes.eq_append_of_ofText_prefix hprefix
  refine ⟨q, hq, ?_⟩
  constructor
  · rintro rfl
    rw [String.append_empty] at hq
    subst hq
    constructor
    · exact fun hnul ↦ hzero (Bytes.zero_mem_ofText hnul)
    · -- The length itself must not go beyond what the word for the payload's length keeps of it.
      have hlength : (Bytes.ofText path).length ≤ (UInt32.ofNat (toPayload path).length).toNat := by
        rw [← hbytes]
        exact (List.takeWhile_prefix _).length_le.trans (List.length_take_le _ _)
      rw [Bytes.ofText_length, toPayload_length, UInt32.toNat_ofNat'] at hlength
      unfold UInt32.size
      omega
  · intro hsendable
    rw [hsendable.received] at h
    cases h
    have hlist := congrArg String.toList hq
    rw [String.toList_append, List.self_eq_append_right] at hlist
    exact String.toList_eq_nil_iff.mp hlist

/-- What follows the names of a path adds to them or is made of slashes. -/
theorem eq_empty_of_segments_append (h : segments (p ++ q) = segments p)
    (hends : ¬endsWithSlash (p ++ q)) : q = "" := by
  have hchars : (p ++ q).toList.filter (· ≠ '/') = p.toList.filter (· ≠ '/') := by
    rw [← flatMap_toList_names, ← flatMap_toList_names]
    exact congrArg (List.flatMap String.toList) h
  rw [String.toList_append, List.filter_append, List.append_right_eq_self,
    List.filter_eq_nil_iff] at hchars
  by_contra hne
  have hlast : q.toList ≠ [] := fun hnil ↦ hne (String.toList_eq_nil_iff.mp hnil)
  have hslash : q.toList.getLast hlast = '/' := by
    simpa using hchars _ (List.getLast_mem hlast)
  rw [endsWithSlash, String.toList_append, List.getLast?_append,
    List.getLast?_eq_some_getLast hlast, hslash] at hends
  exact hends rfl

end Path

namespace Namespace

variable {ns ns' : Namespace} {p q path : String} {id other : FileId}

/-- Two paths of one file, of which one starts with the other, are the same. -/
theorem eq_empty_of_getFile_append (h : ns.WellFormed) (hp : ns.getFile none p = some id)
    (hq : ns.getFile none (p ++ q) = some id) : q = "" := by
  obtain ⟨-, hnames, hd, hfile, -⟩ := (getFile_eq_some_iff h).mp hp
  obtain ⟨hends, hnames', hd', hfile', -⟩ := (getFile_eq_some_iff h).mp hq
  obtain ⟨file, hlive, rfl, rfl⟩ := hfile
  obtain ⟨file', hlive', rfl, rfl⟩ := hfile'
  cases hlive.symm.trans hlive'
  refine Path.eq_empty_of_segments_append ?_ hends
  rw [← hnames, ← hnames', ← hd.dirPath, ← hd'.dirPath]

theorem Touched.getFile_eq_some_iff (ht : ns.Touched other ns') (h : ns.WellFormed) :
    ns'.getFile none path = some id ↔ ns.getFile none path = some id := by
  have h' := ht.wellFormed h
  cases ht with
  | same => rfl
  | @put old file hold hname howner =>
    have hdirs {names : List String} {d : DirId} :
        (ns.putFile other file).LeadsTo names d ↔ ns.LeadsTo names d :=
          leadsTo_congr fun _ ↦ rfl
    rw [Namespace.getFile_eq_some_iff h, Namespace.getFile_eq_some_iff h', namesFile_iff,
      namesFile_iff]
    simp only [hasFile_putFile hold hname howner, hdirs]
    rfl

end Namespace

namespace Service

variable {σ : Type} {s : Service σ} {m : Message} {reply : Reply}

/-- A request with a path is read as the path that the server has received. -/
theorem requestPath_framed {path : String} (hpayload : m.payload = Path.toPayload path)
    (hsbytes : m.header.sbytes = .ofNat (Path.toPayload path).length) :
    requestPath m.framed = match Path.received path with
      | .error e => .error e
      | .ok p => if Path.isAbsolute p then .ok p else .error (.invalidPath (.relative p)) := by
  have hbytes : m.framed.payload.toList =
      (Path.toPayload path).take (UInt32.ofNat (Path.toPayload path).length).toNat := by
    rw [Message.framed, hpayload, hsbytes, Buffer.toList_take, Buffer.toList_ofList]
  rw [requestPath, hbytes]
  rfl

/-- An open request that is granted binds its session to the file that its path then names. -/
theorem openFile_binds (h : s.ns.WellFormed) (hok : (s.openFile m).1 = .ok reply) :
    (s.openFile m).2.ns.WellFormed ∧ ∃ path id mode, requestPath m = .ok path ∧
      (s.openFile m).2.bound? m.session = some (id, mode) ∧
      (s.openFile m).2.ns.getFile none path = some id := by
  rcases openFile_cases h m with ⟨e, heq⟩ | ⟨path, e, ns', -, -, heq⟩ |
    ⟨conn, path, mode, id, ns₁, ns₂, hget, hfile, hclosed, hmode, hpath, hwhere, hopen, heq⟩
  · rw [heq] at hok
    cases hok
  · rw [heq] at hok
    cases hok
  have hfound : ns₁.WellFormed ∧ ns₁.getFile none path = some id := by
    rcases hwhere with ⟨hfound, rfl⟩ | ⟨-, -, hcreate⟩
    · exact ⟨h, hfound⟩
    · have hcwd : ∀ d ∈ (none : Option DirId), d.index < s.ns.dirs.size := by simp
      have hns₁ := h.createFile hcwd path [] .created
      rw [hcreate] at hns₁
      exact ⟨hns₁, Namespace.getFile_createFile h hcwd hcreate⟩
  have htouched := Namespace.openFile_touched ns₁ id mode
  have hbound : ({ s with ns := ns₂ }.putConnection m.session (conn.tied id mode)).boundConnection
      m.session = .ok (conn.tied id mode, id, mode) :=
    boundConnection_eq_ok.mpr ⟨connections_put_self,
      Connection.bound_eq_ok.mpr ⟨by simp [Connection.tied], rfl, rfl⟩⟩
  rw [hopen] at htouched
  rw [heq]
  exact ⟨htouched.wellFormed hfound.1, path, id, mode, hpath, bound?_eq_some hbound,
    (htouched.getFile_eq_some_iff hfound.1).mpr hfound.2⟩

end Service

namespace Client

variable {σ : Type} [Sharing σ] {s : Service σ} {c : Client (Link (Service σ))} {path : String}
variable {flags : UInt32} {conn : Connection}

theorem exists_ok_of_map {α : Type} {result : Except FsError α}
    (h : (result.map fun _ ↦ ()) = .ok ()) : ∃ a, result = .ok a := by
  cases result with
  | error e => cases h
  | ok a => exact ⟨a, rfl⟩

/-- A client is bound to the file of the path that the server has received, which is the file of the
path that it has asked for exactly if the path has come whole. -/
theorem open_binds_received (h : s.Fresh) (events : List Event)
    (happ : c.transport.app = s.run events)
    (hopen : (c.openFile path flags).1 = .ok ()) :
    ∃ p id mode, Path.received path = .ok p ∧
      (c.openFile path flags).2.transport.app.bound? c.transport.session = some (id, mode) ∧
      (c.openFile path flags).2.transport.app.ns.getFile none p = some id ∧
      ((c.openFile path flags).2.transport.app.ns.getFile none path = some id ↔
        Path.Sendable path) := by
  have hns : c.transport.app.ns.WellFormed := by
    rw [happ]
    exact (h.sound.run events).wellFormed
  rw [openFile, command_eq] at hopen ⊢
  dsimp only at hopen ⊢
  obtain ⟨reply, hcall⟩ := exists_ok_of_map hopen
  obtain ⟨hadmits, granted, hgranted⟩ := call_eq_ok hcall
  rw [called_app hadmits]
  obtain ⟨hns', p, id, mode, hpath, hbound, hfound⟩ := Service.openFile_binds hns hgranted
  have hreceived : Path.received path = .ok p := by
    rw [Service.requestPath_framed rfl rfl] at hpath
    split at hpath
    next => cases hpath
    next received heq =>
      split at hpath
      · cases hpath
        exact heq
      · cases hpath
  obtain ⟨q, rfl, hwhole⟩ := Path.received_eq_ok hreceived
  refine ⟨p, id, mode, hreceived, hbound, hfound, ?_⟩
  rw [← hwhole]
  constructor
  · exact Namespace.eq_empty_of_getFile_append hns' hfound
  · rintro rfl
    rw [String.append_empty] at hfound ⊢
    exact hfound

/-- A client of a new service on which these events have happened. -/
def ofEvents (config : ServerConfig) (events : List Event) (session : SessionId) :
    Client (Link (Service GrantTable)) :=
  ⟨⟨.new config.context, (Service.new config .empty).run events, session, 1⟩, 16⟩

theorem created_path_bound : ∃ c : Client (Link (Service GrantTable)),
    c.transport.app = (Service.new .standard GrantTable.empty).run [.attach ⟨7⟩] ∧
    (c.openFile "/a/f" OpenFlags.create).1 = .ok () ∧
    ∃ p id mode, Path.received "/a/f" = .ok p ∧
      (c.openFile "/a/f" OpenFlags.create).2.transport.app.bound? ⟨7⟩ = some (id, mode) ∧
      (c.openFile "/a/f" OpenFlags.create).2.transport.app.ns.getFile none p = some id ∧
      ((c.openFile "/a/f" OpenFlags.create).2.transport.app.ns.getFile none "/a/f" = some id ↔
        Path.Sendable "/a/f") := by
  have hopen : ((ofEvents .standard [.attach ⟨7⟩] ⟨7⟩).openFile "/a/f" OpenFlags.create).1 = .ok () := by
    decide +kernel
  exact ⟨_, rfl, hopen, open_binds_received (Service.fresh_new .standard .empty) _ rfl hopen⟩

/-- A second session attaches next to one that has made a file. -/
def newcomer : List Event := Service.opening ⟨7⟩ "/sys" ++ [.attach ⟨8⟩]

theorem cut_path_binds_another_file : ∃ c : Client (Link (Service GrantTable)),
    c.transport.app = (Service.new .standard GrantTable.empty).run newcomer ∧
    c.transport.app.connections.get? c.transport.session = some (.new ⟨8⟩) ∧
    (c.openFile "/sys\x00x" OpenFlags.readOnly).1 = .ok () ∧
    (c.openFile "/sys\x00x" OpenFlags.readOnly).2.transport.app.bound? c.transport.session =
      some (⟨0, 0⟩, .readOnly) ∧
    (c.openFile "/sys\x00x" OpenFlags.readOnly).2.transport.app.ns.getFile none "/sys\x00x" =
      none := by
  refine ⟨ofEvents .standard newcomer ⟨8⟩, rfl, ?_, ?_, ?_, ?_⟩
  · decide +kernel
  · decide +kernel
  · decide +kernel
  · decide +kernel

end Client

end BootNamespace
