import BootNamespace.Proofs.Bytes
import BootNamespace.Proofs.Namespace.Truncation
import BootNamespace.Proofs.Service.Frame

namespace BootNamespace

namespace Namespace

theorem resolve_empty (pageSize : Nat) :
    (empty pageSize).resolve none "/f" = (.root, some "f") := by
  have hlist : "/f".toList = '/' :: ("f".toList ++ []) := by decide +kernel
  have hwalk : (empty pageSize).walk .root "/f".toList = (.root, some ("f".toList ++ [])) := by
    rw [hlist]
    exact walk_stop (by decide +kernel) Path.follows_nil rfl
  rw [resolve, Option.getD_none, hwalk, List.append_nil]
  dsimp only [Option.map]
  rw [String.ofList_toList]

theorem getFile_empty (pageSize : Nat) : (empty pageSize).getFile none "/f" = none := by
  have hends : ¬("/f" = "" ∨ Path.endsWithSlash "/f") := by decide +kernel
  have hslash : ¬"f".toList.contains '/' := by decide +kernel
  rw [getFile, if_neg hends, resolve_empty]
  dsimp only
  rw [if_neg hslash]
  rfl

theorem site_empty (pageSize : Nat) :
    (empty pageSize).site none "/f" = .ok ⟨.root, [], "f"⟩ := by
  have hcreatable : Path.checkCreatable "/f" = .ok () := by decide +kernel
  have hpieces : Path.pieces "f" = ["f"] := by decide +kernel
  have hvalid : ["f"].find? (!Path.validName ·) = none := by decide +kernel
  rw [site, hcreatable, resolve_empty]
  dsimp only
  rw [hpieces, hvalid]
  rfl

theorem createFile_empty (pageSize : Nat) : ∃ ns,
    (empty pageSize).createFile none "/f" [] .created = (.ok ⟨0, 0⟩, ns) ∧
    ns.file? ⟨0, 0⟩ = some ⟨"f", .root, .empty, .created, 0, 0⟩ := by
  rw [createFile, site_empty]
  exact ⟨_, rfl, rfl⟩

end Namespace

namespace ServerConfig

variable {config : ServerConfig}

/-- The largest size that a client may ask for, in whole pages. -/
def roundedLimit (config : ServerConfig) : Nat :=
  Namespace.wholePages config.pageSize.toNat config.maxFileSize.toNat

theorem validate_eq_ok (h : config.validate = .ok ()) :
    config.workers = 1 ∧ isPowerOfTwo config.pageSize.toNat ∧
      RequestHeader.length ≤ config.bufferSize.toNat ∧ config.maxFileSize ≠ 0 ∧
      ∀ setting ∈ config.paths, Path.isAbsolute setting.2 := by
  unfold validate at h
  split at h
  next => cases h
  next hworkers =>
    split at h
    next => cases h
    next hpage =>
      split at h
      next => cases h
      next hbuffer =>
        split at h
        next => cases h
        next hmax =>
          split at h
          next => cases h
          next hpaths =>
            refine ⟨not_not.mp hworkers, by simpa using hpage, Nat.not_lt.mp hbuffer, hmax, ?_⟩
            intro setting hsetting
            simpa using List.find?_eq_none.mp hpaths setting hsetting

theorem pageSize_pos (h : config.validate = .ok ()) : 0 < config.pageSize.toNat := by
  have hzero : ¬isPowerOfTwo 0 := by decide
  refine Nat.pos_of_ne_zero fun hpage ↦ hzero ?_
  rw [← hpage]
  exact (validate_eq_ok h).2.1

theorem maxFileSize_ne_zero (h : config.validate = .ok ()) : config.maxFileSize ≠ 0 :=
  (validate_eq_ok h).2.2.2.1

end ServerConfig

namespace Service

variable {σ : Type} [Sharing σ] {s : Service σ} {config : ServerConfig} {m : Message}
variable {conn : Connection} {id : FileId} {file old : FileNode} {mode : OpenMode}

/-- Nothing has attached yet to a service with this configuration. -/
structure Configured (config : ServerConfig) (s : Service σ) : Prop where
  fresh : s.Fresh
  settings : s.config = config
  pages : s.ns.pageSize = config.pageSize.toNat

/-- Each truncation that succeeds leaves the file of its session within a limit. -/
def TruncatesWithin (s : Service σ) (limit : Nat) : Prop :=
  ∀ m, m.header.operation = some .truncate → (s.answer m).1.status = Status.ok →
    ∃ conn id file, s.connections.get? m.session = some conn ∧ conn.file = some id ∧
      (s.answer m).2.ns.file? id = some file ∧ file.size ≤ limit

omit [Sharing σ] in
theorem configured_new (h : config.validate = .ok ()) (share : σ) :
    (new config share).Configured config :=
  ⟨fresh_new config share, rfl, if_neg (Nat.ne_of_gt (ServerConfig.pageSize_pos h))⟩

omit [Sharing σ] in
/-- So it is once the namespace has been filled from an image. -/
theorem Configured.bootstrap {τ : Type} [Image.ImageSource τ] (h : s.Configured config)
    (source : τ) : (s.bootstrap source).2.Configured config := by
  refine ⟨h.fresh.bootstrap source, ?_, ?_⟩
  · unfold Service.bootstrap
    dsimp only
    split
    · exact h.settings
    · exact h.settings
  · rw [bootstrap_ns]
    exact (s.ns.bootstrap_reaches s.image source s.config.layout).pageSize.trans h.pages

/-- What a truncation leaves is the size that was asked for, in whole pages. -/
theorem truncate_leaves (hop : m.header.operation = some .truncate)
    (hok : (s.answer m).1.status = Status.ok) :
    ∃ conn id file size, s.connections.get? m.session = some conn ∧ conn.file = some id ∧
      (s.answer m).2.ns.file? id = some file ∧ size ≤ s.config.maxFileSize ∧
      file.size = Namespace.wholePages s.ns.pageSize size.toNat ∧
      file.size < Namespace.allocationLimit := by
  rw [answer_known s hop, handle] at hok ⊢
  rcases truncate_cases s m with
    ⟨e, heq⟩ | ⟨conn, id, mode, size, length, ns', hbound, -, hmax, htruncate, heq⟩
  · rw [heq] at hok
    exact absurd hok e.status_ne_ok
  · obtain ⟨hget, hboth⟩ := boundConnection_eq_ok.mp hbound
    rcases Namespace.truncate_cases s.ns id size with
      ⟨-, hrefused⟩ | ⟨old, e, -, hrefused, -⟩ |
      ⟨old, length', hlive, -, -, hround, hlimit, hdone⟩
    · cases htruncate.symm.trans hrefused
    · cases htruncate.symm.trans hrefused
    · cases htruncate.symm.trans hdone
      rw [heq]
      refine ⟨conn, id, _, size, hget, (Connection.bound_eq_ok.mp hboth).2.1,
        Namespace.file?_putFile_self hlive, hmax, ?_, ?_⟩
      · rw [(Namespace.roundUp_eq_some.mp hround).1]
        exact Buffer.length_resize _ _
      · exact Nat.lt_of_le_of_lt (Nat.le_of_eq (Buffer.length_resize _ _)) hlimit

theorem Configured.run_config (h : s.Configured config) (events : List Event) :
    (s.run events).config = config :=
  (Service.run_config h.fresh.reachable.wellFormed events).trans h.settings

theorem Configured.run_pages (h : s.Configured config) (events : List Event) :
    (s.run events).ns.pageSize = config.pageSize.toNat :=
  (run_reaches h.fresh.reachable.wellFormed events).pageSize.trans h.pages

theorem Configured.truncates_within_pages (h : s.Configured config) (events : List Event) :
    (s.run events).TruncatesWithin config.roundedLimit := by
  intro m hop hok
  obtain ⟨conn, id, file, size, hget, hfile, hnode, hmax, hsize, -⟩ := truncate_leaves hop hok
  rw [h.run_config events] at hmax
  rw [h.run_pages events] at hsize
  exact ⟨conn, id, file, hget, hfile, hnode,
    hsize ▸ Namespace.wholePages_mono (UInt64.le_iff_toNat_le.mp hmax)⟩

/-- The limit itself is kept if it is a number of pages, or if nothing that goes beyond it can be
allocated. -/
theorem Configured.truncates_within (h : s.Configured config) (hvalid : config.validate = .ok ())
    (hlimit : config.pageSize.toNat ∣ config.maxFileSize.toNat ∨
      Namespace.allocationLimit ≤ config.roundedLimit) (events : List Event) :
    (s.run events).TruncatesWithin config.maxFileSize.toNat := by
  have hpage := ServerConfig.pageSize_pos hvalid
  intro m hop hok
  obtain ⟨conn, id, file, size, hget, hfile, hnode, hmax, hsize, halloc⟩ := truncate_leaves hop hok
  rw [h.run_config events] at hmax
  rw [h.run_pages events] at hsize
  have hpages : Namespace.wholePages config.pageSize.toNat size.toNat ≤
      Namespace.wholePages config.pageSize.toNat config.maxFileSize.toNat :=
    Namespace.wholePages_mono (UInt64.le_iff_toNat_le.mp hmax)
  refine ⟨conn, id, file, hget, hfile, hnode, ?_⟩
  rw [hsize] at halloc ⊢
  rcases hlimit with hdvd | hbeyond
  · rwa [Namespace.wholePages_of_dvd hpage hdvd] at hpages
  · exact Namespace.wholePages_le_of_lt hpage (Nat.lt_of_lt_of_le halloc hbeyond)

/-- Whatever the configuration, a session can open a new file in an empty namespace. -/
theorem first_open (config : ServerConfig) (share : σ) :
    ((new config share).run (opening ⟨7⟩ "/f")).boundConnection ⟨7⟩ =
      .ok (⟨⟨7⟩, .opened, some .readOnly, 0, some ⟨0, 0⟩⟩, ⟨0, 0⟩, .readOnly) ∧
    ((new config share).run (opening ⟨7⟩ "/f")).ns.file? ⟨0, 0⟩ =
      some ⟨"f", .root, .empty, .created, 1, 0⟩ := by
  obtain ⟨ns, hcreate, hlive⟩ := Namespace.createFile_empty config.pageSize.toNat
  have hmode : OpenMode.ofFlags (openRequest ⟨7⟩ "/f").header.code = .ok .readOnly := by decide
  have hpath : requestPath (openRequest ⟨7⟩ "/f") = .ok "/f" := by decide +kernel
  have hflag : ¬(openRequest ⟨7⟩ "/f").header.code &&& OpenFlags.create = 0 := by decide
  have hopen : ns.openFile ⟨0, 0⟩ .readOnly =
      (.ok (), ns.putFile ⟨0, 0⟩ ⟨"f", .root, .empty, .created, 1, 0⟩) := by
    rw [Namespace.openFile, Namespace.file_eq_ok hlive]
    rfl
  have hconn : ((new config share).putConnection ⟨7⟩ (.new ⟨7⟩)).connection
      (openRequest ⟨7⟩ "/f").session = .ok (.new ⟨7⟩) :=
    connection_eq_ok.mpr connections_put_self
  have hmissing : ((new config share).putConnection ⟨7⟩ (.new ⟨7⟩)).ns.getFile none "/f" = none :=
    Namespace.getFile_empty config.pageSize.toNat
  have hcreate' : ((new config share).putConnection ⟨7⟩ (.new ⟨7⟩)).ns.createFile none "/f" []
      .created = (.ok ⟨0, 0⟩, ns) := hcreate
  have hopened : (new config share).run (opening ⟨7⟩ "/f") =
      { (new config share).putConnection ⟨7⟩ (.new ⟨7⟩) with
        ns := ns.putFile ⟨0, 0⟩ ⟨"f", .root, .empty, .created, 1, 0⟩
      }.putConnection ⟨7⟩ ⟨⟨7⟩, .opened, some .readOnly, 0, some ⟨0, 0⟩⟩ := by
    change (((new config share).putConnection ⟨7⟩ (.new ⟨7⟩)).openFile
      (openRequest ⟨7⟩ "/f")).2 = _
    rw [openFile, hconn]
    dsimp only
    rw [if_neg (by decide), hmode]
    dsimp only
    rw [hpath]
    dsimp only
    rw [hmissing]
    dsimp only
    rw [if_neg hflag, hcreate']
    dsimp only
    rw [bindFile_ok rfl rfl hopen]
    rfl
  rw [hopened]
  exact ⟨boundConnection_eq_ok.mpr ⟨connections_put_self, rfl⟩,
    Namespace.file?_putFile_self hlive⟩

def limitRequest (config : ServerConfig) : Message :=
  fileRequest ⟨7⟩ .truncate (Bytes.ofUInt64 config.maxFileSize)

theorem truncateSize_limitRequest (config : ServerConfig) :
    truncateSize (limitRequest config).payload = .ok config.maxFileSize := by
  have hlength : (Bytes.ofUInt64 config.maxFileSize).length = 8 := by simp [Bytes.ofUInt64]
  change truncateSize (Bytes.ofUInt64 config.maxFileSize) = _
  rw [truncateSize, hlength, Bytes.toUInt64_ofUInt64]
  rfl

/-- A truncation to the limit is allowed, and its size then is the one in whole pages. -/
theorem truncated_to_limit (hvalid : config.validate = .ok ())
    (hlimit : config.roundedLimit < Namespace.allocationLimit) (share : σ) :
    (((new config share).run (opening ⟨7⟩ "/f")).answer (limitRequest config)).1.status =
      Status.ok ∧
    ∃ file, (((new config share).run (opening ⟨7⟩ "/f")).answer
      (limitRequest config)).2.ns.file? ⟨0, 0⟩ = some file ∧ file.size = config.roundedLimit := by
  obtain ⟨hbound, hlive⟩ := first_open config share
  have hconfigured := configured_new hvalid share
  have hmax : config.maxFileSize ≤ ((new config share).run (opening ⟨7⟩ "/f")).config.maxFileSize := by
    rw [hconfigured.run_config]
    exact UInt64.le_refl _
  have hround : Namespace.roundUp ((new config share).run (opening ⟨7⟩ "/f")).ns.pageSize
      config.maxFileSize.toNat = some config.roundedLimit := by
    rw [hconfigured.run_pages, Namespace.roundUp_eq_some]
    exact ⟨rfl, Nat.lt_trans hlimit (by decide)⟩
  have hdone := truncate_file (m := limitRequest config) hbound hlive (by decide)
    (truncateSize_limitRequest config) (ServerConfig.maxFileSize_ne_zero hvalid) hmax hround hlimit
  rw [answer_known _ rfl, handle, hdone]
  exact ⟨rfl, _, Namespace.file?_putFile_self hlive, Buffer.length_resize _ _⟩

theorem not_truncates_within (hvalid : config.validate = .ok ())
    (hdvd : ¬config.pageSize.toNat ∣ config.maxFileSize.toNat)
    (hlimit : config.roundedLimit < Namespace.allocationLimit) (share : σ) :
    ¬((new config share).run (opening ⟨7⟩ "/f")).TruncatesWithin config.maxFileSize.toNat := by
  intro hwithin
  have hpage := ServerConfig.pageSize_pos hvalid
  obtain ⟨hok, file, hnode, hsize⟩ := truncated_to_limit hvalid hlimit share
  obtain ⟨hget, hboth⟩ := boundConnection_eq_ok.mp (first_open config share).1
  obtain ⟨conn, id, file', hget', hfile, hnode', hle⟩ := hwithin (limitRequest config) rfl hok
  cases hget.symm.trans hget'
  cases hfile
  cases hnode.symm.trans hnode'
  have hge := Namespace.le_wholePages hpage config.maxFileSize.toNat
  have hpages := Namespace.dvd_wholePages config.pageSize.toNat config.maxFileSize.toNat
  rw [hsize, ServerConfig.roundedLimit] at hle
  rw [Nat.le_antisymm hle hge] at hpages
  exact hdvd hpages

/-- A truncation that succeeds leaves at most the limit in whole pages, and the limit itself is kept
in all runs exactly if it is a number of pages, or too large for the next number of pages to be
allocated. -/
theorem truncates_within_iff (hvalid : config.validate = .ok ()) (share : σ) :
    (∀ s : Service σ, s.Configured config → ∀ events,
      (s.run events).TruncatesWithin config.roundedLimit) ∧
    ((∀ s : Service σ, s.Configured config → ∀ events,
        (s.run events).TruncatesWithin config.maxFileSize.toNat) ↔
      config.pageSize.toNat ∣ config.maxFileSize.toNat ∨
        Namespace.allocationLimit ≤ config.roundedLimit) := by
  refine ⟨fun s h events ↦ h.truncates_within_pages events, fun hwithin ↦ ?_,
    fun hlimit s h events ↦ h.truncates_within hvalid hlimit events⟩
  by_contra hno
  obtain ⟨hdvd, hlimit⟩ := not_or.mp hno
  exact not_truncates_within hvalid hdvd (Nat.lt_of_not_le hlimit) share
    (hwithin _ (configured_new hvalid share) _)

theorem standard_truncates_within : ServerConfig.standard.validate = .ok () ∧
    (new .standard GrantTable.empty).Configured .standard ∧
    ((new .standard GrantTable.empty).run (opening ⟨7⟩ "/f")).TruncatesWithin 16777216 := by
  have hvalid : ServerConfig.standard.validate = .ok () := by decide +kernel
  have hconfigured := configured_new hvalid GrantTable.empty
  exact ⟨hvalid, hconfigured, (truncates_within_iff hvalid GrantTable.empty).2.mpr
    (.inl (by decide)) _ hconfigured _⟩

/-- A configuration with a limit in the middle of a page. -/
def unaligned : ServerConfig := { ServerConfig.standard with maxFileSize := 5000 }

theorem unaligned_truncates_beyond : unaligned.validate = .ok () ∧
    (new unaligned GrantTable.empty).Configured unaligned ∧
    ¬((new unaligned GrantTable.empty).run (opening ⟨7⟩ "/f")).TruncatesWithin 5000 := by
  have hvalid : unaligned.validate = .ok () := by decide +kernel
  exact ⟨hvalid, configured_new hvalid _, not_truncates_within hvalid (by decide) (by decide) _⟩

end Service

end BootNamespace
