import BootNamespace.Proofs.Bootstrap.Summaries
import BootNamespace.Proofs.Client.Fetch
import BootNamespace.Proofs.Client.Simulation
import BootNamespace.Proofs.Demo

namespace BootNamespace

open Image

theorem Dispatcher.request_payload_length {α : Type} [ServerApp α] (d : Dispatcher) (app : α)
    (m : Message) : (d.request app m).1.payload.length ≤ m.header.rbytes.toNat := by
  by_cases h : d.context.Admits m
  · rw [request_of_admits app h]
    exact List.length_take_le _ _
  · rw [request_of_not_admits app h]
    exact Nat.zero_le _

namespace Client

variable {σ : Type} [Sharing σ] {shown : List Entry}

theorem list_eq (c : Client (Link (Service σ))) (path : String) : c.list path =
    ((c.answered .list listAll (Path.toPayload path) c.bufferSize).listing,
      c.called .list listAll (Path.toPayload path) c.bufferSize) :=
  list_of_send (Link.send_eq _ _ _)

/-- To ask for a listing changes nothing, whether or not the request gets past the dispatcher. -/
theorem app_of_list (c : Client (Link (Service σ))) (path : String) :
    (c.list path).2.transport.app = c.transport.app := by
  rw [list_eq]
  by_cases hadmits : c.transport.dispatcher.context.Admits
      (c.sends .list listAll (Path.toPayload path) c.bufferSize)
  · rw [called_app hadmits]
    exact Service.list_unchanged _ _
  · change (c.transport.dispatcher.request _
      (c.sends .list listAll (Path.toPayload path) c.bufferSize)).2.2 = _
    rw [Dispatcher.request_of_not_admits _ hadmits]

/-- A client that asks for nothing is shown nothing of a directory. -/
theorem list_nothing {c : Client (Link (Service σ))} {path : String} (hbuffer : c.bufferSize = 0)
    (hlist : (c.list path).1 = .ok shown) : shown = [] := by
  have hlength := c.transport.dispatcher.request_payload_length c.transport.app
    (c.sends .list listAll (Path.toPayload path) c.bufferSize)
  have hrbytes : (c.sends .list listAll (Path.toPayload path) c.bufferSize).header.rbytes.toNat =
      c.bufferSize.toNat := rfl
  rw [hrbytes, hbuffer, UInt32.toNat_zero, Nat.le_zero, List.length_eq_zero_iff] at hlength
  have hnothing : Entry.unpackAll (([] : List Entry).flatMap Entry.pack) = .ok [] :=
    Entry.unpackAll_flatMap_pack (by simp)
  rw [List.flatMap_nil] at hnothing
  rw [list_eq, hbuffer, Reply.listing, answered, hlength, hnothing] at hlist
  split at hlist
  next => cases hlist
  next =>
    cases hlist
    rfl

end Client

theorem ServerConfig.validate_of_accept {read : Bytes → Option ServerConfig} {text : Bytes}
    {config : ServerConfig} (h : accept read text = .ok config) : config.validate = .ok () := by
  unfold accept at h
  split at h
  next => cases h
  next =>
    split at h
    next => cases h
    next hvalid =>
      cases h
      exact hvalid

namespace Demo

variable {base s : Service GrantTable} {b : UInt32} {c : Session} {path : String}
variable {config settings : ServerConfig}

/-- The client of the demonstration between two of its parts: it has no file open, and the service
is as it was but for the connection. -/
def Resting (base : Service GrantTable) (b : UInt32) (c : Session) : Prop :=
  ∃ k : Client (Link (Service GrantTable)), Client.Alike LocalClient.Follows c k ∧
    k.bufferSize = b ∧
    k.transport.app = base.putConnection k.transport.session (.new k.transport.session)

theorem connected_rests (h : s.Configured config) (hvalid : config.validate = .ok ()) :
    Resting s config.bufferSize.toUInt32 (connected config s) := by
  obtain ⟨d, -, hcomes⟩ := connected_comesTo h hvalid
  exact ⟨⟨⟨d, attended s, ⟨1⟩, 0⟩, config.bufferSize.toUInt32⟩, ⟨⟨rfl, hcomes⟩, rfl⟩, rfl, rfl⟩

/-- A listing leaves the client at rest. All that it prints for a client that asks for nothing is
its title. -/
theorem showListing_rests (h : Resting base b c) (path : String)
    (hshown : (showListing c path).1.failure = none) :
    Resting base b (showListing c path).2 ∧
      (b = 0 → (showListing c path).1.output = Bytes.ofText (path ++ ":\n")) := by
  obtain ⟨k, halike, hbuffer, happ⟩ := h
  have hlist := Client.list_matches LocalClient.follows_simulates halike path
  have hafter : Resting base b (c.list path).2 := by
    refine ⟨(k.list path).2, hlist.alike, ?_, ?_⟩
    · rw [Client.list_eq]
      exact hbuffer
    · rw [Client.app_of_list, happ, Client.list_eq]
      rfl
  rw [showListing] at hshown ⊢
  rcases heq : c.list path with ⟨e | shown, c'⟩
  · rw [heq] at hshown
    cases hshown
  · rw [heq] at hafter hlist
    refine ⟨hafter, fun hzero ↦ ?_⟩
    have hnothing := Client.list_nothing (hbuffer.trans hzero) hlist.result.symm
    rw [hnothing]
    exact List.append_nil _

/-- To show a file leaves the client at rest. It prints the whole file, or nothing for a client that
asks for nothing. -/
theorem showFile_rests (h : Resting base b c) (hbase : base.Fresh) (hshare : base.share = .empty)
    (hsendable : Path.Sendable path) (hshown : (showFile c path).1.failure = none) :
    Resting base b (showFile c path).2 ∧ ∃ data, base.ns.contents? path = some data ∧
      (showFile c path).1.output = if b = 0 then [] else data := by
  obtain ⟨k, halike, hbuffer, happ⟩ := h
  have hopens := Client.openFile_matches LocalClient.follows_simulates halike path
    OpenFlags.readOnly
  have hopen : (k.openFile path OpenFlags.readOnly).1 = .ok () := by
    rw [← hopens.result]
    rw [showFile] at hshown
    rcases heq : c.openFile path OpenFlags.readOnly with ⟨e | ⟨⟩, c'⟩
    · rw [heq] at hshown
      cases hshown
    · rfl
  have hgrant : base.share.grant? k.transport.session = none := by
    rw [hshare]
    rfl
  obtain ⟨id, file, k₁, k₂, k₃, hfound, hlive, hopened, hread, hclosed, happ₃, hsession₃,
    hbuffer₃⟩ := Client.fetch_of_open hbase hgrant happ hsendable hopen
  rw [hopened] at hopens
  obtain ⟨c₁, hc₁, halike₁⟩ := hopens.exists_eq
  obtain ⟨c₂, hc₂, halike₂⟩ :=
    (hread ▸ Client.readToEnd_matches LocalClient.follows_simulates halike₁).exists_eq
  obtain ⟨c₃, hc₃, halike₃⟩ :=
    (hclosed ▸ Client.close_matches LocalClient.follows_simulates halike₂).exists_eq
  rw [showFile, hc₁]
  dsimp only
  rw [hc₂]
  dsimp only
  rw [hc₃]
  refine ⟨⟨k₃, halike₃, hbuffer₃.trans hbuffer, ?_⟩, _, Namespace.contents?_of_getFile hfound hlive,
    by rw [hbuffer]⟩
  rw [happ₃, happ, hsession₃]

theorem showAll_nil_output (c : Session) : (showAll c []).1.output = [] := rfl

theorem showAll_output (c : Session) (part : Session → Shown × Session)
    (parts : List (Session → Shown × Session)) (hshown : (part c).1.failure = none) :
    (showAll c (part :: parts)).1.output =
      (part c).1.output ++ (showAll (part c).2 parts).1.output := by
  rw [showAll]
  generalize part c = first at hshown ⊢
  obtain ⟨⟨output, failure⟩, c'⟩ := first
  obtain rfl : failure = none := hshown
  rfl

/-- A session that goes through has printed two listings and then the files that it found under the
two paths, or the titles of the listings alone if its client asks for nothing. -/
theorem session_output (h : s.Configured config) (hshare : s.share = .empty)
    (hvalid : config.validate = .ok ()) (hsys : Path.Sendable config.sysPath)
    (hdevices : Path.Sendable config.devicesPath)
    (hshown : (session config (LocalServer.new config.context s)).1.failure = none) :
    ∃ sys devices, s.ns.contents? config.sysPath = some sys ∧
      s.ns.contents? config.devicesPath = some devices ∧
      (config.bufferSize.toUInt32 ≠ 0 →
        sys ++ devices <:+ (session config (LocalServer.new config.context s)).1.output) ∧
      (config.bufferSize.toUInt32 = 0 →
        (session config (LocalServer.new config.context s)).1.output =
          Bytes.ofText ("/" ++ ":\n") ++ Bytes.ofText (config.bootDir ++ ":\n")) := by
  have hrests := connected_rests h hvalid
  rw [session_shown] at hshown ⊢
  simp only [showAll_cons] at hshown
  obtain ⟨hroot, hboot, hsysShown, hdevicesShown, -⟩ := hshown
  obtain ⟨hrests₁, hrootTitle⟩ := showListing_rests hrests "/" hroot
  obtain ⟨hrests₂, hbootTitle⟩ := showListing_rests hrests₁ config.bootDir hboot
  obtain ⟨hrests₃, sys, hsysFound, hsysOutput⟩ :=
    showFile_rests hrests₂ h.fresh hshare hsys hsysShown
  obtain ⟨-, devices, hdevicesFound, hdevicesOutput⟩ :=
    showFile_rests hrests₃ h.fresh hshare hdevices hdevicesShown
  refine ⟨sys, devices, hsysFound, hdevicesFound, ?_⟩
  rw [showAll_output _ (showListing · "/") _ hroot,
    showAll_output _ (showListing · config.bootDir) _ hboot,
    showAll_output _ (showFile · config.sysPath) _ hsysShown,
    showAll_output _ (showFile · config.devicesPath) _ hdevicesShown, showAll_nil_output,
    hsysOutput, hdevicesOutput, List.append_nil]
  refine ⟨fun hbuffer ↦ ?_, fun hbuffer ↦ ?_⟩
  · rw [if_neg hbuffer, if_neg hbuffer, ← List.append_assoc]
    exact List.suffix_append _ _
  · rw [if_pos hbuffer, if_pos hbuffer, List.append_nil, List.append_nil, hrootTitle hbuffer,
      hbootTitle hbuffer]

variable {read : Bytes → Option ServerConfig} {given : Option (Except Unit Bytes)}
variable {image : StoredImage}

theorem validate_of_settings (h : settings? read given = some settings) :
    settings.validate = .ok () := by
  rcases given with _ | ⟨⟨⟩ | text⟩
  · cases h
    rfl
  · cases h
  · rw [settings?] at h
    rcases heq : ServerConfig.accept read text with e | config
    · rw [heq] at h
      cases h
    · rw [heq] at h
      cases h
      exact ServerConfig.validate_of_accept heq

theorem programWith_of_settings (image : StoredImage) (h : settings? read given = some settings) :
    programWith read image given = run settings image := by
  rw [programWith, h]

/-- A run that succeeds prints what its session shows, and all of it is shown. -/
theorem run_of_success (hvalid : settings.validate = .ok ())
    (h : (run settings image).success = true) : ∃ report s,
    (Service.new settings GrantTable.empty).bootstrap image = (.ok report, s) ∧
      s.Configured settings ∧ s.share = .empty ∧
      (session settings (LocalServer.new settings.context s)).1.failure = none ∧
      (run settings image).output =
        (session settings (LocalServer.new settings.context s)).1.output := by
  have hconfigured := (Service.configured_new hvalid GrantTable.empty).bootstrap image
  have hshare := Service.bootstrap_share (Service.new settings GrantTable.empty) image
  rw [run] at h ⊢
  rcases hboot : (Service.new settings GrantTable.empty).bootstrap image with ⟨_ | report, s⟩
  · rw [hboot] at h
    cases h
  · rw [hboot] at h hconfigured hshare
    refine ⟨report, s, rfl, hconfigured, hshare, ?_⟩
    dsimp only at h ⊢
    split at h
    next hnone _ => exact ⟨hnone, rfl⟩
    next => cases h

/-- A run that succeeds has printed the two summaries whole, as the last of its output, unless the
low word of the request buffer's length is zero. The client asks for as many bytes as that word says.
It does not matter how configurations are read. -/
theorem summaries_shown_iff (haccepted : settings? read given = some settings)
    (hsys : settings.sysPath.utf8ByteSize + 1 < UInt32.size)
    (hdevices : settings.devicesPath.utf8ByteSize + 1 < UInt32.size)
    (hsuccess : (programWith read image given).success = true) :
    ∃ blob header facts report s, (ImageSource.map image).1 = .ok blob ∧
      validate blob = .ok header ∧ (BootImage.parsed blob header).Tells facts ∧
      (Service.new settings GrantTable.empty).bootstrap image = (.ok report, s) ∧
      s.ns.contents? settings.sysPath = some facts.sysData ∧
      s.ns.contents? settings.devicesPath = some facts.devicesData ∧
      (Bytes.toText? facts.sysData).isSome ∧ (Bytes.toText? facts.devicesData).isSome ∧
      (facts.sysData ++ facts.devicesData <:+ (programWith read image given).output ↔
        settings.bufferSize.toUInt32 ≠ 0) := by
  have hvalid := validate_of_settings haccepted
  rw [programWith_of_settings image haccepted] at hsuccess ⊢
  obtain ⟨report, s, hboot, hconfigured, hshare, hshown, houtput⟩ := run_of_success hvalid hsuccess
  obtain ⟨blob, header, facts, hblob, hheader, htells, hsysStored, hdevicesStored⟩ :=
    Service.bootstrap_summaries hboot
  have hwell := hconfigured.fresh.reachable.wellFormed
  obtain ⟨sys, devices, hsysFound, hdevicesFound, hwhole, htitles⟩ :=
    session_output hconfigured hshare hvalid ⟨hsysStored.noNul hwell, hsys⟩
      ⟨hdevicesStored.noNul hwell, hdevices⟩ hshown
  obtain rfl := hsysStored.contents_eq hwell hsysFound
  obtain rfl := hdevicesStored.contents_eq hwell hdevicesFound
  refine ⟨blob, header, facts, report, s, hblob, hheader, htells, hboot, hsysFound,
    hdevicesFound, Bytes.ofLines_isText _, Bytes.ofLines_isText _, ?_⟩
  rw [houtput]
  refine ⟨fun hsuffix hzero ↦ ?_, hwhole⟩
  rw [htitles hzero, Bytes.ofText_append settings.bootDir, ← List.append_assoc] at hsuffix
  exact facts.summaries_endPlainly.not_suffix _ hsuffix

theorem nested_image_summaries_shown : settings? ServerConfig.read? none = some .standard ∧
    (program (.blob nestedSpec.build) none).success = true ∧
    ∃ blob header facts report s,
      (ImageSource.map (StoredImage.blob nestedSpec.build)).1 = .ok blob ∧
      validate blob = .ok header ∧ (BootImage.parsed blob header).Tells facts ∧
      (Service.new .standard GrantTable.empty).bootstrap (StoredImage.blob nestedSpec.build) =
        (.ok report, s) ∧
      s.ns.contents? ServerConfig.standard.sysPath = some facts.sysData ∧
      s.ns.contents? ServerConfig.standard.devicesPath = some facts.devicesData ∧
      facts.sysData ++ facts.devicesData <:+ (program (.blob nestedSpec.build) none).output := by
  have haccepted : settings? ServerConfig.read? none = some .standard := rfl
  have hsuccess : (program (.blob nestedSpec.build) none).success = true := by decide +kernel
  obtain ⟨blob, header, facts, report, s, hblob, hheader, htells, hboot, hsys, hdevices, -, -,
    hshown⟩ := summaries_shown_iff haccepted (by decide) (by decide) hsuccess
  exact ⟨haccepted, hsuccess, blob, header, facts, report, s, hblob, hheader, htells, hboot, hsys,
    hdevices, hshown.mpr (by decide)⟩

/-- The standard settings but for a request buffer of 2 ^ 32 bytes. -/
def roundSettings : ServerConfig := { ServerConfig.standard with bufferSize := 4294967296 }

def roundText : Bytes := Bytes.ofText "\x7b\"buffer_size\": 4294967296\x7d"

theorem round_buffer_hides_summaries :
    settings? ServerConfig.read? (some (.ok roundText)) = some roundSettings ∧
    (program (.blob nestedSpec.build) (some (.ok roundText))).success = true ∧
    ∃ sys devices,
      ((Service.new roundSettings GrantTable.empty).bootstrap
        (StoredImage.blob nestedSpec.build)).2.ns.contents? roundSettings.sysPath = some sys ∧
      ((Service.new roundSettings GrantTable.empty).bootstrap
        (StoredImage.blob nestedSpec.build)).2.ns.contents? roundSettings.devicesPath =
          some devices ∧
      ¬sys ++ devices <:+ (program (.blob nestedSpec.build) (some (.ok roundText))).output := by
  have houtput : (program (.blob nestedSpec.build) (some (.ok roundText))).output =
      Bytes.ofText "/:\n/boot:\n" := by decide +kernel
  refine ⟨by decide +kernel, by decide +kernel,
    Bytes.ofText "Version: 1.0\nArch: arm\nMach: sunxi\nRam Size: 0x1000\n", [],
    by decide +kernel, by decide +kernel, ?_⟩
  rw [houtput]
  decide +kernel

end Demo

end BootNamespace
