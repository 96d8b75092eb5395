import BootNamespace.Demo
import BootNamespace.Proofs.Bootstrap.BootDir
import BootNamespace.Proofs.Client.Listing
import BootNamespace.Proofs.Local.Server
import BootNamespace.Proofs.Service.Limit

namespace BootNamespace

open Image

/-- A listing through a local server is what the service that the server has come to lists. -/
theorem Client.list_of_comesTo {σ : Type} [Sharing σ] {c : Client (LocalClient (Service σ))}
    {d : Dispatcher} {s : Service σ} {held : FileId → Nat} {path : String} {conn : Connection}
    (h : c.transport.server.ComesTo d s) (hs : s.Sound held)
    (hattached : s.connections.get? c.transport.session = some conn)
    (hsendable : Path.Sendable path)
    (hfits : path.utf8ByteSize + 1 ≤ d.context.bufferSize.toNat) :
    ∃ result server, c.list path = (result, ⟨⟨server, c.transport.session⟩, c.bufferSize⟩) ∧
      s.Lists path (min c.bufferSize.toNat s.config.bufferSize.toNat) result ∧
      server.ComesTo (d.count fun stats ↦ { stats with requests := stats.requests + 1 }) s := by
  obtain ⟨rcvid, server, hsend, hcomes⟩ := h.send c.transport.session
    (header .list listAll (Path.toPayload path) c.bufferSize) (Path.toPayload path)
  have hasks : s.AsksList d.context ⟨rcvid, c.transport.session,
      header .list listAll (Path.toPayload path) c.bufferSize, Path.toPayload path⟩ path
      c.bufferSize := ⟨rfl, rfl, ⟨conn, hattached⟩, hsendable, hfits⟩
  obtain ⟨reply, -, htells, hrequest⟩ := hasks.request_tells hs
  rw [hrequest] at hsend hcomes
  exact ⟨_, server, list_of_send (LocalClient.send_eq hsend), htells.listing, hcomes⟩

namespace Demo

variable {c c' : Session} {path : String} {result : Except FsError (List Entry)}
variable {config : ServerConfig} {s : Service GrantTable}

theorem showListing_of_list (h : c.list path = (result, c')) :
    (showListing c path).2 = c' ∧
      ((showListing c path).1.failure = none ↔ ∃ shown, result = .ok shown) := by
  rw [showListing, h]
  cases result with
  | error e => simp
  | ok shown => simp

theorem showAll_cons (c : Session) (part : Session → Shown × Session)
    (parts : List (Session → Shown × Session)) : (showAll c (part :: parts)).1.failure = none ↔
      (part c).1.failure = none ∧ (showAll (part c).2 parts).1.failure = none := by
  rw [showAll]
  rcases part c with ⟨shown, c'⟩
  dsimp only
  cases hfailure : shown.failure with
  | some e => simp [hfailure]
  | none => simp

/-- The session of the demonstration before it asks for anything. -/
def connected (config : ServerConfig) (s : Service GrantTable) : Session :=
  ⟨⟨(LocalServer.new config.context s).connect.2, ⟨1⟩⟩, config.bufferSize.toUInt32⟩

theorem session_shown (config : ServerConfig) (s : Service GrantTable) :
    (session config (LocalServer.new config.context s)).1 =
      (showAll (connected config s) [(showListing · "/"), (showListing · config.bootDir),
        (showFile · config.sysPath), (showFile · config.devicesPath)]).1 := by
  have hconnect : (LocalServer.new config.context s).connect =
      (.ok ⟨1⟩, (LocalServer.new config.context s).connect.2) := rfl
  rw [session, hconnect]
  dsimp only
  rw [connected]

theorem starts (h : s.Configured config) (hvalid : config.validate = .ok ()) :
    ServerApp.start s config.context = (.ok (), s) := by
  have hstart : s.start = .ok () := by
    rw [Service.start, h.settings, hvalid]
  change (s.start, s) = _
  rw [hstart]

theorem lookupDir_root (h : s.ns.WellFormed) : ∃ d, s.ns.lookupDir none "/" = .ok d := by
  have hsegments : Path.segments "/" = [] := by decide
  refine ⟨.root, (Namespace.lookupDir_eq_ok_iff h.dirs).mpr ?_⟩
  rw [hsegments]
  exact (Namespace.leadsTo_nil_iff h.dirs).mpr rfl

/-- The service as the session meets it. -/
def attended (s : Service GrantTable) : Service GrantTable := s.putConnection ⟨1⟩ (.new ⟨1⟩)

theorem attach_fresh (h : s.Fresh) : (s.attach ⟨1⟩).2 = attended s := by
  rcases s.attach_cases ⟨1⟩ with ⟨conn, hget, -⟩ | ⟨-, heq⟩
  · rw [h.connections] at hget
    cases hget
  · rw [heq, attended]

theorem attended_sound (h : s.Fresh) : (attended s).Sound s.ns.refs := by
  rw [← attach_fresh h]
  exact h.sound.after (.attach ⟨1⟩)

theorem connected_comesTo (h : s.Configured config) (hvalid : config.validate = .ok ()) :
    ∃ d, d.context = config.context ∧
      (connected config s).transport.server.ComesTo d (attended s) := by
  have hworkers : config.context.workers = 1 := (config.validate_eq_ok hvalid).1
  obtain ⟨host, hconnect, hcomes⟩ := LocalServer.connect_new hworkers (starts h hvalid)
  rw [connected, hconnect, ← attach_fresh h.fresh]
  exact ⟨_, rfl, hcomes⟩

/-- The listing of the root succeeds, and then that of the boot directory does if it is there. -/
theorem listings_succeed (h : s.Configured config) (hvalid : config.validate = .ok ())
    (hsendable : Path.Sendable config.bootDir)
    (hfits : config.bootDir.utf8ByteSize + 1 ≤ config.bufferSize.toNat) :
    (showListing (connected config s) "/").1.failure = none ∧
      ((showListing (showListing (connected config s) "/").2 config.bootDir).1.failure = none ↔
        ∃ d, s.ns.lookupDir none config.bootDir = .ok d) := by
  obtain ⟨-, -, hbuffer, -, hpaths⟩ := config.validate_eq_ok hvalid
  have habsolute : Path.isAbsolute config.bootDir :=
    hpaths (.boot, config.bootDir) (by simp [ServerConfig.paths])
  have hroot : Path.Sendable "/" := ⟨by decide, by decide⟩
  have hrootFits : "/".utf8ByteSize + 1 ≤ config.bufferSize.toNat := by
    refine Nat.le_trans ?_ hbuffer
    decide
  have hs := attended_sound h.fresh
  have hattached : (attended s).connections.get? ⟨1⟩ = some (.new ⟨1⟩) :=
    Service.connections_put_self
  obtain ⟨d, hcontext, hcomes⟩ := connected_comesTo h hvalid
  change _ ≤ config.context.bufferSize.toNat at hfits hrootFits
  rw [← hcontext] at hfits hrootFits
  obtain ⟨result, server, hlist, hlists, hcomes'⟩ := Client.list_of_comesTo hcomes hs hattached
    hroot hrootFits
  obtain ⟨hnext, hshown⟩ := showListing_of_list hlist
  obtain ⟨result', server', hlist', hlists', -⟩ :=
    Client.list_of_comesTo (c := ⟨⟨server, ⟨1⟩⟩, config.bufferSize.toUInt32⟩) hcomes' hs hattached
      hsendable hfits
  obtain ⟨-, hshown'⟩ := showListing_of_list hlist'
  have hrootDir : ∃ d, (attended s).ns.lookupDir none "/" = .ok d :=
    lookupDir_root h.fresh.reachable.wellFormed
  refine ⟨hshown.mpr (hlists.ok_iff.mpr ⟨by decide, hrootDir⟩), ?_⟩
  rw [hnext]
  refine hshown'.trans (hlists'.ok_iff.trans ?_)
  exact and_iff_right habsolute

/-- A demonstration that goes through has listed the boot directory. -/
theorem bootDir_listed_of_session
    (h : (session config (LocalServer.new config.context s)).1.failure = none) :
    (showListing (showListing (connected config s) "/").2 config.bootDir).1.failure = none := by
  rw [session_shown, showAll_cons, showAll_cons] at h
  exact h.2.1

theorem run_of_session_failed {image : StoredImage} {report : BootReport}
    (hboot : (Service.new config GrantTable.empty).bootstrap image = (.ok report, s))
    (h : (session config (LocalServer.new config.context s)).1.failure ≠ none) :
    (run config image).success = false := by
  rw [run, hboot]
  dsimp only
  split
  next hnone _ => exact absurd hnone h
  next => rfl

section Made

variable {τ : Type} [ImageSource τ] {source : τ} {layout : Layout} {pageSize : Nat}
variable {report : BootReport}

theorem bootstrap_new {source : τ} (hvalid : config.validate = .ok ())
    (hlayout : config.layout = layout) (hpages : config.pageSize.toNat = pageSize)
    (hok : ((Namespace.empty pageSize).bootstrap .unmapped source layout).result = .ok report) :
    ∃ s, (Service.new config GrantTable.empty).bootstrap source = (.ok report, s) ∧
      s.Configured config ∧
      s.ns = ((Namespace.empty pageSize).bootstrap .unmapped source layout).ns := by
  subst hlayout hpages
  have hconfigured := (Service.configured_new hvalid GrantTable.empty).bootstrap source
  exact ⟨_, Prod.ext ((Service.bootstrap_result _ source).trans hok) rfl, hconfigured,
    Service.bootstrap_ns _ source⟩

/-- The boot directory is there after a bootstrap exactly if something has made it, and only then can
the demonstration list it. -/
theorem boot_dir_listed_iff_made
    (hok : ((Namespace.empty pageSize).bootstrap .unmapped source layout).result = .ok report) :
    ((∃ d, ((Namespace.empty pageSize).bootstrap .unmapped source layout).ns.lookupDir none
      layout.bootDir = .ok d) ↔ layout.MakesBootDir report) ∧
    ∀ config : ServerConfig, config.validate = .ok () → config.layout = layout →
      config.pageSize.toNat = pageSize → Path.Sendable config.bootDir →
      config.bootDir.utf8ByteSize + 1 ≤ config.bufferSize.toNat →
      ∃ s, (Service.new config GrantTable.empty).bootstrap source = (.ok report, s) ∧
        (showListing (connected config s) "/").1.failure = none ∧
        ((showListing (showListing (connected config s) "/").2 config.bootDir).1.failure = none ↔
          layout.MakesBootDir report) ∧
        ((session config (LocalServer.new config.context s)).1.failure = none →
          layout.MakesBootDir report) := by
  have hmade := Namespace.lookupDir_bootDir_iff hok
  refine ⟨hmade, fun config hvalid hlayout hpages hsendable hfits ↦ ?_⟩
  obtain ⟨s, hboot, hconfigured, hns⟩ := bootstrap_new hvalid hlayout hpages hok
  obtain ⟨hroot, hlisted⟩ := listings_succeed hconfigured hvalid hsendable hfits
  subst hlayout
  rw [hns] at hlisted
  have hiff := hlisted.trans hmade
  exact ⟨s, hboot, hroot, hiff, fun hshown ↦ hiff.mp (bootDir_listed_of_session hshown)⟩

end Made

/-- An image with a machine's facts and nothing else. -/
def bareSpec : ImageSpec := { ImageSpec.new "1.0" "arm" "sunxi" with ram := ⟨0x40000000, 0x1000⟩ }

/-- An image with one file, which is to stand below a directory of its own. -/
def nestedSpec : ImageSpec := { bareSpec with files := [⟨"lib/c", .lib, [7], none⟩] }

theorem nested_file_makes_boot_dir : ∃ report,
    ((Namespace.empty 4096).bootstrap .unmapped (StoredImage.blob nestedSpec.build)
      .standard).result = .ok report ∧
    (∃ d, ((Namespace.empty 4096).bootstrap .unmapped (StoredImage.blob nestedSpec.build)
      .standard).ns.lookupDir none Layout.standard.bootDir = .ok d) ∧
    ∃ s, (Service.new .standard GrantTable.empty).bootstrap (StoredImage.blob nestedSpec.build) =
        (.ok report, s) ∧
      (showListing (showListing (connected .standard s) "/").2
        ServerConfig.standard.bootDir).1.failure = none := by
  have hok : ((Namespace.empty 4096).bootstrap .unmapped (StoredImage.blob nestedSpec.build)
      .standard).result =
      .ok ⟨"1.0", "arm", "sunxi", ⟨0x40000000, 0x1000⟩, 0, ["/boot/lib/c"], []⟩ := by
    decide +kernel
  have hmade : Layout.standard.MakesBootDir
      ⟨"1.0", "arm", "sunxi", ⟨0x40000000, 0x1000⟩, 0, ["/boot/lib/c"], []⟩ := .inl (by simp)
  obtain ⟨hdir, hdemo⟩ := boot_dir_listed_iff_made hok
  obtain ⟨s, hboot, -, hlisted, -⟩ := hdemo .standard rfl rfl rfl ⟨by decide, by decide⟩ (by decide)
  exact ⟨_, hok, hdir.mpr hmade, s, hboot, hlisted.mpr hmade⟩

theorem bare_image_has_no_boot_dir :
    (∀ path ∈ [Layout.standard.sysPath, Layout.standard.devicesPath, Layout.standard.bootDir],
      Path.isAbsolute path) ∧
    (∃ report, ((Namespace.empty 4096).bootstrap .unmapped (StoredImage.blob bareSpec.build)
      .standard).result = .ok report) ∧
    (¬∃ d, ((Namespace.empty 4096).bootstrap .unmapped (StoredImage.blob bareSpec.build)
      .standard).ns.lookupDir none Layout.standard.bootDir = .ok d) ∧
    (run .standard (StoredImage.blob bareSpec.build)).success = false := by
  have hok : ((Namespace.empty 4096).bootstrap .unmapped (StoredImage.blob bareSpec.build)
      .standard).result = .ok ⟨"1.0", "arm", "sunxi", ⟨0x40000000, 0x1000⟩, 0, [], []⟩ := by
    decide +kernel
  have hmissing : ¬∃ d, ((Namespace.empty 4096).bootstrap .unmapped
      (StoredImage.blob bareSpec.build) .standard).ns.lookupDir none Layout.standard.bootDir =
        .ok d := by
    rw [Namespace.lookupDir_bootDir_iff hok, Layout.MakesBootDir]
    decide
  have hvalid : ServerConfig.standard.validate = .ok () := rfl
  obtain ⟨s, hboot, hconfigured, hns⟩ := bootstrap_new hvalid rfl rfl hok
  obtain ⟨-, hlisted⟩ :=
    listings_succeed hconfigured hvalid ⟨by decide, by decide⟩ (by decide)
  rw [hns] at hlisted
  refine ⟨by decide, ⟨_, hok⟩, hmissing, run_of_session_failed hboot fun hshown ↦ ?_⟩
  exact hmissing (hlisted.mp (bootDir_listed_of_session hshown))

end Demo

end BootNamespace
