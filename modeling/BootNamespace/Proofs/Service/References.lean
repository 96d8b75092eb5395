import BootNamespace.Proofs.Service.Sound

namespace BootNamespace.Service

variable {σ : Type} [Sharing σ] {s : Service σ}

/-- Over a namespace in which no file was open, the references of a file are the connections that
have it bound, whatever the grants answer. -/
theorem refs_eq_bindings (h : s.Fresh) (hidle : s.ns.Idle) (events : List Event) :
    (∀ id file, (s.run events).ns.file? id = some file →
      file.refs.toNat = (s.run events).connections.bindings id) ∧
    ((s.run events).connections.size = 0 → (s.run events).ns.Idle) ∧
    ∀ id, ((s.run events).ns.deleteFile id).1 = .error .busy ↔
      ∃ session conn, (s.run events).connections.get? session = some conn ∧
        conn.file = some id := by
  have hrefs (id : FileId) :
      (s.run events).ns.refs id = (s.run events).connections.bindings id := by
    have hsound := (h.sound.run events).refs id
    rwa [hidle.refs_eq, Nat.zero_add] at hsound
  refine ⟨fun id file hfile ↦ ?_, fun hempty id file hfile ↦ ?_, fun id ↦ ?_⟩
  · rw [← hrefs, Namespace.refs_of_live hfile]
  · have hzero := hrefs id
    rw [Namespace.refs_of_live hfile, ConnectionTable.bindings_of_size hempty] at hzero
    exact UInt32.toNat_inj.mp hzero
  · rw [Namespace.deleteFile_busy_iff, hrefs, ConnectionTable.bindings_pos_iff]

theorem deleteFile_busy_while_open : (new .standard FaultyGrants.empty).Fresh ∧
    (new .standard FaultyGrants.empty).ns.Idle ∧
    (((new .standard FaultyGrants.empty).run (opening ⟨7⟩ "/a")).ns.deleteFile ⟨0, 0⟩).1 =
      .error .busy := by
  have hfresh : (new .standard FaultyGrants.empty).Fresh := fresh_new _ _
  have hidle : (new .standard FaultyGrants.empty).ns.Idle := by
    intro id file hfile
    simp [new, withNamespace, Namespace.empty, Namespace.file?] at hfile
  refine ⟨hfresh, hidle, ((refs_eq_bindings hfresh hidle (opening ⟨7⟩ "/a")).2.2 ⟨0, 0⟩).mpr ?_⟩
  exact ⟨⟨7⟩, ⟨⟨7⟩, .opened, some .readOnly, 0, some ⟨0, 0⟩⟩, by decide +kernel, rfl⟩

end BootNamespace.Service
