import QuDAG.Protocol.Versioning

/-!
# Migrations and the adapter

The version manager and the compatibility adapter implement the same transformations: the manager
by strategies, the adapter by transformers. The migration from 1.1.0 down to 1.0.0 does the same in
both. The one from 1.0.0 up to 1.1.0 does not: the strategy `direct` hands the message back as it
is, with its old version.

## Main definitions

* `VersionManager.MigratesAlike` — a migrated message has the target version, and is what the
  adapter makes of the message.
* `Message.Aligned` — a downgrade, or nothing to do.

## Main results

* `VersionManager.migratesAlike_iff` — a registered migration never fails, and is like the adapter's
  exactly when it is aligned.
-/

namespace QuDAG.Protocol

open RustStd

/-! ## Registered migrations -/

lemma v1_0_0_ne : v1_0_0 ≠ v1_1_0 := by decide

namespace VersionRegistry

/-- Two migrations are registered. -/
lemma getMigrationStrategy_new (source target : ProtocolVersion) :
    new.getMigrationStrategy source target =
      if source = v1_1_0 ∧ target = v1_0_0 then some (.transform downgrade_1_1_to_1_0)
      else if source = v1_0_0 ∧ target = v1_1_0 then some .direct
      else none := by
  simp only [new, registerDefaultVersions, setupMigrationPaths, getMigrationStrategy,
    HashMap.lookup_insert_ite, Prod.mk.injEq, registerVersion, Finmap.lookup_empty,
    eq_comm (a := source), eq_comm (a := target)]

/-- A registered migration goes from 1.1.0 to 1.0.0 or back. -/
lemma isSome_getMigrationStrategy_new {source target : ProtocolVersion}
    (h : (new.getMigrationStrategy source target).isSome) :
    (source = v1_1_0 ∧ target = v1_0_0) ∨ (source = v1_0_0 ∧ target = v1_1_0) := by
  rw [getMigrationStrategy_new] at h
  split_ifs at h with hdown hup
  · exact .inl hdown
  · exact .inr hup
  · simp at h

end VersionRegistry

namespace VersionManager

/-- The upgrade hands the message back. -/
lemma migrateMessage_up (current : ProtocolVersion) (message : Message) :
    (new current).migrateMessage message v1_0_0 v1_1_0 = .ok message := by
  simp [migrateMessage, new, VersionRegistry.getMigrationStrategy_new, v1_0_0_ne]

/-- The downgrade is the function of the registry. -/
lemma migrateMessage_down (current : ProtocolVersion) (message : Message) :
    (new current).migrateMessage message v1_1_0 v1_0_0 = downgrade_1_1_to_1_0 message := by
  simp [migrateMessage, new, VersionRegistry.getMigrationStrategy_new, v1_0_0_ne.symm]

end VersionManager

/-! ## The adapter -/

namespace CompatibilityAdapter

/-- The adapter has transformers for the same two pairs. -/
lemma lookup_transformers_new (manager : VersionManager) (source target : ProtocolVersion) :
    (new manager).transformers.lookup (source, target) =
      if source = v1_1_0 ∧ target = v1_0_0 then
        some (.downgrade v1_1_0 v1_0_0 ["dark-addressing"])
      else if source = v1_0_0 ∧ target = v1_1_0 then
        some (.upgrade v1_0_0 v1_1_0 ["dark-addressing"])
      else none := by
  simp only [new, setupDefaultTransformers, addTransformer, HashMap.lookup_insert_ite,
    Prod.mk.injEq, Finmap.lookup_empty, eq_comm (a := source), eq_comm (a := target)]

/-- A message that has the target version is left as it is. -/
lemma transformMessage_self (adapter : CompatibilityAdapter) {message : Message}
    {target : ProtocolVersion} (h : message.version = target) :
    adapter.transformMessage message target = .ok message := by
  rw [transformMessage, if_pos h]

/-- The adapter and the manager agree on what the downgrade does. -/
lemma transformMessage_down (current : ProtocolVersion) {message : Message}
    (h : message.version = v1_1_0) :
    (new (.new current)).transformMessage message v1_0_0 =
      .ok { message with
        version := v1_0_0
        headers := (message.headers.erase "dark-address").erase "shadow-route"
        msgType := directRouting message.msgType } := by
  have hcompat : (VersionManager.new current).registry.areCompatible v1_1_0 v1_0_0 = true := by
    simp only [VersionManager.new]
    decide
  have hmanager : (new (.new current)).versionManager = .new current := rfl
  rw [transformMessage, h, if_neg v1_0_0_ne.symm, hmanager, hcompat, if_neg (by simp),
    lookup_transformers_new, if_pos ⟨rfl, rfl⟩]
  rfl

/-- A message of another version than the two only passes when it has the target version. -/
lemma transformMessage_other (current : ProtocolVersion) {message : Message}
    {target m : _} (hne : message.version ≠ target)
    (hdown : ¬(message.version = v1_1_0 ∧ target = v1_0_0))
    (hup : ¬(message.version = v1_0_0 ∧ target = v1_1_0)) :
    (new (.new current)).transformMessage message target ≠ .ok m := by
  rw [transformMessage, if_neg hne, lookup_transformers_new, if_neg hdown, if_neg hup]
  split_ifs with hcompat
  · simp
  · have hmigrate : (VersionManager.new current).migrateMessage message message.version target =
        .error (.migrationFailed message.version target "No migration path found") := by
      simp [VersionManager.migrateMessage, VersionManager.new, hne,
        VersionRegistry.getMigrationStrategy_new, hdown, hup]
    have hmanager : (new (.new current)).versionManager = .new current := rfl
    simp only [hmanager, hmigrate]
    simp [Except.mapError]

end CompatibilityAdapter

/-! ## Agreement -/

/-- A downgrade, or nothing to do: the message has the target version, and nothing that a downgrade
takes away. -/
def Message.Aligned (message : Message) (target : ProtocolVersion) : Prop :=
  (message.version = v1_1_0 ∧ target = v1_0_0) ∨
    (message.version = target ∧ (target = v1_0_0 →
      "dark-address" ∉ message.headers ∧ "shadow-route" ∉ message.headers ∧
        ∀ t, message.msgType ≠ .anonymous t))

/-- Whatever the manager migrates a message to has the target version, and is what the adapter
makes of the message. -/
structure VersionManager.MigratesAlike (manager : VersionManager) (message : Message)
    (source target : ProtocolVersion) : Prop where
  version_eq : ∀ m', manager.migrateMessage message source target = .ok m' → m'.version = target
  transform_eq : ∀ m', manager.migrateMessage message source target = .ok m' →
    (CompatibilityAdapter.new manager).transformMessage message target = .ok m'

/-- Nothing is erased from a map exactly when neither key is there. -/
lemma erase_erase_eq_self_iff {headers : HashMap String String} {a b : String} :
    (headers.erase a).erase b = headers ↔ a ∉ headers ∧ b ∉ headers := by
  constructor
  · intro h
    rw [← h]
    simp [Finmap.mem_erase]
  · rintro ⟨ha, hb⟩
    have hkeep {c : String} (hc : c ∉ headers) : headers.erase c = headers := by
      refine Finmap.ext_lookup fun k => ?_
      by_cases hk : k = c
      · rw [hk, Finmap.lookup_erase, Finmap.lookup_eq_none.mpr hc]
      · exact Finmap.lookup_erase_ne hk
    rw [hkeep ha, hkeep hb]

lemma directRouting_eq_self_iff {t : MessageType} :
    directRouting t = t ↔ ∀ a, t ≠ .anonymous a := by
  cases t <;> simp [directRouting]

/-- A downgrade leaves alone exactly the messages of version 1.0.0 that have nothing of 1.1.0. -/
lemma downgrade_eq_self_iff {message : Message} (h : message.version = v1_0_0) :
    downgrade_1_1_to_1_0 message = .ok message ↔
      "dark-address" ∉ message.headers ∧ "shadow-route" ∉ message.headers ∧
        ∀ t, message.msgType ≠ .anonymous t := by
  have hfields : downgrade_1_1_to_1_0 message = .ok message ↔
      (message.headers.erase "dark-address").erase "shadow-route" = message.headers ∧
        directRouting message.msgType = message.msgType := by
    rw [downgrade_1_1_to_1_0, Except.ok.injEq, Message.mk.injEq]
    simp [h, and_comm]
  rw [hfields, erase_erase_eq_self_iff, directRouting_eq_self_iff, and_assoc]

namespace VersionManager

variable (current : ProtocolVersion) (message : Message)

lemma migratesAlike_up_iff :
    (new current).MigratesAlike message v1_0_0 v1_1_0 ↔ message.version = v1_1_0 := by
  constructor
  · intro h
    exact h.version_eq message (migrateMessage_up current message)
  · intro h
    constructor <;> rw [migrateMessage_up] <;> rintro m' ⟨⟩
    · exact h
    · exact CompatibilityAdapter.transformMessage_self _ h

lemma migratesAlike_down_iff :
    (new current).MigratesAlike message v1_1_0 v1_0_0 ↔
      message.version = v1_1_0 ∨ (message.version = v1_0_0 ∧
        downgrade_1_1_to_1_0 message = .ok message) := by
  constructor
  · intro h
    by_cases hold : message.version = v1_1_0
    · exact .inl hold
    · by_cases hnew : message.version = v1_0_0
      · have := h.transform_eq _ (migrateMessage_down current message)
        rw [CompatibilityAdapter.transformMessage_self _ hnew] at this
        exact .inr ⟨hnew, congrArg Except.ok (Except.ok.inj this).symm⟩
      · exact absurd (h.transform_eq _ (migrateMessage_down current message))
          (CompatibilityAdapter.transformMessage_other current hnew (by simp [hold])
            (by simp [v1_0_0_ne]))
  · rintro (hold | ⟨hnew, hself⟩)
    · constructor <;> rw [migrateMessage_down] <;> rintro m' ⟨⟩
      · rfl
      · exact CompatibilityAdapter.transformMessage_down current hold
    · constructor <;> rw [migrateMessage_down, hself] <;> rintro m' ⟨⟩
      · exact hnew
      · exact CompatibilityAdapter.transformMessage_self _ hnew

/-- A registered migration never fails, and it does what the adapter does exactly when it is a
downgrade of a message of version 1.1.0, or there was nothing to do. -/
theorem migratesAlike_iff (source target : ProtocolVersion)
    (hregistered : ((new current).registry.getMigrationStrategy source target).isSome) :
    (∃ m', (new current).migrateMessage message source target = .ok m') ∧
      ((new current).MigratesAlike message source target ↔ message.Aligned target) := by
  rcases VersionRegistry.isSome_getMigrationStrategy_new hregistered with ⟨rfl, rfl⟩ | ⟨rfl, rfl⟩
  · refine ⟨⟨_, migrateMessage_down current message⟩, ?_⟩
    rw [migratesAlike_down_iff, Message.Aligned]
    simp only [and_true, forall_true_left]
    exact or_congr_right (and_congr_right fun h => downgrade_eq_self_iff h)
  · refine ⟨⟨message, migrateMessage_up current message⟩, ?_⟩
    rw [migratesAlike_up_iff, Message.Aligned]
    simp [v1_0_0_ne.symm]

/-- A message of the given version, with an address of 1.1.0 in its headers. -/
def sampleMessage (version : ProtocolVersion) : Message :=
  ⟨.nil, version, .anonymous .data, [], 0, none, Finmap.singleton "dark-address" "x.dark", none, 0,
    none⟩

/-- A message of version 1.1.0 is taken down to 1.0.0 in both ways alike. -/
theorem migratesAlike_iff_sampleMessage :
    (new v1_0_0).MigratesAlike (sampleMessage v1_1_0) v1_1_0 v1_0_0 :=
  (migratesAlike_iff v1_0_0 (sampleMessage v1_1_0) v1_1_0 v1_0_0 (by
    rw [new, VersionRegistry.getMigrationStrategy_new, if_pos ⟨rfl, rfl⟩]
    rfl)).2.mpr (.inl ⟨rfl, rfl⟩)

/-- A message of version 1.0.0 is migrated up to 1.1.0, and still has version 1.0.0. -/
theorem not_migratesAlike_sampleMessage :
    ((new v1_0_0).registry.getMigrationStrategy v1_0_0 v1_1_0).isSome ∧
      (new v1_0_0).migrateMessage (sampleMessage v1_0_0) v1_0_0 v1_1_0 =
        .ok (sampleMessage v1_0_0) ∧
      ¬(new v1_0_0).MigratesAlike (sampleMessage v1_0_0) v1_0_0 v1_1_0 := by
  refine ⟨?_, migrateMessage_up _ _, ?_⟩
  · rw [new, VersionRegistry.getMigrationStrategy_new, if_neg (by decide), if_pos ⟨rfl, rfl⟩]
    rfl
  · rw [migratesAlike_up_iff]
    decide

end VersionManager

end QuDAG.Protocol
