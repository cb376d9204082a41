import QuDAG.Protocol.Message

/-!
# Protocol versions and compatibility (`versioning.rs`, `compatibility.rs`)

A registry knows the supported versions and, for some pairs of them, how a message migrates from one
to the other. Above it an adapter has transformers of its own for the same pairs, and asks the
registry for the others.

## Main definitions

* `VersionRegistry`, `VersionManager.migrateMessage`.
* `MessageTransformer` — what a transformer does to a message.
* `CompatibilityAdapter.transformMessage`.

## Implementation notes

The migration functions that a registry can hold are arbitrary; the registered ones are those of the
source. Features, preferences and release notes play no part in a migration.
-/

namespace QuDAG.Protocol

open RustStd

/-! ## Versions -/

/-- Version 1.0.0. -/
def v1_0_0 : ProtocolVersion := ⟨1, 0, 0, []⟩

/-- Version 1.1.0. -/
def v1_1_0 : ProtocolVersion := ⟨1, 1, 0, []⟩

/-- Versioning-related errors. -/
inductive VersionError
  | unsupportedVersion (version : ProtocolVersion)
  | incompatibleVersions (localVersion remote : ProtocolVersion)
  | featureNotAvailable (feature : String) (version : ProtocolVersion)
  | migrationFailed (source target : ProtocolVersion) (reason : String)
  | serializationError (reason : String)
  deriving DecidableEq, Repr

/-- Migration strategy between versions. -/
inductive MigrationStrategy
  /-- Direct migration (no transformation needed). -/
  | direct
  /-- Transform messages using converter function. -/
  | transform (transformFn : Message → Except VersionError Message)
  /-- Custom migration logic. -/
  | custom (customFn : Message → Except VersionError Message)
  /-- Not supported. -/
  | notSupported

/-- Version information: the version, and the versions it is compatible with. -/
structure VersionInfo where
  version : ProtocolVersion
  compatibleWith : List ProtocolVersion

/-- Protocol version registry. -/
structure VersionRegistry where
  /-- Supported versions. -/
  supportedVersions : List VersionInfo
  /-- Migration paths between versions. -/
  migrationPaths : HashMap (ProtocolVersion × ProtocolVersion) MigrationStrategy

/-- Anonymous messages become regular routing messages. -/
def directRouting : MessageType → MessageType
  | .anonymous _ => .routing .direct
  | t => t

/-- Migration function from version 1.1.0 to 1.0.0 (downgrade). -/
def downgrade_1_1_to_1_0 (message : Message) : Except VersionError Message :=
  .ok { message with
    version := v1_0_0
    headers := (message.headers.erase "dark-address").erase "shadow-route"
    msgType := directRouting message.msgType }

namespace VersionRegistry

/-- Register a new protocol version. -/
def registerVersion (self : VersionRegistry) (versionInfo : VersionInfo) : VersionRegistry :=
  { self with supportedVersions := self.supportedVersions ++ [versionInfo] }

/-- Set up migration paths between versions. -/
def setupMigrationPaths (self : VersionRegistry) : VersionRegistry :=
  let paths := self.migrationPaths.insert (v1_0_0, v1_1_0) .direct
  { self with migrationPaths := paths.insert (v1_1_0, v1_0_0) (.transform downgrade_1_1_to_1_0) }

/-- Register default protocol versions. -/
def registerDefaultVersions (self : VersionRegistry) : VersionRegistry :=
  ((self.registerVersion ⟨v1_0_0, []⟩).registerVersion
    ⟨v1_1_0, [v1_0_0]⟩).setupMigrationPaths

/-- Create a new version registry with default versions. -/
def new : VersionRegistry := registerDefaultVersions ⟨[], ∅⟩

/-- Get version information. -/
def getVersionInfo (self : VersionRegistry) (version : ProtocolVersion) : Option VersionInfo :=
  self.supportedVersions.find? fun v => v.version = version

/-- Check if two versions are compatible: they are the same, one lists the other, or they follow
semantic versioning. -/
def areCompatible (self : VersionRegistry) (v1 v2 : ProtocolVersion) : Bool :=
  decide (v1 = v2) ||
    (self.getVersionInfo v1).any (fun info => info.compatibleWith.contains v2) ||
    (self.getVersionInfo v2).any (fun info => info.compatibleWith.contains v1) ||
    v1.isCompatible v2

/-- Get migration strategy between versions. -/
def getMigrationStrategy (self : VersionRegistry) (source target : ProtocolVersion) :
    Option MigrationStrategy :=
  self.migrationPaths.lookup (source, target)

end VersionRegistry

/-- Protocol version manager. -/
structure VersionManager where
  registry : VersionRegistry
  currentVersion : ProtocolVersion

namespace VersionManager

/-- Create a new version manager. -/
def new (currentVersion : ProtocolVersion) : VersionManager := ⟨.new, currentVersion⟩

/-- Migrate message between protocol versions. -/
def migrateMessage (self : VersionManager) (message : Message)
    (fromVersion toVersion : ProtocolVersion) : Except VersionError Message :=
  if fromVersion = toVersion then .ok message
  else
    match self.registry.getMigrationStrategy fromVersion toVersion with
    | some .direct => .ok message
    | some (.transform transformFn) => transformFn message
    | some (.custom customFn) => customFn message
    | some .notSupported =>
      .error (.migrationFailed fromVersion toVersion "Migration not supported")
    | none => .error (.migrationFailed fromVersion toVersion "No migration path found")

end VersionManager

/-! ## Compatibility -/

/-- Compatibility layer errors. -/
inductive CompatibilityError
  | versionNotSupported (version : ProtocolVersion)
  | featureNotAvailable (feature : String) (version : ProtocolVersion)
  | transformationFailed (reason : String)
  | incompatibleFormat (version : ProtocolVersion)
  | version (error : VersionError)
  deriving DecidableEq, Repr

/-- A message transformer: of this crate, or any other implementation of the trait. -/
inductive MessageTransformer
  /-- Direct copy with version update. -/
  | direct (fromVersion toVersion : ProtocolVersion)
  /-- Removes unsupported features. -/
  | downgrade (fromVersion toVersion : ProtocolVersion) (removedFeatures : List String)
  /-- Adds default values for new features. -/
  | upgrade (fromVersion toVersion : ProtocolVersion) (addedFeatures : List String)
  /-- Another implementation. -/
  | other (transform : Message → Except CompatibilityError Message)

namespace MessageTransformer

/-- Remove the headers of an unsupported feature. -/
def removeFeature (headers : HashMap String String) (feature : String) : HashMap String String :=
  if feature = "dark-addressing" then (headers.erase "dark-address").erase "shadow-route"
  else headers

/-- Add the headers of a new feature if they are not present. -/
def addFeature (headers : HashMap String String) (feature : String) : HashMap String String :=
  if feature = "dark-addressing" ∧ "addressing-mode" ∉ headers then
    headers.insert "addressing-mode" "standard"
  else headers

/-- Transform a message from one version to another. -/
def transform (message : Message) : MessageTransformer → Except CompatibilityError Message
  | direct _ toVersion => .ok { message with version := toVersion }
  | downgrade _ toVersion removedFeatures =>
    .ok { message with
      version := toVersion
      headers := removedFeatures.foldl removeFeature message.headers
      msgType := directRouting message.msgType }
  | upgrade _ toVersion addedFeatures =>
    .ok { message with
      version := toVersion
      headers := addedFeatures.foldl addFeature message.headers }
  | other transform => transform message

end MessageTransformer

/-- Compatibility adapter for handling different protocol versions. -/
structure CompatibilityAdapter where
  /-- Version manager. -/
  versionManager : VersionManager
  /-- Message transformers for different version pairs. -/
  transformers : HashMap (ProtocolVersion × ProtocolVersion) MessageTransformer

namespace CompatibilityAdapter

/-- Add custom transformer. -/
def addTransformer (self : CompatibilityAdapter) (fromVersion toVersion : ProtocolVersion)
    (transformer : MessageTransformer) : CompatibilityAdapter :=
  { self with transformers := self.transformers.insert (fromVersion, toVersion) transformer }

/-- Set up default message transformers. -/
def setupDefaultTransformers (self : CompatibilityAdapter) : CompatibilityAdapter :=
  (self.addTransformer v1_0_0 v1_1_0 (.upgrade v1_0_0 v1_1_0 ["dark-addressing"])).addTransformer
    v1_1_0 v1_0_0 (.downgrade v1_1_0 v1_0_0 ["dark-addressing"])

/-- Create a new compatibility adapter. -/
def new (versionManager : VersionManager) : CompatibilityAdapter :=
  setupDefaultTransformers ⟨versionManager, ∅⟩

/-- Transform message to target version. -/
def transformMessage (self : CompatibilityAdapter) (message : Message)
    (targetVersion : ProtocolVersion) : Except CompatibilityError Message :=
  if message.version = targetVersion then .ok message
  else if self.versionManager.registry.areCompatible message.version targetVersion = false then
    .error (.versionNotSupported targetVersion)
  else
    -- look for direct transformer
    match self.transformers.lookup (message.version, targetVersion) with
    | some transformer => transformer.transform message
    | none =>
      -- use version manager for migration
      (self.versionManager.migrateMessage message message.version targetVersion).mapError .version

end CompatibilityAdapter

end QuDAG.Protocol
