import AiArtifactStore.Metadata.Registration

/-!
# Artifacts, tags, manifests, nodes, locations and pins

The catalog operations of the repository: each is one transaction.
-/

namespace AiArtifactStore.Metadata

open AiArtifactStore.Foundation
open AiArtifactStore.Identity

def createArtifact (db : Db) (artifact : Artifact) : Except Exc Db := do
  failIf (db.artifacts.find? artifact.artifactId ≠ none) (.sqlError "artifacts_pkey")
  failIf (∃ other ∈ db.artifacts.rows,
      other.project = artifact.project ∧ other.name = artifact.name)
    (.sqlError "artifacts_project_name_unique")
  .ok { db with artifacts := db.artifacts.insert artifact }

def setTag (db : Db) (artifactId : UuidV7) (tagName : String) (versionId : ContentId) :
    Except Exc Db := do
  failIf (tagName = "") (.invalidArgument "tag name must not be empty")
  failIf (db.isVersionRetired versionId)
    (.lifecycleError .versionRetired "cannot set tag on a retired artifact version")
  failIf (db.artifacts.find? artifactId = none) (.sqlError "tags_artifact_fk")
  failIf (¬∃ row ∈ db.artifactVersions.find? versionId, row.artifactId = artifactId)
    (.sqlError "tags_version_fk")
  .ok { db with tags := db.tags.upsert ⟨artifactId, tagName, versionId⟩ }

/-- `verify_registered_manifest`, over the entry rows in `ORDER BY role` order. -/
def verifyManifestEntries : List (String × ContentId) → List (String × ContentId) →
    Except Exc Unit
  | [], [] => .ok ()
  | [], _ :: _ => .error (.runtimeError "stored manifest is missing entry rows")
  | _ :: _, [] => .error (.runtimeError "stored manifest contains unexpected entry rows")
  | stored :: rest, expected :: more => do
      failIf (stored ≠ expected) (.runtimeError "stored manifest does not match descriptor")
      verifyManifestEntries rest more

def verifyRegisteredManifest (env : Environment) (db : Db) (manifest : Manifest) :
    Except Exc Unit := do
  let stored ← orFail (db.manifests.find? (manifest.manifestId env))
    (.runtimeError "registered manifest is missing from database")
  let entryCount ← toPostgresBigint manifest.entries.entries.length "manifest entry count"
  failIf (stored.descriptorVersion ≠ Manifest.formatVersion ∨
      stored.canonicalDescriptor ≠ manifest.canonicalBytes ∨ stored.entryCount ≠ entryCount)
    (.runtimeError "existing manifest metadata does not match descriptor")
  verifyManifestEntries (env.orderByText Prod.fst stored.entryRows) manifest.entries.entries

def insertManifest (env : Environment) (db : Db) (manifest : Manifest) (entryCount : Nat) :
    Except Exc Db :=
  match db.manifests.find? (manifest.manifestId env) with
  | some _ => .ok db
  | none => do
      failIf (∃ entry ∈ manifest.entries.entries, db.artifactVersions.find? entry.2 = none)
        (.sqlError "manifest_entries_version_fk")
      .ok { db with
        manifests := db.manifests.insert
          { manifestId := manifest.manifestId env
            descriptorVersion := Manifest.formatVersion
            canonicalDescriptor := manifest.canonicalBytes
            entryCount := entryCount
            entryRows := manifest.entries.entries } }

def registerManifest (env : Environment) (db : Db) (manifest : Manifest) : Except Exc Db := do
  failIf (∃ entry ∈ manifest.entries.entries, db.isVersionRetired entry.2)
    (.lifecycleError .versionRetired
      "cannot register manifest referencing a retired artifact version")
  let entryCount ← toPostgresBigint manifest.entries.entries.length "manifest entry count"
  let db ← insertManifest env db manifest entryCount
  verifyRegisteredManifest env db manifest
  .ok db

def makeManifest (entries : OrderedMap String ContentId) : Except Exc Manifest :=
  if h : ∀ entry ∈ entries.entries, entry.1 ≠ "" then .ok ⟨entries, h⟩
  else .error (.invalidArgument "manifest role must not be empty")

def getManifest (env : Environment) (db : Db) (manifestId : ContentId) :
    Except Exc (Option Manifest) :=
  match db.manifests.find? manifestId with
  | none => .ok none
  | some stored => do
      failIf (stored.descriptorVersion ≠ Manifest.formatVersion)
        (.runtimeError "stored manifest uses an unsupported descriptor version")
      let entries := OrderedMap.ofList strictTotal_string
        (env.orderByText Prod.fst stored.entryRows)
      failIf (entries.entries.length ≠ stored.entryCount)
        (.runtimeError "stored manifest entry count does not match entry rows")
      let reconstructed ← makeManifest entries
      failIf (reconstructed.manifestId env ≠ stored.manifestId)
        (.runtimeError "stored manifest does not match manifest ID")
      failIf (reconstructed.canonicalBytes ≠ stored.canonicalDescriptor)
        (.runtimeError "stored canonical descriptor does not match manifest")
      .ok (some reconstructed)

def StorageNode.stored (node : StorageNode) : StorageNode :=
  { node with address := cString node.address }

@[simp] theorem StorageNode.stored_nodeId (node : StorageNode) :
    node.stored.nodeId = node.nodeId := rfl

@[simp] theorem StorageNode.stored_state (node : StorageNode) :
    node.stored.state = node.state := rfl

@[simp] theorem StorageNode.stored_port (node : StorageNode) : node.stored.port = node.port := rfl

def registerStorageNode (env : Environment) (db : Db) (node : StorageNode) : Except Exc Db := do
  failIf (nodeIdInvalid node.nodeId) (.invalidArgument "storage node ID is invalid")
  failIf (node.address = "") (.invalidArgument "storage node address is invalid")
  -- `make_address` reads a C string, and an empty one is no address.
  failIf (¬(node.stored.address ≠ "" ∧ env.isNumericAddress node.stored.address))
    (.invalidArgument "storage node address must be a numeric IP address")
  failIf (node.port = 0) (.invalidArgument "storage node port must be between 1 and 65535")
  -- No `uint16_t` fails the check of the column.
  failIf (node.port > 65535) (.sqlError "storage_nodes_port_check")
  .ok { db with storageNodes := db.storageNodes.upsert node.stored }

def StorageLocation.stored (location : StorageLocation) : StorageLocation :=
  { location with storagePath := cString location.storagePath }

@[simp] theorem StorageLocation.stored_chunkId (location : StorageLocation) :
    location.stored.chunkId = location.chunkId := rfl

@[simp] theorem StorageLocation.stored_nodeId (location : StorageLocation) :
    location.stored.nodeId = location.nodeId := rfl

@[simp] theorem StorageLocation.stored_locationKey (location : StorageLocation) :
    location.stored.locationKey = location.locationKey := rfl

@[simp] theorem StorageLocation.stored_state (location : StorageLocation) :
    location.stored.state = location.state := rfl

def registerStorageLocation (db : Db) (location : StorageLocation) : Except Exc Db := do
  failIf (location.nodeId = "") (.invalidArgument "storage node ID must not be empty")
  failIf (location.storagePath = "") (.invalidArgument "storage path must not be empty")
  -- A row is checked before its indexes, and its foreign key at the end of the statement.
  failIf (location.stored.storagePath = "") (.sqlError "storage_locations_path_not_empty")
  failIf (∃ other ∈ db.storageLocations.rows, other.locationKey ≠ location.locationKey ∧
      other.nodeId = location.nodeId ∧ other.storagePath = location.stored.storagePath)
    (.sqlError "storage_locations_node_path_unique")
  failIf (db.chunks.find? location.chunkId = none) (.sqlError "storage_locations_chunk_fk")
  .ok { db with storageLocations := db.storageLocations.upsert location.stored }

def pinVersion (env : Environment) (db : Db) (versionId : ContentId) (reason : String) :
    Except Exc Db := do
  failIf (reason.isEmpty ∨ reason.utf8ByteSize > 256)
    (.lifecycleError .invalidRequest "pin reason is invalid")
  let version ← orFail (← loadVersion env db versionId)
    (.lifecycleError .versionNotFound ("artifact version does not exist: " ++ versionId.hex))
  failIf (version.state ≠ .committed)
    (.lifecycleError .invalidRequest "only committed artifact versions can be pinned")
  failIf (db.isVersionRetired versionId)
    (.lifecycleError .versionRetired "cannot pin a retired artifact version")
  failIf (cString reason = "") (.sqlError "artifact_version_pins_reason_check")
  .ok { db with pins := db.pins.upsert ⟨versionId, cString reason⟩ }

def unpinVersion (db : Db) (versionId : ContentId) : Bool × Db :=
  ((db.pins.find? versionId).isSome,
    { db with pins := db.pins.filter fun row => row.versionId ≠ versionId })

end AiArtifactStore.Metadata
