import AiArtifactStore.Foundation.Table
import AiArtifactStore.Metadata.Lifecycle
import AiArtifactStore.Metadata.Runs
import Mathlib.Data.List.TakeWhile

/-!
# The metadata database

The tables that the migrations leave in place.  A child table whose rows are
only ever written and read with their parent is nested in the parent row.
-/

namespace AiArtifactStore.Metadata

open AiArtifactStore.Foundation
open AiArtifactStore.Identity

/-! ## Text parameters -/

def nul : Char := Char.ofNat 0

/-- A text parameter of a statement, as libpq sends it: a C string ends at its first
U+0000. -/
def cString (text : String) : String := String.ofList (text.toList.takeWhile fun c => c ≠ nul)

theorem nul_not_mem_cString {text : String} : nul ∉ (cString text).toList := by
  intro h
  rw [cString, String.toList_ofList] at h
  simpa using List.mem_takeWhile_imp h

theorem cString_eq_self {text : String} (h : nul ∉ text.toList) : cString text = text := by
  have hwhole : text.toList.takeWhile (fun c => c ≠ nul) = text.toList :=
    List.takeWhile_eq_self_iff.mpr fun c hc => by
      have hne : c ≠ nul := fun hnul => h (hnul ▸ hc)
      simpa using hne
  rw [cString, hwhole, String.ofList_toList]

theorem cString_eq_self_iff {text : String} : cString text = text ↔ nul ∉ text.toList :=
  ⟨fun h => h ▸ nul_not_mem_cString, cString_eq_self⟩

@[simp] theorem cString_cString (text : String) : cString (cString text) = cString text :=
  cString_eq_self nul_not_mem_cString

theorem utf8ByteSize_cString_le (text : String) :
    (cString text).utf8ByteSize ≤ text.utf8ByteSize := by
  have hsplit : text = cString text ++ String.ofList (text.toList.dropWhile fun c => c ≠ nul) := by
    rw [cString, ← String.ofList_append, List.takeWhile_append_dropWhile, String.ofList_toList]
  have hsize := congrArg String.utf8ByteSize hsplit
  rw [String.utf8ByteSize_append] at hsize
  omega

/-! ## Rows -/

structure LayoutChunkRow where
  chunkIndex : Nat
  chunkId : ContentId
  byteOffset : Nat
  chunkSizeBytes : Nat
  deriving DecidableEq, Repr

/-- A row of `object_layouts` with its chunk rows in `chunk_index` order. -/
structure ObjectLayoutRow where
  layoutId : ContentId
  objectId : ContentId
  descriptorVersion : Nat
  chunking : LayoutChunking
  canonicalDescriptor : List UInt8
  totalSizeBytes : Nat
  chunkCount : Nat
  chunkRows : List LayoutChunkRow
  deriving DecidableEq, Repr

structure VersionRow where
  versionId : ContentId
  artifactId : UuidV7
  rootObjectId : ContentId
  parentVersionId : Option ContentId
  descriptorVersion : Nat
  canonicalDescriptor : List UInt8
  metadata : ImmutableMetadata
  state : VersionState
  createdAt : Int
  deriving DecidableEq

structure TagRow where
  artifactId : UuidV7
  tagName : String
  versionId : ContentId
  deriving DecidableEq, Repr

structure ManifestRow where
  manifestId : ContentId
  descriptorVersion : Nat
  canonicalDescriptor : List UInt8
  entryCount : Nat
  entryRows : List (String × ContentId)
  deriving DecidableEq, Repr

structure SessionRow where
  session : UploadSession
  status : UploadSessionStatus
  deriving DecidableEq

structure FinalizationRow where
  sessionId : UuidV7
  layoutId : Option ContentId
  deriving DecidableEq, Repr

structure PinRow where
  versionId : ContentId
  reason : String
  deriving DecidableEq, Repr

structure RetirementRow where
  versionId : ContentId
  lifecycleRunId : UuidV7
  artifactKind : ArtifactKind
  reason : LifecycleDecisionReason
  deriving DecidableEq, Repr

structure LifecycleRunRow where
  run : LifecycleRun
  decisions : List LifecycleDecision
  deriving DecidableEq, Repr

/-! ## Columns and keys -/

def ObjectLayoutRow.containsChunk (layout : ObjectLayoutRow) (chunkId : ContentId) : Bool :=
  layout.chunkRows.any fun row => row.chunkId = chunkId

def SessionRow.sessionId (row : SessionRow) : UuidV7 := row.session.sessionId

def TagRow.tagKey (row : TagRow) : UuidV7 × String := (row.artifactId, row.tagName)

def StorageLocation.locationKey (row : StorageLocation) : ContentId × String :=
  (row.chunkId, row.nodeId)

def LifecycleRunRow.runId (row : LifecycleRunRow) : UuidV7 := row.run.runId

structure Db where
  artifacts : Table Artifact.artifactId
  chunks : Table ChunkMetadata.chunkId
  objects : Table StoredObject.objectId
  objectLayouts : Table ObjectLayoutRow.layoutId
  artifactVersions : Table VersionRow.versionId
  tags : Table TagRow.tagKey
  manifests : Table ManifestRow.manifestId
  storageLocations : Table StorageLocation.locationKey
  storageNodes : Table StorageNode.nodeId
  uploadSessions : Table SessionRow.sessionId
  finalizations : Table FinalizationRow.sessionId
  gcRuns : Table GcRun.runId
  replicationRuns : Table ReplicationRun.runId
  lifecyclePolicies : Table LifecyclePolicy.policyId
  lifecycleRuns : Table LifecycleRunRow.runId
  pins : Table PinRow.versionId
  retirements : Table RetirementRow.versionId

namespace Db

/-- The database after the migrations. -/
def initial : Db :=
  ⟨.empty, .empty, .empty, .empty, .empty, .empty, .empty, .empty, .empty, .empty, .empty,
    .empty, .empty, .empty, .empty, .empty, .empty⟩

/-! ## Predicates of the queries -/

def isVersionRetired (db : Db) (versionId : ContentId) : Bool :=
  db.retirements.rows.any fun row => row.versionId = versionId

def hasOpenGcRun (db : Db) : Bool := db.gcRuns.rows.any fun run => run.state = .open

def hasOpenReplicationRun (db : Db) : Bool :=
  db.replicationRuns.rows.any fun run => run.state = .open

def hasOpenUploadSession (db : Db) : Bool :=
  db.uploadSessions.rows.any fun row => row.status = .open

/-- The finalized version of a session, if it is committed. -/
def finalizedVersionOf (db : Db) (sessionId : UuidV7) : Option ContentId :=
  (db.uploadSessions.find? sessionId).bind fun row => row.status.finalizedVersionId

/-- `kLiveLayoutPredicate` -/
def isLiveLayout (db : Db) (layout : ObjectLayoutRow) : Bool :=
  (db.artifactVersions.rows.any fun version =>
      version.rootObjectId = layout.objectId && !db.isVersionRetired version.versionId) ||
    db.finalizations.rows.any fun finalization =>
      finalization.layoutId = some layout.layoutId &&
        (db.finalizedVersionOf finalization.sessionId).any fun versionId =>
          !db.isVersionRetired versionId

def isLiveChunk (db : Db) (chunkId : ContentId) : Bool :=
  db.objectLayouts.rows.any fun layout =>
    layout.containsChunk chunkId && db.isLiveLayout layout

/-! ## Liveness as propositions -/

def Retired (db : Db) (versionId : ContentId) : Prop :=
  ∃ row ∈ db.retirements, row.versionId = versionId

def LiveLayout (db : Db) (layout : ObjectLayoutRow) : Prop :=
  (∃ version ∈ db.artifactVersions,
      version.rootObjectId = layout.objectId ∧ ¬db.Retired version.versionId) ∨
    ∃ finalization ∈ db.finalizations, finalization.layoutId = some layout.layoutId ∧
      ∃ versionId, db.finalizedVersionOf finalization.sessionId = some versionId ∧
        ¬db.Retired versionId

def LiveChunk (db : Db) (chunkId : ContentId) : Prop :=
  ∃ layout ∈ db.objectLayouts, layout.containsChunk chunkId = true ∧ db.LiveLayout layout

@[simp] theorem isVersionRetired_iff {db : Db} {versionId : ContentId} :
    db.isVersionRetired versionId = true ↔ db.Retired versionId := by
  simp [isVersionRetired, Retired, Table.mem_rows]

theorem isVersionRetired_eq_false {db : Db} {versionId : ContentId} :
    db.isVersionRetired versionId = false ↔ ¬db.Retired versionId := by
  rw [← isVersionRetired_iff, Bool.not_eq_true]

@[simp] theorem isLiveLayout_iff {db : Db} {layout : ObjectLayoutRow} :
    db.isLiveLayout layout = true ↔ db.LiveLayout layout := by
  simp [isLiveLayout, LiveLayout, Table.mem_rows, isVersionRetired_eq_false,
    Option.any_eq_true]

@[simp] theorem isLiveChunk_iff {db : Db} {chunkId : ContentId} :
    db.isLiveChunk chunkId = true ↔ db.LiveChunk chunkId := by
  simp [isLiveChunk, LiveChunk, Table.mem_rows]

theorem isLiveChunk_eq_false {db : Db} {chunkId : ContentId} :
    db.isLiveChunk chunkId = false ↔ ¬db.LiveChunk chunkId := by
  rw [← isLiveChunk_iff, Bool.not_eq_true]

end Db

end AiArtifactStore.Metadata
