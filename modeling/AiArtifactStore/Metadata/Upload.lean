import AiArtifactStore.Metadata.Catalog
import AiArtifactStore.Metadata.Placement

/-!
# Upload sessions in the database

Session creation and abort, chunk negotiation, and `finalize_upload` with its
committed-retry branch.
-/

namespace AiArtifactStore.Metadata

open AiArtifactStore.Foundation
open AiArtifactStore.Identity

/-! ## Negotiation -/

structure ChunkNegotiationEntry where
  chunk : ChunkMetadata
  metadataWasKnown : Bool
  availableNodeIds : List String
  deriving DecidableEq, Repr

structure ChunkSizeConflict where
  chunkId : ContentId
  requestedSizeBytes : Nat
  storedSizeBytes : Nat
  deriving DecidableEq, Repr

structure ChunkNegotiationBatch where
  chunks : List ChunkNegotiationEntry
  conflict : Option ChunkSizeConflict
  deriving DecidableEq, Repr

/-- The distinct chunks of a batch, in order, after those already seen. -/
def distinctChunks (seen : List ChunkMetadata) :
    List ChunkMetadata → Except Exc (List ChunkMetadata)
  | [] => .ok seen
  | chunk :: rest => do
      failIf (chunk.sizeBytes = 0) (.invalidArgument "chunk size must be greater than zero")
      let _ ← toPostgresBigint chunk.sizeBytes "chunk size"
      match seen.find? fun s => s.chunkId = chunk.chunkId with
      | some s => do
          failIf (s.sizeBytes ≠ chunk.sizeBytes)
            (.invalidArgument
              "chunk negotiation batch contains conflicting sizes for the same chunk ID")
          distinctChunks seen rest
      | none => distinctChunks (seen ++ [chunk]) rest

/-- The first stored size that differs from the requested one, if any. -/
def sizeConflict (db : Db) (chunks : List ChunkMetadata) : Option ChunkSizeConflict :=
  chunks.findSome? fun chunk =>
    (db.chunks.find? chunk.chunkId).bind fun stored =>
      if stored.sizeBytes = chunk.sizeBytes then none
      else some ⟨chunk.chunkId, chunk.sizeBytes, stored.sizeBytes⟩

/-- The lookups before the insert: a non-positive stored size raises, unless an
earlier chunk already conflicts. -/
def checkStoredSizes (db : Db) : List ChunkMetadata → Except Exc (Option ChunkSizeConflict)
  | [] => .ok none
  | chunk :: rest =>
      match db.chunks.find? chunk.chunkId with
      | none => checkStoredSizes db rest
      | some stored =>
          if stored.sizeBytes = 0 then
            .error (.runtimeError "stored chunk contains an invalid non-positive size")
          else if stored.sizeBytes = chunk.sizeBytes then checkStoredSizes db rest
          else .ok (some ⟨chunk.chunkId, chunk.sizeBytes, stored.sizeBytes⟩)

def insertChunks (db : Db) (chunks : List ChunkMetadata) : Db :=
  { db with chunks := chunks.foldl Table.insert db.chunks }

def availableNodeIds (env : Environment) (db : Db) (chunkId : ContentId) : List String :=
  (env.orderByText StorageLocation.nodeId (db.storageLocations.rows.filter fun location =>
    location.chunkId = chunkId && location.state = .available)).map StorageLocation.nodeId

def negotiateChunks (env : Environment) (db : Db) (chunks : List ChunkMetadata) :
    Except Exc (ChunkNegotiationBatch × Db) := do
  let distinct ← distinctChunks [] chunks
  match ← checkStoredSizes db distinct with
  | some conflict => .ok (⟨[], some conflict⟩, db)
  | none =>
      let known := fun chunk : ChunkMetadata => (db.chunks.find? chunk.chunkId).isSome
      let inserted := insertChunks db (distinct.filter fun chunk => !known chunk)
      match sizeConflict inserted distinct with
      | some conflict => .ok (⟨[], some conflict⟩, db)
      | none =>
          let entries := distinct.map fun chunk =>
            ⟨chunk, known chunk, availableNodeIds env inserted chunk.chunkId⟩
          .ok (⟨entries, none⟩, inserted)

/-! ## Sessions -/

/-- `reconstruct_upload_session`: the constructor's check on a stored row. -/
def reconstructUploadSession (row : SessionRow) : Except Exc SessionRow := do
  failIf (∃ v ∈ row.status.finalizedVersionId, row.session.parentVersionId = some v)
    (.invalidArgument "upload session finalized version ID must not equal parent version ID")
  .ok row

def checkPlacementNode (db : Db) (nodeId : String) : Except Exc Unit := do
  let node ← orFail (db.storageNodes.find? nodeId)
    (.invalidArgument ("upload session placement node is not registered: " ++ nodeId))
  failIf (node.state ≠ .active)
    (.invalidArgument ("upload session placement node is not active: " ++ nodeId))

def checkChunkingColumns : SessionChunking → Except Exc Unit
  | .fixedSize chunkSizeBytes => do
      let _ ← toPostgresBigint chunkSizeBytes "upload session chunk size"
  | .fastCdc p => do
      let _ ← toPostgresBigint p.minChunkSizeBytes "FastCDC min chunk size"
      let _ ← toPostgresBigint p.avgChunkSizeBytes "FastCDC avg chunk size"
      let _ ← toPostgresBigint p.maxChunkSizeBytes "FastCDC max chunk size"

/-- One insert into `upload_session_metadata`, after the rows already there. -/
def insertSessionMetadata (rows : List (String × String)) (entry : String × String) :
    Except Exc (List (String × String)) := do
  failIf (cString entry.1 = "") (.sqlError "upload_session_metadata_key_not_empty")
  failIf (∃ row ∈ rows, row.1 = cString entry.1) (.sqlError "upload_session_metadata_primary_key")
  .ok (rows ++ [(cString entry.1, cString entry.2)])

def checkSessionMetadata (session : UploadSession) : Except Exc Unit := do
  let rows ← foldEach session.immutableMetadata.map.entries [] insertSessionMetadata
  failIf (rows ≠ session.immutableMetadata.map.entries)
    (.runtimeError "persisted upload session does not match requested session")

def insertUploadSession (db : Db) (session : UploadSession) : Except Exc Db := do
  forEach session.placementNodeIds (checkPlacementNode db)
  checkChunkingColumns session.chunking
  failIf (db.artifacts.find? session.artifactId = none) (.sqlError "upload_sessions_artifact_fk")
  failIf (parentVersionMissing db session.artifactId session.parentVersionId)
    (.sqlError "upload_sessions_parent_version_fk")
  checkSessionMetadata session
  let db := { db with uploadSessions := db.uploadSessions.insert ⟨session, .open⟩ }
  let verified ← orFail (db.uploadSessions.find? session.sessionId)
    (.runtimeError "upload session disappeared during transaction")
  let verified ← reconstructUploadSession verified
  failIf (verified ≠ ⟨session, .open⟩)
    (.runtimeError "persisted upload session does not match requested session")
  .ok db

def createUploadSession (db : Db) (requested : SessionRow) : Except Exc Db := do
  failIf (requested.status.state ≠ .open)
    (.invalidArgument "create_upload_session may only create open upload sessions")
  failIf (requested.status.finalizedVersionId ≠ none)
    (.invalidArgument "create_upload_session requires a null finalized version ID")
  failIf db.hasOpenGcRun (.gcError .gcInProgress "garbage collection is in progress")
  match db.uploadSessions.find? requested.sessionId with
  | some row => do
      let existing ← reconstructUploadSession row
      failIf (existing.status.state ≠ .open ∨ existing.status.finalizedVersionId ≠ none ∨
          existing.session ≠ requested.session)
        (.runtimeError "existing upload session does not match requested session")
      .ok db
  | none => insertUploadSession db requested.session

def abortUploadSession (db : Db) (sessionId : UuidV7) : Except Exc Db :=
  match db.uploadSessions.find? sessionId with
  | none => .error (.runtimeError "upload session does not exist")
  | some row =>
      match row.status with
      | .committed _ => .error (.runtimeError "committed upload session cannot be aborted")
      | .aborted => .ok db
      | .open =>
          .ok { db with uploadSessions := db.uploadSessions.upsert { row with status := .aborted } }

/-! ## Finalization -/

structure FinalizeUploadResult where
  sessionId : UuidV7
  versionId : ContentId
  objectId : ContentId
  layoutId : ContentId
  deriving DecidableEq, Repr

def sessionVersion (session : UploadSession) (objectId : ContentId) : ArtifactVersion :=
  { artifactId := session.artifactId
    rootObjectId := objectId
    parentVersionId := session.parentVersionId
    immutableMetadata := session.immutableMetadata
    state := .committed }

def finalizeConflict (what : String) : Exc := .finalizeUploadError .conflict what none

/-- `catch (const std::runtime_error&)` around a part of the transaction. -/
def catchRuntimeError {α : Type} (result : Except Exc α) (replacement : Exc) : Except Exc α :=
  match result with
  | .ok a => .ok a
  | .error e => if e.isRuntimeError then .error replacement else .error e

def finalizeCommittedRetry (env : Environment) (db : Db) (sessionId : UuidV7)
    (finalizedVersionId : ContentId) (version : ArtifactVersion) (d : ObjectLayoutDescriptor) :
    Except Exc FinalizeUploadResult := do
  failIf (db.isVersionRetired finalizedVersionId)
    (.finalizeUploadError .versionRetired "artifact version has been retired" none)
  let finalizedLayoutId := (db.finalizations.find? sessionId).bind FinalizationRow.layoutId
  failIf (finalizedLayoutId ≠ some (d.layoutId env) ∨ finalizedVersionId ≠ version.versionId env)
    (finalizeConflict "finalize upload retry does not match the committed result")
  let mismatch := finalizeConflict "finalized object does not match the submitted descriptor"
  let storedObject ← orFail (db.objects.find? d.objectId) mismatch
  let totalSize ← toPostgresBigint d.object.totalSize "object total size"
  failIf (storedObject.totalSize ≠ totalSize) mismatch
  let loaded ← catchRuntimeError (loadObjectLayout env db (d.layoutId env))
    (finalizeConflict "finalized object layout is inconsistent with the submitted descriptor")
  let mismatch :=
    finalizeConflict "finalized object layout does not match the submitted descriptor"
  let storedLayout ← orFail loaded mismatch
  failIf (storedLayout.objectId ≠ d.objectId ∨
      storedLayout.chunkingStrategy ≠ d.chunkingStrategy ∨
      storedLayout.canonicalBytes ≠ d.canonicalBytes) mismatch
  failIf (¬artifactVersionIdentityMatches env db version)
    (finalizeConflict "finalized artifact version does not match the upload session")
  .ok ⟨sessionId, version.versionId env, d.objectId, d.layoutId env⟩

def checkChunkSizes (chunks : List ChunkRef) (nonFinalOk finalOk : Nat → Bool)
    (nonFinalError finalError : Exc) : Except Exc Unit := do
  forEach chunks.dropLast fun chunk => failIf (¬nonFinalOk chunk.size) nonFinalError
  match chunks.getLast? with
  | none => .ok ()
  | some last => failIf (¬finalOk last.size) finalError

def checkSessionChunking (session : UploadSession) (d : ObjectLayoutDescriptor) :
    Except Exc Unit := do
  failIf (d.chunkingStrategy ≠ session.chunking.strategy)
    (.invalidArgument "object layout chunking strategy does not match upload session")
  if d.layout.chunks = [] then .ok ()
  else
    match session.chunking with
    | .fixedSize chunkSizeBytes =>
        checkChunkSizes d.layout.chunks (fun size => size = chunkSizeBytes)
          (fun size => 0 < size && size ≤ chunkSizeBytes)
          (.invalidArgument "non-final chunk size does not match upload session chunk size")
          (.invalidArgument "final chunk size is invalid for upload session chunk size")
    | .fastCdc p => do
        failIf (d.chunking.fastCdcParameters ≠ some p)
          (.invalidArgument "object layout FastCDC parameters do not match upload session")
        checkChunkSizes d.layout.chunks
          (fun size => p.minChunkSizeBytes ≤ size && size ≤ p.maxChunkSizeBytes)
          (fun size => 0 < size && size ≤ p.maxChunkSizeBytes)
          (.invalidArgument "non-final chunk size is outside upload session FastCDC bounds")
          (.invalidArgument "final chunk size is invalid for upload session FastCDC bounds")

def addUniqueChunk (unique : List (ContentId × Nat)) (chunk : ChunkRef) :
    Except Exc (List (ContentId × Nat)) :=
  match unique.find? fun entry => entry.1 = chunk.chunkId with
  | some existing =>
      if existing.2 = chunk.size then .ok unique
      else .error (.finalizeUploadError .conflict
        "object layout uses the same chunk ID with different sizes" (some chunk.chunkId.hex))
  | none => .ok (emplaceSorted chunk.chunkId chunk.size unique)

def uniqueChunks (chunks : List ChunkRef) : Except Exc (List (ContentId × Nat)) :=
  foldEach chunks [] addUniqueChunk

def checkReplica (db : Db) (chunkId : ContentId) (nodeId : String) : Except Exc Unit :=
  failIf (¬∃ location ∈ db.storageLocations.find? (chunkId, nodeId), location.state = .available)
    (.finalizeUploadError .chunkUnderReplicated
      "chunk is not available on every desired replica node" (some chunkId.hex))

def checkUniqueChunk (env : Environment) (db : Db) (session : UploadSession)
    (entry : ContentId × Nat) : Except Exc Unit := do
  let conflict : Exc := .finalizeUploadError .conflict
    "chunk metadata is missing or has a conflicting size" (some entry.1.hex)
  let stored ← orFail (db.chunks.find? entry.1) conflict
  let size ← toPostgresBigint entry.2 "chunk size"
  failIf (stored.sizeBytes ≠ size) conflict
  let desired ← selectReplicaNodes env entry.1 session.placementNodeIds session.replicationFactor
  forEach desired (checkReplica db entry.1)

/-- Everything `finalize_upload` checks about a descriptor before it writes. -/
def checkFinalizable (env : Environment) (db : Db) (session : UploadSession)
    (d : ObjectLayoutDescriptor) : Except Exc Unit := do
  checkSessionChunking session d
  let unique ← uniqueChunks d.layout.chunks
  forEach unique (checkUniqueChunk env db session)

def commitVersion (env : Environment) (now : Int) (db : Db) (version : ArtifactVersion) :
    Except Exc Db :=
  match db.artifactVersions.find? (version.versionId env) with
  | none => insertVersionRow db (versionRow env now version)
  | some stored => do
      failIf (¬artifactVersionIdentityMatches env db version)
        (finalizeConflict "existing artifact version conflicts with the finalized upload")
      .ok { db with
        artifactVersions := db.artifactVersions.upsert { stored with state := .committed } }

def registerObjectAndLayout (env : Environment) (db : Db) (d : ObjectLayoutDescriptor) :
    Except Exc Db := do
  let db ← registerObjectInTransaction db d.object
  registerObjectLayoutInTransaction env db d

def commitSession (env : Environment) (db : Db) (row : SessionRow) (version : ArtifactVersion)
    (d : ObjectLayoutDescriptor) : Except Exc Db := do
  failIf (db.finalizations.find? row.sessionId ≠ none)
    (finalizeConflict "upload session already has a conflicting finalization record")
  .ok { db with
    finalizations := db.finalizations.insert ⟨row.sessionId, some (d.layoutId env)⟩
    uploadSessions :=
      db.uploadSessions.upsert { row with status := .committed (version.versionId env) } }

def finalizeOpenSession (env : Environment) (now : Int) (db : Db) (row : SessionRow)
    (version : ArtifactVersion) (d : ObjectLayoutDescriptor) :
    Except Exc (FinalizeUploadResult × Db) := do
  checkFinalizable env db row.session d
  let db ← catchRuntimeError (registerObjectAndLayout env db d)
    (finalizeConflict "registered object or layout conflicts with the submitted descriptor")
  let db ← commitVersion env now db version
  let db ← commitSession env db row version d
  .ok (⟨row.sessionId, version.versionId env, d.objectId, d.layoutId env⟩, db)

def finalizeUpload (env : Environment) (now : Int) (db : Db) (sessionId : UuidV7)
    (d : ObjectLayoutDescriptor) : Except Exc (FinalizeUploadResult × Db) := do
  let stored ← orFail (db.uploadSessions.find? sessionId)
    (.finalizeUploadError .sessionNotFound "upload session does not exist" none)
  let row ← reconstructUploadSession stored
  let version := sessionVersion row.session d.objectId
  failIf (row.status = .aborted)
    (.finalizeUploadError .sessionNotOpen "upload session is aborted" none)
  failIf (db.isVersionRetired (version.versionId env))
    (.finalizeUploadError .versionRetired "artifact version has been retired" none)
  match row.status with
  | .committed finalizedVersionId => do
      let result ← finalizeCommittedRetry env db sessionId finalizedVersionId version d
      .ok (result, db)
  | _ => finalizeOpenSession env now db row version d

end AiArtifactStore.Metadata
