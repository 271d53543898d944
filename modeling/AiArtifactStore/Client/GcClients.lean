import AiArtifactStore.Metadata.Service
import AiArtifactStore.Storage.StorageNodeService

/-!
# The clients of a GC engine

What `MetadataClient` and `StorageNodeClient` make of the response to a request.
A response is arbitrary: an error, or a body of any of the forms they parse.
-/

namespace AiArtifactStore.Client

open AiArtifactStore.Foundation
open AiArtifactStore.Identity
open AiArtifactStore.Metadata
open AiArtifactStore.Storage

inductive ClientExc where
  | remoteApi (e : Exc)
  | storageApi (e : StorageError)
  | remoteProtocol (what : String)
  | invalidArgument (what : String)
  | runtimeError (what : String)
  | transport (what : String)
  deriving DecidableEq, Repr

inductive Body where
  | gcRun (run : GcRun)
  | classification (runId : UuidV7) (chunks : List GcChunkDecision)
  | inventory (page : StoredChunkPage)
  | deletion (chunkId : ContentId) (deleted : Bool)
  | other
  deriving DecidableEq, Repr

abbrev Response := Except ClientExc Body

/-! ## Requests and what the services answer -/

inductive Message where
  | metadata (op : ServiceOp)
  | storage (request : StorageRequest)

def metadataResponse (op : ServiceOp) : Except Exc Reply → Response
  | .error e => .error (.remoteApi e)
  | .ok (.gcRun run) => .ok (.gcRun run)
  | .ok (.decisions decisions) =>
      match op with
      | .classifyGcChunks runId _ => .ok (.classification runId decisions)
      | _ => .ok .other
  | .ok _ => .ok .other

def storageResponse : Except StorageError StorageReply → Response
  | .error e => .error (.storageApi e)
  | .ok (.page page) => .ok (.inventory page)
  | .ok (.deleted chunkId deleted) => .ok (.deletion chunkId deleted)
  | .ok _ => .ok .other

structure World where
  db : Db
  store : ChunkStore

def serveMessage (env : Environment) (world : World) : Message → Response × World
  | .metadata op =>
      (metadataResponse op (serve env world.db op).1, { world with db := (serve env world.db op).2 })
  | .storage request =>
      (storageResponse (StorageNodeService.handleRequest env world.store request).1,
        { world with store := (StorageNodeService.handleRequest env world.store request).2 })

/-! ## `MetadataClient` -/

namespace MetadataClient

/-- `parse_gc_run_json` -/
def parseGcRun : Body → Except ClientExc GcRun
  | .gcRun run =>
      if nodeIdInvalid run.targetNodeId then
        .error (.remoteProtocol "GC run target_node_id is invalid")
      else .ok run
  | _ => .error (.remoteProtocol "GC run response has unexpected fields")

def startGcRun (requested : GcRun) (response : Response) : Except ClientExc GcRun := do
  let run ← response >>= parseGcRun
  failIf (run.runId ≠ requested.runId)
    (.remoteProtocol "GC run response gc_run_id does not match request")
  failIf (run.targetNodeId ≠ requested.targetNodeId)
    (.remoteProtocol "GC run response target_node_id does not match request")
  failIf (run.mode ≠ requested.mode)
    (.remoteProtocol "GC run response dry_run does not match request")
  .ok run

/-- The checks of `classify_gc_chunks` before its request. -/
def checkClassification (chunkIds : List ContentId) : Except ClientExc Unit := do
  failIf (chunkIds = [] ∨ chunkIds.length > 256)
    (.invalidArgument "classify_gc_chunks requires between 1 and 256 chunk IDs")
  failIf (¬chunkIds.Nodup) (.invalidArgument "classify_gc_chunks requires unique chunk IDs")

def parseClassification : Body → Except ClientExc (UuidV7 × List GcChunkDecision)
  | .classification runId chunks => .ok (runId, chunks)
  | _ => .error (.remoteProtocol "GC classification response has unexpected fields")

def classifyGcChunks (runId : UuidV7) (chunkIds : List ContentId) (response : Response) :
    Except ClientExc (List GcChunkDecision) := do
  let (responseRunId, chunks) ← response >>= parseClassification
  failIf (responseRunId ≠ runId)
    (.remoteProtocol "GC classification response gc_run_id does not match request")
  failIf (chunks.length ≠ chunkIds.length)
    (.remoteProtocol "GC classification response chunk count does not match request")
  failIf (chunks.map GcChunkDecision.chunkId ≠ chunkIds)
    (.remoteProtocol "GC classification response chunk order does not match request")
  .ok chunks

def checkStat (value : Nat) (fieldName : String) : Except ClientExc Unit :=
  failIf (value > postgresBigintMax) (.invalidArgument (fieldName ++ " is out of range"))

def validateGcPhysicalStats (stats : GcPhysicalStats) : Except ClientExc Unit := do
  checkStat stats.physicalChunksScanned "physical_chunks_scanned"
  checkStat stats.physicalBytesScanned "physical_bytes_scanned"
  checkStat stats.collectibleChunks "collectible_chunks"
  checkStat stats.collectibleBytes "collectible_bytes"
  checkStat stats.physicallyDeletedChunks "physically_deleted_chunks"
  checkStat stats.physicallyDeletedBytes "physically_deleted_bytes"

def completeGcRun (runId : UuidV7) (response : Response) : Except ClientExc GcRun := do
  let run ← response >>= parseGcRun
  failIf (run.runId ≠ runId)
    (.remoteProtocol "GC run response gc_run_id does not match request")
  failIf (run.state ≠ .completed) (.remoteProtocol "GC run response state is not completed")
  .ok run

variable {env : Environment} {db : Db}

theorem startGcRun_response {requested run : GcRun}
    (h : startGcRun requested (metadataResponse (.startGcRun requested)
      (serve env db (.startGcRun requested)).1) = .ok run) :
    Metadata.startGcRun db requested = .ok (run, (serve env db (.startGcRun requested)).2) := by
  rcases serve_cases env db (.startGcRun requested) with ⟨e, -, hs⟩ | ⟨reply, next, ht, hs⟩
  · rw [hs] at h
    cases h
  · obtain ⟨result, hresult, rfl⟩ := replyWith_eq_ok.mp ht
    rw [hs] at h ⊢
    simp only [startGcRun, metadataResponse, ok_bind, parseGcRun,
      bind_eq_ok, exists_unit] at h
    obtain ⟨parsed, hparsed, -, -, -, h⟩ := h
    split at hparsed
    · cases hparsed
    · obtain rfl := Except.ok.inj hparsed
      obtain rfl := Except.ok.inj h
      exact hresult

theorem classifyGcChunks_response {runId : UuidV7} {chunkIds : List ContentId}
    {decisions : List GcChunkDecision}
    (h : classifyGcChunks runId chunkIds (metadataResponse
      (.classifyGcChunks runId chunkIds) (serve env db (.classifyGcChunks runId chunkIds)).1) =
        .ok decisions) :
    Metadata.classifyGcChunks db runId chunkIds = .ok decisions := by
  rcases serve_cases env db (.classifyGcChunks runId chunkIds) with
    ⟨e, -, hs⟩ | ⟨reply, next, ht, hs⟩
  · rw [hs] at h
    cases h
  · obtain ⟨rfl, result, hresult, rfl⟩ := readOnly_eq_ok.mp ht
    rw [hs] at h
    simp only [classifyGcChunks, metadataResponse, ok_bind,
      parseClassification, bind_eq_ok, exists_unit] at h
    obtain ⟨-, -, -, h⟩ := h
    obtain rfl := Except.ok.inj h
    exact hresult

end MetadataClient

/-! ## `StorageNodeClient` -/

namespace StorageNodeClient

def parseChunkInventoryPage : Body → Except ClientExc StoredChunkPage
  | .inventory page => .ok page
  | _ => .error (.remoteProtocol "chunk inventory response has unexpected fields")

def listChunks (response : Response) : Except ClientExc StoredChunkPage :=
  response >>= parseChunkInventoryPage

def parseDeleteChunkResponse (chunkId : ContentId) : Body → Except ClientExc Bool
  | .deletion responseChunkId deleted =>
      if responseChunkId ≠ chunkId then
        .error (.remoteProtocol "delete chunk response chunk_id is invalid")
      else .ok deleted
  | _ => .error (.remoteProtocol "delete chunk response has unexpected fields")

def deleteChunk (chunkId : ContentId) (response : Response) : Except ClientExc Bool :=
  response >>= parseDeleteChunkResponse chunkId

end StorageNodeClient

end AiArtifactStore.Client
