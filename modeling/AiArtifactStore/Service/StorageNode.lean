import AiArtifactStore.Foundation.Decimal
import AiArtifactStore.Service.Routing
import AiArtifactStore.Storage.StorageNodeService

/-!
# The HTTP service of a storage node

`StorageNodeService::handle_request`, from the target and the headers of a request to the
status, the headers and the body of its response.
-/

namespace AiArtifactStore.Service

open AiArtifactStore.Foundation
open AiArtifactStore.Identity
open AiArtifactStore.Metadata
open AiArtifactStore.Storage

inductive NodeVerb where
  | get
  | head
  | put
  | delete
  | other
  deriving DecidableEq, Repr

structure NodeRequest where
  method : NodeVerb
  target : List Char
  contentType : Option String := none
  body : List UInt8 := []

structure NodeResponse where
  status : Nat
  contentType : Option String := none
  allow : Option String := none
  body : List UInt8 := []

namespace NodeService

def kChunkCollectionPath : List Char := "/v1/chunks".toList

def kOctetStream : String := "application/octet-stream"

def kDefaultChunkListLimit : Nat := 128

/-! ## Targets -/

def splitPathAndQuery (target : List Char) : List Char × List Char :=
  let (path, suffix) := target.span fun c => c ≠ '?' ∧ c ≠ '#'
  (path, suffix.tail)

def parsePositiveSize (value : List Char) : Option Nat :=
  (decimal? value).filter fun n => n < 2 ^ 64

structure ChunkListQuery where
  after : Option ContentId := none
  limit : Nat := kDefaultChunkListLimit

def addChunkListParam (parsed : ChunkListQuery) (pair : List Char) : Option ChunkListQuery := do
  let (key, value) ← pair.dropInfix? ['=']
  if key = "after".toList then
    if parsed.after.isSome then none
    else
      let after ← contentId? value
      some { parsed with after := some after }
  else if key = "limit".toList then
    let limit ← parsePositiveSize value
    if limit < 1 ∨ limit > 256 then none else some { parsed with limit := limit }
  else none

def parseChunkListQuery (query : List Char) : Option ChunkListQuery :=
  (queryPairs query).foldlM addChunkListParam {}

/-! ## Responses -/

variable (json : JsonLibrary (List UInt8))

/-- `make_json_response` -/
def jsonResponse (status : Nat) (body : Json) : NodeResponse where
  status := status
  contentType := some "application/json"
  body := json.serialize body

def errorResponse (status : Nat) (error : String) : NodeResponse :=
  jsonResponse json status (.object [("error", .string error)])

def methodNotAllowed (allow : String) : NodeResponse :=
  { errorResponse json 405 "method_not_allowed" with allow := some allow }

def chunkInfoJson (info : StoredChunkInfo) : Json :=
  .object [("chunk_id", .string info.chunkId.hex), ("size_bytes", .uint64 info.sizeBytes)]

def pageJson (page : StoredChunkPage) : Json :=
  .object
    [("chunks", .array (page.chunks.map chunkInfoJson)),
     ("next_after", (page.nextAfter.map fun id => Json.string id.hex).getD .null)]

def deletionJson (chunkId : ContentId) (deleted : Bool) : Json :=
  .object [("chunk_id", .string chunkId.hex), ("deleted", .bool deleted)]

def healthJson (nodeId : String) : Json :=
  .object [("status", .string "ok"), ("node_id", .string nodeId)]

/-! ## Handlers -/

variable (env : Environment) (nodeId : String) (request : NodeRequest) (store : ChunkStore)

def handleChunkCollection (query : List Char) : Except Exc NodeResponse :=
  if request.method ≠ .get then .ok (methodNotAllowed json "GET")
  else
    match parseChunkListQuery query with
    | none => .ok (errorResponse json 400 "invalid_request")
    | some parsed => do
        let page ← LocalChunkStore.listChunks store parsed.after parsed.limit
        .ok (jsonResponse json 200 (pageJson page))

def handleChunk (chunkId : ContentId) : Except Exc (NodeResponse × ChunkStore) :=
  match request.method with
  | .head =>
      if LocalChunkStore.contains store chunkId then .ok ({ status := 200 }, store)
      else .ok ({ status := 404 }, store)
  | .put =>
      if request.contentType ≠ some kOctetStream then
        .ok (errorResponse json 415 "unsupported_media_type", store)
      else if env.contentId request.body ≠ chunkId then
        .ok (errorResponse json 422 "chunk_hash_mismatch", store)
      else do
        let next ← LocalChunkStore.put env store chunkId request.body
        .ok ({ status := 204 }, next)
  | .get =>
      if LocalChunkStore.contains store chunkId = false then
        .ok (errorResponse json 404 "chunk_not_found", store)
      else do
        let bytes ← LocalChunkStore.get env store chunkId
        .ok ({ status := 200, contentType := some kOctetStream, body := bytes }, store)
  | .delete => do
      let (deleted, next) ← LocalChunkStore.remove store chunkId
      .ok (jsonResponse json 200 (deletionJson chunkId deleted), next)
  | .other => .ok (methodNotAllowed json "GET, HEAD, PUT, DELETE", store)

def handleRequest : Except Exc (NodeResponse × ChunkStore) :=
  if request.target = "/health".toList then
    if request.method = .get then .ok (jsonResponse json 200 (healthJson nodeId), store)
    else .ok (methodNotAllowed json "GET", store)
  else
    let (path, query) := splitPathAndQuery request.target
    if path = kChunkCollectionPath then
      (handleChunkCollection json request store query).map fun response => (response, store)
    else
      match path.dropPrefix? kChunkRoutePrefix with
      | none => .ok (errorResponse json 404 "not_found", store)
      | some chunkIdText =>
          match contentId? chunkIdText with
          | none => .ok (errorResponse json 400 "invalid_chunk_id", store)
          | some chunkId => handleChunk json env request store chunkId

/-- `HttpServer` around the handler: the limit of bodies, and exceptions as a 500. -/
def serve (maxRequestBodyBytes : Nat) : NodeResponse × ChunkStore :=
  if request.body.length > maxRequestBodyBytes then
    ({ status := 413, contentType := some "text/plain", body := "payload too large".toUTF8.toList },
      store)
  else
    match handleRequest json env nodeId request store with
    | .ok (response, next) => (response, next)
    | .error _ =>
        ({ status := 500, contentType := some "text/plain"
           body := "internal server error".toUTF8.toList }, store)

end NodeService

end AiArtifactStore.Service
