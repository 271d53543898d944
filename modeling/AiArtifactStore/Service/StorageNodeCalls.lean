import AiArtifactStore.Client.ReplicaClients
import AiArtifactStore.Service.DecisionPages
import AiArtifactStore.Service.StorageNode
import AiArtifactStore.Wire.LayoutRoundTrip

/-!
# Calls to a storage node over HTTP

What `StorageNodeClient` sends for each call and makes of the response.  A call over HTTP
is the call that the engines make of the node: the same value or an error of the same
kind, and the same store.
-/

namespace AiArtifactStore.Service

open AiArtifactStore.Foundation
open AiArtifactStore.Foundation.Json
open AiArtifactStore.Identity
open AiArtifactStore.Metadata
open AiArtifactStore.Storage
open AiArtifactStore.Client
open AiArtifactStore.Wire

/-- What a call over HTTP throws. -/
inductive NodeExc where
  | remoteApi (status : Nat) (errorCode : String)
  | remoteProtocol (what : String)
  | invalidArgument (what : String)
  | responseTooLarge
  deriving DecidableEq, Repr

inductive CallValue where
  | found (present : Bool)
  | done
  | chunk (bytes : Option (List UInt8))
  | page (page : StoredChunkPage)
  | deleted (deleted : Bool)
  deriving DecidableEq, Repr

structure NodeLimits where
  clientRequestBytes : Nat
  clientResponseBytes : Nat
  serverRequestBytes : Nat

namespace NodeClient

/-! ## Requests -/

def chunkTarget (chunkId : ContentId) : List Char := kChunkRoutePrefix ++ chunkId.hexCharacters

def chunkCollectionTarget (after : Option ContentId) (limit : Nat) : List Char :=
  "/v1/chunks?limit=".toList ++ Nat.toDigits 10 limit ++
    match after with
    | none => []
    | some after => "&after=".toList ++ after.hexCharacters

def encode : StorageRequest → NodeRequest
  | .listChunks after limit => { method := .get, target := chunkCollectionTarget after limit }
  | .headChunk chunkId => { method := .head, target := chunkTarget chunkId }
  | .putChunk chunkId body =>
      { method := .put, target := chunkTarget chunkId
        contentType := some "application/octet-stream", body := body }
  | .getChunk chunkId => { method := .get, target := chunkTarget chunkId }
  | .deleteChunk chunkId => { method := .delete, target := chunkTarget chunkId }

/-! ## Responses -/

variable (json : JsonLibrary (List UInt8))

def extractErrorCode (body : List UInt8) : String :=
  (((json.parse body).bind asObject?).bind fun members =>
    (members.lookup "error").bind asString?).getD "http_error"

/-- `throw_remote_api_error` -/
def remoteApiError (response : NodeResponse) : NodeExc :=
  .remoteApi response.status (extractErrorCode json response.body)

def extractNonnegativeUint64 : Json → Option Nat
  | .uint64 n => some n
  | .int64 n => if n < 0 then none else some n.toNat
  | _ => none

def parseChunkInfo (entry : Json) : Except NodeExc StoredChunkInfo := do
  let members ← orFail entry.asObject?
    (.remoteProtocol "chunk inventory entry is not an object")
  failIf (¬hasExactKeys members ["chunk_id", "size_bytes"])
    (.remoteProtocol "chunk inventory entry has unexpected fields")
  let chunkId ← orFail ((members.lookup "chunk_id").bind asContentId?)
    (.remoteProtocol "chunk inventory chunk_id is invalid")
  let sizeBytes ← orFail ((members.lookup "size_bytes").bind extractNonnegativeUint64)
    (.remoteProtocol "chunk inventory size_bytes is invalid")
  .ok ⟨chunkId, sizeBytes⟩

def parseChunkInventoryPage (body : List UInt8) : Except NodeExc StoredChunkPage := do
  let members ← orFail ((json.parse body).bind asObject?)
    (.remoteProtocol "chunk inventory response is not a JSON object")
  failIf (¬hasExactKeys members ["chunks", "next_after"])
    (.remoteProtocol "chunk inventory response has unexpected fields")
  let entries ← orFail ((members.lookup "chunks").bind asArray?)
    (.remoteProtocol "chunk inventory chunks must be an array")
  let nextAfterText ← orFail ((members.lookup "next_after").bind (orNull asString?))
    (.remoteProtocol "chunk inventory next_after is invalid")
  let chunks ← mapEach entries parseChunkInfo
  let nextAfter ← match nextAfterText with
    | none => .ok none
    | some text => (orFail (ContentId.ofHex? text)
        (.remoteProtocol "chunk inventory next_after is invalid")).map some
  .ok ⟨chunks, nextAfter⟩

def parseDeleteChunkResponse (chunkId : ContentId) (body : List UInt8) : Except NodeExc Bool := do
  let members ← orFail ((json.parse body).bind asObject?)
    (.remoteProtocol "delete chunk response is not a JSON object")
  failIf (¬hasExactKeys members ["chunk_id", "deleted"])
    (.remoteProtocol "delete chunk response has unexpected fields")
  failIf ((members.lookup "chunk_id").bind asString? ≠ some chunkId.hex)
    (.remoteProtocol "delete chunk response chunk_id is invalid")
  orFail ((members.lookup "deleted").bind asBool?)
    (.remoteProtocol "delete chunk response deleted flag is invalid")

def hasChunk (response : NodeResponse) : Except NodeExc Bool :=
  if response.status = 200 then .ok true
  else if response.status = 404 then .ok false
  else .error (remoteApiError json response)

def putChunk (response : NodeResponse) : Except NodeExc Unit :=
  failIf (response.status ≠ 204) (remoteApiError json response)

def getChunk (env : Environment) (chunkId : ContentId) (response : NodeResponse) :
    Except NodeExc (Option (List UInt8)) :=
  if response.status = 404 ∧ extractErrorCode json response.body = "chunk_not_found" then .ok none
  else do
    failIf (response.status ≠ 200) (remoteApiError json response)
    failIf (response.contentType ≠ some "application/octet-stream")
      (.remoteProtocol "chunk response Content-Type must be application/octet-stream")
    failIf (env.contentId response.body ≠ chunkId)
      (.remoteProtocol "chunk response digest does not match requested chunk_id")
    .ok (some response.body)

def listChunks (response : NodeResponse) : Except NodeExc StoredChunkPage := do
  failIf (response.status ≠ 200) (remoteApiError json response)
  failIf (response.contentType ≠ some "application/json")
    (.remoteProtocol "chunk inventory response Content-Type must be application/json")
  parseChunkInventoryPage json response.body

def deleteChunk (chunkId : ContentId) (response : NodeResponse) : Except NodeExc Bool := do
  failIf (response.status ≠ 200) (remoteApiError json response)
  failIf (response.contentType ≠ some "application/json")
    (.remoteProtocol "delete chunk response Content-Type must be application/json")
  parseDeleteChunkResponse json chunkId response.body

def probeNodeId (response : NodeResponse) : Except NodeExc String := do
  failIf (response.status ≠ 200) (remoteApiError json response)
  failIf (response.contentType ≠ some "application/json")
    (.remoteProtocol "health response Content-Type must be application/json")
  let members ← orFail ((json.parse response.body).bind asObject?)
    (.remoteProtocol "health response is not a JSON object")
  failIf (¬hasExactKeys members ["status", "node_id"])
    (.remoteProtocol "health response has unexpected fields")
  failIf ((members.lookup "status").bind asString? ≠ some "ok")
    (.remoteProtocol "health response status must be ok")
  let nodeId ← orFail ((members.lookup "node_id").bind asString?)
    (.remoteProtocol "health response node_id is invalid")
  failIf (nodeIdInvalid nodeId) (.remoteProtocol "health response node_id is invalid")
  .ok nodeId

def decode (env : Environment) (call : StorageRequest) (response : NodeResponse) :
    Except NodeExc CallValue :=
  match call with
  | .listChunks _ _ => (listChunks json response).map .page
  | .headChunk _ => (hasChunk json response).map .found
  | .putChunk _ _ => (putChunk json response).map fun _ => .done
  | .getChunk chunkId => (getChunk json env chunkId response).map .chunk
  | .deleteChunk chunkId => (deleteChunk json chunkId response).map .deleted

/-! ## Calls -/

def checkPageLimit : StorageRequest → Except NodeExc Unit
  | .listChunks _ limit =>
      failIf (limit < 1 ∨ limit > 256)
        (.invalidArgument "chunk inventory limit must be between 1 and 256")
  | _ => .ok ()

def checkCall (limits : NodeLimits) (call : StorageRequest) : Except NodeExc Unit := do
  checkPageLimit call
  failIf ((encode call).body.length > limits.clientRequestBytes)
    (.invalidArgument "HTTP client request body exceeds configured maximum")

/-- One call of the client to its end, with the store of the node after it. -/
def callNode (env : Environment) (nodeId : String) (limits : NodeLimits) (store : ChunkStore)
    (call : StorageRequest) : Except NodeExc CallValue × ChunkStore :=
  match checkCall limits call with
  | .error e => (.error e, store)
  | .ok () =>
      let answer := NodeService.serve json env nodeId (encode call) store limits.serverRequestBytes
      if answer.1.body.length > limits.clientResponseBytes then (.error .responseTooLarge, answer.2)
      else (decode json env call answer.1, answer.2)

end NodeClient

/-! ## The call of an engine -/

def engineValue (env : Environment) (call : StorageRequest)
    (answer : Except StorageError StorageReply) : Except EngineExc CallValue :=
  let response := answer.mapError fun e => EngineExc.client (.storageApi e)
  match call with
  | .listChunks _ _ =>
      ((StorageNodeClient.listChunks (storageResponse answer)).mapError .client).map .page
  | .headChunk _ => (StorageNodeClient.hasChunk response).map .found
  | .putChunk _ _ => (StorageNodeClient.putChunk response).map fun _ => .done
  | .getChunk chunkId => (StorageNodeClient.getChunk env chunkId response).map .chunk
  | .deleteChunk chunkId =>
      ((StorageNodeClient.deleteChunk chunkId (storageResponse answer)).mapError .client).map
        .deleted

/-- The call of an engine, whose request or response may be lost. -/
def engineCall (env : Environment) (store : ChunkStore) (call : StorageRequest)
    (delivery : Delivery) : Except EngineExc CallValue × ChunkStore :=
  let answer := StorageNodeService.handleRequest env store call
  exchange delivery store (engineValue env call answer.1, answer.2)

inductive SeenAs : EngineExc → NodeExc → Prop
  | hashMismatch :
      SeenAs (.client (.storageApi .chunkHashMismatch)) (.remoteApi 422 "chunk_hash_mismatch")
  | notFound : SeenAs (.client (.storageApi .chunkNotFound)) (.remoteApi 404 "chunk_not_found")
  | exception {e : Exc} {errorCode : String} :
      SeenAs (.client (.storageApi (.exception e))) (.remoteApi 500 errorCode)
  | protocol {what : String} : SeenAs (.client (.remoteProtocol what)) (.remoteProtocol what)
  | payloadTooLarge {errorCode : String} : SeenAs .unexpectedStatus (.remoteApi 413 errorCode)
  | invalidArgument {what : String} :
      SeenAs (.client (.invalidArgument what)) (.invalidArgument what)
  | responseTooLarge {what : String} : SeenAs (.client (.transport what)) .responseTooLarge

inductive Agrees : Except EngineExc CallValue → Except NodeExc CallValue → Prop
  | ok {value : CallValue} : Agrees (.ok value) (.ok value)
  | error {e : EngineExc} {e' : NodeExc} (h : SeenAs e e') : Agrees (.error e) (.error e')

section

variable {json : JsonLibrary (List UInt8)} {env : Environment} {nodeId : String}
  {store : ChunkStore}

/-! ## What the node reads -/

theorem hexCharacters_notMem (id : ContentId) {c : Char} (hc : c ∈ ['/', '?', '#', '&', '=']) :
    c ∉ id.hexCharacters :=
  (plain_hexDigits 64 _).notMem hc

theorem contentId?_hexCharacters (id : ContentId) : contentId? id.hexCharacters = some id := by
  rw [contentId?, ← ContentId.hex, ContentId.ofHex?_hex]

theorem parsePositiveSize_toDigits {n : Nat} (h : n < 2 ^ 64) :
    NodeService.parsePositiveSize (Nat.toDigits 10 n) = some n := by
  rw [NodeService.parsePositiveSize, decimal?_toDigits, Option.filter_some, if_pos (by simpa using h)]

theorem splitPathAndQuery_path {path : List Char} (hquery : '?' ∉ path) (hfragment : '#' ∉ path) :
    NodeService.splitPathAndQuery path = (path, []) := by
  have hall : ∀ c ∈ path, decide (c ≠ '?' ∧ c ≠ '#') = true := fun c hc =>
    decide_eq_true ⟨fun heq => hquery (heq ▸ hc), fun heq => hfragment (heq ▸ hc)⟩
  simp only [NodeService.splitPathAndQuery, List.span_eq_takeWhile_dropWhile,
    List.takeWhile_eq_self_iff.mpr hall, List.dropWhile_eq_nil_iff.mpr hall, List.tail_nil]

theorem splitPathAndQuery_query {path query : List Char} (hquery : '?' ∉ path)
    (hfragment : '#' ∉ path) :
    NodeService.splitPathAndQuery (path ++ '?' :: query) = (path, query) := by
  have hall : ∀ c ∈ path, decide (c ≠ '?' ∧ c ≠ '#') = true := fun c hc =>
    decide_eq_true ⟨fun heq => hquery (heq ▸ hc), fun heq => hfragment (heq ▸ hc)⟩
  simp only [NodeService.splitPathAndQuery, List.span_eq_takeWhile_dropWhile]
  rw [List.takeWhile_append_of_pos hall, List.dropWhile_append_of_pos hall,
    List.takeWhile_cons_of_neg (by decide), List.dropWhile_cons_of_neg (by decide), List.append_nil]
  rfl

def NamesChunk (request : NodeRequest) (chunkId : ContentId) : Prop :=
  (NodeService.splitPathAndQuery request.target).1 = NodeClient.chunkTarget chunkId

theorem handleRequest_named {request : NodeRequest} {chunkId : ContentId}
    (h : NamesChunk request chunkId) :
    NodeService.handleRequest json env nodeId request store =
      NodeService.handleChunk json env request store chunkId := by
  have hlength : (NodeClient.chunkTarget chunkId).length = 11 + 64 := by
    rw [NodeClient.chunkTarget, List.length_append, ContentId.hexCharacters, length_hexDigits]
    rfl
  have hhealth : request.target ≠ "/health".toList := fun heq => by
    rw [NamesChunk, heq] at h
    rw [← h] at hlength
    revert hlength
    decide
  have hcollection : NodeClient.chunkTarget chunkId ≠ NodeService.kChunkCollectionPath :=
    fun heq => by
      rw [heq] at hlength
      revert hlength
      decide
  rw [NodeService.handleRequest, if_neg hhealth]
  rw [NamesChunk] at h
  simp only [h]
  rw [if_neg hcollection, NodeClient.chunkTarget, dropPrefix?_append]
  simp only [contentId?_hexCharacters]

theorem namesChunk_chunkTarget {request : NodeRequest} {chunkId : ContentId}
    (h : request.target = NodeClient.chunkTarget chunkId) : NamesChunk request chunkId := by
  have hquery : '?' ∉ NodeClient.chunkTarget chunkId :=
    List.not_mem_append (by decide) (hexCharacters_notMem chunkId (by decide))
  have hfragment : '#' ∉ NodeClient.chunkTarget chunkId :=
    List.not_mem_append (by decide) (hexCharacters_notMem chunkId (by decide))
  rw [NamesChunk, h, splitPathAndQuery_path hquery hfragment]

theorem parseChunkListQuery_pageQuery {after : Option ContentId} {limit : Nat}
    (hlimit : 1 ≤ limit ∧ limit ≤ 256) :
    NodeService.parseChunkListQuery (pageQuery after limit) = some ⟨after, limit⟩ := by
  have hlimitKey : "limit=".toList = "limit".toList ++ ['='] := by decide
  have hafterKey : "after=".toList = "after".toList ++ ['='] := by decide
  have hsize : NodeService.parsePositiveSize (Nat.toDigits 10 limit) = some limit :=
    parsePositiveSize_toDigits (by omega)
  have hrange : ¬(limit < 1 ∨ limit > 256) := by omega
  have hfirst : NodeService.addChunkListParam {} ("limit=".toList ++ Nat.toDigits 10 limit) =
      some ⟨none, limit⟩ := by
    rw [NodeService.addChunkListParam, hlimitKey, List.append_assoc, List.singleton_append,
      dropInfix?_pair (by decide)]
    simp only [Option.bind_eq_bind, Option.bind_some]
    rw [if_neg (by decide), if_pos trivial, hsize, Option.bind_some, if_neg hrange]
  rw [NodeService.parseChunkListQuery, queryPairs_pageQuery, pagePairs, List.foldlM_cons, hfirst]
  cases after with
  | none => rfl
  | some after =>
      simp only [Option.bind_eq_bind, Option.bind_some, Option.toList_some, List.map_cons,
        List.map_nil, List.foldlM_cons, List.foldlM_nil]
      rw [NodeService.addChunkListParam, hafterKey, List.append_assoc, List.singleton_append,
        dropInfix?_pair (by decide)]
      simp only [Option.bind_eq_bind, Option.bind_some]
      rw [if_pos trivial, if_neg (by simp), contentId?_hexCharacters]
      rfl

theorem chunkCollectionTarget_eq (after : Option ContentId) (limit : Nat) :
    NodeClient.chunkCollectionTarget after limit =
      NodeService.kChunkCollectionPath ++ '?' :: pageQuery after limit := by
  have hsplit : "/v1/chunks?limit=".toList =
      NodeService.kChunkCollectionPath ++ '?' :: "limit=".toList := by decide
  have happend : ∀ {front path back : List Char}, front = path ++ '?' :: back →
      ∀ b c : List Char, front ++ b ++ c = path ++ '?' :: (back ++ b ++ c) := by
    rintro _ path back rfl b c
    simp only [List.append_assoc, List.cons_append]
  rw [pageQuery_eq]
  cases after with
  | none => exact happend hsplit (Nat.toDigits 10 limit) []
  | some after =>
      exact happend hsplit (Nat.toDigits 10 limit) ("&after=".toList ++ after.hexCharacters)

theorem handleRequest_collectionTarget {request : NodeRequest} {after : Option ContentId}
    {limit : Nat} (hmethod : request.method = .get)
    (h : request.target = NodeClient.chunkCollectionTarget after limit)
    (hlimit : 1 ≤ limit ∧ limit ≤ 256) :
    NodeService.handleRequest json env nodeId request store =
      (LocalChunkStore.listChunks store after limit).map fun page =>
        (NodeService.jsonResponse json 200 (NodeService.pageJson page), store) := by
  have htarget : request.target = NodeService.kChunkCollectionPath ++ '?' :: pageQuery after limit :=
    h.trans (chunkCollectionTarget_eq after limit)
  have hhealth : request.target ≠ "/health".toList := fun heq => by
    have hsecond : request.target[1]? = some 'v' := by
      rw [htarget]
      rfl
    rw [heq] at hsecond
    revert hsecond
    decide
  rw [NodeService.handleRequest, if_neg hhealth, htarget,
    splitPathAndQuery_query (by decide) (by decide)]
  simp only [if_true]
  rw [NodeService.handleChunkCollection, if_neg (not_not.mpr hmethod),
    parseChunkListQuery_pageQuery hlimit]
  cases hpage : LocalChunkStore.listChunks store after limit with
  | error e => simp only [hpage, error_bind, Except.map]
  | ok page => simp only [hpage, ok_bind, Except.map]

/-! ## What the client reads -/

def nodeAnswer (json : JsonLibrary (List UInt8)) : Except StorageError StorageReply → NodeResponse
  | .ok (.page page) => NodeService.jsonResponse json 200 (NodeService.pageJson page)
  | .ok (.present found) => { status := if found then 200 else 404 }
  | .ok .noContent => { status := 204 }
  | .ok (.content bytes) =>
      { status := 200, contentType := some NodeService.kOctetStream, body := bytes }
  | .ok (.deleted chunkId deleted) =>
      NodeService.jsonResponse json 200 (NodeService.deletionJson chunkId deleted)
  | .error .chunkHashMismatch => NodeService.errorResponse json 422 "chunk_hash_mismatch"
  | .error .chunkNotFound => NodeService.errorResponse json 404 "chunk_not_found"
  | .error (.exception _) =>
      { status := 500, contentType := some "text/plain"
        body := "internal server error".toUTF8.toList }

def AsksPage : StorageRequest → Prop
  | .listChunks _ limit => 1 ≤ limit ∧ limit ≤ 256
  | _ => True

theorem serve_encode (json : JsonLibrary (List UInt8)) (env : Environment) (nodeId : String)
    (store : ChunkStore) {call : StorageRequest} {limit : Nat} (hpage : AsksPage call)
    (hbody : (NodeClient.encode call).body.length ≤ limit) :
    NodeService.serve json env nodeId (NodeClient.encode call) store limit =
      (nodeAnswer json (StorageNodeService.handleRequest env store call).1,
        (StorageNodeService.handleRequest env store call).2) := by
  rw [NodeService.serve, if_neg (Nat.not_lt.mpr hbody)]
  cases call with
  | listChunks after limit =>
      rw [handleRequest_collectionTarget rfl rfl hpage,
        StorageNodeService.handleRequest_listChunks]
      cases LocalChunkStore.listChunks store after limit <;> rfl
  | headChunk chunkId =>
      rw [handleRequest_named (namesChunk_chunkTarget rfl)]
      simp only [NodeService.handleChunk, NodeClient.encode, StorageNodeService.handleRequest,
        StorageNodeService.respond]
      cases LocalChunkStore.contains store chunkId <;> rfl
  | putChunk chunkId body =>
      rw [handleRequest_named (namesChunk_chunkTarget rfl)]
      by_cases hid : env.contentId body = chunkId
      · simp only [NodeService.handleChunk, NodeClient.encode, NodeService.kOctetStream, hid,
          StorageNodeService.handleRequest, StorageNodeService.respond, failIf, ne_eq,
          not_true_eq_false, if_false, ok_bind]
        cases LocalChunkStore.put env store chunkId body <;> rfl
      · simp only [NodeService.handleChunk, NodeClient.encode, NodeService.kOctetStream, hid,
          StorageNodeService.handleRequest, StorageNodeService.respond, failIf, ne_eq,
          not_true_eq_false, not_false_eq_true, if_false, if_true, error_bind]
        rfl
  | getChunk chunkId =>
      rw [handleRequest_named (namesChunk_chunkTarget rfl)]
      simp only [NodeService.handleChunk, NodeClient.encode, StorageNodeService.handleRequest,
        StorageNodeService.respond]
      by_cases hcontains : LocalChunkStore.contains store chunkId = false
      · rw [if_pos hcontains, failIf_of_true hcontains]
        rfl
      · rw [if_neg hcontains, failIf_of_false hcontains, ok_bind]
        cases LocalChunkStore.get env store chunkId <;> rfl
  | deleteChunk chunkId =>
      rw [handleRequest_named (namesChunk_chunkTarget rfl)]
      simp only [NodeService.handleChunk, NodeClient.encode, StorageNodeService.handleRequest,
        StorageNodeService.respond]
      cases LocalChunkStore.remove store chunkId <;> rfl

theorem extractNonnegativeUint64_size (n : Nat) :
    NodeClient.extractNonnegativeUint64 (Json.uint64 n).wire = some n := by
  rw [Json.wire]
  split
  · simp [NodeClient.extractNonnegativeUint64]
  · rfl

theorem parseChunkInfo_wire (info : StoredChunkInfo) :
    NodeClient.parseChunkInfo (NodeService.chunkInfoJson info).wire = .ok info := by
  simp [NodeClient.parseChunkInfo, NodeService.chunkInfoJson, asObject?, hasExactKeys,
    Json.lookup_cons, asContentId?, asString?, ContentId.ofHex?_hex, failIf,
    extractNonnegativeUint64_size]

theorem parseChunkInventoryPage_pageJson (page : StoredChunkPage) :
    NodeClient.parseChunkInventoryPage json (json.serialize (NodeService.pageJson page)) =
      .ok page := by
  obtain ⟨chunks, nextAfter⟩ := page
  have hchunks : mapEach (chunks.map (Json.wire ∘ NodeService.chunkInfoJson))
      NodeClient.parseChunkInfo = .ok chunks :=
    mapEach_decode fun info _ => parseChunkInfo_wire info
  have hnull : Json.null.wire = .null := by simp only [Json.wire]
  rw [NodeClient.parseChunkInventoryPage, json.parse_serialize, NodeService.pageJson]
  cases nextAfter with
  | none =>
      simp [asObject?, hasExactKeys, Json.lookup_cons, failIf, asArray?, orNull, hnull, hchunks]
  | some id =>
      simp [asObject?, hasExactKeys, Json.lookup_cons, failIf, asArray?, orNull, asString?,
        hchunks, ContentId.ofHex?_hex, Except.map]

theorem parseDeleteChunkResponse_deletionJson (chunkId : ContentId) (deleted : Bool) :
    NodeClient.parseDeleteChunkResponse json chunkId
      (json.serialize (NodeService.deletionJson chunkId deleted)) = .ok deleted := by
  have hbool : (Json.bool deleted).wire = .bool deleted := by simp only [Json.wire]
  rw [NodeClient.parseDeleteChunkResponse, json.parse_serialize, NodeService.deletionJson]
  simp [asObject?, hasExactKeys, Json.lookup_cons, failIf, asString?, asBool?, hbool]

theorem extractErrorCode_errorResponse (status : Nat) (error : String) :
    NodeClient.extractErrorCode json (NodeService.errorResponse json status error).body = error := by
  rw [NodeClient.extractErrorCode, NodeService.errorResponse, NodeService.jsonResponse,
    json.parse_serialize]
  simp [asObject?, asString?]

theorem agrees_exception (call : StorageRequest) (e : Exc) :
    Agrees (engineValue env call (.error (.exception e)))
      (NodeClient.decode json env call (nodeAnswer json (.error (.exception e)))) := by
  cases call <;> exact .error .exception

theorem agrees_putChunk {chunkId : ContentId} {body : List UInt8} :
    Agrees (engineValue env (.putChunk chunkId body) (.error .chunkHashMismatch))
      (NodeClient.decode json env (.putChunk chunkId body)
        (nodeAnswer json (.error .chunkHashMismatch))) := by
  have herror : NodeClient.decode json env (.putChunk chunkId body)
      (nodeAnswer json (.error .chunkHashMismatch)) =
        .error (.remoteApi 422 "chunk_hash_mismatch") := by
    have hcode : NodeClient.extractErrorCode json
        (NodeService.errorResponse json 422 "chunk_hash_mismatch").body = "chunk_hash_mismatch" :=
      extractErrorCode_errorResponse 422 "chunk_hash_mismatch"
    rw [← hcode]
    rfl
  rw [herror]
  exact .error .hashMismatch

theorem agrees_getChunk {chunkId : ContentId} :
    Agrees (engineValue env (.getChunk chunkId) (.error .chunkNotFound))
      (NodeClient.decode json env (.getChunk chunkId) (nodeAnswer json (.error .chunkNotFound))) := by
  have hcode : NodeClient.extractErrorCode json
      (NodeService.errorResponse json 404 "chunk_not_found").body = "chunk_not_found" :=
    extractErrorCode_errorResponse 404 "chunk_not_found"
  have hnone : NodeClient.getChunk json env chunkId
      (nodeAnswer json (.error .chunkNotFound)) = .ok none := by
    rw [NodeClient.getChunk, nodeAnswer, hcode]
    exact if_pos ⟨rfl, rfl⟩
  rw [NodeClient.decode, hnone]
  exact .ok

theorem agrees_content {chunkId : ContentId} {bytes : List UInt8} :
    Agrees (engineValue env (.getChunk chunkId) (.ok (.content bytes)))
      (NodeClient.decode json env (.getChunk chunkId) (nodeAnswer json (.ok (.content bytes)))) := by
  by_cases hid : env.contentId bytes = chunkId
  · simp [engineValue, NodeClient.decode, NodeClient.getChunk, nodeAnswer, hid, failIf,
      NodeService.kOctetStream, Except.mapError, StorageNodeClient.getChunk, Except.map, Agrees.ok]
  · simp [engineValue, NodeClient.decode, NodeClient.getChunk, nodeAnswer, hid, failIf,
      NodeService.kOctetStream, Except.mapError, StorageNodeClient.getChunk, Except.map]
    exact .error .protocol

theorem agrees_page {after : Option ContentId} {limit : Nat} {page : StoredChunkPage} :
    Agrees (engineValue env (.listChunks after limit) (.ok (.page page)))
      (NodeClient.decode json env (.listChunks after limit) (nodeAnswer json (.ok (.page page)))) := by
  have hpage : NodeClient.listChunks json (nodeAnswer json (.ok (.page page))) = .ok page := by
    rw [NodeClient.listChunks, nodeAnswer, NodeService.jsonResponse]
    simp only [ne_eq, not_true_eq_false, failIf, if_false, ok_bind,
      parseChunkInventoryPage_pageJson]
  rw [NodeClient.decode, hpage]
  exact .ok

theorem agrees_deleted {chunkId : ContentId} {deleted : Bool} :
    Agrees (engineValue env (.deleteChunk chunkId) (.ok (.deleted chunkId deleted)))
      (NodeClient.decode json env (.deleteChunk chunkId)
        (nodeAnswer json (.ok (.deleted chunkId deleted)))) := by
  have hdeleted : NodeClient.deleteChunk json chunkId
      (nodeAnswer json (.ok (.deleted chunkId deleted))) = .ok deleted := by
    rw [NodeClient.deleteChunk, nodeAnswer, NodeService.jsonResponse]
    simp only [ne_eq, not_true_eq_false, failIf, if_false, ok_bind,
      parseDeleteChunkResponse_deletionJson]
  have hengine : engineValue env (.deleteChunk chunkId) (.ok (.deleted chunkId deleted)) =
      .ok (.deleted deleted) := by
    simp [engineValue, StorageNodeClient.deleteChunk, StorageNodeClient.parseDeleteChunkResponse,
      storageResponse, bind, Except.bind, Except.mapError, Except.map]
  rw [NodeClient.decode, hdeleted, hengine]
  exact .ok

theorem decode_nodeAnswer (call : StorageRequest) :
    Agrees (engineValue env call (StorageNodeService.handleRequest env store call).1)
      (NodeClient.decode json env call
        (nodeAnswer json (StorageNodeService.handleRequest env store call).1)) := by
  cases call with
  | listChunks after limit =>
      rw [StorageNodeService.handleRequest_listChunks]
      cases LocalChunkStore.listChunks store after limit with
      | error e => exact agrees_exception _ e
      | ok page => exact agrees_page
  | headChunk chunkId =>
      have hanswer : (StorageNodeService.handleRequest env store (.headChunk chunkId)).1 =
          .ok (.present (LocalChunkStore.contains store chunkId)) := rfl
      rw [hanswer]
      cases LocalChunkStore.contains store chunkId <;> exact .ok
  | putChunk chunkId body =>
      simp only [StorageNodeService.handleRequest, StorageNodeService.respond]
      by_cases hid : env.contentId body ≠ chunkId
      · rw [failIf_of_true hid]
        exact agrees_putChunk
      · rw [failIf_of_false hid, ok_bind]
        cases LocalChunkStore.put env store chunkId body with
        | error e => exact agrees_exception _ e
        | ok next => exact .ok
  | getChunk chunkId =>
      simp only [StorageNodeService.handleRequest, StorageNodeService.respond]
      by_cases hcontains : LocalChunkStore.contains store chunkId = false
      · rw [failIf_of_true hcontains]
        exact agrees_getChunk
      · rw [failIf_of_false hcontains, ok_bind]
        cases LocalChunkStore.get env store chunkId with
        | error e => exact agrees_exception _ e
        | ok bytes => exact agrees_content
  | deleteChunk chunkId =>
      rcases @StorageNodeService.handleRequest_deleteChunk env store chunkId with
        ⟨e, hanswer⟩ | ⟨deleted, next, -, hanswer⟩
      · rw [hanswer]
        exact agrees_exception _ e
      · rw [hanswer]
        exact agrees_deleted

/-! ## Calls within and beyond the limits -/

def Refused : Except NodeExc CallValue → Prop
  | .error (.invalidArgument _) => True
  | .error (.remoteApi status _) => status = 413
  | .error .responseTooLarge => True
  | _ => False

/-- A call over HTTP is the call of the engine, delivered in some way. -/
structure Simulates (env : Environment) (store : ChunkStore) (call : StorageRequest)
    (delivery : Delivery) (result : Except NodeExc CallValue) (next : ChunkStore) : Prop where
  value : Agrees (engineCall env store call delivery).1 result
  store : (engineCall env store call delivery).2 = next
  answered : ¬Refused result → delivery = .answered

theorem simulates_requestLost {call : StorageRequest} {e : EngineExc} {e' : NodeExc}
    (hseen : SeenAs e e') (hrefused : Refused (.error e')) :
    Simulates env store call (.requestLost e) (.error e') store :=
  ⟨.error hseen, rfl, fun h => absurd hrefused h⟩

theorem checkPageLimit_error {call : StorageRequest} {e : NodeExc}
    (h : NodeClient.checkPageLimit call = .error e) : ∃ what, e = .invalidArgument what := by
  cases call with
  | listChunks after limit =>
      simp only [NodeClient.checkPageLimit, failIf] at h
      split at h
      · exact ⟨_, (Except.error.inj h).symm⟩
      · cases h
  | headChunk | putChunk | getChunk | deleteChunk => cases h

theorem checkCall_error {limits : NodeLimits} {call : StorageRequest} {e : NodeExc}
    (h : NodeClient.checkCall limits call = .error e) : ∃ what, e = .invalidArgument what := by
  rw [NodeClient.checkCall] at h
  cases hpage : NodeClient.checkPageLimit call with
  | error e' =>
      rw [hpage, error_bind] at h
      obtain rfl := Except.error.inj h
      exact checkPageLimit_error hpage
  | ok u =>
      rw [hpage, ok_bind, failIf] at h
      split at h
      · exact ⟨_, (Except.error.inj h).symm⟩
      · cases h

theorem asksPage_of_checkCall {limits : NodeLimits} {call : StorageRequest}
    (h : NodeClient.checkCall limits call = .ok ()) : AsksPage call := by
  cases call with
  | listChunks after limit =>
      simp only [NodeClient.checkCall, NodeClient.checkPageLimit, bind_eq_ok, exists_unit,
        failIf_eq_ok] at h
      exact ⟨by omega, by omega⟩
  | headChunk | putChunk | getChunk | deleteChunk => trivial

theorem decode_payloadTooLarge (call : StorageRequest) {response : NodeResponse}
    (h : response.status = 413) :
    NodeClient.decode json env call response =
      .error (.remoteApi 413 (NodeClient.extractErrorCode json response.body)) := by
  obtain ⟨status, contentType, allow, body⟩ := response
  obtain rfl : status = 413 := h
  cases call <;> rfl

theorem callNode_simulates (json : JsonLibrary (List UInt8)) (env : Environment) (nodeId : String)
    (limits : NodeLimits) (store : ChunkStore) (call : StorageRequest) :
    ∃ delivery, Simulates env store call delivery
      (NodeClient.callNode json env nodeId limits store call).1
      (NodeClient.callNode json env nodeId limits store call).2 := by
  rw [NodeClient.callNode]
  cases hcheck : NodeClient.checkCall limits call with
  | error e =>
      obtain ⟨what, rfl⟩ := checkCall_error hcheck
      exact ⟨_, simulates_requestLost .invalidArgument trivial⟩
  | ok u =>
      by_cases hbody : (NodeClient.encode call).body.length > limits.serverRequestBytes
      · -- the server answers 413 without the handler
        rw [NodeService.serve, if_pos hbody]
        simp only
        split
        · exact ⟨_, simulates_requestLost (e := .client (.transport "")) .responseTooLarge trivial⟩
        · rw [decode_payloadTooLarge call rfl]
          exact ⟨_, simulates_requestLost .payloadTooLarge rfl⟩
      · have hserve := serve_encode json env nodeId store (asksPage_of_checkCall hcheck)
          (Nat.le_of_not_lt hbody)
        rw [hserve]
        simp only
        split
        · exact ⟨.responseLost (.client (.transport "")),
            ⟨.error .responseTooLarge, rfl, fun h => absurd trivial h⟩⟩
        · exact ⟨.answered, ⟨decode_nodeAnswer call, rfl, fun _ => rfl⟩⟩

/-- Calls of any clients, one after another. -/
def callsOverHttp (json : JsonLibrary (List UInt8)) (env : Environment) (nodeId : String)
    (limits : NodeLimits) :
    ChunkStore → List StorageRequest → List (Except NodeExc CallValue) × ChunkStore
  | store, [] => ([], store)
  | store, call :: calls =>
      let first := NodeClient.callNode json env nodeId limits store call
      let rest := callsOverHttp json env nodeId limits first.2 calls
      (first.1 :: rest.1, rest.2)

def engineCalls (env : Environment) :
    ChunkStore → List (StorageRequest × Delivery) → List (Except EngineExc CallValue) × ChunkStore
  | store, [] => ([], store)
  | store, sent :: calls =>
      let first := engineCall env store sent.1 sent.2
      let rest := engineCalls env first.2 calls
      (first.1 :: rest.1, rest.2)

/-- Any sequence of calls over HTTP gives the values and the store of the same calls of the
engines, where the calls that a limit has ended were lost on their way. -/
theorem callsOverHttp_simulates (limits : NodeLimits) (calls : List StorageRequest) :
    ∃ sent : List (StorageRequest × Delivery), sent.map Prod.fst = calls ∧
      (engineCalls env store sent).2 = (callsOverHttp json env nodeId limits store calls).2 ∧
      List.Forall₂ Agrees (engineCalls env store sent).1
        (callsOverHttp json env nodeId limits store calls).1 ∧
      List.Forall₂ (fun call result => ¬Refused result → call.2 = .answered) sent
        (callsOverHttp json env nodeId limits store calls).1 := by
  induction calls generalizing store with
  | nil => exact ⟨[], rfl, rfl, .nil, .nil⟩
  | cons call calls ih =>
      obtain ⟨delivery, hvalue, hstore, hanswered⟩ :=
        callNode_simulates json env nodeId limits store call
      obtain ⟨sent, hcalls, hfinal, hvalues, hdelivered⟩ :=
        @ih (NodeClient.callNode json env nodeId limits store call).2
      refine ⟨(call, delivery) :: sent, by rw [List.map_cons, hcalls], ?_, ?_, ?_⟩
      · simp only [engineCalls, hstore, callsOverHttp, hfinal]
      · simp only [engineCalls, hstore, callsOverHttp]
        exact .cons hvalue hvalues
      · exact .cons hanswered hdelivered

end

end AiArtifactStore.Service
