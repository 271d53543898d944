import AiArtifactStore.Client.GcClients
import AiArtifactStore.Foundation.Json
import AiArtifactStore.Identity.UuidText

/-!
# Layouts as JSON

The body of a finalize request, written by the client and read by the service, and
the body of a multi-node restore plan, written by the service and read by the client.
-/

namespace AiArtifactStore.Wire

open AiArtifactStore.Foundation
open AiArtifactStore.Foundation.Json
open AiArtifactStore.Identity
open AiArtifactStore.Metadata
open AiArtifactStore.Client

variable {Text : Type} (json : JsonLibrary Text)

/-! ## Values that both sides write -/

def chunkingStrategyToString : ChunkingStrategy → String
  | .fixedSize => "fixed-size"
  | .fastCdc => "fastcdc"

def chunkingParametersToJson : LayoutChunking → Json
  | .fixedSize => .object []
  | .fastCdc parameters =>
      .object
        [("min_chunk_size_bytes", .uint64 parameters.minChunkSizeBytes),
         ("avg_chunk_size_bytes", .uint64 parameters.avgChunkSizeBytes),
         ("max_chunk_size_bytes", .uint64 parameters.maxChunkSizeBytes)]

/-! ## Values that both sides read -/

def extractNonnegativeUint64 : Json → Option Nat
  | .uint64 n => if n > postgresBigintMax then none else some n
  | .int64 n =>
      if n < 0 then none
      else if n.toNat > postgresBigintMax then none
      else some n.toNat
  | _ => none

def extractPositiveUint64 : Json → Option Nat
  | .uint64 n => if n = 0 ∨ n > postgresBigintMax then none else some n
  | .int64 n =>
      if n ≤ 0 then none
      else if n.toNat = 0 ∨ n.toNat > postgresBigintMax then none
      else some n.toNat
  | _ => none

def parseFastCdcParametersJson (members : Members) : Option FastCdcParameters := do
  guard (hasExactKeys members
    ["min_chunk_size_bytes", "avg_chunk_size_bytes", "max_chunk_size_bytes"])
  let minChunkSizeBytes ← (members.lookup "min_chunk_size_bytes").bind extractPositiveUint64
  let avgChunkSizeBytes ← (members.lookup "avg_chunk_size_bytes").bind extractPositiveUint64
  let maxChunkSizeBytes ← (members.lookup "max_chunk_size_bytes").bind extractPositiveUint64
  let parameters := ⟨minChunkSizeBytes, avgChunkSizeBytes, maxChunkSizeBytes⟩
  match validateFastCdcParameters parameters with
  | .ok () => some parameters
  | .error _ => none

/-! ## The finalize request -/

def chunkToJson (chunk : ChunkRef) : Json :=
  .object
    [("chunk_id", .string chunk.chunkId.hex),
     ("offset", .uint64 chunk.offset),
     ("size_bytes", .uint64 chunk.size)]

def finalizeRequestBody (d : ObjectLayoutDescriptor) : Text :=
  json.serialize <| .object
    [("object_id", .string d.objectId.hex),
     ("total_size_bytes", .uint64 d.object.totalSize),
     ("chunking_strategy", .string (chunkingStrategyToString d.chunkingStrategy)),
     ("chunking_parameters", chunkingParametersToJson d.chunking),
     ("chunks", .array (d.layout.chunks.map chunkToJson))]

inductive BadRequest where
  | invalidJson
  | invalidRequest
  deriving DecidableEq, Repr

namespace FinalizeRequest

def parseChunk (entry : Json) : Except BadRequest ChunkRef := do
  let members ← orFail entry.asObject? .invalidRequest
  failIf (¬hasExactKeys members ["chunk_id", "offset", "size_bytes"]) .invalidRequest
  let chunkIdText ← orFail ((members.lookup "chunk_id").bind asString?) .invalidRequest
  let chunkId ← orFail (ContentId.ofHex? chunkIdText) .invalidRequest
  let offset ← orFail ((members.lookup "offset").bind extractNonnegativeUint64) .invalidRequest
  let size ← orFail ((members.lookup "size_bytes").bind extractPositiveUint64) .invalidRequest
  .ok ⟨chunkId, offset, size⟩

def parseChunking (strategy : String) (parameters : Members) :
    Except BadRequest LayoutChunking :=
  if strategy = "fixed-size" then
    if parameters.isEmpty then .ok .fixedSize else .error .invalidRequest
  else if strategy = "fastcdc" then
    orFail ((parseFastCdcParametersJson parameters).map .fastCdc) .invalidRequest
  else .error .invalidRequest

def parse (body : Text) : Except BadRequest ObjectLayoutDescriptor := do
  let parsed ← orFail (json.parse body) .invalidJson
  let members ← orFail parsed.asObject? .invalidRequest
  failIf (¬hasExactKeys members
    ["object_id", "total_size_bytes", "chunking_strategy", "chunking_parameters", "chunks"])
    .invalidRequest
  let objectIdText ← orFail ((members.lookup "object_id").bind asString?) .invalidRequest
  let strategy ← orFail ((members.lookup "chunking_strategy").bind asString?) .invalidRequest
  let parameters ← orFail ((members.lookup "chunking_parameters").bind asObject?) .invalidRequest
  let entries ← orFail ((members.lookup "chunks").bind asArray?) .invalidRequest
  let objectId ← orFail (ContentId.ofHex? objectIdText) .invalidRequest
  let totalSizeBytes ←
    orFail ((members.lookup "total_size_bytes").bind extractNonnegativeUint64) .invalidRequest
  let chunking ← parseChunking strategy parameters
  let chunks ← mapEach entries parseChunk
  let layout ← (ObjectLayout.make chunks).mapError fun _ => .invalidRequest
  (ObjectLayoutDescriptor.make ⟨objectId, totalSizeBytes⟩ chunking layout).mapError
    fun _ => .invalidRequest

end FinalizeRequest

/-! ## The multi-node restore plan -/

def sourceToJson (source : NodeEndpoint) : Json :=
  .object
    [("node_id", .string source.nodeId),
     ("address", .string source.address),
     ("port", .uint64 source.port)]

def chunkSourcesToJson (chunk : RestoreChunkSources) : Json :=
  .object
    [("chunk_id", .string chunk.chunkId.hex),
     ("offset", .uint64 chunk.offset),
     ("size_bytes", .uint64 chunk.sizeBytes),
     ("sources", .array (chunk.sources.map sourceToJson))]

def multiNodeRestorePlanToJson (plan : MultiNodeRestorePlan) : Json :=
  .object
    [("version_id", .string plan.versionId.hex),
     ("artifact_id", .string plan.artifactId.str),
     ("object_id", .string plan.objectId.hex),
     ("total_size_bytes", .uint64 plan.layoutDescriptor.object.totalSize),
     ("layout_id", .string plan.layoutId.hex),
     ("chunking_strategy",
       .string (chunkingStrategyToString plan.layoutDescriptor.chunkingStrategy)),
     ("chunking_parameters", chunkingParametersToJson plan.layoutDescriptor.chunking),
     ("chunk_count", .uint64 plan.chunks.length),
     ("chunks", .array (plan.chunks.map chunkSourcesToJson))]

def multiNodeRestorePlanBody (plan : MultiNodeRestorePlan) : Text :=
  json.serialize (multiNodeRestorePlanToJson plan)

namespace RestorePlanResponse

/-- `at` and then `as_string`, `as_object` or `as_array`: a value of another kind throws. -/
def field {α : Type} (members : Members) (key : String) (as? : Json → Option α) :
    Except ClientExc α :=
  orFail ((members.lookup key).bind as?) (.runtimeError ("not the expected kind: " ++ key))

/-- `parse_restore_node_endpoint` -/
def parseSource (entry : Json) : Except ClientExc NodeEndpoint := do
  let members ← orFail entry.asObject?
    (.remoteProtocol "multi-node restore plan source entry is not an object")
  failIf (¬hasExactKeys members ["node_id", "address", "port"])
    (.remoteProtocol "restore source endpoint has unexpected fields")
  let nodeId ← orFail ((members.lookup "node_id").bind asString?)
    (.remoteProtocol "restore source endpoint field types are invalid")
  let address ← orFail ((members.lookup "address").bind asString?)
    (.remoteProtocol "restore source endpoint field types are invalid")
  let port ← orFail ((members.lookup "port").bind extractPositiveUint64)
    (.remoteProtocol "restore source endpoint port is invalid")
  failIf (port > 65535) (.remoteProtocol "restore source endpoint port is invalid")
  .ok ⟨nodeId, address, port⟩

def parseChunk (entry : Json) : Except ClientExc RestoreChunkSources := do
  let members ← orFail entry.asObject?
    (.remoteProtocol "multi-node restore plan chunk entry is not an object")
  failIf (¬hasExactKeys members ["chunk_id", "offset", "size_bytes", "sources"])
    (.remoteProtocol "multi-node restore plan chunk entry has unexpected fields")
  let chunkIdText ← orFail ((members.lookup "chunk_id").bind asString?)
    (.remoteProtocol "multi-node restore plan chunk entry has unexpected fields")
  let sourceEntries ← orFail ((members.lookup "sources").bind asArray?)
    (.remoteProtocol "multi-node restore plan chunk entry has unexpected fields")
  let chunkId ← orFail (ContentId.ofHex? chunkIdText)
    (.remoteProtocol "multi-node restore plan chunk_id is invalid")
  let offset ← orFail ((members.lookup "offset").bind extractNonnegativeUint64)
    (.remoteProtocol "multi-node restore plan chunk size fields are invalid")
  let sizeBytes ← orFail ((members.lookup "size_bytes").bind extractPositiveUint64)
    (.remoteProtocol "multi-node restore plan chunk size fields are invalid")
  let sources ← mapEach sourceEntries parseSource
  .ok ⟨chunkId, offset, sizeBytes, sources⟩

def parseChunking (strategy : String) (parameters : Members) : Except ClientExc LayoutChunking :=
  if strategy = "fixed-size" then
    if parameters.isEmpty then .ok .fixedSize
    else .error (.remoteProtocol "multi-node restore plan chunking_parameters are invalid")
  else if strategy = "fastcdc" then
    orFail ((parseFastCdcParametersJson parameters).map .fastCdc)
      (.remoteProtocol "multi-node restore plan chunking_parameters are invalid")
  else .error (.remoteProtocol "multi-node restore plan chunking strategy is unsupported")

def chunkRef (chunk : RestoreChunkSources) : ChunkRef :=
  ⟨chunk.chunkId, chunk.offset, chunk.sizeBytes⟩

def domain {α : Type} (result : Except Exc α) : Except ClientExc α :=
  result.mapError fun _ =>
    .remoteProtocol "multi-node restore plan failed domain validation"

def parse (versionId : ContentId) (body : Text) : Except ClientExc MultiNodeRestorePlan := do
  let members ← orFail ((json.parse body).bind asObject?)
    (.remoteProtocol "multi-node restore plan response is not a JSON object")
  failIf (¬hasExactKeys members
    ["version_id", "artifact_id", "object_id", "total_size_bytes", "layout_id",
     "chunking_strategy", "chunking_parameters", "chunk_count", "chunks"])
    (.remoteProtocol "multi-node restore plan response has unexpected fields")
  let responseVersionId ← field members "version_id" asString?
  failIf (responseVersionId ≠ versionId.hex)
    (.remoteProtocol "multi-node restore plan version_id does not match request")
  let objectIdText ← field members "object_id" asString?
  let layoutIdText ← field members "layout_id" asString?
  let objectId ← orFail (ContentId.ofHex? objectIdText)
    (.remoteProtocol "multi-node restore plan contains an invalid content ID")
  let layoutId ← orFail (ContentId.ofHex? layoutIdText)
    (.remoteProtocol "multi-node restore plan contains an invalid content ID")
  let strategy ← field members "chunking_strategy" asString?
  let parameters ← field members "chunking_parameters" asObject?
  let totalSizeBytes ← orFail ((members.lookup "total_size_bytes").bind extractNonnegativeUint64)
    (.remoteProtocol "multi-node restore plan size fields are invalid")
  let chunkCount ← orFail ((members.lookup "chunk_count").bind extractNonnegativeUint64)
    (.remoteProtocol "multi-node restore plan size fields are invalid")
  let entries ← field members "chunks" asArray?
  failIf (chunkCount ≠ entries.length)
    (.remoteProtocol "multi-node restore plan chunk_count mismatch")
  let chunks ← mapEach entries parseChunk
  let artifactIdText ← field members "artifact_id" asString?
  let artifactId ← (UuidV7.parse artifactIdText).mapError .invalidArgument
  let layout ← domain (ObjectLayout.make (chunks.map chunkRef))
  let chunking ← parseChunking strategy parameters
  let descriptor ←
    domain (ObjectLayoutDescriptor.make ⟨objectId, totalSizeBytes⟩ chunking layout)
  .ok ⟨artifactId, versionId, objectId, layoutId, descriptor, chunks⟩

end RestorePlanResponse

end AiArtifactStore.Wire
