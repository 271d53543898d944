import AiArtifactStore.Metadata.Canonical
import AiArtifactStore.Metadata.Histories
import AiArtifactStore.Metadata.LayoutArithmetic
import AiArtifactStore.Wire.LayoutJson

/-!
# Layouts survive the wire

The service reads the descriptor that the client finalizes, and the client reads
the plan that the service builds.
-/

namespace AiArtifactStore.Wire

open AiArtifactStore.Foundation
open AiArtifactStore.Foundation.Json
open AiArtifactStore.Identity
open AiArtifactStore.Metadata
open AiArtifactStore.Client

section

variable {Text : Type} (json : JsonLibrary Text) {env : Environment}

/-! ## Numbers -/

theorem wire_uint64 {n : Nat} (h : n ≤ postgresBigintMax) : (uint64 n).wire = .int64 n := by
  have hlt : n < 2 ^ 63 := by
    unfold postgresBigintMax at h
    omega
  simp only [wire, hlt, ↓reduceIte]

theorem extractNonnegativeUint64_wire {n : Nat} (h : n ≤ postgresBigintMax) :
    extractNonnegativeUint64 (uint64 n).wire = some n := by
  have hsmall : ¬n > postgresBigintMax := Nat.not_lt.mpr h
  simp [wire_uint64 h, extractNonnegativeUint64, hsmall]

theorem extractPositiveUint64_wire {n : Nat} (hpos : 0 < n) (h : n ≤ postgresBigintMax) :
    extractPositiveUint64 (uint64 n).wire = some n := by
  have hsmall : ¬n > postgresBigintMax := Nat.not_lt.mpr h
  have hzero : n ≠ 0 := Nat.pos_iff_ne_zero.mp hpos
  simp [wire_uint64 h, extractPositiveUint64, hsmall, hzero]

theorem failIf_keys {ε : Type} {members : Members} {keys : List String} {e : ε}
    (h : members.map Prod.fst = keys) : failIf (¬hasExactKeys members keys) e = .ok () :=
  failIf_of_false (not_not.mpr (hasExactKeys_of_keys h))

theorem mapEach_decode {α β ε : Type} {xs : List α} {encode : α → β} {decode : β → Except ε α}
    (h : ∀ x ∈ xs, decode (encode x) = .ok x) : mapEach (xs.map encode) decode = .ok xs := by
  induction xs with
  | nil => rfl
  | cons x xs ih =>
      have htail := ih fun y hy => h y (by simp [hy])
      simp [mapEach, h x (by simp), htail]

/-! ## Layouts -/

theorem parseFastCdcParametersJson_wire {parameters : FastCdcParameters}
    (h : validateFastCdcParameters parameters = .ok ()) :
    ∃ members, (chunkingParametersToJson (.fastCdc parameters)).wire = .object members ∧
      parseFastCdcParametersJson members = some parameters := by
  obtain ⟨hmin, havg, -, hle, hle', hmax⟩ := validateFastCdcParameters_ok.mp h
  have hbound : 8 * 1024 * 1024 ≤ postgresBigintMax := by decide
  refine ⟨_, by rw [chunkingParametersToJson, wire_object], ?_⟩
  have hminWire := extractPositiveUint64_wire (by omega)
    (show parameters.minChunkSizeBytes ≤ postgresBigintMax by omega)
  have havgWire := extractPositiveUint64_wire (by omega)
    (show parameters.avgChunkSizeBytes ≤ postgresBigintMax by omega)
  have hmaxWire := extractPositiveUint64_wire (by omega)
    (show parameters.maxChunkSizeBytes ≤ postgresBigintMax by omega)
  simp [parseFastCdcParametersJson, hasExactKeys, Json.lookup_cons, guard, hminWire, havgWire,
    hmaxWire, h]

theorem finalizeParseChunking_wire {chunking : LayoutChunking} (h : chunking.validate = .ok ()) :
    ∃ members, (chunkingParametersToJson chunking).wire = .object members ∧
      FinalizeRequest.parseChunking (chunkingStrategyToString chunking.strategy) members =
        .ok chunking := by
  cases chunking with
  | fixedSize => exact ⟨[], by simp [chunkingParametersToJson], rfl⟩
  | fastCdc parameters =>
      obtain ⟨members, hwire, hparse⟩ := parseFastCdcParametersJson_wire h
      refine ⟨members, hwire, ?_⟩
      simp [FinalizeRequest.parseChunking, chunkingStrategyToString, LayoutChunking.strategy,
        hparse]

theorem restoreParseChunking_wire {chunking : LayoutChunking} (h : chunking.validate = .ok ()) :
    ∃ members, (chunkingParametersToJson chunking).wire = .object members ∧
      RestorePlanResponse.parseChunking (chunkingStrategyToString chunking.strategy) members =
        .ok chunking := by
  cases chunking with
  | fixedSize => exact ⟨[], by simp [chunkingParametersToJson], rfl⟩
  | fastCdc parameters =>
      obtain ⟨members, hwire, hparse⟩ := parseFastCdcParametersJson_wire h
      refine ⟨members, hwire, ?_⟩
      simp [RestorePlanResponse.parseChunking, chunkingStrategyToString, LayoutChunking.strategy,
        hparse]

/-! ## The finalize request -/

theorem finalizeParseChunk_wire {chunk : ChunkRef} (hpos : 0 < chunk.size)
    (hend : chunk.offset + chunk.size ≤ postgresBigintMax) :
    FinalizeRequest.parseChunk (chunkToJson chunk).wire = .ok chunk := by
  have hoffset := extractNonnegativeUint64_wire (show chunk.offset ≤ postgresBigintMax by omega)
  have hsize := extractPositiveUint64_wire hpos (show chunk.size ≤ postgresBigintMax by omega)
  simp [FinalizeRequest.parseChunk, chunkToJson, asObject?, asString?, hasExactKeys, Json.lookup_cons,
    ContentId.ofHex?_hex, hoffset, hsize, failIf_of_false]

theorem finalizeRequest_roundTrip {d : ObjectLayoutDescriptor}
    (hsize : d.object.totalSize ≤ postgresBigintMax) :
    FinalizeRequest.parse json (finalizeRequestBody json d) = .ok d := by
  obtain ⟨members, hwire, hchunking⟩ := finalizeParseChunking_wire d.chunkingValid
  have htotal := extractNonnegativeUint64_wire hsize
  have hchunks : mapEach ((d.layout.chunks.map chunkToJson).map wire)
      FinalizeRequest.parseChunk = .ok d.layout.chunks := by
    rw [List.map_map]
    refine mapEach_decode fun chunk hchunk => finalizeParseChunk_wire ?_ ?_
    · exact ObjectLayout.size_pos hchunk
    · exact (ObjectLayout.end_le_totalSize hchunk).trans (d.sizeMatches ▸ hsize)
  rw [FinalizeRequest.parse, finalizeRequestBody, json.parse_serialize, orFail_some, ok_bind]
  simp only [wire_object, List.map_cons, List.map_nil, wire_string, wire_array, hwire, asObject?,
    orFail_some, ok_bind]
  rw [failIf_keys, ok_bind]
  swap
  · rfl
  simp only [lookup_cons, String.reduceEq, ↓reduceIte, Option.bind_some, asString?, asObject?,
    asArray?, orFail_some, ok_bind, ContentId.ofHex?_hex, htotal,
    ObjectLayoutDescriptor.chunkingStrategy, hchunking, hchunks, ObjectLayout.make_chunks,
    Except.mapError]
  exact congrArg (Except.mapError _) d.make_self

/-! ## The restore plan -/

def PortValid (source : NodeEndpoint) : Prop := 0 < source.port ∧ source.port ≤ 65535

theorem parseSource_wire {source : NodeEndpoint} (h : PortValid source) :
    RestorePlanResponse.parseSource (sourceToJson source).wire = .ok source := by
  have hbound : 65535 ≤ postgresBigintMax := by decide
  have hport := extractPositiveUint64_wire h.1 (h.2.trans hbound)
  rw [RestorePlanResponse.parseSource, sourceToJson, wire_object, asObject?, orFail_some, ok_bind]
  simp only [List.map_cons, List.map_nil, wire_string]
  rw [failIf_keys, ok_bind]
  swap
  · rfl
  simp only [lookup_cons, String.reduceEq, ↓reduceIte, Option.bind_some, asString?, orFail_some,
    ok_bind, hport]
  rw [failIf_of_false (Nat.not_lt.mpr h.2), ok_bind]

theorem restoreParseChunk_wire {chunk : RestoreChunkSources} (hpos : 0 < chunk.sizeBytes)
    (hend : chunk.offset + chunk.sizeBytes ≤ postgresBigintMax)
    (hports : ∀ source ∈ chunk.sources, PortValid source) :
    RestorePlanResponse.parseChunk (chunkSourcesToJson chunk).wire = .ok chunk := by
  have hoffset := extractNonnegativeUint64_wire (show chunk.offset ≤ postgresBigintMax by omega)
  have hsize := extractPositiveUint64_wire hpos
    (show chunk.sizeBytes ≤ postgresBigintMax by omega)
  have hsources : mapEach ((chunk.sources.map sourceToJson).map wire)
      RestorePlanResponse.parseSource = .ok chunk.sources := by
    rw [List.map_map]
    exact mapEach_decode fun source hsource => parseSource_wire (hports source hsource)
  rw [RestorePlanResponse.parseChunk, chunkSourcesToJson, wire_object, asObject?, orFail_some,
    ok_bind]
  simp only [List.map_cons, List.map_nil, wire_string, wire_array]
  rw [failIf_keys, ok_bind]
  swap
  · rfl
  simp only [lookup_cons, String.reduceEq, ↓reduceIte, Option.bind_some, asString?, asArray?,
    orFail_some, ok_bind, ContentId.ofHex?_hex, hoffset, hsize, hsources]

structure Restores (env : Environment) (d : ObjectLayoutDescriptor)
    (plan : MultiNodeRestorePlan) : Prop where
  descriptor : plan.layoutDescriptor = d
  objectId : plan.objectId = d.objectId
  layoutId : plan.layoutId = d.layoutId env
  chunks : plan.chunks.map RestorePlanResponse.chunkRef = d.layout.chunks
  sources : ∀ chunk ∈ plan.chunks, chunk.sources ≠ [] ∧ ∀ source ∈ chunk.sources, PortValid source

theorem restorePlan_roundTrip {plan : MultiNodeRestorePlan}
    (hsize : plan.layoutDescriptor.object.totalSize ≤ postgresBigintMax)
    (hobject : plan.objectId = plan.layoutDescriptor.objectId)
    (hrefs : plan.chunks.map RestorePlanResponse.chunkRef = plan.layoutDescriptor.layout.chunks)
    (hsources : ∀ chunk ∈ plan.chunks, ∀ source ∈ chunk.sources, PortValid source) :
    RestorePlanResponse.parse json plan.versionId (multiNodeRestorePlanBody json plan) =
      .ok plan := by
  obtain ⟨artifactId, versionId, objectId, layoutId, descriptor, chunks⟩ := plan
  obtain rfl : objectId = descriptor.object.objectId := hobject
  simp only at hsize hrefs hsources ⊢
  obtain ⟨members, hwire, hchunking⟩ := restoreParseChunking_wire descriptor.chunkingValid
  have htotal := extractNonnegativeUint64_wire hsize
  have hlength : chunks.length = descriptor.layout.chunks.length := by
    rw [← hrefs, List.length_map]
  have hcount := extractNonnegativeUint64_wire (show chunks.length ≤ postgresBigintMax by
    rw [hlength]
    exact (ObjectLayout.length_le_totalSize _).trans (descriptor.sizeMatches ▸ hsize))
  have hchunks : mapEach ((chunks.map chunkSourcesToJson).map wire)
      RestorePlanResponse.parseChunk = .ok chunks := by
    rw [List.map_map]
    refine mapEach_decode fun chunk hchunk => ?_
    have hmem : RestorePlanResponse.chunkRef chunk ∈ descriptor.layout.chunks :=
      hrefs ▸ List.mem_map_of_mem hchunk
    refine restoreParseChunk_wire ?_ ?_ (hsources chunk hchunk)
    · exact ObjectLayout.size_pos hmem
    · exact (ObjectLayout.end_le_totalSize hmem).trans (descriptor.sizeMatches ▸ hsize)
  rw [RestorePlanResponse.parse, multiNodeRestorePlanBody, json.parse_serialize,
    multiNodeRestorePlanToJson]
  simp only [wire_object, List.map_cons, List.map_nil, wire_string, wire_array, hwire, asObject?,
    Option.bind_some, orFail_some, ok_bind]
  rw [failIf_keys, ok_bind]
  swap
  · rfl
  simp only [RestorePlanResponse.field, lookup_cons, String.reduceEq, ↓reduceIte,
    Option.bind_some, asString?, asObject?, asArray?, orFail_some, ok_bind]
  rw [failIf_of_false (not_not.mpr rfl), ok_bind]
  simp only [ContentId.ofHex?_hex, orFail_some, ok_bind, htotal, hcount]
  rw [failIf_of_false (not_not.mpr (by simp)), ok_bind]
  simp only [hchunks, ok_bind, UuidV7.parse_str, Except.mapError, hrefs,
    ObjectLayout.make_chunks, RestorePlanResponse.domain,
    ObjectLayoutDescriptor.chunkingStrategy, hchunking]
  have hmake : ObjectLayoutDescriptor.make
      ⟨descriptor.object.objectId, descriptor.object.totalSize⟩ descriptor.chunking
      descriptor.layout = .ok descriptor := descriptor.make_self
  simp only [hmake, ok_bind]

theorem restores_of_resolve {db : Db} {versionId : ContentId} {plan : MultiNodeRestorePlan}
    (hports : ∀ node ∈ db.storageNodes, 0 < node.port ∧ node.port ≤ 65535)
    (h : resolveMultiNodeRestorePlan env db versionId = .ok plan)
    (hsources : ∀ chunk ∈ plan.chunks, chunk.sources ≠ []) :
    Restores env plan.layoutDescriptor plan := by
  simp only [resolveMultiNodeRestorePlan, bind_eq_ok, exists_unit, failIf_eq_ok] at h
  obtain ⟨version, -, selected, -, loaded, -, descriptor, -, -, h⟩ := h
  obtain rfl := Except.ok.inj h
  refine ⟨rfl, rfl, rfl, ?_, fun chunk hchunk => ⟨hsources chunk hchunk, fun source hsource => ?_⟩⟩
  · rw [List.map_map]
    exact List.map_id _
  · obtain ⟨ref, -, rfl⟩ := List.mem_map.mp hchunk
    obtain ⟨location, -, hnode⟩ := List.mem_filterMap.mp (Environment.mem_orderByText.mp hsource)
    obtain ⟨node, hfind, hserving⟩ := Option.bind_eq_some_iff.mp hnode
    split at hserving
    · obtain rfl := Option.some.inj hserving
      exact hports node (Table.mem_of_find? hfind)
    · cases hserving

/-- A descriptor whose size fits a BIGINT survives both ways: the service finalizes the
descriptor that the client has, and the client restores the one that the service has, with
its layout id and the sources of each chunk. -/
theorem layouts_survive_wire (env : Environment) {d : ObjectLayoutDescriptor}
    (hsize : d.object.totalSize ≤ postgresBigintMax) :
    FinalizeRequest.parse json (finalizeRequestBody json d) = .ok d ∧
      ∀ plan, Restores env d plan →
        RestorePlanResponse.parse json plan.versionId (multiNodeRestorePlanBody json plan) =
          .ok plan :=
  ⟨finalizeRequest_roundTrip json hsize, fun _ h => restorePlan_roundTrip json
    (h.descriptor ▸ hsize) (h.descriptor ▸ h.objectId) (h.descriptor ▸ h.chunks)
    fun chunk hchunk => (h.sources chunk hchunk).2⟩

end

/-! ## A sample layout -/

namespace Sample

open Metadata.Sample

/-- A library whose texts are the parsed values. -/
def valueLibrary : JsonLibrary Json := ⟨id, fun text => some text.wire, fun _ => rfl⟩

def samplePlan : MultiNodeRestorePlan :=
  { artifactId := uuid 1
    versionId := versionId
    objectId := descriptor.objectId
    layoutId := descriptor.layoutId env
    layoutDescriptor := descriptor
    chunks := [⟨chunkId, 0, 1, [⟨"n1", "127.0.0.1", 9000⟩]⟩] }

end Sample

theorem layouts_survive_wire_sample :
    FinalizeRequest.parse Sample.valueLibrary
        (finalizeRequestBody Sample.valueLibrary Metadata.Sample.descriptor) =
      .ok Metadata.Sample.descriptor ∧
    RestorePlanResponse.parse Sample.valueLibrary Sample.samplePlan.versionId
        (multiNodeRestorePlanBody Sample.valueLibrary Sample.samplePlan) =
      .ok Sample.samplePlan := by
  have hwire := layouts_survive_wire Sample.valueLibrary Metadata.Sample.env
    (show Metadata.Sample.descriptor.object.totalSize ≤ postgresBigintMax by decide)
  refine ⟨hwire.1, hwire.2 Sample.samplePlan ⟨rfl, rfl, rfl, rfl, ?_⟩⟩
  simp [Sample.samplePlan, PortValid]

end AiArtifactStore.Wire
