import AiArtifactStore.Foundation.Contract
import AiArtifactStore.Wire.Fields
import AiArtifactStore.Wire.LayoutRoundTrip
import AiArtifactStore.Wire.PlanReplies

/-!
# Which bodies the client decodes as it should

A decoder should return a value that it read field by field from the body, or
fail with `RemoteProtocolError`.  For each decoder this module says for which
bodies it does: those in which no field that it reads unchecked is of the wrong
kind or invalid when its turn comes.
-/

namespace AiArtifactStore.Wire

open AiArtifactStore.Foundation
open AiArtifactStore.Foundation.Json
open AiArtifactStore.Identity
open AiArtifactStore.Metadata
open AiArtifactStore.Client

/-! ## Contracts -/

def IsProtocolError (e : ClientExc) : Prop := ∃ what, e = .remoteProtocol what

@[simp] theorem isProtocolError_remoteProtocol (what : String) :
    IsProtocolError (.remoteProtocol what) := ⟨what, rfl⟩

@[simp] theorem not_isProtocolError_runtimeError (what : String) :
    ¬IsProtocolError (.runtimeError what) := by rintro ⟨_, h⟩; cases h

@[simp] theorem not_isProtocolError_invalidArgument (what : String) :
    ¬IsProtocolError (.invalidArgument what) := by rintro ⟨_, h⟩; cases h

variable {Text : Type} (json : JsonLibrary Text)

def KeepsContract {α : Type} (read : Members → α → Prop) (body : Text)
    (result : Except ClientExc α) : Prop :=
  Within IsProtocolError
    (fun value => ∃ members, (json.parse body).bind asObject? = some members ∧
      read members value) result

/-! ## The restore plan of one node -/

structure ReadsRestorePlan (env : Environment) (members : Members) (plan : RestorePlan) :
    Prop where
  artifactId : Reads members "artifact_id" asUuid? plan.artifactId
  versionId : Reads members "version_id" asContentId? plan.versionId
  sourceNodeId : Reads members "source_node_id" asString? plan.sourceNodeId
  objectId : Reads members "object_id" asContentId? plan.layoutDescriptor.objectId
  layoutId : Reads members "layout_id" asContentId? (plan.layoutDescriptor.layoutId env)
  totalSize : Reads members "total_size_bytes" extractNonnegativeUint64
    plan.layoutDescriptor.object.totalSize
  chunking : ∃ strategy parameters, Reads members "chunking_strategy" asString? strategy ∧
    Reads members "chunking_parameters" asObject? parameters ∧
    SourceRestorePlanResponse.parseChunking strategy parameters =
      .ok plan.layoutDescriptor.chunking
  chunkCount : Reads members "chunk_count" extractNonnegativeUint64
    plan.layoutDescriptor.layout.chunks.length
  chunks : ReadsEach members "chunks" ReadsChunkRef plan.layoutDescriptor.layout.chunks

/-- Everything that `get_restore_plan` checks before it makes the artifact id. -/
structure ReachesArtifactId (versionId : ContentId) (sourceNodeId : String) (members : Members)
    (artifactIdText : String) : Prop where
  keys : hasExactKeys members
    ["version_id", "artifact_id", "source_node_id", "object_id", "total_size_bytes", "layout_id",
     "chunking_strategy", "chunking_parameters", "chunk_count", "chunks"] = true
  artifactId : Reads members "artifact_id" asString? artifactIdText
  versionId : Reads members "version_id" asString? versionId.hex
  sourceNodeId : Reads members "source_node_id" asString? sourceNodeId
  objectId : ∃ objectId, Reads members "object_id" asContentId? objectId
  layoutId : ∃ layoutId, Reads members "layout_id" asContentId? layoutId
  strategy : ∃ strategy, Reads members "chunking_strategy" asString? strategy
  parameters : ∃ parameters, Reads members "chunking_parameters" asObject? parameters
  totalSize : ∃ totalSize, Reads members "total_size_bytes" extractNonnegativeUint64 totalSize
  chunks : ∃ entries, Reads members "chunks" asArray? entries ∧
    Reads members "chunk_count" extractNonnegativeUint64 entries.length ∧
    ∀ entry ∈ entries, ∃ chunk, SourceRestorePlanResponse.parseChunk entry = .ok chunk

section

variable {json}

theorem sourceParseChunk_reads (entry : Json) :
    Within IsProtocolError (ReadsChunkRef entry) (SourceRestorePlanResponse.parseChunk entry) := by
  simp only [SourceRestorePlanResponse.parseChunk, within_bind, within_orFail, within_failIf,
    isProtocolError_remoteProtocol, within_ok]
  intro members hmembers _ text htext chunkId hchunkId offset hoffset size hsize
  exact ⟨members, hmembers, reads_iff.mpr ⟨text, htext, hchunkId⟩, hoffset, hsize⟩

theorem sourceParseChunking_within (strategy : String) (parameters : Members) :
    Within IsProtocolError (fun chunking =>
      SourceRestorePlanResponse.parseChunking strategy parameters = .ok chunking)
      (SourceRestorePlanResponse.parseChunking strategy parameters) := by
  unfold SourceRestorePlanResponse.parseChunking
  split
  · split <;> simp
  · split
    · simp only [within_orFail, isProtocolError_remoteProtocol]
      intro chunking hchunking
      rw [hchunking]
      rfl
    · simp

theorem sourceRestorePlan_contract (env : Environment) (versionId : ContentId)
    (sourceNodeId : String) (body : Text) :
    KeepsContract json (ReadsRestorePlan env) body
        (SourceRestorePlanResponse.parse json env versionId sourceNodeId body) ↔
      ∀ members artifactIdText, (json.parse body).bind asObject? = some members →
        ReachesArtifactId versionId sourceNodeId members artifactIdText →
        ∃ artifactId, UuidV7.parse artifactIdText = .ok artifactId := by
  simp only [KeepsContract, SourceRestorePlanResponse.parse, SourceRestorePlanResponse.typedField,
    SourceRestorePlanResponse.domain, within_bind, within_orFail, within_failIf, within_mapEach,
    within_mapError, within_mapError_escape, isProtocolError_remoteProtocol,
    not_isProtocolError_invalidArgument, not_not, not_false_eq_true, implies_true, within_ok]
  constructor
  · intro h members artifactIdText hmembers hreach
    obtain ⟨objectId, hobject⟩ := hreach.objectId
    obtain ⟨layoutId, hlayout⟩ := hreach.layoutId
    obtain ⟨objectIdText, hobjectText, hobject⟩ := reads_iff.mp hobject
    obtain ⟨layoutIdText, hlayoutText, hlayout⟩ := reads_iff.mp hlayout
    obtain ⟨strategy, hstrategy⟩ := hreach.strategy
    obtain ⟨parameters, hparameters⟩ := hreach.parameters
    obtain ⟨totalSize, htotal⟩ := hreach.totalSize
    obtain ⟨entries, hentries, hcount, hchunks⟩ := hreach.chunks
    obtain ⟨chunks, hparsed⟩ := exists_mapEach_ok hchunks
    have hread := h members hmembers hreach.keys _ hreach.versionId _ hreach.artifactId _
      hreach.sourceNodeId _ hobjectText _ hlayoutText _ hstrategy _ hparameters _ hentries rfl rfl
      _ hobject _ hlayout _ htotal _ hcount rfl
    obtain ⟨artifactId, hartifact, -⟩ := hread.2 chunks hparsed
    exact ⟨artifactId, hartifact⟩
  · intro h members hmembers hkeys versionText hversion artifactIdText hartifact _ hsource
      objectIdText hobjectText layoutIdText hlayoutText strategy hstrategy parameters hparameters
      entries hentries hsame hsameSource objectId hobject layoutId hlayout totalSize htotal
      chunkCount hcount hlength
    subst hsame hsameSource hlength
    have hobjectId := reads_iff.mpr ⟨objectIdText, hobjectText, hobject⟩
    have hlayoutId := reads_iff.mpr ⟨layoutIdText, hlayoutText, hlayout⟩
    refine ⟨upToFailure_of_forall fun entry _ => ?_, fun chunks hchunks => ?_⟩
    · exact within_mono (sourceParseChunk_reads entry) fun _ _ => trivial
    have hentry : ∀ entry ∈ entries, ∃ chunk,
        SourceRestorePlanResponse.parseChunk entry = .ok chunk := fun entry hentry => by
      obtain ⟨chunk, -, hchunk⟩ := mapEach_mem hchunks hentry
      exact ⟨chunk, hchunk⟩
    obtain ⟨artifactId, hartifactId⟩ := h members artifactIdText hmembers
      ⟨hkeys, hartifact, hversion, hsource, ⟨_, hobjectId⟩, ⟨_, hlayoutId⟩, ⟨_, hstrategy⟩,
        ⟨_, hparameters⟩, ⟨_, htotal⟩, entries, hentries, hcount, hentry⟩
    refine ⟨artifactId, hartifactId, fun layout hmake => ?_⟩
    refine within_mono (sourceParseChunking_within strategy parameters) ?_
    intro chunking hchunking descriptor hdescriptor hsameObject hsameLayout hsameSize
    obtain ⟨-, rfl, hlayoutFields⟩ := ObjectLayoutDescriptor.fields_of_make hdescriptor
    have hrefs : descriptor.layout.chunks = chunks := by
      rw [hlayoutFields, ObjectLayout.chunks_of_make hmake]
    have hparsed := mapEach_eq_ok_iff.mp hchunks
    rw [hparsed.length_eq, ← hrefs] at hcount
    subst hsameObject hsameLayout hsameSize
    have hchunksRead : List.Forall₂ ReadsChunkRef entries descriptor.layout.chunks :=
      hrefs ▸ hparsed.imp fun entry chunk => (sourceParseChunk_reads entry).of_ok
    exact ⟨members, hmembers, reads_iff.mpr ⟨_, hartifact, by rw [hartifactId]; rfl⟩,
      reads_iff.mpr ⟨_, hversion, ContentId.ofHex?_hex versionId⟩, hsource, hobjectId, hlayoutId,
      htotal, ⟨_, _, hstrategy, hparameters, hchunking⟩, hcount, entries, hentries, hchunksRead⟩

end

/-! ## The restore plan of several nodes -/

def ReadsChunkSources (entry : Json) (chunk : RestoreChunkSources) : Prop :=
  ∃ members, entry.asObject? = some members ∧
    Reads members "chunk_id" asContentId? chunk.chunkId ∧
    Reads members "offset" extractNonnegativeUint64 chunk.offset ∧
    Reads members "size_bytes" extractPositiveUint64 chunk.sizeBytes ∧
    ReadsEach members "sources" ReadsEndpoint chunk.sources

def SourceIdsValid (chunks : List RestoreChunkSources) : Prop :=
  ∀ chunk ∈ chunks, ∀ source ∈ chunk.sources, nodeIdInvalid source.nodeId = false

structure ReadsMultiNodePlan (members : Members) (plan : MultiNodeRestorePlan) : Prop where
  artifactId : Reads members "artifact_id" asUuid? plan.artifactId
  versionId : Reads members "version_id" asContentId? plan.versionId
  objectId : Reads members "object_id" asContentId? plan.objectId
  layoutId : Reads members "layout_id" asContentId? plan.layoutId
  object : plan.layoutDescriptor.objectId = plan.objectId
  totalSize : Reads members "total_size_bytes" extractNonnegativeUint64
    plan.layoutDescriptor.object.totalSize
  chunking : ∃ strategy parameters, Reads members "chunking_strategy" asString? strategy ∧
    Reads members "chunking_parameters" asObject? parameters ∧
    RestorePlanResponse.parseChunking strategy parameters = .ok plan.layoutDescriptor.chunking
  chunkCount : Reads members "chunk_count" extractNonnegativeUint64 plan.chunks.length
  chunks : ReadsEach members "chunks" ReadsChunkSources plan.chunks
  refs : plan.layoutDescriptor.layout.chunks = plan.chunks.map RestorePlanResponse.chunkRef
  sourceIds : SourceIdsValid plan.chunks

/-- No field that `get_multi_node_restore_plan` reads unchecked is missing or of another kind
when its turn comes, and the node ids of a plan that it returns are valid. -/
def MultiNodePlanReadable (versionId : ContentId) (members : Members) : Prop :=
  ∃ versionText, Reads members "version_id" asString? versionText ∧ (versionText = versionId.hex →
    ∃ objectIdText, Reads members "object_id" asString? objectIdText ∧
    ∃ layoutIdText, Reads members "layout_id" asString? layoutIdText ∧
      ∀ objectId, ContentId.ofHex? objectIdText = some objectId →
      ∀ layoutId, ContentId.ofHex? layoutIdText = some layoutId →
        ∃ strategy, Reads members "chunking_strategy" asString? strategy ∧
        ∃ parameters, Reads members "chunking_parameters" asObject? parameters ∧
          ∀ totalSize, Reads members "total_size_bytes" extractNonnegativeUint64 totalSize →
          ∀ chunkCount, Reads members "chunk_count" extractNonnegativeUint64 chunkCount →
            ∃ entries, Reads members "chunks" asArray? entries ∧ (chunkCount = entries.length →
              ∀ chunks, mapEach entries RestorePlanResponse.parseChunk = .ok chunks →
                ∃ artifactIdText, Reads members "artifact_id" asString? artifactIdText ∧
                ∃ artifactId, UuidV7.parse artifactIdText = .ok artifactId ∧
                  ∀ layout, ObjectLayout.make (chunks.map RestorePlanResponse.chunkRef) =
                    .ok layout →
                  ∀ chunking, RestorePlanResponse.parseChunking strategy parameters =
                    .ok chunking →
                  ∀ descriptor, ObjectLayoutDescriptor.make ⟨objectId, totalSize⟩ chunking layout =
                    .ok descriptor →
                    SourceIdsValid chunks))

section

variable {json}

theorem parseSource_reads (entry : Json) :
    Within IsProtocolError (ReadsEndpoint entry) (RestorePlanResponse.parseSource entry) := by
  simp only [RestorePlanResponse.parseSource, within_bind, within_orFail, within_failIf,
    isProtocolError_remoteProtocol, within_ok]
  intro members hmembers _ nodeId hnodeId address haddress port hport hrange
  exact ⟨members, hmembers, hnodeId, haddress,
    reads_filter_iff.mpr ⟨hport, decide_eq_true (Nat.not_lt.mp hrange)⟩⟩

theorem parseChunkSources_reads (entry : Json) :
    Within IsProtocolError (ReadsChunkSources entry) (RestorePlanResponse.parseChunk entry) := by
  simp only [RestorePlanResponse.parseChunk, within_bind, within_orFail, within_failIf,
    within_mapEach, isProtocolError_remoteProtocol, within_ok]
  intro members hmembers _ text htext entries hentries chunkId hchunkId offset hoffset size hsize
  refine ⟨upToFailure_of_forall fun source _ =>
    within_mono (parseSource_reads source) fun _ _ => trivial, fun sources hsources => ?_⟩
  have hread := (mapEach_eq_ok_iff.mp hsources).imp fun source endpoint =>
    (parseSource_reads source).of_ok
  exact ⟨members, hmembers, reads_iff.mpr ⟨text, htext, hchunkId⟩, hoffset, hsize, entries,
    hentries, hread⟩

theorem parseChunking_within (strategy : String) (parameters : Members) :
    Within IsProtocolError (fun _ => True)
      (RestorePlanResponse.parseChunking strategy parameters) := by
  unfold RestorePlanResponse.parseChunking
  split
  · split <;> simp
  · split <;> simp [within_orFail]

theorem multiNodePlan_contract (versionId : ContentId) (body : Text) :
    KeepsContract json ReadsMultiNodePlan body
        (RestorePlanResponse.parse json versionId body) ↔
      ∀ members, (json.parse body).bind asObject? = some members →
        hasExactKeys members
          ["version_id", "artifact_id", "object_id", "total_size_bytes", "layout_id",
           "chunking_strategy", "chunking_parameters", "chunk_count", "chunks"] = true →
        MultiNodePlanReadable versionId members := by
  simp only [KeepsContract, RestorePlanResponse.parse, RestorePlanResponse.field,
    RestorePlanResponse.domain, within_bind, within_orFail, within_orFail_escape, within_failIf,
    within_mapEach, within_mapError, within_mapError_escape, isProtocolError_remoteProtocol,
    not_isProtocolError_invalidArgument, not_isProtocolError_runtimeError, not_not,
    not_false_eq_true, implies_true, within_ok]
  refine forall_congr' fun members => imp_congr_right fun hmembers =>
    imp_congr_right fun hkeys => ?_
  refine exists_congr fun versionText => and_congr_right fun hversion =>
    imp_congr_right fun hsame => ?_
  refine exists_congr fun objectIdText => and_congr_right fun hobjectText => ?_
  refine exists_congr fun layoutIdText => and_congr_right fun hlayoutText => ?_
  refine forall_congr' fun objectId => imp_congr_right fun hobject => ?_
  refine forall_congr' fun layoutId => imp_congr_right fun hlayout => ?_
  refine exists_congr fun strategy => and_congr_right fun hstrategy => ?_
  refine exists_congr fun parameters => and_congr_right fun hparameters => ?_
  refine forall_congr' fun totalSize => imp_congr_right fun htotal => ?_
  refine forall_congr' fun chunkCount => imp_congr_right fun hcount => ?_
  refine exists_congr fun entries => and_congr_right fun hentries =>
    imp_congr_right fun hlength => ?_
  rw [and_iff_right (upToFailure_of_forall fun entry _ =>
    within_mono (parseChunkSources_reads entry) fun _ _ => trivial)]
  refine forall_congr' fun chunks => imp_congr_right fun hchunks => ?_
  refine exists_congr fun artifactIdText => and_congr_right fun hartifact => ?_
  refine exists_congr fun artifactId => and_congr_right fun hartifactId => ?_
  refine forall_congr' fun layout => imp_congr_right fun hmake => ?_
  rw [within_iff_of_allowed (parseChunking_within strategy parameters)]
  refine forall_congr' fun chunking => imp_congr_right fun hchunking => ?_
  refine forall_congr' fun descriptor => imp_congr_right fun hdescriptor => ?_
  constructor
  · rintro ⟨_, -, hread⟩
    exact hread.sourceIds
  · intro hids
    obtain ⟨hfields, rfl, rfl⟩ := ObjectLayoutDescriptor.fields_of_make hdescriptor
    have hparsed := mapEach_eq_ok_iff.mp hchunks
    have hchunksRead := hparsed.imp fun entry chunk => (parseChunkSources_reads entry).of_ok
    subst hsame hlength
    rw [hparsed.length_eq] at hcount
    exact ⟨members, hmembers, reads_iff.mpr ⟨_, hartifact, by rw [hartifactId]; rfl⟩,
      reads_iff.mpr ⟨_, hversion, ContentId.ofHex?_hex versionId⟩,
      reads_iff.mpr ⟨_, hobjectText, hobject⟩, reads_iff.mpr ⟨_, hlayoutText, hlayout⟩,
      congrArg StoredObject.objectId hfields, hfields ▸ htotal,
      ⟨_, _, hstrategy, hparameters, hchunking⟩, hcount, ⟨entries, hentries, hchunksRead⟩,
      ObjectLayout.chunks_of_make hmake, hids⟩

end

/-! ## Replication runs -/

def ContentIdText (text : String) : Prop := ∃ id, ContentId.ofHex? text = some id

def ReceivedRun.IdsValid (run : ReceivedRun) : Prop :=
  ContentIdText run.versionId ∧ ContentIdText run.layoutId ∧
    ∀ nodeId ∈ run.placementNodeIds, nodeIdInvalid nodeId = false

structure ReadsRun (members : Members) (run : ReceivedRun) : Prop where
  runId : Reads members "replication_run_id" asUuid? run.runId
  versionId : Reads members "version_id" asString? run.versionId
  layoutId : Reads members "layout_id" asString? run.layoutId
  replicationFactor : Reads members "replication_factor" asFactor? run.replicationFactor
  placementNodeIds : ReadsEach members "placement_node_ids" ReadsText run.placementNodeIds
  state : ∃ text, Reads members "state" asString? text ∧
    ReplicationRunResponse.runStateFromString text = .ok run.state
  stats : ReadsStats members run.stats
  ids : run.IdsValid

structure ReachesRunId (members : Members) (run : ReceivedRun) (runIdText stateText : String) :
    Prop where
  keys : hasExactKeys members
    ["replication_run_id", "version_id", "layout_id", "replication_factor", "placement_node_ids",
     "state", "chunks_scanned", "chunks_under_replicated", "replicas_verified",
     "replicas_written", "bytes_copied", "source_failovers"] = true
  runIdText : Reads members "replication_run_id" asString? runIdText
  versionId : Reads members "version_id" asString? run.versionId
  layoutId : Reads members "layout_id" asString? run.layoutId
  replicationFactor : Reads members "replication_factor" asFactor? run.replicationFactor
  placementNodeIds : ReadsEach members "placement_node_ids" ReadsText run.placementNodeIds
  stateText : Reads members "state" asString? stateText

section

variable {json}

theorem runState_within (text : String) :
    Within IsProtocolError (fun _ => True) (ReplicationRunResponse.runStateFromString text) := by
  unfold ReplicationRunResponse.runStateFromString
  split
  · trivial
  · split <;> simp

theorem replicationRun_contract (runId : UuidV7) (body : Text) :
    KeepsContract json ReadsRun body (ReplicationRunResponse.parse json runId body) ↔
      ∀ members run runIdText stateText, (json.parse body).bind asObject? = some members →
        ReachesRunId members run runIdText stateText →
        ∃ received, UuidV7.parse runIdText = .ok received ∧
          (ReplicationRunResponse.runStateFromString stateText = .ok run.state →
            ReadsStats members run.stats → received = runId → run.IdsValid) := by
  simp only [KeepsContract, ReplicationRunResponse.parse, ReplicationRunResponse.parseRun,
    ReplicationRunResponse.typedField, ReplicationRunResponse.extractStat, within_bind,
    within_orFail, within_failIf, within_mapEach, within_mapError_escape,
    isProtocolError_remoteProtocol, not_isProtocolError_invalidArgument, not_not,
    not_false_eq_true, implies_true, within_ok]
  constructor
  · intro h members run runIdText stateText hmembers hreach
    obtain ⟨entries, hentries, hnodes⟩ := hreach.placementNodeIds
    obtain ⟨hfactor, hrange⟩ := reads_filter_iff.mp hreach.replicationFactor
    have hnodes : mapEach entries (fun entry => orFail entry.asString?
        (ClientExc.remoteProtocol "replication run placement_node_ids must be strings")) =
          .ok run.placementNodeIds :=
      mapEach_eq_ok_iff.mpr (hnodes.imp fun entry text htext => orFail_eq_ok.mpr htext)
    have hread := (h members hmembers hreach.keys _ hreach.runIdText _ hreach.versionId _
      hreach.layoutId _ hentries _ hreach.stateText _ hfactor
      (Nat.not_lt.mpr (of_decide_eq_true hrange))).2 _ hnodes
    obtain ⟨received, hreceived, hread⟩ := hread
    refine ⟨received, hreceived, fun hstate hstats hsame => ?_⟩
    obtain ⟨hscanned, hunder, hverified, hwritten, hbytes, hfailovers⟩ := hstats
    have hread := hread.of_ok hstate _ hscanned _ hunder _ hverified _ hwritten _ hbytes _
      hfailovers hsame
    obtain ⟨_, -, hread⟩ := hread
    exact hread.ids
  · intro h members hmembers hkeys runIdText hrunId versionId hversion layoutId hlayout entries
      hentries stateText hstateText factor hfactor hrange
    refine ⟨upToFailure_of_forall fun entry _ => by simp, fun nodeIds hnodes => ?_⟩
    have hnodes : List.Forall₂ ReadsText entries nodeIds :=
      (mapEach_eq_ok_iff.mp hnodes).imp fun entry text htext => orFail_eq_ok.mp htext
    have hfactor : Reads members "replication_factor" asFactor? factor :=
      reads_filter_iff.mpr ⟨hfactor, decide_eq_true (Nat.not_lt.mp hrange)⟩
    have hreach : ∀ state stats, ReachesRunId members
        ⟨runId, versionId, layoutId, factor, nodeIds, state, stats⟩ runIdText stateText :=
      fun _ _ => ⟨hkeys, hrunId, hversion, hlayout, hfactor, ⟨entries, hentries, hnodes⟩,
        hstateText⟩
    obtain ⟨received, hreceived, -⟩ := h members _ _ _ hmembers (hreach .open .zero)
    refine ⟨received, hreceived, ?_⟩
    rw [within_iff_of_allowed (runState_within stateText)]
    intro state hstate scanned hscanned under hunder verified hverified written hwritten bytes
      hbytes failovers hfailovers hsame
    have hstats : ReadsStats members ⟨scanned, under, verified, written, bytes, failovers⟩ :=
      ⟨hscanned, hunder, hverified, hwritten, hbytes, hfailovers⟩
    obtain ⟨again, hagain, hids⟩ := h members _ _ _ hmembers (hreach state _)
    obtain rfl := Except.ok.inj (hreceived.symm.trans hagain)
    exact ⟨members, hmembers, reads_iff.mpr ⟨runIdText, hrunId, by rw [hreceived]; rfl⟩, hversion,
      hlayout, hfactor, ⟨entries, hentries, hnodes⟩, ⟨stateText, hstateText, hstate⟩, hstats,
      hids hstate hstats hsame⟩

end

/-! ## Replication plans -/

def ReadsChunkPlan (entry : Json) (chunk : ReceivedChunkPlan) : Prop :=
  ∃ members, entry.asObject? = some members ∧ Reads members "chunk_id" asString? chunk.chunkId ∧
    Reads members "offset" extractNonnegativeUint64 chunk.offset ∧
    Reads members "size_bytes" extractPositiveUint64 chunk.sizeBytes ∧
    ReadsEach members "source_nodes" ReadsEndpoint chunk.sourceNodes ∧
    ReadsEach members "desired_node_ids" ReadsText chunk.desiredNodeIds ∧
    ReadsEach members "target_nodes" ReadsEndpoint chunk.targetNodes

structure ReceivedChunkPlan.IdsValid (chunk : ReceivedChunkPlan) : Prop where
  chunkId : ContentIdText chunk.chunkId
  sourceNodes : ∀ node ∈ chunk.sourceNodes, nodeIdInvalid node.nodeId = false
  desiredNodeIds : ∀ nodeId ∈ chunk.desiredNodeIds, nodeIdInvalid nodeId = false
  targetNodes : ∀ node ∈ chunk.targetNodes, nodeIdInvalid node.nodeId = false

structure ReceivedPlan.IdsValid (plan : ReceivedPlan) : Prop where
  versionId : ContentIdText plan.versionId
  layoutId : ContentIdText plan.layoutId
  placementNodeIds : ∀ nodeId ∈ plan.placementNodeIds, nodeIdInvalid nodeId = false
  chunks : ∀ chunk ∈ plan.chunks, chunk.IdsValid

structure ReadsReplicationPlan (members : Members) (plan : ReceivedPlan) : Prop where
  runId : Reads members "replication_run_id" asUuid? plan.runId
  versionId : Reads members "version_id" asString? plan.versionId
  layoutId : Reads members "layout_id" asString? plan.layoutId
  replicationFactor : Reads members "replication_factor" asFactor? plan.replicationFactor
  placementNodeIds : ReadsEach members "placement_node_ids" ReadsText plan.placementNodeIds
  chunks : ReadsEach members "chunks" ReadsChunkPlan plan.chunks
  ids : plan.IdsValid

def IsEndpoint (entry : Json) : Prop :=
  ∃ endpoint, ReplicationPlanResponse.parseNode entry = .ok endpoint

def EndpointsReadable (entries : List Json) : Prop :=
  UpToFailure IsEndpoint (fun entry => ∃ members, entry.asObject? = some members) entries

/-- Nothing in a chunk entry is missing or of another kind when it is read. -/
def ChunkPlanReadable (entry : Json) : Prop :=
  ∃ members, entry.asObject? = some members ∧
    ∃ chunkId, Reads members "chunk_id" asString? chunkId ∧
    ∃ offset, Reads members "offset" some offset ∧
    ∃ sizeBytes, Reads members "size_bytes" some sizeBytes ∧
    ∃ sourceEntries, Reads members "source_nodes" asArray? sourceEntries ∧
      EndpointsReadable sourceEntries ∧ ((∀ source ∈ sourceEntries, IsEndpoint source) →
        ∃ desiredEntries, Reads members "desired_node_ids" asArray? desiredEntries ∧
        ∃ desiredNodeIds, List.Forall₂ ReadsText desiredEntries desiredNodeIds ∧
        ∃ targetEntries, Reads members "target_nodes" asArray? targetEntries ∧
          EndpointsReadable targetEntries)

def ChunkPlanSized (entry : Json) : Prop :=
  ∃ members, entry.asObject? = some members ∧
    (∃ offset, Reads members "offset" extractNonnegativeUint64 offset) ∧
      ∃ sizeBytes, Reads members "size_bytes" extractPositiveUint64 sizeBytes

/-- No field that `get_replication_plan` reads unchecked is missing or of another kind when its
turn comes, and in a plan that it returns the sizes are those of the body and the ids valid. -/
def ReplicationPlanReadable (members : Members) : Prop :=
  ∃ nodeEntries, Reads members "placement_node_ids" asArray? nodeEntries ∧
    ∃ nodeIds, List.Forall₂ ReadsText nodeEntries nodeIds ∧
    ∃ chunkEntries, Reads members "chunks" asArray? chunkEntries ∧
      UpToFailure (fun entry => ∃ chunk, ReplicationPlanResponse.parseChunk entry = .ok chunk)
        ChunkPlanReadable chunkEntries ∧
      ∀ chunks, mapEach chunkEntries ReplicationPlanResponse.parseChunk = .ok chunks →
        ∃ runIdText, Reads members "replication_run_id" asString? runIdText ∧
        ∃ runId, UuidV7.parse runIdText = .ok runId ∧
        ∃ versionId, Reads members "version_id" asString? versionId ∧
        ∃ layoutId, Reads members "layout_id" asString? layoutId ∧
          (∀ entry ∈ chunkEntries, ChunkPlanSized entry) ∧
          ContentIdText versionId ∧ ContentIdText layoutId ∧
          (∀ nodeId ∈ nodeIds, nodeIdInvalid nodeId = false) ∧ ∀ chunk ∈ chunks, chunk.IdsValid

section

variable {json}

theorem element_escape {entry : Json} {e : ClientExc}
    (h : ReplicationPlanResponse.element asString? entry = .error e) : ¬IsProtocolError e := by
  unfold ReplicationPlanResponse.element at h
  cases htext : entry.asString? with
  | none =>
      rw [htext, orFail_none] at h
      exact Except.error.inj h ▸ not_isProtocolError_runtimeError _
  | some text => simp [htext] at h

theorem element_eq_ok {entry : Json} {text : String} :
    ReplicationPlanResponse.element asString? entry = .ok text ↔ ReadsText entry text := by
  rw [ReplicationPlanResponse.element, orFail_eq_ok, ReadsText]

theorem parseNode_within (entry : Json) :
    Within IsProtocolError (ReadsEndpoint entry) (ReplicationPlanResponse.parseNode entry) ↔
      ∃ members, entry.asObject? = some members := by
  simp only [ReplicationPlanResponse.parseNode, ReplicationPlanResponse.parseEndpoint,
    ReplicationPlanResponse.element, within_bind, within_orFail, within_orFail_escape,
    within_failIf, isProtocolError_remoteProtocol, not_isProtocolError_runtimeError,
    not_false_eq_true, within_ok]
  refine exists_congr fun members => and_iff_left_of_imp fun hmembers => ?_
  intro _ nodeId hnodeId address haddress port hport hrange
  exact ⟨members, hmembers, hnodeId, haddress,
    reads_filter_iff.mpr ⟨hport, decide_eq_true (Nat.not_lt.mp hrange)⟩⟩

theorem parseNode_readable (entry : Json) :
    Within IsProtocolError (fun _ => True) (ReplicationPlanResponse.parseNode entry) ↔
      ∃ members, entry.asObject? = some members := by
  constructor
  · intro h
    cases hobject : entry.asObject? with
    | none =>
        rw [ReplicationPlanResponse.parseNode, ReplicationPlanResponse.element, hobject,
          within_bind] at h
        exact absurd h (not_isProtocolError_runtimeError _)
    | some members => exact ⟨members, rfl⟩
  · intro h
    exact within_mono ((parseNode_within entry).mpr h) fun _ _ => trivial

theorem parseNode_reads {entry : Json} {endpoint : NodeEndpoint}
    (h : ReplicationPlanResponse.parseNode entry = .ok endpoint) : ReadsEndpoint entry endpoint := by
  have hreadable := (parseNode_readable entry).mp (by rw [h]; trivial)
  exact ((parseNode_within entry).mpr hreadable).of_ok h

theorem parseChunkPlan_within (entry : Json) :
    Within IsProtocolError (fun _ => True) (ReplicationPlanResponse.parseChunk entry) ↔
      ChunkPlanReadable entry := by
  have hescape : ∀ entry e, ReplicationPlanResponse.element asString? entry = .error e →
      ¬IsProtocolError e := fun _ _ => element_escape
  simp only [ReplicationPlanResponse.parseChunk, RestorePlanResponse.field, within_bind,
    within_orFail_escape, within_mapEach_escape hescape, within_mapEach, element_eq_ok,
    parseNode_readable, forall_mapEach_ok,
    not_isProtocolError_runtimeError, not_false_eq_true, implies_true, within_ok, and_true]
  rw [ReplicationPlanResponse.element,
    within_orFail_escape (not_isProtocolError_runtimeError _)]
  exact Iff.rfl

theorem parseChunkPlan_reads {entry : Json} {chunk : ReceivedChunkPlan}
    (h : ReplicationPlanResponse.parseChunk entry = .ok chunk) :
    ReadsChunkPlan entry chunk ↔ ChunkPlanSized entry := by
  simp only [ReplicationPlanResponse.parseChunk, RestorePlanResponse.field,
    ReplicationPlanResponse.element, bind_eq_ok, orFail_eq_ok] at h
  obtain ⟨members, hmembers, chunkId, hchunkId, offset, hoffset, sizeBytes, hsize, sourceEntries,
    hsources, sourceNodes, hsourceNodes, desiredEntries, hdesired, desiredNodeIds, hdesiredIds,
    targetEntries, htargets, targetNodes, htargetNodes, h⟩ := h
  obtain rfl := Except.ok.inj h
  constructor
  · rintro ⟨members', hmembers', -, hoffset', hsize', -⟩
    exact ⟨members', hmembers', ⟨_, hoffset'⟩, _, hsize'⟩
  · rintro ⟨members', hmembers', ⟨offset', hoffset'⟩, sizeBytes', hsize'⟩
    obtain rfl := Option.some.inj (hmembers.symm.trans hmembers')
    have hoffset := reads_some hoffset hoffset'
    have hsize := reads_some hsize hsize'
    refine ⟨members, hmembers, hchunkId, ?_, ?_, ⟨_, hsources, ?_⟩, ⟨_, hdesired, ?_⟩, _, htargets,
      ?_⟩
    · rwa [hoffset, Option.getD_some]
    · rwa [hsize, Option.getD_some]
    · exact (mapEach_eq_ok_iff.mp hsourceNodes).imp fun _ _ => parseNode_reads
    · exact (mapEach_eq_ok_iff.mp hdesiredIds).imp fun _ _ htext => orFail_eq_ok.mp htext
    · exact (mapEach_eq_ok_iff.mp htargetNodes).imp fun _ _ => parseNode_reads

theorem replicationPlan_contract (body : Text) :
    KeepsContract json ReadsReplicationPlan body (ReplicationPlanResponse.parse json body) ↔
      ∀ members, (json.parse body).bind asObject? = some members →
        (∀ key ∈ ["replication_run_id", "version_id", "layout_id", "replication_factor",
          "placement_node_ids", "chunks"], (members.lookup key).isSome = true) →
        ∀ factor, Reads members "replication_factor" asFactor? factor →
        ReplicationPlanReadable members := by
  have hescape : ∀ entry e, ReplicationPlanResponse.element asString? entry = .error e →
      ¬IsProtocolError e := fun _ _ => element_escape
  simp only [KeepsContract, ReplicationPlanResponse.parse, RestorePlanResponse.field,
    within_bind, within_orFail, within_orFail_escape, within_failIf,
    within_mapEach_escape hescape, within_mapEach, within_mapError_escape, element_eq_ok,
    parseChunkPlan_within, isProtocolError_remoteProtocol,
    not_isProtocolError_invalidArgument, not_isProtocolError_runtimeError, not_not,
    not_false_eq_true, implies_true, within_ok]
  refine forall_congr' fun members => imp_congr_right fun hmembers =>
    imp_congr_right fun hkeys => forall_congr' fun factor => ?_
  have hreads : Reads members "replication_factor" asFactor? factor ↔
      Reads members "replication_factor" extractPositiveUint64 factor ∧
        decide (factor ≤ 8) = true := reads_filter_iff
  rw [hreads, and_imp, decide_eq_true_iff, ← Nat.not_lt]
  refine imp_congr_right fun hfactor => imp_congr_right fun hrange => ?_
  refine exists_congr fun nodeEntries => and_congr_right fun hnodeEntries => ?_
  refine exists_congr fun nodeIds => and_congr_right fun hnodeIds => ?_
  refine exists_congr fun chunkEntries => and_congr_right fun hchunkEntries =>
    and_congr_right fun _ => ?_
  refine forall_congr' fun chunks => imp_congr_right fun hchunks => ?_
  refine exists_congr fun runIdText => and_congr_right fun hrunIdText => ?_
  refine exists_congr fun runId => and_congr_right fun hrunId => ?_
  refine exists_congr fun versionId => and_congr_right fun hversion => ?_
  refine exists_congr fun layoutId => and_congr_right fun hlayout => ?_
  have hchunksRead : List.Forall₂ ReadsChunkPlan chunkEntries chunks ↔
      ∀ entry ∈ chunkEntries, ChunkPlanSized entry :=
    forall₂_mapEach_iff hchunks fun _ _ hchunk => parseChunkPlan_reads hchunk
  constructor
  · rintro ⟨members', hmembers', hread⟩
    obtain rfl := Option.some.inj (hmembers.symm.trans hmembers')
    obtain ⟨entries, hentries, hread'⟩ := hread.chunks
    obtain rfl := Option.some.inj (hchunkEntries.symm.trans hentries)
    exact ⟨hchunksRead.mp hread', hread.ids.versionId, hread.ids.layoutId,
      hread.ids.placementNodeIds, hread.ids.chunks⟩
  · rintro ⟨hsized, hversionId, hlayoutId, hnodes, hids⟩
    have hfactorRead := hreads.mpr ⟨hfactor, decide_eq_true (Nat.not_lt.mp hrange)⟩
    exact ⟨members, hmembers, reads_iff.mpr ⟨runIdText, hrunIdText, by rw [hrunId]; rfl⟩, hversion,
      hlayout, hfactorRead, ⟨_, hnodeEntries, hnodeIds⟩, ⟨_, hchunkEntries, hchunksRead.mpr hsized⟩,
      hversionId, hlayoutId, hnodes, hids⟩

end

/-! ## All decoders -/

/-- Each decoder keeps its contract on exactly the bodies whose unchecked fields are as it
expects. -/
theorem decoders_keep_contract_iff (env : Environment) (body : Text) :
    (∀ versionId sourceNodeId,
      KeepsContract json (ReadsRestorePlan env) body
          (SourceRestorePlanResponse.parse json env versionId sourceNodeId body) ↔
        ∀ members artifactIdText, (json.parse body).bind asObject? = some members →
          ReachesArtifactId versionId sourceNodeId members artifactIdText →
          ∃ artifactId, UuidV7.parse artifactIdText = .ok artifactId) ∧
    (∀ versionId,
      KeepsContract json ReadsMultiNodePlan body (RestorePlanResponse.parse json versionId body) ↔
        ∀ members, (json.parse body).bind asObject? = some members →
          hasExactKeys members
            ["version_id", "artifact_id", "object_id", "total_size_bytes", "layout_id",
             "chunking_strategy", "chunking_parameters", "chunk_count", "chunks"] = true →
          MultiNodePlanReadable versionId members) ∧
    (∀ runId,
      KeepsContract json ReadsRun body (ReplicationRunResponse.parse json runId body) ↔
        ∀ members run runIdText stateText, (json.parse body).bind asObject? = some members →
          ReachesRunId members run runIdText stateText →
          ∃ received, UuidV7.parse runIdText = .ok received ∧
            (ReplicationRunResponse.runStateFromString stateText = .ok run.state →
              ReadsStats members run.stats → received = runId → run.IdsValid)) ∧
    (KeepsContract json ReadsReplicationPlan body (ReplicationPlanResponse.parse json body) ↔
      ∀ members, (json.parse body).bind asObject? = some members →
        (∀ key ∈ ["replication_run_id", "version_id", "layout_id", "replication_factor",
          "placement_node_ids", "chunks"], (members.lookup key).isSome = true) →
        ∀ factor, Reads members "replication_factor" asFactor? factor →
        ReplicationPlanReadable members) :=
  ⟨fun versionId sourceNodeId => sourceRestorePlan_contract env versionId sourceNodeId body,
    fun versionId => multiNodePlan_contract versionId body,
    fun runId => replicationRun_contract runId body, replicationPlan_contract body⟩

/-! ## A size that is not in the body -/

namespace Sample

open Metadata.Sample

def mistypedChunk : Members :=
  [("chunk_id", .string chunkId.hex), ("offset", .int64 0), ("size_bytes", .string "large"),
   ("source_nodes", .array []), ("desired_node_ids", .array []), ("target_nodes", .array [])]

/-- A replication plan whose chunk states its size as a text. -/
def mistypedPlan : Json :=
  .object
    [("replication_run_id", .string (uuid 1).str), ("version_id", .string versionId.hex),
     ("layout_id", .string versionId.hex), ("replication_factor", .int64 2),
     ("placement_node_ids", .array []), ("chunks", .array [.object mistypedChunk])]

def inventedPlan : ReceivedPlan :=
  { runId := uuid 1
    versionId := versionId.hex
    layoutId := versionId.hex
    replicationFactor := 2
    placementNodeIds := []
    chunks := [⟨chunkId.hex, 0, 0, [], [], []⟩] }

/-- A multi-node restore plan whose version id is null. -/
def nullVersionPlan : Json :=
  .object
    [("version_id", .null), ("artifact_id", .null), ("object_id", .null),
     ("total_size_bytes", .null), ("layout_id", .null), ("chunking_strategy", .null),
     ("chunking_parameters", .null), ("chunk_count", .null), ("chunks", .null)]

end Sample

section

open Sample Metadata.Sample

theorem parse_mistypedPlan : valueLibrary.parse mistypedPlan = some mistypedPlan := by
  simp [valueLibrary, mistypedPlan, mistypedChunk, wire, wireMembers, wireElements]

theorem mistypedPlan_accepted :
    ReplicationPlanResponse.parse valueLibrary mistypedPlan = .ok inventedPlan := by
  have hchunk : ReplicationPlanResponse.parseChunk (.object mistypedChunk) =
      .ok ⟨chunkId.hex, 0, 0, [], [], []⟩ := by
    simp [ReplicationPlanResponse.parseChunk, ReplicationPlanResponse.element, mistypedChunk,
      RestorePlanResponse.field, lookup_cons, asObject?, asString?, asArray?, mapEach,
      extractNonnegativeUint64, extractPositiveUint64, postgresBigintMax]
  rw [ReplicationPlanResponse.parse, parse_mistypedPlan]
  simp [mistypedPlan, inventedPlan, RestorePlanResponse.field, lookup_cons, asObject?, asString?,
    asArray?, mapEach, hchunk, extractPositiveUint64, postgresBigintMax, UuidV7.parse_str,
    Except.mapError, failIf]

theorem inventedPlan_unread {members : Members} (hmembers : mistypedPlan.asObject? = some members) :
    ¬ReadsReplicationPlan members inventedPlan := by
  intro hread
  obtain ⟨entries, hentries, hchunks⟩ := hread.chunks
  obtain rfl := Option.some.inj hmembers
  obtain rfl : [.object mistypedChunk] = entries := by
    simpa [Reads, lookup_cons, asArray?] using hentries
  obtain ⟨hchunk, -⟩ := List.forall₂_cons.mp hchunks
  obtain ⟨members, hobject, -, -, hsize, -⟩ := hchunk
  obtain rfl := Option.some.inj hobject
  simp [Reads, mistypedChunk, lookup_cons, extractPositiveUint64] at hsize

/-- The size becomes zero, and the null escapes as another exception. -/
theorem decoders_break_contract :
    ReplicationPlanResponse.parse valueLibrary mistypedPlan = .ok inventedPlan ∧
    ¬KeepsContract valueLibrary ReadsReplicationPlan mistypedPlan
        (ReplicationPlanResponse.parse valueLibrary mistypedPlan) ∧
    ¬KeepsContract valueLibrary ReadsMultiNodePlan nullVersionPlan
        (RestorePlanResponse.parse valueLibrary versionId nullVersionPlan) := by
  refine ⟨mistypedPlan_accepted, ?_, ?_⟩
  · rw [mistypedPlan_accepted, KeepsContract, parse_mistypedPlan, Option.bind_some]
    rintro ⟨members, hmembers, hread⟩
    exact inventedPlan_unread hmembers hread
  · simp [KeepsContract, RestorePlanResponse.parse, valueLibrary, nullVersionPlan,
      RestorePlanResponse.field, lookup_cons, asObject?, asString?, hasExactKeys, wire, wireMembers, failIf]

end

end AiArtifactStore.Wire
