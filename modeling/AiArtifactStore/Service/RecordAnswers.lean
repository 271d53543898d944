import AiArtifactStore.Metadata.Collectible
import AiArtifactStore.Metadata.FinalizeRetry
import AiArtifactStore.Service.Policies
import AiArtifactStore.Service.RecordReads

/-!
# The answers of commands

The service answers a command with the record that the command left.  The call that sent the
command accepts this answer: no check of the client takes a committed command for a failed one.
Only an answer beyond the limit of the HTTP client is lost.
-/

namespace AiArtifactStore.Service

open AiArtifactStore.Foundation
open AiArtifactStore.Foundation.Json
open AiArtifactStore.Identity
open AiArtifactStore.Metadata
open AiArtifactStore.Client
open AiArtifactStore.Wire

/-! ## What a command leaves -/

section

variable {env : Environment} {db next : Db} {op : ServiceOp} {reply : Reply}

theorem reachable_of_transact (h : Reachable env db)
    (htransact : transact env db op = .ok (reply, next)) : Reachable env next := by
  have hserved : Reachable env (Metadata.serve env db op).2 := h.serve
  rw [Metadata.serve, htransact] at hserved
  exact hserved

theorem stored_of_startGcRun {requested run : GcRun}
    (h : startGcRun db requested = .ok (run, next)) :
    run ∈ next.gcRuns ∧ run.runId = requested.runId ∧
      run.targetNodeId = requested.targetNodeId ∧ run.mode = requested.mode := by
  rcases startGcRun_ok h with ⟨rfl, hfind, hsame⟩ | ⟨hstarts, rfl, rfl⟩
  · exact ⟨Table.mem_of_find? hfind, Table.key_of_find? hfind, hsame⟩
  · exact ⟨Table.mem_insert_new hstarts.fresh, rfl, rfl, rfl⟩

theorem stored_of_completeGcRun {runId : UuidV7} {stats : GcPhysicalStats} {run : GcRun}
    (h : completeGcRun db runId stats = .ok (run, next)) :
    run ∈ next.gcRuns ∧ run.runId = runId ∧ run.state = .completed := by
  rcases completeGcRun_ok h with ⟨rfl, hfind, hstate⟩ | ⟨started, hid, hcompletes, rfl⟩
  · exact ⟨Table.mem_of_find? hfind, Table.key_of_find? hfind, hstate⟩
  · obtain ⟨_, _, rfl⟩ := hcompletes.row
    exact ⟨Table.mem_upsert_self, hid, rfl⟩

theorem stored_of_completeReplicationRun {runId : UuidV7} {stats : ReplicationStats}
    {run : ReplicationRun} (h : completeReplicationRun env db runId stats = .ok (run, next)) :
    run ∈ next.replicationRuns ∧ run.runId = runId ∧ run.state = .completed := by
  rcases completeReplicationRun_ok h with
    ⟨rfl, hfind⟩ | ⟨started, hid, -, -, -, rfl, rfl⟩
  · refine ⟨Table.mem_of_find? hfind, Table.key_of_find? hfind, ?_⟩
    -- An open run is not returned as it is: it would be stored as completed.
    cases hstate : run.state with
    | completed => rfl
    | «open» =>
        rw [completeReplicationRun, hfind, orFail_some, ok_bind] at h
        simp only [hstate, completeOpenReplicationRun, bind_eq_ok, exists_unit, failIf_eq_ok] at h
        obtain ⟨-, _, -, _, -, -, -, h⟩ := h
        obtain ⟨heq, -⟩ := Prod.ext_iff.mp (Except.ok.inj h)
        have hcompleted : RunState.completed = run.state := congrArg ReplicationRun.state heq
        exact hstate.symm.trans hcompleted.symm
  · exact ⟨Table.mem_upsert_self, hid, rfl⟩

theorem stored_of_runLifecycle {runId policyId : UuidV7} {mode : LifecycleRunMode}
    {evaluatedAtMs : Int} {run : LifecycleRun}
    (h : Metadata.runLifecycle db runId policyId mode evaluatedAtMs = .ok (run, next)) :
    (∃ decisions, ⟨run, decisions⟩ ∈ next.lifecycleRuns) ∧ run.runId = runId ∧
      run.policyId = policyId ∧ run.mode = mode := by
  rcases runLifecycle_ok h with
    ⟨rfl, decisions, hfind, hsame⟩ | ⟨decisions, _, rfl, hpolicy, hmode, hstarts, -, rfl⟩
  · have hkey : LifecycleRunRow.runId ⟨run, decisions⟩ = runId := Table.key_of_find? hfind
    exact ⟨⟨decisions, Table.mem_of_find? hfind⟩, hkey, hsame⟩
  · exact ⟨⟨decisions, Table.mem_insert_new hstarts.fresh⟩, rfl, hpolicy, hmode⟩

end

namespace MetadataReply

variable {json : JsonLibrary (List UInt8)} {env : Environment}

/-! ## Calls -/

theorem startGcRun_of_parse {run : GcRun} {runId : UuidV7} {targetNodeId : String} {dryRun : Bool}
    {body : List UInt8} (hparse : parseGcRun json body = .ok run) (hid : run.runId = runId)
    (htarget : run.targetNodeId = targetNodeId)
    (hmode : run.mode = if dryRun then .dryRun else .apply) :
    startGcRun json runId targetNodeId dryRun body = .ok run := by
  rw [startGcRun, hparse, ok_bind, failIf_of_false (not_not.mpr hid), ok_bind,
    failIf_of_false (not_not.mpr htarget), ok_bind, failIf_of_false (not_not.mpr hmode), ok_bind]

theorem completeGcRun_of_parse {run : GcRun} {runId : UuidV7} {body : List UInt8}
    (hparse : parseGcRun json body = .ok run) (hid : run.runId = runId)
    (hstate : run.state = .completed) : completeGcRun json runId body = .ok run := by
  rw [completeGcRun, hparse, ok_bind, failIf_of_false (not_not.mpr hid), ok_bind,
    failIf_of_false (not_not.mpr hstate), ok_bind]

theorem registerStorageNode_wire {node : StorageNode} (hpos : 1 ≤ node.port)
    (hport : node.port ≤ 65535) :
    registerStorageNode json node (json.serialize (storageNodeToJson node)) = .ok () := by
  rw [registerStorageNode, getStorageNode_wire hpos hport, ok_bind,
    failIf_of_false (not_not.mpr rfl)]

theorem registerLifecyclePolicy_wire {policy : LifecyclePolicy}
    (h : validateLifecyclePolicy policy = .ok ()) :
    ∃ body, lifecyclePolicyToJson policy = some body ∧
      registerLifecyclePolicy json policy (json.serialize body) = .ok policy := by
  obtain ⟨body, hbody, hparse⟩ := parseLifecyclePolicy_wire h
  refine ⟨body, hbody, ?_⟩
  rw [registerLifecyclePolicy, hparse, ok_bind, failIf_of_false (not_not.mpr rfl), ok_bind]

theorem runLifecycle_wire {run : LifecycleRun} (hstats : checkLifecycleStats run.stats = .ok ()) :
    runLifecycle json run.runId run.policyId run.mode
      (json.serialize (lifecycleRunToJson run)) = .ok run := by
  rw [runLifecycle, parseLifecycleRun_wire hstats, ok_bind, failIf_of_false (by simp), ok_bind]

theorem pinVersion_wire (versionId : ContentId) (reason : String) :
    pinVersion json versionId reason
      (json.serialize (versionPinToJson versionId (some reason))) = .ok () := by
  rw [pinVersion, versionPinToJson, replyObject_serialize, ok_bind]
  refine failIf_of_false (not_not.mpr ?_)
  simp [lookup_cons, hasExactKeys]

theorem unpinVersion_wire (versionId : ContentId) :
    unpinVersion json versionId (json.serialize (versionPinToJson versionId none)) = .ok () := by
  rw [unpinVersion, versionPinToJson, replyObject_serialize, ok_bind]
  refine failIf_of_false (not_not.mpr ?_)
  simp [lookup_cons, hasExactKeys]

end MetadataReply

/-! ## Reachable databases -/

section

variable (env : Environment) (json : JsonLibrary (List UInt8))

/-- The call that sent a command returns the value, unless the answer is too large. -/
def Accepts {α : Type} (call : List UInt8 → Except ClientExc α) (answer : Payload) (value : α) :
    Prop :=
  let response := receive ((HttpResponse.succeeded answer).wire env json)
  response >>= MetadataReads.getAll json call = response.map fun _ => value

/-- The calls accept the answers of the commands that the service commits.  A policy is stored
under its name up to the first U+0000. -/
structure AnswersAccepted (db : Db) : Prop where
  startGcRun : ∀ requested run next, Metadata.startGcRun db requested = .ok (run, next) →
    Accepts env json (MetadataReply.startGcRun json requested.runId requested.targetNodeId
      (requested.mode = .dryRun)) (.gcRun run) run
  completeGcRun : ∀ runId stats run next,
    Metadata.completeGcRun db runId stats = .ok (run, next) →
      Accepts env json (MetadataReply.completeGcRun json runId) (.gcRun run) run
  completeReplicationRun : ∀ runId stats run next,
    Metadata.completeReplicationRun env db runId stats = .ok (run, next) →
      Accepts env json (MetadataReply.completeReplicationRun json runId) (.replicationRun run)
        (MetadataReply.receivedRun run)
  registerStorageNode : ∀ node next, Metadata.registerStorageNode env db node = .ok next →
    Accepts env json (MetadataReply.registerStorageNode json node) (.storageNode node) ()
  registerLifecyclePolicy : ∀ policy next loaded, nul ∉ policy.name.toList →
    Metadata.registerLifecyclePolicy db policy = .ok next →
      next.lifecyclePolicies.find? policy.policyId = some loaded →
        Accepts env json (MetadataReply.registerLifecyclePolicy json policy)
          (.lifecyclePolicy loaded) policy
  runLifecycle : ∀ runId policyId mode evaluatedAtMs run next,
    Metadata.runLifecycle db runId policyId mode evaluatedAtMs = .ok (run, next) →
      Accepts env json (MetadataReply.runLifecycle json runId policyId mode) (.lifecycleRun run)
        run
  finalizeUpload : ∀ now sessionId d result next,
    Metadata.finalizeUpload env now db sessionId d = .ok (result, next) →
      Accepts env json (MetadataReply.finalizeUpload json env sessionId d) (.finalized result)
        result
  classifyGcChunks : ∀ runId chunkIds decisions,
    Metadata.classifyGcChunks db runId chunkIds = .ok decisions →
      Accepts env json (MetadataReply.classifyGcChunks json runId chunkIds)
        (.gcDecisions runId decisions) decisions
  pinVersion : ∀ versionId reason, Accepts env json
    (MetadataReply.pinVersion json versionId reason) (.versionPin versionId (some reason)) ()
  unpinVersion : ∀ versionId, Accepts env json
    (MetadataReply.unpinVersion json versionId) (.versionPin versionId none) ()

variable {env json}

theorem accepts_of_parse {α : Type} {call : List UInt8 → Except ClientExc α} {answer : Payload}
    {value : α} (hstatus : ((HttpResponse.succeeded answer).wire env json).status = 200)
    (hparse : call (responseBody env json answer) = .ok value) :
    Accepts env json call answer value := by
  refine receive_bind ?_
  rw [responseBody] at hparse
  rw [MetadataReads.getAll, if_pos hstatus, hparse]
  rfl

theorem accepts_registered {policy : LifecyclePolicy}
    (h : validateLifecyclePolicy policy = .ok ()) :
    Accepts env json (MetadataReply.registerLifecyclePolicy json policy) (.lifecyclePolicy policy)
      policy := by
  obtain ⟨body, hbody, hread⟩ := @MetadataReply.registerLifecyclePolicy_wire json policy h
  refine accepts_of_parse ?_ ?_
  · simp only [HttpResponse.wire, payloadToJson, hbody]
    rfl
  · rw [responseBody_lifecyclePolicy env json hbody]
    exact hread

end

/-- Whatever command the service commits, the call that sent it accepts the answer. -/
theorem committed_answers_accepted {env : Environment} (json : JsonLibrary (List UInt8)) {db : Db}
    (h : Reachable env db) : AnswersAccepted env json db := by
  constructor
  case startGcRun =>
    intro requested run next hstart
    have htransact : transact env db (.startGcRun requested) = .ok (.gcRun run, next) :=
      replyWith_eq_ok.mpr ⟨run, hstart, rfl⟩
    obtain ⟨hrun, hid, htarget, hmode⟩ := stored_of_startGcRun hstart
    have hparse := parseGcRun_stored env json (reachable_of_transact h htransact) hrun
    refine accepts_of_parse rfl
      (MetadataReply.startGcRun_of_parse hparse hid htarget (hmode.trans ?_))
    cases requested.mode <;> rfl
  case completeGcRun =>
    intro runId stats run next hcomplete
    have htransact : transact env db (.completeGcRun runId stats) = .ok (.gcRun run, next) :=
      replyWith_eq_ok.mpr ⟨run, hcomplete, rfl⟩
    obtain ⟨hrun, hid, hstate⟩ := stored_of_completeGcRun hcomplete
    have hparse := parseGcRun_stored env json (reachable_of_transact h htransact) hrun
    exact accepts_of_parse rfl (MetadataReply.completeGcRun_of_parse hparse hid hstate)
  case completeReplicationRun =>
    intro runId stats run next hcomplete
    have htransact : transact env db (.completeReplicationRun runId stats) =
        .ok (.replicationRun run, next) := replyWith_eq_ok.mpr ⟨run, hcomplete, rfl⟩
    obtain ⟨hrun, rfl, hstate⟩ := stored_of_completeReplicationRun hcomplete
    have hparse := replicationRun_stored env json (reachable_of_transact h htransact) hrun
    have hreceived : (MetadataReply.receivedRun run).state = .completed := hstate
    refine accepts_of_parse rfl ?_
    rw [MetadataReply.completeReplicationRun, hparse, ok_bind,
      failIf_of_false (not_not.mpr hreceived), ok_bind]
  case registerStorageNode =>
    intro node next hregister
    simp only [Metadata.registerStorageNode, bind_eq_ok, exists_unit, failIf_eq_ok] at hregister
    obtain ⟨-, -, -, hpos, hport, -⟩ := hregister
    exact accepts_of_parse rfl
      (MetadataReply.registerStorageNode_wire (Nat.one_le_iff_ne_zero.mpr hpos)
        (Nat.le_of_not_gt hport))
  case registerLifecyclePolicy =>
    intro policy next loaded hname hregister hfind
    obtain ⟨hvalid, hunopposed, -⟩ := exists_registered.mp ⟨next, hregister⟩
    have hsame : registeredPolicy db policy = policy :=
      (registeredPolicy_eq_self_iff hunopposed).mpr fun _ => hname
    have hloaded : loaded = policy := by
      rw [find?_registered hregister, hsame] at hfind
      exact (Option.some.inj hfind).symm
    rw [hloaded]
    exact accepts_registered hvalid
  case runLifecycle =>
    intro runId policyId mode evaluatedAtMs run next hrun
    have htransact : transact env db (.runLifecycle runId policyId mode evaluatedAtMs) =
        .ok (.lifecycleRun run, next) := replyWith_eq_ok.mpr ⟨run, hrun, rfl⟩
    obtain ⟨⟨decisions, hrow⟩, rfl, rfl, rfl⟩ := stored_of_runLifecycle hrun
    have hcolumns := columnsChecked_of_reachable (reachable_of_transact h htransact)
    exact accepts_of_parse rfl (MetadataReply.runLifecycle_wire (hcolumns.lifecycleRuns _ hrow))
  case finalizeUpload =>
    intro now sessionId d result next hfinalize
    obtain ⟨row, hsession, -, rfl⟩ := committedAs_of_ok (parentsDiffer_of_reachable h) hfinalize
    exact accepts_of_parse rfl (MetadataReply.finalizeUpload_wire hsession rfl rfl)
  case classifyGcChunks =>
    intro runId chunkIds decisions hclassify
    have hids : decisions.map GcChunkDecision.chunkId = chunkIds := by
      rw [classifyGcChunks_ok hclassify, List.map_map]
      exact List.map_id chunkIds
    rw [← hids]
    exact accepts_of_parse rfl (MetadataReply.classifyGcChunks_wire runId decisions)
  case pinVersion =>
    exact fun versionId reason =>
      accepts_of_parse rfl (MetadataReply.pinVersion_wire versionId reason)
  case unpinVersion =>
    exact fun versionId => accepts_of_parse rfl (MetadataReply.unpinVersion_wire versionId)

theorem committed_answers_accepted_gcRun :
    let db := afterOps Metadata.Sample.env .initial
      (Metadata.Sample.pushOps ++ Metadata.Sample.retireOps)
    (startGcRun db Metadata.Sample.gcRun).isOk = true ∧
      AnswersAccepted Metadata.Sample.env treeJson db := by
  intro db
  exact ⟨by decide +kernel, committed_answers_accepted treeJson (reachable_afterOps _ _)⟩

end AiArtifactStore.Service
