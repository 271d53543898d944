import AiArtifactStore.Metadata.Columns
import AiArtifactStore.Service.PolicyNumbers
import AiArtifactStore.Service.RecordReplies

/-!
# The client reads the records that the service stores

What the service writes about a stored record, the client reads back as the record.
-/

namespace AiArtifactStore.Service

open AiArtifactStore.Foundation
open AiArtifactStore.Foundation.Json
open AiArtifactStore.Identity
open AiArtifactStore.Metadata
open AiArtifactStore.Client
open AiArtifactStore.Wire

namespace MetadataReply

variable {json : JsonLibrary (List UInt8)} {env : Environment}

/-! ## Fields -/

@[simp] theorem wire_bool (b : Bool) : (Json.bool b).wire = .bool b := by simp only [Json.wire]

@[simp] theorem wire_null : Json.null.wire = .null := by simp only [Json.wire]

@[simp] theorem wire_int64 (n : Int) : (Json.int64 n).wire = .int64 n := by simp only [Json.wire]

@[simp] theorem asString?_string (text : String) : (Json.string text).asString? = some text := rfl

@[simp] theorem asBool?_bool (b : Bool) : asBool? (.bool b) = some b := rfl

@[simp] theorem asArray?_array (elements : List Json) :
    (Json.array elements).asArray? = some elements := rfl

@[simp] theorem asObject?_object (members : Members) :
    (Json.object members).asObject? = some members := rfl

theorem replyObject_serialize (members : Members) (what : String) :
    replyObject json (json.serialize (.object members)) what =
      .ok (members.map fun member => (member.1, member.2.wire)) := by
  rw [replyObject, json.parse_serialize, wire_object]
  rfl

theorem replyUuid_str (id : UuidV7) (what : String) : replyUuid id.str what = .ok id := by
  rw [replyUuid, UuidV7.parse_str]
  rfl

theorem replyId_hex (id : ContentId) (what : String) : replyId id.hex what = .ok id := by
  rw [replyId, ContentId.ofHex?_hex, orFail_some]

theorem replyIdOrNull_hex (id : Option ContentId) (what : String) :
    replyIdOrNull what (id.map ContentId.hex) = .ok id := by
  cases id with
  | none => rfl
  | some id =>
      rw [Option.map_some, replyIdOrNull, replyId_hex]
      rfl

theorem textOrNull_wire (text : Option String) :
    orNull asString? (textOrNull text).wire = some text := by
  cases text with
  | none => simp [textOrNull, orNull]
  | some text => simp [textOrNull, orNull, asString?_string]

theorem mapEach_read {α β γ ε : Type} {xs : List α} {encode : α → β} {decode : β → Except ε γ}
    {view : α → γ} (h : ∀ x ∈ xs, decode (encode x) = .ok (view x)) :
    mapEach (xs.map encode) decode = .ok (xs.map view) := by
  induction xs with
  | nil => rfl
  | cons x xs ih =>
      have htail := ih fun y hy => h y (by simp [hy])
      simp [mapEach, h x (by simp), htail]

theorem texts_wire (values : List String) {e : ClientExc} :
    mapEach ((values.map Json.string).map wire) (fun entry => orFail entry.asString? e) =
      .ok values := by
  rw [List.map_map]
  exact mapEach_decode fun value _ => by simp [asString?_string]

/-! ## Storage nodes -/

theorem storageNodeStateFromString_toString (state : StorageNodeState) :
    storageNodeStateFromString (storageNodeStateToString state) = .ok state := by
  cases state <;> rfl

theorem parseStorageNode_wire {node : StorageNode} (hpos : 1 ≤ node.port)
    (hport : node.port ≤ 65535) :
    ∃ members, (storageNodeToJson node).wire = .object members ∧
      parseStorageNode members = .ok node := by
  have hbound : 65535 ≤ postgresBigintMax := by decide
  have hread := extractPositiveUint64_wire hpos (hport.trans hbound)
  refine ⟨_, by rw [storageNodeToJson, wire_object], ?_⟩
  simp only [List.map_cons, List.map_nil, wire_string]
  rw [parseStorageNode, failIf_keys, ok_bind]
  swap
  · rfl
  simp only [replyField, lookup_cons, String.reduceEq, ↓reduceIte, Option.bind_some,
    asString?_string, orFail_some, ok_bind, hread]
  rw [failIf_of_false (Nat.not_lt.mpr hport), ok_bind, storageNodeStateFromString_toString]
  rfl

theorem getStorageNode_wire {node : StorageNode} (hpos : 1 ≤ node.port)
    (hport : node.port ≤ 65535) :
    getStorageNode json (json.serialize (storageNodeToJson node)) = .ok node := by
  obtain ⟨members, hwire, hparse⟩ := parseStorageNode_wire hpos hport
  rw [getStorageNode, replyObject, json.parse_serialize, hwire]
  exact hparse

theorem listStorageNodes_wire {nodes : List StorageNode}
    (h : ∀ node ∈ nodes, 1 ≤ node.port ∧ node.port ≤ 65535) :
    listStorageNodes json
      (json.serialize (.object [("nodes", .array (nodes.map storageNodeToJson))])) = .ok nodes := by
  rw [listStorageNodes, replyObject_serialize, ok_bind]
  simp only [List.map_cons, List.map_nil, wire_array]
  rw [failIf_keys, ok_bind]
  swap
  · rfl
  simp only [replyField, lookup_cons, ↓reduceIte, Option.bind_some, asArray?_array, orFail_some,
    ok_bind]
  rw [List.map_map]
  refine mapEach_decode fun node hnode => ?_
  obtain ⟨members, hwire, hparse⟩ := parseStorageNode_wire (h node hnode).1 (h node hnode).2
  rw [Function.comp_apply, hwire]
  exact hparse

/-! ## Runs -/

theorem gcRunStateFromString_toString (state : RunState) :
    gcRunStateFromString (runStateToString state) = .ok state := by
  cases state <;> rfl

theorem parseGcRun_wire {run : GcRun} (hnode : nodeIdInvalid run.targetNodeId = false)
    (hphysical : checkPhysicalStats run.physicalStats = .ok ())
    (hmetadata : checkMetadataStats run.metadataStats = .ok ()) :
    parseGcRun json (json.serialize (gcRunToJson run)) = .ok run := by
  simp only [checkPhysicalStats, bind_eq_ok, toPostgresBigint_eq_ok] at hphysical
  obtain ⟨_, ⟨h1, -⟩, _, ⟨h2, -⟩, _, ⟨h3, -⟩, _, ⟨h4, -⟩, _, ⟨h5, -⟩, _, ⟨h6, -⟩, -⟩ := hphysical
  obtain ⟨h7, h8, h9, h10⟩ := fits_of_checkMetadataStats hmetadata
  have hmode : (if decide (run.mode = .dryRun) = true then GcRunMode.dryRun else .apply) =
      run.mode := by
    cases run.mode <;> rfl
  rw [parseGcRun, gcRunToJson, replyObject_serialize, ok_bind]
  simp only [List.map_cons, List.map_nil, wire_string, wire_bool]
  rw [failIf_keys, ok_bind]
  swap
  · rfl
  simp only [replyField, replyStat, lookup_cons, String.reduceEq, ↓reduceIte, Option.bind_some,
    asString?_string, asBool?_bool, orFail_some, ok_bind, hnode, Bool.false_eq_true, failIf,
    extractNonnegativeUint64_wire h1, extractNonnegativeUint64_wire h2,
    extractNonnegativeUint64_wire h3, extractNonnegativeUint64_wire h4,
    extractNonnegativeUint64_wire h5, extractNonnegativeUint64_wire h6,
    extractNonnegativeUint64_wire h7, extractNonnegativeUint64_wire h8,
    extractNonnegativeUint64_wire h9, extractNonnegativeUint64_wire h10, replyUuid_str,
    gcRunStateFromString_toString, hmode]

theorem getGcRun_of_parse {run : GcRun} {body : List UInt8}
    (hparse : parseGcRun json body = .ok run) : getGcRun json run.runId body = .ok run := by
  rw [getGcRun, hparse, ok_bind, failIf_of_false (not_not.mpr rfl), ok_bind]

theorem runStateFromString_toString (state : RunState) :
    ReplicationRunResponse.runStateFromString (runStateToString state) = .ok state := by
  cases state <;> rfl

def receivedRun (run : ReplicationRun) : ReceivedRun :=
  ⟨run.runId, run.versionId.hex, run.layoutId.hex, run.replicationFactor, run.placementNodeIds,
    run.state, run.stats⟩

theorem parseReplicationRun_wire {run : ReplicationRun}
    (hfactor : 1 ≤ run.replicationFactor ∧ run.replicationFactor ≤ 8)
    (hstats : checkReplicationStats run.stats = .ok ()) :
    ReplicationRunResponse.parseRun json (json.serialize (replicationRunToJson run)) =
      .ok (receivedRun run) := by
  simp only [checkReplicationStats, bind_eq_ok, toPostgresBigint_eq_ok] at hstats
  obtain ⟨_, ⟨h1, -⟩, _, ⟨h2, -⟩, _, ⟨h3, -⟩, _, ⟨h4, -⟩, _, ⟨h5, -⟩, _, ⟨h6, -⟩, -⟩ := hstats
  have hbound : 8 ≤ postgresBigintMax := by decide
  have hread := extractPositiveUint64_wire hfactor.1 (hfactor.2.trans hbound)
  rw [ReplicationRunResponse.parseRun, replicationRunToJson, json.parse_serialize, wire_object]
  simp only [List.map_cons, List.map_nil, wire_string, texts, wire_array, Option.bind_some,
    asObject?_object, orFail_some, ok_bind]
  rw [failIf_keys, ok_bind]
  swap
  · rfl
  simp only [ReplicationRunResponse.typedField, ReplicationRunResponse.extractStat, lookup_cons,
    String.reduceEq, ↓reduceIte, Option.bind_some, asString?_string, asArray?_array, orFail_some,
    ok_bind, hread]
  rw [failIf_of_false (Nat.not_lt.mpr hfactor.2), ok_bind, texts_wire, ok_bind]
  simp only [UuidV7.parse_str, Except.mapError, ok_bind, runStateFromString_toString,
    extractNonnegativeUint64_wire h1, extractNonnegativeUint64_wire h2,
    extractNonnegativeUint64_wire h3, extractNonnegativeUint64_wire h4,
    extractNonnegativeUint64_wire h5, extractNonnegativeUint64_wire h6, orFail_some]
  rfl

theorem replicationRun_wire {run : ReplicationRun}
    (hfactor : 1 ≤ run.replicationFactor ∧ run.replicationFactor ≤ 8)
    (hstats : checkReplicationStats run.stats = .ok ()) :
    ReplicationRunResponse.parse json run.runId (json.serialize (replicationRunToJson run)) =
      .ok (receivedRun run) := by
  have hid : (receivedRun run).runId = run.runId := rfl
  rw [ReplicationRunResponse.parse, parseReplicationRun_wire hfactor hstats, ok_bind,
    failIf_of_false (not_not.mpr hid), ok_bind]

theorem lifecycleRunMode?_toString (mode : LifecycleRunMode) :
    lifecycleRunMode? (lifecycleRunModeToString mode) = some mode := by
  cases mode <;> rfl

theorem parseLifecycleRun_wire {run : LifecycleRun}
    (hstats : checkLifecycleStats run.stats = .ok ()) :
    parseLifecycleRun json (json.serialize (lifecycleRunToJson run)) = .ok run := by
  simp only [checkLifecycleStats, bind_eq_ok, toPostgresBigint_eq_ok] at hstats
  obtain ⟨_, ⟨h1, -⟩, _, ⟨h2, -⟩, _, ⟨h3, -⟩, _, ⟨h4, -⟩, _, ⟨h5, -⟩, _, ⟨h6, -⟩, _, ⟨h7, -⟩,
    -⟩ := hstats
  rw [parseLifecycleRun, lifecycleRunToJson, replyObject_serialize, ok_bind]
  simp only [List.map_cons, List.map_nil, wire_string, wire_int64]
  rw [failIf_keys, ok_bind]
  swap
  · rfl
  simp only [replyField, replyStat, lookup_cons, String.reduceEq, ↓reduceIte, Option.bind_some,
    asString?_string, extractSignedInt64, orFail_some, ok_bind, extractNonnegativeUint64_wire h1,
    extractNonnegativeUint64_wire h2, extractNonnegativeUint64_wire h3,
    extractNonnegativeUint64_wire h4, extractNonnegativeUint64_wire h5,
    extractNonnegativeUint64_wire h6, extractNonnegativeUint64_wire h7, replyUuid_str,
    lifecycleRunMode?_toString]

theorem getLifecycleRun_wire {run : LifecycleRun}
    (hstats : checkLifecycleStats run.stats = .ok ()) :
    getLifecycleRun json run.runId (json.serialize (lifecycleRunToJson run)) = .ok run := by
  rw [getLifecycleRun, parseLifecycleRun_wire hstats, ok_bind, failIf_of_false (not_not.mpr rfl),
    ok_bind]

/-! ## Lifecycle policies and decisions -/

theorem parseLifecycleRule_wire {rule : LifecycleRule} (hkeep : rule.keepLastN ≤ 1000)
    (hage : AgeValid rule) :
    ∃ members, (lifecycleRuleToJson rule).wire.asObject? = some members ∧
      parseLifecycleRule members = .ok rule := by
  obtain ⟨members, hmembers, hkeys, hkind, hkeepRead, hageRead⟩ :=
    readsLifecycleRule_wire (hkeep.trans (by decide)) fun maxAge hmax =>
      (hage maxAge hmax).trans (by decide)
  obtain ⟨text, htext, hkind⟩ := reads_iff.mp hkind
  have hnarrow : rule.keepLastN % 2 ^ 32 = rule.keepLastN := Nat.mod_eq_of_lt (by omega)
  unfold Reads at htext hkeepRead hageRead
  refine ⟨members, hmembers, ?_⟩
  rw [parseLifecycleRule, failIf_of_false (not_not.mpr hkeys), ok_bind]
  simp only [replyField, htext, hkeepRead, hageRead, hkind, orFail_some, ok_bind, hnarrow]

theorem foldEach_addLifecycleRule {rules : List LifecycleRule}
    (hvalid : ∀ rule ∈ rules, rule.keepLastN ≤ 1000 ∧ AgeValid rule)
    (hnodup : (rules.map LifecycleRule.artifactKind).Nodup) :
    foldEach ((rules.map lifecycleRuleToJson).map wire) [] addLifecycleRule = .ok rules := by
  have hread : mapEach ((rules.map lifecycleRuleToJson).map wire) (fun entry => do
      let members ← orFail entry.asObject?
        (ClientExc.remoteProtocol "lifecycle policy rule is not an object")
      parseLifecycleRule members) = .ok rules := by
    rw [List.map_map]
    refine mapEach_decode fun rule hrule => ?_
    obtain ⟨members, hmembers, hparse⟩ :=
      parseLifecycleRule_wire (hvalid rule hrule).1 (hvalid rule hrule).2
    rw [Function.comp_apply, hmembers]
    exact hparse
  have hadd : addLifecycleRule = fun found entry => (do
      let rule ← (do
        let members ← orFail entry.asObject?
          (ClientExc.remoteProtocol "lifecycle policy rule is not an object")
        parseLifecycleRule members)
      failIf (rule.artifactKind ∈ found.map LifecycleRule.artifactKind)
        (.remoteProtocol "lifecycle policy rules contain duplicate artifact kinds")
      .ok (found ++ [rule])) := by
    funext found entry
    rw [addLifecycleRule, bind_assoc]
  rw [hadd]
  exact (foldEach_distinct (by simp)).mpr ⟨rules, hread, rfl, hnodup⟩

theorem mapM_find? {policy : LifecyclePolicy} {rules : List LifecycleRule}
    (hfind : ∀ rule ∈ rules, policy.rules.find? rule.artifactKind = some rule) :
    (rules.map LifecycleRule.artifactKind).mapM (fun kind => policy.rules.find? kind) =
      some rules := by
  induction rules with
  | nil => rfl
  | cons rule rules ih =>
      rw [List.map_cons, List.mapM_cons, hfind rule (by simp),
        ih fun other hother => hfind other (by simp [hother])]
      rfl

theorem parseLifecyclePolicy_wire {policy : LifecyclePolicy}
    (h : validateLifecyclePolicy policy = .ok ()) :
    ∃ body, lifecyclePolicyToJson policy = some body ∧
      parseLifecyclePolicy json (json.serialize body) = .ok policy := by
  obtain ⟨rules, -, hkinds, hfind⟩ := canonicalRules_ok h
  obtain ⟨⟨hlength, hnodup⟩, hpolicy⟩ := toPolicy_canonical hkinds hfind
  have hvalid : ∀ rule ∈ rules, rule.keepLastN ≤ 1000 ∧ AgeValid rule := fun rule hrule => by
    obtain ⟨found, hfound, -, hvalid⟩ := rule_of_validateLifecyclePolicy h rule.artifactKind
    obtain rfl := Option.some.inj (hfound.symm.trans (hfind rule hrule))
    exact hvalid
  have hmap := mapM_find? hfind
  rw [hkinds] at hmap
  refine ⟨_, by rw [lifecyclePolicyToJson, hmap, Option.map_some], ?_⟩
  rw [parseLifecyclePolicy, replyObject_serialize, ok_bind]
  simp only [List.map_cons, List.map_nil, wire_string, wire_array]
  rw [failIf_keys, ok_bind]
  swap
  · rfl
  simp only [replyField, lookup_cons, String.reduceEq, ↓reduceIte, Option.bind_some,
    asString?_string, asArray?_array, orFail_some, ok_bind]
  rw [failIf_of_false (not_not.mpr (by simpa using hlength)), ok_bind,
    foldEach_addLifecycleRule hvalid hnodup, ok_bind,
    failIf_of_false (not_not.mpr (hkinds ▸ fun _ hkind => hkind)), ok_bind, replyUuid_str, ok_bind]
  exact congrArg Except.ok hpolicy

theorem getLifecyclePolicy_wire {policy : LifecyclePolicy}
    (h : validateLifecyclePolicy policy = .ok ()) :
    ∃ body, lifecyclePolicyToJson policy = some body ∧
      getLifecyclePolicy json policy.policyId (json.serialize body) = .ok policy := by
  obtain ⟨body, hbody, hparse⟩ := parseLifecyclePolicy_wire h
  refine ⟨body, hbody, ?_⟩
  rw [getLifecyclePolicy, hparse, ok_bind, failIf_of_false (not_not.mpr rfl), ok_bind]

theorem lifecycleDecisionReason?_toString (reason : LifecycleDecisionReason) :
    lifecycleDecisionReason? (lifecycleDecisionReasonToString reason) = some reason := by
  cases reason <;> rfl

def receivedDecision (d : LifecycleDecision) : ReceivedDecision :=
  ⟨d.versionId.hex, d.artifactId, d.artifactKind, d.retire, d.reason, d.logicalSizeBytes⟩

theorem parseLifecycleDecision_wire {d : LifecycleDecision} (h : checkDecisionRow d = .ok ()) :
    ∃ members, (lifecycleDecisionToJson d).wire = .object members ∧
      parseLifecycleDecision members = .ok (receivedDecision d) := by
  simp only [checkDecisionRow, bind_eq_ok, toPostgresBigint_eq_ok] at h
  obtain ⟨_, ⟨hsize, -⟩, -⟩ := h
  refine ⟨_, by rw [lifecycleDecisionToJson, wire_object], ?_⟩
  simp only [List.map_cons, List.map_nil, wire_string]
  rw [parseLifecycleDecision, failIf_keys, ok_bind]
  swap
  · rfl
  simp only [replyField, lookup_cons, String.reduceEq, ↓reduceIte, Option.bind_some,
    asString?_string, orFail_some, ok_bind, extractNonnegativeUint64_wire hsize, replyUuid_str,
    ArtifactKind.ofText?_toText, lifecycleDecisionReason?_toString]
  obtain ⟨versionId, artifactId, artifactKind, retire, reason, logicalSizeBytes⟩ := d
  cases retire <;> rfl

theorem listLifecycleDecisions_wire {decisions : List LifecycleDecision}
    (h : ∀ d ∈ decisions, checkDecisionRow d = .ok ()) (nextAfter : Option ContentId) :
    listLifecycleDecisions json (json.serialize (.object
        [("decisions", .array (decisions.map lifecycleDecisionToJson)),
         ("next_after", textOrNull (nextAfter.map ContentId.hex))])) =
      .ok (decisions.map receivedDecision, nextAfter.map ContentId.hex) := by
  have hread : mapEach ((decisions.map lifecycleDecisionToJson).map wire) (fun entry => do
      let members ← orFail entry.asObject?
        (ClientExc.remoteProtocol "lifecycle decision entry is not an object")
      parseLifecycleDecision members) = .ok (decisions.map receivedDecision) := by
    rw [List.map_map]
    refine mapEach_read fun d hd => ?_
    obtain ⟨members, hwire, hparse⟩ := parseLifecycleDecision_wire (h d hd)
    rw [Function.comp_apply, hwire]
    exact hparse
  rw [listLifecycleDecisions, replyObject_serialize, ok_bind]
  simp only [List.map_cons, List.map_nil, wire_array]
  rw [failIf_keys, ok_bind]
  swap
  · rfl
  simp only [replyField, lookup_cons, String.reduceEq, ↓reduceIte, Option.bind_some, asArray?_array,
    orFail_some, ok_bind, hread, textOrNull_wire]

/-! ## Pins -/

theorem getVersionPin_wire (versionId : ContentId) (reason : Option String) :
    getVersionPin json versionId (json.serialize (versionPinToJson versionId reason)) =
      .ok reason := by
  cases reason with
  | none =>
      rw [versionPinToJson, getVersionPin, replyObject_serialize, ok_bind]
      simp [lookup_cons, asString?_string, asBool?_bool, failIf, hasExactKeys]
  | some reason =>
      rw [versionPinToJson, getVersionPin, replyObject_serialize, ok_bind]
      simp [lookup_cons, asString?_string, asBool?_bool, failIf, hasExactKeys, replyField]

/-! ## Upload sessions -/

theorem uploadSessionStateFromString_toString (state : UploadSessionState) :
    uploadSessionStateFromString (uploadSessionStateToString state) = .ok state := by
  cases state <;> rfl

theorem uploadSessionStatus?_self (status : UploadSessionStatus) :
    uploadSessionStatus? status.state status.finalizedVersionId = some status := by
  cases status <;> rfl

theorem uploadSession?_self (session : UploadSession) :
    uploadSession? session.toUploadSessionFields = some session := by
  rw [uploadSession?]
  split
  case h_1 => rfl
  case h_2 e he =>
    rw [session.valid] at he
    cases he

theorem immutableMetadata?_self (m : ImmutableMetadata) :
    immutableMetadata? m.map.entries = some m := by
  have hmap : OrderedMap.ofList strictTotal_string m.map.entries = m.map :=
    OrderedMap.ext_find? String.lt_asymm fun k v => by
      rw [OrderedMap.find?_ofList strictTotal_string (m.map.nodup_keys String.lt_asymm),
        OrderedMap.find?, find?_of_nodup_keys (m.map.nodup_keys String.lt_asymm)]
  rw [immutableMetadata?, dif_pos m.keysNonempty]
  obtain ⟨map, hkeys⟩ := m
  simp only [hmap]

theorem sessionRow?_self {row : SessionRow}
    (h : ∀ versionId ∈ row.status.finalizedVersionId,
      row.session.parentVersionId ≠ some versionId) :
    sessionRow? row.session.toUploadSessionFields row.status.state row.status.finalizedVersionId =
      some row := by
  have hparent : ¬∃ versionId ∈ row.status.finalizedVersionId,
      row.session.parentVersionId = some versionId :=
    fun ⟨versionId, hfinal, hsame⟩ => h versionId hfinal hsame
  simp only [sessionRow?, uploadSession?_self, uploadSessionStatus?_self, Option.bind_eq_bind,
    Option.bind_some, guard, if_pos hparent]
  rfl

theorem sessionChunking_wire {chunking : SessionChunking} (hvalid : chunking.validate = .ok ())
    (hcolumns : checkChunkingColumns chunking = .ok ()) :
    ∃ members, (sessionChunkingToJson chunking).wire = .object members ∧
      parseSessionChunking (chunkingStrategyToString chunking.strategy) members = .ok chunking := by
  cases chunking with
  | fixedSize chunkSizeBytes =>
      simp only [SessionChunking.validate, failIf_eq_ok] at hvalid
      simp only [checkChunkingColumns, bind_eq_ok, toPostgresBigint_eq_ok] at hcolumns
      obtain ⟨_, ⟨hsize, -⟩, -⟩ := hcolumns
      have hread := extractPositiveUint64_wire (Nat.pos_of_ne_zero hvalid) hsize
      refine ⟨_, by rw [sessionChunkingToJson, wire_object], ?_⟩
      simp [parseSessionChunking, chunkingStrategyToString, SessionChunking.strategy, hasExactKeys,
        lookup_cons, failIf, replyField, hread]
  | fastCdc parameters =>
      obtain ⟨members, hwire, hparse⟩ := parseFastCdcParametersJson_wire hvalid
      refine ⟨members, hwire, ?_⟩
      simp [parseSessionChunking, chunkingStrategyToString, SessionChunking.strategy, hparse]

theorem immutableMetadata_wire (m : ImmutableMetadata) :
    ∃ members, (immutableMetadataToJson m).wire = .object members ∧
      mapEach members (fun entry => (orFail entry.2.asString? (ClientExc.remoteProtocol
        "upload session immutable_metadata values must be strings")).map
          fun text => (entry.1, text)) = .ok m.map.entries := by
  refine ⟨_, by rw [immutableMetadataToJson, wire_object, List.map_map], ?_⟩
  exact mapEach_decode fun entry _ => by simp [asString?_string, Except.map]

theorem parseUploadSession_wire {row : SessionRow}
    (hcolumns : checkChunkingColumns row.session.chunking = .ok ())
    (hfinal : ∀ versionId ∈ row.status.finalizedVersionId,
      row.session.parentVersionId ≠ some versionId) :
    parseUploadSession json (json.serialize (uploadSessionToJson row)) = .ok row := by
  obtain ⟨⟨hone, height⟩, -, -, -, -, -, hchunking⟩ := UploadSession.valid_iff.mp row.session.valid
  have hbound : 8 ≤ postgresBigintMax := by decide
  have hfactor := extractPositiveUint64_wire hone (height.trans hbound)
  obtain ⟨parameters, hparameters, hparse⟩ := sessionChunking_wire hchunking hcolumns
  obtain ⟨metadata, hmetadata, hentries⟩ := immutableMetadata_wire row.session.immutableMetadata
  rw [parseUploadSession, uploadSessionToJson, sessionIdentityMembers, replyObject_serialize,
    ok_bind]
  simp only [List.cons_append, List.nil_append, List.map_cons, List.map_nil, wire_string, texts,
    wire_array, hparameters, hmetadata]
  rw [failIf_of_false, ok_bind]
  swap
  · simp [hasExactKeys, lookup_cons]
  simp only [replyField, lookup_cons, String.reduceEq, ↓reduceIte, Option.bind_some,
    asString?_string, asArray?_array, asObject?_object, orFail_some, ok_bind, hfactor]
  rw [failIf_of_false (Nat.not_lt.mpr height), ok_bind, texts_wire, ok_bind]
  simp only [textOrNull_wire, orFail_some, ok_bind, hentries, replyUuid_str,
    uploadSessionStateFromString_toString, hparse, replyIdOrNull_hex, immutableMetadata?_self]
  exact orFail_eq_ok.mpr (sessionRow?_self hfinal)

/-! ## Answers -/

theorem finalizeUpload_wire {sessionId : UuidV7} {d : ObjectLayoutDescriptor}
    {result : FinalizeUploadResult} (hsession : result.sessionId = sessionId)
    (hobject : result.objectId = d.objectId) (hlayout : result.layoutId = d.layoutId env) :
    finalizeUpload json env sessionId d (json.serialize (finalizeResultToJson result)) =
      .ok result := by
  rw [finalizeUpload, finalizeResultToJson, replyObject_serialize, ok_bind]
  simp only [List.map_cons, List.map_nil, wire_string]
  rw [failIf_keys, ok_bind]
  swap
  · rfl
  simp only [replyField, lookup_cons, String.reduceEq, ↓reduceIte, Option.bind_some,
    asString?_string, orFail_some, ok_bind, replyUuid_str, replyId_hex]
  rw [failIf_of_false (not_not.mpr hsession), ok_bind, failIf_of_false (not_not.mpr hobject),
    ok_bind, failIf_of_false (not_not.mpr hlayout), ok_bind, failIf_of_false (not_not.mpr rfl),
    ok_bind]

theorem parseGcDecision_wire (decision : GcChunkDecision) :
    parseGcDecision ((gcDecisionToJson decision).wire, decision.chunkId) = .ok decision := by
  rw [parseGcDecision, gcDecisionToJson, wire_object, asObject?_object, orFail_some, ok_bind]
  simp only [List.map_cons, List.map_nil, wire_string, wire_bool]
  rw [failIf_keys, ok_bind]
  swap
  · rfl
  simp only [replyField, lookup_cons, String.reduceEq, ↓reduceIte, Option.bind_some,
    asString?_string, asBool?_bool, orFail_some, ok_bind, replyId_hex]
  rw [failIf_of_false (not_not.mpr rfl), ok_bind]

theorem classifyGcChunks_wire (runId : UuidV7) (decisions : List GcChunkDecision) :
    classifyGcChunks json runId (decisions.map GcChunkDecision.chunkId)
        (json.serialize (.object [("gc_run_id", .string runId.str),
          ("chunks", .array (decisions.map gcDecisionToJson))])) = .ok decisions := by
  rw [classifyGcChunks, replyObject_serialize, ok_bind]
  simp only [List.map_cons, List.map_nil, wire_string, wire_array]
  rw [failIf_keys, ok_bind]
  swap
  · rfl
  simp only [replyField, lookup_cons, String.reduceEq, ↓reduceIte, Option.bind_some,
    asString?_string, asArray?_array, orFail_some, ok_bind, replyUuid_str]
  rw [failIf_of_false (not_not.mpr rfl), ok_bind, failIf_of_false (not_not.mpr (by simp)), ok_bind,
    List.map_map, List.zip_map']
  exact mapEach_decode fun decision _ => parseGcDecision_wire decision

end MetadataReply

/-! ## Stored records -/

section

variable (env : Environment) (json : JsonLibrary (List UInt8))

def responseBody (payload : Payload) : List UInt8 :=
  ((HttpResponse.succeeded payload).wire env json).body

/-- The client makes of a response about stored records the records, where it reads ids
it does not check as texts. -/
structure RecordsRead (db : Db) : Prop where
  uploadSessions : ∀ row ∈ db.uploadSessions,
    MetadataReply.parseUploadSession json (responseBody env json (.uploadSession row)) = .ok row
  gcRuns : ∀ run ∈ db.gcRuns,
    MetadataReply.getGcRun json run.runId (responseBody env json (.gcRun run)) = .ok run
  replicationRuns : ∀ run ∈ db.replicationRuns,
    ReplicationRunResponse.parse json run.runId (responseBody env json (.replicationRun run)) =
      .ok (MetadataReply.receivedRun run)
  storageNode : ∀ node ∈ db.storageNodes,
    MetadataReply.getStorageNode json (responseBody env json (.storageNode node)) = .ok node
  storageNodes : ∀ nodes : List StorageNode, (∀ node ∈ nodes, node ∈ db.storageNodes) →
    MetadataReply.listStorageNodes json (responseBody env json (.storageNodes nodes)) = .ok nodes
  lifecyclePolicies : ∀ policy ∈ db.lifecyclePolicies,
    MetadataReply.getLifecyclePolicy json policy.policyId
      (responseBody env json (.lifecyclePolicy policy)) = .ok policy
  lifecycleRuns : ∀ row ∈ db.lifecycleRuns,
    MetadataReply.getLifecycleRun json row.run.runId
      (responseBody env json (.lifecycleRun row.run)) = .ok row.run
  lifecycleDecisions : ∀ row ∈ db.lifecycleRuns, ∀ decisions ⊆ row.decisions, ∀ nextAfter,
    MetadataReply.listLifecycleDecisions json
        (responseBody env json (.lifecycleDecisions decisions nextAfter)) =
      .ok (decisions.map MetadataReply.receivedDecision, nextAfter.map ContentId.hex)
  pins : ∀ pin ∈ db.pins,
    MetadataReply.getVersionPin json pin.versionId
      (responseBody env json (.versionPin pin.versionId (some pin.reason))) = .ok (some pin.reason)

theorem responseBody_lifecyclePolicy {policy : LifecyclePolicy} {body : Json}
    (h : lifecyclePolicyToJson policy = some body) :
    responseBody env json (.lifecyclePolicy policy) = json.serialize body := by
  simp only [responseBody, HttpResponse.wire, payloadToJson, h]
  rfl

theorem parseGcRun_stored {db : Db} (h : Reachable env db) {run : GcRun} (hrun : run ∈ db.gcRuns) :
    MetadataReply.parseGcRun json (responseBody env json (.gcRun run)) = .ok run := by
  obtain ⟨hphysical, hmetadata⟩ := (columnsChecked_of_reachable h).gcRuns run hrun
  exact MetadataReply.parseGcRun_wire ((rowChecks_of_reachable h).gcRuns run hrun) hphysical
    hmetadata

theorem replicationRun_stored {db : Db} (h : Reachable env db) {run : ReplicationRun}
    (hrun : run ∈ db.replicationRuns) :
    ReplicationRunResponse.parse json run.runId (responseBody env json (.replicationRun run)) =
      .ok (MetadataReply.receivedRun run) :=
  MetadataReply.replicationRun_wire
    ((rowChecks_of_reachable h).replicationRuns run hrun).replicationFactor
    ((columnsChecked_of_reachable h).replicationRuns run hrun)

theorem records_survive_wire {db : Db} (h : Reachable env db) : RecordsRead env json db := by
  have hcolumns := columnsChecked_of_reachable h
  have hrows := rowChecks_of_reachable h
  have hnode : ∀ node ∈ db.storageNodes, 1 ≤ node.port ∧ node.port ≤ 65535 := fun node hnode =>
    (hrows.storageNodes node hnode).port
  constructor
  case uploadSessions =>
    intro row hrow
    exact MetadataReply.parseUploadSession_wire (hcolumns.chunking row hrow)
      (hcolumns.finalizedNotParent row hrow)
  case gcRuns =>
    intro run hrun
    exact MetadataReply.getGcRun_of_parse (parseGcRun_stored env json h hrun)
  case replicationRuns =>
    intro run hrun
    exact replicationRun_stored env json h hrun
  case storageNode =>
    intro node hmem
    exact MetadataReply.getStorageNode_wire (hnode node hmem).1 (hnode node hmem).2
  case storageNodes =>
    intro nodes hnodes
    exact MetadataReply.listStorageNodes_wire fun node hmem => hnode node (hnodes node hmem)
  case lifecyclePolicies =>
    intro policy hpolicy
    obtain ⟨body, hbody, hread⟩ := MetadataReply.getLifecyclePolicy_wire
      (validPolicies_of_reachable h policy hpolicy)
    rw [responseBody_lifecyclePolicy env json hbody]
    exact hread
  case lifecycleRuns =>
    intro row hrow
    exact MetadataReply.getLifecycleRun_wire (hcolumns.lifecycleRuns row hrow)
  case lifecycleDecisions =>
    intro row hrow decisions hsubset nextAfter
    exact MetadataReply.listLifecycleDecisions_wire
      (fun d hd => hcolumns.lifecycleDecisions row hrow d (hsubset hd)) nextAfter
  case pins =>
    intro pin _
    exact MetadataReply.getVersionPin_wire pin.versionId (some pin.reason)

end

end AiArtifactStore.Service
