import AiArtifactStore.Foundation.Segments
import AiArtifactStore.Service.WellFormed

/-!
# Which handler a request reaches

`route` gives an endpoint to exactly the requests whose method and path are those of
the endpoint and whose ids are valid.  Two checks are missing: the routes of
replication runs do not look at the run id, and the negotiation leaves the method to
its handler.
-/

namespace AiArtifactStore.Service

open AiArtifactStore.Foundation
open AiArtifactStore.Identity
open AiArtifactStore.Metadata

/-! ## Resources -/

inductive Resource where
  | storageNodes
  | replicationRuns
  | artifactVersions
  | lifecyclePolicies
  | lifecycleRuns
  | uploadSessions
  | chunks
  | gcRuns
  deriving DecidableEq

def Resource.stem : Resource → List Char
  | .storageNodes => kStorageNodesCollection
  | .replicationRuns => kReplicationRunsCollection
  | .artifactVersions => kArtifactVersionsPrefix
  | .lifecyclePolicies => kLifecyclePoliciesCollection
  | .lifecycleRuns => kLifecycleRunsCollection
  | .uploadSessions => kUploadSessionsCollection
  | .chunks => kChunkRoutePrefix
  | .gcRuns => kGcRunsCollection

theorem stems_incomparable {r r' : Resource} (h : r ≠ r') : ¬r.stem <+: r'.stem := by
  cases r <;> cases r' <;> first | exact absurd rfl h | decide

theorem not_stem {r : Resource} {path : List Char} (h : r.stem <+: path) (r' : Resource)
    (hne : r' ≠ r) :
    ¬r'.stem <+: path :=
  not_prefix_of_prefix h (stems_incomparable hne) (stems_incomparable (Ne.symm hne))

def Endpoint.resource : Endpoint → Option Resource
  | .health => none
  | .listStorageNodes | .getStorageNode _ | .putStorageNode _ => some .storageNodes
  | .startReplicationRun | .getReplicationRun _ | .getReplicationPlan _
  | .completeReplicationRun _ => some .replicationRuns
  | .getRestorePlan _ _ | .getMultiNodeRestorePlan _ | .putVersionPin _ | .deleteVersionPin _
  | .getVersionPin _ => some .artifactVersions
  | .registerLifecyclePolicy | .getLifecyclePolicy _ => some .lifecyclePolicies
  | .runLifecycle | .getLifecycleRun _ | .listLifecycleDecisions _ _ => some .lifecycleRuns
  | .createUploadSession | .getUploadSession _ | .abortUploadSession _
  | .finalizeUploadSession _ => some .uploadSessions
  | .negotiateChunks | .getStorageLocations _ | .putStorageLocation _ _ => some .chunks
  | .startGcRun | .getGcRun _ | .classifyGcChunks _ | .completeGcRun _ => some .gcRuns

section

variable {request : Request}

theorem ItemPath.starts {before after : List Char} {id : String}
    (h : ItemPath request before id after) : before <+: request.path :=
  ⟨id.toList ++ after, by rw [h.1, List.append_assoc]⟩

theorem ContentPath.starts {before after : List Char} {id : ContentId}
    (h : ContentPath request before id after) : before <+: request.path := by
  obtain ⟨text, -, hpath⟩ := h
  exact ⟨text ++ after, by rw [hpath, List.append_assoc]⟩

theorem stem_of_path {e : Endpoint} {r : Resource} (hr : e.resource = some r)
    (h : e.Path request) : r.stem <+: request.path := by
  have hnodes : kStorageNodesCollection <+: kStorageNodesPrefix := by decide
  have hruns : kReplicationRunsCollection <+: kReplicationRunsPrefix := by decide
  have hpolicies : kLifecyclePoliciesCollection <+: kLifecyclePoliciesPrefix := by decide
  have hlifecycle : kLifecycleRunsCollection <+: kLifecycleRunsPrefix := by decide
  have hsessions : kUploadSessionsCollection <+: kUploadSessionsPrefix := by decide
  have hnegotiate : kChunkRoutePrefix <+: kNegotiatePath := by decide
  have hgc : kGcRunsCollection <+: kGcRunsPrefix := by decide
  cases e <;> cases hr
  case listStorageNodes => exact h ▸ List.prefix_refl _
  case getStorageNode => exact hnodes.trans h.1.starts
  case putStorageNode => exact hnodes.trans h.1.starts
  case startReplicationRun => exact h ▸ List.prefix_refl _
  case getReplicationRun => exact hruns.trans h.starts
  case getReplicationPlan => exact hruns.trans h.starts
  case completeReplicationRun => exact hruns.trans h.starts
  case getRestorePlan => exact h.elim (fun h => h.1.starts) fun h => h.1.starts
  case getMultiNodeRestorePlan => exact h.1.starts
  case putVersionPin => exact h.1.starts
  case deleteVersionPin => exact h.1.starts
  case getVersionPin => exact h.1.starts
  case registerLifecyclePolicy => exact h.1 ▸ List.prefix_refl _
  case getLifecyclePolicy => exact hpolicies.trans h.1.starts
  case runLifecycle => exact h.1 ▸ List.prefix_refl _
  case getLifecycleRun => exact hlifecycle.trans h.1.starts
  case listLifecycleDecisions => exact hlifecycle.trans h.1.starts
  case createUploadSession => exact h.1 ▸ List.prefix_refl _
  case getUploadSession => exact hsessions.trans h.1.starts
  case abortUploadSession => exact hsessions.trans h.1.starts
  case finalizeUploadSession => exact hsessions.trans h.1.starts
  case negotiateChunks => exact h.1 ▸ hnegotiate
  case getStorageLocations => exact h.1.starts
  case putStorageLocation => exact h.1.starts
  case startGcRun => exact h.1 ▸ List.prefix_refl _
  case getGcRun => exact hgc.trans h.1.starts
  case classifyGcChunks => exact hgc.trans h.1.starts
  case completeGcRun => exact hgc.trans h.1.starts

/-! ## Paths of other resources -/

theorem outside_collection {collection items : List Char} (hitems : collection <+: items)
    (h : ¬collection <+: request.path) :
    request.path ≠ collection ∧ request.path.dropPrefix? items = none :=
  ⟨fun hpath => h (hpath ▸ List.prefix_refl _), dropPrefix?_eq_none fun hpath => h (hitems.trans hpath)⟩

theorem storageNodeRoutes_eq_none (h : ¬kStorageNodesCollection <+: request.path) :
    storageNodeRoutes request = none := by
  obtain ⟨hpath, hitems⟩ := outside_collection (show _ <+: kStorageNodesPrefix by decide) h
  rw [storageNodeRoutes, if_neg hpath, hitems]
  rfl

theorem replicationRunRoutes_eq_none (h : ¬kReplicationRunsCollection <+: request.path) :
    replicationRunRoutes request = none := by
  obtain ⟨hpath, hitems⟩ := outside_collection (show _ <+: kReplicationRunsPrefix by decide) h
  rw [replicationRunRoutes, if_neg hpath, hitems]
  rfl

theorem multiNodeRestorePlanRoutes_eq_none (h : ¬kArtifactVersionsPrefix <+: request.path) :
    multiNodeRestorePlanRoutes request = none := by
  rw [multiNodeRestorePlanRoutes, dropPrefix?_eq_none h]
  rfl

theorem lifecyclePolicyRoutes_eq_none (h : ¬kLifecyclePoliciesCollection <+: request.path) :
    lifecyclePolicyRoutes request = none := by
  obtain ⟨hpath, hitems⟩ := outside_collection (show _ <+: kLifecyclePoliciesPrefix by decide) h
  rw [lifecyclePolicyRoutes, if_neg hpath, hitems]
  rfl

theorem lifecycleRunRoutes_eq_none (h : ¬kLifecycleRunsCollection <+: request.path) :
    lifecycleRunRoutes request = none := by
  obtain ⟨hpath, hitems⟩ := outside_collection (show _ <+: kLifecycleRunsPrefix by decide) h
  rw [lifecycleRunRoutes, if_neg hpath, hitems]
  rfl

theorem versionPinRoutes_eq_none (h : ¬kArtifactVersionsPrefix <+: request.path) :
    versionPinRoutes request = none := by
  rw [versionPinRoutes, pinVersionText, dropPrefix?_eq_none h]
  rfl

theorem uploadSessionRoutes_eq_none (h : ¬kUploadSessionsCollection <+: request.path) :
    uploadSessionRoutes request = none := by
  obtain ⟨hpath, hitems⟩ := outside_collection (show _ <+: kUploadSessionsPrefix by decide) h
  rw [uploadSessionRoutes, itemRoutes, if_neg hpath, hitems]
  rfl

theorem negotiateRoutes_eq_none (h : ¬kChunkRoutePrefix <+: request.path) :
    negotiateRoutes request = none := by
  have hnegotiate : kChunkRoutePrefix <+: kNegotiatePath := by decide
  have hpath : request.path ≠ kNegotiatePath := fun hpath => h (hpath ▸ hnegotiate)
  rw [negotiateRoutes, if_neg hpath]

theorem restorePlanRoutes_eq_none (h : ¬kArtifactVersionsPrefix <+: request.path) :
    restorePlanRoutes request = none := by
  rw [restorePlanRoutes, dropPrefix?_eq_none h]
  rfl

theorem locationRoutes_eq_none (h : ¬kChunkRoutePrefix <+: request.path) :
    locationRoutes request = none := by
  rw [locationRoutes, dropPrefix?_eq_none h]
  rfl

/-! ## What each group of routes accepts -/

def Endpoint.TakesAnyRunId : Endpoint → Prop
  | .getReplicationRun _ | .getReplicationPlan _ | .completeReplicationRun _ => True
  | _ => False

def Endpoint.Routed (request : Request) (e : Endpoint) : Prop :=
  (request.method = e.method ∨ e = .negotiateChunks) ∧ e.Path request ∧
    (e.IdsValid ∨ e.TakesAnyRunId)

variable {e : Endpoint}

@[simp] theorem only_eq_ok {method : Verb} {allow : String} {endpoint : Endpoint} :
    only request method allow endpoint = .ok e ↔ request.method = method ∧ endpoint = e := by
  rw [only]
  split <;> simp_all

theorem storageNodeRoutes_sound (h : storageNodeRoutes request = some (.ok e)) :
    e.Routed request := by
  rw [storageNodeRoutes] at h
  split at h
  case isTrue hpath =>
    obtain ⟨hmethod, rfl⟩ := only_eq_ok.mp (Option.some.inj h)
    exact ⟨.inl hmethod, hpath, .inl trivial⟩
  case isFalse =>
    obtain ⟨nodeId, hitems, h⟩ := Option.map_eq_some_iff.mp h
    simp only [bind_eq_ok, exists_unit, failIf_eq_ok, not_or, Bool.not_eq_true] at h
    obtain ⟨⟨hsegment, hvalid⟩, hfragment, h⟩ := h
    have hpath : ItemPath request kStorageNodesPrefix (String.ofList nodeId) [] := by
      simpa [ItemPath, hsegment] using dropPrefix?_eq_some.mp hitems
    split at h
    · obtain rfl := Except.ok.inj h
      exact ⟨.inl ‹_›, ⟨hpath, hfragment⟩, .inl hvalid⟩
    · split at h
      · obtain rfl := Except.ok.inj h
        exact ⟨.inl ‹_›, ⟨hpath, hfragment⟩, .inl hvalid⟩
      · cases h

theorem inside_items {collection items rest : List Char} (hitems : ¬items <+: collection)
    (h : request.path = items ++ rest) :
    request.path ≠ collection ∧ request.path.dropPrefix? items = some rest :=
  ⟨fun hpath => hitems ⟨rest, by rw [← h, hpath]⟩, dropPrefix?_eq_some.mpr h⟩

theorem ItemPath.eq {before after : List Char} {id : String}
    (h : ItemPath request before id after) : request.path = before ++ (id.toList ++ after) := by
  rw [h.1, List.append_assoc]

theorem Endpoint.Routed.method (h : e.Routed request) (hne : e ≠ .negotiateChunks) :
    request.method = e.method :=
  h.1.resolve_right hne

theorem Endpoint.Routed.idsValid (h : e.Routed request) (hne : ¬e.TakesAnyRunId) : e.IdsValid :=
  h.2.2.resolve_right hne

theorem storageNodeRoutes_complete (h : e.Routed request)
    (hr : e.resource = some .storageNodes) : storageNodeRoutes request = some (.ok e) := by
  have hpath := h.2.1
  cases e <;> cases hr
  case listStorageNodes =>
    change request.path = kStorageNodesCollection at hpath
    have hmethod : request.method = .get := h.method (by simp)
    simp [storageNodeRoutes, hpath, only, hmethod]
  case getStorageNode nodeId =>
    obtain ⟨hne, hdrop⟩ := inside_items (show ¬_ <+: kStorageNodesCollection by decide) hpath.1.eq
    have hmethod : request.method = .get := h.method (by simp)
    have hvalid : nodeIdInvalid nodeId = false := h.idsValid id
    simp [storageNodeRoutes, hne, hdrop, hmethod, hvalid, hpath.1.2, hpath.2, failIf]
  case putStorageNode nodeId =>
    obtain ⟨hne, hdrop⟩ := inside_items (show ¬_ <+: kStorageNodesCollection by decide) hpath.1.eq
    have hmethod : request.method = .put := h.method (by simp)
    have hvalid : nodeIdInvalid nodeId = false := h.idsValid id
    simp [storageNodeRoutes, hne, hdrop, hmethod, hvalid, hpath.1.2, hpath.2, failIf]

theorem replicationRunRoutes_sound (h : replicationRunRoutes request = some (.ok e)) :
    e.Routed request := by
  rw [replicationRunRoutes] at h
  split at h
  case isTrue hpath =>
    obtain ⟨hmethod, rfl⟩ := only_eq_ok.mp (Option.some.inj h)
    exact ⟨.inl hmethod, hpath, .inl trivial⟩
  case isFalse =>
    obtain ⟨remainder, hitems, h⟩ := Option.bind_eq_some_iff.mp h
    cases hsplit : splitAtSlash remainder with
    | mk runId subroute =>
        obtain ⟨hremainder, hsegment, -⟩ := of_span_separator hsplit
        have hpath : ItemPath request kReplicationRunsPrefix (String.ofList runId) subroute := by
          simp [ItemPath, hsegment, dropPrefix?_eq_some.mp hitems, hremainder]
        simp only [hsplit] at h
        split at h
        case isTrue hsubroute =>
          obtain ⟨hmethod, rfl⟩ := only_eq_ok.mp (Option.some.inj h)
          subst hsubroute
          exact ⟨.inl hmethod, hpath, .inr trivial⟩
        split at h
        case isTrue hsubroute =>
          obtain ⟨hmethod, rfl⟩ := only_eq_ok.mp (Option.some.inj h)
          subst hsubroute
          exact ⟨.inl hmethod, hpath, .inr trivial⟩
        split at h
        case isTrue hsubroute =>
          obtain ⟨hmethod, rfl⟩ := only_eq_ok.mp (Option.some.inj h)
          subst hsubroute
          exact ⟨.inl hmethod, hpath, .inr trivial⟩
        case isFalse => cases h

theorem ItemPath.split {collection items after : List Char} {id : String}
    (h : ItemPath request items id after) (hafter : Separated '/' after)
    (hitems : ¬items <+: collection) :
    request.path ≠ collection ∧
      ∃ remainder, request.path.dropPrefix? items = some remainder ∧
        splitAtSlash remainder = (id.toList, after) := by
  obtain ⟨hne, hdrop⟩ := inside_items hitems h.eq
  exact ⟨hne, _, hdrop, span_separator h.2 hafter⟩

theorem replicationRunRoutes_complete (h : e.Routed request)
    (hr : e.resource = some .replicationRuns) : replicationRunRoutes request = some (.ok e) := by
  have hitems : ¬kReplicationRunsPrefix <+: kReplicationRunsCollection := by decide
  have hpath := h.2.1
  cases e <;> cases hr
  case startReplicationRun =>
    change request.path = kReplicationRunsCollection at hpath
    have hmethod : request.method = .post := h.method (by simp)
    simp [replicationRunRoutes, hpath, only, hmethod]
  case getReplicationRun runId =>
    obtain ⟨hne, remainder, hdrop, hsplit⟩ := hpath.split (.inl rfl) hitems
    rw [replicationRunRoutes, if_neg hne, hdrop, Option.bind_some]
    simp only [hsplit, if_true, String.ofList_toList]
    exact congrArg some (only_eq_ok.mpr ⟨h.method (by simp), rfl⟩)
  case getReplicationPlan runId =>
    obtain ⟨hne, remainder, hdrop, hsplit⟩ := hpath.split (.inr rfl) hitems
    rw [replicationRunRoutes, if_neg hne, hdrop, Option.bind_some]
    simp only [hsplit, String.ofList_toList]
    rw [if_neg (by decide), if_pos trivial]
    exact congrArg some (only_eq_ok.mpr ⟨h.method (by simp), rfl⟩)
  case completeReplicationRun runId =>
    obtain ⟨hne, remainder, hdrop, hsplit⟩ := hpath.split (.inr rfl) hitems
    rw [replicationRunRoutes, if_neg hne, hdrop, Option.bind_some]
    simp only [hsplit, String.ofList_toList]
    rw [if_neg (by decide), if_neg (by decide), if_pos trivial]
    exact congrArg some (only_eq_ok.mpr ⟨h.method (by simp), rfl⟩)

theorem getWithUuid_eq_ok {idText : List Char} {endpoint : String → Endpoint} :
    getWithUuid request idText endpoint = .ok e ↔
      ¬request.hasFragment ∧ request.method = .get ∧ isUuid (String.ofList idText) = true ∧
        endpoint (String.ofList idText) = e := by
  simp [getWithUuid, bind_eq_ok]

theorem postCollection_eq_ok {endpoint : Endpoint} :
    postCollection request endpoint = .ok e ↔
      ¬request.hasFragment ∧ request.method = .post ∧ endpoint = e := by
  simp [postCollection, bind_eq_ok]

theorem lifecyclePolicyRoutes_sound (h : lifecyclePolicyRoutes request = some (.ok e)) :
    e.Routed request := by
  rw [lifecyclePolicyRoutes] at h
  split at h
  case isTrue hpath =>
    obtain ⟨hfragment, hmethod, rfl⟩ := postCollection_eq_ok.mp (Option.some.inj h)
    exact ⟨.inl hmethod, ⟨hpath, hfragment⟩, .inl trivial⟩
  case isFalse =>
    obtain ⟨policyId, hitems, h⟩ := Option.bind_eq_some_iff.mp h
    split at h
    case isTrue => cases h
    case isFalse hsegment =>
      obtain ⟨hfragment, hmethod, hvalid, rfl⟩ := getWithUuid_eq_ok.mp (Option.some.inj h)
      have hpath : ItemPath request kLifecyclePoliciesPrefix (String.ofList policyId) [] := by
        simpa [ItemPath, (not_or.mp hsegment).2] using dropPrefix?_eq_some.mp hitems
      exact ⟨.inl hmethod, ⟨hpath, hfragment⟩, .inl hvalid⟩

theorem toList_ne_nil_of_isUuid {id : String} (h : isUuid id = true) : id.toList ≠ [] := by
  intro hnil
  rw [isUuid, UuidV7.parse, hnil] at h
  cases h

theorem lifecyclePolicyRoutes_complete (h : e.Routed request)
    (hr : e.resource = some .lifecyclePolicies) :
    lifecyclePolicyRoutes request = some (.ok e) := by
  have hpath := h.2.1
  cases e <;> cases hr
  case registerLifecyclePolicy =>
    have hmethod : request.method = .post := h.method (by simp)
    rw [lifecyclePolicyRoutes, if_pos hpath.1]
    exact congrArg some (postCollection_eq_ok.mpr ⟨hpath.2, hmethod, rfl⟩)
  case getLifecyclePolicy policyId =>
    obtain ⟨hne, hdrop⟩ :=
      inside_items (show ¬_ <+: kLifecyclePoliciesCollection by decide) hpath.1.eq
    have hmethod : request.method = .get := h.method (by simp)
    have hvalid : isUuid policyId = true := h.idsValid id
    simp [lifecyclePolicyRoutes, hne, hdrop, hpath.1.2, toList_ne_nil_of_isUuid hvalid,
      getWithUuid_eq_ok, hpath.2, hmethod, hvalid]

theorem lifecycleRunRoutes_sound (h : lifecycleRunRoutes request = some (.ok e)) :
    e.Routed request := by
  rw [lifecycleRunRoutes] at h
  split at h
  case isTrue hpath =>
    obtain ⟨hfragment, hmethod, rfl⟩ := postCollection_eq_ok.mp (Option.some.inj h)
    exact ⟨.inl hmethod, ⟨hpath, hfragment⟩, .inl trivial⟩
  case isFalse =>
    obtain ⟨remainder, hitems, h⟩ := Option.bind_eq_some_iff.mp h
    cases hsplit : splitAtSlash remainder with
    | mk runId subroute =>
        obtain ⟨hremainder, hsegment, -⟩ := of_span_separator hsplit
        have hpath : ItemPath request kLifecycleRunsPrefix (String.ofList runId) subroute := by
          simp [ItemPath, hsegment, dropPrefix?_eq_some.mp hitems, hremainder]
        simp only [hsplit] at h
        split at h
        case isTrue hsubroute =>
          obtain ⟨hfragment, hmethod, hvalid, rfl⟩ := getWithUuid_eq_ok.mp (Option.some.inj h)
          subst hsubroute
          exact ⟨.inl hmethod, ⟨hpath, hfragment⟩, .inl hvalid⟩
        split at h
        case isTrue hsubroute =>
          obtain ⟨hfragment, hmethod, hvalid, rfl⟩ := getWithUuid_eq_ok.mp (Option.some.inj h)
          subst hsubroute
          exact ⟨.inl hmethod, ⟨hpath, hfragment, rfl⟩, .inl hvalid⟩
        case isFalse => cases h

theorem lifecycleRunRoutes_complete (h : e.Routed request)
    (hr : e.resource = some .lifecycleRuns) : lifecycleRunRoutes request = some (.ok e) := by
  have hitems : ¬kLifecycleRunsPrefix <+: kLifecycleRunsCollection := by decide
  have hpath := h.2.1
  cases e <;> cases hr
  case runLifecycle =>
    have hmethod : request.method = .post := h.method (by simp)
    rw [lifecycleRunRoutes, if_pos hpath.1]
    exact congrArg some (postCollection_eq_ok.mpr ⟨hpath.2, hmethod, rfl⟩)
  case getLifecycleRun runId =>
    obtain ⟨hne, remainder, hdrop, hsplit⟩ := hpath.1.split (.inl rfl) hitems
    have hvalid : isUuid runId = true := h.idsValid id
    rw [lifecycleRunRoutes, if_neg hne, hdrop, Option.bind_some]
    simp only [hsplit, if_true]
    exact congrArg some (getWithUuid_eq_ok.mpr
      ⟨hpath.2, h.method (by simp), by simpa using hvalid, by simp⟩)
  case listLifecycleDecisions runId query =>
    obtain ⟨hitem, hfragment, rfl⟩ := hpath
    obtain ⟨hne, remainder, hdrop, hsplit⟩ := hitem.split (.inr rfl) hitems
    have hvalid : isUuid runId = true := h.idsValid id
    rw [lifecycleRunRoutes, if_neg hne, hdrop, Option.bind_some]
    simp only [hsplit]
    rw [if_neg (by decide), if_pos trivial]
    exact congrArg some (getWithUuid_eq_ok.mpr
      ⟨hfragment, h.method (by simp), by simpa using hvalid, by simp⟩)

/-! ## Items with actions -/

section

variable {collection items : List Char} {invalidId : String} {create : Endpoint}
  {item : String → Endpoint} {actions : List (List Char × (String → Endpoint))}

def itemAction (item : String → Endpoint) (actions : List (List Char × (String → Endpoint)))
    (subroute : List Char) : Option (Verb × (String → Endpoint)) :=
  if subroute = [] then some (.get, item) else (actions.lookup subroute).map (Prod.mk .post)

theorem itemRoutes_sound
    (h : itemRoutes request collection items invalidId create item actions = some (.ok e)) :
    request.suffix = [] ∧
      (request.path = collection ∧ request.method = .post ∧ create = e ∨
        ∃ id subroute method action, itemAction item actions subroute = some (method, action) ∧
          ItemPath request items id subroute ∧ isUuid id = true ∧ request.method = method ∧
          action id = e) := by
  rw [itemRoutes] at h
  split at h
  case isTrue hpath =>
    simp only [Option.some.injEq, bind_eq_ok, exists_unit, failIf_eq_ok, not_not, only_eq_ok] at h
    exact ⟨h.1, .inl ⟨hpath, h.2⟩⟩
  case isFalse =>
    obtain ⟨remainder, hitems, h⟩ := Option.map_eq_some_iff.mp h
    simp only [bind_eq_ok, exists_unit, failIf_eq_ok, not_not] at h
    obtain ⟨hsuffix, -, h⟩ := h
    cases hsplit : splitAtSlash remainder with
    | mk idText subroute =>
        obtain ⟨hremainder, hsegment, -⟩ := of_span_separator hsplit
        simp only [hsplit] at h
        obtain ⟨hvalid, h⟩ := h
        have hpath : ItemPath request items (String.ofList idText) subroute := by
          simp [ItemPath, hsegment, dropPrefix?_eq_some.mp hitems, hremainder]
        refine ⟨hsuffix, .inr ⟨String.ofList idText, subroute, ?_⟩⟩
        split at h
        case isTrue hsubroute =>
          obtain ⟨hmethod, hitem⟩ := only_eq_ok.mp h
          exact ⟨.get, item, if_pos hsubroute, hpath, hvalid, hmethod, hitem⟩
        case isFalse hsubroute =>
          split at h
          · rename_i action haction
            obtain ⟨hmethod, hitem⟩ := only_eq_ok.mp h
            exact ⟨.post, action, by rw [itemAction, if_neg hsubroute, haction]; rfl, hpath, hvalid,
              hmethod, hitem⟩
          · cases h

theorem itemRoutes_collection (hpath : request.path = collection) (hsuffix : request.suffix = [])
    (hmethod : request.method = .post) :
    itemRoutes request collection items invalidId create item actions = some (.ok create) := by
  simp [itemRoutes, hpath, hsuffix, only, hmethod, failIf]

theorem itemRoutes_item {id : String} {subroute : List Char} {method : Verb}
    {action : String → Endpoint} (hitems : ¬items <+: collection)
    (haction : itemAction item actions subroute = some (method, action))
    (hpath : ItemPath request items id subroute) (hseparated : Separated '/' subroute)
    (hvalid : isUuid id = true) (hsuffix : request.suffix = []) (hmethod : request.method = method) :
    itemRoutes request collection items invalidId create item actions = some (.ok (action id)) := by
  obtain ⟨hne, remainder, hdrop, hsplit⟩ := hpath.split hseparated hitems
  obtain ⟨rfl, hsegment, -⟩ := of_span_separator hsplit
  have hnonempty := toList_ne_nil_of_isUuid hvalid
  have hhead : ¬(id.toList ++ subroute = [] ∨ (id.toList ++ subroute).head? = some '/') := by
    cases hid : id.toList with
    | nil => exact absurd hid hnonempty
    | cons c text =>
        rw [hid, List.mem_cons, not_or] at hsegment
        simpa using Ne.symm hsegment.1
  rw [itemRoutes, if_neg hne, hdrop, Option.map_some]
  simp only [hsplit, String.ofList_toList, failIf_of_false (not_not.mpr hsuffix),
    failIf_of_false hhead, failIf_of_false (not_not.mpr hvalid), ok_bind]
  rw [itemAction] at haction
  split at haction
  case isTrue hsubroute =>
    obtain ⟨rfl, rfl⟩ := Prod.mk.inj (Option.some.inj haction)
    rw [if_pos hsubroute, only_eq_ok.mpr ⟨hmethod, rfl⟩]
  case isFalse hsubroute =>
    obtain ⟨found, hfound, hpair⟩ := Option.map_eq_some_iff.mp haction
    obtain ⟨rfl, rfl⟩ := Prod.mk.inj hpair
    simp only [if_neg hsubroute, hfound]
    rw [only_eq_ok.mpr ⟨hmethod, rfl⟩]

end

theorem itemAction_pair {first second : List Char} {onFirst onSecond : String → Endpoint}
    {item action : String → Endpoint} {subroute : List Char} {method : Verb}
    (h : itemAction item [(first, onFirst), (second, onSecond)] subroute = some (method, action)) :
    subroute = [] ∧ method = .get ∧ action = item ∨
      subroute = first ∧ method = .post ∧ action = onFirst ∨
        subroute = second ∧ method = .post ∧ action = onSecond := by
  rw [itemAction] at h
  split at h
  case isTrue hsubroute =>
    obtain ⟨rfl, rfl⟩ := Prod.mk.inj (Option.some.inj h)
    exact .inl ⟨hsubroute, rfl, rfl⟩
  case isFalse =>
    obtain ⟨found, hfound, hpair⟩ := Option.map_eq_some_iff.mp h
    obtain ⟨rfl, rfl⟩ := Prod.mk.inj hpair
    simp only [List.lookup_cons, List.lookup_nil] at hfound
    split at hfound
    · rename_i heq
      exact .inr (.inl ⟨eq_of_beq heq, rfl, (Option.some.inj hfound).symm⟩)
    · split at hfound
      · rename_i heq
        exact .inr (.inr ⟨eq_of_beq heq, rfl, (Option.some.inj hfound).symm⟩)
      · cases hfound

theorem uploadSessionRoutes_sound (h : uploadSessionRoutes request = some (.ok e)) :
    e.Routed request := by
  obtain ⟨hsuffix, ⟨hpath, hmethod, rfl⟩ | ⟨id, subroute, method, action, haction, hrest⟩⟩ :=
    itemRoutes_sound h
  · exact ⟨.inl hmethod, ⟨hpath, hsuffix⟩, .inl trivial⟩
  · obtain ⟨hpath, hvalid, hmethod, rfl⟩ := hrest
    obtain ⟨rfl, rfl, rfl⟩ | ⟨rfl, rfl, rfl⟩ | ⟨rfl, rfl, rfl⟩ := itemAction_pair haction
    · exact ⟨.inl hmethod, ⟨hpath, hsuffix⟩, .inl hvalid⟩
    · exact ⟨.inl hmethod, ⟨hpath, hsuffix⟩, .inl hvalid⟩
    · exact ⟨.inl hmethod, ⟨hpath, hsuffix⟩, .inl hvalid⟩

theorem uploadSessionRoutes_complete (h : e.Routed request)
    (hr : e.resource = some .uploadSessions) : uploadSessionRoutes request = some (.ok e) := by
  have hitems : ¬kUploadSessionsPrefix <+: kUploadSessionsCollection := by decide
  have hpath := h.2.1
  cases e <;> cases hr
  case createUploadSession =>
    exact itemRoutes_collection hpath.1 hpath.2 (h.method (by simp))
  case getUploadSession id =>
    exact itemRoutes_item hitems rfl hpath.1 (.inl rfl) (h.idsValid nofun) hpath.2 (h.method (by simp))
  case abortUploadSession id =>
    exact itemRoutes_item hitems rfl hpath.1 (.inr rfl) (h.idsValid nofun) hpath.2 (h.method (by simp))
  case finalizeUploadSession id =>
    exact itemRoutes_item hitems rfl hpath.1 (.inr rfl) (h.idsValid nofun) hpath.2 (h.method (by simp))

theorem gcRunRoutes_sound (h : gcRunRoutes request = some (.ok e)) : e.Routed request := by
  obtain ⟨hsuffix, ⟨hpath, hmethod, rfl⟩ | ⟨id, subroute, method, action, haction, hrest⟩⟩ :=
    itemRoutes_sound h
  · exact ⟨.inl hmethod, ⟨hpath, hsuffix⟩, .inl trivial⟩
  · obtain ⟨hpath, hvalid, hmethod, rfl⟩ := hrest
    obtain ⟨rfl, rfl, rfl⟩ | ⟨rfl, rfl, rfl⟩ | ⟨rfl, rfl, rfl⟩ := itemAction_pair haction
    · exact ⟨.inl hmethod, ⟨hpath, hsuffix⟩, .inl hvalid⟩
    · exact ⟨.inl hmethod, ⟨hpath, hsuffix⟩, .inl hvalid⟩
    · exact ⟨.inl hmethod, ⟨hpath, hsuffix⟩, .inl hvalid⟩

theorem gcRunRoutes_complete (h : e.Routed request) (hr : e.resource = some .gcRuns) :
    gcRunRoutes request = some (.ok e) := by
  have hitems : ¬kGcRunsPrefix <+: kGcRunsCollection := by decide
  have hpath := h.2.1
  cases e <;> cases hr
  case startGcRun =>
    exact itemRoutes_collection hpath.1 hpath.2 (h.method (by simp))
  case getGcRun id =>
    exact itemRoutes_item hitems rfl hpath.1 (.inl rfl) (h.idsValid nofun) hpath.2 (h.method (by simp))
  case classifyGcChunks id =>
    exact itemRoutes_item hitems rfl hpath.1 (.inr rfl) (h.idsValid nofun) hpath.2 (h.method (by simp))
  case completeGcRun id =>
    exact itemRoutes_item hitems rfl hpath.1 (.inr rfl) (h.idsValid nofun) hpath.2 (h.method (by simp))

/-! ## Content ids in paths -/

theorem ofHexDigitsFrom?_digits {acc n : Nat} {cs : List Char}
    (h : ofHexDigitsFrom? acc cs = some n) : '/' ∉ cs := by
  induction cs generalizing acc with
  | nil => exact List.not_mem_nil
  | cons c cs ih =>
      rw [ofHexDigitsFrom?] at h
      split at h
      · cases h
      · rename_i d hd
        rw [List.mem_cons, not_or]
        refine ⟨?_, ih h⟩
        rintro rfl
        cases hd

theorem contentId?_eq_some {text : List Char} {id : ContentId} (h : contentId? text = some id) :
    text.length = 64 ∧ '/' ∉ text := by
  rw [contentId?, ContentId.ofHex?, String.toList_ofList] at h
  split at h
  case isTrue hlength =>
    obtain ⟨n, hdigits, -⟩ := Option.map_eq_some_iff.mp h
    exact ⟨hlength, ofHexDigitsFrom?_digits hdigits⟩
  case isFalse => cases h

theorem negotiateRoutes_eq_ok :
    negotiateRoutes request = some (.ok e) ↔
      e = .negotiateChunks ∧ request.path = kNegotiatePath ∧ request.suffix = [] := by
  rw [negotiateRoutes]
  split
  case isTrue hpath =>
    simp only [Option.some.injEq, bind_eq_ok, exists_unit, failIf_eq_ok, not_not, Except.ok.injEq]
    exact ⟨fun h => ⟨h.2.symm, hpath, h.1⟩, fun h => ⟨h.2.2, h.1.symm⟩⟩
  case isFalse hpath => exact ⟨nofun, fun h => absurd h.2.1 hpath⟩

theorem locationRoutes_sound (h : locationRoutes request = some (.ok e)) : e.Routed request := by
  obtain ⟨afterPrefix, hitems, h⟩ := Option.map_eq_some_iff.mp h
  rw [dropPrefix?_eq_some] at hitems
  cases hsplit : splitAtSlash afterPrefix with
  | mk chunkText remainder =>
      obtain ⟨rfl, hsegment, -⟩ := of_span_separator hsplit
      simp only [hsplit, bind_eq_ok, orFail_eq_ok] at h
      obtain ⟨chunkId, hchunk, h⟩ := h
      split at h
      case isTrue hremainder =>
        simp only [bind_eq_ok, exists_unit, failIf_eq_ok, not_not, only_eq_ok] at h
        obtain ⟨hsuffix, hmethod, rfl⟩ := h
        have hpath : ContentPath request kChunkRoutePrefix chunkId kLocationsSuffix :=
          ⟨chunkText, hchunk, by rw [hitems, hremainder, List.append_assoc]⟩
        exact ⟨.inl hmethod, ⟨hpath, hsuffix⟩, .inl trivial⟩
      case isFalse =>
        simp only [bind_eq_ok, exists_unit, failIf_eq_ok, not_not, not_or, only_eq_ok, orFail_eq_ok,
          dropPrefix?_eq_some] at h
        obtain ⟨nodeId, rfl, ⟨hnode, hvalid⟩, hsuffix, hmethod, rfl⟩ := h
        have hpath : ContentPath request kChunkRoutePrefix chunkId
            (kLocationsPrefix ++ (String.ofList nodeId).toList) :=
          ⟨chunkText, hchunk, by rw [hitems, String.toList_ofList, List.append_assoc]⟩
        exact ⟨.inl hmethod, ⟨hpath, by rwa [String.toList_ofList], hsuffix⟩,
          .inl (Bool.eq_false_of_not_eq_true hvalid)⟩

theorem locationRoutes_complete (h : e.Routed request) (hr : e.resource = some .chunks)
    (hne : e ≠ .negotiateChunks) : locationRoutes request = some (.ok e) := by
  have hpath := h.2.1
  cases e <;> cases hr
  case negotiateChunks => exact absurd rfl hne
  case getStorageLocations chunkId =>
    obtain ⟨⟨text, htext, hpath⟩, hsuffix⟩ := hpath
    rw [List.append_assoc] at hpath
    have hsplit : splitAtSlash (text ++ kLocationsSuffix) = (text, kLocationsSuffix) :=
      span_separator (contentId?_eq_some htext).2 (.inr rfl)
    rw [locationRoutes, dropPrefix?_eq_some.mpr hpath, Option.map_some]
    simp only [hsplit, htext, orFail_some, ok_bind, if_true, failIf_of_false (not_not.mpr hsuffix)]
    exact congrArg some (only_eq_ok.mpr ⟨h.method (by simp), rfl⟩)
  case putStorageLocation chunkId nodeId =>
    obtain ⟨⟨text, htext, hpath⟩, hnode, hsuffix⟩ := hpath
    rw [List.append_assoc] at hpath
    have hsplit : splitAtSlash (text ++ (kLocationsPrefix ++ nodeId.toList)) =
        (text, kLocationsPrefix ++ nodeId.toList) :=
      span_separator (contentId?_eq_some htext).2 (.inr rfl)
    have hitem : kLocationsPrefix ++ nodeId.toList ≠ kLocationsSuffix := fun hitem =>
      absurd ⟨nodeId.toList, hitem⟩ (show ¬kLocationsPrefix <+: kLocationsSuffix by decide)
    have hvalid : ¬('/' ∈ nodeId.toList ∨ nodeIdInvalid (String.ofList nodeId.toList) = true) := by
      have hnodeId : nodeIdInvalid nodeId = false := h.idsValid id
      simp [hnode, hnodeId]
    rw [locationRoutes, dropPrefix?_eq_some.mpr hpath, Option.map_some]
    simp only [hsplit, htext, orFail_some, ok_bind, if_neg hitem, dropPrefix?_append,
      failIf_of_false hvalid, failIf_of_false (not_not.mpr hsuffix)]
    exact congrArg some (only_eq_ok.mpr ⟨h.method (by simp), by rw [String.ofList_toList]⟩)

/-! ## Versions -/

theorem restorePlanQuery_eq_ok {versionId : ContentId} :
    restorePlanQuery request versionId = .ok e ↔
      request.method = .get ∧
        ((∃ nodeId, parseQueryParam request.query "source_node_id" = some nodeId ∧
            nodeIdInvalid (String.ofList nodeId) = false ∧
            .getRestorePlan versionId (String.ofList nodeId) = e) ∨
          parseQueryParam request.query "source_node_id" = none ∧
            .getMultiNodeRestorePlan versionId = e) := by
  simp only [restorePlanQuery, bind_eq_ok, exists_unit, failIf_eq_ok, not_not]
  cases parseQueryParam request.query "source_node_id" with
  | none => simp
  | some nodeId => simp [bind_eq_ok]

theorem multiNodeRestorePlanRoutes_sound
    (h : multiNodeRestorePlanRoutes request = some (.ok e)) : e.Routed request := by
  obtain ⟨afterPrefix, hitems, h⟩ := Option.bind_eq_some_iff.mp h
  obtain ⟨⟨versionText, afterRestore⟩, hinside, h⟩ := Option.bind_eq_some_iff.mp h
  cases hversion : contentId? versionText with
  | none =>
      simp only [hversion] at h
      cases h
  | some versionId =>
      simp only [hversion] at h
      split at h
      · have hpath : ContentPath request kArtifactVersionsPrefix versionId kRestorePlanSuffix := by
          refine ⟨versionText, hversion, ?_⟩
          rw [dropPrefix?_eq_some.mp hitems, eq_of_dropInfix? hinside]
          simp
        obtain ⟨hmethod, ⟨nodeId, hquery, hvalid, rfl⟩ | ⟨hquery, rfl⟩⟩ :=
          restorePlanQuery_eq_ok.mp (Option.some.inj h)
        · exact ⟨.inl hmethod, .inl ⟨hpath, by rw [hquery, String.toList_ofList]⟩, .inl hvalid⟩
        · exact ⟨.inl hmethod, ⟨hpath, hquery⟩, .inl trivial⟩
      · split at h <;> cases h
      · cases h

theorem multiNodeRestorePlanRoutes_query {versionId : ContentId}
    (hpath : ContentPath request kArtifactVersionsPrefix versionId kRestorePlanSuffix)
    (hquery : restorePlanQuery request versionId = .ok e) :
    multiNodeRestorePlanRoutes request = some (.ok e) := by
  obtain ⟨text, htext, hpath⟩ := hpath
  rw [List.append_assoc] at hpath
  have hinside : (text ++ kRestorePlanSuffix).dropInfix? kRestorePlanSuffix = some (text, []) := by
    have h := @dropInfix?_append _ _ _ '/' "restore-plan".toList text []
      (contentId?_eq_some htext).2
    rwa [List.append_nil] at h
  rw [multiNodeRestorePlanRoutes, dropPrefix?_eq_some.mpr hpath, Option.bind_some, hinside,
    Option.bind_some]
  simp only [htext]
  rw [hquery]

theorem restorePlanRoutes_sound (h : restorePlanRoutes request = some (.ok e)) :
    e.Routed request := by
  obtain ⟨afterPrefix, hitems, h⟩ := Option.map_eq_some_iff.mp h
  simp only [bind_eq_ok, exists_unit, failIf_eq_ok, not_not, not_or, only_eq_ok, orFail_eq_ok] at h
  obtain ⟨⟨versionText, nodeId⟩, hinside, versionId, hversion, ⟨-, hnode⟩, hvalid, hsuffix, hmethod,
    rfl⟩ := h
  have hpath : ContentPath request kArtifactVersionsPrefix versionId
      (kRestorePlanInfix ++ (String.ofList nodeId).toList) := by
    refine ⟨versionText, hversion, ?_⟩
    rw [dropPrefix?_eq_some.mp hitems, eq_of_dropInfix? hinside, String.toList_ofList]
    simp
  exact ⟨.inl hmethod, .inr ⟨hpath, by rwa [String.toList_ofList], hsuffix⟩,
    .inl (Bool.eq_false_of_not_eq_true hvalid)⟩

theorem path_of_pinVersionText {text : List Char} {versionId : ContentId}
    (h : pinVersionText request.path = some text) (hversion : contentId? text = some versionId) :
    request.path = kArtifactVersionsPrefix ++ text ++ kPinSuffix := by
  obtain ⟨afterPrefix, hitems, h⟩ := Option.bind_eq_some_iff.mp h
  rw [dropPrefix?_eq_some] at hitems
  split at h
  case isFalse => cases h
  case isTrue hsuffix =>
    have hlength := (contentId?_eq_some hversion).1
    obtain rfl := Option.some.inj h
    have hpin : kPinSuffix.length = 4 := by decide
    split at hlength
    case isTrue hshort => omega
    case isFalse hlong =>
      have hafter : kPinSuffix <:+ afterPrefix :=
        List.suffix_of_suffix_length_le hsuffix (hitems ▸ List.suffix_append _ _)
          (Nat.le_of_not_lt hlong)
      obtain ⟨front, rfl⟩ := hafter
      rw [if_neg hlong, hitems]
      simp

theorem versionPinRoutes_sound (h : versionPinRoutes request = some (.ok e)) :
    e.Routed request := by
  obtain ⟨text, htext, h⟩ := Option.bind_eq_some_iff.mp h
  split at h
  case isTrue => cases h
  case isFalse =>
    simp only [Option.some.injEq, bind_eq_ok, exists_unit, failIf_eq_ok, orFail_eq_ok] at h
    obtain ⟨hfragment, versionId, hversion, h⟩ := h
    have hpath : ContentPath request kArtifactVersionsPrefix versionId kPinSuffix :=
      ⟨text, hversion, path_of_pinVersionText htext hversion⟩
    split at h
    · obtain rfl := Except.ok.inj h
      exact ⟨.inl ‹_›, ⟨hpath, hfragment⟩, .inl trivial⟩
    split at h
    · obtain rfl := Except.ok.inj h
      exact ⟨.inl ‹_›, ⟨hpath, hfragment⟩, .inl trivial⟩
    split at h
    · obtain rfl := Except.ok.inj h
      exact ⟨.inl ‹_›, ⟨hpath, hfragment⟩, .inl trivial⟩
    · cases h

theorem multiNodeRestorePlanRoutes_pin {versionId : ContentId}
    (hpath : ContentPath request kArtifactVersionsPrefix versionId kPinSuffix) :
    multiNodeRestorePlanRoutes request = none := by
  obtain ⟨text, htext, hpath⟩ := hpath
  rw [List.append_assoc] at hpath
  have hinside : ¬kRestorePlanSuffix <:+: text ++ kPinSuffix := by
    rintro ⟨front, back, hsplit⟩
    have hlength := congrArg List.length hsplit
    rw [List.append_assoc] at hsplit
    have hfront := length_le_of_split (contentId?_eq_some htext).2 hsplit.symm
    have hrestore : kRestorePlanSuffix.length = 13 := by decide
    have hpin : kPinSuffix.length = 4 := by decide
    simp only [List.length_append] at hlength
    omega
  rw [multiNodeRestorePlanRoutes, dropPrefix?_eq_some.mpr hpath, Option.bind_some,
    dropInfix?_eq_none hinside]
  rfl

theorem versionPinRoutes_complete {versionId : ContentId}
    (hpath : ContentPath request kArtifactVersionsPrefix versionId kPinSuffix)
    (hfragment : ¬request.hasFragment)
    (he : request.method = .put ∧ e = .putVersionPin versionId ∨
      request.method = .delete ∧ e = .deleteVersionPin versionId ∨
        request.method = .get ∧ e = .getVersionPin versionId) :
    versionPinRoutes request = some (.ok e) := by
  obtain ⟨text, htext, hpath⟩ := hpath
  have htake : (if (text ++ kPinSuffix).length < kPinSuffix.length then text ++ kPinSuffix
      else (text ++ kPinSuffix).take ((text ++ kPinSuffix).length - kPinSuffix.length)) = text := by
    rw [if_neg (by simp)]
    simp
  have hversion : pinVersionText request.path = some text := by
    rw [pinVersionText, dropPrefix?_eq_some.mpr (hpath.trans (List.append_assoc _ _ _)),
      Option.bind_some, htake, if_pos (hpath ▸ List.suffix_append _ _)]
  have hsegment : ¬(text = [] ∨ '/' ∈ text) := by
    obtain ⟨hlength, hslash⟩ := contentId?_eq_some htext
    rw [not_or]
    refine ⟨?_, hslash⟩
    rintro rfl
    cases hlength
  rw [versionPinRoutes, hversion, Option.bind_some, if_neg hsegment]
  obtain ⟨hmethod, rfl⟩ | ⟨hmethod, rfl⟩ | ⟨hmethod, rfl⟩ := he
  · simp [failIf_of_false hfragment, htext, hmethod]
  · simp [failIf_of_false hfragment, htext, hmethod]
  · simp [failIf_of_false hfragment, htext, hmethod]

theorem multiNodeRestorePlanRoutes_node {versionId : ContentId} {nodeId : List Char}
    (hpath : ContentPath request kArtifactVersionsPrefix versionId (kRestorePlanInfix ++ nodeId))
    (hnode : '/' ∉ nodeId) : multiNodeRestorePlanRoutes request = none := by
  obtain ⟨text, htext, hpath⟩ := hpath
  rw [List.append_assoc] at hpath
  have hinside : (text ++ (kRestorePlanInfix ++ nodeId)).dropInfix? kRestorePlanSuffix =
      some (text, '/' :: nodeId) := by
    have h := @dropInfix?_append _ _ _ '/' "restore-plan".toList text ('/' :: nodeId)
      (contentId?_eq_some htext).2
    rwa [List.append_assoc] at h
  rw [multiNodeRestorePlanRoutes, dropPrefix?_eq_some.mpr hpath, Option.bind_some, hinside,
    Option.bind_some]
  simp only [htext, if_neg hnode]

theorem versionPinRoutes_node {versionId : ContentId} {nodeId : List Char}
    (hpath : ContentPath request kArtifactVersionsPrefix versionId (kRestorePlanInfix ++ nodeId)) :
    versionPinRoutes request = none := by
  obtain ⟨text, htext, hpath⟩ := hpath
  rw [List.append_assoc] at hpath
  rw [versionPinRoutes, pinVersionText, dropPrefix?_eq_some.mpr hpath, Option.bind_some]
  split
  case isFalse => rfl
  case isTrue =>
    have hlength := (contentId?_eq_some htext).1
    have hpin : kPinSuffix.length = 4 := by decide
    have hrestore : kRestorePlanInfix.length = 14 := by decide
    have hslash : '/' ∈ (text ++ (kRestorePlanInfix ++ nodeId)).take
        ((text ++ (kRestorePlanInfix ++ nodeId)).length - kPinSuffix.length) := by
      refine @List.mem_of_getElem? _ _ 64 _ ?_
      rw [List.getElem?_take_of_lt (by simp only [List.length_append]; omega), ← hlength,
        List.getElem?_append_right (Nat.le_refl _), Nat.sub_self]
      rfl
    have hlong : ¬(text ++ (kRestorePlanInfix ++ nodeId)).length < kPinSuffix.length := by
      simp only [List.length_append]
      omega
    rw [Option.bind_some, if_neg hlong, if_pos (.inr hslash)]

theorem restorePlanRoutes_complete {versionId : ContentId} {nodeId : String}
    (hpath : ContentPath request kArtifactVersionsPrefix versionId
      (kRestorePlanInfix ++ nodeId.toList))
    (hnode : '/' ∉ nodeId.toList) (hvalid : nodeIdInvalid nodeId = false)
    (hsuffix : request.suffix = []) (hmethod : request.method = .get) :
    restorePlanRoutes request = some (.ok (.getRestorePlan versionId nodeId)) := by
  obtain ⟨text, htext, hpath⟩ := hpath
  rw [List.append_assoc] at hpath
  have hinside : (text ++ (kRestorePlanInfix ++ nodeId.toList)).dropInfix? kRestorePlanInfix =
      some (text, nodeId.toList) := by
    have h := @dropInfix?_append _ _ _ '/' "restore-plan/".toList text nodeId.toList
      (contentId?_eq_some htext).2
    rwa [List.append_assoc] at h
  have hnonempty : nodeId.toList ≠ [] := by
    intro hnil
    rw [String.toList_eq_nil_iff.mp hnil] at hvalid
    cases hvalid
  rw [restorePlanRoutes, dropPrefix?_eq_some.mpr hpath, Option.map_some]
  simp [hinside, htext, hnonempty, hnode, hvalid, hsuffix, failIf, hmethod]

/-! ## All routes -/

theorem route_sound (h : route request = .ok e) : e.Routed request := by
  rw [route] at h
  split at h
  case isTrue htarget =>
    obtain ⟨hmethod, rfl⟩ := only_eq_ok.mp h
    exact ⟨.inl hmethod, htarget, .inl trivial⟩
  case isFalse =>
    cases hroutes : (tryHandleM8Routes request <|> tryHandleM9Routes request <|>
      uploadSessionRoutes request <|> negotiateRoutes request <|> restorePlanRoutes request <|>
      locationRoutes request <|> gcRunRoutes request) with
    | none =>
        rw [hroutes] at h
        cases h
    | some result =>
        rw [hroutes] at h
        obtain rfl : result = .ok e := h
        rcases (Option.orElse_eq_some ..).mp hroutes with hm8 | ⟨-, hroutes⟩
        · rcases (Option.orElse_eq_some ..).mp hm8 with h | ⟨-, hm8⟩
          · exact storageNodeRoutes_sound h
          rcases (Option.orElse_eq_some ..).mp hm8 with h | ⟨-, h⟩
          · exact replicationRunRoutes_sound h
          · exact multiNodeRestorePlanRoutes_sound h
        rcases (Option.orElse_eq_some ..).mp hroutes with hm9 | ⟨-, hroutes⟩
        · rcases (Option.orElse_eq_some ..).mp hm9 with h | ⟨-, hm9⟩
          · exact lifecyclePolicyRoutes_sound h
          rcases (Option.orElse_eq_some ..).mp hm9 with h | ⟨-, h⟩
          · exact lifecycleRunRoutes_sound h
          · exact versionPinRoutes_sound h
        rcases (Option.orElse_eq_some ..).mp hroutes with h | ⟨-, hroutes⟩
        · exact uploadSessionRoutes_sound h
        rcases (Option.orElse_eq_some ..).mp hroutes with h | ⟨-, hroutes⟩
        · obtain ⟨rfl, hpath, hsuffix⟩ := negotiateRoutes_eq_ok.mp h
          exact ⟨.inr rfl, ⟨hpath, hsuffix⟩, .inl trivial⟩
        rcases (Option.orElse_eq_some ..).mp hroutes with h | ⟨-, hroutes⟩
        · exact restorePlanRoutes_sound h
        rcases (Option.orElse_eq_some ..).mp hroutes with h | ⟨-, h⟩
        · exact locationRoutes_sound h
        · exact gcRunRoutes_sound h

theorem target_ne_health {r : Resource} (h : r.stem <+: request.path) :
    request.target ≠ "/health".toList := by
  intro htarget
  have hpath : request.path = "/health".toList := by
    rw [Request.path, htarget]
    decide
  rw [hpath] at h
  cases r <;> revert h <;> decide

theorem route_of_groups {r : Resource} (h : r.stem <+: request.path) {result : Route}
    (hgroups : (tryHandleM8Routes request <|> tryHandleM9Routes request <|>
      uploadSessionRoutes request <|> negotiateRoutes request <|> restorePlanRoutes request <|>
      locationRoutes request <|> gcRunRoutes request) = some result) :
    route request = result := by
  rw [route, if_neg (target_ne_health h), hgroups]
  rfl

theorem tryHandleM8Routes_eq_none {r : Resource} (h : r.stem <+: request.path)
    (hnodes : .storageNodes ≠ r) (hruns : .replicationRuns ≠ r) (hversions : .artifactVersions ≠ r) :
    tryHandleM8Routes request = none := by
  rw [tryHandleM8Routes, storageNodeRoutes_eq_none (not_stem h _ hnodes),
    replicationRunRoutes_eq_none (not_stem h _ hruns),
    multiNodeRestorePlanRoutes_eq_none (not_stem h _ hversions)]
  rfl

theorem tryHandleM9Routes_eq_none {r : Resource} (h : r.stem <+: request.path)
    (hpolicies : .lifecyclePolicies ≠ r) (hruns : .lifecycleRuns ≠ r)
    (hversions : .artifactVersions ≠ r) : tryHandleM9Routes request = none := by
  rw [tryHandleM9Routes, lifecyclePolicyRoutes_eq_none (not_stem h _ hpolicies),
    lifecycleRunRoutes_eq_none (not_stem h _ hruns), versionPinRoutes_eq_none (not_stem h _ hversions)]
  rfl

theorem versionRoutes_complete (h : e.Routed request) (hr : e.resource = some .artifactVersions) :
    (tryHandleM8Routes request <|> tryHandleM9Routes request <|> uploadSessionRoutes request <|>
      negotiateRoutes request <|> restorePlanRoutes request <|> locationRoutes request <|>
      gcRunRoutes request) = some (.ok e) := by
  have hstem := stem_of_path hr h.2.1
  have hnodes := storageNodeRoutes_eq_none (not_stem hstem .storageNodes nofun)
  have hruns := replicationRunRoutes_eq_none (not_stem hstem .replicationRuns nofun)
  have hpolicies := lifecyclePolicyRoutes_eq_none
    (not_stem hstem .lifecyclePolicies nofun)
  have hlifecycle := lifecycleRunRoutes_eq_none (not_stem hstem .lifecycleRuns nofun)
  have hsessions := uploadSessionRoutes_eq_none (not_stem hstem .uploadSessions nofun)
  have hnegotiate := negotiateRoutes_eq_none (not_stem hstem .chunks nofun)
  have hpath := h.2.1
  have hpin : ∀ versionId, ContentPath request kArtifactVersionsPrefix versionId kPinSuffix →
      ¬request.hasFragment → (request.method = .put ∧ e = .putVersionPin versionId ∨
        request.method = .delete ∧ e = .deleteVersionPin versionId ∨
          request.method = .get ∧ e = .getVersionPin versionId) →
      (tryHandleM8Routes request <|> tryHandleM9Routes request <|> uploadSessionRoutes request <|>
        negotiateRoutes request <|> restorePlanRoutes request <|> locationRoutes request <|>
        gcRunRoutes request) = some (.ok e) := by
    intro versionId hpath hfragment he
    rw [tryHandleM8Routes, hnodes, hruns, multiNodeRestorePlanRoutes_pin hpath, tryHandleM9Routes,
      hpolicies, hlifecycle, versionPinRoutes_complete hpath hfragment he]
    rfl
  cases e <;> cases hr
  case getRestorePlan versionId nodeId =>
    have hmethod : request.method = .get := h.method (by simp)
    have hvalid : nodeIdInvalid nodeId = false := h.idsValid id
    obtain ⟨hpath, hquery⟩ | ⟨hpath, hnode, hsuffix⟩ := hpath
    · have hplan : restorePlanQuery request versionId = .ok (.getRestorePlan versionId nodeId) :=
        restorePlanQuery_eq_ok.mpr ⟨hmethod, .inl
          ⟨_, hquery, by rwa [String.ofList_toList], by rw [String.ofList_toList]⟩⟩
      rw [tryHandleM8Routes, hnodes, hruns, multiNodeRestorePlanRoutes_query hpath hplan]
      rfl
    · rw [tryHandleM8Routes, hnodes, hruns, multiNodeRestorePlanRoutes_node hpath hnode,
        tryHandleM9Routes, hpolicies, hlifecycle, versionPinRoutes_node hpath, hsessions, hnegotiate,
        restorePlanRoutes_complete hpath hnode hvalid hsuffix hmethod]
      rfl
  case getMultiNodeRestorePlan versionId =>
    have hplan : restorePlanQuery request versionId = .ok (.getMultiNodeRestorePlan versionId) :=
      restorePlanQuery_eq_ok.mpr ⟨h.method (by simp), .inr ⟨hpath.2, rfl⟩⟩
    rw [tryHandleM8Routes, hnodes, hruns, multiNodeRestorePlanRoutes_query hpath.1 hplan]
    rfl
  case putVersionPin => exact hpin _ hpath.1 hpath.2 (.inl ⟨h.method (by simp), rfl⟩)
  case deleteVersionPin => exact hpin _ hpath.1 hpath.2 (.inr (.inl ⟨h.method (by simp), rfl⟩))
  case getVersionPin => exact hpin _ hpath.1 hpath.2 (.inr (.inr ⟨h.method (by simp), rfl⟩))

theorem ContentPath.ne_negotiatePath {chunkId : ContentId} {after : List Char}
    (h : ContentPath request kChunkRoutePrefix chunkId after) : request.path ≠ kNegotiatePath := by
  obtain ⟨text, htext, hpath⟩ := h
  intro hnegotiate
  have hlength := congrArg List.length (hpath.symm.trans hnegotiate)
  have htextLength := (contentId?_eq_some htext).1
  have hnegotiateLength : kNegotiatePath.length = 20 := by decide
  simp only [List.length_append] at hlength
  omega

theorem chunkRoutes_complete (h : e.Routed request) (hr : e.resource = some .chunks) :
    (negotiateRoutes request <|> restorePlanRoutes request <|> locationRoutes request <|>
      gcRunRoutes request) = some (.ok e) := by
  have hstem := stem_of_path hr h.2.1
  by_cases hne : e = .negotiateChunks
  · obtain rfl := hne
    rw [negotiateRoutes_eq_ok.mpr ⟨rfl, h.2.1⟩]
    rfl
  · have hlocation := locationRoutes_complete h hr hne
    have hpath : request.path ≠ kNegotiatePath := by
      have hpath := h.2.1
      cases e <;> cases hr
      case negotiateChunks => exact absurd rfl hne
      case getStorageLocations => exact hpath.1.ne_negotiatePath
      case putStorageLocation => exact hpath.1.ne_negotiatePath
    rw [negotiateRoutes, if_neg hpath, restorePlanRoutes_eq_none (not_stem hstem .artifactVersions nofun),
      hlocation]
    rfl

theorem route_complete (h : e.Routed request) : route request = .ok e := by
  cases hr : e.resource with
  | none =>
      cases e <;> cases hr
      have htarget : request.target = "/health".toList := h.2.1
      rw [route, if_pos htarget]
      exact only_eq_ok.mpr ⟨h.method (by simp), rfl⟩
  | some r =>
      have hstem := stem_of_path hr h.2.1
      apply route_of_groups hstem
      cases r
      case storageNodes =>
        rw [tryHandleM8Routes, storageNodeRoutes_complete h hr]
        rfl
      case replicationRuns =>
        rw [tryHandleM8Routes, storageNodeRoutes_eq_none (not_stem hstem .storageNodes nofun),
          replicationRunRoutes_complete h hr]
        rfl
      case artifactVersions => exact versionRoutes_complete h hr
      case lifecyclePolicies =>
        rw [tryHandleM8Routes_eq_none hstem nofun nofun nofun, tryHandleM9Routes,
          lifecyclePolicyRoutes_complete h hr]
        rfl
      case lifecycleRuns =>
        rw [tryHandleM8Routes_eq_none hstem nofun nofun nofun, tryHandleM9Routes,
          lifecyclePolicyRoutes_eq_none (not_stem hstem .lifecyclePolicies nofun),
          lifecycleRunRoutes_complete h hr]
        rfl
      case uploadSessions =>
        rw [tryHandleM8Routes_eq_none hstem nofun nofun nofun,
          tryHandleM9Routes_eq_none hstem nofun nofun nofun, uploadSessionRoutes_complete h hr]
        rfl
      case chunks =>
        rw [tryHandleM8Routes_eq_none hstem nofun nofun nofun,
          tryHandleM9Routes_eq_none hstem nofun nofun nofun,
          uploadSessionRoutes_eq_none (not_stem hstem .uploadSessions nofun)]
        exact chunkRoutes_complete h hr
      case gcRuns =>
        rw [tryHandleM8Routes_eq_none hstem nofun nofun nofun,
          tryHandleM9Routes_eq_none hstem nofun nofun nofun,
          uploadSessionRoutes_eq_none (not_stem hstem .uploadSessions nofun),
          negotiateRoutes_eq_none (not_stem hstem .chunks nofun),
          restorePlanRoutes_eq_none (not_stem hstem .artifactVersions nofun),
          locationRoutes_eq_none (not_stem hstem .chunks nofun), gcRunRoutes_complete h hr]
        rfl

theorem route_eq_ok_iff : route request = .ok e ↔ e.Routed request :=
  ⟨route_sound, route_complete⟩

theorem Endpoint.Routed.unique {e' : Endpoint} (h : e.Routed request) (h' : e'.Routed request) :
    e = e' :=
  Except.ok.inj ((route_eq_ok_iff.mpr h).symm.trans (route_eq_ok_iff.mpr h'))

end

end AiArtifactStore.Service
