import AiArtifactStore.Foundation.Attempts
import AiArtifactStore.Metadata.Histories
import AiArtifactStore.Replication.RepairEngine

/-!
# Failover across the sources of a repair

When the repair of a chunk gets past the nodes that fail, and which failure of a probe or
of a source ends the run.
-/

namespace AiArtifactStore.Replication

open AiArtifactStore.Foundation
open AiArtifactStore.Identity
open AiArtifactStore.Metadata
open AiArtifactStore.Storage
open AiArtifactStore.Client

section

variable {context : RepairContext} {s t after : RepairState} {chunkId : ContentId} {i k : Nat}
  {sources : List NodeEndpoint} {source : NodeEndpoint} {chunkPlan : ReplicationChunkPlan}
  {bytes : List UInt8}

/-! ## What a source gives -/

/-- The response to a chunk request, so many requests after a state. -/
def responseOf (context : RepairContext) (s : RepairState) (chunkId : ContentId)
    (source : NodeEndpoint) (k : Nat) : Except EngineExc StorageReply :=
  (exchange (context.network (s.sent.length + k)) (s.services.stores source.nodeId)
    (serveStorage context.env (s.services.stores source.nodeId) (.getChunk chunkId))).1

def received (context : RepairContext) (s : RepairState) (chunkId : ContentId)
    (source : NodeEndpoint) (k : Nat) : Except EngineExc (Option (List UInt8)) := do
  RepairEngine.checkResponseBody (RepairEngine.contentBytes (responseOf context s chunkId source k))
  StorageNodeClient.getChunk context.env chunkId (responseOf context s chunkId source k)

/-- The loop goes on after a remote error only. -/
def attemptOf : Except EngineExc (Option (List UInt8)) → Attempt EngineExc (List UInt8)
  | .ok (some bytes) => .supplied bytes
  | .ok none => .skipped
  | .error e => if e.isRemoteError then .skipped else .aborted e

def sourceAttempt (context : RepairContext) (s : RepairState) (chunkId : ContentId)
    (entry : NodeEndpoint × Nat) : Attempt EngineExc (List UInt8) :=
  attemptOf (received context s chunkId entry.1 entry.2)

def pooledSources (context : RepairContext) (sources : List NodeEndpoint) : List NodeEndpoint :=
  sources.filter fun source => source.nodeId ∈ context.pool

/-! ## The loop -/

theorem getChunk_run (hservices : t.services = s.services)
    (hsent : t.sent.length = s.sent.length + k) :
    ∃ after, RepairEngine.getChunk context source.nodeId chunkId t =
        (received context s chunkId source k, after) ∧
      after.services = s.services ∧ after.sent.length = s.sent.length + (k + 1) := by
  have hstore : (exchange (context.network (s.sent.length + k))
      (s.services.stores source.nodeId) (serveStorage context.env
        (s.services.stores source.nodeId) (.getChunk chunkId))).2 =
          s.services.stores source.nodeId :=
    exchange_state (P := fun store => store = s.services.stores source.nodeId) rfl
      serveStorage_getChunk_state
  have hsame : s.services.setStore source.nodeId (s.services.stores source.nodeId) =
      s.services := by
    rw [Services.setStore, Function.update_eq_self]
  have hsend : RepairEngine.sendStorage context source.nodeId (.getChunk chunkId) t =
      (.ok (responseOf context s chunkId source k),
        { t with sent := t.sent ++ [.storage source.nodeId (.getChunk chunkId)] }) := by
    simp only [RepairEngine.sendStorage, hsent, hservices, hstore, hsame, responseOf]
  refine ⟨{ t with sent := t.sent ++ [.storage source.nodeId (.getChunk chunkId)] }, ?_,
    hservices, ?_⟩
  · rw [RepairEngine.getChunk, Stateful.bind_of_ok hsend]
    rfl
  · simp only [List.length_append, List.length_singleton, hsent, Nat.add_assoc]

def tried : Attempt EngineExc (List UInt8) → Except EngineExc (Option (List UInt8))
  | .supplied bytes => .ok (some bytes)
  | .skipped => .ok none
  | .aborted e => .error e

theorem tryNode_run (hservices : t.services = s.services)
    (hsent : t.sent.length = s.sent.length + k) :
    ∃ after, RepairEngine.tryNode context source.nodeId chunkId t =
        (tried (sourceAttempt context s chunkId (source, k)), after) ∧
      after.services = s.services ∧ after.sent.length = s.sent.length + (k + 1) := by
  obtain ⟨after, hget, hafter, hlength⟩ := @getChunk_run context s t chunkId k source
    hservices hsent
  rw [RepairEngine.tryNode]
  simp only [Stateful.catching, hget, sourceAttempt]
  cases received context s chunkId source k with
  | ok found =>
      cases found with
      | some bytes => exact ⟨after, rfl, hafter, hlength⟩
      | none => exact ⟨after, rfl, hafter, hlength⟩
  | error e =>
      by_cases hremote : e.isRemoteError = true
      · simp only [attemptOf, if_pos hremote]
        exact ⟨_, rfl, hafter, hlength⟩
      · simp only [attemptOf, if_neg hremote]
        exact ⟨after, rfl, hafter, hlength⟩

theorem readFromSources_run (hservices : t.services = s.services)
    (hsent : t.sent.length = s.sent.length + k) :
    (RepairEngine.readFromSources context chunkId sources t).1 =
      Attempt.firstSupplied (((pooledSources context sources).zipIdx k).map
        (sourceAttempt context s chunkId)) := by
  induction sources generalizing t k with
  | nil => rfl
  | cons source sources ih =>
      by_cases hpool : source.nodeId ∈ context.pool
      · obtain ⟨after, htry, hafter, hlength⟩ := @tryNode_run context s t chunkId k source
          hservices hsent
        rw [pooledSources, List.filter_cons_of_pos (by simpa using hpool), List.zipIdx_cons,
          List.map_cons, RepairEngine.readFromSources, if_pos hpool]
        cases hattempt : sourceAttempt context s chunkId (source, k) with
        | supplied bytes =>
            rw [hattempt] at htry
            rw [Stateful.bind_of_ok htry]
            rfl
        | skipped =>
            rw [hattempt] at htry
            rw [Stateful.bind_of_ok htry]
            exact ih hafter hlength
        | aborted e =>
            rw [hattempt] at htry
            rw [Stateful.bind_of_error htry]
            rfl
      · rw [pooledSources, List.filter_cons_of_neg (by simpa using hpool),
          RepairEngine.readFromSources, if_neg hpool]
        exact ih hservices hsent

/-! ## The probes -/

/-- The desired nodes that the plan lists as sources, each of which is asked for the chunk. -/
def probedNodes (chunkPlan : ReplicationChunkPlan) (nodeIds : List String) : List String :=
  nodeIds.filter (RepairEngine.metadataSaysAvailable chunkPlan)

/-- What `has_chunk` makes of the response to a probe, so many requests after a state. -/
def probe (context : RepairContext) (s : RepairState) (chunkId : ContentId)
    (entry : String × Nat) : Except EngineExc Bool :=
  StorageNodeClient.hasChunk (exchange (context.network (s.sent.length + entry.2))
    (s.services.stores entry.1)
    (serveStorage context.env (s.services.stores entry.1) (.headChunk chunkId))).1

/-- Every probe of the nodes, the first of them so many requests after the state, says whether
the node has the chunk. -/
def ProbesAnswer (context : RepairContext) (s : RepairState) (chunkPlan : ReplicationChunkPlan)
    (nodeIds : List String) (k : Nat) : Prop :=
  ∀ entry ∈ (probedNodes chunkPlan nodeIds).zipIdx k,
    ∃ found, probe context s chunkPlan.chunkId entry = .ok found

/-- Some of the nodes lack the chunk: the plan does not list it, or it says so itself. -/
def Missing (context : RepairContext) (s : RepairState) (chunkPlan : ReplicationChunkPlan)
    (nodeIds : List String) (k : Nat) : Prop :=
  (∃ nodeId ∈ nodeIds, RepairEngine.metadataSaysAvailable chunkPlan nodeId = false) ∨
    ∃ entry ∈ (probedNodes chunkPlan nodeIds).zipIdx k,
      probe context s chunkPlan.chunkId entry = .ok false

theorem probedNodes_cons (nodeId : String) (nodeIds : List String) :
    probedNodes chunkPlan (nodeId :: nodeIds) =
      probedNodes chunkPlan [nodeId] ++ probedNodes chunkPlan nodeIds :=
  List.filter_append [nodeId] nodeIds

theorem probesAnswer_cons {nodeId : String} {nodeIds : List String} :
    ProbesAnswer context s chunkPlan (nodeId :: nodeIds) k ↔
      ProbesAnswer context s chunkPlan [nodeId] k ∧
        ProbesAnswer context s chunkPlan nodeIds
          (k + (probedNodes chunkPlan [nodeId]).length) := by
  unfold ProbesAnswer
  rw [probedNodes_cons, List.zipIdx_append, List.forall_mem_append]

theorem missing_cons {nodeId : String} {nodeIds : List String} :
    Missing context s chunkPlan (nodeId :: nodeIds) k ↔
      Missing context s chunkPlan [nodeId] k ∨
        Missing context s chunkPlan nodeIds (k + (probedNodes chunkPlan [nodeId]).length) := by
  unfold Missing
  rw [probedNodes_cons, List.zipIdx_append]
  simp only [List.exists_mem_cons_iff, List.mem_append, or_and_right, exists_or,
    List.not_mem_nil, false_and, exists_false, or_false]
  exact or_or_or_comm

theorem serveStorage_headChunk_state {env : Environment} {store : ChunkStore} :
    (serveStorage env store (.headChunk chunkId)).2 = store := rfl

theorem hasChunk_run {nodeId : String} (hservices : t.services = s.services)
    (hsent : t.sent.length = s.sent.length + k) :
    ∃ after, RepairEngine.hasChunk context nodeId chunkId t =
        (probe context s chunkId (nodeId, k), after) ∧
      after.services = s.services ∧ after.sent.length = s.sent.length + (k + 1) := by
  have hstore : (exchange (context.network (s.sent.length + k))
      (s.services.stores nodeId) (serveStorage context.env
        (s.services.stores nodeId) (.headChunk chunkId))).2 = s.services.stores nodeId :=
    exchange_state (P := fun store => store = s.services.stores nodeId) rfl
      serveStorage_headChunk_state
  have hsame : s.services.setStore nodeId (s.services.stores nodeId) = s.services := by
    rw [Services.setStore, Function.update_eq_self]
  have hsend : RepairEngine.sendStorage context nodeId (.headChunk chunkId) t =
      (.ok (exchange (context.network (s.sent.length + k)) (s.services.stores nodeId)
          (serveStorage context.env (s.services.stores nodeId) (.headChunk chunkId))).1,
        { t with sent := t.sent ++ [.storage nodeId (.headChunk chunkId)] }) := by
    simp only [RepairEngine.sendStorage, hsent, hservices, hstore, hsame]
  refine ⟨{ t with sent := t.sent ++ [.storage nodeId (.headChunk chunkId)] }, ?_,
    hservices, ?_⟩
  · rw [RepairEngine.hasChunk, Stateful.bind_of_ok hsend]
    rfl
  · simp only [List.length_append, List.length_singleton, hsent, Nat.add_assoc]

theorem needsRepair_outside {nodeId : String} (hpool : nodeId ∉ context.pool) :
    RepairEngine.needsRepair context chunkPlan nodeId t =
      (.error (.runtimeError "replication target node is not available in storage client pool"),
        t) := by
  rw [RepairEngine.needsRepair, failIf_of_true hpool]
  rfl

theorem needsRepair_unlisted {nodeId : String} (hpool : nodeId ∈ context.pool)
    (hlisted : RepairEngine.metadataSaysAvailable chunkPlan nodeId = false) :
    RepairEngine.needsRepair context chunkPlan nodeId t = (.ok true, t) := by
  rw [RepairEngine.needsRepair, failIf_of_false (not_not.mpr hpool), hlisted]
  rfl

theorem needsRepair_listed {nodeId : String} (hpool : nodeId ∈ context.pool)
    (hlisted : RepairEngine.metadataSaysAvailable chunkPlan nodeId = true) :
    (∀ e, RepairEngine.hasChunk context nodeId chunkPlan.chunkId t = (.error e, after) →
      RepairEngine.needsRepair context chunkPlan nodeId t = (.error e, after)) ∧
    ∀ found, RepairEngine.hasChunk context nodeId chunkPlan.chunkId t = (.ok found, after) →
      ∃ counted, RepairEngine.needsRepair context chunkPlan nodeId t = (.ok (!found), counted) ∧
        counted.services = after.services ∧ counted.sent = after.sent := by
  rw [RepairEngine.needsRepair, failIf_of_false (not_not.mpr hpool), hlisted]
  constructor
  · exact fun e hask => (Stateful.bind_of_ok rfl).trans (Stateful.bind_of_error hask)
  · intro found hask
    cases found with
    | true =>
        exact ⟨_, (Stateful.bind_of_ok rfl).trans (Stateful.bind_of_ok hask), rfl, rfl⟩
    | false =>
        exact ⟨_, (Stateful.bind_of_ok rfl).trans (Stateful.bind_of_ok hask), rfl, rfl⟩

theorem needsRepair_run {nodeId : String} (hservices : t.services = s.services)
    (hsent : t.sent.length = s.sent.length + k) :
    ((∃ needed after, RepairEngine.needsRepair context chunkPlan nodeId t = (.ok needed, after)) ↔
      nodeId ∈ context.pool ∧ ProbesAnswer context s chunkPlan [nodeId] k) ∧
    ∀ needed after, RepairEngine.needsRepair context chunkPlan nodeId t = (.ok needed, after) →
      after.services = s.services ∧
      after.sent.length = s.sent.length + (k + (probedNodes chunkPlan [nodeId]).length) ∧
      (needed = true ↔ Missing context s chunkPlan [nodeId] k) := by
  by_cases hpool : nodeId ∈ context.pool
  · cases hlisted : RepairEngine.metadataSaysAvailable chunkPlan nodeId with
    | false =>
        have hprobed : probedNodes chunkPlan [nodeId] = [] := by
          simp [probedNodes, hlisted]
        rw [needsRepair_unlisted hpool hlisted, ProbesAnswer, Missing, hprobed]
        refine ⟨iff_of_true ⟨_, _, rfl⟩ ⟨hpool, by simp⟩, fun needed after h => ?_⟩
        obtain ⟨hneeded, rfl⟩ := Prod.mk.inj h
        obtain rfl := Except.ok.inj hneeded
        exact ⟨hservices, hsent, by simp [hlisted]⟩
    | true =>
        have hprobed : probedNodes chunkPlan [nodeId] = [nodeId] := by
          simp [probedNodes, hlisted]
        have hzip : [nodeId].zipIdx k = [(nodeId, k)] := rfl
        obtain ⟨asked, hask, hasked, hlength⟩ :=
          @hasChunk_run context s t chunkPlan.chunkId k nodeId hservices hsent
        obtain ⟨hfails, hanswers⟩ := @needsRepair_listed context t asked chunkPlan nodeId hpool hlisted
        rw [ProbesAnswer, Missing, hprobed, hzip]
        simp only [List.mem_singleton, forall_eq, exists_eq_left, List.length_singleton, hlisted]
        cases hfound : probe context s chunkPlan.chunkId (nodeId, k) with
        | error e =>
            rw [hfails e (by rw [hask, hfound])]
            refine ⟨iff_of_false (by simp) (by simp), fun needed after h => ?_⟩
            cases (Prod.mk.inj h).1
        | ok found =>
            obtain ⟨counted, hneeds, hcounted, hcountedSent⟩ :=
              hanswers found (by rw [hask, hfound])
            rw [hneeds]
            refine ⟨iff_of_true ⟨_, _, rfl⟩ ⟨hpool, _, rfl⟩, fun needed after h => ?_⟩
            obtain ⟨hneeded, rfl⟩ := Prod.mk.inj h
            obtain rfl := Except.ok.inj hneeded
            exact ⟨hcounted.trans hasked, hcountedSent ▸ hlength, by simp⟩
  · rw [needsRepair_outside hpool]
    refine ⟨iff_of_false (by simp) (fun h => hpool h.1), fun needed after h => ?_⟩
    cases (Prod.mk.inj h).1

/-- The targets are determined exactly if all nodes are in the pool and the probes answer, and
there is one exactly if a replica is missing. -/
theorem targetsNeedingRepair_run {nodeIds : List String} (hservices : t.services = s.services)
    (hsent : t.sent.length = s.sent.length + k) :
    ((∃ targets after, RepairEngine.targetsNeedingRepair context chunkPlan nodeIds t =
        (.ok targets, after)) ↔
      (∀ nodeId ∈ nodeIds, nodeId ∈ context.pool) ∧ ProbesAnswer context s chunkPlan nodeIds k) ∧
    ∀ targets after, RepairEngine.targetsNeedingRepair context chunkPlan nodeIds t =
        (.ok targets, after) →
      after.services = s.services ∧
      after.sent.length = s.sent.length + (k + (probedNodes chunkPlan nodeIds).length) ∧
      (targets ≠ [] ↔ Missing context s chunkPlan nodeIds k) := by
  induction nodeIds generalizing t k with
  | nil =>
      refine ⟨iff_of_true ⟨_, _, rfl⟩ ⟨by simp, by simp [ProbesAnswer, probedNodes]⟩,
        fun targets after h => ?_⟩
      obtain ⟨htargets, rfl⟩ := Prod.mk.inj h
      obtain rfl := Except.ok.inj htargets
      exact ⟨hservices, hsent, by simp [Missing, probedNodes]⟩
  | cons nodeId nodeIds ih =>
      obtain ⟨hruns, hends⟩ := @needsRepair_run context s t k chunkPlan nodeId hservices hsent
      rw [probesAnswer_cons, List.forall_mem_cons, probedNodes_cons nodeId nodeIds,
        List.length_append]
      simp only [RepairEngine.targetsNeedingRepair, Stateful.bind_eq_ok]
      constructor
      · constructor
        · rintro ⟨targets, after, needed, s₁, hneeded, others, s₂, hothers, -⟩
          obtain ⟨hs₁, hlength, -⟩ := hends needed s₁ hneeded
          obtain ⟨hpool, hprobe⟩ := hruns.mp ⟨_, _, hneeded⟩
          obtain ⟨hpools, hprobes⟩ := (ih hs₁ hlength).1.mp ⟨_, _, hothers⟩
          exact ⟨⟨hpool, hpools⟩, hprobe, hprobes⟩
        · rintro ⟨⟨hpool, hpools⟩, hprobe, hprobes⟩
          obtain ⟨needed, s₁, hneeded⟩ := hruns.mpr ⟨hpool, hprobe⟩
          obtain ⟨hs₁, hlength, -⟩ := hends needed s₁ hneeded
          obtain ⟨others, s₂, hothers⟩ := (ih hs₁ hlength).1.mpr ⟨hpools, hprobes⟩
          exact ⟨_, _, needed, s₁, hneeded, others, s₂, hothers, rfl⟩
      · rintro targets after ⟨needed, s₁, hneeded, others, s₂, hothers, hlast⟩
        obtain ⟨hs₁, hlength, hneed⟩ := hends needed s₁ hneeded
        obtain ⟨hs₂, hsent₂, hothersNeed⟩ := (ih hs₁ hlength).2 others s₂ hothers
        obtain ⟨htargets, rfl⟩ := (Stateful.pure_eq _ _ _ _).mp hlast
        refine ⟨hs₂, by rw [hsent₂, Nat.add_assoc k], ?_⟩
        have hcons : targets ≠ [] ↔ needed = true ∨ others ≠ [] := by
          rw [← htargets]
          cases needed <;> simp
        rw [hcons, hneed, hothersNeed]
        exact missing_cons.symm

/-! ## The bytes of a chunk -/

/-- `repair_chunk` up to the bytes of the chunk, with the nodes that need them. -/
def fetchChunk (context : RepairContext) (chunkPlan : ReplicationChunkPlan) :
    RepairM (Option (List String × List UInt8)) := do
  RepairEngine.countStats fun stats =>
    { stats with chunksScanned := addCounter stats.chunksScanned 1 }
  let targets ← RepairEngine.targetsNeedingRepair context chunkPlan chunkPlan.desiredNodeIds
  if targets = [] then pure none
  else do
    RepairEngine.countStats fun stats =>
      { stats with chunksUnderReplicated := addCounter stats.chunksUnderReplicated 1 }
    let found ← RepairEngine.readFromSources context chunkPlan.chunkId chunkPlan.sourceNodes
    let bytes ← Stateful.check (orFail found
      (.runtimeError "no healthy replication source could supply chunk bytes"))
    pure (some (targets, bytes))

def copyChunk (context : RepairContext) (chunkPlan : ReplicationChunkPlan)
    (targets : List String) (bytes : List UInt8) : RepairM Unit := do
  Stateful.check (failIf (bytes.length ≠ chunkPlan.sizeBytes)
    (.runtimeError "replication source chunk size mismatch"))
  Stateful.forEach (RepairEngine.writeTarget context chunkPlan bytes) targets

theorem repairChunk_eq :
    RepairEngine.repairChunk context chunkPlan = (do
      match ← fetchChunk context chunkPlan with
      | none => pure ()
      | some (targets, bytes) => copyChunk context chunkPlan targets bytes) := by
  rw [RepairEngine.repairChunk, fetchChunk, Stateful.bind_assoc]
  refine Stateful.bind_congr fun _ => ?_
  rw [Stateful.bind_assoc]
  refine Stateful.bind_congr fun targets => ?_
  by_cases hnone : targets = []
  · rw [if_pos hnone, if_pos hnone]
    rfl
  · rw [if_neg hnone, if_neg hnone, Stateful.bind_assoc]
    refine Stateful.bind_congr fun _ => ?_
    rw [Stateful.bind_assoc]
    refine Stateful.bind_congr fun found => ?_
    rw [Stateful.bind_assoc]
    rfl

/-- The repair of the chunk gets bytes that hash to its id and goes on to copy them to the
nodes that need them. -/
def Obtains (context : RepairContext) (s : RepairState) (chunkPlan : ReplicationChunkPlan) : Prop :=
  ∃ targets bytes after, targets ≠ [] ∧ context.env.contentId bytes = chunkPlan.chunkId ∧
    fetchChunk context chunkPlan s = (.ok (some (targets, bytes)), after) ∧
    RepairEngine.repairChunk context chunkPlan s = copyChunk context chunkPlan targets bytes after

/-! ## Failover -/

def probeCount (chunkPlan : ReplicationChunkPlan) : Nat :=
  (probedNodes chunkPlan chunkPlan.desiredNodeIds).length

/-- The pooled source at the position supplies bytes that hash to the id of the chunk. -/
def SuppliesAt (context : RepairContext) (s : RepairState) (chunkPlan : ReplicationChunkPlan)
    (i : Nat) (bytes : List UInt8) : Prop :=
  ∃ source, (pooledSources context chunkPlan.sourceNodes)[i]? = some source ∧
    received context s chunkPlan.chunkId source (probeCount chunkPlan + i) = .ok (some bytes) ∧
      context.env.contentId bytes = chunkPlan.chunkId

/-- The request to the pooled source at the position ends in an error of the connection. -/
def TransportFailsAt (context : RepairContext) (s : RepairState)
    (chunkPlan : ReplicationChunkPlan) (i : Nat) : Prop :=
  ∃ source what, (pooledSources context chunkPlan.sourceNodes)[i]? = some source ∧
    received context s chunkPlan.chunkId source (probeCount chunkPlan + i) =
      .error (.client (.transport what))

/-- A request that is lost, or whose response is lost, ends in an error of `HttpClient` or of
the response. -/
def NetworkFails (context : RepairContext) : Prop :=
  ∀ k e, context.network k = .requestLost e ∨ context.network k = .responseLost e →
    e.isRequestError = true

def attempts (context : RepairContext) (s : RepairState) (chunkPlan : ReplicationChunkPlan) :
    List (Attempt EngineExc (List UInt8)) :=
  ((pooledSources context chunkPlan.sourceNodes).zipIdx (probeCount chunkPlan)).map
    (sourceAttempt context s chunkPlan.chunkId)

theorem attempts_getElem? :
    (attempts context s chunkPlan)[i]? =
      (pooledSources context chunkPlan.sourceNodes)[i]?.map fun source =>
        sourceAttempt context s chunkPlan.chunkId (source, probeCount chunkPlan + i) := by
  rw [attempts, List.getElem?_map, List.getElem?_zipIdx]
  cases (pooledSources context chunkPlan.sourceNodes)[i]? with
  | none => rfl
  | some source => rfl

theorem attemptOf_supplied {result : Except EngineExc (Option (List UInt8))} :
    attemptOf result = .supplied bytes ↔ result = .ok (some bytes) := by
  unfold attemptOf
  split
  · simp
  · simp
  · split <;> simp

theorem contentId_of_received (h : received context s chunkId source k = .ok (some bytes)) :
    context.env.contentId bytes = chunkId := by
  simp only [received, bind_eq_ok, exists_unit] at h
  exact StorageNodeClient.contentId_of_getChunk h.2

theorem contentId_of_readFromSources
    (h : RepairEngine.readFromSources context chunkId sources t = (.ok (some bytes), after)) :
    context.env.contentId bytes = chunkId := by
  induction sources generalizing t with
  | nil => cases (Prod.mk.inj h).1
  | cons source sources ih =>
      rw [RepairEngine.readFromSources] at h
      split at h
      · obtain ⟨found, tried, htry, hrest⟩ := Stateful.bind_eq_ok.mp h
        cases found with
        | none => exact ih hrest
        | some bytes' =>
            obtain ⟨hbytes, -⟩ := (Stateful.pure_eq _ _ _ _).mp hrest
            obtain rfl := Option.some.inj hbytes
            obtain ⟨last, hrun, -⟩ := @tryNode_run context t t chunkId 0 source rfl rfl
            have hattempt := (Prod.mk.inj (hrun.symm.trans htry)).1
            cases hsource : sourceAttempt context t chunkId (source, 0) with
            | supplied other =>
                rw [hsource] at hattempt
                obtain rfl := Option.some.inj (Except.ok.inj hattempt)
                exact contentId_of_received (attemptOf_supplied.mp hsource)
            | skipped =>
                rw [hsource] at hattempt
                cases hattempt
            | aborted e =>
                rw [hsource] at hattempt
                cases hattempt
      · exact ih h

theorem attempt_supplied_iff :
    (attempts context s chunkPlan)[i]? = some (.supplied bytes) ↔
      SuppliesAt context s chunkPlan i bytes := by
  rw [attempts_getElem?, Option.map_eq_some_iff]
  refine exists_congr fun source => and_congr Iff.rfl ?_
  rw [sourceAttempt, attemptOf_supplied]
  exact ⟨fun h => ⟨h, contentId_of_received h⟩, And.left⟩

theorem isRequestError_of_response (hnetwork : NetworkFails context) {e : EngineExc}
    (h : responseOf context s chunkId source k = .error e) : e.isRequestError = true := by
  unfold responseOf at h
  cases hdelivery : context.network (s.sent.length + k) with
  | answered =>
      rw [hdelivery] at h
      simp only [exchange, serveStorage] at h
      cases hanswer : (StorageNodeService.handleRequest context.env
          (s.services.stores source.nodeId) (.getChunk chunkId)).1 with
      | ok reply =>
          rw [hanswer] at h
          cases h
      | error failure =>
          rw [hanswer] at h
          obtain rfl := Except.error.inj h
          rfl
  | requestLost failure =>
      rw [hdelivery] at h
      obtain rfl := Except.error.inj h
      exact hnetwork _ _ (.inl hdelivery)
  | responseLost failure =>
      rw [hdelivery] at h
      obtain rfl := Except.error.inj h
      exact hnetwork _ _ (.inr hdelivery)

theorem isRequestError_of_received (hnetwork : NetworkFails context) {e : EngineExc}
    (h : received context s chunkId source k = .error e) : e.isRequestError = true := by
  unfold received at h
  by_cases hlarge : RepairEngine.contentBytes (responseOf context s chunkId source k) > maxBodyBytes
  · rw [RepairEngine.checkResponseBody, failIf_of_true hlarge] at h
    obtain rfl := Except.error.inj h
    rfl
  · rw [RepairEngine.checkResponseBody, failIf_of_false hlarge, ok_bind] at h
    exact StorageNodeClient.isRequestError_of_getChunk
      (fun e he => isRequestError_of_response hnetwork he) h

theorem attempt_aborted_iff (hnetwork : NetworkFails context) :
    (∃ e, (attempts context s chunkPlan)[i]? = some (.aborted e)) ↔
      TransportFailsAt context s chunkPlan i := by
  simp only [attempts_getElem?, Option.map_eq_some_iff, TransportFailsAt]
  constructor
  · rintro ⟨e, source, hsource, hattempt⟩
    cases hreceived : received context s chunkPlan.chunkId source (probeCount chunkPlan + i) with
    | ok found => cases found <;> simp [sourceAttempt, attemptOf, hreceived] at hattempt
    | error failure =>
        have hrequest := isRequestError_of_received hnetwork hreceived
        simp only [sourceAttempt, attemptOf, hreceived] at hattempt
        split at hattempt
        · cases hattempt
        · rename_i hremote
          unfold EngineExc.isRequestError at hrequest
          split at hrequest
          · exact ⟨source, _, hsource, hreceived⟩
          · exact absurd hrequest hremote
  · rintro ⟨source, what, hsource, hreceived⟩
    refine ⟨.client (.transport what), source, hsource, ?_⟩
    simp only [sourceAttempt, hreceived]
    rfl

/-- The loop over the sources obtains the chunk exactly when no source before the first that
supplies it fails in its connection. -/
theorem readFromSources_iff (hnetwork : NetworkFails context)
    (hservices : t.services = s.services)
    (hsent : t.sent.length = s.sent.length + probeCount chunkPlan)
    (hgood : ∃ i bytes, SuppliesAt context s chunkPlan i bytes) :
    (∃ bytes after, RepairEngine.readFromSources context chunkPlan.chunkId chunkPlan.sourceNodes t =
        (.ok (some bytes), after)) ↔
      ∀ i bytes, SuppliesAt context s chunkPlan i bytes →
        (∀ j < i, ∀ other, ¬SuppliesAt context s chunkPlan j other) →
          ∀ j < i, ¬TransportFailsAt context s chunkPlan j := by
  have hrun : (RepairEngine.readFromSources context chunkPlan.chunkId chunkPlan.sourceNodes t).1 =
      Attempt.firstSupplied (attempts context s chunkPlan) := readFromSources_run hservices hsent
  obtain ⟨k, good, hgood⟩ := hgood
  obtain ⟨first, supplied, hfirst⟩ := Attempt.exists_isFirst (attempt_supplied_iff.mpr hgood)
  constructor
  · rintro ⟨bytes, after, hread⟩ i other hother hearlier j hj hfails
    rw [hread] at hrun
    have hisFirst : Attempt.IsFirst (attempts context s chunkPlan) i other :=
      ⟨attempt_supplied_iff.mpr hother,
        fun j hj b hb => hearlier j hj b (attempt_supplied_iff.mp hb)⟩
    obtain ⟨e, he⟩ := (attempt_aborted_iff hnetwork).mpr hfails
    exact ((Attempt.firstSupplied_iff hisFirst).mp hrun.symm).2 j hj e he
  · intro hall
    refine ⟨supplied, _, Prod.ext (hrun.trans ((Attempt.firstSupplied_iff hfirst).mpr
      ⟨rfl, fun j hj e he => ?_⟩)) rfl⟩
    exact hall first supplied (attempt_supplied_iff.mp hfirst.supplies)
      (fun j hj b hb => hfirst.earlier j hj b (attempt_supplied_iff.mpr hb)) j hj
      ((attempt_aborted_iff hnetwork).mp ⟨e, he⟩)

def RepairState.scanned (s : RepairState) : RepairState :=
  { s with stats := { s.stats with chunksScanned := addCounter s.stats.chunksScanned 1 } }

def RepairState.underReplicated (s : RepairState) : RepairState :=
  { s with
    stats :=
      { s.stats with chunksUnderReplicated := addCounter s.stats.chunksUnderReplicated 1 } }

theorem obtains_iff :
    Obtains context s chunkPlan ↔ ∃ targets, targets ≠ [] ∧ ∃ bytes asked after,
      RepairEngine.targetsNeedingRepair context chunkPlan chunkPlan.desiredNodeIds s.scanned =
        (.ok targets, asked) ∧
      RepairEngine.readFromSources context chunkPlan.chunkId chunkPlan.sourceNodes
        asked.underReplicated = (.ok (some bytes), after) := by
  constructor
  · rintro ⟨targets, bytes, after, hne, -, hfetch, -⟩
    obtain ⟨_, counted, hcount, hfetch⟩ := Stateful.bind_eq_ok.mp hfetch
    obtain rfl := Stateful.update_eq_ok.mp hcount
    obtain ⟨targets', asked, htargets, hfetch⟩ := Stateful.bind_eq_ok.mp hfetch
    by_cases hnone : targets' = []
    · rw [if_pos hnone] at hfetch
      cases ((Stateful.pure_eq _ _ _ _).mp hfetch).1
    · rw [if_neg hnone] at hfetch
      obtain ⟨_, counted, hcount, hfetch⟩ := Stateful.bind_eq_ok.mp hfetch
      obtain rfl := Stateful.update_eq_ok.mp hcount
      obtain ⟨found, read, hread, hfetch⟩ := Stateful.bind_eq_ok.mp hfetch
      obtain ⟨bytes', checked, hcheck, -⟩ := Stateful.bind_eq_ok.mp hfetch
      obtain ⟨hfound, -⟩ := Stateful.check_eq_ok.mp hcheck
      obtain rfl := orFail_eq_ok.mp hfound
      exact ⟨targets', hnone, bytes', asked, _, htargets, hread⟩
  · rintro ⟨targets, hne, bytes, asked, after, htargets, hread⟩
    have hfetch : fetchChunk context chunkPlan s = (.ok (some (targets, bytes)), after) := by
      refine Stateful.bind_eq_ok.mpr ⟨(), _, rfl, ?_⟩
      refine Stateful.bind_eq_ok.mpr ⟨targets, asked, htargets, ?_⟩
      rw [if_neg hne]
      refine Stateful.bind_eq_ok.mpr ⟨(), _, rfl, ?_⟩
      exact Stateful.bind_eq_ok.mpr ⟨some bytes, after, hread, rfl⟩
    refine ⟨targets, bytes, after, hne, ?_, hfetch, ?_⟩
    · exact contentId_of_readFromSources hread
    · rw [repairChunk_eq, Stateful.bind_of_ok hfetch]

/-- Where a replica is missing and some pooled source supplies the chunk, its repair obtains
it exactly when the desired nodes are in the pool, every probe is answered, and no pooled
source before the first that supplies it fails in its connection. -/
theorem repairChunk_failover_iff (hnetwork : NetworkFails context)
    (hmissing : Missing context s chunkPlan chunkPlan.desiredNodeIds 0)
    (hgood : ∃ i bytes, SuppliesAt context s chunkPlan i bytes) :
    Obtains context s chunkPlan ↔
      (∀ nodeId ∈ chunkPlan.desiredNodeIds, nodeId ∈ context.pool) ∧
      ProbesAnswer context s chunkPlan chunkPlan.desiredNodeIds 0 ∧
      ∀ i bytes, SuppliesAt context s chunkPlan i bytes →
        (∀ j < i, ∀ other, ¬SuppliesAt context s chunkPlan j other) →
          ∀ j < i, ¬TransportFailsAt context s chunkPlan j := by
  obtain ⟨hruns, hends⟩ := @targetsNeedingRepair_run context s s.scanned 0 chunkPlan
    chunkPlan.desiredNodeIds rfl rfl
  rw [obtains_iff]
  constructor
  · rintro ⟨targets, hne, bytes, asked, after, htargets, hread⟩
    obtain ⟨hpool, hprobes⟩ := hruns.mp ⟨targets, asked, htargets⟩
    obtain ⟨hservices, hsent, -⟩ := hends targets asked htargets
    rw [Nat.zero_add] at hsent
    refine ⟨hpool, hprobes, ?_⟩
    exact (@readFromSources_iff context s asked.underReplicated chunkPlan hnetwork hservices hsent
      hgood).mp ⟨bytes, after, hread⟩
  · rintro ⟨hpool, hprobes, hsources⟩
    obtain ⟨targets, asked, htargets⟩ := hruns.mpr ⟨hpool, hprobes⟩
    obtain ⟨hservices, hsent, hneeded⟩ := hends targets asked htargets
    rw [Nat.zero_add] at hsent
    obtain ⟨bytes, after, hread⟩ := (@readFromSources_iff context s asked.underReplicated chunkPlan
      hnetwork hservices hsent hgood).mpr hsources
    exact ⟨targets, hneeded.mpr hmissing, bytes, asked, after, htargets, hread⟩

end

/-! ## A source that is down -/

namespace Sample

def downChunkPlan : ReplicationChunkPlan where
  chunkId := Metadata.Sample.chunkId
  offset := 0
  sizeBytes := 1
  desiredNodeIds := ["n3"]
  sourceNodes := [⟨"n1", "127.0.0.1", 9000⟩, ⟨"n2", "127.0.0.1", 9001⟩]
  targetNodes := [⟨"n3", "127.0.0.1", 9002⟩]

/-- The first request ends in the error, the others are answered. -/
def downContext (e : EngineExc) : RepairContext where
  env := Metadata.Sample.env
  pool := ["n1", "n2", "n3"]
  network := fun k => if k = 0 then .requestLost e else .answered
  planBodyBytes := planEntries
  planEntries_le := fun _ => Nat.le_refl _

def downState : RepairState where
  services :=
    { db := Metadata.afterOps Metadata.Sample.env Db.initial Metadata.Sample.pushOps
      stores := fun nodeId =>
        if nodeId = "n3" then .empty
        else Table.empty.upsert ⟨Metadata.Sample.chunkId, .regular (asciiBytes ['a'])⟩ }
  stats := .zero
  sent := []

def refused : EngineExc := .client (.transport "connect failed")

def unavailable : EngineExc :=
  .client (.storageApi (.exception (.runtimeError "stored chunk failed SHA-256 verification")))

theorem networkFails_downContext {e : EngineExc} (h : e.isRequestError = true) :
    NetworkFails (downContext e) := by
  intro k failure hlost
  by_cases hk : k = 0
  · simp only [downContext, if_pos hk] at hlost
    rcases hlost with hlost | hlost
    · exact Delivery.requestLost.inj hlost ▸ h
    · cases hlost
  · simp [downContext, if_neg hk] at hlost

theorem suppliesAt_down (e : EngineExc) :
    SuppliesAt (downContext e) downState downChunkPlan 1 (asciiBytes ['a']) := by
  have hreceived : received (downContext refused) downState downChunkPlan.chunkId
      ⟨"n2", "127.0.0.1", 9001⟩ 1 = .ok (some (asciiBytes ['a'])) := by decide +kernel
  have hdigest : Metadata.Sample.env.contentId (asciiBytes ['a']) = Metadata.Sample.chunkId := by
    decide +kernel
  exact ⟨⟨"n2", "127.0.0.1", 9001⟩, rfl, hreceived, hdigest⟩

def probedChunkPlan : ReplicationChunkPlan :=
  { downChunkPlan with desiredNodeIds := ["n1", "n3"] }

theorem missing_down (e : EngineExc) :
    Missing (downContext e) downState downChunkPlan downChunkPlan.desiredNodeIds 0 :=
  .inl ⟨"n3", List.mem_singleton_self _, by decide⟩

theorem missing_probed (e : EngineExc) :
    Missing (downContext e) downState probedChunkPlan probedChunkPlan.desiredNodeIds 0 :=
  .inl ⟨"n3", by decide, by decide⟩

theorem suppliesAt_probed (e : EngineExc) :
    SuppliesAt (downContext e) downState probedChunkPlan 0 (asciiBytes ['a']) := by
  have hreceived : received (downContext refused) downState probedChunkPlan.chunkId
      ⟨"n1", "127.0.0.1", 9000⟩ 1 = .ok (some (asciiBytes ['a'])) := by decide +kernel
  have hdigest : Metadata.Sample.env.contentId (asciiBytes ['a']) = Metadata.Sample.chunkId := by
    decide +kernel
  exact ⟨⟨"n1", "127.0.0.1", 9000⟩, rfl, hreceived, hdigest⟩

end Sample

open Sample in
/-- Some source supplies the chunk, and its repair ends at the source before, whose connection
fails, or at a probe that the node answers with an error. -/
theorem repairChunk_down :
    (Missing (downContext refused) downState downChunkPlan downChunkPlan.desiredNodeIds 0 ∧
      SuppliesAt (downContext refused) downState downChunkPlan 1 (asciiBytes ['a']) ∧
      (RepairEngine.repairChunk (downContext refused) downChunkPlan downState).1 =
        .error refused) ∧
    Missing (downContext unavailable) downState probedChunkPlan
        probedChunkPlan.desiredNodeIds 0 ∧
      SuppliesAt (downContext unavailable) downState probedChunkPlan 0 (asciiBytes ['a']) ∧
      (RepairEngine.repairChunk (downContext unavailable) probedChunkPlan downState).1 =
        .error unavailable :=
  ⟨⟨missing_down refused, suppliesAt_down refused, by decide +kernel⟩,
    missing_probed unavailable, suppliesAt_probed unavailable, by decide +kernel⟩

open Sample in
theorem repairChunk_failover_iff_sample :
    Obtains (downContext unavailable) downState downChunkPlan ↔
      (∀ nodeId ∈ downChunkPlan.desiredNodeIds, nodeId ∈ (downContext unavailable).pool) ∧
      ProbesAnswer (downContext unavailable) downState downChunkPlan
        downChunkPlan.desiredNodeIds 0 ∧
      ∀ i bytes, SuppliesAt (downContext unavailable) downState downChunkPlan i bytes →
        (∀ j < i, ∀ other, ¬SuppliesAt (downContext unavailable) downState downChunkPlan j other) →
          ∀ j < i, ¬TransportFailsAt (downContext unavailable) downState downChunkPlan j :=
  repairChunk_failover_iff (networkFails_downContext rfl) (missing_down unavailable)
    ⟨1, _, suppliesAt_down unavailable⟩

end AiArtifactStore.Replication
