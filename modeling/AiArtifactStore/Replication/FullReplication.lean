import AiArtifactStore.Metadata.Histories
import AiArtifactStore.Metadata.RunSnapshots
import AiArtifactStore.Replication.RepairEngine

/-!
# Repair establishes full replication

Every request of a repair only adds, so what one chunk's iteration establishes
holds at the complete call; the completion's own query then finds it.
-/

namespace AiArtifactStore.Replication

open AiArtifactStore.Foundation
open AiArtifactStore.Identity
open AiArtifactStore.Metadata
open AiArtifactStore.Storage
open AiArtifactStore.Client

section

variable {context : RepairContext} {s s' : RepairState} {nodeId : String} {chunkId : ContentId}
  {chunkPlan : ReplicationChunkPlan}

/-- Every counter is at most the bound. -/
def StatsWithin (bound : Nat) (stats : ReplicationStats) : Prop :=
  stats.chunksScanned ≤ bound ∧ stats.chunksUnderReplicated ≤ bound ∧
    stats.replicasVerified ≤ bound ∧ stats.replicasWritten ≤ bound ∧
    stats.bytesCopied ≤ bound ∧ stats.sourceFailovers ≤ bound

/-- What requests of a repair do: they add replicas, change no other table, and count at
most the cost. -/
structure Adds (cost : Nat) (s s' : RepairState) : Prop where
  grows : s.services.Grows s'.services
  locations : s'.services.db =
    { s.services.db with storageLocations := s'.services.db.storageLocations }
  stats : ∀ bound, StatsWithin bound s.stats → StatsWithin (bound + cost) s'.stats

theorem Adds.refl (s : RepairState) : Adds 0 s s := ⟨.refl _, rfl, fun _ h => h⟩

theorem Adds.trans {k l : Nat} {a b c : RepairState} (h : Adds k a b) (h' : Adds l b c) :
    Adds (k + l) a c := by
  refine ⟨h.grows.trans h'.grows, ?_, fun bound hbound => ?_⟩
  · have hlast := h'.locations
    rw [h.locations] at hlast
    exact hlast
  · rw [← Nat.add_assoc]
    exact h'.stats _ (h.stats bound hbound)

theorem Adds.mono {k l : Nat} (h : Adds k s s') (hle : k ≤ l) : Adds l s s' := by
  refine ⟨h.grows, h.locations, fun bound hbound => ?_⟩
  have hstats := h.stats bound hbound
  simp only [StatsWithin] at hstats ⊢
  omega

/-! ## Requests -/

theorem adds_of_services {services : Services} {sent : List RepairMessage}
    (hgrows : s.services.Grows services) (hdb : services.db = s.services.db) :
    Adds 0 s { s with services := services, sent := sent } :=
  ⟨hgrows, by rw [hdb], fun _ h => h⟩

theorem countStats_adds {f : ReplicationStats → ReplicationStats} {u : Unit} {k : Nat}
    (hf : ∀ bound stats, StatsWithin bound stats → StatsWithin (bound + k) (f stats))
    (h : RepairEngine.countStats f s = (.ok u, s')) :
    Adds k s s' ∧ s'.services = s.services := by
  obtain rfl := Stateful.update_eq_ok.mp h
  exact ⟨⟨.refl _, rfl, fun bound => hf bound s.stats⟩, rfl⟩

theorem hasChunk_spec {found : Bool}
    (h : RepairEngine.hasChunk context nodeId chunkId s = (.ok found, s')) :
    Adds 0 s s' ∧ (found = true → s'.services.Present chunkId nodeId) := by
  obtain ⟨response, s₁, hsend, hcheck⟩ := Stateful.bind_eq_ok.mp h
  obtain ⟨hfound, rfl⟩ := Stateful.check_eq_ok.mp hcheck
  obtain ⟨hresponse, rfl⟩ := Prod.mk.inj hsend
  obtain rfl := Except.ok.inj hresponse
  obtain ⟨hgrows, htruth⟩ := @Services.headChunk_spec context.env s.services
    (context.network s.sent.length) chunkId nodeId
  refine ⟨adds_of_services hgrows rfl, fun htrue => ?_⟩
  exact hgrows.present chunkId nodeId (htruth (htrue ▸ hfound))

theorem putChunk_spec {bytes : List UInt8} {u : Unit}
    (h : RepairEngine.putChunk context nodeId chunkId bytes s = (.ok u, s')) :
    Adds 0 s s' ∧ s'.services.Present chunkId nodeId ∧ bytes.length ≤ maxBodyBytes := by
  obtain ⟨u₁, s₁, hlimit, h⟩ := Stateful.bind_eq_ok.mp h
  obtain ⟨hsmall, rfl⟩ := Stateful.check_eq_ok.mp hlimit
  obtain ⟨response, s₁, hsend, hcheck⟩ := Stateful.bind_eq_ok.mp h
  obtain ⟨hput, rfl⟩ := Stateful.check_eq_ok.mp hcheck
  obtain ⟨hresponse, rfl⟩ := Prod.mk.inj hsend
  obtain rfl := Except.ok.inj hresponse
  obtain ⟨hgrows, hpresent⟩ := @Services.putChunk_spec context.env s.services
    (context.network s.sent.length) chunkId nodeId bytes
  exact ⟨adds_of_services hgrows rfl, hpresent hput, Nat.le_of_not_lt (failIf_eq_ok.mp hsmall)⟩

theorem getChunk_state (result : Except EngineExc (Option (List UInt8)))
    (h : RepairEngine.getChunk context nodeId chunkId s = (result, s')) : Adds 0 s s' := by
  have hs' : s' = (RepairEngine.getChunk context nodeId chunkId s).2 := by rw [h]
  subst hs'
  refine adds_of_services (Services.grows_setStore fun other hother => ?_) rfl
  refine exchange_state (P := fun store => LocalChunkStore.contains store other = true) hother ?_
  rwa [serveStorage_getChunk_state]

theorem serveRegisterStorageLocation_locations (env : Environment) (db : Db)
    (location : StorageLocation) :
    (serveRegisterStorageLocation env db location).2 =
      { db with storageLocations :=
          (serveRegisterStorageLocation env db location).2.storageLocations } := by
  rcases serve_cases env db (.registerStorageLocation location) with
    ⟨e, -, hs⟩ | ⟨reply, next, ht, hs⟩
  · simp only [serveRegisterStorageLocation, hs]
  · obtain ⟨hregister, -⟩ := done_eq_ok.mp ht
    simp only [registerStorageLocation, bind_eq_ok, exists_unit] at hregister
    obtain ⟨-, -, -, -, -, hregister⟩ := hregister
    obtain rfl := Except.ok.inj hregister
    simp only [serveRegisterStorageLocation, hs]

theorem registerStorageLocation_spec {location : StorageLocation} {u : Unit}
    (hstate : location.state = .available)
    (h : RepairEngine.registerStorageLocation context location s = (.ok u, s')) :
    Adds 0 s s' ∧ s'.services.Available location.chunkId location.nodeId := by
  obtain ⟨u₁, s₁, hcheck, hsend⟩ := Stateful.bind_eq_ok.mp h
  obtain ⟨-, rfl⟩ := Stateful.check_eq_ok.mp hcheck
  obtain ⟨hanswer, rfl⟩ := Prod.mk.inj hsend
  obtain ⟨hgrows, havailable⟩ := @Services.grows_registerStorageLocation context.env s.services
    (context.network s.sent.length) location hstate
  refine ⟨⟨hgrows, ?_, fun _ h => h⟩, havailable hanswer⟩
  exact exchange_state (P := fun db : Db => db =
    { s.services.db with storageLocations := db.storageLocations }) rfl
      (serveRegisterStorageLocation_locations _ _ _)

/-! ## One chunk -/

def SourcesAvailable (chunkPlan : ReplicationChunkPlan) (s : RepairState) : Prop :=
  ∀ source ∈ chunkPlan.sourceNodes, s.services.Available chunkPlan.chunkId source.nodeId

theorem SourcesAvailable.adds {cost : Nat} (h : SourcesAvailable chunkPlan s)
    (hadds : Adds cost s s') : SourcesAvailable chunkPlan s' :=
  fun source hsource => hadds.grows.available _ _ (h source hsource)

theorem needsRepair_spec {needed : Bool} (hsources : SourcesAvailable chunkPlan s)
    (h : RepairEngine.needsRepair context chunkPlan nodeId s = (.ok needed, s')) :
    Adds 1 s s' ∧ (needed = false → s'.services.Stored chunkPlan.chunkId nodeId) := by
  obtain ⟨u, s₁, hcheck, h⟩ := Stateful.bind_eq_ok.mp h
  obtain ⟨-, rfl⟩ := Stateful.check_eq_ok.mp hcheck
  split at h
  · rename_i havailable
    obtain ⟨found, s₁, hhas, h⟩ := Stateful.bind_eq_ok.mp h
    obtain ⟨hadds, hpresent⟩ := hasChunk_spec hhas
    split at h
    · rename_i hfound
      obtain ⟨u, s₂, hcount, hpure⟩ := Stateful.bind_eq_ok.mp h
      obtain ⟨hcounted, hsame⟩ := countStats_adds (k := 1) (fun bound stats hstats => by
        simp only [StatsWithin, addCounter] at hstats ⊢
        omega) hcount
      obtain ⟨-, rfl⟩ := (Stateful.pure_eq _ _ _ _).mp hpure
      obtain ⟨source, hsource, hnode⟩ := List.any_eq_true.mp havailable
      have hall : Adds 1 s s₂ := hadds.trans hcounted
      refine ⟨hall, fun _ => ⟨?_, ?_⟩⟩
      · rw [hsame]
        exact hpresent hfound
      · have := hsources.adds hall source hsource
        rwa [of_decide_eq_true hnode] at this
    · obtain ⟨rfl, rfl⟩ := (Stateful.pure_eq _ _ _ _).mp h
      exact ⟨hadds.mono (by omega), by simp⟩
  · obtain ⟨rfl, rfl⟩ := (Stateful.pure_eq _ _ _ _).mp h
    exact ⟨(Adds.refl _).mono (by omega), by simp⟩

theorem targetsNeedingRepair_spec {nodeIds targets : List String}
    (hsources : SourcesAvailable chunkPlan s)
    (h : RepairEngine.targetsNeedingRepair context chunkPlan nodeIds s = (.ok targets, s')) :
    Adds nodeIds.length s s' ∧ targets.length ≤ nodeIds.length ∧
      ∀ nodeId ∈ nodeIds, nodeId ∈ targets ∨ s'.services.Stored chunkPlan.chunkId nodeId := by
  induction nodeIds generalizing s targets with
  | nil =>
      obtain ⟨rfl, rfl⟩ := (Stateful.pure_eq _ _ _ _).mp h
      exact ⟨.refl _, by simp, by simp⟩
  | cons nodeId rest ih =>
      obtain ⟨needed, s₁, hneeds, h⟩ := Stateful.bind_eq_ok.mp h
      obtain ⟨later, s₂, hrest, h⟩ := Stateful.bind_eq_ok.mp h
      obtain ⟨rfl, rfl⟩ := (Stateful.pure_eq _ _ _ _).mp h
      obtain ⟨hadds, hstored⟩ := needsRepair_spec hsources hneeds
      obtain ⟨haddsRest, hlength, hrestStored⟩ := ih (hsources.adds hadds) hrest
      have hall : Adds (nodeId :: rest).length s s₂ :=
        (hadds.trans haddsRest).mono (by simp only [List.length_cons]; omega)
      cases needed with
      | false =>
          refine ⟨hall, Nat.le_succ_of_le hlength, fun other hother => ?_⟩
          rcases List.mem_cons.mp hother with rfl | hother
          · exact .inr (haddsRest.grows.stored (hstored rfl))
          · simpa using hrestStored other hother
      | true =>
          refine ⟨hall, Nat.succ_le_succ hlength, fun other hother => ?_⟩
          rcases List.mem_cons.mp hother with rfl | hother
          · exact .inl (by simp)
          · exact (hrestStored other hother).imp (List.mem_cons_of_mem _) id

theorem tryNode_adds {found : Option (List UInt8)}
    (h : RepairEngine.tryNode context nodeId chunkId s = (.ok found, s')) : Adds 1 s s' := by
  unfold RepairEngine.tryNode Stateful.catching at h
  cases hget : RepairEngine.getChunk context nodeId chunkId s with
  | mk result s₁ =>
      have hadds := getChunk_state result hget
      rw [hget] at h
      cases result with
      | ok bytes =>
          obtain ⟨-, rfl⟩ := Prod.mk.inj h
          exact hadds.mono (by omega)
      | error e =>
          simp only at h
          split at h
          · cases h
          · rename_i handle hhandle
            split at hhandle
            · obtain rfl := Option.some.inj hhandle
              obtain ⟨u, s₂, hcount, hpure⟩ := Stateful.bind_eq_ok.mp h
              obtain ⟨-, rfl⟩ := (Stateful.pure_eq _ _ _ _).mp hpure
              obtain ⟨hcounted, -⟩ := countStats_adds (k := 1) (fun bound stats hstats => by
                simp only [StatsWithin, addCounter] at hstats ⊢
                omega) hcount
              exact (hadds.trans hcounted).mono (by omega)
            · cases hhandle

theorem readFromSources_adds {sources : List NodeEndpoint} {found : Option (List UInt8)}
    (h : RepairEngine.readFromSources context chunkId sources s = (.ok found, s')) :
    Adds sources.length s s' := by
  induction sources generalizing s with
  | nil =>
      obtain ⟨-, rfl⟩ := (Stateful.pure_eq _ _ _ _).mp h
      exact .refl _
  | cons source rest ih =>
      simp only [RepairEngine.readFromSources] at h
      split at h
      · obtain ⟨bytes, s₁, htry, h⟩ := Stateful.bind_eq_ok.mp h
        have hadds := tryNode_adds htry
        cases bytes with
        | some bytes =>
            obtain ⟨-, rfl⟩ := (Stateful.pure_eq _ _ _ _).mp h
            exact hadds.mono (by simp)
        | none => exact (hadds.trans (ih h)).mono (by simp only [List.length_cons]; omega)
      · exact (ih h).mono (by simp)

def replicaCost : Nat := 1 + maxBodyBytes

theorem writeTarget_spec {bytes : List UInt8} {u : Unit}
    (hsize : bytes.length = chunkPlan.sizeBytes)
    (h : RepairEngine.writeTarget context chunkPlan bytes nodeId s = (.ok u, s')) :
    Adds replicaCost s s' ∧ s'.services.Stored chunkPlan.chunkId nodeId := by
  obtain ⟨u₁, s₁, hput, h⟩ := Stateful.bind_eq_ok.mp h
  obtain ⟨u₂, s₂, hregister, hcount⟩ := Stateful.bind_eq_ok.mp h
  obtain ⟨hadds₁, hpresent, hlimit⟩ := putChunk_spec hput
  obtain ⟨hadds₂, havailable⟩ := registerStorageLocation_spec rfl hregister
  obtain ⟨hadds₃, hsame⟩ := countStats_adds (k := replicaCost) (fun bound stats hstats => by
    simp only [StatsWithin, addCounter, replicaCost] at hstats ⊢
    omega) hcount
  refine ⟨(hadds₁.trans (hadds₂.trans hadds₃)).mono (by omega), ?_⟩
  rw [hsame]
  exact ⟨hadds₂.grows.present _ _ hpresent, havailable⟩

def chunkCost (chunkPlan : ReplicationChunkPlan) : Nat :=
  2 + chunkPlan.desiredNodeIds.length * (1 + replicaCost) + chunkPlan.sourceNodes.length

theorem repairChunk_spec {u : Unit} (hsources : SourcesAvailable chunkPlan s)
    (h : RepairEngine.repairChunk context chunkPlan s = (.ok u, s')) :
    Adds (chunkCost chunkPlan) s s' ∧ ∀ nodeId ∈ chunkPlan.desiredNodeIds,
      s'.services.Stored chunkPlan.chunkId nodeId := by
  obtain ⟨u₁, s₁, hcount, h⟩ := Stateful.bind_eq_ok.mp h
  obtain ⟨targets, s₂, htargets, h⟩ := Stateful.bind_eq_ok.mp h
  obtain ⟨hadds₁, -⟩ := countStats_adds (k := 1) (fun bound stats hstats => by
    simp only [StatsWithin, addCounter] at hstats ⊢
    omega) hcount
  obtain ⟨hadds₂, hlength, hstored⟩ :=
    targetsNeedingRepair_spec (hsources.adds hadds₁) htargets
  have hadds := hadds₁.trans hadds₂
  have hcost : chunkPlan.desiredNodeIds.length * (1 + replicaCost) =
      chunkPlan.desiredNodeIds.length + chunkPlan.desiredNodeIds.length * replicaCost := by
    rw [Nat.mul_add, Nat.mul_one]
  split at h
  · rename_i hnone
    obtain ⟨-, rfl⟩ := (Stateful.pure_eq _ _ _ _).mp h
    refine ⟨hadds.mono (by unfold chunkCost; omega), fun nodeId hnode => ?_⟩
    simpa [hnone] using hstored nodeId hnode
  · obtain ⟨u₂, s₃, hunder, h⟩ := Stateful.bind_eq_ok.mp h
    obtain ⟨found, s₄, hread, h⟩ := Stateful.bind_eq_ok.mp h
    obtain ⟨bytes, s₅, hfound, h⟩ := Stateful.bind_eq_ok.mp h
    obtain ⟨-, rfl⟩ := Stateful.check_eq_ok.mp hfound
    obtain ⟨u₃, s₅, hsize, hwrite⟩ := Stateful.bind_eq_ok.mp h
    obtain ⟨hequal, rfl⟩ := Stateful.check_eq_ok.mp hsize
    obtain ⟨haddsUnder, -⟩ := countStats_adds (k := 1) (fun bound stats hstats => by
      simp only [StatsWithin, addCounter] at hstats ⊢
      omega) hunder
    have hbefore := haddsUnder.trans (readFromSources_adds hread)
    have hlengths := not_not.mp (failIf_eq_ok.mp hequal)
    obtain ⟨hwrites, hwritten⟩ := Stateful.forEach_spec (R := Adds) (I := fun _ => True)
      (P := fun nodeId s => s.services.Stored chunkPlan.chunkId nodeId) .refl
      (fun _ _ _ _ _ => .trans) (fun _ _ _ _ => id) (fun _ _ _ _ hadds => hadds.grows.stored)
      (fun _ _ _ _ _ => writeTarget_spec hlengths) trivial hwrite
    have hwritesCost : (targets.map fun _ => replicaCost).sum ≤
        chunkPlan.desiredNodeIds.length * replicaCost := by
      simpa using Nat.mul_le_mul_right replicaCost hlength
    refine ⟨(hadds.trans (hbefore.trans hwrites)).mono (by unfold chunkCost; omega),
      fun nodeId hnode => ?_⟩
    rcases hstored nodeId hnode with htarget | hstored
    · exact hwritten nodeId htarget
    · exact (hbefore.trans hwrites).grows.stored hstored

/-! ## The plan -/

theorem available_of_chunkSources {env : Environment} {services : Services} {source : NodeEndpoint}
    (h : source ∈ chunkSources env services.db chunkId) :
    services.Available chunkId source.nodeId := by
  obtain ⟨location, hlocation, hnode⟩ :=
    List.mem_filterMap.mp (Environment.mem_orderByText.mp h)
  obtain ⟨hmem, hcondition⟩ := List.mem_filter.mp hlocation
  simp only [Bool.and_eq_true, decide_eq_true_eq] at hcondition
  obtain ⟨node, hfind, hserving⟩ := Option.bind_eq_some_iff.mp hnode
  split at hserving
  · obtain rfl := Option.some.inj hserving
    refine ⟨location, ?_, hcondition.2⟩
    rw [← hcondition.1, Table.key_of_find? hfind]
    exact Table.find?_of_mem hmem
  · cases hserving

theorem getReplicationPlan_ok {env : Environment} {db : Db} {runId : UuidV7}
    {plan : ReplicationPlan} (h : getReplicationPlan env db runId = .ok plan) :
    ∃ run descriptor, db.replicationRuns.find? runId = some run ∧ run.state = .open ∧
      loadObjectLayout env db run.layoutId = .ok (some descriptor) ∧
      mapEach descriptor.layout.chunks (planReplicationChunk env db run) = .ok plan.chunks := by
  simp only [getReplicationPlan, bind_eq_ok, exists_unit, orFail_eq_ok, failIf_eq_ok,
    Decidable.not_not] at h
  obtain ⟨run, hfind, hopen, loaded, hload, descriptor, rfl, chunks, hchunks, h⟩ := h
  obtain rfl := Except.ok.inj h
  exact ⟨run, descriptor, hfind, hopen, hload, hchunks⟩

theorem planReplicationChunk_ok {env : Environment} {db : Db} {run : ReplicationRun}
    {chunk : ChunkRef} (h : planReplicationChunk env db run chunk = .ok chunkPlan) :
    chunkPlan.chunkId = chunk.chunkId ∧
      chunkPlan.sourceNodes = chunkSources env db chunk.chunkId ∧
      selectReplicaNodes env chunk.chunkId run.placementNodeIds run.replicationFactor =
        .ok chunkPlan.desiredNodeIds := by
  simp only [planReplicationChunk, bind_eq_ok] at h
  obtain ⟨desired, hdesired, targets, -, h⟩ := h
  obtain rfl := Except.ok.inj h
  exact ⟨rfl, rfl, hdesired⟩

theorem length_selectReplicaNodes {env : Environment} {placementNodeIds desired : List String}
    {replicationFactor : Nat}
    (h : selectReplicaNodes env chunkId placementNodeIds replicationFactor = .ok desired) :
    desired.length ≤ 8 := by
  simp only [selectReplicaNodes, bind_eq_ok, exists_unit, failIf_eq_ok] at h
  obtain ⟨-, hfactor, -, h⟩ := h
  obtain rfl := Except.ok.inj h
  rw [List.length_map, List.length_take]
  omega

theorem sum_chunkCost_le {chunkPlans : List ReplicationChunkPlan}
    (h : ∀ chunkPlan ∈ chunkPlans, chunkPlan.desiredNodeIds.length ≤ 8) :
    (chunkPlans.map chunkCost).sum ≤ chunkPlans.length * (10 + 8 * replicaCost) +
      (chunkPlans.map fun chunkPlan => chunkPlan.sourceNodes.length).sum := by
  induction chunkPlans with
  | nil => simp
  | cons chunkPlan rest ih =>
      have hrest := ih fun other hother => h other (by simp [hother])
      have hdesired := Nat.mul_le_mul_right (1 + replicaCost) (h chunkPlan (by simp))
      simp only [List.map_cons, List.sum_cons, List.length_cons, Nat.add_mul, chunkCost]
      omega

theorem sourcesAvailable_of_plan {env : Environment} {run : ReplicationRun}
    {chunks : List ChunkRef} {chunkPlans : List ReplicationChunkPlan}
    (h : mapEach chunks (planReplicationChunk env s.services.db run) = .ok chunkPlans) :
    ∀ chunkPlan ∈ chunkPlans, SourcesAvailable chunkPlan s := by
  intro chunkPlan hmem source hsource
  obtain ⟨chunk, -, hplanned⟩ := mem_of_mapEach h hmem
  obtain ⟨hid, hsources, -⟩ := planReplicationChunk_ok hplanned
  rw [hsources] at hsource
  rw [hid]
  exact available_of_chunkSources hsource

/-! ## The complete call -/

theorem startReplicationRun_spec {request : RepairRequest} {run : ReplicationRun}
    (h : RepairEngine.startReplicationRun context request s = (.ok run, s')) :
    startReplicationRun context.env s.services.db request.runId request.versionId
      request.replicationFactor = .ok (run, s'.services.db) := by
  obtain ⟨u, s₁, hcheck, h⟩ := Stateful.bind_eq_ok.mp h
  obtain ⟨-, rfl⟩ := Stateful.check_eq_ok.mp hcheck
  obtain ⟨reply, s₂, hsend, hparse⟩ := Stateful.bind_eq_ok.mp h
  obtain ⟨hrun, rfl⟩ := Stateful.check_eq_ok.mp hparse
  obtain ⟨hreply, rfl⟩ := Prod.mk.inj hsend
  have hserved := exchange_ok hreply
  rw [hserved] at hreply
  simp only [Services.setDb, hserved]
  exact MetadataClient.startReplicationRun_response hreply hrun

theorem stats_of_started {request : RepairRequest} {run : ReplicationRun}
    (hruns : UncountedRuns s.services.db)
    (h : RepairEngine.startReplicationRun context request s = (.ok run, s'))
    (hopen : run.state = .open) : run.stats = .zero := by
  rcases startReplicationRun_started (startReplicationRun_spec h) with ⟨-, hfind⟩ | ⟨hstarted, -⟩
  · exact hruns run (Table.mem_of_find? hfind) hopen
  · exact hstarted.stats

theorem getReplicationPlan_spec {runId : UuidV7} {plan : ReplicationPlan}
    (h : RepairEngine.getReplicationPlan context runId s = (.ok plan, s')) :
    getReplicationPlan context.env s.services.db runId = .ok plan ∧ s'.services = s.services ∧
      planEntries plan ≤ maxBodyBytes := by
  obtain ⟨reply, s₁, hsend, h⟩ := Stateful.bind_eq_ok.mp h
  obtain ⟨parsed, s₂, hparse, h⟩ := Stateful.bind_eq_ok.mp h
  obtain ⟨u, s₃, hlimit, hpure⟩ := Stateful.bind_eq_ok.mp h
  obtain ⟨hplan, rfl⟩ := Stateful.check_eq_ok.mp hparse
  obtain ⟨hsmall, rfl⟩ := Stateful.check_eq_ok.mp hlimit
  obtain ⟨rfl, rfl⟩ := (Stateful.pure_eq _ _ _ _).mp hpure
  obtain ⟨hreply, rfl⟩ := Prod.mk.inj hsend
  have hserved := exchange_ok hreply
  rw [hserved] at hreply
  obtain ⟨hplanned, hsame⟩ := MetadataClient.getReplicationPlan_response hreply hplan
  refine ⟨hplanned, ?_, ?_⟩
  · simp only [hserved, hsame]
    rfl
  · exact (context.planEntries_le parsed).trans (Nat.le_of_not_lt (failIf_eq_ok.mp hsmall))

theorem hasOpenGcRun_of_started {env : Environment} {db db' : Db} {runId : UuidV7}
    {versionId : ContentId} {replicationFactor : Nat} {run : ReplicationRun}
    (h : startReplicationRun env db runId versionId replicationFactor = .ok (run, db')) :
    db'.hasOpenGcRun = false := by
  have hno : db.hasOpenGcRun = false := by
    simp only [startReplicationRun, bind_eq_ok, exists_unit, failIf_eq_ok, Bool.not_eq_true] at h
    exact h.2.1
  rcases startReplicationRun_ok h with ⟨rfl, -⟩ | ⟨-, -, -, -, rfl⟩
  · exact hno
  · exact hno

/-- Every chunk is recorded as available on the nodes that placement assigns it. -/
def RecordedReplicated (env : Environment) (db : Db) (run : ReplicationRun)
    (chunks : List ChunkRef) : Prop :=
  ∀ chunk ∈ chunks, ∃ desired,
    selectReplicaNodes env chunk.chunkId run.placementNodeIds run.replicationFactor =
      .ok desired ∧
    ∀ nodeId ∈ desired, ∃ location,
      db.storageLocations.find? (chunk.chunkId, nodeId) = some location ∧
        location.state = .available

theorem checkReplicated_of_recorded {env : Environment} {db : Db} {run : ReplicationRun}
    {chunks : List ChunkRef} (h : RecordedReplicated env db run chunks) :
    forEach chunks (checkChunkReplicated env db run) = .ok () := by
  refine forEach_eq_ok.mpr fun chunk hchunk => ?_
  obtain ⟨desired, hselect, hlocations⟩ := h chunk hchunk
  rw [checkChunkReplicated, hselect, ok_bind]
  refine forEach_eq_ok.mpr fun nodeId hnode => ?_
  obtain ⟨location, hfind, hstate⟩ := hlocations nodeId hnode
  exact failIf_of_false (not_not.mpr ⟨location, hfind, hstate⟩)

theorem checkReplicationStats_of_within {bound : Nat} {stats : ReplicationStats}
    (h : StatsWithin bound stats) (hbound : bound ≤ postgresBigintMax) :
    checkReplicationStats stats = .ok () := by
  simp only [StatsWithin] at h
  simp only [checkReplicationStats, bind_eq_ok, toPostgresBigint_eq_ok]
  exact ⟨_, ⟨by omega, rfl⟩, _, ⟨by omega, rfl⟩, _, ⟨by omega, rfl⟩, _, ⟨by omega, rfl⟩,
    _, ⟨by omega, rfl⟩, _, ⟨by omega, rfl⟩, rfl⟩

theorem completeReplicationRun_of_recorded {env : Environment} {db : Db} {run : ReplicationRun}
    {descriptor : ObjectLayoutDescriptor} {stats : ReplicationStats}
    (hfind : db.replicationRuns.find? run.runId = some run) (hopen : run.state = .open)
    (hgc : db.hasOpenGcRun = false)
    (hload : loadObjectLayout env db run.layoutId = .ok (some descriptor))
    (hrecorded : RecordedReplicated env db run descriptor.layout.chunks)
    (hstats : checkReplicationStats stats = .ok ()) :
    completeReplicationRun env db run.runId stats =
      .ok ({ run with state := .completed, stats := stats },
        { db with replicationRuns :=
            db.replicationRuns.upsert { run with state := .completed, stats := stats } }) := by
  rw [completeReplicationRun, hfind, orFail_some, ok_bind]
  simp only [hopen, completeOpenReplicationRun, hgc, failIf_of_false Bool.false_ne_true, ok_bind,
    hload, orFail_some, checkReplicated_of_recorded hrecorded, hstats]

/-- A repair that reaches its complete call has put every chunk of the layout on every
node that placement assigns it and recorded it there; the completion accepts, and the run
becomes completed. -/
theorem repair_replicates {request : RepairRequest} {plan : ReplicationPlan}
    (hruns : UncountedRuns s.services.db)
    (h : RepairEngine.copyReplicas context request s = (.ok (.copied plan), s')) :
    ∃ run descriptor,
      s'.services.db.replicationRuns.find? request.runId = some run ∧ run.state = .open ∧
      loadObjectLayout context.env s'.services.db run.layoutId = .ok (some descriptor) ∧
      (∀ chunk ∈ descriptor.layout.chunks, ∃ desired,
        selectReplicaNodes context.env chunk.chunkId run.placementNodeIds
          run.replicationFactor = .ok desired ∧
        ∀ nodeId ∈ desired, s'.services.Stored chunk.chunkId nodeId) ∧
      forEach descriptor.layout.chunks
        (checkChunkReplicated context.env s'.services.db run) = .ok () ∧
      completeReplicationRun context.env s'.services.db request.runId s'.stats =
        .ok ({ run with state := .completed, stats := s'.stats },
          { s'.services.db with
            replicationRuns := s'.services.db.replicationRuns.upsert
              { run with state := .completed, stats := s'.stats } }) := by
  obtain ⟨started, s₁, hstart, h⟩ := Stateful.bind_eq_ok.mp h
  split at h
  · cases ((Stateful.pure_eq _ _ _ _).mp h).1
  rename_i hincomplete
  obtain ⟨plan', s₂, hplan, h⟩ := Stateful.bind_eq_ok.mp h
  obtain ⟨u₁, s₃, hcount, h⟩ := Stateful.bind_eq_ok.mp h
  obtain ⟨u₂, s₄, hloop, hpure⟩ := Stateful.bind_eq_ok.mp h
  obtain ⟨-, rfl⟩ := (Stateful.pure_eq _ _ _ _).mp hpure
  have hstarted := startReplicationRun_spec hstart
  have hgc := hasOpenGcRun_of_started hstarted
  obtain ⟨hplanned, hsame, hentries⟩ := getReplicationPlan_spec hplan
  obtain rfl := Stateful.update_eq_ok.mp hcount
  obtain ⟨run, descriptor, hfind, hopen, hload, hchunks⟩ := getReplicationPlan_ok hplanned
  have hzero : started.stats = .zero := by
    refine stats_of_started hruns hstart ?_
    cases hstate : started.state with
    | «open» => rfl
    | completed => exact absurd hstate hincomplete
  have hdesired : ∀ chunkPlan ∈ plan'.chunks, chunkPlan.desiredNodeIds.length ≤ 8 := by
    intro chunkPlan hmem
    obtain ⟨chunk, -, hplannedChunk⟩ := mem_of_mapEach hchunks hmem
    exact length_selectReplicaNodes (planReplicationChunk_ok hplannedChunk).2.2
  -- the loop keeps the plan's sources recorded, and stores each chunk on its desired nodes
  obtain ⟨hadds, hstored⟩ := Stateful.forEach_spec (R := Adds)
    (I := fun s => ∀ chunkPlan ∈ plan'.chunks, SourcesAvailable chunkPlan s)
    (P := fun (chunkPlan : ReplicationChunkPlan) s => ∀ nodeId ∈ chunkPlan.desiredNodeIds,
      s.services.Stored chunkPlan.chunkId nodeId) .refl
    (fun _ _ _ _ _ => .trans) (fun _ _ _ hadds h _ hmem => (h _ hmem).adds hadds)
    (fun _ _ _ _ hadds h nodeId hnode => hadds.grows.stored (h nodeId hnode))
    (fun _ hmem _ _ hsources => repairChunk_spec (hsources _ hmem))
    (sourcesAvailable_of_plan (by rw [hsame]; exact hchunks)) hloop
  have hdb : s₄.services.db =
      { s₁.services.db with storageLocations := s₄.services.db.storageLocations } := by
    have hlocations := hadds.locations
    simp only [hsame] at hlocations
    exact hlocations
  have hfind' : s₄.services.db.replicationRuns.find? request.runId = some run := by
    rw [hdb]
    exact hfind
  have hload' : loadObjectLayout context.env s₄.services.db run.layoutId =
      .ok (some descriptor) := by
    rw [hdb]
    exact hload
  have hgc' : s₄.services.db.hasOpenGcRun = false := by
    rw [hdb]
    exact hgc
  have hall : ∀ chunk ∈ descriptor.layout.chunks, ∃ desired,
      selectReplicaNodes context.env chunk.chunkId run.placementNodeIds run.replicationFactor =
        .ok desired ∧ ∀ nodeId ∈ desired, s₄.services.Stored chunk.chunkId nodeId := by
    intro chunk hchunk
    obtain ⟨chunkPlan, hmem, hplannedChunk⟩ := mapEach_mem hchunks hchunk
    obtain ⟨hid, -, hselect⟩ := planReplicationChunk_ok hplannedChunk
    exact ⟨chunkPlan.desiredNodeIds, hselect, hid ▸ hstored chunkPlan hmem⟩
  have hrecorded : RecordedReplicated context.env s₄.services.db run descriptor.layout.chunks := by
    intro chunk hchunk
    obtain ⟨desired, hselect, hnodes⟩ := hall chunk hchunk
    exact ⟨desired, hselect, fun nodeId hnode => (hnodes nodeId hnode).2⟩
  have hcounted : checkReplicationStats s₄.stats = .ok () := by
    have hwithin := hadds.stats 0 (by simp [StatsWithin, hzero, ReplicationStats.zero])
    refine checkReplicationStats_of_within hwithin ?_
    have hcost := sum_chunkCost_le hdesired
    simp only [planEntries, maxBodyBytes] at hentries
    simp only [replicaCost, maxBodyBytes] at hcost
    simp only [postgresBigintMax]
    omega
  have hid : request.runId = run.runId := (Table.key_of_find? hfind).symm
  refine ⟨run, descriptor, hfind', hopen, hload', hall, checkReplicated_of_recorded hrecorded, ?_⟩
  rw [hid]
  exact completeReplicationRun_of_recorded (hid ▸ hfind') hopen hgc' hload' hrecorded hcounted

end

/-! ## A sample repair -/

namespace Sample

open Metadata.Sample

def spare : StorageNode := ⟨"n2", "127.0.0.1", 9001, .active⟩

def underReplicatedDb : Db :=
  afterOps env Db.initial (pushOps ++
    [.registerStorageNode spare, .registerStorageLocation { location with nodeId := "n2" }])

def underReplicated : RepairState :=
  { services :=
      { db := underReplicatedDb
        stores := fun nodeId =>
          if nodeId = "n1" then Table.empty.upsert ⟨chunkId, .regular (asciiBytes ['a'])⟩
          else .empty }
    stats := .zero
    sent := [] }

def repairContext : RepairContext :=
  { env := env
    pool := ["n1", "n2"]
    network := fun _ => .answered
    planBodyBytes := planEntries
    planEntries_le := fun _ => le_rfl }

def repairRequest : RepairRequest := ⟨uuid 3, versionId, 2⟩

def repairPlan : ReplicationPlan :=
  { runId := uuid 3
    versionId := versionId
    layoutId := descriptor.layoutId env
    replicationFactor := 2
    placementNodeIds := ["n1", "n2"]
    chunks :=
      [{ chunkId := chunkId
         offset := 0
         sizeBytes := 1
         desiredNodeIds := ["n1", "n2"]
         sourceNodes := [⟨"n1", "127.0.0.1", 9000⟩, ⟨"n2", "127.0.0.1", 9001⟩]
         targetNodes := [⟨"n1", "127.0.0.1", 9000⟩, ⟨"n2", "127.0.0.1", 9001⟩] }] }

def repaired : RepairState :=
  (RepairEngine.copyReplicas repairContext repairRequest underReplicated).2

end Sample

theorem repair_replicates_sample :
    ∃ run descriptor,
      Sample.repaired.services.db.replicationRuns.find? Sample.repairRequest.runId = some run ∧
      run.state = .open ∧
      loadObjectLayout Metadata.Sample.env Sample.repaired.services.db run.layoutId =
        .ok (some descriptor) ∧
      (∀ chunk ∈ descriptor.layout.chunks, ∃ desired,
        selectReplicaNodes Metadata.Sample.env chunk.chunkId run.placementNodeIds
          run.replicationFactor = .ok desired ∧
        ∀ nodeId ∈ desired, Sample.repaired.services.Stored chunk.chunkId nodeId) ∧
      forEach descriptor.layout.chunks
        (checkChunkReplicated Metadata.Sample.env Sample.repaired.services.db run) = .ok () ∧
      completeReplicationRun Metadata.Sample.env Sample.repaired.services.db
          Sample.repairRequest.runId Sample.repaired.stats =
        .ok ({ run with state := .completed, stats := Sample.repaired.stats },
          { Sample.repaired.services.db with
            replicationRuns := Sample.repaired.services.db.replicationRuns.upsert
              { run with state := .completed, stats := Sample.repaired.stats } }) := by
  have hruns : UncountedRuns Sample.underReplicated.services.db := by
    simp only [Sample.underReplicated]
    exact uncountedRuns_of_reachable (reachable_afterOps _ _)
  have hplan : (RepairEngine.copyReplicas Sample.repairContext Sample.repairRequest
      Sample.underReplicated).1 = .ok (.copied Sample.repairPlan) := by
    decide +kernel
  have hcopied : RepairEngine.copyReplicas Sample.repairContext Sample.repairRequest
      Sample.underReplicated = (.ok (.copied Sample.repairPlan), Sample.repaired) :=
    Prod.ext hplan (by rw [Sample.repaired])
  exact @repair_replicates Sample.repairContext Sample.underReplicated Sample.repaired
    Sample.repairRequest Sample.repairPlan hruns hcopied

end AiArtifactStore.Replication
