import AiArtifactStore.Foundation.SortOrder
import AiArtifactStore.Metadata.Exclusion

/-!
# Node snapshots of replication runs

A replication run keeps the ids of the nodes that were active at its start, in
the order in which the database returned them.
-/

namespace AiArtifactStore.Metadata

open AiArtifactStore.Foundation
open AiArtifactStore.Identity

section

variable {env : Environment} {db db' : Db} {op : ServiceOp}

/-- `ORDER BY node_id` sorts by a linear order. -/
abbrev LinearText (env : Environment) : Prop :=
  LinearComparison fun a b : String => env.textLe a b = true

/-- The route of a storage location refuses an invalid node id. -/
def ServiceOp.Routed : ServiceOp → Prop
  | .registerStorageLocation location => nodeIdInvalid location.nodeId = false
  | _ => True

structure PlacementSnapshot (env : Environment) (run : ReplicationRun) : Prop where
  sorted : ∃ nodeIds : List String, nodeIds.Nodup ∧
    run.placementNodeIds = nodeIds.insertionSort fun a b => env.textLe a b = true
  valid : ∀ nodeId ∈ run.placementNodeIds, nodeIdInvalid nodeId = false
  factor : 1 ≤ run.replicationFactor ∧ run.replicationFactor ≤ 8
  size : run.replicationFactor ≤ run.placementNodeIds.length ∧ run.placementNodeIds.length ≤ 64

structure NodeIdsValid (env : Environment) (db : Db) : Prop where
  nodes : ∀ node ∈ db.storageNodes, nodeIdInvalid node.nodeId = false
  locations : ∀ location ∈ db.storageLocations, nodeIdInvalid location.nodeId = false
  runs : ∀ run ∈ db.replicationRuns, PlacementSnapshot env run

/-! ## Reading ids in order -/

theorem orderByText_map {α : Type} (column : α → String) (rows : List α) :
    (env.orderByText column rows).map column =
      (rows.map column).insertionSort fun a b => env.textLe a b = true :=
  List.map_insertionSort _ _ column rows fun _ _ _ _ => Iff.rfl

theorem mem_activeNodeIds {nodeId : String} :
    nodeId ∈ activeNodeIds env db ↔
      ∃ node ∈ db.storageNodes, node.nodeId = nodeId ∧ node.state = .active := by
  simp only [activeNodeIds, List.mem_map, Environment.mem_orderByText, List.mem_filter,
    decide_eq_true_eq]
  constructor
  · rintro ⟨node, ⟨hmem, hactive⟩, rfl⟩
    exact ⟨node, hmem, rfl, hactive⟩
  · rintro ⟨node, hmem, rfl, hactive⟩
    exact ⟨node, ⟨hmem, hactive⟩, rfl⟩

theorem activeNodeIds_sorted (env : Environment) (db : Db) :
    ∃ nodeIds : List String, nodeIds.Nodup ∧
      activeNodeIds env db = nodeIds.insertionSort fun a b => env.textLe a b = true :=
  ⟨_, (List.filter_sublist.map _).nodup db.storageNodes.keysNodup, orderByText_map _ _⟩

theorem mem_availableNodeIds {chunkId : ContentId} {nodeId : String} :
    nodeId ∈ availableNodeIds env db chunkId ↔ ∃ location ∈ db.storageLocations,
      location.chunkId = chunkId ∧ location.nodeId = nodeId ∧ location.state = .available := by
  simp only [availableNodeIds, List.mem_map, Environment.mem_orderByText, List.mem_filter,
    Bool.and_eq_true, decide_eq_true_eq]
  constructor
  · rintro ⟨location, ⟨hmem, hchunk, hstate⟩, rfl⟩
    exact ⟨location, hmem, hchunk, rfl, hstate⟩
  · rintro ⟨location, hmem, hchunk, rfl, hstate⟩
    exact ⟨location, ⟨hmem, hchunk, hstate⟩, rfl⟩

theorem availableNodeIds_sorted (env : Environment) (db : Db) (chunkId : ContentId) :
    ∃ nodeIds : List String, nodeIds.Nodup ∧
      availableNodeIds env db chunkId =
        nodeIds.insertionSort fun a b => env.textLe a b = true := by
  refine ⟨_, ?_, orderByText_map _ _⟩
  -- the node ids of one chunk's rows are distinct because the pairs are
  refine List.Nodup.of_map (Prod.mk chunkId) ?_
  have hkeys : ((db.storageLocations.rows.filter fun location =>
      location.chunkId = chunkId && location.state = .available).map
        fun location => (chunkId, location.nodeId)) =
      (db.storageLocations.rows.filter fun location =>
        location.chunkId = chunkId && location.state = .available).map
          StorageLocation.locationKey := by
    refine List.map_congr_left fun location hlocation => ?_
    have hcondition := (List.mem_filter.mp hlocation).2
    simp only [Bool.and_eq_true, decide_eq_true_eq] at hcondition
    rw [StorageLocation.locationKey, hcondition.1]
  rw [List.map_map]
  exact hkeys ▸ (List.filter_sublist.map _).nodup db.storageLocations.keysNodup

/-! ## The start of a run -/

structure RunStarted (env : Environment) (db : Db) (run : ReplicationRun) : Prop where
  nodes : run.placementNodeIds = activeNodeIds env db
  factor : 1 ≤ run.replicationFactor ∧ run.replicationFactor ≤ 8
  size : run.replicationFactor ≤ run.placementNodeIds.length ∧ run.placementNodeIds.length ≤ 64
  stats : run.stats = .zero

theorem startReplicationRun_started {runId : UuidV7} {versionId : ContentId}
    {replicationFactor : Nat} {run : ReplicationRun}
    (h : startReplicationRun env db runId versionId replicationFactor = .ok (run, db')) :
    (db' = db ∧ db.replicationRuns.find? runId = some run) ∨
      (RunStarted env db run ∧
        db' = { db with replicationRuns := db.replicationRuns.insert run }) := by
  simp only [startReplicationRun, bind_eq_ok, exists_unit, failIf_eq_ok] at h
  obtain ⟨hfactor, -, h⟩ := h
  have hfactor : 1 ≤ replicationFactor ∧ replicationFactor ≤ 8 := by omega
  cases hfind : db.replicationRuns.find? runId with
  | some existing =>
      simp only [hfind] at h
      split at h
      · obtain ⟨rfl, rfl⟩ := Prod.ext_iff.mp (Except.ok.inj h)
        exact .inl ⟨rfl, rfl⟩
      · cases h
  | none =>
      simp only [hfind, insertReplicationRun, bind_eq_ok, exists_unit, failIf_eq_ok,
        orFail_eq_ok] at h
      obtain ⟨-, _, -, version, -, -, -, selected, -, hsmall, hlarge, loaded, hloaded, h⟩ := h
      obtain ⟨rfl, rfl⟩ := Prod.ext_iff.mp (Except.ok.inj h)
      rw [Table.find?_insert_new hfind] at hloaded
      simp only [↓reduceIte, Option.some.injEq] at hloaded
      subst hloaded
      exact .inr ⟨⟨rfl, hfactor, ⟨Nat.le_of_not_lt hlarge, Nat.le_of_not_lt hsmall⟩, rfl⟩, rfl⟩

/-! ## Every reachable database -/

theorem storageNodes_effect (he : Effect env db op db') :
    db'.storageNodes = db.storageNodes ∨ ∃ node, op = .registerStorageNode node := by
  cases he with
  | nodeRegistered => exact .inr ⟨_, rfl⟩
  | @gcCompleted run completed stats hcompletes =>
      obtain ⟨_, _, _, _, _, heq⟩ := completedGcDb_frame db run completed
      rw [heq]
      exact .inl rfl
  | _ => exact .inl rfl

theorem storageLocations_effect (he : Effect env db op db') {location : StorageLocation}
    (h : location ∈ db'.storageLocations) :
    location ∈ db.storageLocations ∨
      ∃ registered, op = .registerStorageLocation registered ∧ location = registered.stored := by
  cases he with
  | locationRegistered =>
      rcases Table.mem_upsert.mp h with rfl | ⟨h, -⟩
      · exact .inr ⟨_, rfl, rfl⟩
      · exact .inl h
  | @gcCompleted run completed stats hcompletes =>
      unfold completedGcDb completionDb at h
      cases hmode : run.mode with
      | dryRun => exact .inl (by simpa only [hmode] using h)
      | apply =>
          simp only [hmode] at h
          exact .inl (Table.mem_filter.mp h).1
  | _ => exact .inl h

theorem replicationRuns_effect (he : Effect env db op db') {run : ReplicationRun}
    (h : run ∈ db'.replicationRuns) :
    run ∈ db.replicationRuns ∨
      (∃ earlier ∈ db.replicationRuns,
        run = { earlier with state := .completed, stats := run.stats }) ∨
      op = .startReplicationRun run.runId run.versionId run.replicationFactor := by
  cases he with
  | replicationStarted hstarts =>
      rcases Table.mem_insert.mp h with h | ⟨rfl, -⟩
      · exact .inl h
      · exact .inr (.inr rfl)
  | @replicationCompleted earlier stats hfind hopen hgc =>
      rcases Table.mem_upsert.mp h with rfl | ⟨h, -⟩
      · exact .inr (.inl ⟨earlier, Table.mem_of_find? hfind, rfl⟩)
      · exact .inl h
  | @gcCompleted gcRun completed stats hcompletes =>
      obtain ⟨_, _, _, _, _, heq⟩ := completedGcDb_frame db gcRun completed
      rw [heq] at h
      exact .inl h
  | _ => exact .inl h

theorem PlacementSnapshot.started {run : ReplicationRun} (h : RunStarted env db run)
    (hvalid : ∀ node ∈ db.storageNodes, nodeIdInvalid node.nodeId = false) :
    PlacementSnapshot env run := by
  refine ⟨h.nodes ▸ activeNodeIds_sorted env db, fun nodeId hmem => ?_, h.factor, h.size⟩
  rw [h.nodes, mem_activeNodeIds] at hmem
  obtain ⟨node, hnode, rfl, -⟩ := hmem
  exact hvalid node hnode

theorem nodeIdsValid_transact {reply : Reply} (hrouted : op.Routed)
    (h : transact env db op = .ok (reply, db')) (hvalid : NodeIdsValid env db) :
    NodeIdsValid env db' := by
  have he := transact_effect h
  constructor
  · rcases storageNodes_effect he with hsame | ⟨node, rfl⟩
    · rw [hsame]
      exact hvalid.nodes
    · obtain ⟨hregister, -⟩ := done_eq_ok.mp h
      simp only [registerStorageNode, bind_eq_ok, exists_unit, failIf_eq_ok,
        Bool.not_eq_true] at hregister
      obtain ⟨hnode, -, -, -, -, hregister⟩ := hregister
      obtain rfl := Except.ok.inj hregister
      intro stored hstored
      rcases Table.mem_upsert.mp hstored with rfl | ⟨hstored, -⟩
      · exact hnode
      · exact hvalid.nodes stored hstored
  · intro location hlocation
    rcases storageLocations_effect he hlocation with hlocation | ⟨registered, rfl, rfl⟩
    · exact hvalid.locations location hlocation
    · exact hrouted
  · intro run hrun
    rcases replicationRuns_effect he hrun with hrun | ⟨earlier, hearlier, heq⟩ | hop
    · exact hvalid.runs run hrun
    · rw [heq]
      exact ⟨(hvalid.runs earlier hearlier).sorted, (hvalid.runs earlier hearlier).valid,
        (hvalid.runs earlier hearlier).factor, (hvalid.runs earlier hearlier).size⟩
    · obtain ⟨started, hstart, -⟩ := replyWith_eq_ok.mp (hop ▸ h)
      rcases startReplicationRun_started hstart with ⟨hsame, -⟩ | ⟨hstarted, hinsert⟩
      · exact hvalid.runs run (hsame ▸ hrun)
      · simp only at hinsert
        rw [hinsert] at hrun
        rcases Table.mem_insert.mp hrun with hrun | ⟨rfl, -⟩
        · exact hvalid.runs run hrun
        · exact .started hstarted hvalid.nodes

theorem nodeIdsValid_of_evolves (h : Evolves env ServiceOp.Routed Db.initial db) :
    NodeIdsValid env db := by
  refine h.invariant (fun _ _ _ _ hrouted => nodeIdsValid_transact hrouted) ?_
  exact ⟨fun _ h => absurd h (Table.not_mem_empty _), fun _ h => absurd h (Table.not_mem_empty _),
      fun _ h => absurd h (Table.not_mem_empty _)⟩

/-- A run counts nothing before it completes. -/
def UncountedRuns (db : Db) : Prop :=
  ∀ run ∈ db.replicationRuns, run.state = .open → run.stats = .zero

theorem uncountedRuns_transact {reply : Reply} (h : transact env db op = .ok (reply, db'))
    (hruns : UncountedRuns db) : UncountedRuns db' := by
  intro run hrun hopen
  rcases replicationRuns_effect (transact_effect h) hrun with hrun | ⟨earlier, -, heq⟩ | hop
  · exact hruns run hrun hopen
  · rw [heq] at hopen
    cases hopen
  · obtain ⟨started, hstart, -⟩ := replyWith_eq_ok.mp (hop ▸ h)
    rcases startReplicationRun_started hstart with ⟨hsame, -⟩ | ⟨hstarted, hinsert⟩
    · exact hruns run (hsame ▸ hrun) hopen
    · simp only at hinsert
      rw [hinsert] at hrun
      rcases Table.mem_insert.mp hrun with hrun | ⟨rfl, -⟩
      · exact hruns run hrun hopen
      · exact hstarted.stats

theorem uncountedRuns_of_reachable (h : Reachable env db) : UncountedRuns db :=
  Evolves.invariant h (fun _ _ _ _ _ => uncountedRuns_transact) fun _ h =>
    absurd h (Table.not_mem_empty _)

end

end AiArtifactStore.Metadata
