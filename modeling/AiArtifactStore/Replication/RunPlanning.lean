import AiArtifactStore.Foundation.Contract
import AiArtifactStore.Metadata.ForeignKeys

/-!
# Planning and completing a started run

An open run can be planned and completed exactly if its layout has no chunks or the
collation of the database is byte order on the nodes of its snapshot.
-/

namespace AiArtifactStore.Replication

open AiArtifactStore.Foundation
open AiArtifactStore.Identity
open AiArtifactStore.Metadata

section

variable {env : Environment} {db : Db} {run : ReplicationRun} {chunkId : ContentId}

/-- Only a node that has been disabled since keeps the run from being planned. -/
def CanPlan (env : Environment) (db : Db) (run : ReplicationRun) : Prop :=
  Within (fun e => ∃ what, e = .replicationError .targetDisabled what) (fun _ => True)
    (getReplicationPlan env db run.runId)

/-- Only a missing replica keeps the run from being completed. -/
def CanComplete (env : Environment) (db : Db) (run : ReplicationRun) : Prop :=
  ∀ stats, checkReplicationStats stats = .ok () →
    Within (fun e => ∃ what, e = .replicationError .underReplicated what) (fun _ => True)
      (completeReplicationRun env db run.runId stats)

def LayoutEmpty (db : Db) (run : ReplicationRun) : Prop :=
  ∃ layout ∈ db.objectLayouts, layout.layoutId = run.layoutId ∧ layout.chunkRows = []

/-! ## The snapshot of a run -/

theorem validatePlacementOrder_within {previous : Option String} {seen nodeIds : List String} :
    Within (fun e => ∃ what, e = .invalidArgument what) (fun _ => True)
      (validatePlacementOrder previous seen nodeIds) := by
  induction nodeIds generalizing previous seen with
  | nil => trivial
  | cons nodeId rest ih =>
      simp only [validatePlacementOrder, validateStorageNodeId, within_bind]
      rw [within_failIf ⟨_, rfl⟩]
      intro _
      rw [within_failIf ⟨_, rfl⟩]
      intro _
      rw [within_failIf ⟨_, rfl⟩]
      exact fun _ => ih

theorem selectReplicaNodes_within {nodeIds : List String} {replicationFactor : Nat} :
    Within (fun e => ∃ what, e = .invalidArgument what) (fun _ => True)
      (selectReplicaNodes env chunkId nodeIds replicationFactor) := by
  simp only [selectReplicaNodes, within_bind]
  rw [within_failIf ⟨_, rfl⟩]
  intro _
  rw [within_failIf ⟨_, rfl⟩]
  exact fun _ => within_mono validatePlacementOrder_within fun _ _ => trivial

/-- A step that first selects the nodes of a chunk ends well only if they can be selected. -/
theorem exists_selected_of_within {α : Type} {allowed : Exc → Prop} {good : α → Prop}
    {next : List String → Except Exc α} {nodeIds : List String} {replicationFactor : Nat}
    (hallowed : ∀ what, ¬allowed (.invalidArgument what))
    (h : Within allowed good (selectReplicaNodes env chunkId nodeIds replicationFactor >>= next)) :
    ∃ selected, selectReplicaNodes env chunkId nodeIds replicationFactor = .ok selected := by
  have hselect := @selectReplicaNodes_within env chunkId nodeIds replicationFactor
  cases hrun : selectReplicaNodes env chunkId nodeIds replicationFactor with
  | ok selected => exact ⟨selected, rfl⟩
  | error e =>
      rw [hrun] at hselect h
      obtain ⟨what, rfl⟩ := hselect
      exact absurd h (hallowed what)

theorem exists_selected_iff (hlinear : LinearText env) (h : PlacementSnapshot env run)
    (chunkId : ContentId) :
    (∃ selected, selectReplicaNodes env chunkId run.placementNodeIds run.replicationFactor =
      .ok selected) ↔ CollatesAsBytes env { nodeId | nodeId ∈ run.placementNodeIds } := by
  obtain ⟨nodeIds, hnodup, hsorted⟩ := h.sorted
  rw [← isChain_of_sorted_iff hlinear hnodup hsorted]
  exact exists_selectReplicaNodes_iff h.valid h.factor h.size

/-! ## One chunk -/

theorem replicationTarget_within {nodeId : String} :
    Within (fun e => ∃ what, e = .replicationError .targetDisabled what) (fun _ => True)
      (replicationTarget db nodeId) := by
  unfold replicationTarget
  split
  · exact ⟨_, rfl⟩
  · split
    · exact ⟨_, rfl⟩
    · trivial

theorem planReplicationChunk_within_iff {chunk : ChunkRef} :
    Within (fun e => ∃ what, e = .replicationError .targetDisabled what) (fun _ => True)
      (planReplicationChunk env db run chunk) ↔
      ∃ selected, selectReplicaNodes env chunk.chunkId run.placementNodeIds run.replicationFactor =
        .ok selected := by
  constructor
  · exact exists_selected_of_within (by simp)
  · rintro ⟨selected, hselected⟩
    rw [planReplicationChunk, hselected, ok_bind, within_bind, within_mapEach]
    exact ⟨upToFailure_of_forall fun _ _ => replicationTarget_within, fun _ _ => trivial⟩

theorem checkChunkReplicated_within_iff {chunk : ChunkRef} :
    Within (fun e => ∃ what, e = .replicationError .underReplicated what) (fun _ => True)
      (checkChunkReplicated env db run chunk) ↔
      ∃ selected, selectReplicaNodes env chunk.chunkId run.placementNodeIds run.replicationFactor =
        .ok selected := by
  constructor
  · exact exists_selected_of_within (by simp)
  · rintro ⟨selected, hselected⟩
    rw [checkChunkReplicated, hselected, ok_bind]
    refine within_mono (within_forEach fun nodeId _ => ?_) fun _ _ => trivial
    exact (within_failIf ⟨_, rfl⟩).mpr fun _ => trivial

/-! ## The run -/

/-- A loop over the chunks that each need the snapshot in order. -/
theorem within_mapEach_chunks {α : Type} {allowed : Exc → Prop} {chunks : List ChunkRef}
    {f : ChunkRef → Except Exc α} {ordered : Prop}
    (h : ∀ chunk, Within allowed (fun _ => True) (f chunk) ↔ ordered) :
    Within allowed (fun _ => True) (mapEach chunks f) ↔ chunks = [] ∨ ordered := by
  rw [within_mapEach]
  constructor
  · rintro ⟨hchunks, -⟩
    cases chunks with
    | nil => exact .inl rfl
    | cons chunk rest => exact .inr ((h chunk).mp (upToFailure_cons.mp hchunks).1)
  · rintro (rfl | hordered)
    · exact ⟨upToFailure_nil, fun _ _ => trivial⟩
    · exact ⟨upToFailure_of_forall fun chunk _ => (h chunk).mpr hordered, fun _ _ => trivial⟩

theorem within_forEach_chunks {allowed : Exc → Prop} {chunks : List ChunkRef}
    {check : ChunkRef → Except Exc Unit} {ordered : Prop}
    (h : ∀ chunk, Within allowed (fun _ => True) (check chunk) ↔ ordered) :
    Within allowed (fun _ => True) (forEach chunks check) ↔ chunks = [] ∨ ordered := by
  constructor
  · intro hrun
    cases chunks with
    | nil => exact .inl rfl
    | cons chunk rest =>
        refine .inr ((h chunk).mp ?_)
        cases hcheck : check chunk with
        | ok u => trivial
        | error e => rwa [forEach, hcheck] at hrun
  · rintro (rfl | hordered)
    · trivial
    · exact within_mono (within_forEach fun chunk _ => (h chunk).mpr hordered) fun _ _ => trivial

theorem runLayout_of_reachable (h : Reachable env db) (hrun : run ∈ db.replicationRuns) :
    ∃ d : ObjectLayoutDescriptor, loadObjectLayout env db run.layoutId = .ok (some d) ∧
      (d.layout.chunks = [] ↔ LayoutEmpty db run) := by
  obtain ⟨layout, hlayout, hid⟩ :=
    (foreignKeys_of_reachable h).replicationRunsLayout run hrun _ (List.mem_singleton_self _)
  obtain ⟨d, rfl, hcount⟩ := (rowsWritten_of_reachable h).layouts layout hlayout
  refine ⟨d, hid ▸ loadObjectLayout_row hlayout hcount, ?_⟩
  have hrows : (d.row env).chunkRows = [] ↔ d.layout.chunks = [] := by
    rw [ObjectLayoutDescriptor.row]
    cases d.layout.chunks with
    | nil => exact iff_of_true rfl rfl
    | cons chunk rest => exact iff_of_false (List.cons_ne_nil _ _) (List.cons_ne_nil _ _)
  rw [← hrows]
  constructor
  · exact fun hempty => ⟨_, hlayout, hid, hempty⟩
  · rintro ⟨other, hother, hsame, hempty⟩
    rwa [Table.key_inj hother hlayout (hsame.trans hid.symm)] at hempty

theorem canPlan_iff {d : ObjectLayoutDescriptor} (hrun : run ∈ db.replicationRuns)
    (hopen : run.state = .open) (hlayout : loadObjectLayout env db run.layoutId = .ok (some d))
    {ordered : Prop} (hordered : ∀ chunkId, (∃ selected, selectReplicaNodes env chunkId
      run.placementNodeIds run.replicationFactor = .ok selected) ↔ ordered) :
    CanPlan env db run ↔ d.layout.chunks = [] ∨ ordered := by
  have hchunk (chunk : ChunkRef) :=
    (@planReplicationChunk_within_iff env db run chunk).trans (hordered chunk.chunkId)
  rw [CanPlan, getReplicationPlan, Table.find?_of_mem hrun, orFail_some, ok_bind,
    failIf_of_false (not_not.mpr hopen), ok_bind, hlayout, ok_bind, orFail_some, ok_bind,
    within_bind]
  exact within_mapEach_chunks hchunk

theorem canComplete_iff {d : ObjectLayoutDescriptor} (hrun : run ∈ db.replicationRuns)
    (hopen : run.state = .open) (hgc : db.hasOpenGcRun = false)
    (hlayout : loadObjectLayout env db run.layoutId = .ok (some d))
    {ordered : Prop} (hordered : ∀ chunkId, (∃ selected, selectReplicaNodes env chunkId
      run.placementNodeIds run.replicationFactor = .ok selected) ↔ ordered) :
    CanComplete env db run ↔ d.layout.chunks = [] ∨ ordered := by
  have hchunk (chunk : ChunkRef) :=
    (@checkChunkReplicated_within_iff env db run chunk).trans (hordered chunk.chunkId)
  have hstats (stats : ReplicationStats) (hfits : checkReplicationStats stats = .ok ()) :
      Within (fun e => ∃ what, e = .replicationError .underReplicated what) (fun _ => True)
        (completeReplicationRun env db run.runId stats) ↔ d.layout.chunks = [] ∨ ordered := by
    rw [completeReplicationRun, Table.find?_of_mem hrun, orFail_some, ok_bind]
    simp only [hopen]
    rw [completeOpenReplicationRun, failIf_of_false (by rw [hgc]; exact Bool.false_ne_true),
      ok_bind, hlayout, ok_bind, orFail_some, ok_bind, within_bind, ← within_forEach_chunks hchunk]
    simp only [hfits, ok_bind, within_ok]
  constructor
  · exact fun h => (hstats .zero rfl).mp (h .zero rfl)
  · exact fun h stats hfits => (hstats stats hfits).mpr h

theorem not_canPlan_of_error {what : String}
    (h : getReplicationPlan env db run.runId = .error (.invalidArgument what)) :
    ¬CanPlan env db run := by
  rw [CanPlan, h]
  rintro ⟨_, hwhat⟩
  cases hwhat

theorem not_canComplete_of_error {what : String}
    (h : completeReplicationRun env db run.runId .zero = .error (.invalidArgument what)) :
    ¬CanComplete env db run := by
  intro hcomplete
  have hwithin := hcomplete .zero rfl
  rw [h] at hwithin
  obtain ⟨_, hwhat⟩ := hwithin
  cases hwhat

end

/-- After every history of routed requests, an open run can be planned and completed exactly
if its layout has no chunks or the collation is byte order on its snapshot, and the answer to
a negotiation can be decoded exactly if it is on the holders of each chunk. -/
theorem nodeOrder_consistent_iff {env : Environment} {db : Db} (hlinear : LinearText env)
    (h : Evolves env ServiceOp.Routed Db.initial db) :
    (∀ run ∈ db.replicationRuns, run.state = .open →
      (CanPlan env db run ↔ LayoutEmpty db run ∨
        CollatesAsBytes env { nodeId | nodeId ∈ run.placementNodeIds }) ∧
      (CanComplete env db run ↔ LayoutEmpty db run ∨
        CollatesAsBytes env { nodeId | nodeId ∈ run.placementNodeIds })) ∧
      ∀ chunks batch db', negotiateChunks env db chunks = .ok (batch, db') →
        (Decodable batch ↔
          ∀ entry ∈ batch.chunks, CollatesAsBytes env (holders db entry.chunk.chunkId)) := by
  have hvalid := nodeIdsValid_of_evolves h
  have hreachable : Reachable env db := h.mono fun _ _ => trivial
  refine ⟨fun run hrun hopen => ?_, ?_⟩
  · obtain ⟨d, hlayout, hempty⟩ := runLayout_of_reachable hreachable hrun
    have hgc : db.hasOpenGcRun = false := by
      by_contra hgc
      have hnone := (exclusive_of_reachable hreachable).gcExcludesReplication
        (Bool.eq_true_of_not_eq_false hgc)
      rw [hasOpenReplicationRun_of_mem hrun hopen] at hnone
      cases hnone
    have hordered := exists_selected_iff hlinear (hvalid.runs run hrun)
    rw [← hempty]
    exact ⟨canPlan_iff hrun hopen hlayout hordered,
      canComplete_iff hrun hopen hgc hlayout hordered⟩
  · intro chunks batch db' hnegotiate
    refine forall_congr' fun entry => forall_congr' fun hentry => ?_
    rw [availableNodeIds_of_negotiateChunks hnegotiate entry hentry]
    exact decodable_entry_iff hlinear hvalid _

theorem nodeOrder_consistent_iff_sample :
    (∀ run ∈ Sample.mixedDb.replicationRuns, run.state = .open →
      (CanPlan Sample.foldedEnv Sample.mixedDb run ↔ LayoutEmpty Sample.mixedDb run ∨
        CollatesAsBytes Sample.foldedEnv { nodeId | nodeId ∈ run.placementNodeIds }) ∧
      (CanComplete Sample.foldedEnv Sample.mixedDb run ↔ LayoutEmpty Sample.mixedDb run ∨
        CollatesAsBytes Sample.foldedEnv { nodeId | nodeId ∈ run.placementNodeIds })) ∧
      ∀ chunks batch db',
        negotiateChunks Sample.foldedEnv Sample.mixedDb chunks = .ok (batch, db') →
        (Decodable batch ↔ ∀ entry ∈ batch.chunks,
          CollatesAsBytes Sample.foldedEnv (holders Sample.mixedDb entry.chunk.chunkId)) :=
  nodeOrder_consistent_iff Sample.linearText_foldedEnv Sample.evolves_mixedDb

/-- With nodes `B1` and `a1` under a collation that folds case, a started run can be
neither planned nor completed, and a negotiation cannot be decoded. -/
theorem nodeOrder_inconsistent :
    LinearText Sample.foldedEnv ∧
      Evolves Sample.foldedEnv ServiceOp.Routed Db.initial Sample.mixedDb ∧
      (∃ run ∈ Sample.mixedDb.replicationRuns, run.state = .open ∧
        ¬CanPlan Sample.foldedEnv Sample.mixedDb run ∧
        ¬CanComplete Sample.foldedEnv Sample.mixedDb run) ∧
      ∃ batch, (serve Sample.foldedEnv Sample.mixedDb
          (.negotiateChunks [⟨Metadata.Sample.chunkId, 1⟩])).1 = .ok (.negotiated batch) ∧
        ¬Decodable batch := by
  have hplan : getReplicationPlan Sample.foldedEnv Sample.mixedDb Sample.mixedRun.runId =
      .error (.invalidArgument "placement node IDs must be sorted and unique") := by
    decide +kernel
  have hcomplete : completeReplicationRun Sample.foldedEnv Sample.mixedDb Sample.mixedRun.runId
      .zero = .error (.invalidArgument "placement node IDs must be sorted and unique") := by
    rw [← @map_eq_error _ _ _ _ Prod.fst]
    decide +kernel
  refine ⟨Sample.linearText_foldedEnv, Sample.evolves_mixedDb,
    ⟨Sample.mixedRun, by decide +kernel, rfl, not_canPlan_of_error hplan,
      not_canComplete_of_error hcomplete⟩,
    ⟨[⟨⟨Metadata.Sample.chunkId, 1⟩, true, ["a1", "B1"]⟩], none⟩, by decide +kernel, fun h => ?_⟩
  · have haccepts := checkAvailableNodeIds_ok.mp (h _ (List.mem_singleton.mpr rfl))
    exact absurd haccepts.2 (by decide +kernel)

end AiArtifactStore.Replication
