import AiArtifactStore.Metadata.Sweep

/-!
# What restore planning finds

The layouts that a multi-node restore plan can use and the sources that it
lists, stated over the tables, and the decoding of stored layouts and versions
that the planners rely on.
-/

namespace AiArtifactStore.Metadata

open AiArtifactStore.Foundation
open AiArtifactStore.Identity

def StorageNode.Serving (node : StorageNode) : Prop :=
  node.state = .active ∨ node.state = .draining

def AvailableOn (db : Db) (chunkId : ContentId) (nodeId : String) : Prop :=
  ∃ location ∈ db.storageLocations,
    location.chunkId = chunkId ∧ location.nodeId = nodeId ∧ location.state = .available

/-- Every chunk of the layout is available on some registered serving node. -/
def Restorable (db : Db) (layout : ObjectLayoutRow) : Prop :=
  ∀ row ∈ layout.chunkRows, ∃ node ∈ db.storageNodes, node.Serving ∧
    AvailableOn db row.chunkId node.nodeId

def StorageNode.endpoint (node : StorageNode) : NodeEndpoint :=
  ⟨node.nodeId, node.address, node.port⟩

structure RowsWritten (env : Environment) (db : Db) : Prop where
  layouts : ∀ layout ∈ db.objectLayouts, ∃ d : ObjectLayoutDescriptor,
    layout = d.row env ∧ d.layout.chunks.length ≤ postgresBigintMax
  versions : ∀ row ∈ db.artifactVersions, ∃ createdAt v, row = versionRow env createdAt v

section

variable {env : Environment} {db db' : Db} {op : ServiceOp}

/-! ## Written rows -/

theorem rowsWritten_finalized {row : SessionRow} {d : ObjectLayoutDescriptor} {createdAt : Int}
    {table : Table ChunkMetadata.chunkId} (h : Finalizes env db row d createdAt table)
    (hrows : RowsWritten env db) :
    RowsWritten env (finalizedDb env db row d createdAt table) := by
  constructor
  · intro layout hlayout
    rcases Table.mem_insert.mp hlayout with hlayout | ⟨rfl, -⟩
    · exact hrows.layouts layout hlayout
    · exact ⟨d, rfl, h.layout.countFits⟩
  · intro version hversion
    rcases Table.mem_upsert.mp hversion with rfl | ⟨hversion, -⟩
    · exact ⟨createdAt, finalVersion row d, rfl⟩
    · exact hrows.versions version hversion

theorem rowsWritten_completed {run completed : GcRun} (hrows : RowsWritten env db) :
    RowsWritten env (completedGcDb db run completed) := by
  unfold completedGcDb completionDb
  cases hmode : run.mode with
  | dryRun => exact ⟨hrows.layouts, hrows.versions⟩
  | apply =>
      refine ⟨fun layout hlayout => ?_, hrows.versions⟩
      have hswept : layout ∈ (sweptDb db run.targetNodeId).objectLayouts := hlayout
      exact hrows.layouts layout (mem_sweptDb_objectLayouts.mp hswept).1

theorem rowsWritten_effect (he : Effect env db op db') (h : RowsWritten env db) :
    RowsWritten env db' := by
  cases he with
  | finalized hfinalizes => exact rowsWritten_finalized hfinalizes h
  | gcCompleted hcompletes => exact rowsWritten_completed h
  | _ => exact ⟨h.layouts, h.versions⟩

theorem rowsWritten_of_reachable (h : Reachable env db) : RowsWritten env db := by
  refine reachable_invariant ⟨fun layout hlayout => ?_, fun version hversion => ?_⟩
    (fun _ _ _ he => rowsWritten_effect he) h
  · exact absurd hlayout (Table.not_mem_empty layout)
  · exact absurd hversion (Table.not_mem_empty version)

theorem readVersionRow_versionRow (createdAt : Int) (v : ArtifactVersion) :
    readVersionRow env (versionRow env createdAt v) = .ok v := by
  simp [readVersionRow, versionRow, failIf]

theorem loadObjectLayout_row {d : ObjectLayoutDescriptor}
    (h : d.row env ∈ db.objectLayouts) (hcount : d.layout.chunks.length ≤ postgresBigintMax) :
    loadObjectLayout env db (d.layoutId env) = .ok (some d) := by
  have hfind : db.objectLayouts.find? (d.layoutId env) = some (d.row env) := Table.find?_of_mem h
  simp only [loadObjectLayout, hfind, readLayoutRow_row hcount]

theorem loadRestorableVersion_succeeds (hrows : RowsWritten env db) {row : VersionRow}
    (h : row ∈ db.artifactVersions) (hcommitted : row.state = .committed)
    (hretired : ¬db.Retired row.versionId) :
    ∃ v, loadRestorableVersion env db row.versionId = .ok v ∧
      v.rootObjectId = row.rootObjectId := by
  obtain ⟨createdAt, v, rfl⟩ := hrows.versions row h
  have hfind : db.artifactVersions.find? (versionRow env createdAt v).versionId =
      some (versionRow env createdAt v) := Table.find?_of_mem h
  have hload : loadVersion env db (versionRow env createdAt v).versionId = .ok (some v) := by
    simp only [loadVersion, hfind, readVersionRow_versionRow]
  have hstate : ¬v.state ≠ .committed := not_not.mpr hcommitted
  have hlive : ¬db.isVersionRetired (versionRow env createdAt v).versionId = true := by
    rwa [Db.isVersionRetired_iff]
  refine ⟨v, ?_, rfl⟩
  rw [loadRestorableVersion, hload, ok_bind, orFail_some, ok_bind, failIf_of_false hstate, ok_bind,
    failIf_of_false hlive, ok_bind]

/-! ## The least layout -/

theorem leastLayout_le {objectId : ContentId} {usable : ObjectLayoutRow → Bool}
    {least layout : ObjectLayoutRow} (h : leastLayout db objectId usable = some least)
    (hmem : layout ∈ db.objectLayouts) (hobject : layout.objectId = objectId)
    (husable : usable layout = true) : least.layoutId ≤ layout.layoutId := by
  have : Std.Total fun a b : ObjectLayoutRow => a.layoutId ≤ b.layoutId :=
    ⟨fun a b => Nat.le_total a.layoutId.digest.toNat b.layoutId.digest.toNat⟩
  have : IsTrans ObjectLayoutRow fun a b => a.layoutId ≤ b.layoutId :=
    ⟨fun _ _ _ hab hbc => Nat.le_trans hab hbc⟩
  have hcandidate : layout ∈ db.objectLayouts.rows.filter fun layout =>
      layout.objectId = objectId && usable layout :=
    List.mem_filter.mpr ⟨hmem, by simp [hobject, husable]⟩
  have hsorted := (List.mem_insertionSort
    fun a b : ObjectLayoutRow => a.layoutId ≤ b.layoutId).mpr hcandidate
  have hpairwise := List.pairwise_insertionSort
    (fun a b : ObjectLayoutRow => a.layoutId ≤ b.layoutId)
    (db.objectLayouts.rows.filter fun layout => layout.objectId = objectId && usable layout)
  rw [leastLayout] at h
  obtain ⟨rest, hrest⟩ := List.head?_eq_some_iff.mp h
  rw [hrest] at hsorted hpairwise
  rcases List.mem_cons.mp hsorted with rfl | hmem
  · exact Nat.le_refl _
  · exact (List.pairwise_cons.mp hpairwise).1 layout hmem

theorem leastLayout_isSome {objectId : ContentId} {usable : ObjectLayoutRow → Bool}
    {layout : ObjectLayoutRow} (hmem : layout ∈ db.objectLayouts)
    (hobject : layout.objectId = objectId) (husable : usable layout = true) :
    ∃ least, leastLayout db objectId usable = some least := by
  cases h : leastLayout db objectId usable with
  | some least => exact ⟨least, rfl⟩
  | none =>
      have hempty := List.head?_eq_none_iff.mp h
      have hcandidate : layout ∈ db.objectLayouts.rows.filter fun layout =>
          layout.objectId = objectId && usable layout :=
        List.mem_filter.mpr ⟨hmem, by simp [hobject, husable]⟩
      have hsorted := (List.mem_insertionSort
        fun a b : ObjectLayoutRow => a.layoutId ≤ b.layoutId).mpr hcandidate
      rw [hempty] at hsorted
      cases hsorted

/-! ## The queries over the tables -/

theorem isServing_iff {node : StorageNode} : isServing node.state = true ↔ node.Serving := by
  simp [isServing, StorageNode.Serving]

theorem isRestorableChunk_iff {chunkId : ContentId} :
    isRestorableChunk db chunkId = true ↔
      ∃ node ∈ db.storageNodes, node.Serving ∧ AvailableOn db chunkId node.nodeId := by
  rw [isRestorableChunk, List.any_eq_true]
  simp only [Bool.and_eq_true, decide_eq_true_eq, Option.any_eq_true, isServing_iff]
  constructor
  · rintro ⟨location, hlocation, ⟨hid, hstate⟩, node, hnode, hserving⟩
    obtain ⟨hmem, hkey⟩ := Table.find?_eq_some.mp hnode
    exact ⟨node, hmem, hserving, location, hlocation, hid, hkey.symm, hstate⟩
  · rintro ⟨node, hnode, hserving, location, hlocation, hid, hkey, hstate⟩
    exact ⟨location, hlocation, ⟨hid, hstate⟩, node, hkey ▸ Table.find?_of_mem hnode, hserving⟩

theorem isRestorableLayout_iff {layout : ObjectLayoutRow} :
    isRestorableLayout db layout = true ↔ Restorable db layout := by
  simp only [isRestorableLayout, List.all_eq_true, isRestorableChunk_iff, Restorable]

theorem mem_chunkSources {chunkId : ContentId} {endpoint : NodeEndpoint} :
    endpoint ∈ chunkSources env db chunkId ↔
      ∃ node ∈ db.storageNodes, node.Serving ∧ AvailableOn db chunkId node.nodeId ∧
        endpoint = node.endpoint := by
  rw [chunkSources, Environment.mem_orderByText, List.mem_filterMap]
  simp only [List.mem_filter, Bool.and_eq_true, decide_eq_true_eq, Option.bind_eq_some_iff,
    isServing_iff, Option.ite_none_right_eq_some, Option.some.injEq]
  constructor
  · rintro ⟨location, ⟨hlocation, hid, hstate⟩, node, hnode, hserving, rfl⟩
    obtain ⟨hmem, hkey⟩ := Table.find?_eq_some.mp hnode
    exact ⟨node, hmem, hserving, ⟨location, hlocation, hid, hkey.symm, hstate⟩, rfl⟩
  · rintro ⟨node, hnode, hserving, ⟨location, hlocation, hid, hkey, hstate⟩, rfl⟩
    exact ⟨location, ⟨hlocation, hid, hstate⟩, node, hkey ▸ Table.find?_of_mem hnode, hserving, rfl⟩

theorem nodup_chunkSources (env : Environment) (db : Db) (chunkId : ContentId) :
    ((chunkSources env db chunkId).map NodeEndpoint.nodeId).Nodup := by
  have hsorted := (List.perm_insertionSort (fun a b : NodeEndpoint =>
    env.textLe a.nodeId b.nodeId = true) ((db.storageLocations.rows.filter fun location =>
      location.chunkId = chunkId && location.state = .available).filterMap fun location =>
        (db.storageNodes.find? location.nodeId).bind fun node =>
          if isServing node.state then some (⟨node.nodeId, node.address, node.port⟩ : NodeEndpoint)
          else none)).map NodeEndpoint.nodeId
  refine hsorted.nodup_iff.mpr ?_
  have hlocations : (db.storageLocations.rows.filter fun location =>
      location.chunkId = chunkId && location.state = .available).Pairwise
        fun a b => a.nodeId ≠ b.nodeId := by
    have hkeys := List.pairwise_map.mp db.storageLocations.keysNodup
    refine (hkeys.filter _).imp_of_mem fun {a b} ha hb hne heq => hne ?_
    simp only [List.mem_filter, Bool.and_eq_true, decide_eq_true_eq] at ha hb
    exact Prod.ext (ha.2.1.trans hb.2.1.symm) heq
  refine List.pairwise_map.mpr
    (hlocations.filterMap _ fun a b hne source hsource other hother => ?_)
  obtain ⟨node, hnode, hsource⟩ := Option.bind_eq_some_iff.mp hsource
  obtain ⟨node', hnode', hother⟩ := Option.bind_eq_some_iff.mp hother
  simp only [Option.ite_none_right_eq_some, Option.some.injEq] at hsource hother
  obtain ⟨-, rfl⟩ := hsource
  obtain ⟨-, rfl⟩ := hother
  rwa [ne_eq, Table.key_of_find? hnode, Table.key_of_find? hnode']

/-! ## The plans -/

/-- The plan is over the row of its own layout, in chunk order, with every source. -/
structure PlansLayout (env : Environment) (db : Db) (plan : MultiNodeRestorePlan)
    (layout : ObjectLayoutRow) : Prop where
  layoutId : plan.layoutId = layout.layoutId
  descriptor : layout = plan.layoutDescriptor.row env
  chunks : plan.chunks.map (fun chunk =>
    (⟨chunk.chunkId, chunk.offset, chunk.sizeBytes⟩ : ChunkRef)) =
      plan.layoutDescriptor.layout.chunks
  sources : ∀ chunk ∈ plan.chunks, (chunk.sources.map NodeEndpoint.nodeId).Nodup ∧
    ∀ endpoint, endpoint ∈ chunk.sources ↔ ∃ node ∈ db.storageNodes, node.Serving ∧
      AvailableOn db chunk.chunkId node.nodeId ∧ endpoint = node.endpoint

theorem resolveMultiNodeRestorePlan_ok (hrows : RowsWritten env db) {row : VersionRow}
    (h : row ∈ db.artifactVersions) (hcommitted : row.state = .committed)
    (hretired : ¬db.Retired row.versionId) {selected : ObjectLayoutRow}
    (hselected : leastLayout db row.rootObjectId (isRestorableLayout db) = some selected) :
    ∃ plan, resolveMultiNodeRestorePlan env db row.versionId = .ok plan ∧
      PlansLayout env db plan selected := by
  obtain ⟨v, hversion, hroot⟩ := loadRestorableVersion_succeeds hrows h hcommitted hretired
  obtain ⟨hmem, hobject, -⟩ := leastLayout_some hselected
  obtain ⟨d, rfl, hcount⟩ := hrows.layouts selected hmem
  have hsame : ¬d.objectId ≠ v.rootObjectId := by
    rw [hroot]
    exact not_not.mpr hobject
  have hload : loadObjectLayout env db (d.row env).layoutId = .ok (some d) :=
    loadObjectLayout_row hmem hcount
  refine ⟨⟨v.artifactId, v.versionId env, d.objectId, d.layoutId env, d,
    d.layout.chunks.map fun chunk =>
      ⟨chunk.chunkId, chunk.offset, chunk.size, chunkSources env db chunk.chunkId⟩⟩, ?_, ?_⟩
  · simp only [resolveMultiNodeRestorePlan, hversion, ok_bind, hroot, hselected, orFail_some, hload]
    rw [failIf_of_false (hroot ▸ hsame), ok_bind]
  · refine ⟨rfl, rfl, ?_, fun chunk hchunk => ?_⟩
    · rw [List.map_map]
      exact List.map_id _
    · obtain ⟨ref, -, rfl⟩ := List.mem_map.mp hchunk
      exact ⟨nodup_chunkSources env db ref.chunkId, fun _ => mem_chunkSources⟩

/-- A plan is found exactly when some layout of the root object is restorable; it is over
the least of them, each chunk has a source, and wherever one serving node has a whole
layout the multi-node plan exists too. -/
theorem resolveMultiNodeRestorePlan_complete (hreach : Reachable env db) {row : VersionRow}
    (h : row ∈ db.artifactVersions) (hcommitted : row.state = .committed)
    (hretired : ¬db.Retired row.versionId) :
    ((∃ plan, resolveMultiNodeRestorePlan env db row.versionId = .ok plan) ↔
      ∃ layout ∈ db.objectLayouts, layout.objectId = row.rootObjectId ∧ Restorable db layout) ∧
    (∀ plan, resolveMultiNodeRestorePlan env db row.versionId = .ok plan →
      ∃ layout ∈ db.objectLayouts, layout.objectId = row.rootObjectId ∧ Restorable db layout ∧
        (∀ other ∈ db.objectLayouts, other.objectId = row.rootObjectId → Restorable db other →
          layout.layoutId ≤ other.layoutId) ∧
        PlansLayout env db plan layout ∧ ∀ chunk ∈ plan.chunks, chunk.sources ≠ []) ∧
    ∀ node ∈ db.storageNodes, node.Serving → ∀ single,
      resolveRestorePlan env db row.versionId node.nodeId = .ok single →
        ∃ plan, resolveMultiNodeRestorePlan env db row.versionId = .ok plan := by
  have hrows := rowsWritten_of_reachable hreach
  have hplan : (∃ layout ∈ db.objectLayouts, layout.objectId = row.rootObjectId ∧
      Restorable db layout) →
        ∃ plan, resolveMultiNodeRestorePlan env db row.versionId = .ok plan := by
    rintro ⟨layout, hmem, hobject, hrestorable⟩
    obtain ⟨selected, hselected⟩ :=
      leastLayout_isSome hmem hobject (isRestorableLayout_iff.mpr hrestorable)
    obtain ⟨plan, hresolved, -⟩ :=
      resolveMultiNodeRestorePlan_ok hrows h hcommitted hretired hselected
    exact ⟨plan, hresolved⟩
  have hfound : ∀ plan, resolveMultiNodeRestorePlan env db row.versionId = .ok plan →
      ∃ layout, leastLayout db row.rootObjectId (isRestorableLayout db) = some layout ∧
        PlansLayout env db plan layout := by
    intro plan hresolved
    cases hselected : leastLayout db row.rootObjectId (isRestorableLayout db) with
    | some selected =>
        obtain ⟨other, hother, hplans⟩ :=
          resolveMultiNodeRestorePlan_ok hrows h hcommitted hretired hselected
        rw [hresolved] at hother
        obtain rfl := Except.ok.inj hother
        exact ⟨selected, rfl, hplans⟩
    | none =>
        obtain ⟨v, hversion, hroot⟩ := loadRestorableVersion_succeeds hrows h hcommitted hretired
        simp only [resolveMultiNodeRestorePlan, hversion, ok_bind, hroot, hselected] at hresolved
        cases hresolved
  refine ⟨⟨?_, hplan⟩, ?_, ?_⟩
  · rintro ⟨plan, hresolved⟩
    obtain ⟨layout, hleast, -⟩ := hfound plan hresolved
    obtain ⟨hmem, hobject, husable⟩ := leastLayout_some hleast
    exact ⟨layout, hmem, hobject, isRestorableLayout_iff.mp husable⟩
  · intro plan hresolved
    obtain ⟨layout, hleast, hplans⟩ := hfound plan hresolved
    obtain ⟨hmem, hobject, husable⟩ := leastLayout_some hleast
    have hrestorable := isRestorableLayout_iff.mp husable
    refine ⟨layout, hmem, hobject, hrestorable, fun other hother hroot hall => ?_, hplans, ?_⟩
    · exact leastLayout_le hleast hother hroot (isRestorableLayout_iff.mpr hall)
    · intro chunk hchunk hnone
      have hlisted : (⟨chunk.chunkId, chunk.offset, chunk.sizeBytes⟩ : ChunkRef) ∈
          plan.layoutDescriptor.layout.chunks := by
        rw [← hplans.chunks]
        exact List.mem_map_of_mem hchunk
      obtain ⟨chunkRow, hchunkRow, hid⟩ := mem_layoutChunkRows.mpr ⟨_, hlisted, rfl⟩
      have hid : chunkRow.chunkId = chunk.chunkId := hid
      rw [hplans.descriptor] at hrestorable
      obtain ⟨node, hnode, hserving, havailable⟩ := hrestorable chunkRow hchunkRow
      have hsource := ((hplans.sources chunk hchunk).2 node.endpoint).mpr
        ⟨node, hnode, hserving, hid ▸ havailable, rfl⟩
      rw [hnone] at hsource
      cases hsource
  · intro node hnode hserving single hsingle
    obtain ⟨v, hversion, hroot⟩ := loadRestorableVersion_succeeds hrows h hcommitted hretired
    simp only [resolveRestorePlan, hversion, bind_eq_ok, exists_unit, ok_bind, orFail_eq_ok,
      hroot] at hsingle
    obtain ⟨-, selected, hselected, -⟩ := hsingle
    obtain ⟨hmem, hobject, husable⟩ := leastLayout_some hselected
    refine hplan ⟨selected, hmem, hobject, fun chunkRow hchunkRow => ?_⟩
    have hon := List.all_eq_true.mp husable chunkRow hchunkRow
    obtain ⟨location, hlocation, hcondition⟩ := List.any_eq_true.mp hon
    simp only [Bool.and_eq_true, decide_eq_true_eq] at hcondition
    exact ⟨node, hnode, hserving, location, hlocation, hcondition.1.1, hcondition.1.2, hcondition.2⟩

end

open Sample in
theorem resolveMultiNodeRestorePlan_complete_sample :
    let db := afterOps Sample.env .initial pushOps
    ∃ plan, resolveMultiNodeRestorePlan Sample.env db versionId = .ok plan ∧
      ∀ chunk ∈ plan.chunks, chunk.sources ≠ [] := by
  intro db
  have hresolved : ((resolveMultiNodeRestorePlan Sample.env db versionId).toOption).isSome =
      true := by decide +kernel
  have hrow : versionRow Sample.env 0 { version with state := .committed } ∈
      db.artifactVersions := by decide +kernel
  have hretired : db.isVersionRetired versionId = false := by decide +kernel
  cases hplan : resolveMultiNodeRestorePlan Sample.env db versionId with
  | error e =>
      rw [hplan] at hresolved
      cases hresolved
  | ok plan =>
      obtain ⟨-, -, -, -, -, -, hsources⟩ :=
        (resolveMultiNodeRestorePlan_complete (reachable_afterOps _ _) hrow rfl
          (Db.isVersionRetired_eq_false.mp hretired)).2.1 plan hplan
      exact ⟨plan, rfl, hsources⟩

end AiArtifactStore.Metadata
