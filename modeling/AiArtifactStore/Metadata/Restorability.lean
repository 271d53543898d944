import AiArtifactStore.Metadata.FinalizeRetry
import AiArtifactStore.Metadata.Histories
import AiArtifactStore.Metadata.Rendezvous
import AiArtifactStore.Metadata.RestorePlanning

/-!
# Committed versions stay restorable

From the creation of a session on, whatever other clients do (other uploads,
garbage collection of any node, repairs, lifecycle runs): once the session has
committed a version, and until that version is retired, every replica recorded
at finalization stays recorded and a restore plan resolves.  Only the operator
can take this away, by disabling a placement node or declaring a location bad.
-/

namespace AiArtifactStore.Metadata

open AiArtifactStore.Foundation
open AiArtifactStore.Identity

/-- The operation leaves the nodes of the session serving and what they hold available. -/
def ServiceOp.Keeps (session : UploadSession) : ServiceOp → Prop
  | .registerStorageNode node => node.nodeId ∈ session.placementNodeIds → node.Serving
  | .registerStorageLocation location =>
      location.nodeId ∈ session.placementNodeIds → location.state = .available
  | _ => True

/-- Every chunk of the descriptor is available on every node that placement assigns it. -/
def Replicated (env : Environment) (db : Db) (session : UploadSession)
    (d : ObjectLayoutDescriptor) : Prop :=
  ∀ chunk ∈ d.layout.chunks, ∃ desired,
    selectReplicaNodes env chunk.chunkId session.placementNodeIds session.replicationFactor =
      .ok desired ∧ ∀ nodeId ∈ desired, AvailableOn db chunk.chunkId nodeId

structure CommittedReplicated (env : Environment) (db : Db) (row : SessionRow)
    (d : ObjectLayoutDescriptor) : Prop where
  committed : CommittedAs env db row d
  layout : d.row env ∈ db.objectLayouts
  replicated : Replicated env db row.session d

structure SessionKept (env : Environment) (session : UploadSession) (db : Db) : Prop where
  serving : ∀ nodeId ∈ session.placementNodeIds, ∃ node ∈ db.storageNodes,
    node.nodeId = nodeId ∧ node.Serving
  committed : ∀ row ∈ db.uploadSessions, row.session = session → ∀ versionId,
    row.status = .committed versionId → ¬db.Retired versionId →
      ∃ d, CommittedReplicated env db row d

variable {env : Environment} {db db' db₁ db₂ : Db} {op : ServiceOp} {session : UploadSession}
  {row : SessionRow} {d : ObjectLayoutDescriptor}

/-! ## Placement -/

theorem mem_placement_of_selected {chunkId : ContentId} {nodeIds selected : List String}
    {replicationFactor : Nat} {nodeId : String}
    (h : selectReplicaNodes env chunkId nodeIds replicationFactor = .ok selected)
    (hmem : nodeId ∈ selected) : nodeId ∈ nodeIds := by
  rw [selectReplicaNodes_eq_ok h, List.map_take, map_rankNodes] at hmem
  exact (List.perm_insertionSort _ _).mem_iff.mp (List.mem_of_mem_take hmem)

theorem selected_ne_nil {chunkId : ContentId} {nodeIds selected : List String}
    {replicationFactor : Nat}
    (h : selectReplicaNodes env chunkId nodeIds replicationFactor = .ok selected) :
    selected ≠ [] := by
  have hbounds : 1 ≤ replicationFactor ∧ replicationFactor ≤ nodeIds.length := by
    simp only [selectReplicaNodes, bind_eq_ok, exists_unit, failIf_eq_ok] at h
    omega
  rw [selectReplicaNodes_eq_ok h, List.map_take, map_rankNodes]
  intro hnil
  have hlength := congrArg List.length hnil
  rw [List.length_take, List.length_insertionSort, List.length_nil] at hlength
  omega

/-! ## The checks of finalization -/

theorem uniqueChunks_complete {chunks : List ChunkRef} {unique : List (ContentId × Nat)}
    (h : uniqueChunks chunks = .ok unique) :
    ∀ chunk ∈ chunks, (chunk.chunkId, chunk.size) ∈ unique := by
  have hloop : ∀ (xs : List ChunkRef) (seen : List (ContentId × Nat)),
      foldEach xs seen addUniqueChunk = .ok unique →
        (∀ entry ∈ seen, entry ∈ unique) ∧
          ∀ chunk ∈ xs, (chunk.chunkId, chunk.size) ∈ unique := by
    intro xs
    induction xs with
    | nil =>
        intro seen hseen
        obtain rfl := Except.ok.inj hseen
        exact ⟨fun _ => id, by simp⟩
    | cons chunk rest ih =>
        intro seen hseen
        cases hadd : addUniqueChunk seen chunk with
        | error e => simp [foldEach, hadd] at hseen
        | ok next =>
            simp only [foldEach, hadd] at hseen
            obtain ⟨hkept, hrest⟩ := ih next hseen
            have hadded : (∀ entry ∈ seen, entry ∈ next) ∧ (chunk.chunkId, chunk.size) ∈ next := by
              unfold addUniqueChunk at hadd
              cases hfind : seen.find? fun entry => entry.1 = chunk.chunkId with
              | some existing =>
                  simp only [hfind] at hadd
                  split at hadd
                  · rename_i hsize
                    obtain rfl := Except.ok.inj hadd
                    have hid : existing.1 = chunk.chunkId := by simpa using List.find?_some hfind
                    have hentry : (chunk.chunkId, chunk.size) = existing :=
                      Prod.ext hid.symm hsize.symm
                    exact ⟨fun _ => id, hentry ▸ List.mem_of_find?_eq_some hfind⟩
                  · cases hadd
              | none =>
                  simp only [hfind] at hadd
                  obtain rfl := Except.ok.inj hadd
                  have hfresh : chunk.chunkId ∉ seen.map Prod.fst := by
                    intro hmem
                    obtain ⟨entry, hentry, hid⟩ := List.mem_map.mp hmem
                    simpa [hid] using List.find?_eq_none.mp hfind entry hentry
                  have hperm := emplaceSorted_perm (v := chunk.size) hfresh
                  exact ⟨fun entry hentry => hperm.mem_iff.mpr (List.mem_cons_of_mem _ hentry),
                    hperm.mem_iff.mpr List.mem_cons_self⟩
            refine ⟨fun entry hentry => hkept entry (hadded.1 entry hentry), fun other hother => ?_⟩
            rcases List.mem_cons.mp hother with rfl | hother
            · exact hkept _ hadded.2
            · exact hrest other hother
  exact (hloop chunks [] h).2

theorem replicated_of_finalizable (h : checkFinalizable env db session d = .ok ()) :
    Replicated env db session d := by
  intro chunk hchunk
  simp only [checkFinalizable, bind_eq_ok, exists_unit, forEach_eq_ok] at h
  obtain ⟨-, unique, hunique, hchecked⟩ := h
  have hcheck := hchecked _ (uniqueChunks_complete hunique chunk hchunk)
  simp only [checkUniqueChunk, bind_eq_ok, exists_unit, forEach_eq_ok, checkReplica,
    failIf_eq_ok, Decidable.not_not] at hcheck
  obtain ⟨_, -, _, -, -, desired, hdesired, hreplicas⟩ := hcheck
  refine ⟨desired, hdesired, fun nodeId hnodeId => ?_⟩
  obtain ⟨location, hlocation, hstate⟩ := hreplicas nodeId hnodeId
  have hkey : location.locationKey = (chunk.chunkId, nodeId) := Table.key_of_find? hlocation
  exact ⟨location, Table.mem_of_find? hlocation, congrArg Prod.fst hkey, congrArg Prod.snd hkey,
    hstate⟩

/-! ## One operation -/

theorem availableOn_upsert {location : StorageLocation} {chunkId : ContentId} {nodeId : String}
    (hkept : location.nodeId = nodeId → location.state = .available)
    (h : AvailableOn db chunkId nodeId) :
    AvailableOn { db with storageLocations := db.storageLocations.upsert location } chunkId
      nodeId := by
  obtain ⟨stored, hstored, rfl, rfl, hstate⟩ := h
  by_cases hkey : stored.locationKey = location.locationKey
  · have hchunk : location.chunkId = stored.chunkId := (congrArg Prod.fst hkey).symm
    have hnode : location.nodeId = stored.nodeId := (congrArg Prod.snd hkey).symm
    exact ⟨location, Table.mem_upsert_self, hchunk, hnode, hkept hnode⟩
  · exact ⟨stored, Table.mem_upsert.mpr (.inr ⟨hstored, hkey⟩), rfl, rfl, hstate⟩

theorem availableOn_swept {node : String} {chunkId : ContentId} {nodeId : String}
    (hlive : db.LiveChunk chunkId) (h : AvailableOn db chunkId nodeId) :
    AvailableOn (sweptDb db node) chunkId nodeId := by
  obtain ⟨location, hlocation, rfl, hnode, hstate⟩ := h
  exact ⟨location, mem_sweptDb_storageLocations.mpr ⟨hlocation, fun _ => hlive⟩, rfl, hnode, hstate⟩

theorem liveChunk_of_layout (h : CommittedReplicated env db row d)
    (hretired : ¬db.Retired ((finalVersion row d).versionId env)) {chunk : ChunkRef}
    (hchunk : chunk ∈ d.layout.chunks) : db.LiveChunk chunk.chunkId := by
  have hlive : db.LiveLayout (d.row env) := h.committed.liveLayout hretired rfl
  obtain ⟨chunkRow, hchunkRow, hid⟩ := mem_layoutChunkRows.mpr ⟨chunk, hchunk, rfl⟩
  exact hid ▸ liveChunk_of_row h.layout hlive hchunkRow

theorem CommittedReplicated.swept {node : String} (h : CommittedReplicated env db row d)
    (hretired : ¬db.Retired ((finalVersion row d).versionId env)) :
    d.row env ∈ (sweptDb db node).objectLayouts ∧ Replicated env (sweptDb db node) row.session d := by
  have hlive : db.LiveLayout (d.row env) := h.committed.liveLayout hretired rfl
  refine ⟨mem_sweptDb_objectLayouts.mpr ⟨h.layout, hlive⟩, fun chunk hchunk => ?_⟩
  obtain ⟨desired, hdesired, havailable⟩ := h.replicated chunk hchunk
  exact ⟨desired, hdesired, fun nodeId hnodeId =>
    availableOn_swept (liveChunk_of_layout h hretired hchunk) (havailable nodeId hnodeId)⟩

theorem CommittedReplicated.registered {location : StorageLocation}
    (hop : (ServiceOp.registerStorageLocation location).Keeps row.session)
    (h : CommittedReplicated env db row d) :
    Replicated env { db with storageLocations := db.storageLocations.upsert location.stored }
      row.session d := by
  intro chunk hchunk
  obtain ⟨desired, hdesired, havailable⟩ := h.replicated chunk hchunk
  refine ⟨desired, hdesired, fun nodeId hnodeId => ?_⟩
  refine availableOn_upsert (fun hnode => hop ?_) (havailable nodeId hnodeId)
  exact hnode ▸ mem_placement_of_selected hdesired hnodeId

theorem Replicated.of_locations (hsame : db'.storageLocations = db.storageLocations)
    (h : Replicated env db session d) : Replicated env db' session d := by
  unfold Replicated AvailableOn
  rw [hsame]
  exact h

theorem CommittedReplicated.effect (he : Effect env db op db') (hop : op.Keeps row.session)
    (h : CommittedReplicated env db row d)
    (hretired : ¬db.Retired ((finalVersion row d).versionId env)) :
    CommittedReplicated env db' row d := by
  refine ⟨h.committed.effect he hretired, ?_, ?_⟩
  · cases he with
    | finalized => exact Table.mem_insert_of_mem h.layout
    | @gcCompleted run completed stats hcompletes =>
        unfold completedGcDb completionDb
        cases run.mode with
        | dryRun => exact h.layout
        | apply => exact (h.swept hretired).1
    | _ => exact h.layout
  · cases he with
    | locationRegistered => exact h.registered hop
    | @gcCompleted run completed stats hcompletes =>
        unfold completedGcDb completionDb
        cases run.mode with
        | dryRun => exact h.replicated
        | apply => exact (h.swept hretired).2
    | _ => exact h.replicated.of_locations rfl

theorem committed_effect (he : Effect env db op db') (hparents : ParentsDiffer db)
    (hrow : row ∈ db'.uploadSessions) {versionId : ContentId}
    (hstatus : row.status = .committed versionId) :
    row ∈ db.uploadSessions ∨ ∃ d, CommittedReplicated env db' row d := by
  cases he with
  | sessionOpened =>
      rcases Table.mem_insert.mp hrow with hrow | ⟨rfl, -⟩
      · exact .inl hrow
      · cases hstatus
  | sessionAborted =>
      rcases Table.mem_upsert.mp hrow with rfl | ⟨hrow, -⟩
      · cases hstatus
      · exact .inl hrow
  | @finalized now createdAt other d table hfinalizes =>
      rcases Table.mem_upsert.mp hrow with rfl | ⟨hrow, -⟩
      · refine .inr ⟨d, committedAs_finalized hparents hfinalizes, ?_, ?_⟩
        · exact Table.mem_of_find? hfinalizes.layout.stored
        · exact (replicated_of_finalizable hfinalizes.finalizable).of_locations rfl
      · exact .inl hrow
  | @gcCompleted run completed stats hcompletes =>
      obtain ⟨_, _, _, _, _, heq⟩ := completedGcDb_frame db run completed
      rw [heq] at hrow
      exact .inl hrow
  | _ => exact .inl hrow

theorem serving_effect (he : Effect env db op db') (hop : op.Keeps session) {nodeId : String}
    (hnodeId : nodeId ∈ session.placementNodeIds)
    (h : ∃ node ∈ db.storageNodes, node.nodeId = nodeId ∧ node.Serving) :
    ∃ node ∈ db'.storageNodes, node.nodeId = nodeId ∧ node.Serving := by
  obtain ⟨node, hnode, rfl, hserving⟩ := h
  cases he with
  | @nodeRegistered registered =>
      by_cases hid : node.nodeId = registered.nodeId
      · exact ⟨registered.stored, Table.mem_upsert_self, hid.symm, hop (hid ▸ hnodeId)⟩
      · exact ⟨node, Table.mem_upsert.mpr (.inr ⟨hnode, hid⟩), rfl, hserving⟩
  | @gcCompleted run completed stats hcompletes =>
      obtain ⟨_, _, _, _, _, heq⟩ := completedGcDb_frame db run completed
      rw [heq]
      exact ⟨node, hnode, rfl, hserving⟩
  | _ => exact ⟨node, hnode, rfl, hserving⟩

theorem SessionKept.effect (he : Effect env db op db') (hparents : ParentsDiffer db)
    (hop : op.Keeps session) (h : SessionKept env session db) : SessionKept env session db' := by
  refine ⟨fun nodeId hnodeId => serving_effect he hop hnodeId (h.serving nodeId hnodeId), ?_⟩
  intro row hrow hsession versionId hstatus hretired
  rcases committed_effect he hparents hrow hstatus with hbefore | hnew
  · have hnotRetired := mt (retired_effect he) hretired
    obtain ⟨d, hcommitted⟩ := h.committed row hbefore hsession versionId hstatus hnotRetired
    have hversion : versionId = (finalVersion row d).versionId env :=
      UploadSessionStatus.committed.inj (hstatus.symm.trans hcommitted.committed.status)
    exact ⟨d, hcommitted.effect he (hsession ▸ hop) (hversion ▸ hnotRetired)⟩
  · exact hnew

/-! ## A history -/

theorem sessionKept_created {requested : SessionRow}
    (hfresh : db.uploadSessions.find? requested.sessionId = none)
    (h : createUploadSession db requested = .ok db') : SessionKept env requested.session db' := by
  simp only [createUploadSession, hfresh, insertUploadSession, bind_eq_ok, exists_unit,
    forEach_eq_ok, checkPlacementNode, orFail_eq_ok, failIf_eq_ok, Decidable.not_not] at h
  obtain ⟨-, -, -, hnodes, -, -, -, -, -, -, -, -, -, h⟩ := h
  obtain rfl := Except.ok.inj h
  refine ⟨fun nodeId hnodeId => ?_, fun row hrow hsession versionId hstatus => ?_⟩
  · obtain ⟨node, hnode, hactive⟩ := hnodes nodeId hnodeId
    exact ⟨node, Table.mem_of_find? hnode, Table.key_of_find? hnode, .inl hactive⟩
  · rcases Table.mem_insert.mp hrow with hrow | ⟨rfl, -⟩
    · exact absurd (congrArg UploadSessionFields.sessionId
        (congrArg UploadSession.toUploadSessionFields hsession))
          (Table.find?_eq_none.mp hfresh row hrow)
    · cases hstatus

theorem sessionKept_evolves (h : Reachable env db) (hkept : SessionKept env session db)
    (hrun : Evolves env (ServiceOp.Keeps session) db db') : SessionKept env session db' := by
  unfold Evolves at hrun
  induction hrun with
  | refl => exact hkept
  | tail hrest hstep ih =>
      obtain ⟨op, hop, heffect⟩ := serviceStep_effect hstep
      exact ih.effect heffect (parentsDiffer_of_reachable (h.evolves hrest)) hop

/-! ## Restoring -/

theorem versions_committed (h : Reachable env db) :
    ∀ version ∈ db.artifactVersions, version.state = .committed := by
  refine reachable_invariant (P := fun db : Db => ∀ version ∈ db.artifactVersions, version.state = .committed)
    (fun version hversion => absurd hversion (Table.not_mem_empty version)) ?_ h
  intro db op db' he hcommitted
  cases he with
  | finalized =>
      intro version hversion
      rcases Table.mem_upsert.mp hversion with rfl | ⟨hversion, -⟩
      · rfl
      · exact hcommitted version hversion
  | @gcCompleted run completed stats hcompletes =>
      obtain ⟨_, _, _, _, _, heq⟩ := completedGcDb_frame db run completed
      rw [heq]
      exact hcommitted
  | _ => exact hcommitted

theorem SessionKept.restorable (h : SessionKept env session db) (hsession : row.session = session)
    (hreplicated : Replicated env db row.session d) : Restorable db (d.row env) := by
  intro chunkRow hchunkRow
  obtain ⟨chunk, hchunk, hid⟩ := mem_layoutChunkRows.mp ⟨chunkRow, hchunkRow, rfl⟩
  obtain ⟨desired, hdesired, havailable⟩ := hreplicated chunk hchunk
  obtain ⟨nodeId, hnodeId⟩ := List.exists_mem_of_ne_nil _ (selected_ne_nil hdesired)
  obtain ⟨node, hnode, rfl, hserving⟩ :=
    h.serving nodeId (hsession ▸ mem_placement_of_selected hdesired hnodeId)
  exact ⟨node, hnode, hserving, hid ▸ havailable _ hnodeId⟩

theorem PlansLayout.sources_ne_nil {plan : MultiNodeRestorePlan} {layout : ObjectLayoutRow}
    (h : PlansLayout env db plan layout) (hrestorable : Restorable db layout) :
    ∀ chunk ∈ plan.chunks, chunk.sources ≠ [] := by
  intro chunk hchunk hnone
  have hlisted : (⟨chunk.chunkId, chunk.offset, chunk.sizeBytes⟩ : ChunkRef) ∈
      plan.layoutDescriptor.layout.chunks := by
    rw [← h.chunks]
    exact List.mem_map_of_mem hchunk
  obtain ⟨chunkRow, hchunkRow, hid⟩ := mem_layoutChunkRows.mpr ⟨_, hlisted, rfl⟩
  have hid : chunkRow.chunkId = chunk.chunkId := hid
  rw [h.descriptor] at hrestorable
  obtain ⟨node, hnode, hserving, havailable⟩ := hrestorable chunkRow hchunkRow
  have hsource := ((h.sources chunk hchunk).2 node.endpoint).mpr
    ⟨node, hnode, hserving, hid ▸ havailable, rfl⟩
  rw [hnone] at hsource
  cases hsource

theorem CommittedReplicated.planned (hreach : Reachable env db) (h : CommittedReplicated env db row d)
    (hretired : ¬db.Retired ((finalVersion row d).versionId env))
    (hrestorable : Restorable db (d.row env)) :
    ∃ plan, resolveMultiNodeRestorePlan env db ((finalVersion row d).versionId env) = .ok plan ∧
      plan.layoutDescriptor.objectId = d.objectId ∧ ∀ chunk ∈ plan.chunks, chunk.sources ≠ [] := by
  obtain ⟨version, hversion, hidentity⟩ :=
    artifactVersionIdentityMatches_iff.mp h.committed.version
  have hmem := Table.mem_of_find? hversion
  have hroot : version.rootObjectId = d.objectId := by
    rw [hidentity]
    rfl
  have hkey : version.versionId = (finalVersion row d).versionId env := Table.key_of_find? hversion
  obtain ⟨selected, hselected⟩ := leastLayout_isSome h.layout hroot.symm
    (isRestorableLayout_iff.mpr hrestorable)
  obtain ⟨plan, hplan, hplans⟩ := resolveMultiNodeRestorePlan_ok (rowsWritten_of_reachable hreach)
    hmem (versions_committed hreach version hmem) (hkey ▸ hretired) hselected
  obtain ⟨-, hobject, husable⟩ := leastLayout_some hselected
  refine ⟨plan, hkey ▸ hplan, ?_, hplans.sources_ne_nil (isRestorableLayout_iff.mp husable)⟩
  rw [← hroot, ← hobject, hplans.descriptor]
  rfl

/-- Once a session has committed a version, the replicas of its layout stay recorded and a
restore plan with a source for every chunk resolves, in every later state in which the
version is not retired. -/
theorem committed_stays_restorable {reply : Reply} {versionId : ContentId} (h : Reachable env db)
    (hfresh : db.uploadSessions.find? session.sessionId = none)
    (hcreated : serve env db (.createUploadSession ⟨session, .open⟩) = (.ok reply, db₁))
    (hrun : Evolves env (ServiceOp.Keeps session) db₁ db₂) (hrow : row ∈ db₂.uploadSessions)
    (hsession : row.session = session) (hstatus : row.status = .committed versionId)
    (hretired : ¬db₂.Retired versionId) :
    ∃ d plan, CommittedAs env db₂ row d ∧ Replicated env db₂ session d ∧
      resolveMultiNodeRestorePlan env db₂ versionId = .ok plan ∧
      plan.layoutDescriptor.objectId = d.objectId ∧ ∀ chunk ∈ plan.chunks, chunk.sources ≠ [] := by
  have hcreate : createUploadSession db ⟨session, .open⟩ = .ok db₁ := by
    rcases serve_cases env db (.createUploadSession ⟨session, .open⟩) with
      ⟨e, -, hs⟩ | ⟨answer, next, ht, hs⟩
    · rw [hs] at hcreated
      cases hcreated
    · rw [hs] at hcreated
      obtain ⟨-, rfl⟩ := Prod.ext_iff.mp hcreated
      exact (done_eq_ok.mp ht).1
  have hreach₁ : Reachable env db₁ := by
    have hserved : Reachable env (serve env db (.createUploadSession ⟨session, .open⟩)).2 := h.serve
    rwa [hcreated] at hserved
  have hkept := sessionKept_evolves hreach₁ (sessionKept_created hfresh hcreate) hrun
  obtain ⟨d, hcommitted⟩ := hkept.committed row hrow hsession versionId hstatus hretired
  obtain rfl : versionId = (finalVersion row d).versionId env :=
    UploadSessionStatus.committed.inj (hstatus.symm.trans hcommitted.committed.status)
  have hrestorable := hkept.restorable hsession hcommitted.replicated
  obtain ⟨plan, hplan, hobject, hsources⟩ :=
    hcommitted.planned (hreach₁.evolves hrun) hretired hrestorable
  exact ⟨d, plan, hcommitted.committed, hsession ▸ hcommitted.replicated, hplan, hobject, hsources⟩

namespace Sample

/-- What happens after the sample session was created. -/
def laterOps : List ServiceOp :=
  pushOps.drop 3 ++ repairOps ++ [.startGcRun gcRun, .completeGcRun gcRun.runId .zero]

theorem laterOps_keeps : ∀ op ∈ laterOps, ServiceOp.Keeps session op := by
  intro op hop
  simp only [laterOps, pushOps, repairOps, List.drop_succ_cons, List.drop_zero, List.cons_append,
    List.nil_append, List.mem_cons, List.not_mem_nil, or_false] at hop
  rcases hop with rfl | rfl | rfl | rfl | rfl | rfl | rfl
  · trivial
  · exact fun _ => rfl
  all_goals trivial

end Sample

open Sample in
theorem committed_stays_restorable_sample :
    let db := afterOps Sample.env .initial (pushOps.take 2)
    let db₁ := (serve Sample.env db (.createUploadSession ⟨Sample.session, .open⟩)).2
    let db₂ := afterOps Sample.env db₁ laterOps
    ∃ d plan, CommittedAs Sample.env db₂ ⟨Sample.session, .committed versionId⟩ d ∧
      Replicated Sample.env db₂ Sample.session d ∧
      resolveMultiNodeRestorePlan Sample.env db₂ versionId = .ok plan ∧
      plan.layoutDescriptor.objectId = d.objectId ∧ ∀ chunk ∈ plan.chunks, chunk.sources ≠ [] := by
  intro db db₁ db₂
  have hfresh : db.uploadSessions.find? Sample.session.sessionId = none := by decide +kernel
  have hcreated : (serve Sample.env db (.createUploadSession ⟨Sample.session, .open⟩)).1 =
      .ok .done := by decide +kernel
  have hrow : ⟨Sample.session, .committed versionId⟩ ∈ db₂.uploadSessions :=
    Table.mem_of_find? (k := Sample.session.sessionId) (by decide +kernel)
  have hretired : db₂.isVersionRetired versionId = false := by decide +kernel
  exact committed_stays_restorable (reachable_afterOps _ _) hfresh (Prod.ext hcreated rfl)
    (evolves_afterOps _ _ _ laterOps_keeps) hrow rfl rfl (Db.isVersionRetired_eq_false.mp hretired)

end AiArtifactStore.Metadata
