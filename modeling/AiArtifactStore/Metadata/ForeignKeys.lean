import AiArtifactStore.Foundation.Constraints
import AiArtifactStore.Metadata.LifecycleDecisions
import AiArtifactStore.Metadata.Manifests
import AiArtifactStore.Metadata.RestorePlanning

/-!
# The foreign keys of the schema

Every `FOREIGN KEY` that the migrations declare between the modelled tables, and
that no operation leaves one dangling: not a write that the operation itself
checks, and not a sweep, whose deletes restrict, cascade or set to null.
-/

namespace AiArtifactStore.Metadata

open AiArtifactStore.Foundation
open AiArtifactStore.Identity

/-- `artifact_versions_artifact_version_unique` -/
def VersionRow.versionKey (row : VersionRow) : UuidV7 × ContentId := (row.artifactId, row.versionId)

structure ForeignKeys (db : Db) : Prop where
  objectLayoutsObject : db.objectLayouts.References
    (fun layout => [(layout.objectId, layout.totalSizeBytes)])
    db.objects fun object => (object.objectId, object.totalSize)
  objectLayoutChunksChunk : db.objectLayouts.References
    (fun layout => layout.chunkRows.map fun row => (row.chunkId, row.chunkSizeBytes))
    db.chunks fun chunk => (chunk.chunkId, chunk.sizeBytes)
  artifactVersionsArtifact : db.artifactVersions.References (fun version => [version.artifactId])
    db.artifacts Artifact.artifactId
  artifactVersionsRootObject : db.artifactVersions.References
    (fun version => [version.rootObjectId]) db.objects StoredObject.objectId
  artifactVersionsParent : db.artifactVersions.References
    (fun version => version.parentVersionId.toList.map (Prod.mk version.artifactId))
    db.artifactVersions VersionRow.versionKey
  tagsArtifact : db.tags.References (fun tag => [tag.artifactId])
    db.artifacts Artifact.artifactId
  tagsVersion : db.tags.References (fun tag => [(tag.artifactId, tag.versionId)])
    db.artifactVersions VersionRow.versionKey
  storageLocationsChunk : db.storageLocations.References (fun location => [location.chunkId])
    db.chunks ChunkMetadata.chunkId
  manifestEntriesVersion : db.manifests.References (fun manifest => manifest.entryRows.map Prod.snd)
    db.artifactVersions VersionRow.versionId
  uploadSessionsArtifact : db.uploadSessions.References (fun row => [row.session.artifactId])
    db.artifacts Artifact.artifactId
  uploadSessionsParentVersion : db.uploadSessions.References
    (fun row => row.session.parentVersionId.toList.map (Prod.mk row.session.artifactId))
    db.artifactVersions VersionRow.versionKey
  uploadSessionsFinalizedVersion : db.uploadSessions.References
    (fun row => row.status.finalizedVersionId.toList.map (Prod.mk row.session.artifactId))
    db.artifactVersions VersionRow.versionKey
  uploadSessionFinalizationsSession : db.finalizations.References (fun row => [row.sessionId])
    db.uploadSessions SessionRow.sessionId
  uploadSessionFinalizationsLayout : db.finalizations.References (fun row => row.layoutId.toList)
    db.objectLayouts ObjectLayoutRow.layoutId
  replicationRunsVersion : db.replicationRuns.References (fun run => [run.versionId])
    db.artifactVersions VersionRow.versionId
  replicationRunsLayout : db.replicationRuns.References (fun run => [run.layoutId])
    db.objectLayouts ObjectLayoutRow.layoutId
  artifactVersionPinsVersion : db.pins.References (fun pin => [pin.versionId])
    db.artifactVersions VersionRow.versionId
  lifecycleRunsPolicy : db.lifecycleRuns.References (fun row => [row.run.policyId])
    db.lifecyclePolicies LifecyclePolicy.policyId
  lifecycleRunDecisionsVersion : db.lifecycleRuns.References
    (fun row => row.decisions.map LifecycleDecision.versionId)
    db.artifactVersions VersionRow.versionId
  lifecycleRunDecisionsArtifact : db.lifecycleRuns.References
    (fun row => row.decisions.map LifecycleDecision.artifactId) db.artifacts Artifact.artifactId
  artifactVersionRetirementsVersion : db.retirements.References (fun row => [row.versionId])
    db.artifactVersions VersionRow.versionId
  artifactVersionRetirementsRun : db.retirements.References (fun row => [row.lifecycleRunId])
    db.lifecycleRuns LifecycleRunRow.runId

theorem foreignKeys_initial : ForeignKeys Db.initial := by
  constructor <;> exact Table.references_empty

variable {env : Environment} {db db' : Db} {op : ServiceOp}

/-! ## Writes that the operation checks -/

theorem exists_artifact {artifactId : UuidV7} (h : db.artifacts.find? artifactId ≠ none) :
    ∃ artifact ∈ db.artifacts, artifact.artifactId = artifactId := by
  obtain ⟨artifact, hfind⟩ := Option.ne_none_iff_exists'.mp h
  exact ⟨artifact, Table.mem_of_find? hfind, Table.key_of_find? hfind⟩

theorem exists_version {artifactId : UuidV7} {versionId : ContentId}
    (h : ∃ row ∈ db.artifactVersions.find? versionId, row.artifactId = artifactId) :
    ∃ version ∈ db.artifactVersions, version.versionKey = (artifactId, versionId) := by
  obtain ⟨version, hfind, hartifact⟩ := h
  have hid : version.versionId = versionId := Table.key_of_find? hfind
  exact ⟨version, Table.mem_of_find? hfind, by rw [VersionRow.versionKey, hartifact, hid]⟩

theorem foreignKeys_setTag {artifactId : UuidV7} {tagName : String} {versionId : ContentId}
    (h : setTag db artifactId tagName versionId = .ok db') (hkeys : ForeignKeys db) :
    ForeignKeys db' := by
  simp only [setTag, bind_eq_ok, exists_unit, failIf_eq_ok, Decidable.not_not] at h
  obtain ⟨-, -, hartifact, hversion, h⟩ := h
  obtain rfl := Except.ok.inj h
  refine { hkeys with tagsArtifact := ?_, tagsVersion := ?_ }
  · refine hkeys.tagsArtifact.upsert ?_
    simpa using exists_artifact hartifact
  · refine hkeys.tagsVersion.upsert ?_
    simpa using exists_version hversion

theorem foreignKeys_registerStorageLocation {location : StorageLocation}
    (h : registerStorageLocation db location = .ok db') (hkeys : ForeignKeys db) :
    ForeignKeys db' := by
  simp only [registerStorageLocation, bind_eq_ok, exists_unit, failIf_eq_ok] at h
  obtain ⟨-, -, -, -, hchunk, h⟩ := h
  obtain rfl := Except.ok.inj h
  obtain ⟨chunk, hfind⟩ := Option.ne_none_iff_exists'.mp hchunk
  refine { hkeys with storageLocationsChunk := hkeys.storageLocationsChunk.upsert ?_ }
  simp only [List.mem_singleton, forall_eq]
  exact ⟨chunk, Table.mem_of_find? hfind, Table.key_of_find? hfind⟩

theorem foreignKeys_registerManifest {manifest : Manifest}
    (h : registerManifest env db manifest = .ok db') (hkeys : ForeignKeys db) :
    ForeignKeys db' := by
  obtain ⟨-, -, hinsert, -⟩ := registerManifest_eq_ok.mp h
  unfold insertManifest at hinsert
  cases hfind : db.manifests.find? (manifest.manifestId env) with
  | some stored =>
      simp only [hfind] at hinsert
      obtain rfl := Except.ok.inj hinsert
      exact hkeys
  | none =>
      simp only [hfind, bind_eq_ok, exists_unit, failIf_eq_ok] at hinsert
      obtain ⟨hversions, hinsert⟩ := hinsert
      obtain rfl := Except.ok.inj hinsert
      refine { hkeys with manifestEntriesVersion := hkeys.manifestEntriesVersion.insert ?_ }
      intro versionId hversionId
      obtain ⟨entry, hentry, rfl⟩ := List.mem_map.mp hversionId
      obtain ⟨version, hversion⟩ := Option.ne_none_iff_exists'.mp fun hnone =>
        hversions ⟨entry, hentry, hnone⟩
      exact ⟨version, Table.mem_of_find? hversion, Table.key_of_find? hversion⟩

theorem foreignKeys_pinVersion {versionId : ContentId} {reason : String}
    (h : pinVersion env db versionId reason = .ok db') (hkeys : ForeignKeys db) :
    ForeignKeys db' := by
  simp only [pinVersion, bind_eq_ok, exists_unit, orFail_eq_ok] at h
  obtain ⟨-, _, hload, version, rfl, -, -, -, h⟩ := h
  obtain rfl := Except.ok.inj h
  obtain ⟨row, hrow, hid, -⟩ := loadVersion_ok hload
  refine { hkeys with artifactVersionPinsVersion := hkeys.artifactVersionPinsVersion.upsert ?_ }
  simp only [List.mem_singleton, forall_eq]
  exact ⟨row, hrow, hid⟩

/-! ## Sessions -/

theorem exists_parent {artifactId : UuidV7} {parent : Option ContentId}
    (h : ¬parentVersionMissing db artifactId parent) :
    ∀ value ∈ parent.toList.map (Prod.mk artifactId),
      ∃ version ∈ db.artifactVersions, version.versionKey = value := by
  intro value hvalue
  obtain ⟨p, hp, rfl⟩ := List.mem_map.mp hvalue
  by_contra hmissing
  exact h ⟨p, Option.mem_toList.mp hp, fun hstored => hmissing (exists_version hstored)⟩

theorem foreignKeys_sessionOpened {session : UploadSession} (h : SessionOpened db session)
    (hkeys : ForeignKeys db) :
    ForeignKeys { db with uploadSessions := db.uploadSessions.insert ⟨session, .open⟩ } := by
  refine { hkeys with
    uploadSessionsArtifact := hkeys.uploadSessionsArtifact.insert ?_
    uploadSessionsParentVersion := hkeys.uploadSessionsParentVersion.insert (exists_parent h.parent)
    uploadSessionsFinalizedVersion := hkeys.uploadSessionsFinalizedVersion.insert ?_
    uploadSessionFinalizationsSession := hkeys.uploadSessionFinalizationsSession.mono .insert }
  · simpa using exists_artifact h.artifact
  · simp [UploadSessionStatus.finalizedVersionId]

/-- A session row keeps its keys when only its status changes, to a version of its artifact
or to none. -/
theorem foreignKeys_status {row : SessionRow} {status : UploadSessionStatus}
    (hrow : row ∈ db.uploadSessions) (hkeys : ForeignKeys db)
    (hfinalized : ∀ value ∈ status.finalizedVersionId.toList.map
      (Prod.mk row.session.artifactId),
        ∃ version ∈ db.artifactVersions, version.versionKey = value) :
    ForeignKeys { db with
      uploadSessions := db.uploadSessions.upsert { row with status := status } } :=
  { hkeys with
    uploadSessionsArtifact :=
      hkeys.uploadSessionsArtifact.upsert (hkeys.uploadSessionsArtifact row hrow)
    uploadSessionsParentVersion :=
      hkeys.uploadSessionsParentVersion.upsert (hkeys.uploadSessionsParentVersion row hrow)
    uploadSessionsFinalizedVersion := hkeys.uploadSessionsFinalizedVersion.upsert hfinalized
    uploadSessionFinalizationsSession :=
      hkeys.uploadSessionFinalizationsSession.mono (.upsert fun _ _ hsame => hsame.symm) }

/-! ## Finalization -/

theorem mem_layoutChunkRows_size {index : Nat} {chunks : List ChunkRef} {row : LayoutChunkRow}
    (h : row ∈ layoutChunkRows index chunks) :
    ∃ chunk ∈ chunks, chunk.chunkId = row.chunkId ∧ chunk.size = row.chunkSizeBytes := by
  induction chunks generalizing index with
  | nil => simp [layoutChunkRows] at h
  | cons chunk rest ih =>
      rcases List.mem_cons.mp h with rfl | h
      · exact ⟨chunk, by simp, rfl, rfl⟩
      · obtain ⟨found, hfound, hsame⟩ := ih h
        exact ⟨found, by simp [hfound], hsame⟩

section

variable {row : SessionRow} {d : ObjectLayoutDescriptor} {createdAt : Int}
  {table : Table ChunkMetadata.chunkId}

/-- Finalization changes at most the state of a stored version. -/
theorem keepsVersions {τ : Type} {column : VersionRow → τ}
    (hfinalizes : Finalizes env db row d createdAt table)
    (hcolumn : ∀ (version : VersionRow) (state : VersionState),
      column { version with state := state } = column version) :
    Table.KeepsColumn db.artifactVersions
      (db.artifactVersions.upsert (versionRow env createdAt (finalVersion row d))) column := by
  intro version hversion
  obtain ⟨version', hversion', hsame⟩ := version_finalized hfinalizes hversion
  exact ⟨version', hversion', by rw [hsame, hcolumn]⟩

theorem keepsChunks (hfinalizes : Finalizes env db row d createdAt table) {τ : Type}
    {column : ChunkMetadata → τ} : Table.KeepsColumn db.chunks table column :=
  .of_mem fun _ hchunk =>
    Table.mem_of_find? (hfinalizes.layout.chunks.kept _ _ (Table.find?_of_mem hchunk))

theorem foreignKeys_finalized (hfinalizes : Finalizes env db row d createdAt table)
    (hkeys : ForeignKeys db) : ForeignKeys (finalizedDb env db row d createdAt table) := by
  have hrow : row ∈ db.uploadSessions := Table.mem_of_find? hfinalizes.stored
  have hkeyed : Table.KeepsColumn db.artifactVersions _ VersionRow.versionKey :=
    keepsVersions hfinalizes fun _ _ => rfl
  have hids : Table.KeepsColumn db.artifactVersions _ VersionRow.versionId :=
    keepsVersions hfinalizes fun _ _ => rfl
  have hobject := Table.mem_of_find? hfinalizes.objectStored
  have hparent := hkeys.uploadSessionsParentVersion.mono hkeyed row hrow
  exact {
    objectLayoutsObject := (hkeys.objectLayoutsObject.mono .insert).insert (by
      simp only [List.mem_singleton, forall_eq]
      exact ⟨d.object, hobject, by rw [d.sizeMatches]; rfl⟩)
    objectLayoutChunksChunk := (hkeys.objectLayoutChunksChunk.mono (keepsChunks hfinalizes)).insert
      (by
        intro value hvalue
        obtain ⟨chunkRow, hchunkRow, rfl⟩ := List.mem_map.mp hvalue
        obtain ⟨chunk, hchunk, hid, hsize⟩ := mem_layoutChunkRows_size hchunkRow
        have hstored := hfinalizes.layout.chunks.registered chunk hchunk
        exact ⟨_, Table.mem_of_find? hstored, by rw [hid, hsize]⟩)
    artifactVersionsArtifact :=
      hkeys.artifactVersionsArtifact.upsert (hkeys.uploadSessionsArtifact row hrow)
    artifactVersionsRootObject := (hkeys.artifactVersionsRootObject.mono .insert).upsert (by
      simp only [List.mem_singleton, forall_eq]
      exact ⟨d.object, hobject, rfl⟩)
    artifactVersionsParent := (hkeys.artifactVersionsParent.mono hkeyed).upsert hparent
    tagsArtifact := hkeys.tagsArtifact
    tagsVersion := hkeys.tagsVersion.mono hkeyed
    storageLocationsChunk := hkeys.storageLocationsChunk.mono (keepsChunks hfinalizes)
    manifestEntriesVersion := hkeys.manifestEntriesVersion.mono hids
    uploadSessionsArtifact :=
      hkeys.uploadSessionsArtifact.upsert (hkeys.uploadSessionsArtifact row hrow)
    uploadSessionsParentVersion := (hkeys.uploadSessionsParentVersion.mono hkeyed).upsert hparent
    uploadSessionsFinalizedVersion := (hkeys.uploadSessionsFinalizedVersion.mono hkeyed).upsert (by
      simp only [UploadSessionStatus.finalizedVersionId, Option.toList_some, List.map_cons,
        List.map_nil, List.mem_singleton, forall_eq]
      exact ⟨_, Table.mem_upsert_self, rfl⟩)
    uploadSessionFinalizationsSession :=
      (hkeys.uploadSessionFinalizationsSession.mono (.upsert fun _ _ hsame => hsame.symm)).insert (by
        simp only [List.mem_singleton, forall_eq]
        exact ⟨_, Table.mem_upsert_self, rfl⟩)
    uploadSessionFinalizationsLayout :=
      (hkeys.uploadSessionFinalizationsLayout.mono .insert).insert (by
        simp only [Option.toList_some, List.mem_singleton, forall_eq]
        exact ⟨_, Table.mem_of_find? hfinalizes.layout.stored, rfl⟩)
    replicationRunsVersion := hkeys.replicationRunsVersion.mono hids
    replicationRunsLayout := hkeys.replicationRunsLayout.mono .insert
    artifactVersionPinsVersion := hkeys.artifactVersionPinsVersion.mono hids
    lifecycleRunsPolicy := hkeys.lifecycleRunsPolicy
    lifecycleRunDecisionsVersion := hkeys.lifecycleRunDecisionsVersion.mono hids
    lifecycleRunDecisionsArtifact := hkeys.lifecycleRunDecisionsArtifact
    artifactVersionRetirementsVersion := hkeys.artifactVersionRetirementsVersion.mono hids
    artifactVersionRetirementsRun := hkeys.artifactVersionRetirementsRun }

end

/-! ## The sweep -/

theorem mem_sweptDb_finalizations {node : String} {row : FinalizationRow}
    (h : row ∈ (sweptDb db node).finalizations) :
    ∃ before ∈ db.finalizations, row.sessionId = before.sessionId ∧
      ∀ layoutId, row.layoutId = some layoutId → before.layoutId = some layoutId ∧
        ∀ layout ∈ db.objectLayouts, layout.layoutId = layoutId → db.LiveLayout layout := by
  obtain ⟨before, hbefore, rfl⟩ := List.mem_map.mp h
  refine ⟨before, hbefore, rfl, fun layoutId hlayoutId => ?_⟩
  obtain ⟨hstored, hkept⟩ := Option.filter_eq_some_iff.mp hlayoutId
  refine ⟨hstored, fun layout hlayout hid => ?_⟩
  rw [Bool.not_eq_true', List.any_eq_false] at hkept
  by_contra hdead
  refine hkept layout hlayout ?_
  have hswept : (deleteStorageLocations db (isDeadLocation db node)).isLiveLayout layout = false :=
    Bool.eq_false_iff.mpr fun hlive => hdead (Db.isLiveLayout_iff.mp hlive)
  simp [hswept, hid]

/-- Layouts restrict objects and chunks, locations cascade, finalizations are set to null. -/
theorem foreignKeys_sweptDb {node : String} (hunpinned : ¬PinsDeadLayout db)
    (hkeys : ForeignKeys db) : ForeignKeys (sweptDb db node) := by
  have hlayouts : ∀ layout ∈ (sweptDb db node).objectLayouts, layout ∈ db.objectLayouts :=
    fun layout hlayout => (mem_sweptDb_objectLayouts.mp hlayout).1
  refine { hkeys with
    objectLayoutsObject := (hkeys.objectLayoutsObject.of_subset hlayouts).of_parent ?_
    objectLayoutChunksChunk := (hkeys.objectLayoutChunksChunk.of_subset hlayouts).of_parent ?_
    artifactVersionsRootObject := hkeys.artifactVersionsRootObject.of_parent ?_
    storageLocationsChunk := ?_
    uploadSessionFinalizationsSession := ?_
    uploadSessionFinalizationsLayout := ?_
    replicationRunsLayout := hkeys.replicationRunsLayout.of_parent ?_ }
  · intro layout hlayout object hobject hrefers
    have hid : layout.objectId = object.objectId := by
      simpa using (congrArg Prod.fst (List.mem_singleton.mp hrefers)).symm
    exact ⟨object, mem_sweptDb_objects.mpr ⟨hobject, .inr ⟨layout, hlayout, hid⟩⟩, rfl⟩
  · intro layout hlayout chunk hchunk hrefers
    obtain ⟨row, hrow, hsame⟩ := List.mem_map.mp hrefers
    have hcontains : layout.containsChunk chunk.chunkId = true :=
      List.any_eq_true.mpr ⟨row, hrow, by simpa using congrArg Prod.fst hsame⟩
    exact ⟨chunk, mem_sweptDb_chunks.mpr ⟨hchunk, .inl ⟨layout, hlayout, hcontains⟩⟩, rfl⟩
  · intro version hversion object hobject hrefers
    have hroot : version.rootObjectId = object.objectId := (List.mem_singleton.mp hrefers).symm
    exact ⟨object, mem_sweptDb_objects.mpr ⟨hobject, .inl ⟨version, hversion, hroot⟩⟩, rfl⟩
  · have hsub : ∀ location ∈ (sweptDb db node).storageLocations, location ∈ db.storageLocations :=
      fun location hlocation => (mem_sweptDb_storageLocations.mp hlocation).1
    refine (hkeys.storageLocationsChunk.of_subset hsub).of_parent ?_
    intro location hlocation chunk hchunk hrefers
    have hid : location.chunkId = chunk.chunkId := (List.mem_singleton.mp hrefers).symm
    exact ⟨chunk, mem_sweptDb_chunks.mpr ⟨hchunk, .inr ⟨location, hlocation, hid⟩⟩, rfl⟩
  · intro row hrow sessionId hmem
    obtain ⟨before, hbefore, hsame, -⟩ := mem_sweptDb_finalizations hrow
    exact hkeys.uploadSessionFinalizationsSession before hbefore sessionId (by simpa [hsame] using hmem)
  · intro row hrow layoutId hmem
    obtain ⟨before, hbefore, -, hkept⟩ := mem_sweptDb_finalizations hrow
    obtain ⟨hstored, hlive⟩ := hkept layoutId (Option.mem_toList.mp hmem)
    obtain ⟨layout, hlayout, hid⟩ := hkeys.uploadSessionFinalizationsLayout before hbefore layoutId
      (Option.mem_toList.mpr hstored)
    exact ⟨layout, mem_sweptDb_objectLayouts.mpr ⟨hlayout, hlive layout hlayout hid⟩, hid⟩
  · intro run hrun layout hlayout hrefers
    have hid : run.layoutId = layout.layoutId := (List.mem_singleton.mp hrefers).symm
    have hlive : db.LiveLayout layout := by
      by_contra hdead
      exact hunpinned ⟨layout, hlayout, hdead, run, hrun, hid⟩
    exact ⟨layout, mem_sweptDb_objectLayouts.mpr ⟨hlayout, hlive⟩, rfl⟩

/-! ## Lifecycle runs -/

theorem version_of_decision {policy : LifecyclePolicy} {evaluatedAtMs : Int}
    {decisions : List LifecycleDecision} {d : LifecycleDecision}
    (h : lifecycleDecisions db policy evaluatedAtMs = .ok decisions) (hd : d ∈ decisions) :
    ∃ version ∈ db.artifactVersions, version.versionId = d.versionId ∧
      version.artifactId = d.artifactId := by
  simp only [lifecycleDecisions, bind_eq_ok] at h
  obtain ⟨candidates, hcandidates, h⟩ := h
  obtain ⟨ranked, hranked, hdecide⟩ := mem_of_mapEach h hd
  simp only [decide?, bind_eq_ok, orFail_eq_ok] at hdecide
  obtain ⟨rule, -, hdecide⟩ := hdecide
  obtain rfl := Except.ok.inj hdecide
  have hsorted := (List.perm_insertionSort _ _).mem_iff.mp (mem_rankCandidates hranked)
  obtain ⟨row, hrow, hread⟩ := mem_of_mapEach hcandidates hsorted
  obtain ⟨kind, -, heq⟩ := readCandidate_eq_ok.mp hread
  rw [heq]
  exact ⟨row.1, (mem_candidateRows.mp hrow).1, rfl, rfl⟩

theorem retirement_of_insert {runId : UuidV7} {decisions : List LifecycleDecision}
    {before after : Table RetirementRow.versionId}
    (h : foldEach decisions before (insertRetirement runId) = .ok after) {row : RetirementRow}
    (hrow : row ∈ after) :
    row ∈ before ∨ (row.lifecycleRunId = runId ∧
      ∃ d ∈ decisions, row.versionId = d.versionId ∧ row.reason = d.reason) := by
  revert row
  refine foldEach_invariant (P := fun table : Table RetirementRow.versionId => ∀ {row}, row ∈ table →
    row ∈ before ∨ (row.lifecycleRunId = runId ∧
      ∃ d ∈ decisions, row.versionId = d.versionId ∧ row.reason = d.reason)) h (fun hrow => .inl hrow) ?_
  intro table d next hd hinsert htable row hrow
  simp only [insertRetirement, bind_eq_ok, exists_unit] at hinsert
  obtain rfl := Except.ok.inj hinsert.2
  rcases Table.mem_insert.mp hrow with hrow | ⟨rfl, -⟩
  · exact htable hrow
  · exact .inr ⟨rfl, d, hd, rfl, rfl⟩

theorem reason_of_retirementsToPersist {mode : LifecycleRunMode} {decisions : List LifecycleDecision}
    {d : LifecycleDecision} (h : d ∈ retirementsToPersist mode decisions) :
    d ∈ decisions ∧ d.reason = .policyRetire := by
  cases mode with
  | dryRun => simp [retirementsToPersist] at h
  | apply =>
      obtain ⟨hmem, hcondition⟩ := List.mem_filter.mp h
      simp only [Bool.and_eq_true, decide_eq_true_eq] at hcondition
      exact ⟨hmem, hcondition.2⟩

structure LifecycleAdds (db : Db) (run : LifecycleRun) (decisions : List LifecycleDecision)
    (retirements : Table RetirementRow.versionId) : Prop where
  fresh : db.lifecycleRuns.find? run.runId = none
  policy : ∃ policy ∈ db.lifecyclePolicies, policy.policyId = run.policyId
  decided : ∀ d ∈ decisions, ∃ version ∈ db.artifactVersions, version.versionId = d.versionId ∧
    version.artifactId = d.artifactId
  retired : ∀ row ∈ retirements, row ∈ db.retirements ∨ (row.lifecycleRunId = run.runId ∧
    row.reason = .policyRetire ∧ ∃ d ∈ decisions, row.versionId = d.versionId)

theorem runLifecycle_adds {runId policyId : UuidV7} {mode : LifecycleRunMode}
    {evaluatedAtMs : Int} {run : LifecycleRun}
    (h : runLifecycle db runId policyId mode evaluatedAtMs = .ok (run, db')) :
    db' = db ∨ ∃ stored decisions retirements, LifecycleAdds db stored decisions retirements ∧
      db' = { db with
        lifecycleRuns := db.lifecycleRuns.insert ⟨stored, decisions⟩
        retirements := retirements } := by
  unfold runLifecycle at h
  cases hfind : db.lifecycleRuns.find? runId with
  | some existing =>
      simp only [hfind] at h
      split at h
      · exact .inl (Prod.ext_iff.mp (Except.ok.inj h)).2.symm
      · cases h
  | none =>
      simp only [hfind, insertLifecycleRun, bind_eq_ok, exists_unit, orFail_eq_ok] at h
      obtain ⟨-, -, -, policy, hpolicy, decisions, hdecisions, -, retirements, hretirements, -,
        loaded, -, h⟩ := h
      obtain ⟨-, rfl⟩ := Prod.ext_iff.mp (Except.ok.inj h)
      refine .inr ⟨_, decisions, retirements, ?_, rfl⟩
      refine ⟨hfind, ⟨policy, Table.mem_of_find? hpolicy, Table.key_of_find? hpolicy⟩,
        fun d hd => version_of_decision hdecisions hd, fun row hrow => ?_⟩
      rcases retirement_of_insert hretirements hrow with hrow | ⟨hrun, d, hd, hid, hreason⟩
      · exact .inl hrow
      · obtain ⟨hmem, hretire⟩ := reason_of_retirementsToPersist hd
        exact .inr ⟨hrun, hreason.trans hretire, d, hmem, hid⟩

theorem foreignKeys_lifecycleAdds {run : LifecycleRun} {decisions : List LifecycleDecision}
    {retirements : Table RetirementRow.versionId} (h : LifecycleAdds db run decisions retirements)
    (hkeys : ForeignKeys db) :
    ForeignKeys { db with
      lifecycleRuns := db.lifecycleRuns.insert ⟨run, decisions⟩
      retirements := retirements } := by
  refine { hkeys with
    lifecycleRunsPolicy := hkeys.lifecycleRunsPolicy.insert (by simpa using h.policy)
    lifecycleRunDecisionsVersion := hkeys.lifecycleRunDecisionsVersion.insert ?_
    lifecycleRunDecisionsArtifact := hkeys.lifecycleRunDecisionsArtifact.insert ?_
    artifactVersionRetirementsVersion := ?_
    artifactVersionRetirementsRun := ?_ }
  · intro versionId hmem
    obtain ⟨d, hd, rfl⟩ := List.mem_map.mp hmem
    obtain ⟨version, hversion, hid, -⟩ := h.decided d hd
    exact ⟨version, hversion, hid⟩
  · intro artifactId hmem
    obtain ⟨d, hd, rfl⟩ := List.mem_map.mp hmem
    obtain ⟨version, hversion, -, hartifact⟩ := h.decided d hd
    rw [← hartifact]
    exact hkeys.artifactVersionsArtifact version hversion _ (List.mem_singleton_self _)
  · intro row hrow versionId hmem
    obtain rfl := List.mem_singleton.mp hmem
    rcases h.retired row hrow with hold | ⟨-, -, d, hd, hid⟩
    · exact hkeys.artifactVersionRetirementsVersion row hold _
        (List.mem_singleton_self _)
    · obtain ⟨version, hversion, hsame, -⟩ := h.decided d hd
      exact ⟨version, hversion, hsame.trans hid.symm⟩
  · intro row hrow runId hmem
    obtain rfl := List.mem_singleton.mp hmem
    rcases h.retired row hrow with hold | ⟨hrun, -⟩
    · obtain ⟨other, hother, hid⟩ := hkeys.artifactVersionRetirementsRun row hold _
        (List.mem_singleton_self _)
      exact ⟨other, Table.mem_insert_of_mem hother, hid⟩
    · exact ⟨_, Table.mem_insert_new h.fresh, hrun.symm⟩

/-! ## Every transaction -/

theorem foreignKeys_transact {reply : Reply} (h : transact env db op = .ok (reply, db'))
    (hkeys : ForeignKeys db) : ForeignKeys db' := by
  cases transact_effect h with
  | unchanged => exact hkeys
  | artifactCreated =>
      exact { hkeys with
        artifactVersionsArtifact := hkeys.artifactVersionsArtifact.mono .insert
        tagsArtifact := hkeys.tagsArtifact.mono .insert
        uploadSessionsArtifact := hkeys.uploadSessionsArtifact.mono .insert
        lifecycleRunDecisionsArtifact := hkeys.lifecycleRunDecisionsArtifact.mono .insert }
  | nodeRegistered => exact { hkeys with }
  | locationRegistered =>
      exact foreignKeys_registerStorageLocation (done_eq_ok.mp h).1 hkeys
  | @chunksNegotiated chunks inserted =>
      have hchunks : ∀ {τ : Type} {column : ChunkMetadata → τ},
          Table.KeepsColumn db.chunks (insertChunks db inserted).chunks column :=
        .of_mem fun _ hchunk =>
          Table.mem_of_find? (find?_insertChunks (Table.find?_of_mem hchunk))
      exact { hkeys with
        objectLayoutChunksChunk := hkeys.objectLayoutChunksChunk.mono hchunks
        storageLocationsChunk := hkeys.storageLocationsChunk.mono hchunks }
  | sessionOpened hopened => exact foreignKeys_sessionOpened hopened hkeys
  | sessionAborted hrow _ =>
      exact foreignKeys_status hrow hkeys (by simp [UploadSessionStatus.finalizedVersionId])
  | finalized hfinalizes => exact foreignKeys_finalized hfinalizes hkeys
  | tagged => exact foreignKeys_setTag (done_eq_ok.mp h).1 hkeys
  | manifestRegistered => exact foreignKeys_registerManifest (done_eq_ok.mp h).1 hkeys
  | pinned => exact foreignKeys_pinVersion (done_eq_ok.mp h).1 hkeys
  | unpinned =>
      exact { hkeys with
        artifactVersionPinsVersion := hkeys.artifactVersionPinsVersion.filter _ }
  | gcStarted => exact { hkeys with }
  | @gcCompleted run completed stats hcompletes =>
      unfold completedGcDb completionDb
      cases hmode : run.mode with
      | dryRun => exact { hkeys with }
      | apply => exact { foreignKeys_sweptDb (hcompletes.unpinned hmode) hkeys with }
  | replicationStarted hstarts =>
      obtain ⟨version, hversion, hid, layout, hlayout, hlayoutId, -⟩ := hstarts.version
      exact { hkeys with
        replicationRunsVersion := hkeys.replicationRunsVersion.insert
          (by simpa using ⟨version, hversion, hid⟩)
        replicationRunsLayout := hkeys.replicationRunsLayout.insert
          (by simpa using ⟨layout, hlayout, hlayoutId⟩) }
  | @replicationCompleted run stats hfind hopen hgc =>
      have hrun := Table.mem_of_find? hfind
      exact { hkeys with
        replicationRunsVersion :=
          hkeys.replicationRunsVersion.upsert (hkeys.replicationRunsVersion run hrun)
        replicationRunsLayout :=
          hkeys.replicationRunsLayout.upsert (hkeys.replicationRunsLayout run hrun) }
  | policyRegistered =>
      exact { hkeys with lifecycleRunsPolicy := hkeys.lifecycleRunsPolicy.mono .insert }
  | lifecycleRan =>
      obtain ⟨answer, hran, -⟩ := replyWith_eq_ok.mp h
      rcases runLifecycle_adds hran with hsame | ⟨stored, decisions, retirements, hadds, heq⟩
      · simp only at hsame
        rw [hsame]
        exact hkeys
      · simp only at heq
        rw [heq]
        exact foreignKeys_lifecycleAdds hadds hkeys

theorem foreignKeys_of_reachable (h : Reachable env db) : ForeignKeys db :=
  Evolves.invariant h (fun _ _ _ _ _ => foreignKeys_transact) foreignKeys_initial

end AiArtifactStore.Metadata
