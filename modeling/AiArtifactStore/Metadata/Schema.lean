import AiArtifactStore.Metadata.FinalizeRetry
import AiArtifactStore.Metadata.ForeignKeys
import AiArtifactStore.Metadata.SessionPlacement

/-!
# The constraints of the schema

The `UNIQUE` and `CHECK` constraints of the migrations beside the foreign keys.
Every reachable database satisfies them all.  The formats of ids, the lists of
words and the texts that a type keeps nonempty need no check of their own.
-/

namespace AiArtifactStore.Metadata

open AiArtifactStore.Foundation
open AiArtifactStore.Identity

/-! ## Uniqueness -/

/-- `length(text) BETWEEN 1 AND limit` -/
def TextWithin (limit : Nat) (text : String) : Prop := text ≠ "" ∧ text.length ≤ limit

/-- `object_layouts` and `object_layout_chunks`. -/
structure LayoutRowValid (layout : ObjectLayoutRow) : Prop where
  descriptorVersion : 0 < layout.descriptorVersion
  fastCdcConfiguration : layout.chunking.validate = .ok ()
  emptyLayout : 0 < layout.chunkCount ∨ layout.totalSizeBytes = 0
  chunkSizes : ∀ row ∈ layout.chunkRows, 0 < row.chunkSizeBytes
  primaryKey : (layout.chunkRows.map LayoutChunkRow.chunkIndex).Nodup
  uniqueOffset : (layout.chunkRows.map LayoutChunkRow.byteOffset).Nodup

/-- `artifact_versions` -/
structure VersionRowValid (version : VersionRow) : Prop where
  parentNotSelf : version.parentVersionId ≠ some version.versionId
  descriptorVersion : 0 < version.descriptorVersion

/-- `manifests` and `manifest_entries`. -/
structure ManifestRowValid (manifest : ManifestRow) : Prop where
  descriptorVersion : 0 < manifest.descriptorVersion
  roles : ∀ entry ∈ manifest.entryRows, entry.1 ≠ ""
  primaryKey : (manifest.entryRows.map Prod.fst).Nodup

/-- `upload_sessions` and `upload_session_nodes`. -/
structure SessionRowValid (row : SessionRow) : Prop where
  replicationFactor : 1 ≤ row.session.replicationFactor ∧ row.session.replicationFactor ≤ 8
  chunkingConfiguration : row.session.chunking.validate = .ok ()
  nodeIds : ∀ nodeId ∈ row.session.placementNodeIds, nodeIdInvalid nodeId = false
  sessionNodeUnique : row.session.placementNodeIds.Nodup

/-- `storage_nodes` -/
structure NodeRowValid (node : StorageNode) : Prop where
  nodeId : nodeIdInvalid node.nodeId = false
  address : node.address ≠ ""
  port : 1 ≤ node.port ∧ node.port ≤ 65535

/-- `replication_runs` and `replication_run_nodes`. -/
structure ReplicationRowValid (run : ReplicationRun) : Prop where
  replicationFactor : 1 ≤ run.replicationFactor ∧ run.replicationFactor ≤ 8
  nodeIds : ∀ nodeId ∈ run.placementNodeIds, nodeIdInvalid nodeId = false
  runNodeUnique : run.placementNodeIds.Nodup

/-- `lifecycle_policies` and `lifecycle_policy_rules`. -/
structure PolicyRowValid (policy : LifecyclePolicy) : Prop where
  name : TextWithin 128 policy.name
  keepLastN : ∀ entry ∈ policy.rules.entries, entry.2.keepLastN ≤ 1000
  maxAgeSeconds : ∀ entry ∈ policy.rules.entries,
    ∀ maxAge ∈ entry.2.maxAgeSeconds, maxAge ≤ 315360000
  primaryKey : (policy.rules.entries.map fun entry => entry.2.artifactKind).Nodup

structure RowChecks (db : Db) : Prop where
  chunks : db.chunks.Checked fun chunk =>
    0 < chunk.sizeBytes ∧ chunk.sizeBytes ≤ postgresBigintMax
  objects : db.objects.Checked fun object => object.totalSize ≤ postgresBigintMax
  objectLayouts : db.objectLayouts.Checked LayoutRowValid
  artifactVersions : db.artifactVersions.Checked VersionRowValid
  tags : db.tags.Checked fun tag => tag.tagName ≠ ""
  manifests : db.manifests.Checked ManifestRowValid
  storageLocations : db.storageLocations.Checked fun location =>
    location.nodeId ≠ "" ∧ location.storagePath ≠ ""
  storageNodes : db.storageNodes.Checked NodeRowValid
  uploadSessions : db.uploadSessions.Checked SessionRowValid
  gcRuns : db.gcRuns.Checked fun run => nodeIdInvalid run.targetNodeId = false
  replicationRuns : db.replicationRuns.Checked ReplicationRowValid
  lifecyclePolicies : db.lifecyclePolicies.Checked PolicyRowValid
  lifecycleRuns : db.lifecycleRuns.Checked fun row =>
    (row.decisions.map LifecycleDecision.versionId).Nodup
  pins : db.pins.Checked fun pin => TextWithin 256 pin.reason
  retirements : db.retirements.Checked fun row => row.reason = .policyRetire

variable {env : Environment} {db db' : Db} {op : ServiceOp}

/-! ## Texts -/

theorem length_le_utf8ByteSize (text : String) : text.length ≤ text.utf8ByteSize := by
  have hcharacters : ∀ characters : List Char,
      characters.length ≤ (String.ofList characters).utf8ByteSize := by
    intro characters
    induction characters using List.reverseRecOn with
    | nil => simp
    | append_singleton characters c ih =>
        have hpush : String.ofList (characters ++ [c]) = (String.ofList characters).push c := by
          apply String.ext
          simp
        rw [hpush, String.utf8ByteSize_push, List.length_append, List.length_singleton]
        exact Nat.add_le_add ih c.utf8Size_pos
  simpa [String.length_toList] using hcharacters text.toList

theorem textWithin_of_bytes {limit : Nat} {text : String}
    (h : ¬(text.isEmpty = true ∨ text.utf8ByteSize > limit)) : TextWithin limit text := by
  rw [not_or] at h
  refine ⟨fun hempty => h.1 (by simp [hempty]), ?_⟩
  have hlength := length_le_utf8ByteSize text
  omega

/-! ## Rows of descriptors -/

theorem layoutChunkRows_indexes {index : Nat} {chunks : List ChunkRef} :
    (layoutChunkRows index chunks).map LayoutChunkRow.chunkIndex =
      List.range' index chunks.length := by
  induction chunks generalizing index with
  | nil => rfl
  | cons chunk rest ih => simp [layoutChunkRows, ih, List.range'_succ]

theorem layoutChunkRows_offsets {index : Nat} {chunks : List ChunkRef} :
    (layoutChunkRows index chunks).map LayoutChunkRow.byteOffset = chunks.map ChunkRef.offset := by
  induction chunks generalizing index with
  | nil => rfl
  | cons chunk rest ih => simp [layoutChunkRows, ih]

theorem offsets_increasing {expectedOffset : Nat} {chunks : List ChunkRef}
    (h : validateChunksFrom expectedOffset chunks = .ok ()) :
    (∀ chunk ∈ chunks, expectedOffset ≤ chunk.offset) ∧
      (chunks.map ChunkRef.offset).Pairwise (· < ·) := by
  induction chunks generalizing expectedOffset with
  | nil => simp
  | cons chunk rest ih =>
      simp only [validateChunksFrom, bind_eq_ok, exists_unit, failIf_eq_ok, ne_eq,
        Decidable.not_not] at h
      obtain ⟨hsize, hoffset, -, hrest⟩ := h
      obtain ⟨hle, hpairwise⟩ := ih hrest
      have hlater : ∀ other ∈ rest, expectedOffset < other.offset := by
        intro other hother
        have := hle other hother
        omega
      refine ⟨fun other hother => ?_, ?_⟩
      · rcases List.mem_cons.mp hother with rfl | hother
        · exact hoffset.ge
        · exact (hlater other hother).le
      · rw [List.map_cons, List.pairwise_cons]
        refine ⟨fun offset hmem => ?_, hpairwise⟩
        obtain ⟨other, hother, rfl⟩ := List.mem_map.mp hmem
        rw [hoffset]
        exact hlater other hother

theorem layoutRowValid_row (d : ObjectLayoutDescriptor) : LayoutRowValid (d.row env) where
  descriptorVersion := Nat.one_pos
  fastCdcConfiguration := d.chunkingValid
  emptyLayout := by
    cases hchunks : d.layout.chunks with
    | nil => exact .inr (by simp [ObjectLayoutDescriptor.row, ObjectLayout.totalSize, hchunks])
    | cons chunk rest => exact .inl (by simp [ObjectLayoutDescriptor.row, hchunks])
  chunkSizes := fun row hrow => by
    obtain ⟨chunk, hchunk, -, hsize⟩ := mem_layoutChunkRows_size hrow
    exact hsize ▸ ObjectLayout.size_pos hchunk
  primaryKey := layoutChunkRows_indexes ▸ List.nodup_range'
  uniqueOffset := layoutChunkRows_offsets ▸ (offsets_increasing d.layout.valid).2.imp Nat.ne_of_lt

theorem sessionRowValid (row : SessionRow) : SessionRowValid row := by
  obtain ⟨hfactor, -, -, -, hnodeIds, hchain, hchunking⟩ :=
    UploadSession.valid_iff.mp row.session.valid
  have hsorted := List.isChain_iff_pairwise.mp hchain
  exact ⟨hfactor, hchunking, hnodeIds, hsorted.imp String.ne_of_lt⟩

theorem policyRowValid {policy : LifecyclePolicy} (h : validateLifecyclePolicy policy = .ok ()) :
    PolicyRowValid policy := by
  simp only [validateLifecyclePolicy, bind_eq_ok, exists_unit, failIf_eq_ok, forEach_eq_ok] at h
  obtain ⟨hname, -, hrules⟩ := h
  have hkeys : (policy.rules.entries.map Prod.fst).Nodup :=
    @OrderedMap.nodup_keys ArtifactKind LifecycleRule _ (fun hlt => Nat.lt_asymm hlt) policy.rules
  have hrule : ∀ entry ∈ policy.rules.entries, entry.2.artifactKind = entry.1 ∧
      entry.2.keepLastN ≤ 1000 ∧ ∀ maxAge ∈ entry.2.maxAgeSeconds, maxAge ≤ 315360000 := by
    intro entry hentry
    have hvalid := hrules entry.1 (by cases entry.1 <;> simp [ArtifactKind.all])
    simp only [validateLifecycleRule, bind_eq_ok, exists_unit, orFail_eq_ok, failIf_eq_ok,
      Decidable.not_not, not_exists, not_and, Nat.not_lt] at hvalid
    obtain ⟨rule, hfind, hkind, hkeep, hage⟩ := hvalid
    have hentryFind := (find?_of_nodup_keys hkeys).mpr hentry
    obtain rfl := Option.some.inj (hentryFind.symm.trans hfind)
    exact ⟨hkind, hkeep, hage⟩
  refine ⟨textWithin_of_bytes hname, fun entry hentry => (hrule entry hentry).2.1,
    fun entry hentry => (hrule entry hentry).2.2, ?_⟩
  rw [List.map_congr_left fun entry hentry => (hrule entry hentry).1]
  exact hkeys

theorem manifestRowValid (manifest : Manifest) : ManifestRowValid (manifestRow env manifest) :=
  ⟨Nat.one_pos, manifest.rolesNonempty, manifest.entries.sorted.imp String.ne_of_lt⟩

/-! ## Chunk sizes -/

def SizeValid (chunk : ChunkMetadata) : Prop :=
  0 < chunk.sizeBytes ∧ chunk.sizeBytes ≤ postgresBigintMax

theorem sizeValid_distinctChunks {seen chunks distinct : List ChunkMetadata}
    (h : distinctChunks seen chunks = .ok distinct) (hseen : ∀ chunk ∈ seen, SizeValid chunk) :
    ∀ chunk ∈ distinct, SizeValid chunk := by
  induction chunks generalizing seen with
  | nil =>
      obtain rfl := Except.ok.inj h
      exact hseen
  | cons chunk rest ih =>
      simp only [distinctChunks, bind_eq_ok, exists_unit, failIf_eq_ok, toPostgresBigint_eq_ok] at h
      obtain ⟨hpos, size, ⟨hle, -⟩, h⟩ := h
      split at h
      · simp only [bind_eq_ok, exists_unit] at h
        exact ih h.2 hseen
      · refine ih h fun other hother => ?_
        rcases List.mem_append.mp hother with hother | hother
        · exact hseen other hother
        · rw [List.mem_singleton.mp hother]
          exact ⟨Nat.pos_of_ne_zero hpos, hle⟩

theorem checked_insertChunks {chunks : List ChunkMetadata} {p : ChunkMetadata → Prop}
    (h : db.chunks.Checked p) (hchunks : ∀ chunk ∈ chunks, p chunk) :
    (insertChunks db chunks).chunks.Checked p := by
  change (chunks.foldl Table.insert db.chunks).Checked p
  generalize db.chunks = table at h
  induction chunks generalizing table with
  | nil => exact h
  | cons chunk rest ih =>
      exact ih (fun other hother => hchunks other (by simp [hother])) _
        (h.insert (hchunks chunk (by simp)))

theorem negotiateChunks_sizes {chunks : List ChunkMetadata} {batch : ChunkNegotiationBatch}
    (h : negotiateChunks env db chunks = .ok (batch, db')) (hsizes : db.chunks.Checked SizeValid) :
    db'.chunks.Checked SizeValid := by
  simp only [negotiateChunks, bind_eq_ok] at h
  obtain ⟨distinct, hdistinct, conflict, -, h⟩ := h
  have hvalid := sizeValid_distinctChunks hdistinct (by simp)
  cases conflict with
  | some c =>
      obtain ⟨-, rfl⟩ := Prod.ext_iff.mp (Except.ok.inj h)
      exact hsizes
  | none =>
      simp only at h
      split at h
      · obtain ⟨-, rfl⟩ := Prod.ext_iff.mp (Except.ok.inj h)
        exact hsizes
      · obtain ⟨-, rfl⟩ := Prod.ext_iff.mp (Except.ok.inj h)
        exact checked_insertChunks hsizes fun chunk hchunk => hvalid chunk (List.mem_filter.mp hchunk).1

theorem registerLayoutChunks_sizes {chunks : List ChunkRef} (hpos : ∀ chunk ∈ chunks, 0 < chunk.size)
    (h : foldEach chunks db registerLayoutChunk = .ok db') (hsizes : db.chunks.Checked SizeValid) :
    db'.chunks.Checked SizeValid := by
  refine foldEach_invariant (P := fun db : Db => db.chunks.Checked SizeValid) h hsizes ?_
  intro before chunk after hchunk hregister hbefore
  obtain ⟨hle, rfl, -⟩ := registerLayoutChunk_ok hregister
  exact hbefore.insert ⟨hpos chunk hchunk, hle⟩

theorem finalizeOpenSession_sizes {now : Int} {row : SessionRow} {d : ObjectLayoutDescriptor}
    {result : FinalizeUploadResult} {version : ArtifactVersion} (hstate : version.state = .committed)
    (h : finalizeOpenSession env now db row version d = .ok (result, db'))
    (hsizes : db.chunks.Checked SizeValid) : db'.chunks.Checked SizeValid := by
  simp only [finalizeOpenSession, bind_eq_ok, exists_unit] at h
  obtain ⟨-, registered, hregister, versioned, hcommit, final, hsession, h⟩ := h
  obtain ⟨-, rfl⟩ := Prod.ext_iff.mp (Except.ok.inj h)
  have hregister := catchRuntimeError_ok hregister
  simp only [registerObjectAndLayout, registerObjectLayoutInTransaction, bind_eq_ok, exists_unit,
    toPostgresBigint_eq_ok] at hregister
  obtain ⟨withObject, hobject, stored, -, -, -, -, mid, hchunks, _, ⟨-, rfl⟩, _, ⟨-, rfl⟩, next,
    hinsert, -, hnext⟩ := hregister
  obtain rfl := Except.ok.inj hnext
  obtain ⟨-, rfl, -⟩ := registerObjectInTransaction_ok hobject
  have hmid := registerLayoutChunks_sizes (fun _ hc => ObjectLayout.size_pos hc) hchunks hsizes
  obtain rfl := insertObjectLayout_ok hinsert
  obtain ⟨createdAt, -, rfl⟩ := commitVersion_ok hstate hcommit
  simp only [commitSession, bind_eq_ok, exists_unit] at hsession
  obtain rfl := Except.ok.inj hsession.2
  exact hmid

theorem finalizeUpload_sizes {now : Int} {sessionId : UuidV7} {d : ObjectLayoutDescriptor}
    {result : FinalizeUploadResult} (h : finalizeUpload env now db sessionId d = .ok (result, db'))
    (hsizes : db.chunks.Checked SizeValid) : db'.chunks.Checked SizeValid := by
  simp only [finalizeUpload, bind_eq_ok, exists_unit] at h
  obtain ⟨stored, -, row, -, -, -, h⟩ := h
  split at h
  · simp only [bind_eq_ok] at h
    obtain ⟨answer, -, h⟩ := h
    obtain ⟨-, rfl⟩ := Prod.ext_iff.mp (Except.ok.inj h)
    exact hsizes
  · exact finalizeOpenSession_sizes rfl h hsizes

/-! ## What each write establishes -/

structure WriteChecks (env : Environment) (db : Db) : Prop where
  artifactsProjectName : db.artifacts.Unique fun artifact => (artifact.project, artifact.name)
  storageLocationsNodePath : db.storageLocations.Unique fun location =>
    (location.nodeId, location.storagePath)
  chunks : db.chunks.Checked SizeValid
  tags : db.tags.Checked fun tag => tag.tagName ≠ ""
  storageLocations : db.storageLocations.Checked fun location =>
    location.nodeId ≠ "" ∧ location.storagePath ≠ ""
  storageNodes : db.storageNodes.Checked fun node =>
    nodeIdInvalid node.nodeId = false ∧ node.port ≤ 65535
  gcRuns : db.gcRuns.Checked fun run => nodeIdInvalid run.targetNodeId = false
  replicationRuns : db.replicationRuns.Checked (PlacementSnapshot env)
  pins : db.pins.Checked fun pin => TextWithin 256 pin.reason
  retirements : db.retirements.Checked fun row => row.reason = .policyRetire

theorem writeChecks_initial : WriteChecks env Db.initial := by
  constructor
  · exact Table.unique_empty
  · exact Table.unique_empty
  all_goals exact Table.checked_empty

theorem writeChecks_createArtifact {artifact : Artifact}
    (h : createArtifact db artifact = .ok db') (hchecks : WriteChecks env db) :
    WriteChecks env db' := by
  simp only [createArtifact, bind_eq_ok, exists_unit, failIf_eq_ok] at h
  obtain ⟨-, hother, h⟩ := h
  obtain rfl := Except.ok.inj h
  refine { hchecks with artifactsProjectName := hchecks.artifactsProjectName.insert ?_ }
  intro other hmem hsame
  exact hother ⟨other, hmem, congrArg Prod.fst hsame, congrArg Prod.snd hsame⟩

theorem writeChecks_registerStorageNode {node : StorageNode}
    (h : registerStorageNode env db node = .ok db') (hchecks : WriteChecks env db) :
    WriteChecks env db' := by
  simp only [registerStorageNode, bind_eq_ok, exists_unit, failIf_eq_ok, Bool.not_eq_true] at h
  obtain ⟨hnode, -, -, -, hport, h⟩ := h
  obtain rfl := Except.ok.inj h
  exact { hchecks with storageNodes := hchecks.storageNodes.upsert ⟨hnode, Nat.not_lt.mp hport⟩ }

theorem writeChecks_registerStorageLocation {location : StorageLocation}
    (h : registerStorageLocation db location = .ok db') (hchecks : WriteChecks env db) :
    WriteChecks env db' := by
  simp only [registerStorageLocation, bind_eq_ok, exists_unit, failIf_eq_ok] at h
  obtain ⟨hnode, -, hpath, hother, -, h⟩ := h
  obtain rfl := Except.ok.inj h
  refine { hchecks with
    storageLocationsNodePath := hchecks.storageLocationsNodePath.upsert ?_
    storageLocations := hchecks.storageLocations.upsert ⟨hnode, hpath⟩ }
  intro other hmem hkey hsame
  exact hother ⟨other, hmem, hkey, congrArg Prod.fst hsame, congrArg Prod.snd hsame⟩

theorem writeChecks_setTag {artifactId : UuidV7} {tagName : String} {versionId : ContentId}
    (h : setTag db artifactId tagName versionId = .ok db') (hchecks : WriteChecks env db) :
    WriteChecks env db' := by
  simp only [setTag, bind_eq_ok, exists_unit, failIf_eq_ok] at h
  obtain ⟨hname, -, -, -, h⟩ := h
  obtain rfl := Except.ok.inj h
  exact { hchecks with tags := hchecks.tags.upsert hname }

theorem writeChecks_pinVersion {versionId : ContentId} {reason : String}
    (h : pinVersion env db versionId reason = .ok db') (hchecks : WriteChecks env db) :
    WriteChecks env db' := by
  simp only [pinVersion, bind_eq_ok, exists_unit, failIf_eq_ok] at h
  obtain ⟨hreason, _, -, _, -, -, -, hstored, h⟩ := h
  obtain rfl := Except.ok.inj h
  have hsize := utf8ByteSize_cString_le reason
  have hwithin : TextWithin 256 (cString reason) :=
    textWithin_of_bytes (by
      rw [not_or] at hreason ⊢
      exact ⟨by simpa [String.isEmpty_iff] using hstored, by omega⟩)
  exact { hchecks with pins := hchecks.pins.upsert hwithin }

theorem writeChecks_startReplicationRun {runId : UuidV7} {versionId : ContentId}
    {replicationFactor : Nat} {run : ReplicationRun}
    (h : startReplicationRun env db runId versionId replicationFactor = .ok (run, db'))
    (hchecks : WriteChecks env db) : WriteChecks env db' := by
  rcases startReplicationRun_started h with ⟨rfl, -⟩ | ⟨hstarted, rfl⟩
  · exact hchecks
  · exact { hchecks with
      replicationRuns := hchecks.replicationRuns.insert
        (.started hstarted fun node hnode => (hchecks.storageNodes node hnode).1) }

theorem writeChecks_sweptDb {node : String} (hchecks : WriteChecks env db) :
    WriteChecks env (sweptDb db node) := by
  have hlocations : ∀ location ∈ (sweptDb db node).storageLocations,
      location ∈ db.storageLocations :=
    fun location hlocation => (mem_sweptDb_storageLocations.mp hlocation).1
  exact { hchecks with
    storageLocationsNodePath := hchecks.storageLocationsNodePath.of_subset hlocations
    storageLocations := hchecks.storageLocations.of_subset hlocations
    chunks := hchecks.chunks.of_subset fun _ hchunk => (mem_sweptDb_chunks.mp hchunk).1 }

theorem writeChecks_runLifecycle {runId policyId : UuidV7} {mode : LifecycleRunMode}
    {evaluatedAtMs : Int} {run : LifecycleRun}
    (h : runLifecycle db runId policyId mode evaluatedAtMs = .ok (run, db'))
    (hchecks : WriteChecks env db) : WriteChecks env db' := by
  rcases runLifecycle_adds h with rfl | ⟨stored, decisions, retirements, hadds, rfl⟩
  · exact hchecks
  · refine { hchecks with retirements := fun row hrow => ?_ }
    rcases hadds.retired row hrow with hold | ⟨-, hreason, -⟩
    · exact hchecks.retirements row hold
    · exact hreason

theorem writeChecks_transact {reply : Reply} (h : transact env db op = .ok (reply, db'))
    (hchecks : WriteChecks env db) : WriteChecks env db' := by
  cases transact_effect h with
  | unchanged => exact hchecks
  | artifactCreated => exact writeChecks_createArtifact (done_eq_ok.mp h).1 hchecks
  | nodeRegistered => exact writeChecks_registerStorageNode (done_eq_ok.mp h).1 hchecks
  | locationRegistered => exact writeChecks_registerStorageLocation (done_eq_ok.mp h).1 hchecks
  | chunksNegotiated =>
      obtain ⟨batch, hnegotiated, -⟩ := replyWith_eq_ok.mp h
      exact { hchecks with chunks := negotiateChunks_sizes hnegotiated hchecks.chunks }
  | sessionOpened => exact { hchecks with }
  | sessionAborted => exact { hchecks with }
  | finalized =>
      obtain ⟨result, hfinalized, -⟩ := replyWith_eq_ok.mp h
      exact { hchecks with chunks := finalizeUpload_sizes hfinalized hchecks.chunks }
  | tagged => exact writeChecks_setTag (done_eq_ok.mp h).1 hchecks
  | manifestRegistered => exact { hchecks with }
  | pinned => exact writeChecks_pinVersion (done_eq_ok.mp h).1 hchecks
  | unpinned => exact { hchecks with pins := hchecks.pins.filter _ }
  | gcStarted hstarts => exact { hchecks with gcRuns := hchecks.gcRuns.insert hstarts.validNode }
  | @gcCompleted run completed stats hcompletes =>
      have hnode : nodeIdInvalid completed.targetNodeId = false := by
        obtain ⟨physical, metadata, rfl⟩ := hcompletes.row
        exact hchecks.gcRuns run (Table.mem_of_find? hcompletes.stored)
      unfold completedGcDb completionDb
      cases run.mode with
      | dryRun => exact { hchecks with gcRuns := hchecks.gcRuns.upsert hnode }
      | apply => exact { writeChecks_sweptDb hchecks with gcRuns := hchecks.gcRuns.upsert hnode }
  | replicationStarted =>
      obtain ⟨run, hstarted, -⟩ := replyWith_eq_ok.mp h
      exact writeChecks_startReplicationRun hstarted hchecks
  | @replicationCompleted run stats hfind hopen hgc =>
      have hrun := hchecks.replicationRuns run (Table.mem_of_find? hfind)
      exact { hchecks with
        replicationRuns := hchecks.replicationRuns.upsert
          ⟨hrun.sorted, hrun.valid, hrun.factor, hrun.size⟩ }
  | policyRegistered => exact { hchecks with }
  | lifecycleRan =>
      obtain ⟨run, hran, -⟩ := replyWith_eq_ok.mp h
      exact writeChecks_runLifecycle hran hchecks

theorem writeChecks_of_reachable (h : Reachable env db) : WriteChecks env db :=
  Evolves.invariant h (fun _ _ _ _ _ => writeChecks_transact) writeChecks_initial

/-! ## Every reachable database -/

theorem rowChecks_of_reachable (h : Reachable env db) : RowChecks db := by
  have hwrites := writeChecks_of_reachable h
  exact {
    chunks := hwrites.chunks
    objects := objectSize_le_of_reachable h
    objectLayouts := fun layout hlayout => by
      obtain ⟨d, rfl, -⟩ := (rowsWritten_of_reachable h).layouts layout hlayout
      exact layoutRowValid_row d
    artifactVersions := fun version hversion => by
      refine ⟨parentsDiffer_of_reachable h version hversion, ?_⟩
      obtain ⟨createdAt, v, rfl⟩ := (rowsWritten_of_reachable h).versions version hversion
      exact Nat.one_pos
    tags := hwrites.tags
    manifests := fun row hrow => by
      obtain ⟨manifest, rfl⟩ := storedManifests_of_reachable h row hrow
      exact manifestRowValid manifest
    storageLocations := hwrites.storageLocations
    storageNodes := fun node hnode => by
      obtain ⟨haddress, -, hport⟩ := endpointsValid_of_reachable h node hnode
      obtain ⟨hid, hle⟩ := hwrites.storageNodes node hnode
      exact ⟨hid, haddress, Nat.pos_of_ne_zero hport, hle⟩
    uploadSessions := fun row _ => sessionRowValid row
    gcRuns := hwrites.gcRuns
    replicationRuns := fun run hrun => by
      have hsnapshot := hwrites.replicationRuns run hrun
      obtain ⟨nodeIds, hnodup, hsorted⟩ := hsnapshot.sorted
      refine ⟨hsnapshot.factor, hsnapshot.valid, ?_⟩
      rw [hsorted]
      exact (List.perm_insertionSort _ _).nodup_iff.mpr hnodup
    lifecyclePolicies := fun policy hpolicy =>
      policyRowValid (validPolicies_of_reachable h policy hpolicy)
    lifecycleRuns := nodup_decisions_of_reachable h
    pins := hwrites.pins
    retirements := hwrites.retirements }

end AiArtifactStore.Metadata
