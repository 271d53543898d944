import AiArtifactStore.Metadata.Histories

/-!
# What the metadata sweep keeps

The rows that survive a sweep of one node, and the multi-node restore plans,
which it leaves as they are.
-/

namespace AiArtifactStore.Metadata

open AiArtifactStore.Foundation
open AiArtifactStore.Identity

variable {env : Environment} {db db' : Db} {targetNodeId : String}

/-! ## The surviving rows -/

theorem mem_sweptDb_objectLayouts {layout : ObjectLayoutRow} :
    layout ∈ (sweptDb db targetNodeId).objectLayouts ↔
      layout ∈ db.objectLayouts ∧ db.LiveLayout layout := by
  have hlive : (deleteStorageLocations db (isDeadLocation db targetNodeId)).isLiveLayout layout =
      db.isLiveLayout layout := rfl
  change layout ∈ Table.filter _ _ ↔ _
  rw [Table.mem_filter, Bool.not_not, hlive, Db.isLiveLayout_iff]
  exact Iff.rfl

theorem mem_sweptDb_storageLocations {location : StorageLocation} :
    location ∈ (sweptDb db targetNodeId).storageLocations ↔
      location ∈ db.storageLocations ∧
        (location.nodeId = targetNodeId → db.LiveChunk location.chunkId) := by
  change location ∈ Table.filter _ _ ↔ _
  rw [Table.mem_filter, Bool.not_eq_true']
  by_cases hnode : location.nodeId = targetNodeId
  · simp [isDeadLocation, hnode]
  · simp [isDeadLocation, hnode]

theorem mem_sweptDb_objects {object : StoredObject} :
    object ∈ (sweptDb db targetNodeId).objects ↔
      object ∈ db.objects ∧
        ((∃ version ∈ db.artifactVersions, version.rootObjectId = object.objectId) ∨
          ∃ layout ∈ (sweptDb db targetNodeId).objectLayouts,
            layout.objectId = object.objectId) := by
  change object ∈ Table.filter _ _ ↔ _
  rw [Table.mem_filter]
  refine and_congr Iff.rfl ?_
  rw [isUnreferencedObject, Bool.not_and, Bool.not_not, Bool.not_not, Bool.or_eq_true,
    List.any_eq_true, List.any_eq_true]
  simp only [decide_eq_true_eq]
  exact Iff.rfl

theorem mem_sweptDb_chunks {chunk : ChunkMetadata} :
    chunk ∈ (sweptDb db targetNodeId).chunks ↔
      chunk ∈ db.chunks ∧
        ((∃ layout ∈ (sweptDb db targetNodeId).objectLayouts,
            layout.containsChunk chunk.chunkId = true) ∨
          ∃ location ∈ (sweptDb db targetNodeId).storageLocations,
            location.chunkId = chunk.chunkId) := by
  change chunk ∈ Table.filter _ _ ↔ _
  rw [Table.mem_filter]
  refine and_congr Iff.rfl ?_
  rw [isUnreferencedChunk, Bool.not_and, Bool.not_not, Bool.not_not, Bool.or_eq_true,
    List.any_eq_true, List.any_eq_true]
  simp only [decide_eq_true_eq]
  exact Iff.rfl

theorem not_deadLocation_of_live {location : StorageLocation}
    (h : db.LiveChunk location.chunkId) : isDeadLocation db targetNodeId location = false := by
  simp [isDeadLocation, h]

theorem find?_sweptDb_objectLayouts {layout : ObjectLayoutRow} (h : layout ∈ db.objectLayouts)
    (hlive : db.LiveLayout layout) :
    (sweptDb db targetNodeId).objectLayouts.find? layout.layoutId = some layout :=
  Table.find?_of_mem (mem_sweptDb_objectLayouts.mpr ⟨h, hlive⟩)

theorem find?_sweptDb_finalizations {sessionId : UuidV7} {layout : ObjectLayoutRow}
    (h : db.finalizations.find? sessionId = some ⟨sessionId, some layout.layoutId⟩)
    (hlayout : layout ∈ db.objectLayouts) (hlive : db.LiveLayout layout) :
    (sweptDb db targetNodeId).finalizations.find? sessionId =
      some ⟨sessionId, some layout.layoutId⟩ := by
  have hkept : (db.objectLayouts.rows.any fun row =>
      !db.isLiveLayout row && row.layoutId = layout.layoutId) = false := by
    rw [List.any_eq_false]
    intro row hrow hdead
    simp only [Bool.and_eq_true, Bool.not_eq_true', decide_eq_true_eq] at hdead
    obtain rfl : row = layout := Table.key_inj hrow hlayout hdead.2
    rw [Db.isLiveLayout_iff.mpr hlive] at hdead
    cases hdead.1
  have hswept : (sweptDb db targetNodeId).finalizations.find? sessionId =
      (db.finalizations.find? sessionId).map (FinalizationRow.clearLayout fun layoutId =>
        db.objectLayouts.rows.any fun row => !db.isLiveLayout row && row.layoutId = layoutId) :=
    @Table.find?_mapRows _ _ _ _ _ _ (FinalizationRow.clearLayout_sessionId _) sessionId
  rw [hswept, h, Option.map_some, FinalizationRow.clearLayout]
  simp only [Option.filter_some, hkept, Bool.not_false, ↓reduceIte]

/-- The sweep changes neither which layouts are live nor which chunks. -/
theorem liveChunk_sweptDb {chunkId : ContentId} :
    (sweptDb db targetNodeId).LiveChunk chunkId ↔ db.LiveChunk chunkId := by
  constructor
  · rintro ⟨layout, hlayout, hchunk, -⟩
    obtain ⟨hmem, hlive⟩ := mem_sweptDb_objectLayouts.mp hlayout
    exact ⟨layout, hmem, hchunk, hlive⟩
  · rintro ⟨layout, hlayout, hchunk, hlive⟩
    refine ⟨layout, mem_sweptDb_objectLayouts.mpr ⟨hlayout, hlive⟩, hchunk, ?_⟩
    rcases hlive with hversion | ⟨finalization, hfinalization, hid, hversion⟩
    · exact .inl hversion
    · obtain ⟨sessionId, layoutId⟩ := finalization
      obtain rfl : layoutId = some layout.layoutId := hid
      have hkept := @find?_sweptDb_finalizations db targetNodeId sessionId layout
        (Table.find?_of_mem hfinalization) hlayout (.inr ⟨_, hfinalization, rfl, hversion⟩)
      exact .inr ⟨_, Table.mem_of_find? hkept, rfl, hversion⟩

/-! ## Chunks of live layouts -/

theorem liveChunk_of_row {layout : ObjectLayoutRow} {row : LayoutChunkRow}
    (h : layout ∈ db.objectLayouts) (hlive : db.LiveLayout layout) (hrow : row ∈ layout.chunkRows) :
    db.LiveChunk row.chunkId :=
  ⟨layout, h, List.any_eq_true.mpr ⟨row, hrow, by simp⟩, hlive⟩

theorem locations_of_liveChunk {chunkId : ContentId} (h : db.LiveChunk chunkId)
    (condition : StorageLocation → Bool) :
    ((sweptDb db targetNodeId).storageLocations.rows.filter fun location =>
        location.chunkId = chunkId && condition location) =
      db.storageLocations.rows.filter fun location =>
        location.chunkId = chunkId && condition location := by
  change (List.filter _ (List.filter _ _)) = _
  rw [List.filter_filter]
  refine List.filter_congr fun location _ => ?_
  by_cases hid : location.chunkId = chunkId
  · rw [not_deadLocation_of_live (hid ▸ h)]
    simp
  · simp [hid]

theorem chunkSources_sweptDb {chunkId : ContentId} (h : db.LiveChunk chunkId) :
    chunkSources env (sweptDb db targetNodeId) chunkId = chunkSources env db chunkId := by
  unfold chunkSources
  rw [locations_of_liveChunk h]
  rfl

theorem isRestorableChunk_sweptDb {chunkId : ContentId} (h : db.LiveChunk chunkId) :
    isRestorableChunk (sweptDb db targetNodeId) chunkId = isRestorableChunk db chunkId := by
  rw [Bool.eq_iff_iff, isRestorableChunk, isRestorableChunk, List.any_eq_true, List.any_eq_true]
  refine exists_congr fun location => ?_
  simp only [Table.mem_rows, mem_sweptDb_storageLocations, Bool.and_eq_true, decide_eq_true_eq]
  constructor
  · rintro ⟨⟨hmem, -⟩, hcondition⟩
    exact ⟨hmem, hcondition⟩
  · rintro ⟨hmem, hcondition⟩
    exact ⟨⟨hmem, fun _ => hcondition.1.1.symm ▸ h⟩, hcondition⟩

theorem isRestorableLayout_sweptDb {layout : ObjectLayoutRow} (h : layout ∈ db.objectLayouts)
    (hlive : db.LiveLayout layout) :
    isRestorableLayout (sweptDb db targetNodeId) layout = isRestorableLayout db layout := by
  unfold isRestorableLayout
  rw [Bool.eq_iff_iff, List.all_eq_true, List.all_eq_true]
  refine forall_congr' fun row => forall_congr' fun hrow => ?_
  rw [isRestorableChunk_sweptDb (liveChunk_of_row h hlive hrow)]

/-! ## Restore plans -/

theorem liveLayout_of_rootObject {version : VersionRow} {layout : ObjectLayoutRow}
    (hversion : version ∈ db.artifactVersions) (hretired : ¬db.Retired version.versionId)
    (hobject : layout.objectId = version.rootObjectId) : db.LiveLayout layout :=
  .inl ⟨version, hversion, hobject.symm, hretired⟩

theorem leastLayout_sweptDb {version : VersionRow} (hversion : version ∈ db.artifactVersions)
    (hretired : ¬db.Retired version.versionId) :
    leastLayout (sweptDb db targetNodeId) version.rootObjectId
        (isRestorableLayout (sweptDb db targetNodeId)) =
      leastLayout db version.rootObjectId (isRestorableLayout db) := by
  have hfilter : ((sweptDb db targetNodeId).objectLayouts.rows.filter fun layout =>
        layout.objectId = version.rootObjectId &&
          isRestorableLayout (sweptDb db targetNodeId) layout) =
      db.objectLayouts.rows.filter fun layout =>
        layout.objectId = version.rootObjectId && isRestorableLayout db layout := by
    change (List.filter _ (List.filter _ _)) = _
    rw [List.filter_filter]
    refine List.filter_congr fun layout hlayout => ?_
    by_cases hobject : layout.objectId = version.rootObjectId
    · have hlive := liveLayout_of_rootObject hversion hretired hobject
      have hkept : (deleteStorageLocations db (isDeadLocation db targetNodeId)).isLiveLayout
          layout = true := Db.isLiveLayout_iff.mpr hlive
      have husable : isRestorableLayout (sweptDb db targetNodeId) layout =
          isRestorableLayout db layout := isRestorableLayout_sweptDb hlayout hlive
      simp [husable, hkept]
    · simp [hobject]
  unfold leastLayout
  rw [hfilter]

theorem readChunkRows_ok {index : Nat} {rows : List LayoutChunkRow} {chunks : List ChunkRef}
    (h : readChunkRows index rows = .ok chunks) {chunk : ChunkRef} (hchunk : chunk ∈ chunks) :
    ∃ row ∈ rows, row.chunkId = chunk.chunkId := by
  induction rows generalizing index chunks with
  | nil =>
      cases h
      simp at hchunk
  | cons row rows ih =>
      simp only [readChunkRows, bind_eq_ok] at h
      obtain ⟨-, -, -, -, -, -, rest, hrest, h⟩ := h
      obtain rfl := Except.ok.inj h
      rcases List.mem_cons.mp hchunk with rfl | hchunk
      · exact ⟨row, by simp, rfl⟩
      · obtain ⟨found, hfound, hid⟩ := ih hrest hchunk
        exact ⟨found, by simp [hfound], hid⟩

theorem readLayoutRow_chunks {stored : ObjectLayoutRow} {d : ObjectLayoutDescriptor}
    (h : readLayoutRow env stored = .ok d) {chunk : ChunkRef} (hchunk : chunk ∈ d.layout.chunks) :
    ∃ row ∈ stored.chunkRows, row.chunkId = chunk.chunkId := by
  simp only [readLayoutRow, bind_eq_ok] at h
  obtain ⟨-, -, chunks, hchunks, -, -, layout, hlayout, descriptor, hmake, -, -, -, -, h⟩ := h
  obtain rfl := Except.ok.inj h
  have hlayoutChunks : layout.chunks = chunks := by
    unfold ObjectLayout.make at hlayout
    split at hlayout
    · cases hlayout
    · obtain rfl := Except.ok.inj hlayout
      rfl
  have hdescriptor : descriptor.layout = layout := by
    unfold ObjectLayoutDescriptor.make at hmake
    split at hmake
    · cases hmake
    · split at hmake
      · obtain rfl := Except.ok.inj hmake
        rfl
      · cases hmake
  rw [hdescriptor, hlayoutChunks] at hchunk
  exact readChunkRows_ok hchunks hchunk

/-- A restore plan depends only on rows that a sweep keeps. -/
theorem resolveMultiNodeRestorePlan_sweptDb (versionId : ContentId) :
    resolveMultiNodeRestorePlan env (sweptDb db targetNodeId) versionId =
      resolveMultiNodeRestorePlan env db versionId := by
  unfold resolveMultiNodeRestorePlan
  change (loadRestorableVersion env db versionId >>= _) = _
  refine bind_congr_ok fun version hversion => ?_
  simp only [loadRestorableVersion, bind_eq_ok, exists_unit, orFail_eq_ok, failIf_eq_ok,
    Db.isVersionRetired_iff] at hversion
  obtain ⟨_, hload, loaded, rfl, -, hretired, hversion⟩ := hversion
  obtain rfl := Except.ok.inj hversion
  obtain ⟨row, hrow, rfl, hroot, -⟩ := loadVersion_ok hload
  rw [← hroot, leastLayout_sweptDb hrow hretired]
  refine bind_congr_ok fun selected hselected => ?_
  rw [orFail_eq_ok] at hselected
  obtain ⟨hmem, hobject, -⟩ := leastLayout_some hselected
  have hlive := liveLayout_of_rootObject hrow hretired hobject
  -- The selected layout is live, so it is read from the same row.
  have hread : loadObjectLayout env (sweptDb db targetNodeId) selected.layoutId =
      loadObjectLayout env db selected.layoutId := by
    simp only [loadObjectLayout, find?_sweptDb_objectLayouts hmem hlive,
      Table.find?_of_mem hmem]
  rw [hread]
  refine bind_congr_ok fun found hfound => bind_congr_ok fun descriptor hdescriptor =>
    bind_congr_ok fun _ _ => ?_
  obtain rfl := orFail_eq_ok.mp hdescriptor
  have hsources : (descriptor.layout.chunks.map fun chunk =>
        (⟨chunk.chunkId, chunk.offset, chunk.size,
          chunkSources env (sweptDb db targetNodeId) chunk.chunkId⟩ : RestoreChunkSources)) =
      descriptor.layout.chunks.map fun chunk =>
        ⟨chunk.chunkId, chunk.offset, chunk.size, chunkSources env db chunk.chunkId⟩ := by
    refine List.map_congr_left fun chunk hchunk => ?_
    simp only [loadObjectLayout, Table.find?_of_mem hmem] at hfound
    cases hstored : readLayoutRow env selected with
    | error e =>
        rw [hstored] at hfound
        cases hfound
    | ok d =>
        rw [hstored] at hfound
        obtain rfl := Option.some.inj (Except.ok.inj hfound)
        obtain ⟨chunkRow, hchunkRow, hid⟩ := readLayoutRow_chunks hstored hchunk
        rw [chunkSources_sweptDb (hid ▸ liveChunk_of_row hmem hlive hchunkRow)]
  simp only [hsources]

/-! ## The sweep -/

theorem sweepGcMetadata_ok {stats : GcMetadataStats}
    (h : sweepGcMetadata db targetNodeId = .ok (stats, db')) :
    ¬PinsDeadLayout db ∧ stats = sweptStats db targetNodeId ∧ db' = sweptDb db targetNodeId := by
  rcases sweepGcMetadata_eq db targetNodeId with ⟨-, hs⟩ | ⟨hunpinned, hs⟩
  · rw [hs] at h
    cases h
  · rw [hs] at h
    obtain ⟨rfl, rfl⟩ := Prod.ext_iff.mp (Except.ok.inj h)
    exact ⟨hunpinned, rfl, rfl⟩

/-- A sweep that runs to completion keeps exactly the live layouts and, on its
node, the locations of live chunks; it drops nothing that these or other nodes
need, and no restore plan changes. -/
theorem sweepGcMetadata_exact {stats : GcMetadataStats}
    (h : sweepGcMetadata db targetNodeId = .ok (stats, db')) :
    (∀ layout, layout ∈ db'.objectLayouts ↔ layout ∈ db.objectLayouts ∧ db.LiveLayout layout) ∧
      (∀ location, location.nodeId = targetNodeId →
        (location ∈ db'.storageLocations ↔
          location ∈ db.storageLocations ∧ db.LiveChunk location.chunkId)) ∧
      (∀ location, location.nodeId ≠ targetNodeId →
        (location ∈ db'.storageLocations ↔ location ∈ db.storageLocations)) ∧
      (∀ chunk ∈ db.chunks, (db.LiveChunk chunk.chunkId ∨
        ∃ location ∈ db'.storageLocations, location.chunkId = chunk.chunkId) →
          chunk ∈ db'.chunks) ∧
      (∀ object ∈ db.objects,
        ((∃ version ∈ db.artifactVersions, version.rootObjectId = object.objectId) ∨
          ∃ layout ∈ db'.objectLayouts, layout.objectId = object.objectId) →
            object ∈ db'.objects) ∧
      ∀ versionId, resolveMultiNodeRestorePlan env db' versionId =
        resolveMultiNodeRestorePlan env db versionId := by
  obtain ⟨-, -, rfl⟩ := sweepGcMetadata_ok h
  refine ⟨fun layout => mem_sweptDb_objectLayouts, ?_, ?_, ?_, ?_,
    resolveMultiNodeRestorePlan_sweptDb⟩
  · intro location hnode
    rw [mem_sweptDb_storageLocations]
    simp [hnode]
  · intro location hnode
    rw [mem_sweptDb_storageLocations]
    simp [hnode]
  · rintro chunk hchunk (⟨layout, hlayout, hcontains, hlive⟩ | hlocation)
    · exact mem_sweptDb_chunks.mpr
        ⟨hchunk, .inl ⟨layout, mem_sweptDb_objectLayouts.mpr ⟨hlayout, hlive⟩, hcontains⟩⟩
    · exact mem_sweptDb_chunks.mpr ⟨hchunk, .inr hlocation⟩
  · exact fun object hobject hreferenced => mem_sweptDb_objects.mpr ⟨hobject, hreferenced⟩

open Sample in
theorem sweepGcMetadata_exact_sample :
    let db := afterOps Sample.env .initial (pushOps ++ retireOps)
    ∃ stats db', sweepGcMetadata db "n1" = .ok (stats, db') ∧
      db.objectLayouts.rows ≠ [] ∧
      resolveMultiNodeRestorePlan Sample.env db' versionId =
        resolveMultiNodeRestorePlan Sample.env db versionId := by
  intro db
  have hruns : db.replicationRuns.rows = [] := by decide +kernel
  have hunpinned : ¬PinsDeadLayout db := by
    rintro ⟨layout, -, -, run, hrun, -⟩
    rw [← Table.mem_rows, hruns] at hrun
    simp at hrun
  rcases sweepGcMetadata_eq db "n1" with ⟨hpins, -⟩ | ⟨-, hswept⟩
  · exact absurd hpins hunpinned
  · exact ⟨_, _, hswept, by decide +kernel,
      (sweepGcMetadata_exact hswept).2.2.2.2.2 versionId⟩

end AiArtifactStore.Metadata
