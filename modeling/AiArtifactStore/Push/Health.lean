import AiArtifactStore.Metadata.LayoutArithmetic
import AiArtifactStore.Push.Durability
import AiArtifactStore.Replication.NodeOrder

/-!
# Services that a push can rely on

The session is open, what the services already have of the chunks agrees with
their content, and the database orders node ids by bytes.  Then every request of
a push succeeds, and leaves the services so.
-/

namespace AiArtifactStore.Push

open AiArtifactStore.Foundation
open AiArtifactStore.Identity
open AiArtifactStore.Metadata
open AiArtifactStore.Storage
open AiArtifactStore.Chunking
open AiArtifactStore.Client
open AiArtifactStore.Replication

structure SortsByBytes (env : Environment) : Prop where
  linear : LinearText env
  bytes : CollatesAsBytes env Set.univ

/-- What stands in the place of the chunk is the chunk, if anything. -/
structure Intact (env : Environment) (store : ChunkStore) (chunkId : ContentId) : Prop where
  content : ∀ bytes, LocalChunkStore.readFile store chunkId = some bytes →
    env.contentId bytes = chunkId
  file : (store.find? chunkId).map ChunkEntry.file ≠ some .directory

structure Healthy (env : Environment) (ctx : PushContext) (chunks : List ChunkBuffer)
    (services : Services) : Prop where
  session : services.db.uploadSessions.find? ctx.sessionId = some ⟨ctx.session, .open⟩
  sizes : ∀ chunk ∈ chunks, ∀ row,
    services.db.chunks.find? (env.contentId chunk.bytes) = some row →
      row.sizeBytes = chunk.bytes.length
  locations : ∀ location ∈ services.db.storageLocations,
    nodeIdInvalid location.nodeId = false ∧
      location.storagePath = logicalStoragePath location.chunkId
  stores : ∀ nodeId ∈ ctx.session.placementNodeIds, ∀ chunk ∈ chunks,
    Intact env (services.stores nodeId) (env.contentId chunk.bytes)

structure Storable (env : Environment) (chunks : List ChunkBuffer) : Prop where
  free : CollisionFree env chunks
  sizes : ∀ chunk ∈ chunks, 0 < chunk.bytes.length ∧ chunk.bytes.length ≤ kMaxM4ChunkSize

section

variable {env : Environment} {ctx : PushContext} {chunks : List ChunkBuffer} {services : Services}
  {chunk : ChunkBuffer} {nodeId : String}

/-! ## Storage nodes -/

theorem put_of_intact {store : ChunkStore} {data : List UInt8}
    (h : Intact env store (env.contentId data)) :
    ∃ stored, LocalChunkStore.put env store (env.contentId data) data = .ok stored ∧
      ∀ chunkId, Intact env store chunkId → Intact env stored chunkId := by
  unfold LocalChunkStore.put
  cases hread : LocalChunkStore.readFile store (env.contentId data) with
  | some bytes =>
      have hget : LocalChunkStore.get env store (env.contentId data) = .ok bytes := by
        rw [LocalChunkStore.get, hread, orFail_some, ok_bind,
          failIf_of_false (not_not.mpr (h.content bytes hread)), ok_bind]
      simp only [LocalChunkStore.contains, hread, Option.isSome_some, ↓reduceIte, hget]
      exact ⟨store, rfl, fun _ hintact => hintact⟩
  | none =>
      simp only [LocalChunkStore.contains, hread, Option.isSome_none, Bool.false_eq_true,
        ↓reduceIte, failIf_of_false (not_not.mpr rfl), failIf_of_false h.file, ok_bind]
      refine ⟨_, rfl, fun chunkId hintact => ?_⟩
      by_cases hid : env.contentId data = chunkId
      · subst hid
        refine ⟨fun bytes hbytes => ?_, ?_⟩
        · simp only [LocalChunkStore.readFile, Table.find?_upsert, ↓reduceIte, Option.bind_some,
            ChunkFile.regularBytes, Option.some.injEq] at hbytes
          rw [hbytes]
        · simp [Table.find?_upsert]
      · refine ⟨fun bytes hbytes => hintact.content bytes ?_, ?_⟩
        · simpa only [LocalChunkStore.readFile, Table.find?_upsert, hid, ↓reduceIte] using hbytes
        · simpa only [Table.find?_upsert, hid, ↓reduceIte] using hintact.file

theorem serveStorage_put (h : Intact env (services.stores nodeId) (env.contentId chunk.bytes)) :
    ∃ store, serveStorage env (services.stores nodeId)
        (.putChunk (env.contentId chunk.bytes) chunk.bytes) = (.ok .noContent, store) ∧
      ∀ chunkId, Intact env (services.stores nodeId) chunkId → Intact env store chunkId := by
  obtain ⟨store, hput, hintact⟩ := put_of_intact h
  refine ⟨store, ?_, hintact⟩
  simp [serveStorage, StorageNodeService.handleRequest, StorageNodeService.respond, failIf,
    StorageNodeService.rethrow, hput]

theorem Healthy.setStore (h : Healthy env ctx chunks services) {store : ChunkStore}
    (hintact : ∀ chunkId, Intact env (services.stores nodeId) chunkId → Intact env store chunkId) :
    Healthy env ctx chunks (services.setStore nodeId store) := by
  refine { h with stores := fun other hother chunk hchunk => ?_ }
  simp only [Services.setStore, Function.update_apply]
  split
  · rename_i hsame
    subst hsame
    exact hintact _ (h.stores other hother chunk hchunk)
  · exact h.stores other hother chunk hchunk

/-! ## Locations -/

theorem logicalStoragePath_inj {a b : ContentId} (h : logicalStoragePath a = logicalStoragePath b) :
    a = b := by
  have hhex := congrArg String.toList h
  simp only [logicalStoragePath, String.toList_append, List.append_cancel_left_eq] at hhex
  exact ContentId.hex_injective (String.toList_injective hhex)

theorem nodeId_ne_empty (h : nodeIdInvalid nodeId = false) : nodeId ≠ "" := by
  rintro rfl
  revert h
  decide

theorem logicalStoragePath_ne_empty (chunkId : ContentId) : logicalStoragePath chunkId ≠ "" := by
  intro h
  have hlength := congrArg String.length h
  simp [logicalStoragePath] at hlength

def uploadedLocation (chunkId : ContentId) (nodeId : String) : StorageLocation :=
  ⟨chunkId, nodeId, logicalStoragePath chunkId, .available⟩

theorem nul_not_mem_hex (chunkId : ContentId) : nul ∉ chunkId.hex.toList := by
  have hnone : ofHexDigit? nul = none := by decide
  intro h
  rw [ContentId.hex, String.toList_ofList, ContentId.hexCharacters] at h
  obtain ⟨d, hd⟩ := ofHexDigit?_of_mem_hexDigits h
  rw [hnone] at hd
  cases hd

theorem uploadedLocation_stored (chunkId : ContentId) (nodeId : String) :
    (uploadedLocation chunkId nodeId).stored = uploadedLocation chunkId nodeId := by
  have hpath : nul ∉ (logicalStoragePath chunkId).toList := by
    rw [logicalStoragePath, String.toList_append, List.mem_append, not_or]
    exact ⟨by decide, nul_not_mem_hex chunkId⟩
  rw [StorageLocation.stored, uploadedLocation, cString_eq_self hpath]

theorem registerStorageLocation_healthy (h : Healthy env ctx chunks services)
    {known : ChunkMetadata} (hknown : services.Known known)
    (hvalid : nodeIdInvalid nodeId = false) :
    registerStorageLocation services.db (uploadedLocation known.chunkId nodeId) =
      .ok { services.db with
        storageLocations :=
          services.db.storageLocations.upsert (uploadedLocation known.chunkId nodeId) } := by
  have hnode : ¬(uploadedLocation known.chunkId nodeId).nodeId = "" := nodeId_ne_empty hvalid
  have hpath : ¬(uploadedLocation known.chunkId nodeId).storagePath = "" :=
    logicalStoragePath_ne_empty _
  have hstored : ¬services.db.chunks.find? (uploadedLocation known.chunkId nodeId).chunkId = none := by
    have hfind : services.db.chunks.find? known.chunkId = some known := hknown
    simp [uploadedLocation, hfind]
  have hunique : ¬∃ other ∈ services.db.storageLocations.rows,
      other.locationKey ≠ (uploadedLocation known.chunkId nodeId).locationKey ∧
        other.nodeId = (uploadedLocation known.chunkId nodeId).nodeId ∧
        other.storagePath = (uploadedLocation known.chunkId nodeId).storagePath := by
    rintro ⟨other, hother, hkey, hnode, hpath⟩
    have hid := logicalStoragePath_inj ((h.locations other hother).2.symm.trans hpath)
    exact hkey (Prod.ext hid hnode)
  rw [registerStorageLocation, failIf_of_false hnode, ok_bind, failIf_of_false hpath, ok_bind,
    uploadedLocation_stored, failIf_of_false hpath, ok_bind, failIf_of_false hunique, ok_bind,
    failIf_of_false hstored, ok_bind]

theorem serveRegister_healthy (h : Healthy env ctx chunks services) {known : ChunkMetadata}
    (hknown : services.Known known) (hvalid : nodeIdInvalid nodeId = false) :
    ∃ db, serveRegisterStorageLocation env services.db (uploadedLocation known.chunkId nodeId) =
        (.ok (), db) ∧
      Healthy env ctx chunks (services.setDb db) ∧ db.chunks = services.db.chunks := by
  have hregister := registerStorageLocation_healthy h hknown hvalid
  refine ⟨{ services.db with
    storageLocations :=
      services.db.storageLocations.upsert (uploadedLocation known.chunkId nodeId) }, ?_,
    ⟨h.session, h.sizes, fun location hlocation => ?_, h.stores⟩, rfl⟩
  · simp [serveRegisterStorageLocation, serve, commit, transact, hregister, done, Except.map,
      Except.mapError]
  · simp only [Services.setDb, Table.mem_upsert] at hlocation
    rcases hlocation with rfl | ⟨hlocation, -⟩
    · exact ⟨hvalid, rfl⟩
    · exact h.locations location hlocation

/-! ## Negotiation -/

structure Batch (env : Environment) (chunks : List ChunkBuffer) (staging : List StagedChunk) :
    Prop where
  staged : ∀ staged ∈ staging, ∃ chunk ∈ chunks, staged = stagedChunk env chunk
  distinct : (staging.map fun staged => staged.metadata.chunkId).Nodup

theorem Storable.sizeValid (h : Storable env chunks) (hchunk : chunk ∈ chunks) :
    chunk.bytes.length ≠ 0 ∧ chunk.bytes.length ≤ postgresBigintMax := by
  obtain ⟨hpos, hmax⟩ := h.sizes chunk hchunk
  have hfits : kMaxM4ChunkSize ≤ postgresBigintMax := by decide
  omega

theorem distinctChunks_of_nodup {seen rest : List ChunkMetadata}
    (hsizes : ∀ chunk ∈ rest, chunk.sizeBytes ≠ 0 ∧ chunk.sizeBytes ≤ postgresBigintMax)
    (hnodup : ((seen ++ rest).map ChunkMetadata.chunkId).Nodup) :
    distinctChunks seen rest = .ok (seen ++ rest) := by
  induction rest generalizing seen with
  | nil => simp [distinctChunks]
  | cons chunk rest ih =>
      obtain ⟨hpos, hmax⟩ := hsizes chunk (by simp)
      have hfresh : (seen.find? fun s => s.chunkId = chunk.chunkId) = none := by
        rw [List.find?_eq_none]
        intro s hs heq
        simp only [List.map_append, List.map_cons, List.nodup_append, List.mem_map,
          List.mem_cons] at hnodup
        exact hnodup.2.2 s.chunkId ⟨s, hs, rfl⟩ chunk.chunkId (.inl rfl) (by simpa using heq)
      have hrest := @ih (seen ++ [chunk]) (fun other hother => hsizes other (by simp [hother]))
        (by simpa using hnodup)
      simp only [distinctChunks, failIf_of_false hpos, toPostgresBigint_of_le hmax, ok_bind,
        hfresh, hrest, List.append_assoc, List.singleton_append]

theorem checkStoredSizes_none {db : Db} {rest : List ChunkMetadata}
    (hsizes : ∀ chunk ∈ rest, chunk.sizeBytes ≠ 0 ∧
      ∀ row, db.chunks.find? chunk.chunkId = some row → row.sizeBytes = chunk.sizeBytes) :
    checkStoredSizes db rest = .ok none := by
  induction rest with
  | nil => rfl
  | cons chunk rest ih =>
      obtain ⟨hpos, hsame⟩ := hsizes chunk (by simp)
      have hrest := ih fun other hother => hsizes other (by simp [hother])
      unfold checkStoredSizes
      cases hfind : db.chunks.find? chunk.chunkId with
      | none => exact hrest
      | some row =>
          simp only [hsame row hfind, hpos, ↓reduceIte, hrest]

theorem mem_insertChunks {db : Db} {rest : List ChunkMetadata} {row : ChunkMetadata}
    (h : row ∈ (insertChunks db rest).chunks) : row ∈ db.chunks ∨ row ∈ rest := by
  change row ∈ rest.foldl Table.insert db.chunks at h
  generalize db.chunks = table at h
  induction rest generalizing table with
  | nil => exact .inl h
  | cons chunk rest ih =>
      rcases ih (table.insert chunk) h with hbefore | hrest
      · rcases Table.mem_insert.mp hbefore with hbefore | ⟨rfl, -⟩
        · exact .inl hbefore
        · exact .inr (by simp)
      · exact .inr (by simp [hrest])

theorem Batch.sameSize {staging : List StagedChunk} (h : Batch env chunks staging)
    (hstorable : Storable env chunks) {row : ChunkMetadata}
    (hrow : row ∈ staging.map StagedChunk.metadata) (hchunk : chunk ∈ chunks)
    (hid : row.chunkId = env.contentId chunk.bytes) : row.sizeBytes = chunk.bytes.length := by
  obtain ⟨staged, hstaged, rfl⟩ := List.mem_map.mp hrow
  obtain ⟨first, hfirst, rfl⟩ := h.staged staged hstaged
  exact congrArg List.length (hstorable.free first hfirst chunk hchunk hid)

/-- The database after a negotiation of new and recorded chunks. -/
def negotiatedDb (db : Db) (rows : List ChunkMetadata) : Db :=
  insertChunks db (rows.filter fun chunk => !(db.chunks.find? chunk.chunkId).isSome)

def negotiatedEntries (env : Environment) (db : Db) (rows : List ChunkMetadata) :
    List ChunkNegotiationEntry :=
  rows.map fun chunk => ⟨chunk, (db.chunks.find? chunk.chunkId).isSome,
    availableNodeIds env (negotiatedDb db rows) chunk.chunkId⟩

theorem Batch.row {staging : List StagedChunk} (h : Batch env chunks staging) {row : ChunkMetadata}
    (hrow : row ∈ staging.map StagedChunk.metadata) :
    ∃ chunk ∈ chunks, row = ⟨env.contentId chunk.bytes, chunk.bytes.length⟩ := by
  obtain ⟨staged, hstaged, rfl⟩ := List.mem_map.mp hrow
  obtain ⟨chunk, hchunk, rfl⟩ := h.staged staged hstaged
  exact ⟨chunk, hchunk, rfl⟩

theorem negotiatedDb_healthy (h : Healthy env ctx chunks services) (hstorable : Storable env chunks)
    {staging : List StagedChunk} (hbatch : Batch env chunks staging) :
    Healthy env ctx chunks
      (services.setDb (negotiatedDb services.db (staging.map StagedChunk.metadata))) := by
  refine { h with sizes := fun chunk hchunk row hrow => ?_ }
  have hid : row.chunkId = env.contentId chunk.bytes := Table.key_of_find? hrow
  rcases mem_insertChunks (Table.mem_of_find? hrow) with hbefore | hnew
  · exact h.sizes chunk hchunk row (hid ▸ Table.find?_of_mem hbefore)
  · exact hbatch.sameSize hstorable (List.mem_of_mem_filter hnew) hchunk hid

theorem negotiatedDb_known (h : Healthy env ctx chunks services) (hstorable : Storable env chunks)
    {staging : List StagedChunk} (hbatch : Batch env chunks staging) {known : ChunkMetadata}
    (hknown : known ∈ staging.map StagedChunk.metadata) :
    (negotiatedDb services.db (staging.map StagedChunk.metadata)).chunks.find? known.chunkId =
      some known := by
  obtain ⟨row, hrow⟩ : ∃ row, (negotiatedDb services.db
      (staging.map StagedChunk.metadata)).chunks.find? known.chunkId = some row := by
    cases hfind : services.db.chunks.find? known.chunkId with
    | some row => exact ⟨row, find?_insertChunks hfind⟩
    | none => exact find?_insertChunks_new (List.mem_filter.mpr ⟨hknown, by simp [hfind]⟩)
  obtain ⟨chunk, hchunk, rfl⟩ := hbatch.row hknown
  have hid : row.chunkId = env.contentId chunk.bytes := Table.key_of_find? hrow
  have hsize := (negotiatedDb_healthy h hstorable hbatch).sizes chunk hchunk row hrow
  rw [hrow, ← hid, ← hsize]

/-- A batch of distinct chunks of the stream is negotiated without a conflict. -/
theorem negotiateChunks_healthy (h : Healthy env ctx chunks services)
    (hstorable : Storable env chunks) {staging : List StagedChunk}
    (hbatch : Batch env chunks staging) :
    negotiateChunks env services.db (staging.map StagedChunk.metadata) =
      .ok (⟨negotiatedEntries env services.db (staging.map StagedChunk.metadata), none⟩,
        negotiatedDb services.db (staging.map StagedChunk.metadata)) := by
  have hsizes : ∀ row ∈ staging.map StagedChunk.metadata,
      row.sizeBytes ≠ 0 ∧ row.sizeBytes ≤ postgresBigintMax := by
    intro row hrow
    obtain ⟨chunk, hchunk, rfl⟩ := hbatch.row hrow
    exact hstorable.sizeValid hchunk
  have hnodup : ((staging.map StagedChunk.metadata).map ChunkMetadata.chunkId).Nodup := by
    rw [List.map_map]
    exact hbatch.distinct
  have hdistinct : distinctChunks [] (staging.map StagedChunk.metadata) =
      .ok (staging.map StagedChunk.metadata) :=
    distinctChunks_of_nodup hsizes hnodup
  have hstored : checkStoredSizes services.db (staging.map StagedChunk.metadata) = .ok none := by
    refine checkStoredSizes_none fun row hrow => ⟨(hsizes row hrow).1, fun other hother => ?_⟩
    obtain ⟨chunk, hchunk, rfl⟩ := hbatch.row hrow
    exact h.sizes chunk hchunk other hother
  have hconflict : sizeConflict (negotiatedDb services.db (staging.map StagedChunk.metadata))
      (staging.map StagedChunk.metadata) = none := by
    refine List.findSome?_eq_none_iff.mpr fun chunk hchunk => ?_
    rw [negotiatedDb_known h hstorable hbatch hchunk]
    exact if_pos rfl
  unfold negotiatedEntries
  unfold negotiatedDb at hconflict ⊢
  simp only [negotiateChunks, hdistinct, hstored, ok_bind, hconflict]

theorem checkNegotiationSizes_ok {seen rest : List ChunkMetadata}
    (hsizes : ∀ chunk ∈ rest, chunk.sizeBytes ≠ 0 ∧ chunk.sizeBytes ≤ postgresBigintMax)
    (hnodup : ((seen ++ rest).map ChunkMetadata.chunkId).Nodup) :
    MetadataClient.checkNegotiationSizes seen rest = .ok () := by
  induction rest generalizing seen with
  | nil => rfl
  | cons chunk rest ih =>
      obtain ⟨hpos, hmax⟩ := hsizes chunk (by simp)
      have hrange : ¬(chunk.sizeBytes = 0 ∨ chunk.sizeBytes > postgresBigintMax) := by omega
      have hfresh : ¬∃ s ∈ seen, s.chunkId = chunk.chunkId ∧ s.sizeBytes ≠ chunk.sizeBytes := by
        rintro ⟨s, hs, heq, -⟩
        simp only [List.map_append, List.map_cons, List.nodup_append, List.mem_map,
          List.mem_cons] at hnodup
        exact hnodup.2.2 s.chunkId ⟨s, hs, rfl⟩ chunk.chunkId (.inl rfl) heq
      rw [MetadataClient.checkNegotiationSizes, failIf_of_false hrange, ok_bind,
        failIf_of_false hfresh, ok_bind]
      exact ih (fun other hother => hsizes other (by simp [hother])) (by simpa using hnodup)

theorem sizesConflict_of_nodup {rows : List ChunkMetadata}
    (hnodup : (rows.map ChunkMetadata.chunkId).Nodup) : ¬SizesConflict rows := by
  refine not_not.mpr ((List.pairwise_map.mp hnodup).imp ?_)
  exact fun hne heq => absurd heq hne

theorem checkAvailableNodeIds_healthy (hsorts : SortsByBytes env)
    (h : Healthy env ctx chunks services) (chunkId : ContentId) :
    MetadataClient.checkAvailableNodeIds none (availableNodeIds env services.db chunkId) =
      .ok () := by
  obtain ⟨nodeIds, hnodup, hsorted⟩ := availableNodeIds_sorted env services.db chunkId
  refine checkAvailableNodeIds_ok.mpr ⟨fun nodeId hnode => ?_, ?_⟩
  · obtain ⟨location, hlocation, -, rfl, -⟩ := mem_availableNodeIds.mp hnode
    exact (h.locations location hlocation).1
  · exact (isChain_of_sorted_iff hsorts.linear hnodup hsorted).mpr
      fun a _ b _ => hsorts.bytes a trivial b trivial

theorem nodeIdInvalid_targetNodeId {session : UploadSession} :
    nodeIdInvalid session.targetNodeId = false := by
  obtain ⟨-, hnonempty, -, -, hvalid, -⟩ := UploadSession.valid_iff.mp session.valid
  refine hvalid _ ?_
  unfold UploadSessionFields.targetNodeId
  cases hnodes : session.placementNodeIds with
  | nil => exact absurd hnodes hnonempty
  | cons first rest => simp

theorem serveNegotiate_healthy (hsorts : SortsByBytes env) (h : Healthy env ctx chunks services)
    (hstorable : Storable env chunks) {staging : List StagedChunk}
    (hbatch : Batch env chunks staging) (hnonempty : staging ≠ [])
    (hcount : staging.length ≤ kMaxNegotiationChunks) :
    ∃ result, serveNegotiateChunks env services.db ctx.sessionId
        (staging.map StagedChunk.metadata) =
          (.ok result, negotiatedDb services.db (staging.map StagedChunk.metadata)) ∧
      MetadataClient.negotiateChunks ctx.sessionId (.ok result) = .ok result ∧
      result.sessionId = ctx.sessionId ∧ result.targetNodeId = ctx.session.targetNodeId ∧
      result.chunks.map NegotiatedChunk.chunk = staging.map StagedChunk.metadata := by
  have hrows : ¬(staging.map StagedChunk.metadata = [] ∨
      (staging.map StagedChunk.metadata).length > kMaxNegotiationChunks) := by
    rw [List.map_eq_nil_iff, List.length_map]
    exact not_or.mpr ⟨hnonempty, Nat.not_lt.mpr hcount⟩
  have hpos : ¬∃ chunk ∈ staging.map StagedChunk.metadata, chunk.sizeBytes = 0 := by
    rintro ⟨row, hrow, hzero⟩
    obtain ⟨chunk, hchunk, rfl⟩ := hbatch.row hrow
    exact (hstorable.sizeValid hchunk).1 hzero
  have hnodup : ((staging.map StagedChunk.metadata).map ChunkMetadata.chunkId).Nodup := by
    rw [List.map_map]
    exact hbatch.distinct
  have hhandled : handleNegotiateChunks env services.db ctx.sessionId
      (staging.map StagedChunk.metadata) =
        .ok (⟨ctx.sessionId, ctx.session.targetNodeId,
          (negotiatedEntries env services.db (staging.map StagedChunk.metadata)).map
            (negotiatedChunk ctx.session.targetNodeId)⟩,
          negotiatedDb services.db (staging.map StagedChunk.metadata)) := by
    rw [handleNegotiateChunks, failIf_of_false hrows, ok_bind, failIf_of_false hpos, ok_bind,
      failIf_of_false (sizesConflict_of_nodup hnodup), ok_bind, h.session, orFail_some, ok_bind,
      negotiateChunks_healthy h hstorable hbatch]
    rfl
  have hchecked : forEach ((negotiatedEntries env services.db
      (staging.map StagedChunk.metadata)).map (negotiatedChunk ctx.session.targetNodeId))
        MetadataClient.checkNegotiatedChunk = .ok () := by
    refine forEach_eq_ok.mpr fun entry hentry => ?_
    simp only [negotiatedEntries, List.map_map, List.mem_map, Function.comp_apply] at hentry
    obtain ⟨staged, hstaged, rfl⟩ := hentry
    have hsize : ¬staged.metadata.sizeBytes = 0 := fun hzero =>
      hpos ⟨staged.metadata, List.mem_map_of_mem hstaged, hzero⟩
    rw [MetadataClient.checkNegotiatedChunk, negotiatedChunk, failIf_of_false hsize, ok_bind]
    exact checkAvailableNodeIds_healthy hsorts (negotiatedDb_healthy h hstorable hbatch) _
  have htarget : ¬nodeIdInvalid ctx.session.targetNodeId = true := by
    rw [nodeIdInvalid_targetNodeId]
    exact Bool.false_ne_true
  refine ⟨_, by rw [serveNegotiateChunks, hhandled], ?_, rfl, rfl, ?_⟩
  · rw [MetadataClient.negotiateChunks, ok_bind, failIf_of_false (not_not.mpr rfl), ok_bind,
      failIf_of_false htarget, ok_bind, hchecked, ok_bind]
  · simp [negotiatedEntries, negotiatedChunk]

end

end AiArtifactStore.Push
