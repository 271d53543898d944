import AiArtifactStore.Client.PushClients
import AiArtifactStore.Metadata.UploadSpec

/-!
# What uploads leave behind

The requests of an upload only add: a chunk that is present stays present, a
location that is available stays available, and the size of a chunk is never
changed.
-/

namespace AiArtifactStore.Client

open AiArtifactStore.Foundation
open AiArtifactStore.Identity
open AiArtifactStore.Metadata
open AiArtifactStore.Storage

def Services.Available (services : Services) (chunkId : ContentId) (nodeId : String) : Prop :=
  ∃ location, services.db.storageLocations.find? (chunkId, nodeId) = some location ∧
    location.state = .available

def Services.Present (services : Services) (chunkId : ContentId) (nodeId : String) : Prop :=
  LocalChunkStore.contains (services.stores nodeId) chunkId = true

def Services.Stored (services : Services) (chunkId : ContentId) (nodeId : String) : Prop :=
  services.Present chunkId nodeId ∧ services.Available chunkId nodeId

def Services.Known (services : Services) (chunk : ChunkMetadata) : Prop :=
  services.db.chunks.find? chunk.chunkId = some chunk

structure Services.Grows (a b : Services) : Prop where
  known : ∀ chunk, a.Known chunk → b.Known chunk
  available : ∀ chunkId nodeId, a.Available chunkId nodeId → b.Available chunkId nodeId
  present : ∀ chunkId nodeId, a.Present chunkId nodeId → b.Present chunkId nodeId
  sessions : b.db.uploadSessions = a.db.uploadSessions

namespace Services

variable {env : Environment} {services a b c : Services} {chunkId : ContentId} {nodeId : String}

theorem Grows.refl (a : Services) : a.Grows a := ⟨fun _ h => h, fun _ _ h => h, fun _ _ h => h, rfl⟩

theorem Grows.trans (h : a.Grows b) (h' : b.Grows c) : a.Grows c :=
  ⟨fun chunk hk => h'.known chunk (h.known chunk hk),
    fun chunkId nodeId hr => h'.available chunkId nodeId (h.available chunkId nodeId hr),
    fun chunkId nodeId hp => h'.present chunkId nodeId (h.present chunkId nodeId hp),
    h'.sessions.trans h.sessions⟩

theorem Grows.stored (h : a.Grows b) (hs : a.Stored chunkId nodeId) : b.Stored chunkId nodeId :=
  ⟨h.present chunkId nodeId hs.1, h.available chunkId nodeId hs.2⟩

end Services

/-! ## Storage nodes -/

section

variable {env : Environment} {store store' : ChunkStore} {chunkId other : ContentId}
  {data : List UInt8}

theorem contains_put (h : LocalChunkStore.put env store chunkId data = .ok store') :
    LocalChunkStore.contains store' chunkId = true ∧
      (LocalChunkStore.contains store other = true → LocalChunkStore.contains store' other = true) := by
  unfold LocalChunkStore.put at h
  split at h
  · rename_i hcontains
    split at h
    · cases h
    · obtain rfl := Except.ok.inj h
      exact ⟨hcontains, id⟩
  · simp only [bind_eq_ok, exists_unit, failIf_eq_ok] at h
    obtain ⟨-, -, h⟩ := h
    obtain rfl := Except.ok.inj h
    refine ⟨?_, fun hother => ?_⟩
    · simp [LocalChunkStore.contains, LocalChunkStore.readFile, Table.find?_upsert,
        ChunkFile.regularBytes]
    · simp only [LocalChunkStore.contains, LocalChunkStore.readFile, Table.find?_upsert] at hother ⊢
      by_cases hid : chunkId = other
      · simp [hid, ChunkFile.regularBytes]
      · simpa only [hid, ↓reduceIte] using hother

theorem serveStorage_headChunk :
    serveStorage env store (.headChunk chunkId) =
      (.ok (.present (LocalChunkStore.contains store chunkId)), store) := rfl

theorem serveStorage_getChunk_state : (serveStorage env store (.getChunk chunkId)).2 = store := by
  cases hr : StorageNodeService.respond env store (.getChunk chunkId) with
  | error e => simp [serveStorage, StorageNodeService.handleRequest, hr]
  | ok r =>
      have hsame : r.2 = store := by
        simp only [StorageNodeService.respond, bind_eq_ok, exists_unit] at hr
        obtain ⟨-, bytes, -, hr⟩ := hr
        exact (congrArg Prod.snd (Except.ok.inj hr)).symm
      simp [serveStorage, StorageNodeService.handleRequest, hr, hsame]

theorem serveStorage_putChunk :
    (LocalChunkStore.contains store other = true →
        LocalChunkStore.contains (serveStorage env store (.putChunk chunkId data)).2 other = true) ∧
      ∀ reply, (serveStorage env store (.putChunk chunkId data)).1 = .ok reply →
        LocalChunkStore.contains (serveStorage env store (.putChunk chunkId data)).2 chunkId =
          true := by
  cases hr : StorageNodeService.respond env store (.putChunk chunkId data) with
  | error e =>
      simp [serveStorage, StorageNodeService.handleRequest, hr, Except.mapError]
  | ok r =>
      obtain ⟨reply, next⟩ := r
      have hr' := hr
      simp only [StorageNodeService.respond, bind_eq_ok, exists_unit, failIf_eq_ok,
        StorageNodeService.rethrow_eq_ok] at hr'
      obtain ⟨-, stored, hput, hnext⟩ := hr'
      obtain ⟨-, rfl⟩ := Prod.mk.inj (Except.ok.inj hnext)
      simp only [serveStorage, StorageNodeService.handleRequest, hr]
      exact ⟨(contains_put hput).2, fun _ _ => (@contains_put _ _ _ _ chunkId _ hput).1⟩

end

namespace Services

variable {env : Environment} {services : Services} {delivery : Delivery} {chunkId : ContentId}
  {nodeId : String}

def setStore (services : Services) (nodeId : String) (store : ChunkStore) : Services :=
  { services with stores := Function.update services.stores nodeId store }

theorem grows_setStore {store : ChunkStore}
    (h : ∀ other, LocalChunkStore.contains (services.stores nodeId) other = true →
      LocalChunkStore.contains store other = true) :
    services.Grows (services.setStore nodeId store) := by
  refine ⟨fun _ h => h, fun _ _ h => h, fun other otherNode hpresent => ?_, rfl⟩
  by_cases hnode : otherNode = nodeId
  · subst hnode
    simpa [Present, setStore] using h other hpresent
  · simpa [Present, setStore, hnode] using hpresent

theorem headChunk_answer {found : Bool}
    (h : StorageNodeClient.hasChunk (exchange delivery (services.stores nodeId)
      (serveStorage env (services.stores nodeId) (.headChunk chunkId))).1 = .ok found) :
    LocalChunkStore.contains (services.stores nodeId) chunkId = found := by
  simp only [StorageNodeClient.hasChunk, bind_eq_ok] at h
  obtain ⟨reply, hreply, h⟩ := h
  rw [exchange_ok hreply, serveStorage_headChunk] at hreply
  obtain rfl := Except.ok.inj hreply
  exact Except.ok.inj h

theorem headChunk_spec :
    services.Grows (services.setStore nodeId (exchange delivery (services.stores nodeId)
        (serveStorage env (services.stores nodeId) (.headChunk chunkId))).2) ∧
      (StorageNodeClient.hasChunk (exchange delivery (services.stores nodeId)
          (serveStorage env (services.stores nodeId) (.headChunk chunkId))).1 = .ok true →
        services.Present chunkId nodeId) := by
  refine ⟨grows_setStore fun other hother => ?_, headChunk_answer⟩
  exact exchange_state (P := fun store => LocalChunkStore.contains store other = true) hother
    hother

theorem putChunk_spec {data : List UInt8} :
    services.Grows (services.setStore nodeId (exchange delivery (services.stores nodeId)
        (serveStorage env (services.stores nodeId) (.putChunk chunkId data))).2) ∧
      (StorageNodeClient.putChunk (exchange delivery (services.stores nodeId)
          (serveStorage env (services.stores nodeId) (.putChunk chunkId data))).1 = .ok () →
        (services.setStore nodeId (exchange delivery (services.stores nodeId)
          (serveStorage env (services.stores nodeId) (.putChunk chunkId data))).2).Present
            chunkId nodeId) := by
  refine ⟨grows_setStore fun other hother => ?_, fun h => ?_⟩
  · exact exchange_state (P := fun store => LocalChunkStore.contains store other = true) hother
      (serveStorage_putChunk.1 hother)
  · simp only [StorageNodeClient.putChunk, bind_eq_ok] at h
    obtain ⟨reply, hreply, -⟩ := h
    have hserved := exchange_ok hreply
    rw [hserved] at hreply ⊢
    simpa [Present, setStore] using
      (@serveStorage_putChunk env (services.stores nodeId) chunkId chunkId data).2 reply hreply

/-! ## The metadata service -/

def setDb (services : Services) (db : Db) : Services := { services with db := db }

theorem grows_registerStorageLocation {location : StorageLocation}
    (h : location.state = .available) :
    services.Grows (services.setDb (exchange delivery services.db
        (serveRegisterStorageLocation env services.db location)).2) ∧
      ((exchange delivery services.db
          (serveRegisterStorageLocation env services.db location)).1 = .ok () →
        (services.setDb (exchange delivery services.db
          (serveRegisterStorageLocation env services.db location)).2).Available
            location.chunkId location.nodeId) := by
  rcases serve_cases env services.db (.registerStorageLocation location) with
    ⟨e, -, hs⟩ | ⟨reply, next, ht, hs⟩
  · have hserved : serveRegisterStorageLocation env services.db location =
        (.error (.client (.remoteApi e)), services.db) := by
      simp [serveRegisterStorageLocation, hs, Except.map, Except.mapError]
    rw [hserved]
    refine ⟨?_, fun hok => ?_⟩
    · exact exchange_state (P := fun db => services.Grows (services.setDb db)) (.refl _) (.refl _)
    · rw [exchange_ok hok] at hok
      cases hok
  · have hserved : serveRegisterStorageLocation env services.db location = (.ok (), next) := by
      simp [serveRegisterStorageLocation, hs, Except.map, Except.mapError]
    have hregister := (done_eq_ok.mp ht).1
    simp only [registerStorageLocation, bind_eq_ok, exists_unit, failIf_eq_ok] at hregister
    obtain ⟨-, -, -, -, -, hregister⟩ := hregister
    obtain rfl := Except.ok.inj hregister
    rw [hserved]
    refine ⟨?_, fun hok => ?_⟩
    · refine exchange_state (P := fun db => services.Grows (services.setDb db)) (.refl _) ?_
      refine ⟨fun _ h => h, fun chunkId nodeId havailable => ?_, fun _ _ h => h, rfl⟩
      simp only [Available, setDb, Table.find?_upsert]
      by_cases hkey : location.locationKey = (chunkId, nodeId)
      · exact ⟨location.stored, by simp [hkey], h⟩
      · simpa only [StorageLocation.stored_locationKey, hkey, ↓reduceIte, Available] using havailable
    · rw [exchange_ok hok]
      exact ⟨location.stored, by simp [setDb, Table.find?_upsert, StorageLocation.locationKey], h⟩

/-- A negotiation without a conflict: every entry is recorded with its size, and
names only nodes that have an available location. -/
theorem negotiateChunks_spec {db : Db} {chunks : List ChunkMetadata} {batch : ChunkNegotiationBatch}
    (h : negotiateChunks env services.db chunks = .ok (batch, db)) (hconflict : batch.conflict = none) :
    services.Grows (services.setDb db) ∧
      ∀ entry ∈ batch.chunks, (services.setDb db).Known entry.chunk ∧
        ∀ nodeId ∈ entry.availableNodeIds, services.Available entry.chunk.chunkId nodeId := by
  simp only [negotiateChunks, bind_eq_ok] at h
  obtain ⟨distinct, -, conflict, -, h⟩ := h
  cases conflict with
  | some c =>
      obtain ⟨rfl, -⟩ := Prod.mk.inj (Except.ok.inj h)
      cases hconflict
  | none =>
      simp only at h
      split at h
      · obtain ⟨rfl, -⟩ := Prod.mk.inj (Except.ok.inj h)
        cases hconflict
      · rename_i hsizes
        obtain ⟨rfl, rfl⟩ := Prod.mk.inj (Except.ok.inj h)
        refine ⟨⟨fun chunk hknown => find?_insertChunks hknown, fun _ _ h => h, fun _ _ h => h, rfl⟩,
          fun entry hentry => ?_⟩
        obtain ⟨chunk, hchunk, rfl⟩ := List.mem_map.mp hentry
        refine ⟨?_, fun nodeId hnode => ?_⟩
        · obtain ⟨row, hrow⟩ : ∃ row, (insertChunks services.db (distinct.filter fun chunk =>
              !(services.db.chunks.find? chunk.chunkId).isSome)).chunks.find? chunk.chunkId =
                some row := by
            cases hfind : services.db.chunks.find? chunk.chunkId with
            | some row => exact ⟨row, find?_insertChunks hfind⟩
            | none => exact find?_insertChunks_new (List.mem_filter.mpr ⟨hchunk, by simp [hfind]⟩)
          have hsize := List.findSome?_eq_none_iff.mp hsizes chunk hchunk
          rw [hrow] at hsize
          simp only [Option.bind_some, ite_eq_left_iff, reduceCtorEq, imp_false,
            Decidable.not_not] at hsize
          have hid : row.chunkId = chunk.chunkId := Table.key_of_find? hrow
          have heq : row = chunk := by
            cases row
            cases chunk
            simp_all
          exact heq ▸ hrow
        · obtain ⟨location, hlocation, rfl⟩ := List.mem_map.mp hnode
          obtain ⟨hmem, hstate⟩ := List.mem_filter.mp (Environment.mem_orderByText.mp hlocation)
          simp only [Bool.and_eq_true, decide_eq_true_eq] at hstate
          refine ⟨location, ?_, hstate.2⟩
          rw [← hstate.1]
          exact Table.find?_of_mem hmem

theorem serveNegotiateChunks_spec {sessionId : UuidV7} {chunks : List ChunkMetadata} :
    let answer := exchange delivery services.db
      (serveNegotiateChunks env services.db sessionId chunks)
    services.Grows (services.setDb answer.2) ∧
      ∀ result, MetadataClient.negotiateChunks sessionId answer.1 = .ok result →
        ∀ entry ∈ result.chunks, (services.setDb answer.2).Known entry.chunk ∧
          ∀ nodeId ∈ entry.availableNodeIds, services.Available entry.chunk.chunkId nodeId := by
  intro answer
  cases hr : handleNegotiateChunks env services.db sessionId chunks with
  | error e =>
      have hserved : serveNegotiateChunks env services.db sessionId chunks =
          (.error (.negotiation e), services.db) := by simp [serveNegotiateChunks, hr]
      refine ⟨exchange_state (P := fun db => services.Grows (services.setDb db)) (.refl _)
        (by rw [hserved]; exact .refl _), fun result hresult => ?_⟩
      simp only [MetadataClient.negotiateChunks, bind_eq_ok] at hresult
      obtain ⟨body, hbody, -⟩ := hresult
      have hanswer : answer = (.error (.negotiation e), services.db) :=
        (exchange_ok hbody).trans hserved
      rw [hanswer] at hbody
      cases hbody
  | ok r =>
      obtain ⟨body, db⟩ := r
      have hserved : serveNegotiateChunks env services.db sessionId chunks = (.ok body, db) := by
        simp [serveNegotiateChunks, hr]
      simp only [handleNegotiateChunks, bind_eq_ok, exists_unit] at hr
      obtain ⟨-, -, -, stored, -, row, -, -, ⟨batch, next⟩, hbatch, hr⟩ := hr
      have hnegotiate : negotiateChunks env services.db chunks = .ok (batch, next) := by
        cases hn : negotiateChunks env services.db chunks with
        | error e => simp [hn, Except.mapError] at hbatch
        | ok r => simpa [hn, Except.mapError] using hbatch
      cases hconflict : batch.conflict with
      | some conflict => simp [hconflict] at hr
      | none =>
          simp only [hconflict] at hr
          obtain ⟨rfl, rfl⟩ := Prod.mk.inj (Except.ok.inj hr)
          obtain ⟨hgrows, hentries⟩ := negotiateChunks_spec hnegotiate hconflict
          refine ⟨exchange_state (P := fun db => services.Grows (services.setDb db)) (.refl _)
            (by rw [hserved]; exact hgrows), fun result hresult => ?_⟩
          simp only [MetadataClient.negotiateChunks, bind_eq_ok, exists_unit] at hresult
          obtain ⟨body, hbody, -, -, -, hresult⟩ := hresult
          have hanswer := (exchange_ok hbody).trans hserved
          change answer = _ at hanswer
          rw [hanswer] at hbody ⊢
          obtain rfl := Except.ok.inj hbody
          obtain rfl := Except.ok.inj hresult
          intro entry hentry
          obtain ⟨original, horiginal, rfl⟩ := List.mem_map.mp hentry
          exact hentries original horiginal

end Services

end AiArtifactStore.Client
