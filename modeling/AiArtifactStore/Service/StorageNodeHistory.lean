import AiArtifactStore.Foundation.JsonCode
import AiArtifactStore.Metadata.Histories
import AiArtifactStore.Service.StorageNodeCalls

/-!
# What requests do to a chunk store

Whatever requests a storage node gets, well formed or not, a chunk that it has
acknowledged is served with bytes of its id until a request deletes it.
-/

namespace AiArtifactStore.Service

open AiArtifactStore.Foundation
open AiArtifactStore.Identity
open AiArtifactStore.Metadata
open AiArtifactStore.Storage

/-! ## Served chunks -/

section

variable {env : Environment} {store next : ChunkStore} {chunkId other : ContentId}

def Serves (env : Environment) (store : ChunkStore) (chunkId : ContentId) : Prop :=
  ∃ bytes, LocalChunkStore.get env store chunkId = .ok bytes

theorem get_eq_ok {bytes : List UInt8} :
    LocalChunkStore.get env store chunkId = .ok bytes ↔
      LocalChunkStore.readFile store chunkId = some bytes ∧ env.contentId bytes = chunkId := by
  simp only [LocalChunkStore.get, bind_eq_ok, exists_unit, orFail_eq_ok, failIf_eq_ok, not_not]
  constructor
  · rintro ⟨data, hread, hid, hdata⟩
    obtain rfl := Except.ok.inj hdata
    exact ⟨hread, hid⟩
  · rintro ⟨hread, hid⟩
    exact ⟨bytes, hread, hid, rfl⟩

theorem Serves.contains (h : Serves env store chunkId) :
    LocalChunkStore.contains store chunkId = true := by
  obtain ⟨bytes, hget⟩ := h
  rw [LocalChunkStore.contains, (get_eq_ok.mp hget).1]
  rfl

theorem readFile_congr (h : store.find? chunkId = next.find? chunkId) :
    LocalChunkStore.readFile store chunkId = LocalChunkStore.readFile next chunkId := by
  rw [LocalChunkStore.readFile, LocalChunkStore.readFile, h]

theorem Serves.congr (h : Serves env store chunkId)
    (hfind : store.find? chunkId = next.find? chunkId) : Serves env next chunkId := by
  obtain ⟨bytes, hget⟩ := h
  obtain ⟨hread, hid⟩ := get_eq_ok.mp hget
  exact ⟨bytes, get_eq_ok.mpr ⟨readFile_congr hfind ▸ hread, hid⟩⟩

theorem serves_put {data : List UInt8}
    (h : LocalChunkStore.put env store chunkId data = .ok next) :
    Serves env next chunkId ∧ (Serves env store other → Serves env next other) := by
  rw [LocalChunkStore.put] at h
  split at h
  · cases hget : LocalChunkStore.get env store chunkId with
    | error e => simp [hget] at h
    | ok bytes =>
        simp only [hget] at h
        obtain rfl := Except.ok.inj h
        exact ⟨⟨bytes, hget⟩, id⟩
  · rename_i hcontains
    simp only [bind_eq_ok, exists_unit, failIf_eq_ok, not_not] at h
    obtain ⟨hid, -, h⟩ := h
    obtain rfl := Except.ok.inj h
    have hstored : Serves env (store.upsert ⟨chunkId, .regular data⟩) chunkId := by
      refine ⟨data, get_eq_ok.mpr ⟨?_, hid⟩⟩
      rw [LocalChunkStore.readFile, Table.find?_upsert, if_pos rfl]
      rfl
    refine ⟨hstored, fun hother => ?_⟩
    by_cases hne : chunkId = other
    · exact hne ▸ hstored
    · refine hother.congr ?_
      rw [Table.find?_upsert]
      exact (if_neg hne).symm

theorem serves_remove {deleted : Bool} (hne : chunkId ≠ other)
    (h : LocalChunkStore.remove store chunkId = .ok (deleted, next))
    (hother : Serves env store other) : Serves env next other := by
  have hsame := (LocalChunkStore.remove_ok h).1
  refine hother.congr ?_
  cases hfind : store.find? other with
  | none =>
      symm
      rw [Table.find?_eq_none] at hfind ⊢
      intro entry hentry hid
      exact hfind entry ((hsame entry (hid ▸ hne.symm)).mp hentry) hid
  | some entry =>
      obtain ⟨hmem, rfl⟩ := Table.find?_eq_some.mp hfind
      exact (Table.find?_of_mem ((hsame entry hne.symm).mpr hmem)).symm

end

/-! ## Requests -/

section

variable {json : JsonLibrary (List UInt8)} {env : Environment} {nodeId : String} {limit : Nat}
  {store : ChunkStore} {chunkId : ContentId} {request : NodeRequest}

theorem handleRequest_cases :
    (∃ chunkId, NamesChunk request chunkId) ∨
      ∀ response next, NodeService.handleRequest json env nodeId request store =
        .ok (response, next) → next = store := by
  rw [NodeService.handleRequest]
  split
  · refine .inr fun response next h => ?_
    split at h <;> exact (Prod.mk.inj (Except.ok.inj h)).2.symm
  · cases hsplit : NodeService.splitPathAndQuery request.target with
    | mk path query =>
        simp only
        split
        · refine .inr fun response next h => ?_
          obtain ⟨page, -, hpage⟩ := map_eq_ok.mp h
          exact (Prod.mk.inj hpage).2.symm
        · cases hprefix : path.dropPrefix? kChunkRoutePrefix with
          | none => exact .inr fun response next h => (Prod.mk.inj (Except.ok.inj h)).2.symm
          | some chunkIdText =>
              cases hid : contentId? chunkIdText with
              | none =>
                  simp only [hid]
                  exact .inr fun response next h => (Prod.mk.inj (Except.ok.inj h)).2.symm
              | some chunkId =>
                  have htext : chunkIdText = chunkId.hexCharacters := by
                    have hhex := ContentId.hex_of_ofHex? hid
                    rw [ContentId.hex] at hhex
                    exact (String.ofList_injective hhex).symm
                  refine .inl ⟨chunkId, ?_⟩
                  rw [NamesChunk, hsplit, NodeClient.chunkTarget, ← htext]
                  exact dropPrefix?_eq_some.mp hprefix

theorem namesChunk_unique {other : ContentId} (h : NamesChunk request chunkId)
    (h' : NamesChunk request other) : chunkId = other := by
  have htext := List.append_cancel_left (h.symm.trans h')
  exact ContentId.hex_injective (congrArg String.ofList htext)

theorem handleChunk_serves {response : NodeResponse} {next : ChunkStore} {other : ContentId}
    (h : NodeService.handleChunk json env request store chunkId = .ok (response, next))
    (hdelete : request.method = .delete → chunkId ≠ other) (hother : Serves env store other) :
    Serves env next other := by
  rw [NodeService.handleChunk] at h
  cases hmethod : request.method with
  | head =>
      simp only [hmethod] at h
      split at h <;> exact (Prod.mk.inj (Except.ok.inj h)).2 ▸ hother
  | put =>
      simp only [hmethod] at h
      split at h
      · exact (Prod.mk.inj (Except.ok.inj h)).2 ▸ hother
      split at h
      · exact (Prod.mk.inj (Except.ok.inj h)).2 ▸ hother
      · obtain ⟨stored, hput, h⟩ := bind_eq_ok.mp h
        exact (Prod.mk.inj (Except.ok.inj h)).2 ▸ (serves_put hput).2 hother
  | get =>
      simp only [hmethod] at h
      split at h
      · exact (Prod.mk.inj (Except.ok.inj h)).2 ▸ hother
      · obtain ⟨bytes, -, h⟩ := bind_eq_ok.mp h
        exact (Prod.mk.inj (Except.ok.inj h)).2 ▸ hother
  | delete =>
      simp only [hmethod] at h
      obtain ⟨⟨deleted, removed⟩, hremove, h⟩ := bind_eq_ok.mp h
      exact (Prod.mk.inj (Except.ok.inj h)).2 ▸ serves_remove (hdelete hmethod) hremove hother
  | other =>
      simp only [hmethod] at h
      exact (Prod.mk.inj (Except.ok.inj h)).2 ▸ hother

def DeletesChunk (request : NodeRequest) (chunkId : ContentId) : Prop :=
  request.method = .delete ∧ NamesChunk request chunkId

theorem serve_cases :
    (∃ response next,
      NodeService.handleRequest json env nodeId request store = .ok (response, next) ∧
        NodeService.serve json env nodeId request store limit = (response, next)) ∨
      ((NodeService.serve json env nodeId request store limit).1.status = 413 ∨
        (NodeService.serve json env nodeId request store limit).1.status = 500) ∧
        (NodeService.serve json env nodeId request store limit).2 = store := by
  rw [NodeService.serve]
  split
  · exact .inr ⟨.inl rfl, rfl⟩
  · cases hhandle : NodeService.handleRequest json env nodeId request store with
    | error e => exact .inr ⟨.inr rfl, rfl⟩
    | ok r => exact .inl ⟨r.1, r.2, rfl, rfl⟩

theorem serve_serves (hdelete : ¬DeletesChunk request chunkId) (h : Serves env store chunkId) :
    Serves env (NodeService.serve json env nodeId request store limit).2 chunkId := by
  rcases @serve_cases json env nodeId limit store request with
    ⟨response, next, hhandle, hserve⟩ | ⟨-, hsame⟩
  · rw [hserve]
    rcases @handleRequest_cases json env nodeId store request with ⟨named, hnames⟩ | hunchanged
    · rw [handleRequest_named hnames] at hhandle
      refine handleChunk_serves hhandle (fun hmethod hsame => ?_) h
      exact hdelete ⟨hmethod, hsame ▸ hnames⟩
    · rw [hunchanged response next hhandle]
      exact h
  · rw [hsame]
    exact h

theorem serves_of_acknowledged (hmethod : request.method = .put)
    (hnames : NamesChunk request chunkId)
    (hstatus : (NodeService.serve json env nodeId request store limit).1.status = 204) :
    Serves env (NodeService.serve json env nodeId request store limit).2 chunkId := by
  rcases @serve_cases json env nodeId limit store request with
    ⟨response, next, hhandle, hserve⟩ | ⟨hstatus', -⟩
  · rw [hserve] at hstatus ⊢
    rw [handleRequest_named hnames, NodeService.handleChunk, hmethod] at hhandle
    simp only at hhandle
    split at hhandle
    · obtain ⟨rfl, -⟩ := Prod.mk.inj (Except.ok.inj hhandle)
      cases hstatus
    split at hhandle
    · obtain ⟨rfl, -⟩ := Prod.mk.inj (Except.ok.inj hhandle)
      cases hstatus
    · obtain ⟨stored, hput, hhandle⟩ := bind_eq_ok.mp hhandle
      obtain ⟨-, rfl⟩ := Prod.mk.inj (Except.ok.inj hhandle)
      exact (@serves_put _ _ _ _ chunkId _ hput).1
  · rw [hstatus] at hstatus'
    rcases hstatus' with hstatus' | hstatus' <;> cases hstatus'

theorem serve_get (hmethod : request.method = .get) (hnames : NamesChunk request chunkId)
    (hbody : request.body.length ≤ limit) (h : Serves env store chunkId) :
    ∃ bytes, env.contentId bytes = chunkId ∧
      (NodeService.serve json env nodeId request store limit).1 =
        { status := 200, contentType := some NodeService.kOctetStream, body := bytes } := by
  have hcontains := h.contains
  obtain ⟨bytes, hget⟩ := h
  refine ⟨bytes, (get_eq_ok.mp hget).2, ?_⟩
  have hhandle : NodeService.handleChunk json env request store chunkId = .ok
      ({ status := 200, contentType := some NodeService.kOctetStream, body := bytes }, store) := by
    simp only [NodeService.handleChunk, hmethod, hcontains, hget, ok_bind, Bool.true_eq_false,
      if_false]
  rw [NodeService.serve, if_neg (Nat.not_lt.mpr hbody), handleRequest_named hnames, hhandle]

/-- The store after requests that are served one after another. -/
def serveAll (json : JsonLibrary (List UInt8)) (env : Environment) (nodeId : String) (limit : Nat)
    (store : ChunkStore) (requests : List NodeRequest) : ChunkStore :=
  requests.foldl (fun store request => (NodeService.serve json env nodeId request store limit).2)
    store

theorem serveAll_serves {requests : List NodeRequest}
    (hdelete : ∀ request ∈ requests, ¬DeletesChunk request chunkId)
    (h : Serves env store chunkId) :
    Serves env (serveAll json env nodeId limit store requests) chunkId := by
  induction requests generalizing store with
  | nil => exact h
  | cons request requests ih =>
      exact ih (fun other hother => hdelete other (List.mem_cons_of_mem _ hother))
        (serve_serves (hdelete request List.mem_cons_self) h)

/-- A chunk whose put the node has acknowledged is served with bytes of its id, whatever
requests come in between, unless one of them deletes this chunk. -/
theorem acknowledged_chunk_served {put get : NodeRequest} {later : List NodeRequest}
    (hput : put.method = .put) (hputNames : NamesChunk put chunkId)
    (hacknowledged : (NodeService.serve json env nodeId put store limit).1.status = 204)
    (hlater : ∀ request ∈ later, ¬DeletesChunk request chunkId)
    (hget : get.method = .get) (hgetNames : NamesChunk get chunkId)
    (hgetBody : get.body.length ≤ limit) :
    ∃ bytes, env.contentId bytes = chunkId ∧
      (NodeService.serve json env nodeId get (serveAll json env nodeId limit
        (NodeService.serve json env nodeId put store limit).2 later) limit).1 =
          { status := 200, contentType := some NodeService.kOctetStream, body := bytes } :=
  serve_get hget hgetNames hgetBody
    (serveAll_serves hlater (serves_of_acknowledged hput hputNames hacknowledged))

end

/-- A stored chunk is read after a second one was put and deleted. -/
theorem acknowledged_chunk_served_sample :
    ∃ bytes, Metadata.Sample.env.contentId bytes = Metadata.Sample.chunkId ∧
      (NodeService.serve treeJson Metadata.Sample.env "n1"
        (NodeClient.encode (.getChunk Metadata.Sample.chunkId))
        (serveAll treeJson Metadata.Sample.env "n1" 8
          (NodeService.serve treeJson Metadata.Sample.env "n1"
            (NodeClient.encode (.putChunk Metadata.Sample.chunkId [97])) Table.empty 8).2
          [NodeClient.encode (.putChunk Metadata.Sample.orphanId [98]),
           NodeClient.encode (.deleteChunk Metadata.Sample.orphanId)]) 8).1 =
          { status := 200, contentType := some NodeService.kOctetStream, body := bytes } := by
  have hnames : ∀ call chunkId, (NodeClient.encode call).target = NodeClient.chunkTarget chunkId →
      NamesChunk (NodeClient.encode call) chunkId := fun _ _ => namesChunk_chunkTarget
  have hacknowledged : (NodeService.serve treeJson Metadata.Sample.env "n1"
      (NodeClient.encode (.putChunk Metadata.Sample.chunkId [97])) Table.empty 8).1.status = 204 := by
    have hanswer : (StorageNodeService.handleRequest Metadata.Sample.env Table.empty
        (.putChunk Metadata.Sample.chunkId [97])).1 = .ok .noContent := by decide
    have hpage : AsksPage (.putChunk Metadata.Sample.chunkId [97]) := trivial
    rw [serve_encode treeJson Metadata.Sample.env "n1" Table.empty hpage (by decide), hanswer]
    rfl
  have hlater : ∀ request ∈ [NodeClient.encode (.putChunk Metadata.Sample.orphanId [98]),
      NodeClient.encode (.deleteChunk Metadata.Sample.orphanId)],
      ¬DeletesChunk request Metadata.Sample.chunkId := by
    intro request hrequest hdeletes
    simp only [List.mem_cons, List.not_mem_nil, or_false] at hrequest
    rcases hrequest with rfl | rfl
    · cases hdeletes.1
    · have hsame := namesChunk_unique hdeletes.2 (hnames _ Metadata.Sample.orphanId rfl)
      exact absurd hsame (by decide)
  exact acknowledged_chunk_served rfl (hnames _ _ rfl) hacknowledged hlater rfl (hnames _ _ rfl)
    (by decide)

end AiArtifactStore.Service
