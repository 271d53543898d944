import AiArtifactStore.Gc.System

/-!
# Live chunks and the deletes of GC engines

An engine whose run is open deletes no live chunk.  The `DELETE` itself carries
no run, so an engine that stalls until another one has completed the run does
not have this protection.
-/

namespace AiArtifactStore.Gc

open AiArtifactStore.Foundation
open AiArtifactStore.Identity
open AiArtifactStore.Metadata
open AiArtifactStore.Storage
open AiArtifactStore.Client
open Relation

/-- The chunk belongs to the layout of a finalized version that is not retired,
and its replica on the node is recorded `Available`. -/
structure Protected (db : Db) (chunkId : ContentId) (nodeId : String) : Prop where
  finalized : ∃ finalization ∈ db.finalizations, ∃ versionId,
    db.finalizedVersionOf finalization.sessionId = some versionId ∧ ¬db.Retired versionId ∧
      ∃ layout ∈ db.objectLayouts, finalization.layoutId = some layout.layoutId ∧
        layout.containsChunk chunkId = true
  available : ∃ location ∈ db.storageLocations, location.chunkId = chunkId ∧
    location.nodeId = nodeId ∧ location.state = .available

theorem Protected.liveChunk {db : Db} {chunkId : ContentId} {nodeId : String}
    (h : Protected db chunkId nodeId) : db.LiveChunk chunkId := by
  obtain ⟨finalization, hfinalization, versionId, hversion, hretired, layout, hlayout, hid,
    hchunk⟩ := h.finalized
  exact ⟨layout, hlayout, hchunk,
    .inr ⟨finalization, hfinalization, hid, versionId, hversion, hretired⟩⟩

/-! ## Sample runs -/

namespace Sample

open Metadata.Sample

def secondSession : UploadSession :=
  { session with
    sessionId := uuid 7
    valid := by decide +kernel }

/-- What a push of the byte `a` sends up to its finalization. -/
def uploadOps (session : UploadSession) : List SystemOp :=
  [.metadata (.createUploadSession ⟨session, .open⟩),
   .metadata (.negotiateChunks [⟨chunkId, 1⟩]),
   .storage "n1" (.putChunk chunkId (asciiBytes ['a'])),
   .metadata (.registerStorageLocation location)]

def setupOps : List SystemOp :=
  [.metadata (.createArtifact artifact), .metadata (.registerStorageNode node)]

/-- A version is pushed and another chunk stored.  An engine has classified both. -/
def collectingOps : List SystemOp :=
  setupOps ++ uploadOps session ++ [.metadata (.finalizeUpload 0 session.sessionId descriptor),
    .storage "n1" (.putChunk orphanId (asciiBytes ['b'])),
    .collect engine request, .gcRequest 0, .gcRequest 0, .gcRequest 0]

def collecting : System := System.afterOps env (.initial fun _ => .empty) collectingOps

/-- A push is aborted.  One engine classifies its chunk and stalls; another one
drives the same run to its end.  Then the content is pushed again. -/
def stalledOps : List SystemOp :=
  setupOps ++ uploadOps session ++ [.metadata (.abortUploadSession session.sessionId)] ++
    [.collect engine request, .gcRequest 0, .gcRequest 0, .gcRequest 0] ++
    [.collect engine request, .gcRequest 1, .gcRequest 1, .gcRequest 1, .gcRequest 1,
      .gcRequest 1] ++
    uploadOps secondSession ++
    [.metadata (.finalizeUpload 0 secondSession.sessionId descriptor)]

def stalled : System := System.afterOps env (.initial fun _ => .empty) stalledOps

theorem protected_of_rows {db : Db} {sessionId : UuidV7}
    (hfinalization : ⟨sessionId, some (descriptor.layoutId env)⟩ ∈ db.finalizations)
    (hversion : db.finalizedVersionOf sessionId = some versionId)
    (hretired : db.isVersionRetired versionId = false)
    (hlayout : (db.objectLayouts.rows.any fun layout =>
      layout.layoutId = descriptor.layoutId env && layout.containsChunk chunkId) = true)
    (hlocation : location ∈ db.storageLocations) : Protected db chunkId "n1" := by
  obtain ⟨layout, hmem, hcondition⟩ := List.any_eq_true.mp hlayout
  simp only [Bool.and_eq_true, decide_eq_true_eq] at hcondition
  exact ⟨⟨_, hfinalization, versionId, hversion, Db.isVersionRetired_eq_false.mp hretired,
    layout, hmem, congrArg some hcondition.1.symm, hcondition.2⟩, location, hlocation, rfl, rfl, rfl⟩

end Sample

section

variable {env : Environment} {db : Db} {engine : GcEngine} {request : GcRequest}

/-! ## What an engine will delete -/

theorem pending_finish {stats : GcPhysicalStats} : (GcEngine.finish stats).pending = [] := by
  unfold GcEngine.finish GcEngine.andThen
  split <;> rfl

theorem pending_nextPage {after : Option ContentId} {page : StoredChunkPage}
    {stats : GcPhysicalStats} : (GcEngine.nextPage after page stats).pending = [] := by
  unfold GcEngine.nextPage
  split
  · exact pending_finish
  · split <;> rfl

theorem pending_listed {after : Option ContentId} {page : StoredChunkPage}
    {stats : GcPhysicalStats} : (GcEngine.listed after stats page).pending = [] := by
  unfold GcEngine.listed
  split
  · split
    · rfl
    · exact pending_finish
  · unfold GcEngine.scanPage
    split
    · rfl
    · split
      · rfl
      · unfold GcEngine.andThen
        split <;> rfl

theorem pending_started {run : GcRun} : (engine.started request run).pending = [] := by
  unfold GcEngine.started
  split
  · split <;> rfl
  · rfl

theorem pending_takeDecisions {after : Option ContentId} {page : StoredChunkPage}
    {rest : List (GcChunkDecision × StoredChunkInfo)} {stats : GcPhysicalStats}
    {chunkId : ContentId}
    (h : chunkId ∈ (GcEngine.takeDecisions request after page rest stats).pending) :
    ∃ p ∈ rest, p.1.collectible = true ∧ p.2.chunkId = chunkId := by
  induction rest generalizing stats with
  | nil =>
      rw [GcEngine.takeDecisions, pending_nextPage] at h
      cases h
  | cons head rest ih =>
      obtain ⟨decision, info⟩ := head
      have hrest : ∀ stats,
          chunkId ∈ (GcEngine.takeDecisions request after page rest stats).pending →
            ∃ p ∈ (decision, info) :: rest, p.1.collectible = true ∧ p.2.chunkId = chunkId := by
        intro stats hmem
        obtain ⟨p, hp, hdecision⟩ := ih hmem
        exact ⟨p, List.mem_cons_of_mem _ hp, hdecision⟩
      unfold GcEngine.takeDecisions at h
      split at h
      · cases h
      · split at h
        · exact hrest _ h
        · rename_i hcollectible
          split at h
          · exact hrest _ h
          · rcases List.mem_cons.mp h with rfl | h
            · exact ⟨_, List.mem_cons_self, by simpa using hcollectible, rfl⟩
            · obtain ⟨p, hp, rfl⟩ := List.mem_map.mp h
              obtain ⟨hmem, hdecision⟩ := List.mem_filter.mp hp
              exact ⟨p, List.mem_cons_of_mem _ hmem, hdecision, rfl⟩

/-! ## One request of an engine -/

theorem settled_step {store : ChunkStore} {s : GcState} (h : Settled db ⟨engine, request, s⟩) :
    Settled (engine.step request env (⟨db, store⟩, s)).1.db
      ⟨engine, request, (engine.step request env (⟨db, store⟩, s)).2⟩ := by
  cases s with
  | start =>
      intro hrun
      simp only [GcEngine.step, GcEngine.message, serveMessage, GcEngine.receive,
        GcEngine.andThen] at hrun ⊢
      split at hrun
      · cases hrun
      · rename_i run hresponse
        refine ⟨run, ?_, fun _ chunkId hchunk => ?_⟩
        · rcases startGcRun_ok (MetadataClient.startGcRun_response hresponse) with
            ⟨hdb, hfind, -, -⟩ | ⟨hstarts, rfl, hdb⟩
          · rw [hdb]
            exact hfind
          · rw [hdb]
            exact Table.find?_of_mem (Table.mem_insert_new hstarts.fresh)
        · rw [pending_started] at hchunk
          cases hchunk
  | list after stats =>
      intro _
      obtain ⟨run, hfind, -⟩ := h trivial
      refine ⟨run, hfind, fun _ chunkId hchunk => ?_⟩
      simp only [GcEngine.step, GcEngine.message, GcEngine.receive, GcEngine.andThen] at hchunk
      split at hchunk
      · cases hchunk
      · rw [pending_listed] at hchunk
        cases hchunk
  | classify after page stats =>
      intro _
      obtain ⟨run, hfind, -⟩ := h trivial
      have hdb : (engine.step request env (⟨db, store⟩, .classify after page stats)).1.db = db :=
        serve_classifyGcChunks_db
      rw [hdb]
      refine ⟨run, hfind, fun _ chunkId hchunk => ?_⟩
      simp only [GcEngine.step, GcEngine.message, serveMessage, GcEngine.receive,
        GcEngine.andThen] at hchunk
      split at hchunk
      · cases hchunk
      · rename_i decisions hresponse
        have hdecisions := classifyGcChunks_ok (MetadataClient.classifyGcChunks_response hresponse)
        unfold GcEngine.classified at hchunk
        split at hchunk
        · cases hchunk
        · obtain ⟨p, hp, hcollectible, rfl⟩ := pending_takeDecisions hchunk
          rw [hdecisions, zip_decisions] at hp
          obtain ⟨info, -, rfl⟩ := List.mem_map.mp hp
          exact Db.isLiveChunk_eq_false.mp (by simpa using hcollectible)
  | delete after page info rest stats =>
      intro _
      obtain ⟨run, hfind, hdead⟩ := h trivial
      refine ⟨run, hfind, fun hopen chunkId hchunk => hdead hopen chunkId ?_⟩
      simp only [GcEngine.step, GcEngine.message, GcEngine.receive, GcEngine.andThen] at hchunk
      split at hchunk
      · cases hchunk
      · obtain ⟨p, hp, hcollectible, rfl⟩ := pending_takeDecisions hchunk
        exact List.mem_cons_of_mem _
          (List.mem_map.mpr ⟨p, List.mem_filter.mpr ⟨hp, hcollectible⟩, rfl⟩)
  | complete stats =>
      intro hrun
      simp only [GcEngine.step, GcEngine.message, GcEngine.receive, GcEngine.andThen] at hrun
      split at hrun <;> cases hrun
  | returned run => exact h
  | threw e => exact h

/-- An engine whose run is open leaves the file of a live chunk alone. -/
theorem step_keeps_live {store : ChunkStore} {s : GcState} {run : GcRun} {chunkId : ContentId}
    (h : Settled db ⟨engine, request, s⟩) (hrun : db.gcRuns.find? request.runId = some run)
    (hopen : run.state = .open) (hlive : db.LiveChunk chunkId) :
    (engine.step request env (⟨db, store⟩, s)).1.store.find? chunkId = store.find? chunkId := by
  cases s with
  | list after stats =>
      simp only [GcEngine.step, GcEngine.message, serveMessage,
        StorageNodeService.handleRequest_listChunks]
  | delete after page info rest stats =>
      obtain ⟨run', hfind, hdead⟩ := h trivial
      obtain rfl := Option.some.inj (hrun.symm.trans hfind)
      have hne : info.chunkId ≠ chunkId := by
        rintro rfl
        exact hdead hopen _ List.mem_cons_self hlive
      exact StorageNodeService.find?_deleteChunk_of_ne hne
  | _ => rfl

/-! ## Runs of the system -/

theorem step_db (world : World) (s : GcState) :
    (engine.step request env (world, s)).1.db = world.db ∨
      ∃ op, (engine.step request env (world, s)).1.db = (serve env world.db op).2 := by
  unfold GcEngine.step
  cases GcEngine.message engine request s with
  | none => exact .inl rfl
  | some m =>
      cases m with
      | metadata op => exact .inr ⟨op, rfl⟩
      | storage storageRequest => exact .inl rfl

structure Sound (env : Environment) (s : System) : Prop where
  reachable : Metadata.Reachable env s.db
  settled : ∀ client ∈ s.clients, Settled s.db client

theorem Sound.serve {s : System} (h : Sound env s) (op : ServiceOp) {client : GcClient}
    (hclient : client ∈ s.clients) : Settled (Metadata.serve env s.db op).2 client :=
  settled_effect (serve_effect env s.db op) (exclusive_of_reachable h.reachable)
    (h.settled client hclient)

theorem sound_serveClient {s : System} (h : Sound env s) {index : Nat} {client : GcClient}
    (hclient : s.clients[index]? = some client) : Sound env (s.serveClient env index client) := by
  have hmem : client ∈ s.clients := List.mem_of_getElem? hclient
  have hself := @settled_step env _ _ _ (s.stores client.engine.storageNodeId) _
    (h.settled client hmem)
  have hothers : ∀ other ∈ s.clients, Settled (s.serveClient env index client).db other := by
    intro other hother
    rcases @step_db env client.engine client.request
      ⟨s.db, s.stores client.engine.storageNodeId⟩ client.state with hdb | ⟨op, hdb⟩
    · simp only [System.serveClient, hdb]
      exact h.settled other hother
    · simp only [System.serveClient, hdb]
      exact h.serve op hother
  constructor
  · rcases @step_db env client.engine client.request
      ⟨s.db, s.stores client.engine.storageNodeId⟩ client.state with hdb | ⟨op, hdb⟩
    · simp only [System.serveClient, hdb]
      exact h.reachable
    · simp only [System.serveClient, hdb]
      exact h.reachable.serve
  · intro other hother
    rcases List.mem_or_eq_of_mem_set hother with hother | rfl
    · exact hothers other hother
    · exact hself

theorem sound_step {s s' : System} (hstep : System.Step env s s') (h : Sound env s) :
    Sound env s' := by
  obtain ⟨op, -, rfl⟩ := hstep
  cases op with
  | metadata op => exact ⟨h.reachable.serve, fun client hclient => h.serve op hclient⟩
  | storage nodeId storageRequest => exact ⟨h.reachable, h.settled⟩
  | collect engine request =>
      refine ⟨h.reachable, fun client hclient => ?_⟩
      rcases List.mem_append.mp hclient with hclient | hclient
      · exact h.settled client hclient
      · rw [List.mem_singleton.mp hclient]
        intro hrun
        simp only [GcEngine.collect] at hrun
        split at hrun <;> cases hrun
  | gcRequest index =>
      simp only [System.apply]
      cases hclient : s.clients[index]? with
      | none => exact h
      | some client => exact sound_serveClient h hclient
  | gcCrash index =>
      exact ⟨h.reachable, fun client hclient =>
        h.settled client (List.mem_of_mem_eraseIdx hclient)⟩

theorem sound_of_reachable {s : System} (h : System.Reachable env s) : Sound env s := by
  obtain ⟨stores, hrun⟩ := h
  have hinitial : Sound env (System.initial stores) :=
    ⟨.refl, fun client hclient => absurd hclient List.not_mem_nil⟩
  exact invariant_of_step (P := Sound env) (fun _ _ => sound_step) hrun hinitial

/-- In every reachable system, a request of an engine whose run is open leaves
the file of a protected chunk alone. -/
theorem collect_keeps_live {s : System} {index : Nat} {client : GcClient} {run : GcRun}
    {chunkId : ContentId} {nodeId : String} (h : System.Reachable env s)
    (hclient : s.clients[index]? = some client)
    (hrun : s.db.gcRuns.find? client.request.runId = some run) (hopen : run.state = .open)
    (hprotected : Protected s.db chunkId nodeId) :
    ((s.apply env (.gcRequest index)).stores nodeId).find? chunkId =
      (s.stores nodeId).find? chunkId := by
  have hsettled := (sound_of_reachable h).settled client (List.mem_of_getElem? hclient)
  simp only [System.apply, hclient, System.serveClient]
  by_cases hnode : nodeId = client.engine.storageNodeId
  · subst hnode
    rw [Function.update_self]
    exact step_keeps_live hsettled hrun hopen hprotected.liveChunk
  · rw [Function.update_of_ne hnode]

end

open Metadata.Sample Sample in
/-- The engine deletes the other chunk and keeps the one of the version. -/
theorem collect_keeps_live_sample :
    ((collecting.apply Metadata.Sample.env (.gcRequest 0)).stores "n1").find? chunkId =
        (collecting.stores "n1").find? chunkId ∧
      LocalChunkStore.contains (collecting.stores "n1") orphanId = true ∧
      LocalChunkStore.contains
        ((collecting.apply Metadata.Sample.env (.gcRequest 0)).stores "n1") orphanId = false := by
  have hclient : collecting.clients[0]?.map (fun client => client.request.runId) =
      some gcRun.runId := by decide +kernel
  obtain ⟨client, hclient, hid⟩ := Option.map_eq_some_iff.mp hclient
  have hrun : collecting.db.gcRuns.find? gcRun.runId = some gcRun := by decide +kernel
  refine ⟨collect_keeps_live (reachable_afterSystemOps _ _ _ (by decide +kernel)) hclient
    (hid ▸ hrun) rfl (@protected_of_rows _ session.sessionId (by decide +kernel)
      (by decide +kernel) (by decide +kernel) (by decide +kernel) (by decide +kernel)),
    by decide +kernel, by decide +kernel⟩

open Metadata.Sample Sample in
/-- The stalled engine deletes the chunk of the second push. -/
theorem collect_deletes_live :
    ¬∀ s, System.Reachable Metadata.Sample.env s → ∀ chunkId nodeId,
      Protected s.db chunkId nodeId →
      LocalChunkStore.contains (s.stores nodeId) chunkId = true → ∀ index,
        LocalChunkStore.contains
          ((s.apply Metadata.Sample.env (.gcRequest index)).stores nodeId) chunkId = true := by
  intro hkeeps
  have hreachable : System.Reachable Metadata.Sample.env stalled :=
    reachable_afterSystemOps _ _ _ (by decide +kernel)
  have hprotected : Protected stalled.db chunkId "n1" :=
    @protected_of_rows _ (uuid 7) (by decide +kernel) (by decide +kernel) (by decide +kernel)
      (by decide +kernel) (by decide +kernel)
  have hpresent : LocalChunkStore.contains (stalled.stores "n1") chunkId = true := by
    decide +kernel
  have hdeleted : LocalChunkStore.contains
      ((stalled.apply Metadata.Sample.env (.gcRequest 0)).stores "n1") chunkId = false := by
    decide +kernel
  have hkept := hkeeps stalled hreachable chunkId "n1" hprotected hpresent 0
  rw [hdeleted] at hkept
  cases hkept

end AiArtifactStore.Gc
