import AiArtifactStore.Gc.Walk
import AiArtifactStore.Metadata.Collectible

/-!
# One attempt of an apply run

What a call of `collect` keeps between two requests when no other client acts.
`origin` is the world before the first attempt with the run id: whatever earlier
attempts have done, the run is underway or it has finished.
-/

namespace AiArtifactStore.Gc

open AiArtifactStore.Foundation
open AiArtifactStore.Identity
open AiArtifactStore.Metadata
open AiArtifactStore.Storage
open AiArtifactStore.Client

/-! ## The invariant of an attempt -/

def UpTo (after : Option ContentId) (chunkId : ContentId) : Prop := ∃ a ∈ after, chunkId ≤ a

/-- The ids up to the cursor of a page; all of them for the last page. -/
def CoveredBy (page : StoredChunkPage) (chunkId : ContentId) : Prop :=
  ∀ next ∈ page.nextAfter, chunkId ≤ next

def RunStored (engine : GcEngine) (request : GcRequest) (origin world : World) : Prop :=
  (∃ run, Opened engine request origin.db run) ∧ world.db = startedDb engine request origin.db

/-- Every regular file in the range is live, or one of the chunks in hand. -/
def CleanUp (origin : World) (store : ChunkStore) (range : ContentId → Prop)
    (inHand : List StoredChunkInfo) : Prop :=
  ∀ chunkId, (LocalChunkStore.regular? store chunkId).isSome → range chunkId →
    origin.db.LiveChunk chunkId ∨ chunkId ∈ inHand.map StoredChunkInfo.chunkId

structure PageInHand (origin world : World) (after : Option ContentId) (page : StoredChunkPage)
    (rest : List (GcChunkDecision × StoredChunkInfo)) : Prop where
  decided : ∀ p ∈ rest, p.1 = ⟨p.2.chunkId, !origin.db.isLiveChunk p.2.chunkId⟩
  present : ∀ p ∈ rest, (LocalChunkStore.regular? world.store p.2.chunkId).isSome
  clean : CleanUp origin world.store (CoveredBy page) (rest.map Prod.snd)
  advances : ∀ next ∈ page.nextAfter, ¬∃ previous ∈ after, next ≤ previous

structure Unhindered (engine : GcEngine) (request : GcRequest) (origin : World) : Prop where
  opened : ∃ run, Opened engine request origin.db run
  totals : TotalsFit origin.store
  noUploadSession : origin.db.hasOpenUploadSession = false
  unpinned : ¬PinsDeadLayout origin.db
  rows : (sweptStats origin.db engine.storageNodeId).Fits

/-- What holds of a state of `collect` before the run completes. -/
def StateOk (engine : GcEngine) (request : GcRequest) (origin world : World) : GcState → Prop
  | .start => True
  | .list after stats =>
      RunStored engine request origin world ∧
        CleanUp origin world.store (UpTo after) [] ∧
        ∃ passed, Tally origin.store stats passed [] ∧ ∀ info ∈ passed, UpTo after info.chunkId
  | .classify after page stats =>
      RunStored engine request origin world ∧
        LocalChunkStore.PageOf world.store after page ∧
        page.chunks ≠ [] ∧ page.chunks.length ≤ kInventoryPageSize ∧
        CleanUp origin world.store (UpTo after) [] ∧
        ∃ passed, Tally origin.store stats passed page.chunks ∧
          ∀ info ∈ passed, CoveredBy page info.chunkId
  | .delete after page info rest stats =>
      RunStored engine request origin world ∧ ¬origin.db.LiveChunk info.chunkId ∧
        PageInHand origin world after page ((⟨info.chunkId, true⟩, info) :: rest) ∧
        ∃ before passed, stats = countCollectible before info ∧
          Tally origin.store before passed (info :: rest.map Prod.snd) ∧
          ∀ i ∈ passed ++ info :: rest.map Prod.snd, CoveredBy page i.chunkId
  | .complete stats =>
      RunStored engine request origin world ∧
        (∀ chunkId, (LocalChunkStore.regular? world.store chunkId).isSome →
          origin.db.LiveChunk chunkId) ∧
        (TotalsFit origin.store → stats.Fits)
  | .returned _ => False
  | .threw _ => ¬Unhindered engine request origin

/-- The world before the run completes. -/
structure Underway (engine : GcEngine) (request : GcRequest) (origin world : World) : Prop where
  db : world.db = origin.db ∨ RunStored engine request origin world
  store : Trimmed origin world.store

structure Finished (engine : GcEngine) (request : GcRequest) (origin world : World) : Prop where
  db : ∃ run completed, Opened engine request origin.db run ∧
    GcCompletes (startedDb engine request origin.db) run completed ∧
    world.db = completedGcDb (startedDb engine request origin.db) run completed
  rows : (sweptStats origin.db engine.storageNodeId).Fits
  store : world.store = liveStore origin

def Invariant (engine : GcEngine) (request : GcRequest) (origin : World)
    (point : World × GcState) : Prop :=
  (Underway engine request origin point.1 ∧ StateOk engine request origin point.1 point.2) ∨
    (Finished engine request origin point.1 ∧
      (point.2 = .start ∨ ∃ run, point.2 = .returned run))

variable {env : Environment} {engine : GcEngine} {request : GcRequest} {origin world : World}
  {stats : GcPhysicalStats} {after : Option ContentId} {page : StoredChunkPage}

/-! ## Steps before completion -/

theorem validateGcPhysicalStats_eq_ok {u : Unit} :
    MetadataClient.validateGcPhysicalStats stats = .ok u ↔ stats.Fits := by
  simp only [MetadataClient.validateGcPhysicalStats, MetadataClient.checkStat, bind_eq_ok,
    exists_unit, failIf_eq_ok, Nat.not_lt, GcPhysicalStats.Fits, gt_iff_lt]

theorem stateOk_finish (hstored : RunStored engine request origin world)
    (hlive : ∀ chunkId, (LocalChunkStore.regular? world.store chunkId).isSome →
      origin.db.LiveChunk chunkId) (hfits : TotalsFit origin.store → stats.Fits) :
    StateOk engine request origin world (GcEngine.finish stats) := by
  unfold GcEngine.finish GcEngine.andThen
  split
  · rename_i e herror
    intro hunhindered
    rw [(validateGcPhysicalStats_eq_ok (u := ())).mpr (hfits hunhindered.totals)] at herror
    cases herror
  · exact ⟨hstored, hlive, hfits⟩

theorem stateOk_nextPage (hstored : RunStored engine request origin world)
    (hpage : PageInHand origin world after page []) {passed : List StoredChunkInfo}
    (htally : Tally origin.store stats passed [])
    (hcovered : ∀ info ∈ passed, CoveredBy page info.chunkId) :
    StateOk engine request origin world (GcEngine.nextPage after page stats) := by
  have hclean : ∀ chunkId, (LocalChunkStore.regular? world.store chunkId).isSome →
      CoveredBy page chunkId → origin.db.LiveChunk chunkId := by
    intro chunkId hregular hcovers
    rcases hpage.clean chunkId hregular hcovers with hlive | hmem
    · exact hlive
    · cases hmem
  unfold GcEngine.nextPage
  cases hnext : page.nextAfter with
  | none =>
      have hall : ∀ chunkId, CoveredBy page chunkId := by
        intro chunkId next hmem
        rw [hnext] at hmem
        cases hmem
      exact stateOk_finish hstored (fun chunkId hregular => hclean chunkId hregular (hall chunkId))
        htally.fits
  | some next =>
      have hadvances := hpage.advances next (by rw [hnext]; rfl)
      have hupTo : ∀ chunkId, UpTo (some next) chunkId ↔ CoveredBy page chunkId := by
        intro chunkId
        simp [UpTo, CoveredBy, hnext]
      simp only [hadvances, ↓reduceIte]
      exact ⟨hstored, fun chunkId hregular hupto =>
        .inl (hclean chunkId hregular ((hupTo chunkId).mp hupto)), passed, htally,
        fun info hinfo => (hupTo _).mpr (hcovered info hinfo)⟩

theorem stateOk_takeDecisions (hmode : request.dryRun = false)
    (hstored : RunStored engine request origin world)
    {rest : List (GcChunkDecision × StoredChunkInfo)} (passed : List StoredChunkInfo)
    (hpage : PageInHand origin world after page rest)
    (htally : Tally origin.store stats passed (rest.map Prod.snd))
    (hcovered : ∀ info ∈ passed ++ rest.map Prod.snd, CoveredBy page info.chunkId) :
    StateOk engine request origin world (GcEngine.takeDecisions request after page rest stats) := by
  induction rest generalizing passed with
  | nil => exact stateOk_nextPage hstored hpage htally (by simpa using hcovered)
  | cons head rest ih =>
      obtain ⟨decision, info⟩ := head
      obtain rfl : decision = ⟨info.chunkId, !origin.db.isLiveChunk info.chunkId⟩ :=
        hpage.decided _ List.mem_cons_self
      unfold GcEngine.takeDecisions
      cases hlive : origin.db.isLiveChunk info.chunkId with
      | true =>
          simp only [ne_eq, not_true_eq_false, ↓reduceIte, Bool.not_true]
          refine ih (passed ++ [info]) ⟨?_, ?_, ?_, hpage.advances⟩ htally.skip ?_
          · exact fun p hp => hpage.decided p (List.mem_cons_of_mem _ hp)
          · exact fun p hp => hpage.present p (List.mem_cons_of_mem _ hp)
          · intro chunkId hregular hcovers
            rcases hpage.clean chunkId hregular hcovers with hchunk | hmem
            · exact .inl hchunk
            · rcases List.mem_cons.mp hmem with rfl | hmem
              · exact .inl (Db.isLiveChunk_iff.mp hlive)
              · exact .inr hmem
          · simpa using hcovered
      | false =>
          simp only [ne_eq, not_true_eq_false, ↓reduceIte, Bool.not_false, hmode,
            Bool.true_eq_false, Bool.false_eq_true]
          rw [hlive] at hpage
          exact ⟨hstored, Db.isLiveChunk_eq_false.mp hlive, hpage, stats, passed, rfl, htally,
            hcovered⟩

/-! ## One request -/

theorem RunStored.isLiveChunk (h : RunStored engine request origin world) (chunkId : ContentId) :
    world.db.isLiveChunk chunkId = origin.db.isLiveChunk chunkId := by
  rw [h.2]
  rfl

theorem Underway.isLiveChunk (h : Underway engine request origin world) (chunkId : ContentId) :
    world.db.isLiveChunk chunkId = origin.db.isLiveChunk chunkId := by
  rcases h.db with hdb | hstored
  · rw [hdb]
  · exact hstored.isLiveChunk chunkId

theorem collect_start {world : World} :
    engine.step request env (world, .start) =
      (⟨(serve env world.db (.startGcRun (requestedRun engine request))).2, world.store⟩,
        GcEngine.andThen (MetadataClient.startGcRun (requestedRun engine request)
          (metadataResponse (.startGcRun (requestedRun engine request))
            (serve env world.db (.startGcRun (requestedRun engine request))).1))
          (engine.started request)) := rfl

theorem receive_startGcRun {run : GcRun} (hvalid : nodeIdInvalid engine.storageNodeId = false)
    (hid : run.runId = request.runId) (hnode : run.targetNodeId = engine.storageNodeId)
    (hmode : run.mode = request.mode) :
    GcEngine.andThen (MetadataClient.startGcRun (requestedRun engine request) (.ok (.gcRun run)))
      (engine.started request) =
        match run.state with
        | .completed => .returned run
        | .open => .list none .zero := by
  have hparse : MetadataClient.parseGcRun (.gcRun run) = .ok run := by
    simp [MetadataClient.parseGcRun, hnode, hvalid]
  have haccepted : MetadataClient.startGcRun (requestedRun engine request) (.ok (.gcRun run)) =
      .ok run := by
    simp only [MetadataClient.startGcRun, ok_bind, hparse, requestedRun, hid, hnode, hmode,
      ne_eq, not_true_eq_false, failIf_of_false, not_false_eq_true]
  rw [haccepted, GcEngine.andThen, GcEngine.started]
  cases hstate : run.state <;> simp [GcEngine.identitiesMatch, hid, hnode, hmode]

theorem invariant_start (hvalid : nodeIdInvalid engine.storageNodeId = false)
    (hopen : ∀ run, origin.db.gcRuns.find? request.runId = some run → run.state = .open)
    (h : Underway engine request origin world) :
    Invariant engine request origin (engine.step request env (world, .start)) := by
  rw [collect_start]
  rcases serve_cases env world.db (.startGcRun (requestedRun engine request)) with
    ⟨e, ht, hs⟩ | ⟨reply, next, ht, hs⟩
  · rw [hs]
    refine .inl ⟨h, fun hunhindered => ?_⟩
    obtain ⟨run, hrun⟩ := hunhindered.opened
    have haccepted : transact env world.db (.startGcRun (requestedRun engine request)) =
        .ok (.gcRun run, startedDb engine request origin.db) := by
      rw [transact, replyWith]
      rcases h.db with hdb | ⟨-, hdb⟩
      · rw [hdb, hrun.accepted]
        rfl
      · rw [hdb, hrun.again]
        rfl
    rw [ht] at haccepted
    cases haccepted
  · obtain ⟨run, hstart, rfl⟩ := replyWith_eq_ok.mp ht
    have hopened : Opened engine request origin.db run ∧
        next = startedDb engine request origin.db := by
      rcases h.db with hdb | ⟨⟨run', hrun'⟩, hdb⟩
      · rw [hdb] at hstart
        exact opened_of_startGcRun hvalid hopen hstart
      · rw [hdb, hrun'.again] at hstart
        obtain ⟨rfl, rfl⟩ := Prod.ext_iff.mp (Except.ok.inj hstart)
        exact ⟨hrun', rfl⟩
    obtain ⟨hrun, rfl⟩ := hopened
    have hstored : RunStored engine request origin
        ⟨startedDb engine request origin.db, world.store⟩ := ⟨⟨run, hrun⟩, rfl⟩
    rw [hs, metadataResponse, receive_startGcRun hvalid hrun.runId hrun.identity.1 hrun.identity.2,
      hrun.isOpen]
    refine .inl ⟨⟨.inr hstored, h.store⟩, hstored, ?_, [], Tally.zero _, by simp⟩
    rintro chunkId - ⟨a, hnone, -⟩
    cases hnone

theorem invariant_list (h : Underway engine request origin world)
    (hs : StateOk engine request origin world (.list after stats)) :
    Invariant engine request origin (engine.step request env (world, .list after stats)) := by
  obtain ⟨hstored, hclean, passed, htally, hpassed⟩ := hs
  obtain ⟨page, hlist⟩ := @LocalChunkStore.listChunks_isOk world.store after kInventoryPageSize
    (by decide)
  obtain ⟨hpage, hlength⟩ := LocalChunkStore.listChunks_ok hlist
  have hstep : engine.step request env (world, .list after stats) =
      (world, GcEngine.listed after stats page) := by
    simp only [GcEngine.step, GcEngine.message, serveMessage,
      StorageNodeService.handleRequest_listChunks, hlist]
    rfl
  rw [hstep]
  refine .inl ⟨h, ?_⟩
  unfold GcEngine.listed
  by_cases hempty : page.chunks = []
  · have hnext : page.nextAfter = none := by
      cases hnext : page.nextAfter with
      | none => rfl
      | some next =>
          have hlast := hpage.cursor next (by rw [hnext]; rfl)
          rw [hempty] at hlast
          cases hlast
    simp only [hempty, hnext, ↓reduceIte, Option.isSome_none, Bool.false_eq_true]
    refine stateOk_finish hstored (fun chunkId hregular => ?_) htally.fits
    -- Every regular file stands up to the cursor: an empty page has none beyond it.
    obtain ⟨bytes, hbytes⟩ := Option.isSome_iff_exists.mp hregular
    have hupto : UpTo after chunkId := by
      by_contra hbeyond
      have hinfo : ⟨chunkId, bytes.length⟩ ∈ LocalChunkStore.discoveredChunks world.store :=
        LocalChunkStore.mem_discoveredChunks.mpr ⟨bytes, hbytes, rfl⟩
      rcases hpage.complete _ hinfo
        (fun a ha => Nat.lt_of_not_le fun hle => hbeyond ⟨a, ha, hle⟩) with hmem | ⟨next, hmem, -⟩
      · rw [hempty] at hmem
        cases hmem
      · rw [hnext] at hmem
        cases hmem
    rcases hclean chunkId hregular hupto with hlive | hmem
    · exact hlive
    · cases hmem
  · have hcursor : ¬∃ next ∈ page.nextAfter,
        page.chunks.getLast?.map StoredChunkInfo.chunkId ≠ some next := by
      rintro ⟨next, hmem, hne⟩
      exact hne (hpage.cursor next hmem)
    have hunique : (page.chunks.map StoredChunkInfo.chunkId).Nodup :=
      List.pairwise_map.mpr (hpage.sorted.imp fun hlt => ContentId.ne_of_lt hlt)
    have hcheck : MetadataClient.checkClassification
        (page.chunks.map StoredChunkInfo.chunkId) = .ok () := by
      have hsize : ¬(page.chunks.map StoredChunkInfo.chunkId = [] ∨
          (page.chunks.map StoredChunkInfo.chunkId).length > 256) := by
        rw [List.map_eq_nil_iff, List.length_map]
        simp only [kInventoryPageSize] at hlength
        rintro (hnil | hlong)
        · exact hempty hnil
        · omega
      rw [MetadataClient.checkClassification, failIf_of_false hsize, ok_bind,
        failIf_of_false fun hnot => hnot hunique]
    simp only [hempty, ↓reduceIte, GcEngine.scanPage,
      lexicographicallyIncreasing_of_pairwise hpage.sorted, Bool.true_eq_false, hcursor, hcheck,
      GcEngine.andThen]
    refine ⟨hstored, hpage, hempty, hlength, hclean, passed, htally.scan ?_ ?_, ?_⟩
    · refine List.pairwise_append.mpr ⟨?_, hpage.sorted, fun a ha b hb => ?_⟩
      · simpa using htally.sorted
      · obtain ⟨cursor, hcursor, hle⟩ := hpassed a ha
        exact Nat.lt_of_le_of_lt hle (hpage.beyond b hb cursor hcursor)
    · intro info hinfo
      obtain ⟨bytes, hbytes, hsize⟩ :=
        LocalChunkStore.mem_discoveredChunks.mp (hpage.listed info hinfo)
      exact LocalChunkStore.mem_discoveredChunks.mpr ⟨bytes, h.store.regular hbytes, hsize⟩
    · intro info hinfo next hnext
      obtain ⟨cursor, hcursor, hle⟩ := hpassed info hinfo
      obtain ⟨last, hlast, rfl⟩ := Option.map_eq_some_iff.mp (hpage.cursor next hnext)
      exact Nat.le_of_lt
        (Nat.lt_of_le_of_lt hle (hpage.beyond last (List.mem_of_getLast? hlast) cursor hcursor))

theorem classify_step (hstored : RunStored engine request origin world)
    (hpage : LocalChunkStore.PageOf world.store after page) (hne : page.chunks ≠ [])
    (hlength : page.chunks.length ≤ kInventoryPageSize) :
    engine.step request env (world, .classify after page stats) =
      (world, GcEngine.takeDecisions request after page
        (page.chunks.map fun info =>
          (⟨info.chunkId, !origin.db.isLiveChunk info.chunkId⟩, info)) stats) := by
  obtain ⟨run, hrun⟩ := hstored.1
  have hfind : world.db.gcRuns.find? run.runId = some run := by
    rw [hrun.runId, hstored.2]
    exact hrun.stored
  have hclassify : classifyGcChunks world.db request.runId
      (page.chunks.map StoredChunkInfo.chunkId) =
        .ok ((page.chunks.map StoredChunkInfo.chunkId).map fun chunkId =>
          ⟨chunkId, !world.db.isLiveChunk chunkId⟩) := by
    rw [← hrun.runId]
    refine classifyGcChunks_of_open hfind hrun.isOpen (by simpa using hne) ?_
      (List.pairwise_map.mpr (hpage.sorted.imp fun hlt => ContentId.ne_of_lt hlt))
    rw [List.length_map]
    exact hlength.trans (by decide)
  have hserve : serve env world.db
      (.classifyGcChunks request.runId (page.chunks.map StoredChunkInfo.chunkId)) =
        (.ok (.decisions ((page.chunks.map StoredChunkInfo.chunkId).map fun chunkId =>
          ⟨chunkId, !world.db.isLiveChunk chunkId⟩)), world.db) := by
    simp only [serve, transact, hclassify]
    rfl
  have haccepted : MetadataClient.classifyGcChunks request.runId
      (page.chunks.map StoredChunkInfo.chunkId) (.ok (.classification request.runId
        ((page.chunks.map StoredChunkInfo.chunkId).map fun chunkId =>
          (⟨chunkId, !world.db.isLiveChunk chunkId⟩ : GcChunkDecision)))) =
      .ok ((page.chunks.map StoredChunkInfo.chunkId).map fun chunkId =>
        ⟨chunkId, !world.db.isLiveChunk chunkId⟩) := by
    have hids : ((page.chunks.map StoredChunkInfo.chunkId).map fun chunkId =>
        (⟨chunkId, !world.db.isLiveChunk chunkId⟩ : GcChunkDecision)).map
          GcChunkDecision.chunkId = page.chunks.map StoredChunkInfo.chunkId := by
      simp
    simp only [MetadataClient.classifyGcChunks, ok_bind, MetadataClient.parseClassification,
      List.length_map, hids, ne_eq, not_true_eq_false, failIf_of_false, not_false_eq_true]
  simp only [GcEngine.step, GcEngine.message, serveMessage, GcEngine.receive, hserve,
    metadataResponse, haccepted, GcEngine.andThen, GcEngine.classified, List.length_map, ne_eq,
    not_true_eq_false, ↓reduceIte, zip_decisions]
  simp only [hstored.isLiveChunk]

theorem invariant_classify (hmode : request.dryRun = false)
    (h : Underway engine request origin world)
    (hs : StateOk engine request origin world (.classify after page stats)) :
    Invariant engine request origin (engine.step request env (world, .classify after page stats)) := by
  obtain ⟨hstored, hpage, hne, hlength, hclean, passed, htally, hpassed⟩ := hs
  rw [classify_step hstored hpage hne hlength]
  have hinfos : ((page.chunks.map fun info =>
      ((⟨info.chunkId, !origin.db.isLiveChunk info.chunkId⟩ : GcChunkDecision), info)).map
        Prod.snd) = page.chunks := by
    simp [Function.comp_def]
  refine .inl ⟨h, stateOk_takeDecisions hmode hstored passed ⟨?_, ?_, ?_, ?_⟩ ?_ ?_⟩
  · intro p hp
    obtain ⟨info, -, rfl⟩ := List.mem_map.mp hp
    rfl
  · intro p hp
    obtain ⟨info, hinfo, rfl⟩ := List.mem_map.mp hp
    obtain ⟨bytes, hbytes, -⟩ := LocalChunkStore.mem_discoveredChunks.mp (hpage.listed info hinfo)
    exact Option.isSome_iff_exists.mpr ⟨bytes, hbytes⟩
  · -- A regular file in the range of the page stands before the page or on it.
    intro chunkId hregular hcovers
    rw [hinfos]
    by_cases hupto : UpTo after chunkId
    · rcases hclean chunkId hregular hupto with hlive | hmem
      · exact .inl hlive
      · cases hmem
    · obtain ⟨bytes, hbytes⟩ := Option.isSome_iff_exists.mp hregular
      have hinfo : ⟨chunkId, bytes.length⟩ ∈ LocalChunkStore.discoveredChunks world.store :=
        LocalChunkStore.mem_discoveredChunks.mpr ⟨bytes, hbytes, rfl⟩
      rcases hpage.complete _ hinfo
        (fun a ha => Nat.lt_of_not_le fun hle => hupto ⟨a, ha, hle⟩) with hmem | ⟨next, hmem, hlt⟩
      · exact .inr (List.mem_map.mpr ⟨_, hmem, rfl⟩)
      · exact absurd (hcovers next hmem) (Nat.not_le_of_lt hlt)
  · rintro next hnext ⟨previous, hprevious, hle⟩
    obtain ⟨last, hlast, rfl⟩ := Option.map_eq_some_iff.mp (hpage.cursor next hnext)
    exact absurd hle (Nat.not_le_of_lt
      (hpage.beyond last (List.mem_of_getLast? hlast) previous hprevious))
  · rw [hinfos]
    exact htally
  · rw [hinfos]
    intro info hinfo
    rcases List.mem_append.mp hinfo with hinfo | hinfo
    · exact hpassed info hinfo
    · intro next hnext
      obtain ⟨last, hlast, rfl⟩ := Option.map_eq_some_iff.mp (hpage.cursor next hnext)
      rcases List.getLast?_eq_some_iff.mp hlast with ⟨front, hfront⟩
      have hsorted := hpage.sorted
      rw [hfront, List.pairwise_append] at hsorted
      rw [hfront] at hinfo
      rcases List.mem_append.mp hinfo with hinfo | hinfo
      · exact Nat.le_of_lt (hsorted.2.2 info hinfo last List.mem_cons_self)
      · rw [List.mem_singleton.mp hinfo]
        exact Nat.le_refl _

theorem invariant_delete (hmode : request.dryRun = false)
    {info : StoredChunkInfo} {rest : List (GcChunkDecision × StoredChunkInfo)}
    (h : Underway engine request origin world)
    (hs : StateOk engine request origin world (.delete after page info rest stats)) :
    Invariant engine request origin
      (engine.step request env (world, .delete after page info rest stats)) := by
  obtain ⟨hstored, hdead, hpage, before, passed, rfl, htally, hcovered⟩ := hs
  have hregular := hpage.present _ List.mem_cons_self
  obtain ⟨bytes, hbytes⟩ := Option.isSome_iff_exists.mp hregular
  have hremove := LocalChunkStore.remove_of_regular hbytes
  have hstep : engine.step request env
      (world, .delete after page info rest (countCollectible before info)) =
      (⟨world.db, world.store.filter fun entry => entry.chunkId ≠ info.chunkId⟩,
        GcEngine.takeDecisions request after page rest
          (countDeleted (countCollectible before info) info)) := by
    rcases @StorageNodeService.handleRequest_deleteChunk env world.store info.chunkId with
      ⟨e, hs⟩ | ⟨deleted, store', hremove', hs⟩
    · simp [StorageNodeService.handleRequest, StorageNodeService.respond,
        StorageNodeService.rethrow, hremove] at hs
    · rw [hremove] at hremove'
      obtain ⟨rfl, rfl⟩ := Prod.ext_iff.mp (Except.ok.inj hremove')
      simp only [GcEngine.step, GcEngine.message, serveMessage, GcEngine.receive, hs]
      simp [storageResponse, StorageNodeClient.deleteChunk,
        StorageNodeClient.parseDeleteChunkResponse, GcEngine.andThen, GcEngine.deleted]
  have hregular' : ∀ chunkId, (LocalChunkStore.regular? (world.store.filter fun entry =>
      entry.chunkId ≠ info.chunkId) chunkId).isSome ↔
        (LocalChunkStore.regular? world.store chunkId).isSome ∧ chunkId ≠ info.chunkId := by
    intro chunkId
    simp only [Option.isSome_iff_exists, LocalChunkStore.regular?_without, exists_and_right]
  have hafter : ∀ p ∈ rest, p.2.chunkId ≠ info.chunkId := by
    intro p hp
    have hsorted := (List.pairwise_append.mp htally.sorted).2.1
    exact (ContentId.ne_of_lt ((List.pairwise_cons.mp hsorted).1 p.2
      (List.mem_map.mpr ⟨p, hp, rfl⟩))).symm
  have hstored' : RunStored engine request origin
      ⟨world.db, world.store.filter fun entry => entry.chunkId ≠ info.chunkId⟩ := hstored
  rw [hstep]
  refine .inl ⟨⟨.inr hstored, h.store.remove hregular hdead⟩,
    stateOk_takeDecisions hmode hstored' (passed ++ [info]) ⟨?_, ?_, ?_, hpage.advances⟩
      htally.delete (by simpa using hcovered)⟩
  · exact fun p hp => hpage.decided p (List.mem_cons_of_mem _ hp)
  · exact fun p hp => (hregular' _).mpr
      ⟨hpage.present p (List.mem_cons_of_mem _ hp), hafter p hp⟩
  · intro chunkId hfile hcovers
    obtain ⟨hfile, hne⟩ := (hregular' chunkId).mp hfile
    rcases hpage.clean chunkId hfile hcovers with hlive | hmem
    · exact .inl hlive
    · rcases List.mem_cons.mp hmem with heq | hmem
      · exact absurd heq hne
      · exact .inr hmem

theorem request_mode (hmode : request.dryRun = false) : request.mode = .apply := by
  simp [GcRequest.mode, hmode]

theorem collect_complete :
    engine.step request env (world, .complete stats) =
      (⟨(serve env world.db (.completeGcRun request.runId stats)).2, world.store⟩,
        GcEngine.andThen (MetadataClient.completeGcRun request.runId
          (metadataResponse (.completeGcRun request.runId stats)
            (serve env world.db (.completeGcRun request.runId stats)).1)) .returned) := rfl

theorem invariant_complete (hmode : request.dryRun = false)
    (h : Underway engine request origin world)
    (hs : StateOk engine request origin world (.complete stats)) :
    Invariant engine request origin (engine.step request env (world, .complete stats)) := by
  obtain ⟨⟨⟨run, hrun⟩, hdb⟩, hlive, hfits⟩ := hs
  have happly : run.mode = .apply := hrun.identity.2.trans (request_mode hmode)
  have hstored : world.db.gcRuns.find? run.runId = some run := by
    rw [hrun.runId, hdb]
    exact hrun.stored
  rw [collect_complete]
  rcases serve_cases env world.db (.completeGcRun request.runId stats) with
    ⟨e, ht, hserve⟩ | ⟨reply, next, ht, hserve⟩
  · rw [hserve]
    refine .inl ⟨h, fun hunhindered => ?_⟩
    have hcomplete := completeGcRun_apply hstored hrun.isOpen happly
      (by rw [hdb]; exact hunhindered.noUploadSession) (by rw [hdb]; exact hunhindered.unpinned)
      (hfits hunhindered.totals)
      (by rw [hdb, hrun.identity.1]; exact hunhindered.rows)
    rw [transact, ← hrun.runId, hcomplete] at ht
    cases ht
  · obtain ⟨result, hcomplete, rfl⟩ := replyWith_eq_ok.mp ht
    rw [← hrun.runId] at hcomplete
    have hrows := sweptStats_fits hstored hrun.isOpen happly hcomplete
    rw [hdb, hrun.identity.1] at hrows
    rcases completeGcRun_ok hcomplete with ⟨-, hfind, hstate⟩ | ⟨other, hid, hcompletes, rfl⟩
    · obtain rfl := Option.some.inj (hstored.symm.trans hfind)
      rw [hrun.isOpen] at hstate
      cases hstate
    · obtain rfl : other = run := by
        have hother := hcompletes.stored
        rw [hid] at hother
        exact Option.some.inj (hother.symm.trans hstored)
      refine .inr ⟨⟨⟨other, result, hrun, hdb ▸ hcompletes, ?_⟩, hrows,
        h.store.eq_liveStore hlive⟩, .inr ⟨result, ?_⟩⟩
      · rw [hserve, hdb]
      · obtain ⟨physical, metadata, rfl⟩ := hcompletes.row
        rw [hserve]
        simp [metadataResponse, MetadataClient.completeGcRun, MetadataClient.parseGcRun,
          hrun.identity.1, hrun.validNode, hrun.runId, GcEngine.andThen, failIf]

theorem Finished.stored (h : Finished engine request origin world) :
    ∃ completed, world.db.gcRuns.find? request.runId = some completed ∧
      completed.state = .completed ∧ completed.targetNodeId = engine.storageNodeId ∧
      completed.mode = request.mode := by
  obtain ⟨⟨run, completed, hrun, hcompletes, hdb⟩, -, -⟩ := h
  obtain ⟨physical, metadata, rfl⟩ := hcompletes.row
  have hfind : (completedGcDb (startedDb engine request origin.db) run { run with
      state := .completed, physicalStats := physical, metadataStats := metadata }).gcRuns.find?
        run.runId = some { run with
          state := .completed, physicalStats := physical, metadataStats := metadata } :=
    Table.find?_of_mem Table.mem_upsert_self
  rw [← hdb, hrun.runId] at hfind
  exact ⟨_, hfind, rfl, hrun.identity.1, hrun.identity.2⟩

theorem step_start_completed {run : GcRun}
    (h : world.db.gcRuns.find? request.runId = some run) (hcompleted : run.state = .completed) :
    (engine.step request env (world, .start)).1 = world ∧
      ((∃ e, (engine.step request env (world, .start)).2 = .threw e) ∨
        (engine.step request env (world, .start)).2 = .returned run) := by
  rw [collect_start]
  rcases serve_cases env world.db (.startGcRun (requestedRun engine request)) with
    ⟨e, -, hserve⟩ | ⟨reply, next, ht, hserve⟩
  · rw [hserve]
    exact ⟨rfl, .inl ⟨_, rfl⟩⟩
  · obtain ⟨result, hstart, rfl⟩ := replyWith_eq_ok.mp ht
    rcases startGcRun_ok hstart with ⟨rfl, hfind, -, -⟩ | ⟨hstarts, -, -⟩
    · obtain rfl : run = result := Option.some.inj (h.symm.trans hfind)
      refine ⟨by rw [hserve], ?_⟩
      generalize hresponse : MetadataClient.startGcRun (requestedRun engine request) _ = response
      cases response with
      | error e => exact .inl ⟨e, rfl⟩
      | ok answered =>
          obtain rfl : answered = run := by
            have := MetadataClient.startGcRun_response hresponse
            rw [hstart] at this
            exact (Prod.ext_iff.mp (Except.ok.inj this)).1.symm
          simp only [GcEngine.andThen, GcEngine.started]
          split
          · rw [hcompleted]
            exact .inr rfl
          · exact .inl ⟨_, rfl⟩
    · have hfresh := hstarts.fresh
      change world.db.gcRuns.find? request.runId = none at hfresh
      rw [hfresh] at h
      cases h

theorem invariant_finished (hvalid : nodeIdInvalid engine.storageNodeId = false)
    (h : Finished engine request origin world) :
    Invariant engine request origin (engine.step request env (world, .start)) := by
  obtain ⟨completed, hfind, hcompleted, hnode, hsame⟩ := h.stored
  have hstart := startGcRun_stored hvalid hfind hnode hsame
  have hserve : serve env world.db (.startGcRun (requestedRun engine request)) =
      (.ok (.gcRun completed), world.db) := by
    simp only [serve, transact, hstart]
    rfl
  rw [collect_start, hserve, metadataResponse,
    receive_startGcRun hvalid (Table.key_of_find? hfind) hnode hsame, hcompleted]
  exact .inr ⟨h, .inr ⟨completed, rfl⟩⟩

/-! ## Every request -/

theorem invariant_step (hmode : request.dryRun = false)
    (hvalid : nodeIdInvalid engine.storageNodeId = false)
    (hopen : ∀ run, origin.db.gcRuns.find? request.runId = some run → run.state = .open)
    {point : World × GcState} (h : Invariant engine request origin point) :
    Invariant engine request origin (engine.step request env point) := by
  obtain ⟨world, state⟩ := point
  rcases h with ⟨hworld, hstate⟩ | ⟨hworld, rfl | ⟨run, rfl⟩⟩
  · cases state with
    | start => exact invariant_start hvalid hopen hworld
    | list after stats => exact invariant_list hworld hstate
    | classify after page stats => exact invariant_classify hmode hworld hstate
    | delete after page info rest stats => exact invariant_delete hmode hworld hstate
    | complete stats => exact invariant_complete hmode hworld hstate
    | returned run => exact absurd hstate not_false
    | threw e => exact .inl ⟨hworld, hstate⟩
  · exact invariant_finished hvalid hworld
  · exact .inr ⟨hworld, .inr ⟨run, rfl⟩⟩

def Standing (engine : GcEngine) (request : GcRequest) (origin world : World) : Prop :=
  Underway engine request origin world ∨ Finished engine request origin world

theorem standing_origin : Standing engine request origin origin :=
  .inl ⟨.inl rfl, Trimmed.refl origin⟩

theorem invariant_steps (hmode : request.dryRun = false)
    (hopen : ∀ run, origin.db.gcRuns.find? request.runId = some run → run.state = .open)
    (h : Standing engine request origin world) (n : Nat) :
    Invariant engine request origin (engine.steps request env world n) := by
  cases hvalid : nodeIdInvalid engine.storageNodeId with
  | true =>
      have hunopened : ∀ run, ¬Opened engine request origin.db run := fun run hrun => by
        rw [hrun.validNode] at hvalid
        cases hvalid
      have hunderway : Underway engine request origin world := by
        rcases h with hunderway | ⟨⟨run, _, hrun, -⟩, -, -⟩
        · exact hunderway
        · exact absurd hrun (hunopened run)
      have hfixed : engine.steps request env world n = (world, engine.collect) := by
        refine Function.iterate_fixed ?_ n
        simp only [GcEngine.collect, hvalid, ↓reduceIte]
        rfl
      rw [hfixed]
      refine .inl ⟨hunderway, ?_⟩
      simp only [GcEngine.collect, hvalid, ↓reduceIte]
      exact fun hunhindered => hunhindered.opened.elim hunopened
  | false =>
      unfold GcEngine.steps
      induction n with
      | zero =>
          simp only [Function.iterate_zero, id_eq, GcEngine.collect, hvalid, Bool.false_eq_true,
            ↓reduceIte]
          rcases h with hunderway | hfinished
          · exact .inl ⟨hunderway, trivial⟩
          · exact .inr ⟨hfinished, .inl rfl⟩
      | succ n ih =>
          rw [Function.iterate_succ_apply']
          exact invariant_step hmode hvalid hopen ih

end AiArtifactStore.Gc
