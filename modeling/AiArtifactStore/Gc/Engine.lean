import AiArtifactStore.Client.GcClients

/-!
# The GC engine

`GcEngine::collect` between two of its requests: `message` is the request that
it sends next and `receive` what it does with any response.
-/

namespace AiArtifactStore.Gc

open AiArtifactStore.Foundation
open AiArtifactStore.Identity
open AiArtifactStore.Metadata
open AiArtifactStore.Storage
open AiArtifactStore.Client

structure GcEngine where
  storageNodeId : String
  deriving DecidableEq, Repr

structure GcRequest where
  runId : UuidV7
  dryRun : Bool
  deriving DecidableEq, Repr

def kInventoryPageSize : Nat := 128

def GcRequest.mode (request : GcRequest) : GcRunMode := if request.dryRun then .dryRun else .apply

def requestedRun (engine : GcEngine) (request : GcRequest) : GcRun :=
  ⟨request.runId, engine.storageNodeId, request.mode, .open, .zero, .zero⟩

/-! ## Counters -/

def addU64 (a b : Nat) : Nat := (a + b) % 2 ^ 64

def countScanned (stats : GcPhysicalStats) (info : StoredChunkInfo) : GcPhysicalStats :=
  { stats with
    physicalChunksScanned := addU64 stats.physicalChunksScanned 1
    physicalBytesScanned := addU64 stats.physicalBytesScanned info.sizeBytes }

def countCollectible (stats : GcPhysicalStats) (info : StoredChunkInfo) : GcPhysicalStats :=
  { stats with
    collectibleChunks := addU64 stats.collectibleChunks 1
    collectibleBytes := addU64 stats.collectibleBytes info.sizeBytes }

def countDeleted (stats : GcPhysicalStats) (info : StoredChunkInfo) : GcPhysicalStats :=
  { stats with
    physicallyDeletedChunks := addU64 stats.physicallyDeletedChunks 1
    physicallyDeletedBytes := addU64 stats.physicallyDeletedBytes info.sizeBytes }

/-! ## The state machine -/

/-- Where `collect` waits for a response, or how it ended. -/
inductive GcState where
  | start
  | list (after : Option ContentId) (stats : GcPhysicalStats)
  | classify (after : Option ContentId) (page : StoredChunkPage) (stats : GcPhysicalStats)
  | delete (after : Option ContentId) (page : StoredChunkPage) (info : StoredChunkInfo)
      (rest : List (GcChunkDecision × StoredChunkInfo)) (stats : GcPhysicalStats)
  | complete (stats : GcPhysicalStats)
  | returned (run : GcRun)
  | threw (e : ClientExc)
  deriving DecidableEq, Repr

namespace GcEngine

variable (engine : GcEngine) (request : GcRequest)

def collect : GcState :=
  if nodeIdInvalid engine.storageNodeId then
    .threw (.invalidArgument "start_gc_run target_node_id is invalid")
  else .start

def message : GcState → Option Message
  | .start => some (.metadata (.startGcRun (requestedRun engine request)))
  | .list after _ => some (.storage (.listChunks after kInventoryPageSize))
  | .classify _ page _ =>
      some (.metadata (.classifyGcChunks request.runId (page.chunks.map StoredChunkInfo.chunkId)))
  | .delete _ _ info _ _ => some (.storage (.deleteChunk info.chunkId))
  | .complete stats => some (.metadata (.completeGcRun request.runId stats))
  | .returned _ => none
  | .threw _ => none

def andThen {α : Type} (result : Except ClientExc α) (next : α → GcState) : GcState :=
  match result with
  | .error e => .threw e
  | .ok a => next a

def identitiesMatch (run : GcRun) : Bool :=
  run.runId = request.runId && run.targetNodeId = engine.storageNodeId && run.mode = request.mode

def started (run : GcRun) : GcState :=
  if identitiesMatch engine request run then
    match run.state with
    | .completed => .returned run
    | .open => .list none .zero
  else .threw (.runtimeError "GC run identity mismatch from metadata service")

def finish (stats : GcPhysicalStats) : GcState :=
  andThen (MetadataClient.validateGcPhysicalStats stats) fun () => .complete stats

def lexicographicallyIncreasing : List StoredChunkInfo → Bool
  | a :: b :: rest => a.chunkId < b.chunkId && lexicographicallyIncreasing (b :: rest)
  | _ => true

def scanPage (after : Option ContentId) (stats : GcPhysicalStats) (page : StoredChunkPage) :
    GcState :=
  if lexicographicallyIncreasing page.chunks = false then
    .threw (.remoteProtocol "chunk inventory page is not lexicographically increasing")
  else if ∃ next ∈ page.nextAfter, page.chunks.getLast?.map StoredChunkInfo.chunkId ≠ some next then
    .threw (.remoteProtocol "chunk inventory next_after must equal the last chunk_id on the page")
  else
    andThen (MetadataClient.checkClassification (page.chunks.map StoredChunkInfo.chunkId))
      fun () => .classify after page (page.chunks.foldl countScanned stats)

def listed (after : Option ContentId) (stats : GcPhysicalStats) (page : StoredChunkPage) :
    GcState :=
  if page.chunks = [] then
    if page.nextAfter.isSome then
      .threw (.remoteProtocol "chunk inventory returned next_after with an empty page")
    else finish stats
  else scanPage after stats page

def nextPage (after : Option ContentId) (page : StoredChunkPage) (stats : GcPhysicalStats) :
    GcState :=
  match page.nextAfter with
  | none => finish stats
  | some next =>
      if ∃ previous ∈ after, next ≤ previous then
        .threw (.remoteProtocol "chunk inventory pagination cursor did not advance")
      else .list (some next) stats

/-- The loop over the decisions of a page, up to its next request. -/
def takeDecisions (after : Option ContentId) (page : StoredChunkPage) :
    List (GcChunkDecision × StoredChunkInfo) → GcPhysicalStats → GcState
  | [], stats => nextPage after page stats
  | (decision, info) :: rest, stats =>
      if decision.chunkId ≠ info.chunkId then
        .threw (.remoteProtocol "GC classification response order or chunk_id mismatch")
      else if decision.collectible = false then takeDecisions after page rest stats
      else if request.dryRun then takeDecisions after page rest (countCollectible stats info)
      else .delete after page info rest (countCollectible stats info)

def classified (after : Option ContentId) (page : StoredChunkPage) (stats : GcPhysicalStats)
    (decisions : List GcChunkDecision) : GcState :=
  if decisions.length ≠ page.chunks.length then
    .threw (.remoteProtocol "GC classification response size mismatch")
  else takeDecisions request after page (decisions.zip page.chunks) stats

def deleted (after : Option ContentId) (page : StoredChunkPage) (info : StoredChunkInfo)
    (rest : List (GcChunkDecision × StoredChunkInfo)) (stats : GcPhysicalStats) (deleted : Bool) :
    GcState :=
  takeDecisions request after page rest (if deleted then countDeleted stats info else stats)

def receive : GcState → Response → GcState
  | .start, response =>
      andThen (MetadataClient.startGcRun (requestedRun engine request) response)
        (started engine request)
  | .list after stats, response => andThen (StorageNodeClient.listChunks response) (listed after stats)
  | .classify after page stats, response =>
      andThen (MetadataClient.classifyGcChunks request.runId
        (page.chunks.map StoredChunkInfo.chunkId) response) (classified request after page stats)
  | .delete after page info rest stats, response =>
      andThen (StorageNodeClient.deleteChunk info.chunkId response)
        (deleted request after page info rest stats)
  | .complete _, response => andThen (MetadataClient.completeGcRun request.runId response) .returned
  | .returned run, _ => .returned run
  | .threw e, _ => .threw e

def step (env : Environment) (point : World × GcState) : World × GcState :=
  match message engine request point.2 with
  | none => point
  | some m =>
      ((serveMessage env point.1 m).2,
        receive engine request point.2 (serveMessage env point.1 m).1)

/-- `collect` after its first `n` requests. -/
def steps (env : Environment) (world : World) (n : Nat) : World × GcState :=
  (step engine request env)^[n] (world, collect engine)

end GcEngine

/-! ## Pages -/

theorem lexicographicallyIncreasing_of_pairwise {chunks : List StoredChunkInfo}
    (h : chunks.Pairwise fun a b => a.chunkId < b.chunkId) :
    GcEngine.lexicographicallyIncreasing chunks = true := by
  induction chunks with
  | nil => rfl
  | cons a rest ih =>
      obtain ⟨hfirst, hrest⟩ := List.pairwise_cons.mp h
      cases rest with
      | nil => rfl
      | cons b rest =>
          simp only [GcEngine.lexicographicallyIncreasing, Bool.and_eq_true, decide_eq_true_eq]
          exact ⟨hfirst b List.mem_cons_self, ih hrest⟩

theorem zip_decisions (db : Db) (chunks : List StoredChunkInfo) :
    ((chunks.map StoredChunkInfo.chunkId).map fun chunkId =>
        (⟨chunkId, !db.isLiveChunk chunkId⟩ : GcChunkDecision)).zip chunks =
      chunks.map fun info => (⟨info.chunkId, !db.isLiveChunk info.chunkId⟩, info) := by
  induction chunks with
  | nil => rfl
  | cons info chunks ih => simp only [List.map_cons, List.zip_cons_cons, ih]

/-! ## Termination -/

/-- How many ids stand beyond a cursor. -/
def room : Option ContentId → Nat
  | none => 2 ^ 256 + 1
  | some after => 2 ^ 256 - after.digest.toNat

/-- Lexicographic: the cursor, the phase of its page, the decisions left. -/
def GcState.rank : GcState → Nat × Nat × Nat
  | .start => (2 ^ 256 + 2, 0, 0)
  | .list after _ => (room after, 2, 0)
  | .classify after _ _ => (room after, 1, 0)
  | .delete after _ _ rest _ => (room after, 0, rest.length)
  | .complete _ => (0, 1, 0)
  | .returned _ => (0, 0, 0)
  | .threw _ => (0, 0, 0)

/-- The order of `GcState.rank`. -/
def Below : Nat × Nat × Nat → Nat × Nat × Nat → Prop :=
  Prod.Lex (· < ·) (Prod.Lex (· < ·) (· < ·))

theorem below_wf : WellFounded Below :=
  WellFounded.prod_lex Nat.lt_wfRel.wf (WellFounded.prod_lex Nat.lt_wfRel.wf Nat.lt_wfRel.wf)

theorem below_of_room {a b : Nat × Nat × Nat} (h : a.1 < b.1) : Below a b :=
  Prod.Lex.left _ _ h

theorem room_pos (after : Option ContentId) : 0 < room after := by
  cases after with
  | none => simp [room]
  | some after =>
      have := after.digest.isLt
      simp only [room]
      omega

theorem room_advance {after : Option ContentId} {next : ContentId}
    (h : ¬∃ previous ∈ after, next ≤ previous) : room (some next) < room after := by
  have hnext := next.digest.isLt
  cases after with
  | none =>
      simp only [room]
      omega
  | some previous =>
      have hlt : ¬next.digest.toNat ≤ previous.digest.toNat := fun hle => h ⟨previous, rfl, hle⟩
      simp only [room]
      omega

namespace GcEngine

variable {engine : GcEngine} {request : GcRequest} {stats : GcPhysicalStats}

theorem rank_finish : (finish stats).rank.1 = 0 := by
  unfold finish andThen
  split <;> rfl

theorem rank_nextPage {after : Option ContentId} {page : StoredChunkPage} :
    (nextPage after page stats).rank.1 < room after := by
  unfold nextPage
  cases page.nextAfter with
  | none =>
      simp only [rank_finish]
      exact room_pos after
  | some next =>
      simp only
      split
      · exact room_pos after
      · rename_i h
        exact room_advance h

theorem rank_takeDecisions {after : Option ContentId} {page : StoredChunkPage}
    {rest : List (GcChunkDecision × StoredChunkInfo)} :
    (takeDecisions request after page rest stats).rank.1 < room after ∨
      ∃ k < rest.length, (takeDecisions request after page rest stats).rank = (room after, 0, k) := by
  induction rest generalizing stats with
  | nil => exact .inl rank_nextPage
  | cons head rest ih =>
      obtain ⟨decision, info⟩ := head
      -- A decision that sends no request leaves the loop to the rest.
      have hskip : ∀ stats, (takeDecisions request after page rest stats).rank.1 < room after ∨
          ∃ k < (List.cons (decision, info) rest).length,
            (takeDecisions request after page rest stats).rank = (room after, 0, k) := by
        intro stats
        rcases @ih stats with h | ⟨k, hk, h⟩
        · exact .inl h
        · exact .inr ⟨k, Nat.lt_succ_of_lt hk, h⟩
      unfold takeDecisions
      split
      · exact .inl (room_pos after)
      · split
        · exact hskip stats
        · split
          · exact hskip _
          · exact .inr ⟨rest.length, Nat.lt_succ_self _, rfl⟩

theorem rank_receive {s : GcState} {m : Message} (h : message engine request s = some m)
    (response : Response) : Below (receive engine request s response).rank s.rank := by
  cases s with
  | start =>
      refine below_of_room ?_
      simp only [receive, andThen]
      split
      · simp [GcState.rank]
      · unfold started
        split
        · split <;> simp [GcState.rank, room]
        · simp [GcState.rank]
  | list after stats =>
      simp only [receive, andThen]
      split
      · exact below_of_room (room_pos after)
      · unfold listed
        split
        · split
          · exact below_of_room (room_pos after)
          · exact below_of_room (rank_finish ▸ room_pos after)
        · unfold scanPage
          split
          · exact below_of_room (room_pos after)
          · split
            · exact below_of_room (room_pos after)
            · unfold andThen
              split
              · exact below_of_room (room_pos after)
              · exact Prod.Lex.right _ (Prod.Lex.left _ _ Nat.one_lt_two)
  | classify after page stats =>
      simp only [receive, andThen]
      split
      · exact below_of_room (room_pos after)
      · unfold classified
        split
        · exact below_of_room (room_pos after)
        · rcases @rank_takeDecisions request stats after page _ with h | ⟨k, -, h⟩
          · exact below_of_room h
          · rw [h]
            exact Prod.Lex.right _ (Prod.Lex.left _ _ Nat.zero_lt_one)
  | delete after page info rest stats =>
      simp only [receive, andThen]
      split
      · exact below_of_room (room_pos after)
      · unfold deleted
        rcases @rank_takeDecisions request _ after page rest with h | ⟨k, hk, h⟩
        · exact below_of_room h
        · rw [h]
          exact Prod.Lex.right _ (Prod.Lex.right _ hk)
  | complete stats =>
      simp only [receive, andThen]
      split <;> exact Prod.Lex.right _ (Prod.Lex.left _ _ Nat.zero_lt_one)
  | returned run => cases h
  | threw e => cases h

theorem terminates (states : Nat → GcState)
    (hnext : ∀ n, message engine request (states n) = none ∨
      ∃ response, states (n + 1) = receive engine request (states n) response) :
    ∃ n, message engine request (states n) = none := by
  by_contra hnever
  have hsome : ∀ n, message engine request (states n) ≠ none := fun n hn => hnever ⟨n, hn⟩
  have hdescends : ∀ n, Below (states (n + 1)).rank (states n).rank := by
    intro n
    rcases hnext n with hnone | ⟨response, hs⟩
    · exact absurd hnone (hsome n)
    · obtain ⟨m, hm⟩ := Option.ne_none_iff_exists'.mp (hsome n)
      rw [hs]
      exact rank_receive hm response
  -- An infinite descent contradicts the well-founded order.
  have hacc : ∀ rank, Acc Below rank → ∀ n, (states n).rank ≠ rank := by
    intro rank h
    induction h with
    | intro rank _ ih =>
        rintro n rfl
        exact ih _ (hdescends n) (n + 1) rfl
  exact hacc _ (below_wf.apply _) 0 rfl

end GcEngine

end AiArtifactStore.Gc
