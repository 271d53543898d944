import AiArtifactStore.Gc.Engine
import AiArtifactStore.Metadata.Histories

/-!
# Arbitrary replies

`collect` against replies that need not come from any service.  It ends after finitely
many requests, deletes only what a reply has called collectible, and counts what it received,
modulo the width of its counters.
-/

namespace AiArtifactStore.Gc

open AiArtifactStore.Foundation
open AiArtifactStore.Identity
open AiArtifactStore.Metadata
open AiArtifactStore.Storage
open AiArtifactStore.Client

/-- The requests that were sent, each with its reply. -/
abbrev Exchanges := List (Message × Response)

namespace GcEngine

/-- The exchanges and the state of `collect` after at most `n` replies of a sequence. -/
def exchange (engine : GcEngine) (request : GcRequest) (replies : Nat → Response) :
    Nat → Exchanges × GcState
  | 0 => ([], collect engine)
  | n + 1 =>
      let point := exchange engine request replies n
      match message engine request point.2 with
      | none => point
      | some m => (point.1 ++ [(m, replies n)], receive engine request point.2 (replies n))

end GcEngine

def entriesOf : Message × Response → Nat
  | (.storage (.listChunks _ _), .ok (.inventory page)) => page.chunks.length
  | _ => 0

def entriesReceived (exchanges : Exchanges) : Nat := (exchanges.map entriesOf).sum

def AnsweredCollectible (runId : UuidV7) (exchanges : Exchanges) (chunkId : ContentId) : Prop :=
  ∃ chunkIds decisions,
    ((.metadata (.classifyGcChunks runId chunkIds), .ok (.classification runId decisions)) :
      Message × Response) ∈ exchanges ∧ ⟨chunkId, true⟩ ∈ decisions

structure Counted (stats : GcPhysicalStats) (scanned collectible deleted : Nat) : Prop where
  scanned_eq : stats.physicalChunksScanned = scanned % 2 ^ 64
  collectible_eq : stats.collectibleChunks = collectible % 2 ^ 64
  deleted_eq : stats.physicallyDeletedChunks = deleted % 2 ^ 64

section

variable {engine : GcEngine} {request : GcRequest} {exchanges : Exchanges}
  {stats : GcPhysicalStats} {scanned collectible deleted : Nat} {m : Message} {reply : Response}

theorem entriesReceived_append (exchanges : Exchanges) (last : Message × Response) :
    entriesReceived (exchanges ++ [last]) = entriesReceived exchanges + entriesOf last := by
  simp [entriesReceived]

theorem AnsweredCollectible.append {runId : UuidV7} {chunkId : ContentId}
    (h : AnsweredCollectible runId exchanges chunkId) (last : Message × Response) :
    AnsweredCollectible runId (exchanges ++ [last]) chunkId := by
  obtain ⟨chunkIds, decisions, hexchange, hdecision⟩ := h
  exact ⟨chunkIds, decisions, List.mem_append_left _ hexchange, hdecision⟩

/-! ## Counting -/

theorem addU64_mod (a b : Nat) : addU64 (a % 2 ^ 64) b = (a + b) % 2 ^ 64 := Nat.mod_add_mod a _ b

theorem counted_zero : Counted .zero 0 0 0 := ⟨rfl, rfl, rfl⟩

theorem Counted.scan (h : Counted stats scanned collectible deleted)
    (chunks : List StoredChunkInfo) :
    Counted (chunks.foldl countScanned stats) (scanned + chunks.length) collectible deleted := by
  induction chunks generalizing stats scanned with
  | nil => exact h
  | cons info chunks ih =>
      have hinfo : Counted (countScanned stats info) (scanned + 1) collectible deleted := by
        refine ⟨?_, h.collectible_eq, h.deleted_eq⟩
        rw [countScanned, h.scanned_eq, addU64_mod]
      rw [List.foldl_cons, List.length_cons, Nat.add_comm chunks.length, ← Nat.add_assoc]
      exact ih hinfo

theorem Counted.collect (h : Counted stats scanned collectible deleted) (info : StoredChunkInfo) :
    Counted (countCollectible stats info) scanned (collectible + 1) deleted := by
  refine ⟨h.scanned_eq, ?_, h.deleted_eq⟩
  rw [countCollectible, h.collectible_eq, addU64_mod]

theorem Counted.delete (h : Counted stats scanned collectible deleted) (info : StoredChunkInfo) :
    Counted (countDeleted stats info) scanned collectible (deleted + 1) := by
  refine ⟨h.scanned_eq, h.collectible_eq, ?_⟩
  rw [countDeleted, h.deleted_eq, addU64_mod]

/-! ## The invariant -/

/-- The counters have room for `left` more collectible chunks, and `due` of those counted are
still to be deleted. -/
def Tallied (exchanges : Exchanges) (stats : GcPhysicalStats) (left due : Nat) : Prop :=
  ∃ collectible deleted, Counted stats (entriesReceived exchanges) collectible deleted ∧
    collectible + left ≤ entriesReceived exchanges ∧ deleted + due ≤ collectible

/-- The collectible ones among decisions have been answered so. -/
def Answered (request : GcRequest) (exchanges : Exchanges)
    (decisions : List (GcChunkDecision × StoredChunkInfo)) : Prop :=
  ∀ pair ∈ decisions, pair.1.collectible = true →
    AnsweredCollectible request.runId exchanges pair.1.chunkId

/-- What holds before the next request. -/
def Supported (request : GcRequest) (exchanges : Exchanges) : GcState → Prop
  | .start => entriesReceived exchanges = 0
  | .list _ stats => Tallied exchanges stats 0 0
  | .classify _ page stats => Tallied exchanges stats page.chunks.length 0
  | .delete _ _ info rest stats =>
      request.dryRun = false ∧ AnsweredCollectible request.runId exchanges info.chunkId ∧
        Answered request exchanges rest ∧ Tallied exchanges stats rest.length 1
  | .complete stats => Tallied exchanges stats 0 0
  | .returned _ => True
  | .threw _ => True

theorem Tallied.mono {left due less : Nat} (h : Tallied exchanges stats left due)
    (hless : less ≤ left) : Tallied exchanges stats less due := by
  obtain ⟨collectible, deleted, hcounted, hroom, hdue⟩ := h
  exact ⟨collectible, deleted, hcounted, by omega, hdue⟩

theorem Tallied.collect {left due : Nat} (h : Tallied exchanges stats (left + 1) due)
    (info : StoredChunkInfo) : Tallied exchanges (countCollectible stats info) left (due + 1) := by
  obtain ⟨collectible, deleted, hcounted, hroom, hdue⟩ := h
  exact ⟨collectible + 1, deleted, hcounted.collect info, by omega, by omega⟩

theorem Tallied.settle {left due : Nat} (h : Tallied exchanges stats left (due + 1)) :
    Tallied exchanges stats left due := by
  obtain ⟨collectible, deleted, hcounted, hroom, hdue⟩ := h
  exact ⟨collectible, deleted, hcounted, hroom, by omega⟩

theorem Tallied.delete {left due : Nat} (h : Tallied exchanges stats left (due + 1))
    (info : StoredChunkInfo) : Tallied exchanges (countDeleted stats info) left due := by
  obtain ⟨collectible, deleted, hcounted, hroom, hdue⟩ := h
  exact ⟨collectible, deleted + 1, hcounted.delete info, hroom, by omega⟩

theorem Tallied.append {left due : Nat} (h : Tallied exchanges stats left due)
    {last : Message × Response} (hlast : entriesOf last = 0) :
    Tallied (exchanges ++ [last]) stats left due := by
  obtain ⟨collectible, deleted, hcounted, hroom, hdue⟩ := h
  refine ⟨collectible, deleted, ?_, ?_, hdue⟩
  · rwa [entriesReceived_append, hlast]
  · rwa [entriesReceived_append, hlast]

theorem supported_andThen {α : Type} {result : Except ClientExc α} {next : α → GcState}
    (h : ∀ a, result = .ok a → Supported request exchanges (next a)) :
    Supported request exchanges (GcEngine.andThen result next) := by
  cases result with
  | error e => trivial
  | ok a => exact h a rfl

theorem supported_finish (h : Tallied exchanges stats 0 0) :
    Supported request exchanges (GcEngine.finish stats) := supported_andThen fun _ _ => h

theorem supported_nextPage {after : Option ContentId} {page : StoredChunkPage}
    (h : Tallied exchanges stats 0 0) :
    Supported request exchanges (GcEngine.nextPage after page stats) := by
  unfold GcEngine.nextPage
  cases page.nextAfter with
  | none => exact supported_finish h
  | some next =>
      simp only
      split
      · trivial
      · exact h

theorem supported_takeDecisions {after : Option ContentId} {page : StoredChunkPage}
    {rest : List (GcChunkDecision × StoredChunkInfo)} (hanswered : Answered request exchanges rest)
    (h : Tallied exchanges stats rest.length 0) :
    Supported request exchanges (GcEngine.takeDecisions request after page rest stats) := by
  induction rest generalizing stats with
  | nil => exact supported_nextPage h
  | cons head rest ih =>
      obtain ⟨decision, info⟩ := head
      have hrest : Answered request exchanges rest :=
        fun pair hpair => hanswered pair (List.mem_cons_of_mem _ hpair)
      unfold GcEngine.takeDecisions
      split
      · trivial
      · rename_i hid
        split
        · exact ih hrest (h.mono (Nat.le_succ _))
        · rename_i hcollectible
          split
          · exact ih hrest (h.collect info).settle
          · rename_i hdry
            have hchunk := hanswered _ List.mem_cons_self (Bool.not_eq_false _ ▸ hcollectible)
            rw [Decidable.not_not.mp hid] at hchunk
            exact ⟨Bool.not_eq_true _ ▸ hdry, hchunk, hrest, h.collect info⟩

theorem answered_zip (exchanges : Exchanges) (chunkIds : List ContentId)
    (decisions : List GcChunkDecision) (chunks : List StoredChunkInfo) :
    Answered request
      (exchanges ++ [(.metadata (.classifyGcChunks request.runId chunkIds),
        .ok (.classification request.runId decisions))]) (decisions.zip chunks) := by
  rintro ⟨⟨chunkId, flag⟩, info⟩ hpair hcollectible
  obtain rfl : flag = true := hcollectible
  exact ⟨chunkIds, decisions, List.mem_append_right _ (List.mem_singleton_self _),
    (List.of_mem_zip hpair).1⟩

theorem Tallied.receive (h : Tallied exchanges stats 0 0) {last : Message × Response}
    {chunks : List StoredChunkInfo} (hlast : entriesOf last = chunks.length) :
    Tallied (exchanges ++ [last]) (chunks.foldl countScanned stats) chunks.length 0 := by
  obtain ⟨collectible, deleted, hcounted, hroom, hdue⟩ := h
  rw [Tallied, entriesReceived_append, hlast]
  exact ⟨collectible, deleted, hcounted.scan chunks, by omega, hdue⟩

theorem supported_listed {after : Option ContentId} {page : StoredChunkPage}
    (h : Tallied exchanges (page.chunks.foldl countScanned stats) page.chunks.length 0) :
    Supported request exchanges (GcEngine.listed after stats page) := by
  unfold GcEngine.listed
  split
  · rename_i hempty
    rw [hempty] at h
    split
    · trivial
    · exact supported_finish h
  · unfold GcEngine.scanPage
    split
    · trivial
    · split
      · trivial
      · exact supported_andThen fun _ _ => h

/-! ## Steps and runs -/

theorem supported_receive {s : GcState} (hm : GcEngine.message engine request s = some m)
    (h : Supported request exchanges s) :
    Supported request (exchanges ++ [(m, reply)]) (GcEngine.receive engine request s reply) := by
  cases s with
  | start =>
      obtain rfl := Option.some.inj hm
      refine supported_andThen fun run _ => ?_
      unfold GcEngine.started
      split
      · cases run.state with
        | completed => trivial
        | «open» =>
            have hreceived : entriesReceived
                (exchanges ++ [(.metadata (.startGcRun (requestedRun engine request)), reply)]) =
                  0 := by
              rw [entriesReceived_append]
              exact h
            refine ⟨0, 0, ?_, by omega, by omega⟩
            rw [hreceived]
            exact counted_zero
      · trivial
  | list after stats =>
      obtain rfl := Option.some.inj hm
      refine supported_andThen fun page hpage => supported_listed (Tallied.receive h ?_)
      -- An accepted reply is the page itself.
      cases reply with
      | error e => cases hpage
      | ok body =>
          cases body with
          | inventory received =>
              obtain rfl := Except.ok.inj hpage
              rfl
          | gcRun | classification | deletion | other => cases hpage
  | classify after page stats =>
      obtain rfl := Option.some.inj hm
      refine supported_andThen fun decisions hdecisions => ?_
      unfold GcEngine.classified
      split
      · trivial
      · rename_i hlength
        have hreply : reply = .ok (.classification request.runId decisions) := by
          simp only [MetadataClient.classifyGcChunks, bind_eq_ok, exists_unit, failIf_eq_ok]
            at hdecisions
          obtain ⟨⟨runId, chunks⟩, ⟨body, rfl, hbody⟩, hrun, -, -, hchunks⟩ := hdecisions
          obtain rfl := Except.ok.inj hchunks
          cases body with
          | classification =>
              obtain ⟨rfl, rfl⟩ := Prod.mk.inj (Except.ok.inj hbody)
              obtain rfl : _ = request.runId := Decidable.not_not.mp hrun
              rfl
          | gcRun | inventory | deletion | other => cases hbody
        subst hreply
        refine supported_takeDecisions (answered_zip exchanges _ decisions page.chunks) ?_
        rw [List.length_zip, Decidable.not_not.mp hlength, Nat.min_self]
        exact Tallied.append h rfl
  | delete after page info rest stats =>
      obtain rfl := Option.some.inj hm
      obtain ⟨hdry, hinfo, hrest, htallied⟩ := h
      refine supported_andThen fun deleted _ => ?_
      have hlater := htallied.append
        (show entriesOf ((.storage (.deleteChunk info.chunkId), reply) : Message × Response) = 0 from
          rfl)
      refine supported_takeDecisions (fun pair hpair hcollectible => ?_) ?_
      · exact (hrest pair hpair hcollectible).append _
      · cases deleted with
        | true => exact hlater.delete info
        | false => exact hlater.settle
  | complete stats =>
      obtain rfl := Option.some.inj hm
      exact supported_andThen fun _ _ => trivial
  | returned run => cases hm
  | threw e => cases hm

theorem supported_exchange (engine : GcEngine) (request : GcRequest) (replies : Nat → Response)
    (n : Nat) : Supported request (engine.exchange request replies n).1
      (engine.exchange request replies n).2 := by
  induction n with
  | zero =>
      unfold GcEngine.exchange GcEngine.collect
      split
      · trivial
      · rfl
  | succ n ih =>
      rw [GcEngine.exchange]
      cases hm : GcEngine.message engine request (engine.exchange request replies n).2 with
      | none => exact ih
      | some m => exact supported_receive hm ih

theorem exchange_terminates (engine : GcEngine) (request : GcRequest) (replies : Nat → Response) :
    ∃ n, GcEngine.message engine request (engine.exchange request replies n).2 = none := by
  refine GcEngine.terminates (fun n => (engine.exchange request replies n).2) fun n => ?_
  cases hm : GcEngine.message engine request (engine.exchange request replies n).2 with
  | none => exact .inl rfl
  | some m =>
      refine .inr ⟨replies n, ?_⟩
      simp only [GcEngine.exchange, hm]

/-- Whatever the replies are, `collect` ends; it sends a delete only for a chunk that has been
answered collectible, and none in a dry run; and what it reports are numbers of received
entries, of collectible ones among them and of deleted ones among these, each modulo the
width of its counter. -/
theorem collect_against_replies (engine : GcEngine) (request : GcRequest)
    (replies : Nat → Response) :
    (∃ n, GcEngine.message engine request (engine.exchange request replies n).2 = none) ∧
    ∀ n, (∀ chunkId, GcEngine.message engine request (engine.exchange request replies n).2 =
          some (.storage (.deleteChunk chunkId)) →
        request.dryRun = false ∧
          AnsweredCollectible request.runId (engine.exchange request replies n).1 chunkId) ∧
      ∀ stats, GcEngine.message engine request (engine.exchange request replies n).2 =
          some (.metadata (.completeGcRun request.runId stats)) →
        ∃ collectible deleted, deleted ≤ collectible ∧
          collectible ≤ entriesReceived (engine.exchange request replies n).1 ∧
          Counted stats (entriesReceived (engine.exchange request replies n).1)
            collectible deleted := by
  refine ⟨exchange_terminates engine request replies, fun n => ?_⟩
  have hsupported := supported_exchange engine request replies n
  generalize engine.exchange request replies n = point at hsupported
  obtain ⟨exchanges, state⟩ := point
  constructor
  · intro chunkId hm
    cases state with
    | delete after page info rest stats =>
        obtain ⟨hdry, hinfo, -⟩ := hsupported
        obtain rfl : info.chunkId = chunkId :=
          StorageRequest.deleteChunk.inj (Message.storage.inj (Option.some.inj hm))
        exact ⟨hdry, hinfo⟩
    | start | list | classify | complete => simp [GcEngine.message] at hm
    | returned | threw => cases hm
  · intro stats hm
    cases state with
    | complete reported =>
        obtain ⟨-, rfl⟩ := ServiceOp.completeGcRun.inj (Message.metadata.inj (Option.some.inj hm))
        obtain ⟨collectible, deleted, hcounted, hroom, hdue⟩ := hsupported
        exact ⟨collectible, deleted, hdue, hroom, hcounted⟩
    | start | list | classify | delete => simp [GcEngine.message] at hm
    | returned | threw => cases hm

end

/-! ### More entries than a counter can hold -/

namespace Sample

def countingEngine : GcEngine := ⟨"n1"⟩

def countingRequest : GcRequest := ⟨Metadata.Sample.uuid 1, true⟩

def entryAt (k : Nat) : StoredChunkInfo := ⟨⟨BitVec.ofNat 256 k⟩, 0⟩

/-- A page with one entry, the last one after `last` others. -/
def pageAt (last k : Nat) : StoredChunkPage :=
  ⟨[entryAt k], if k < last then some (entryAt k).chunkId else none⟩

def longReplies (last : Nat) : Nat → Response
  | 0 => .ok (.gcRun (requestedRun countingEngine countingRequest))
  | n + 1 =>
      if n % 2 = 0 then .ok (.inventory (pageAt last (n / 2)))
      else .ok (.classification countingRequest.runId [⟨(entryAt (n / 2)).chunkId, false⟩])

def cursorAt : Nat → Option ContentId
  | 0 => none
  | k + 1 => some (entryAt k).chunkId

def statsAt (k : Nat) : GcPhysicalStats :=
  { GcPhysicalStats.zero with physicalChunksScanned := k % 2 ^ 64 }

theorem cursorAt_lt {k : Nat} (h : k < 2 ^ 256) :
    ¬∃ previous ∈ cursorAt k, (entryAt k).chunkId ≤ previous := by
  cases k with
  | zero => rintro ⟨-, ⟨⟩, -⟩
  | succ k =>
      rintro ⟨_, ⟨⟩, hle⟩
      have hle : (BitVec.ofNat 256 (k + 1)).toNat ≤ (BitVec.ofNat 256 k).toNat := hle
      rw [BitVec.toNat_ofNat, BitVec.toNat_ofNat, Nat.mod_eq_of_lt h,
        Nat.mod_eq_of_lt (Nat.lt_of_succ_lt h)] at hle
      exact absurd hle (Nat.not_succ_le_self k)

theorem receive_page (last k : Nat) :
    GcEngine.receive countingEngine countingRequest (.list (cursorAt k) (statsAt k))
      (.ok (.inventory (pageAt last k))) =
        .classify (cursorAt k) (pageAt last k) (statsAt (k + 1)) := by
  have hlast : ¬∃ next ∈ (pageAt last k).nextAfter,
      (pageAt last k).chunks.getLast?.map StoredChunkInfo.chunkId ≠ some next := by
    rintro ⟨next, hnext, hne⟩
    simp only [pageAt] at hnext
    split at hnext
    · exact hne hnext
    · cases hnext
  have hcount : (pageAt last k).chunks.foldl countScanned (statsAt k) = statsAt (k + 1) := by
    have hscanned : addU64 (k % 2 ^ 64) 1 = (k + 1) % 2 ^ 64 := addU64_mod k 1
    simp only [pageAt, List.foldl_cons, List.foldl_nil, countScanned, statsAt, hscanned]
    rfl
  have hscan : GcEngine.scanPage (cursorAt k) (statsAt k) (pageAt last k) =
      .classify (cursorAt k) (pageAt last k) (statsAt (k + 1)) := by
    rw [GcEngine.scanPage, if_neg (by simp [pageAt, GcEngine.lexicographicallyIncreasing]),
      if_neg hlast, hcount]
    rfl
  exact hscan

theorem receive_decision (last k : Nat) :
    GcEngine.receive countingEngine countingRequest
      (.classify (cursorAt k) (pageAt last k) (statsAt (k + 1)))
      (.ok (.classification countingRequest.runId [⟨(entryAt k).chunkId, false⟩])) =
        GcEngine.nextPage (cursorAt k) (pageAt last k) (statsAt (k + 1)) := by
  simp [GcEngine.receive, MetadataClient.classifyGcChunks, MetadataClient.parseClassification,
    pageAt, failIf, GcEngine.andThen, GcEngine.classified, GcEngine.takeDecisions]

theorem longReplies_page (last k : Nat) :
    longReplies last (2 * k + 1) = .ok (.inventory (pageAt last k)) := by
  have heven : 2 * k % 2 = 0 := Nat.mul_mod_right 2 k
  have hhalf : 2 * k / 2 = k := Nat.mul_div_cancel_left k Nat.two_pos
  rw [longReplies, if_pos heven, hhalf]

theorem longReplies_decision (last k : Nat) :
    longReplies last (2 * k + 2) =
      .ok (.classification countingRequest.runId [⟨(entryAt k).chunkId, false⟩]) := by
  have hodd : ¬(2 * k + 1) % 2 = 0 := by omega
  have hhalf : (2 * k + 1) / 2 = k := by omega
  rw [longReplies, if_neg hodd, hhalf]

theorem exchange_page {last k : Nat} {exchanges : Exchanges}
    (h : countingEngine.exchange countingRequest (longReplies last) (2 * k + 1) =
      (exchanges, .list (cursorAt k) (statsAt k))) :
    ∃ exchanges', countingEngine.exchange countingRequest (longReplies last) (2 * k + 3) =
        (exchanges', GcEngine.nextPage (cursorAt k) (pageAt last k) (statsAt (k + 1))) ∧
      entriesReceived exchanges' = entriesReceived exchanges + 1 := by
  have hpage : countingEngine.exchange countingRequest (longReplies last) (2 * k + 2) =
      (exchanges ++ [(.storage (.listChunks (cursorAt k) kInventoryPageSize),
        .ok (.inventory (pageAt last k)))],
        .classify (cursorAt k) (pageAt last k) (statsAt (k + 1))) := by
    rw [GcEngine.exchange, h, longReplies_page]
    simp only [GcEngine.message, receive_page]
  have hdecision : countingEngine.exchange countingRequest (longReplies last) (2 * k + 3) =
      (exchanges ++ [(.storage (.listChunks (cursorAt k) kInventoryPageSize),
          .ok (.inventory (pageAt last k)))] ++
        [(.metadata (.classifyGcChunks countingRequest.runId
          ((pageAt last k).chunks.map StoredChunkInfo.chunkId)),
          .ok (.classification countingRequest.runId [⟨(entryAt k).chunkId, false⟩]))],
        GcEngine.nextPage (cursorAt k) (pageAt last k) (statsAt (k + 1))) := by
    rw [GcEngine.exchange, hpage, longReplies_decision]
    simp only [GcEngine.message, receive_decision]
  refine ⟨_, hdecision, ?_⟩
  rw [entriesReceived_append, entriesReceived_append]
  rfl

theorem exchange_pages {last : Nat} (hlast : last < 2 ^ 256) {k : Nat} (hk : k ≤ last) :
    ∃ exchanges, countingEngine.exchange countingRequest (longReplies last) (2 * k + 1) =
        (exchanges, .list (cursorAt k) (statsAt k)) ∧ entriesReceived exchanges = k := by
  induction k with
  | zero => exact ⟨_, rfl, rfl⟩
  | succ k ih =>
      obtain ⟨exchanges, hexchange, hreceived⟩ := ih (Nat.le_of_succ_le hk)
      obtain ⟨exchanges', hexchange', hreceived'⟩ := exchange_page hexchange
      have hnext : GcEngine.nextPage (cursorAt k) (pageAt last k) (statsAt (k + 1)) =
          .list (cursorAt (k + 1)) (statsAt (k + 1)) := by
        have hadvance := cursorAt_lt (Nat.lt_trans (Nat.lt_of_succ_le hk) hlast)
        simp only [GcEngine.nextPage, pageAt, if_pos (Nat.lt_of_succ_le hk), if_neg hadvance]
        rfl
      exact ⟨exchanges', hnext ▸ hexchange', by rw [hreceived', hreceived]⟩

theorem exchange_complete {last : Nat} (hlast : last < 2 ^ 256)
    (hfits : (last + 1) % 2 ^ 64 ≤ postgresBigintMax) :
    ∃ n, GcEngine.message countingEngine countingRequest
        (countingEngine.exchange countingRequest (longReplies last) n).2 =
          some (.metadata (.completeGcRun countingRequest.runId (statsAt (last + 1)))) ∧
      entriesReceived (countingEngine.exchange countingRequest (longReplies last) n).1 =
        last + 1 := by
  obtain ⟨exchanges, hexchange, hreceived⟩ := exchange_pages hlast (Nat.le_refl last)
  obtain ⟨exchanges', hexchange', hreceived'⟩ := exchange_page hexchange
  have hvalid : MetadataClient.validateGcPhysicalStats (statsAt (last + 1)) = .ok () := by
    have hscanned : ¬(statsAt (last + 1)).physicalChunksScanned > postgresBigintMax :=
      Nat.not_lt.mpr hfits
    rw [MetadataClient.validateGcPhysicalStats, MetadataClient.checkStat,
      failIf_of_false hscanned]
    rfl
  refine ⟨2 * last + 3, ?_, ?_⟩
  · rw [hexchange', GcEngine.nextPage, pageAt, if_neg (Nat.lt_irrefl last)]
    simp only [GcEngine.finish, hvalid]
    rfl
  · rw [hexchange', hreceived', hreceived]

end Sample

/-- With `2 ^ 64 + 1` entries the counter of the scanned chunks says one. -/
theorem scanned_wraps :
    ¬∀ (engine : GcEngine) (request : GcRequest) (replies : Nat → Response) (n : Nat)
      (stats : GcPhysicalStats),
      GcEngine.message engine request (engine.exchange request replies n).2 =
          some (.metadata (.completeGcRun request.runId stats)) →
        stats.physicallyDeletedChunks ≤ stats.collectibleChunks ∧
        stats.collectibleChunks ≤ stats.physicalChunksScanned ∧
        stats.physicalChunksScanned =
          entriesReceived (engine.exchange request replies n).1 := by
  intro h
  obtain ⟨n, hmessage, hreceived⟩ := @Sample.exchange_complete (2 ^ 64) (by norm_num) (by decide)
  obtain ⟨-, -, hscanned⟩ := h _ _ _ n _ hmessage
  rw [hreceived] at hscanned
  have hone : (Sample.statsAt (2 ^ 64 + 1)).physicalChunksScanned = 1 := by decide
  rw [hone] at hscanned
  exact absurd hscanned (by norm_num)

end AiArtifactStore.Gc
