import AiArtifactStore.Metadata.Histories
import AiArtifactStore.Push.Durability

/-!
# A push that returns can be finalized

The descriptor of a push that returns describes the whole input, every chunk of
it is stored on the nodes that placement assigns, and it passes the checks that
`finalize_upload` makes of it.
-/

namespace AiArtifactStore.Push

open AiArtifactStore.Foundation
open AiArtifactStore.Identity
open AiArtifactStore.Metadata
open AiArtifactStore.Storage
open AiArtifactStore.Chunking
open AiArtifactStore.Client

section

variable {env : Environment} {ctx : PushContext} {services : Services} {start s : PushState}
  {sessionId : UuidV7} {source : Option (List UInt8)} {input : List UInt8}
  {chunkFeed : ChunkFeed} {prepared : PreparedPush}

/-! ## The start -/

theorem sound_initial :
    Sound env ctx input (chunkFeed.allChunks input) (.initial services chunkFeed input) := by
  have hidle : ∀ worker ∈ (PushState.initial services chunkFeed input).workers, worker = .idle :=
    fun worker hworker => List.eq_of_mem_replicate hworker
  refine ⟨⟨by simp [PushState.initial], by simp [PushState.initial], by simp [PushState.initial],
    by simp [PushState.initial, Reader.remaining], by simp [PushState.initial],
    by simp [PushState.initial, ReaderPhase.work], by simp [PushState.initial, ReaderPhase.work],
    by simp [PushState.initial]⟩, by simp [PushState.initial, BoundedQueue.make],
    fun worker hworker => ?_, fun _ => by simp [PushState.initial], fun hexited => ?_, ?_⟩
  · rw [hidle worker hworker]
    exact ⟨by simp, trivial⟩
  · cases hidle _ hexited
  · simp [PushState.initial, kWorkerCount]

/-- What a call of `push` has checked before it starts its threads. -/
structure Started (services : Services) (sessionId : UuidV7) (pool : List String)
    (ctx : PushContext) (start : PushState) (chunkFeed : ChunkFeed) (input : List UInt8) : Prop where
  stored : ∃ row, services.db.uploadSessions.find? sessionId = some row ∧ row.status = .open ∧
    row.session = ctx.session
  request : ctx.sessionId = sessionId
  pool : ctx.pool = pool
  feed : makeChunkFeed ctx.session = .ok chunkFeed
  initial : start = .initial services chunkFeed input

theorem push_started {engine : PushEngine}
    (h : engine.push services sessionId source = .ok (ctx, start)) :
    ∃ chunkFeed input, source = some input ∧
      Started services sessionId engine.pool ctx start chunkFeed input := by
  simp only [PushEngine.push, bind_eq_ok, exists_unit, failIf_eq_ok, orFail_eq_ok] at h
  obtain ⟨found, hfound, row, rfl, hstate, -, chunkFeed, hfeed, input, hsource, h⟩ := h
  obtain ⟨rfl, rfl⟩ := Prod.mk.inj (Except.ok.inj h)
  refine ⟨chunkFeed, input, hsource, ⟨row, ?_, ?_, rfl⟩, rfl, rfl, hfeed, rfl⟩
  · unfold MetadataClient.getUploadSession at hfound
    cases hfind : services.db.uploadSessions.find? sessionId with
    | none => simp [hfind] at hfound
    | some stored =>
        simp only [hfind] at hfound
        cases hrow : reconstructUploadSession stored with
        | error e => simp [hrow, Except.mapError, Except.map] at hfound
        | ok row' =>
            simp only [hrow, Except.mapError, Except.map, Except.ok.injEq, Option.some.injEq] at hfound
            subst hfound
            rw [(reconstructUploadSession_ok hrow).1]
  · cases hstatus : row.status with
    | «open» => rfl
    | committed v => simp [hstatus, UploadSessionStatus.state] at hstate
    | aborted => simp [hstatus, UploadSessionStatus.state] at hstate

theorem makeChunkFeed_ok {session : UploadSession} (h : makeChunkFeed session = .ok chunkFeed) :
    chunkFeed.Runs session.chunking ∧
      ∀ size, ChunkFeed.finalSizeOk session.chunking size = true → size ≤ kMaxM4ChunkSize := by
  unfold makeChunkFeed at h
  split at h
  · rename_i chunkSizeBytes hchunking
    simp only [bind_eq_ok, exists_unit, failIf_eq_ok, not_or] at h
    obtain ⟨⟨-, hmax⟩, chunker, hmake, h⟩ := h
    obtain rfl := Except.ok.inj h
    refine ⟨?_, fun size hsize => ?_⟩
    · unfold FixedSizeChunker.make at hmake
      split at hmake
      · obtain rfl := Except.ok.inj hmake
        exact hchunking
      · cases hmake
    · simp only [hchunking, ChunkFeed.finalSizeOk, Bool.and_eq_true, decide_eq_true_eq] at hsize
      exact Nat.le_trans hsize.2 (Nat.le_of_not_lt hmax)
  · rename_i p hchunking
    simp only [bind_eq_ok] at h
    obtain ⟨chunker, hmake, h⟩ := h
    obtain rfl := Except.ok.inj h
    have hvalid : chunker.parameters = p := by
      unfold FastCdcChunker.make at hmake
      split at hmake
      · cases hmake
      · obtain rfl := Except.ok.inj hmake
        rfl
    refine ⟨hchunking.trans (congrArg _ hvalid.symm), fun size hsize => ?_⟩
    have hmax := validateFastCdcParameters_ok.mp
      (validateFastCdcChunkerParameters_ok.mp chunker.valid)
    rw [hvalid] at hmax
    simp only [hchunking, ChunkFeed.finalSizeOk, Bool.and_eq_true, decide_eq_true_eq] at hsize
    exact Nat.le_trans hsize.2 hmax.2.2.2.2.2

/-! ## The descriptor -/

def layoutChunking : SessionChunking → LayoutChunking
  | .fixedSize _ => .fixedSize
  | .fastCdc p => .fastCdc p

theorem describe_ok {session : UploadSession} {refs : List ChunkRef} {d : ObjectLayoutDescriptor}
    (h : describe env session input refs = .ok d) :
    d.object = ⟨env.contentId input, input.length⟩ ∧
      d.chunking = layoutChunking session.chunking ∧ d.layout.chunks = refs := by
  simp only [describe, bind_eq_ok] at h
  obtain ⟨layout, hlayout, hd⟩ := h
  have hchunks : layout.chunks = refs := by
    cases hmake : ObjectLayout.make refs with
    | error e => simp [hmake, Except.mapError] at hlayout
    | ok made =>
        simp only [hmake, Except.mapError, Except.ok.injEq] at hlayout
        exact hlayout ▸ ObjectLayout.chunks_of_make hmake
  have hfields : ∀ chunking,
      (ObjectLayoutDescriptor.make ⟨env.contentId input, input.length⟩ chunking layout).mapError
        EngineExc.domain = .ok d →
      d.object = ⟨env.contentId input, input.length⟩ ∧ d.chunking = chunking ∧
        d.layout.chunks = refs := by
    intro chunking hmade
    cases hmake : ObjectLayoutDescriptor.make ⟨env.contentId input, input.length⟩ chunking layout with
    | error e => simp [hmake, Except.mapError] at hmade
    | ok made =>
        simp only [hmake, Except.mapError, Except.ok.injEq] at hmade
        obtain ⟨hobject, hchunking, rfl⟩ := ObjectLayoutDescriptor.fields_of_make hmake
        subst hmade
        exact ⟨hobject, hchunking, hchunks⟩
  unfold makeLayoutDescriptor at hd
  cases hchunking : session.chunking with
  | fixedSize n =>
      simp only [hchunking] at hd
      exact hfields _ hd
  | fastCdc p =>
      simp only [hchunking] at hd
      exact hfields _ hd

theorem returns_ok (h : s.returns env ctx = some (.ok prepared)) :
    s.joined = true ∧ s.shared.firstFailure = none ∧
      describe env ctx.session s.reader.fed s.reader.layoutRefs = .ok prepared.layoutDescriptor := by
  unfold PushState.returns at h
  split at h
  · rename_i hjoined
    have hprepare := Option.some.inj h
    unfold PushState.prepare at hprepare
    split at hprepare
    · cases hprepare
    · rename_i hfailure
      simp only [bind_eq_ok] at hprepare
      obtain ⟨d, hd, hprepared⟩ := hprepare
      obtain rfl := Except.ok.inj hprepared
      exact ⟨hjoined, hfailure, hd⟩
  · cases h

/-! ## The checks of `finalize_upload` -/

theorem checkSessionChunking_of_feed {session : UploadSession} {d : ObjectLayoutDescriptor}
    (hruns : chunkFeed.Runs session.chunking)
    (hchunking : d.chunking = layoutChunking session.chunking)
    (hchunks : d.layout.chunks = (chunkFeed.allChunks input).map (chunkRef env)) :
    checkSessionChunking session d = .ok () := by
  have hsizes : ∀ nonFinalError finalError,
      checkChunkSizes d.layout.chunks (ChunkFeed.nonFinalSizeOk session.chunking)
        (ChunkFeed.finalSizeOk session.chunking) nonFinalError finalError = .ok () := by
    intro nonFinalError finalError
    rw [hchunks, ChunkFeed.allChunks, List.map_append]
    have hfinal := (hruns.advance input).final
    refine checkChunkSizes_append ?_ (by simpa using hfinal.1) ?_ ?_
    · have hvalid := (UploadSession.valid_iff.mp session.valid).2.2.2.2.2.2
      exact fun size hsize => ChunkFeed.finalSizeOk_of_nonFinal hvalid hsize
    · intro ref href
      obtain ⟨chunk, hchunk, rfl⟩ := List.mem_map.mp href
      exact hruns.nonFinal chunk hchunk
    · intro ref href
      obtain ⟨chunk, hchunk, rfl⟩ := List.mem_map.mp href
      exact hfinal.2 chunk hchunk
  have hstrategy : d.chunkingStrategy = session.chunking.strategy := by
    rw [ObjectLayoutDescriptor.chunkingStrategy, hchunking]
    cases session.chunking <;> rfl
  rw [checkSessionChunking, failIf_of_false (not_not.mpr hstrategy), ok_bind]
  split
  · rfl
  · cases hc : session.chunking with
    | fixedSize n =>
        rw [hc] at hsizes
        exact hsizes _ _
    | fastCdc p =>
        rw [hc] at hsizes
        rw [hc] at hchunking
        have hparameters : d.chunking.fastCdcParameters = some p := by
          rw [hchunking]
          rfl
        simp only [failIf_of_false (not_not.mpr hparameters), ok_bind]
        exact hsizes _ _

theorem uniqueChunks_ok {refs : List ChunkRef}
    (hsame : ∀ a ∈ refs, ∀ b ∈ refs, a.chunkId = b.chunkId → a.size = b.size) :
    ∃ unique, uniqueChunks refs = .ok unique ∧
      ∀ entry ∈ unique, ∃ ref ∈ refs, entry = (ref.chunkId, ref.size) := by
  have hloop : ∀ (xs : List ChunkRef) (unique : List (ContentId × Nat)),
      (∀ ref ∈ xs, ref ∈ refs) → (∀ entry ∈ unique, ∃ ref ∈ refs, entry = (ref.chunkId, ref.size)) →
      ∃ final, foldEach xs unique addUniqueChunk = .ok final ∧
        ∀ entry ∈ final, ∃ ref ∈ refs, entry = (ref.chunkId, ref.size) := by
    intro xs
    induction xs with
    | nil => exact fun unique _ hunique => ⟨unique, rfl, hunique⟩
    | cons ref xs ih =>
        intro unique hxs hunique
        have hrest : ∀ other ∈ xs, other ∈ refs := fun other ho => hxs other (by simp [ho])
        unfold foldEach addUniqueChunk
        cases hfind : unique.find? fun entry => entry.1 = ref.chunkId with
        | some existing =>
            obtain ⟨old, hold, heq⟩ := hunique existing (List.mem_of_find?_eq_some hfind)
            have hid : old.chunkId = ref.chunkId := by
              have := List.find?_some hfind
              simpa [heq] using this
            have hsize : existing.2 = ref.size := by
              rw [heq]
              exact hsame old hold ref (hxs ref (by simp)) hid
            simp only [hsize, ↓reduceIte]
            exact ih unique hrest hunique
        | none =>
            refine ih _ hrest fun entry hentry => ?_
            rcases mem_of_mem_emplaceSorted hentry with rfl | hentry
            · exact ⟨ref, hxs ref (by simp), rfl⟩
            · exact hunique entry hentry
  exact hloop refs [] (fun _ h => h) (by simp)

theorem kMaxM4ChunkSize_le : kMaxM4ChunkSize ≤ postgresBigintMax := by decide

theorem checkUniqueChunk_of_durable {chunk : ChunkMetadata} (h : Durable env ctx services chunk)
    (hsize : chunk.sizeBytes ≤ kMaxM4ChunkSize) :
    checkUniqueChunk env services.db ctx.session (chunk.chunkId, chunk.sizeBytes) = .ok () := by
  obtain ⟨hknown, desired, hdesired, hstored⟩ := h
  have hfind : services.db.chunks.find? chunk.chunkId = some chunk := hknown
  have hselect : selectReplicaNodes env chunk.chunkId ctx.session.placementNodeIds
      ctx.session.replicationFactor = .ok desired := hdesired
  simp only [checkUniqueChunk, hfind, orFail_some, ok_bind,
    toPostgresBigint_of_le (Nat.le_trans hsize kMaxM4ChunkSize_le), hselect]
  rw [failIf_of_false (by simp), ok_bind, forEach_eq_ok]
  intro nodeId hnode
  obtain ⟨location, hlocation, hstate⟩ := (hstored nodeId hnode).2
  exact failIf_of_false (not_not.mpr ⟨location, hlocation, hstate⟩)

theorem checkFinalizable_of_durable {d : ObjectLayoutDescriptor}
    (hfeed : makeChunkFeed ctx.session = .ok chunkFeed)
    (hfree : CollisionFree env (chunkFeed.allChunks input))
    (hchunking : d.chunking = layoutChunking ctx.session.chunking)
    (hchunks : d.layout.chunks = (chunkFeed.allChunks input).map (chunkRef env))
    (hdurable : ∀ ref ∈ d.layout.chunks, Durable env ctx services (ChunkRef.metadata ref)) :
    checkFinalizable env services.db ctx.session d = .ok () := by
  obtain ⟨hruns, hmax⟩ := makeChunkFeed_ok hfeed
  have hchecked := checkSessionChunking_of_feed hruns hchunking hchunks
  have hsizes : ∀ ref ∈ d.layout.chunks, ref.size ≤ kMaxM4ChunkSize := by
    intro ref href
    rw [hchunks] at href
    obtain ⟨chunk, hchunk, rfl⟩ := List.mem_map.mp href
    refine hmax _ ?_
    rcases List.mem_append.mp hchunk with hchunk | hchunk
    · have hnonFinal := hruns.nonFinal chunk hchunk
      have hvalid := (UploadSession.valid_iff.mp ctx.session.valid).2.2.2.2.2.2
      exact ChunkFeed.finalSizeOk_of_nonFinal hvalid hnonFinal
    · exact (hruns.advance input).final.2 chunk hchunk
  have hsame : ∀ a ∈ d.layout.chunks, ∀ b ∈ d.layout.chunks,
      a.chunkId = b.chunkId → a.size = b.size := by
    rw [hchunks]
    intro a ha b hb hid
    obtain ⟨first, hfirst, rfl⟩ := List.mem_map.mp ha
    obtain ⟨second, hsecond, rfl⟩ := List.mem_map.mp hb
    exact congrArg List.length (hfree first hfirst second hsecond hid)
  obtain ⟨unique, hunique, hentries⟩ := uniqueChunks_ok hsame
  simp only [checkFinalizable, hchecked, hunique, ok_bind]
  rw [forEach_eq_ok]
  intro entry hentry
  obtain ⟨ref, href, rfl⟩ := hentries entry hentry
  exact checkUniqueChunk_of_durable (hdurable ref href) (hsizes ref href)

theorem push_describes {pool : List String}
    (hstarted : Started services sessionId pool ctx start chunkFeed input)
    (hrun : PushState.Runs env ctx start s) (hreturns : s.returns env ctx = some (.ok prepared)) :
    describe env ctx.session input ((chunkFeed.allChunks input).map (chunkRef env)) =
        .ok prepared.layoutDescriptor ∧
      services.Grows s.services ∧
      (CollisionFree env (chunkFeed.allChunks input) →
        ∀ ref ∈ (chunkFeed.allChunks input).map (chunkRef env),
          Durable env ctx s.services (ChunkRef.metadata ref)) := by
  obtain ⟨hjoined, hfailure, hdescribe⟩ := returns_ok hreturns
  obtain rfl := hstarted.initial
  obtain ⟨hsound, hgrows⟩ := sound_runs sound_initial hrun hfailure
  obtain ⟨hrefs, hfed, hdurable⟩ := hsound.durable hjoined
  rw [hrefs, hfed] at hdescribe
  rw [hrefs] at hdurable
  exact ⟨hdescribe, hgrows, hdurable⟩

/-- When a push returns, every chunk of its descriptor is stored on the nodes that
placement assigns it, and the descriptor passes the checks of `finalize_upload`. -/
theorem push_finalizable {engine : PushEngine}
    (hpush : engine.push services sessionId source = .ok (ctx, start))
    (hfree : CollisionFree env (start.reader.chunkFeed.allChunks start.reader.input))
    (hrun : PushState.Runs env ctx start s)
    (hreturns : s.returns env ctx = some (.ok prepared)) :
    (∀ ref ∈ prepared.layoutDescriptor.layout.chunks, ∃ desired,
        desiredNodes env ctx ref.chunkId = .ok desired ∧
          ∀ nodeId ∈ desired, s.services.Stored ref.chunkId nodeId) ∧
      ∃ row, s.services.db.uploadSessions.find? sessionId = some row ∧ row.status = .open ∧
        row.session = ctx.session ∧
          checkFinalizable env s.services.db row.session prepared.layoutDescriptor = .ok () := by
  obtain ⟨chunkFeed, input, -, hstarted⟩ := push_started hpush
  obtain ⟨hdescribe, hgrows, hdurable⟩ := push_describes hstarted hrun hreturns
  obtain ⟨-, hchunking, hchunks⟩ := describe_ok hdescribe
  have hfree : CollisionFree env (chunkFeed.allChunks input) := by
    rw [hstarted.initial] at hfree
    exact hfree
  rw [← hchunks] at hdurable
  refine ⟨fun ref href => (hdurable hfree ref href).replicated, ?_⟩
  obtain ⟨row, hfind, hopen, hsession⟩ := hstarted.stored
  refine ⟨row, by rw [hgrows.sessions, hfind], hopen, hsession, ?_⟩
  rw [hsession]
  exact checkFinalizable_of_durable hstarted.feed hfree hchunking hchunks (hdurable hfree)

end

/-! ## A sample push -/

namespace Sample

open Metadata.Sample

def services : Services :=
  ⟨afterOps env Db.initial (pushOps.take 3), fun _ => .empty⟩

def engine : PushEngine := ⟨["n1"]⟩

/-- The reader runs to its end, then one worker uploads and all exit. -/
def pushSteps : List PushOp :=
  .read 1 :: List.replicate 6 (.reader .answered) ++
    List.replicate 6 (.worker 0 .answered) ++ [1, 2, 3].map fun index => .worker index .answered

/-- The call for a file, before its first step. -/
def pushCall (source : List UInt8) : Except EngineExc (PushContext × PushState) :=
  engine.push services session.sessionId (some source)

def pushEnd (ops : List PushOp) (ctx : PushContext) (start : PushState) :
    Option (PushState × PreparedPush) := do
  let s ← PushState.afterOps env ctx start ops
  let result ← s.returns env ctx
  let prepared ← result.toOption
  some (s, prepared)

theorem returns_of_pushEnd {ops : List PushOp} {ctx : PushContext} {start s : PushState}
    {prepared : PreparedPush} (h : pushEnd ops ctx start = some (s, prepared)) :
    PushState.Runs env ctx start s ∧ s.returns env ctx = some (.ok prepared) := by
  simp only [pushEnd, Option.bind_eq_bind, Option.bind_eq_some_iff] at h
  obtain ⟨s', hsteps, result, hresult, prepared', hprepared, hend⟩ := h
  obtain ⟨rfl, rfl⟩ := Prod.mk.inj (Option.some.inj hend)
  exact ⟨PushState.runs_afterOps hsteps, by rw [hresult, eq_ok_of_toOption hprepared]⟩

def pushReturns (source : List UInt8) (ops : List PushOp) : Bool :=
  (pushCall source).toOption.any fun call =>
    decide (CollisionFree env (call.2.reader.chunkFeed.allChunks call.2.reader.input)) &&
      (pushEnd ops call.1 call.2).isSome

theorem pushCall_returns {source : List UInt8} {ops : List PushOp}
    (hreturns : pushReturns source ops = true) :
    ∃ ctx start s prepared, pushCall source = .ok (ctx, start) ∧
      CollisionFree env (start.reader.chunkFeed.allChunks start.reader.input) ∧
      pushEnd ops ctx start = some (s, prepared) := by
  obtain ⟨⟨ctx, start⟩, hcall, hend⟩ := Option.any_eq_true _ _ |>.mp hreturns
  simp only [Bool.and_eq_true, decide_eq_true_eq] at hend
  obtain ⟨hfree, hend⟩ := hend
  obtain ⟨⟨s, prepared⟩, hend⟩ := Option.isSome_iff_exists.mp hend
  exact ⟨ctx, start, s, prepared, eq_ok_of_toOption hcall, hfree, hend⟩

theorem pushReturns_a : pushReturns (asciiBytes ['a']) pushSteps = true := by decide +kernel

end Sample

theorem push_finalizable_sample :
    ∃ (ctx : PushContext) (s : PushState) (prepared : PreparedPush),
      (∀ ref ∈ prepared.layoutDescriptor.layout.chunks, ∃ desired,
        desiredNodes Metadata.Sample.env ctx ref.chunkId = .ok desired ∧
          ∀ nodeId ∈ desired, s.services.Stored ref.chunkId nodeId) ∧
      ∃ row, s.services.db.uploadSessions.find? Metadata.Sample.session.sessionId = some row ∧
        row.status = .open ∧ row.session = ctx.session ∧
          checkFinalizable Metadata.Sample.env s.services.db row.session
            prepared.layoutDescriptor = .ok () := by
  obtain ⟨ctx, start, s, prepared, hpush, hfree, hend⟩ :=
    Sample.pushCall_returns Sample.pushReturns_a
  obtain ⟨hrun, hreturns⟩ := Sample.returns_of_pushEnd hend
  exact ⟨ctx, s, prepared, push_finalizable hpush hfree hrun hreturns⟩

end AiArtifactStore.Push
