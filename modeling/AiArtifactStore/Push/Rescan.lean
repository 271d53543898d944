import AiArtifactStore.Metadata.FinalizeRetry
import AiArtifactStore.Push.Finalizable

/-!
# The rescan of a committed retry

`prepare_committed_retry` reads the file once more with no thread and no request.
It finds the descriptor that the push returned, however either path cut its reads.
-/

namespace AiArtifactStore.Push

open AiArtifactStore.Foundation
open AiArtifactStore.Identity
open AiArtifactStore.Metadata
open AiArtifactStore.Chunking
open AiArtifactStore.Client

structure Rescan where
  chunkFeed : ChunkFeed
  fed : List UInt8
  layoutRefs : List ChunkRef
  seenChunkIds : List ContentId

namespace Rescan

def recordChunk (env : Environment) (r : Rescan) (chunk : ChunkBuffer) : Rescan :=
  { r with
    layoutRefs := r.layoutRefs ++ [chunkRef env chunk]
    seenChunkIds :=
      if env.contentId chunk.bytes ∈ r.seenChunkIds then r.seenChunkIds
      else r.seenChunkIds ++ [env.contentId chunk.bytes] }

def consume (env : Environment) (r : Rescan) (data : List UInt8)
    (result : Except ChunkerExc (ChunkFeed × List ChunkBuffer)) : Except EngineExc Rescan :=
  match result with
  | .error e => .error (.chunker e)
  | .ok (chunkFeed, chunks) =>
      .ok (chunks.foldl (recordChunk env) { r with chunkFeed := chunkFeed, fed := r.fed ++ data })

def scan (env : Environment) (r : Rescan) : List (List UInt8) → Except EngineExc Rescan
  | [] => r.consume env [] r.chunkFeed.finalize
  | data :: rest =>
      if data = [] then r.consume env [] r.chunkFeed.finalize
      else
        match r.consume env data (r.chunkFeed.update data) with
        | .error e => .error e
        | .ok next => scan env next rest

end Rescan

/-- `execute_committed_rescan`: `reads` are the reads of the file, if it can be opened. -/
def executeCommittedRescan (env : Environment) (sessionId : UuidV7) (session : UploadSession)
    (chunkFeed : ChunkFeed) (reads : Option (List (List UInt8))) :
    Except EngineExc PreparedPush := do
  let reads ← orFail reads (.runtimeError "failed to open source file for committed retry")
  let r ← Rescan.scan env ⟨chunkFeed, [], [], []⟩ reads
  let descriptor ← describe env session r.fed r.layoutRefs
  .ok
    { sessionId := sessionId
      layoutDescriptor := descriptor
      stats := ⟨r.fed.length, descriptor.layout.chunks.length, r.seenChunkIds.length, 0, 0, 0, 0⟩ }

def prepareCommittedRetry (env : Environment) (sessionId : UuidV7) (committed : SessionRow)
    (reads : Option (List (List UInt8))) : Except EngineExc PreparedPush := do
  failIf (sessionId ≠ committed.sessionId)
    (.invalidArgument "committed retry session ID does not match request session ID")
  failIf (committed.status.state ≠ .committed)
    (.invalidArgument "committed retry requires a committed upload session")
  failIf (committed.status.finalizedVersionId = none)
    (.invalidArgument "committed retry requires a finalized version ID")
  let chunkFeed ← makeChunkFeed committed.session
  executeCommittedRescan env sessionId committed.session chunkFeed reads

variable {env : Environment} {session : UploadSession} {chunkFeed : ChunkFeed}

/-! ## The scan -/

theorem foldl_recordChunk (chunks : List ChunkBuffer) (r : Rescan) :
    let r' := chunks.foldl (Rescan.recordChunk env) r
    r'.chunkFeed = r.chunkFeed ∧ r'.fed = r.fed ∧
      r'.layoutRefs = r.layoutRefs ++ chunks.map (chunkRef env) := by
  induction chunks generalizing r with
  | nil => simp
  | cons chunk chunks ih =>
      obtain ⟨hfeed, hfed, hrefs⟩ := ih (r.recordChunk env chunk)
      refine ⟨hfeed, hfed, ?_⟩
      rw [List.foldl_cons, hrefs, Rescan.recordChunk, List.append_assoc]
      rfl

theorem scan_spec {r : Rescan} {reads : List (List UInt8)} (hopen : r.chunkFeed.finalized = false)
    (hreads : ∀ data ∈ reads, data ≠ []) :
    ∃ r', r.scan env reads = .ok r' ∧ r'.fed = r.fed ++ reads.flatten ∧
      r'.layoutRefs = r.layoutRefs ++ (r.chunkFeed.allChunks reads.flatten).map (chunkRef env) := by
  induction reads generalizing r with
  | nil =>
      obtain ⟨chunkFeed, hfinalize⟩ := ChunkFeed.finalize_of_open hopen
      obtain ⟨-, hfed, hrefs⟩ := @foldl_recordChunk env r.chunkFeed.lastChunk
        { r with chunkFeed := chunkFeed, fed := r.fed ++ [] }
      refine ⟨_, by rw [Rescan.scan, hfinalize, Rescan.consume], by simpa using hfed, ?_⟩
      simpa using hrefs
  | cons data rest ih =>
      have hdata : data ≠ [] := hreads data (by simp)
      have hupdate := ChunkFeed.update_of_open hopen data
      obtain ⟨hfeed, hfed, hrefs⟩ := @foldl_recordChunk env (r.chunkFeed.advance data).2
        { r with chunkFeed := (r.chunkFeed.advance data).1, fed := r.fed ++ data }
      have hopen' : (r.chunkFeed.advance data).1.finalized = false :=
        (ChunkFeed.finalized_advance data).trans hopen
      obtain ⟨r', hscan, hfed', hrefs'⟩ := ih (r := _) (by rw [hfeed]; exact hopen')
        (fun other hother => hreads other (by simp [hother]))
      refine ⟨r', by rw [Rescan.scan, if_neg hdata, hupdate, Rescan.consume]; exact hscan, ?_, ?_⟩
      · rw [hfed', hfed, List.flatten_cons, List.append_assoc]
      · rw [hrefs', hrefs, hfeed, List.flatten_cons, ChunkFeed.allChunks_append, List.map_append,
          List.append_assoc]

theorem finalized_makeChunkFeed (h : makeChunkFeed session = .ok chunkFeed) :
    chunkFeed.finalized = false := by
  unfold makeChunkFeed at h
  split at h
  · simp only [bind_eq_ok] at h
    obtain ⟨-, -, chunker, hmake, h⟩ := h
    obtain rfl := Except.ok.inj h
    unfold FixedSizeChunker.make at hmake
    split at hmake
    · obtain rfl := Except.ok.inj hmake
      rfl
    · cases hmake
  · simp only [bind_eq_ok] at h
    obtain ⟨chunker, hmake, h⟩ := h
    obtain rfl := Except.ok.inj h
    unfold FastCdcChunker.make at hmake
    split at hmake
    · cases hmake
    · obtain rfl := Except.ok.inj hmake
      rfl

theorem prepareCommittedRetry_ok {sessionId : UuidV7} {committed : SessionRow} {v : ContentId}
    {reads : List (List UInt8)} {d : ObjectLayoutDescriptor}
    (hsession : committed.sessionId = sessionId) (hstatus : committed.status = .committed v)
    (hfeed : makeChunkFeed committed.session = .ok chunkFeed)
    (hreads : ∀ data ∈ reads, data ≠ [])
    (hd : describe env committed.session reads.flatten
      ((chunkFeed.allChunks reads.flatten).map (chunkRef env)) = .ok d) :
    ∃ prepared, prepareCommittedRetry env sessionId committed (some reads) = .ok prepared ∧
      prepared.sessionId = sessionId ∧ prepared.layoutDescriptor = d := by
  have hstart : ({ chunkFeed := chunkFeed, fed := [], layoutRefs := [], seenChunkIds := [] } :
      Rescan).chunkFeed.finalized = false := finalized_makeChunkFeed hfeed
  obtain ⟨r, hscan, hfed, hrefs⟩ := @scan_spec env _ reads hstart hreads
  simp only [List.nil_append] at hfed hrefs
  have hstate : ¬committed.status.state ≠ .committed := by simp [hstatus, UploadSessionStatus.state]
  have hversion : ¬committed.status.finalizedVersionId = none := by
    simp [hstatus, UploadSessionStatus.finalizedVersionId]
  refine ⟨⟨sessionId, d, ⟨reads.flatten.length, d.layout.chunks.length, r.seenChunkIds.length,
    0, 0, 0, 0⟩⟩, ?_, rfl, rfl⟩
  rw [prepareCommittedRetry, failIf_of_false (not_not.mpr hsession.symm), ok_bind,
    failIf_of_false hstate, ok_bind, failIf_of_false hversion, ok_bind, hfeed, ok_bind,
    executeCommittedRescan, orFail_some, ok_bind, hscan, ok_bind, hfed, hrefs, hd, ok_bind]

/-- The rescan of the same bytes under the same session finds the descriptor that
a push returned, and `finalize_upload` takes it as the original. -/
theorem rescan_agrees {engine : PushEngine} {services : Services} {sessionId : UuidV7}
    {source : Option (List UInt8)} {ctx : PushContext} {start s : PushState}
    {prepared : PreparedPush} {committed : SessionRow} {v : ContentId} {reads : List (List UInt8)}
    (hpush : engine.push services sessionId source = .ok (ctx, start))
    (hrun : PushState.Runs env ctx start s) (hreturns : s.returns env ctx = some (.ok prepared))
    (hcommitted : committed.session = ctx.session ∧ committed.sessionId = sessionId ∧
      committed.status = .committed v)
    (hreads : source = some reads.flatten ∧ ∀ data ∈ reads, data ≠ []) :
    ∃ rescanned, prepareCommittedRetry env sessionId committed (some reads) = .ok rescanned ∧
      rescanned.sessionId = sessionId ∧
      rescanned.layoutDescriptor = prepared.layoutDescriptor ∧
      rescanned.layoutDescriptor.layoutId env = prepared.layoutDescriptor.layoutId env ∧
      ∀ db db₁ db₂ now later result, Reachable env db →
        finalizeUpload env now db sessionId prepared.layoutDescriptor = .ok (result, db₁) →
        Evolves env (fun _ => True) db₁ db₂ → ¬db₂.Retired result.versionId →
          finalizeUpload env later db₂ sessionId rescanned.layoutDescriptor =
            .ok (result, db₂) := by
  obtain ⟨hsession, hid, hstatus⟩ := hcommitted
  obtain ⟨chunkFeed, input, hsource, hstarted⟩ := push_started hpush
  obtain ⟨hdescribe, -, -⟩ := push_describes hstarted hrun hreturns
  obtain rfl : reads.flatten = input := Option.some.inj (hreads.1.symm.trans hsource)
  have hfeed := hstarted.feed
  rw [← hsession] at hdescribe hfeed
  obtain ⟨rescanned, hrescan, hrescannedId, hdescriptor⟩ :=
    prepareCommittedRetry_ok hid hstatus hfeed hreads.2 hdescribe
  refine ⟨rescanned, hrescan, hrescannedId, hdescriptor, by rw [hdescriptor], ?_⟩
  intro db db₁ db₂ now later result hreachable hfirst hevolves hretired
  obtain ⟨row, hrow, hcommittedAs, rfl⟩ :=
    committedAs_of_ok (parentsDiffer_of_reachable hreachable) hfirst
  rw [hdescriptor, ← hrow]
  exact finalizeUpload_same (hcommittedAs.evolves hevolves hretired) hretired

namespace Sample

/-- The row of the sample session after its finalization. -/
def committed : SessionRow := ⟨Metadata.Sample.session, .committed Metadata.Sample.versionId⟩

def fiveBytes : List UInt8 := asciiBytes ['a', 'a', 'a', 'a', 'a']

def fiveSteps : List PushOp :=
  [.read 2, .read 3] ++ List.replicate 8 (.reader .answered) ++
    List.replicate 11 (.worker 0 .answered) ++ [1, 2, 3].map fun index => .worker index .answered

end Sample

/-- The rescan takes four bytes and then one. -/
theorem rescan_agrees_sample :
    ∃ (ctx : PushContext) (start s : PushState) (prepared rescanned : PreparedPush),
      Sample.pushCall Sample.fiveBytes = .ok (ctx, start) ∧
      Sample.pushEnd Sample.fiveSteps ctx start = some (s, prepared) ∧
      prepareCommittedRetry Metadata.Sample.env Metadata.Sample.session.sessionId
        Sample.committed (some [Sample.fiveBytes.take 4, Sample.fiveBytes.drop 4]) =
          .ok rescanned ∧
      rescanned.layoutDescriptor = prepared.layoutDescriptor := by
  have hruns : Sample.pushReturns Sample.fiveBytes Sample.fiveSteps = true := by decide +kernel
  obtain ⟨ctx, start, s, prepared, hpush, -, hend⟩ := Sample.pushCall_returns hruns
  obtain ⟨hrun, hreturns⟩ := Sample.returns_of_pushEnd hend
  have hsession : Metadata.Sample.session = ctx.session := by
    obtain ⟨chunkFeed, input, -, hstarted⟩ := push_started hpush
    obtain ⟨row, hfind, -, hrow⟩ := hstarted.stored
    rw [← hrow]
    have hstored : Sample.services.db.uploadSessions.find? Metadata.Sample.session.sessionId =
        some ⟨Metadata.Sample.session, .open⟩ := by decide +kernel
    obtain rfl := Option.some.inj (hstored.symm.trans hfind)
    rfl
  have hreads : some Sample.fiveBytes =
        some [Sample.fiveBytes.take 4, Sample.fiveBytes.drop 4].flatten ∧
      ∀ data ∈ [Sample.fiveBytes.take 4, Sample.fiveBytes.drop 4], data ≠ [] :=
    ⟨rfl, by decide⟩
  have hcommitted : Sample.committed.session = ctx.session ∧
      Sample.committed.sessionId = Metadata.Sample.session.sessionId ∧
      Sample.committed.status = .committed Metadata.Sample.versionId := ⟨hsession, rfl, rfl⟩
  obtain ⟨rescanned, hrescan, -, hdescriptor, -⟩ :=
    rescan_agrees hpush hrun hreturns hcommitted hreads
  exact ⟨ctx, start, s, prepared, rescanned, hpush, hend, hrescan, hdescriptor⟩

end AiArtifactStore.Push
