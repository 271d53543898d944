import AiArtifactStore.Chunking.Streams
import AiArtifactStore.Push.Health
import AiArtifactStore.Push.Termination

/-!
# A push against healthy services succeeds

While its requests are answered and everybody else keeps the services healthy,
no thread of a push meets an exception: in every fair run the call returns a
prepared push.
-/

namespace AiArtifactStore.Push

open AiArtifactStore.Foundation
open AiArtifactStore.Identity
open AiArtifactStore.Metadata
open AiArtifactStore.Storage
open AiArtifactStore.Chunking
open AiArtifactStore.Client
open AiArtifactStore.Replication
open Relation

/-! ## The push reads its whole source -/

structure Scans (source : List UInt8) (r : Reader) : Prop where
  running : r.phase ≠ .failing ∧ r.phase ≠ .failed
  stream : r.fed ++ r.input = source
  ended : r.atEnd = true → r.input = []
  finished : r.phase = .finished → r.atEnd = true

theorem scans_progress {env : Environment} {ctx : PushContext} {s s' : PushState}
    {source : List UInt8} (hp : Progress env ctx s s') (h : Scans source s.reader) :
    Scans source s'.reader := by
  cases hp with
  | @read data rest htop hinput =>
      refine ⟨h.running, ?_, by simp, fun hfinished => ?_⟩
      · rw [List.append_assoc, ← hinput]
        exact h.stream
      · have hphase := (PushState.atTop_iff.mp htop).1
        cases hphase.symm.trans hfinished
  | finalized hphase hpending hopen hinput =>
      refine ⟨h.running, ?_, fun _ => hinput, fun _ => rfl⟩
      rw [List.append_nil]
      exact h.stream
  | record hphase hpending =>
      simp only [Reader.recordChunk]
      split
      · exact ⟨h.running, h.stream, h.ended, h.finished⟩
      · exact ⟨h.running, h.stream, h.ended, h.finished⟩
  | negotiated => exact ⟨by simp, h.stream, h.ended, by simp⟩
  | enqueued => exact ⟨by simp, h.stream, h.ended, by simp⟩
  | resumed => exact ⟨by simp, h.stream, h.ended, by simp⟩
  | closed hphase hstaging hpending hend =>
      exact ⟨by simp [PushState.closeQueue], h.stream, h.ended, fun _ => hend⟩
  | cancelled hphase => exact absurd hphase h.running.1
  | worker => exact h

/-! ## The descriptor of a whole file -/

section

variable {env : Environment} {session : UploadSession} {chunkFeed : ChunkFeed} {input : List UInt8}

theorem allChunks_eq_layOut (h : makeChunkFeed session = .ok chunkFeed) :
    ∃ closes : List UInt8 → Bool, chunkFeed.allChunks input = layOut 0 (segments closes input) := by
  unfold makeChunkFeed at h
  split at h
  · rename_i chunkSizeBytes hchunking
    simp only [bind_eq_ok, mapError_eq_ok] at h
    obtain ⟨-, -, chunker, hmake, hfeed⟩ := h
    obtain rfl := Except.ok.inj hfeed
    unfold FixedSizeChunker.make at hmake
    split at hmake
    · obtain rfl := Except.ok.inj hmake
      refine ⟨fun chunk => chunk.length = chunkSizeBytes, ?_⟩
      simp only [ChunkFeed.allChunks, ChunkFeed.advance, ChunkFeed.lastChunk,
        FixedSizeChunker.lastChunk_eq]
      exact feed_eq_layOut (fun _ byte => FixedSizeChunker.absorb_collects byte)
        (fun _ byte => FixedSizeChunker.open_absorb byte) ⟨rfl, rfl⟩ input
    · cases hmake
  · rename_i p hchunking
    simp only [bind_eq_ok, mapError_eq_ok] at h
    obtain ⟨chunker, hmake, hfeed⟩ := h
    obtain rfl := Except.ok.inj hfeed
    unfold FastCdcChunker.make at hmake
    split at hmake
    · cases hmake
    · obtain rfl := Except.ok.inj hmake
      refine ⟨FastCdcChunker.closes p, ?_⟩
      simp only [ChunkFeed.allChunks, ChunkFeed.advance, ChunkFeed.lastChunk,
        FastCdcChunker.lastChunk_eq]
      exact feed_eq_layOut (fun _ byte => FastCdcChunker.absorb_collects byte)
        (fun _ byte => FastCdcChunker.open_absorb byte) ⟨rfl, rfl, rfl⟩ input

theorem sum_size_map_chunkRef (chunks : List ChunkBuffer) :
    ((chunks.map (chunkRef env)).map ChunkRef.size).sum =
      (chunks.map ChunkBuffer.bytes).flatten.length := by
  rw [List.length_flatten, List.map_map, List.map_map]
  rfl

theorem contiguous_layOut_refs (start : Nat) (contents : List (List UInt8)) :
    Foundation.Contiguous ChunkRef.offset ChunkRef.size start
      ((layOut start contents).map (chunkRef env)) := by
  induction contents generalizing start with
  | nil => exact contiguous_nil
  | cons bytes contents ih => exact contiguous_cons.mpr ⟨rfl, ih (start + bytes.length)⟩

theorem storable_allChunks (h : makeChunkFeed session = .ok chunkFeed)
    (hfree : CollisionFree env (chunkFeed.allChunks input)) :
    Storable env (chunkFeed.allChunks input) := by
  obtain ⟨hruns, hmax⟩ := makeChunkFeed_ok h
  have hvalid := (UploadSession.valid_iff.mp session.valid).2.2.2.2.2.2
  have hfinal : ∀ chunk ∈ chunkFeed.allChunks input,
      ChunkFeed.finalSizeOk session.chunking chunk.bytes.length = true := by
    intro chunk hchunk
    rcases List.mem_append.mp hchunk with hchunk | hchunk
    · exact ChunkFeed.finalSizeOk_of_nonFinal hvalid (hruns.nonFinal chunk hchunk)
    · exact (hruns.advance input).final.2 chunk hchunk
  refine ⟨hfree, fun chunk hchunk => ⟨?_, hmax _ (hfinal chunk hchunk)⟩⟩
  have hsize := hfinal chunk hchunk
  cases hchunking : session.chunking with
  | fixedSize chunkSizeBytes =>
      simp only [hchunking, ChunkFeed.finalSizeOk, Bool.and_eq_true, decide_eq_true_eq] at hsize
      exact hsize.1
  | fastCdc p =>
      simp only [hchunking, ChunkFeed.finalSizeOk, Bool.and_eq_true, decide_eq_true_eq] at hsize
      exact hsize.1

theorem makeLayoutDescriptor_eq {object : StoredObject} {chunking : SessionChunking}
    {layout : ObjectLayout} : makeLayoutDescriptor object chunking layout =
      ObjectLayoutDescriptor.make object (layoutChunking chunking) layout := by
  cases chunking <;> rfl

theorem describe_allChunks (h : makeChunkFeed session = .ok chunkFeed)
    (hsizes : ∀ chunk ∈ chunkFeed.allChunks input, 0 < chunk.bytes.length)
    (hfits : input.length ≤ uint64Max) :
    ∃ d, describe env session input ((chunkFeed.allChunks input).map (chunkRef env)) = .ok d := by
  obtain ⟨closes, hchunks⟩ := @allChunks_eq_layOut session chunkFeed input h
  have htotal : (((chunkFeed.allChunks input).map (chunkRef env)).map ChunkRef.size).sum =
      input.length := by
    rw [sum_size_map_chunkRef, hchunks, map_bytes_layOut, flatten_segments]
  have hvalid : validateChunksFrom 0 ((chunkFeed.allChunks input).map (chunkRef env)) = .ok () := by
    refine (validateChunksFrom_eq_ok (Nat.zero_le _)).mpr ⟨fun ref href => ?_, ?_, ?_⟩
    · obtain ⟨chunk, hchunk, rfl⟩ := List.mem_map.mp href
      exact Nat.pos_iff_ne_zero.mp (hsizes chunk hchunk)
    · rw [hchunks]
      exact contiguous_layOut_refs 0 _
    · rw [htotal, Nat.zero_add]
      exact hfits
  have hlayout := ObjectLayout.make_chunks ⟨_, hvalid⟩
  have hsize : input.length = ObjectLayout.totalSize ⟨_, hvalid⟩ := by
    rw [ObjectLayout.totalSize_eq_sum, htotal]
  have hchunking : (layoutChunking session.chunking).validate = .ok () := by
    have hsession := (UploadSession.valid_iff.mp session.valid).2.2.2.2.2.2
    cases hc : session.chunking with
    | fixedSize chunkSizeBytes => rfl
    | fastCdc p =>
        rw [hc] at hsession
        exact hsession
  have hmake : ObjectLayoutDescriptor.make ⟨env.contentId input, input.length⟩
      (layoutChunking session.chunking) ⟨_, hvalid⟩ =
        .ok ⟨⟨env.contentId input, input.length⟩, _, ⟨_, hvalid⟩, hchunking, hsize⟩ :=
    ObjectLayoutDescriptor.make_self
      ⟨⟨env.contentId input, input.length⟩, _, ⟨_, hvalid⟩, hchunking, hsize⟩
  unfold describe
  simp only at hlayout
  rw [hlayout, mapError_ok, ok_bind, makeLayoutDescriptor_eq, hmake]
  exact ⟨_, rfl⟩

end

/-! ## The invariant -/

/-- What everybody else does to healthy services: they stay so, with the chunks they know. -/
def HealthyChange (env : Environment) (ctx : PushContext) (chunks : List ChunkBuffer)
    (s s' : PushState) : Prop :=
  ∃ services, Healthy env ctx chunks services ∧
    (∀ chunk, s.services.Known chunk → services.Known chunk) ∧
    s' = { s with services := services }

structure TaskReady (env : Environment) (ctx : PushContext) (chunks : List ChunkBuffer)
    (services : Services) (task : UploadTask) : Prop where
  known : services.Known task.chunk
  chunk : ∃ chunk ∈ chunks, task.chunk = (stagedChunk env chunk).metadata ∧
    task.bytes = chunk.bytes
  desired : ∀ nodeId ∈ task.desiredNodeIds, nodeId ∈ ctx.session.placementNodeIds

def WorkerReady (env : Environment) (ctx : PushContext) (chunks : List ChunkBuffer)
    (services : Services) : Worker → Prop
  | .uploading task nodes _ => TaskReady env ctx chunks services task ∧
      ∀ nodeId ∈ nodes, nodeId ∈ ctx.session.placementNodeIds
  | .failing => False
  | _ => True

structure ReaderReady (env : Environment) (chunks : List ChunkBuffer) (services : Services)
    (r : Reader) : Prop where
  running : r.phase ≠ .failing ∧ r.phase ≠ .failed
  feed : r.atEnd = false → r.chunkFeed.finalized = false
  stream : ∃ before, before ++ r.remaining = chunks ∧ r.layoutRefs = before.map (chunkRef env)
  batch : Batch env chunks r.staging
  seen : ∀ staged ∈ r.staging, staged.metadata.chunkId ∈ r.seenChunkIds
  few : r.staging.length ≤ kNegotiationBatchSize
  work : ∀ entry ∈ r.phase.work, entry.2.chunk = entry.1.metadata ∧
    services.Known entry.1.metadata ∧ ∃ chunk ∈ chunks, entry.1 = stagedChunk env chunk
  finished : r.phase = .finished → r.pending = [] ∧ r.atEnd = true

/-- What a push relies on that does not change: the order of the database, a stream without
collisions, and a client for every placement node. -/
structure Setting (env : Environment) (ctx : PushContext) (chunks : List ChunkBuffer) : Prop where
  sorts : SortsByBytes env
  storable : Storable env chunks
  pool : ∀ nodeId ∈ ctx.session.placementNodeIds, nodeId ∈ ctx.pool

structure Ready (env : Environment) (ctx : PushContext) (chunks : List ChunkBuffer)
    (s : PushState) : Prop where
  services : Healthy env ctx chunks s.services
  noFailure : s.shared.firstFailure = none
  reader : ReaderReady env chunks s.services s.reader
  uncancelled : s.shared.queue.cancelled = false
  closed : s.shared.queue.closed = true → s.reader.phase = .finished
  tasks : ∀ task ∈ s.shared.queue.items, TaskReady env ctx chunks s.services task
  workers : ∀ worker ∈ s.workers, WorkerReady env ctx chunks s.services worker

section

variable {env : Environment} {ctx : PushContext} {chunks : List ChunkBuffer} {s s' : PushState}
  {services services' : Services}

/-! ## What others do -/

theorem TaskReady.mono {task : UploadTask}
    (hknown : ∀ chunk, services.Known chunk → services'.Known chunk)
    (h : TaskReady env ctx chunks services task) : TaskReady env ctx chunks services' task :=
  { h with known := hknown _ h.known }

theorem WorkerReady.mono {worker : Worker}
    (hknown : ∀ chunk, services.Known chunk → services'.Known chunk)
    (h : WorkerReady env ctx chunks services worker) :
    WorkerReady env ctx chunks services' worker := by
  cases worker with
  | uploading task nodes phase => exact ⟨h.1.mono hknown, h.2⟩
  | failing => exact h
  | _ => trivial

theorem ReaderReady.mono {r : Reader}
    (hknown : ∀ chunk, services.Known chunk → services'.Known chunk)
    (h : ReaderReady env chunks services r) : ReaderReady env chunks services' r :=
  { h with work := fun entry hentry =>
      ⟨(h.work entry hentry).1, hknown _ (h.work entry hentry).2.1, (h.work entry hentry).2.2⟩ }

theorem Ready.mono (h : Ready env ctx chunks s) (hhealthy : Healthy env ctx chunks services)
    (hknown : ∀ chunk, s.services.Known chunk → services.Known chunk) :
    Ready env ctx chunks { s with services := services } :=
  { h with
    services := hhealthy
    reader := h.reader.mono hknown
    tasks := fun task htask => (h.tasks task htask).mono hknown
    workers := fun worker hworker => (h.workers worker hworker).mono hknown }

/-! ## Steps of the reader -/

theorem Ready.setReader (h : Ready env ctx chunks s) {r : Reader}
    (hr : ReaderReady env chunks s.services r) (hphase : s.reader.phase ≠ .finished) :
    Ready env ctx chunks { s with reader := r } :=
  { h with
    reader := hr
    closed := fun hclosed => absurd (h.closed hclosed) hphase }

theorem ready_fed (h : Ready env ctx chunks s) (htop : s.reader.atTop = true)
    {data rest : List UInt8} (hinput : s.reader.input = data ++ rest) :
    Ready env ctx chunks (s.fed data rest false (s.reader.chunkFeed.update data)) := by
  obtain ⟨hphase, -, hpending, hopen⟩ := PushState.atTop_iff.mp htop
  have hr := h.reader
  obtain ⟨before, hstream, hrefs⟩ := hr.stream
  rw [ChunkFeed.update_of_open (hr.feed hopen)]
  change Ready env ctx chunks { s with
    reader := { s.reader with
      input := rest
      fed := s.reader.fed ++ data
      chunkFeed := (s.reader.chunkFeed.advance data).1
      pending := (s.reader.chunkFeed.advance data).2
      atEnd := false } }
  refine h.setReader { hr with
    feed := fun _ => (ChunkFeed.finalized_advance data).trans (hr.feed hopen)
    stream := ⟨before, ?_, hrefs⟩
    finished := fun hfinished => by simp [hphase] at hfinished } (by simp [hphase])
  rw [← hstream]
  simp [Reader.remaining, hpending, hopen, hinput, ChunkFeed.allChunks_append]

theorem ready_finalizeFeed (h : Ready env ctx chunks s) (hphase : s.reader.phase = .scanning)
    (hpending : s.reader.pending = []) (hopen : s.reader.atEnd = false)
    (hinput : s.reader.input = []) : Ready env ctx chunks s.finalizeFeed := by
  have hr := h.reader
  obtain ⟨before, hstream, hrefs⟩ := hr.stream
  obtain ⟨chunkFeed, hfinalize⟩ := ChunkFeed.finalize_of_open (hr.feed hopen)
  rw [PushState.finalizeFeed, hfinalize]
  refine h.setReader { hr with
    feed := fun hend => by cases hend
    stream := ⟨before, ?_, hrefs⟩
    finished := fun hfinished => by simp [hphase] at hfinished } (by simp [hphase])
  rw [← hstream]
  simp [Reader.remaining, hpending, hopen, hinput]

theorem ready_read (h : Ready env ctx chunks s) {count : Nat} (hstep : s.read count = some s') :
    Ready env ctx chunks s' := by
  unfold PushState.read at hstep
  split at hstep
  · rename_i htop
    rw [if_neg (by simp [h.uncancelled])] at hstep
    split at hstep
    · cases hstep
    · split at hstep
      · split at hstep
        · rename_i hinput
          cases hstep
          obtain ⟨hphase, -, hpending, hopen⟩ := PushState.atTop_iff.mp htop
          exact ready_finalizeFeed h hphase hpending hopen hinput
        · cases hstep
      · cases hstep
        exact ready_fed h htop (List.take_append_drop count _).symm
  · cases hstep

theorem ready_record (h : Ready env ctx chunks s) {chunk : ChunkBuffer} {rest : List ChunkBuffer}
    (hphase : s.reader.phase = .scanning) (hready : s.reader.batchReady = false)
    (hpending : s.reader.pending = chunk :: rest) :
    Ready env ctx chunks { s with
      reader := Reader.recordChunk env { s.reader with pending := rest } chunk } := by
  have hr := h.reader
  obtain ⟨before, hstream, hrefs⟩ := hr.stream
  have hremaining : (before ++ [chunk]) ++ Reader.remaining { s.reader with pending := rest } =
      chunks := by
    rw [← hstream]
    simp [Reader.remaining, hpending]
  have hrecorded : s.reader.layoutRefs ++ [chunkRef env chunk] =
      (before ++ [chunk]).map (chunkRef env) := by
    rw [hrefs, List.map_append, List.map_singleton]
  have hchunk : chunk ∈ chunks := by
    rw [← hremaining]
    simp
  have hscanning : s.reader.phase ≠ .finished := by simp [hphase]
  refine h.setReader ?_ hscanning
  unfold Reader.recordChunk
  simp only
  split
  · exact { hr with
      stream := ⟨before ++ [chunk], hremaining, hrecorded⟩
      finished := fun hfinished => absurd hfinished hscanning }
  · rename_i hnew
    have hfull : s.reader.staging.length ≠ kNegotiationBatchSize := by
      intro hfull
      simp [Reader.batchReady, hfull] at hready
    refine { hr with
      stream := ⟨before ++ [chunk], hremaining, hrecorded⟩
      batch := ⟨fun staged hstaged => ?_, ?_⟩
      seen := fun staged hstaged => ?_
      few := ?_
      finished := fun hfinished => absurd hfinished hscanning }
    · rcases List.mem_append.mp hstaged with hstaged | hstaged
      · exact hr.batch.staged staged hstaged
      · exact ⟨chunk, hchunk, List.mem_singleton.mp hstaged⟩
    · rw [List.map_append, List.map_singleton]
      refine List.nodup_append.mpr ⟨hr.batch.distinct, by simp, fun a ha b hb => ?_⟩
      rw [List.mem_singleton] at hb
      rintro rfl
      obtain ⟨staged, hstaged, rfl⟩ := List.mem_map.mp ha
      have hid : staged.metadata.chunkId = env.contentId chunk.bytes := hb
      exact hnew (hid ▸ hr.seen staged hstaged)
    · rcases List.mem_append.mp hstaged with hstaged | hstaged
      · exact List.mem_append.mpr (.inl (hr.seen staged hstaged))
      · rw [List.mem_singleton.mp hstaged]
        exact List.mem_append.mpr (.inr (List.mem_singleton.mpr rfl))
    · have hfew := hr.few
      rw [List.length_append, List.length_singleton]
      omega

theorem zip_agrees {α β γ : Type} {f : α → γ} {g : β → γ} {xs : List α} {ys : List β}
    (h : ys.map g = xs.map f) {entry : α × β} (hentry : entry ∈ xs.zip ys) :
    g entry.2 = f entry.1 := by
  induction xs generalizing ys with
  | nil => cases hentry
  | cons x xs ih =>
      cases ys with
      | nil => cases hentry
      | cons y ys =>
          simp only [List.map_cons, List.cons.injEq] at h
          rcases List.mem_cons.mp hentry with rfl | hrest
          · exact h.1
          · exact ih h.2 hrest

theorem negotiation_answered (hset : Setting env ctx chunks) (h : Ready env ctx chunks s)
    (hstaging : s.reader.staging ≠ []) :
    ∃ result, s.negotiation env ctx .answered = (.ok result,
        negotiatedDb s.services.db (s.reader.staging.map StagedChunk.metadata)) ∧
      result.sessionId = ctx.sessionId ∧ result.targetNodeId = ctx.session.targetNodeId ∧
      result.chunks.map NegotiatedChunk.chunk = s.reader.staging.map StagedChunk.metadata := by
  have hbatch := h.reader.batch
  have hfew := h.reader.few
  have hcount : s.reader.staging.length ≤ kMaxNegotiationChunks := hfew.trans (by decide)
  have hsizes : ∀ row ∈ s.reader.staging.map StagedChunk.metadata,
      row.sizeBytes ≠ 0 ∧ row.sizeBytes ≤ postgresBigintMax := by
    intro row hrow
    obtain ⟨chunk, hchunk, rfl⟩ := hbatch.row hrow
    exact hset.storable.sizeValid hchunk
  have hnodup : ((s.reader.staging.map StagedChunk.metadata).map ChunkMetadata.chunkId).Nodup := by
    rw [List.map_map]
    exact hbatch.distinct
  have hcheck : MetadataClient.checkNegotiation (s.reader.staging.map StagedChunk.metadata) =
      .ok () := by
    have hrows : ¬(s.reader.staging.map StagedChunk.metadata = [] ∨
        (s.reader.staging.map StagedChunk.metadata).length > kMaxNegotiationChunks) := by
      rw [List.map_eq_nil_iff, List.length_map]
      exact not_or.mpr ⟨hstaging, Nat.not_lt.mpr hcount⟩
    rw [MetadataClient.checkNegotiation, failIf_of_false hrows, ok_bind]
    exact checkNegotiationSizes_ok hsizes hnodup
  obtain ⟨result, hserved, hclient, hsame⟩ :=
    serveNegotiate_healthy hset.sorts h.services hset.storable hbatch hstaging hcount
  refine ⟨result, ?_, hsame⟩
  simp only [PushState.negotiation, hcheck, exchange, hserved, hclient]

theorem ready_negotiate (hset : Setting env ctx chunks) (h : Ready env ctx chunks s)
    (hphase : s.reader.phase = .scanning)
    (hready : s.reader.batchReady = true) :
    Ready env ctx chunks (s.negotiate env ctx .answered) := by
  have hr := h.reader
  have hstaging : s.reader.staging ≠ [] := by
    rintro hempty
    simp [Reader.batchReady, hempty, kNegotiationBatchSize] at hready
  obtain ⟨result, hanswer, hsession, htarget, hchunks⟩ :=
    negotiation_answered hset h hstaging
  have hlength : result.chunks.length = s.reader.staging.length := by
    have hmapped := congrArg List.length hchunks
    rwa [List.length_map, List.length_map] at hmapped
  have hmatch : PushState.matchNegotiation ctx s.reader.staging result = .ok () :=
    failIf_of_false (by simp [hsession, htarget, hlength])
  have hknown : ∀ chunk, s.services.Known chunk → (s.services.setDb (negotiatedDb s.services.db
      (s.reader.staging.map StagedChunk.metadata))).Known chunk :=
    fun chunk hchunk => find?_insertChunks hchunk
  have hnext := h.mono (negotiatedDb_healthy h.services hset.storable hr.batch) hknown
  simp only [PushState.negotiate, hanswer, hmatch]
  refine hnext.setReader { hr.mono hknown with
    running := by simp
    batch := ⟨by simp, by simp⟩
    seen := by simp
    few := by simp
    work := fun entry hentry => ?_
    finished := by simp } (by simp [hphase])
  have hstaged : entry.1 ∈ s.reader.staging := (List.of_mem_zip hentry).1
  refine ⟨zip_agrees hchunks hentry, ?_, hr.batch.staged entry.1 hstaged⟩
  exact negotiatedDb_known h.services hset.storable hr.batch (List.mem_map_of_mem hstaged)

theorem mem_of_desired {chunkId : ContentId} {desired : List String}
    (h : selectReplicaNodes env chunkId ctx.session.placementNodeIds
      ctx.session.replicationFactor = .ok desired) :
    ∀ nodeId ∈ desired, nodeId ∈ ctx.session.placementNodeIds := by
  intro nodeId hnode
  rw [selectReplicaNodes_eq_ok h] at hnode
  obtain ⟨ranked, hranked, rfl⟩ := List.mem_map.mp hnode
  have hmem := (List.mem_insertionSort _).mp (List.mem_of_mem_take hranked)
  obtain ⟨other, hother, rfl⟩ := List.mem_map.mp hmem
  exact hother

theorem uploadTask_ready (hset : Setting env ctx chunks) {staged : StagedChunk}
    {negotiated : NegotiatedChunk} (hchunk : negotiated.chunk = staged.metadata)
    (hknown : services.Known staged.metadata)
    (hstaged : ∃ chunk ∈ chunks, staged = stagedChunk env chunk) :
    ∃ task, PushState.uploadTask env ctx staged negotiated = .ok task ∧
      TaskReady env ctx chunks services task := by
  obtain ⟨hfactor, hnonempty, hmax, hcount, hvalid, hchain, -⟩ :=
    UploadSession.valid_iff.mp ctx.session.valid
  obtain ⟨desired, hdesired⟩ := (@exists_selectReplicaNodes_iff env staged.metadata.chunkId _ _
    hvalid hfactor ⟨hcount, hmax⟩).mpr hchain
  have hplaced := mem_of_desired hdesired
  have hpool : forEach desired (fun nodeId => failIf (nodeId ∉ ctx.pool)
      (EngineExc.runtimeError
        "upload session desired replica node is not available in storage pool")) = .ok () :=
    forEach_eq_ok.mpr fun nodeId hnode =>
      failIf_of_false (not_not.mpr (hset.pool nodeId (hplaced nodeId hnode)))
  refine ⟨⟨staged.metadata, staged.bytes, negotiated.availability, negotiated.availableNodeIds,
    desired⟩, ?_, hknown, ?_, hplaced⟩
  · rw [PushState.uploadTask, failIf_of_false (by simp [hchunk]), ok_bind, hdesired, mapError_ok,
      ok_bind, hpool, ok_bind]
  · obtain ⟨chunk, hmem, rfl⟩ := hstaged
    exact ⟨chunk, hmem, rfl, rfl⟩

theorem ready_enqueue (hset : Setting env ctx chunks) (h : Ready env ctx chunks s)
    {staged : StagedChunk} {negotiated : NegotiatedChunk}
    {rest : List (StagedChunk × NegotiatedChunk)}
    (hphase : s.reader.phase = .enqueueing ((staged, negotiated) :: rest))
    (hstep : s.enqueue env ctx staged negotiated rest = some s') : Ready env ctx chunks s' := by
  have hr := h.reader
  have hmem : (staged, negotiated) ∈ s.reader.phase.work := by
    simp [hphase, ReaderPhase.work]
  obtain ⟨hchunk, hknown, hstaged⟩ := hr.work _ hmem
  obtain ⟨task, htask, htaskReady⟩ := uploadTask_ready hset hchunk hknown hstaged
  rw [PushState.enqueue, htask] at hstep
  simp only at hstep
  split at hstep
  · cases hstep
  · rename_i hpush
    have hfinished := h.closed (BoundedQueue.push_refused hpush).2
    cases hphase.symm.trans hfinished
  · rename_i queue hpush
    cases hstep
    obtain ⟨-, hitems, hopen, hcancelled⟩ := BoundedQueue.push_accepted hpush
    refine { h with
      reader := { hr with
        running := by simp
        work := fun entry hentry => hr.work entry (by
          simp only [hphase, ReaderPhase.work] at hentry ⊢
          exact List.mem_cons_of_mem _ hentry)
        finished := by simp }
      uncancelled := hcancelled.trans h.uncancelled
      closed := fun hclosed => by simp [hopen] at hclosed
      tasks := fun other hother => ?_ }
    rw [hitems] at hother
    rcases List.mem_append.mp hother with hother | hother
    · exact h.tasks other hother
    · rw [List.mem_singleton.mp hother]
      exact htaskReady

theorem ready_readerStep (hset : Setting env ctx chunks) (h : Ready env ctx chunks s)
    (hstep : s.readerStep env ctx .answered = some s') : Ready env ctx chunks s' := by
  have hr := h.reader
  unfold PushState.readerStep at hstep
  split at hstep
  · rename_i hphase
    cases hstep
    exact h.setReader { hr with
      running := by simp
      work := by simp [ReaderPhase.work]
      finished := by simp } (by simp [hphase])
  · rename_i hphase
    exact ready_enqueue hset h hphase hstep
  · rename_i hphase
    exact absurd hphase hr.running.1
  · cases hstep
  · cases hstep
  · rename_i hphase
    split at hstep
    · rename_i hready
      cases hstep
      exact ready_negotiate hset h hphase hready
    · rename_i hready
      split at hstep
      · rename_i hpending
        cases hstep
        exact ready_record h hphase (by simpa using hready) hpending
      · rename_i hpending
        split at hstep
        · rename_i hend
          cases hstep
          exact { h with
            reader := { hr with
              running := by simp [PushState.closeQueue]
              work := by simp [PushState.closeQueue, ReaderPhase.work]
              finished := fun _ => ⟨hpending, hend⟩ }
            closed := fun _ => rfl }
        · rename_i hopen
          split at hstep
          · rename_i hinput
            cases hstep
            exact ready_finalizeFeed h hphase hpending (by simpa using hopen) hinput
          · cases hstep

/-! ## Steps of a worker -/

structure WorkerKeepsReady (env : Environment) (ctx : PushContext) (chunks : List ChunkBuffer)
    (s : PushState) (result : PushState × Worker) : Prop where
  services : Healthy env ctx chunks result.1.services
  known : ∀ chunk, s.services.Known chunk → result.1.services.Known chunk
  noFailure : result.1.shared.firstFailure = none
  reader : result.1.reader = s.reader
  uncancelled : result.1.shared.queue.cancelled = false
  closed : result.1.shared.queue.closed = s.shared.queue.closed
  tasks : ∀ task ∈ result.1.shared.queue.items, task ∈ s.shared.queue.items
  worker : WorkerReady env ctx chunks result.1.services result.2

theorem WorkerKeepsReady.ready {index : Nat} {worker : Worker} {next : PushState}
    (h : Ready env ctx chunks s) (hk : WorkerKeepsReady env ctx chunks s (next, worker)) :
    Ready env ctx chunks { next with workers := s.workers.set index worker } := by
  have hreader : next.reader = s.reader := hk.reader
  refine ⟨hk.services, hk.noFailure, ?_, hk.uncancelled, fun hclosed => ?_, fun task htask => ?_,
    fun other hother => ?_⟩
  · simp only [hreader]
    exact h.reader.mono hk.known
  · simp only [hreader]
    exact h.closed (hk.closed ▸ hclosed)
  · exact (h.tasks task (hk.tasks task htask)).mono hk.known
  · rcases List.mem_or_eq_of_mem_set hother with hother | rfl
    · exact (h.workers other hother).mono hk.known
    · exact hk.worker

theorem keepsReady_services (h : Ready env ctx chunks s) {next : PushState} {worker : Worker}
    (hshared : next.shared.queue = s.shared.queue) (hfailure : next.shared.firstFailure = none)
    (hreader : next.reader = s.reader) (hservices : Healthy env ctx chunks next.services)
    (hknown : ∀ chunk, s.services.Known chunk → next.services.Known chunk)
    (hworker : WorkerReady env ctx chunks s.services worker) :
    WorkerKeepsReady env ctx chunks s (next, worker) := by
  refine ⟨hservices, hknown, hfailure, hreader, ?_, ?_, fun task htask => ?_,
    hworker.mono hknown⟩
  · rw [hshared]
    exact h.uncancelled
  · rw [hshared]
  · rwa [← hshared]

section

variable {task : UploadTask} {nodeId : String} {rest : List String}

theorem startNode_ready (hset : Setting env ctx chunks) (h : Ready env ctx chunks s)
    (hw : WorkerReady env ctx chunks s.services (.uploading task (nodeId :: rest) .start)) :
    WorkerKeepsReady env ctx chunks s (s.startNode env ctx task nodeId rest .answered) := by
  obtain ⟨htask, hnodes⟩ := hw
  have hrest : ∀ other ∈ rest, other ∈ ctx.session.placementNodeIds :=
    fun other hother => hnodes other (List.mem_cons_of_mem _ hother)
  have hpool : ¬nodeId ∉ ctx.pool := not_not.mpr (hset.pool nodeId (hnodes nodeId (by simp)))
  have hsame : Healthy env ctx chunks (s.services.setStore nodeId (s.services.stores nodeId)) :=
    h.services.setStore fun _ hintact => hintact
  unfold PushState.startNode
  simp only [if_neg hpool, PushState.storageExchange, exchange, serveStorage_headChunk,
    StorageNodeClient.hasChunk, ok_bind]
  split
  · cases LocalChunkStore.contains (s.services.stores nodeId) task.chunk.chunkId with
    | true => exact keepsReady_services h rfl h.noFailure rfl hsame (fun _ hk => hk) ⟨htask, hrest⟩
    | false =>
        exact keepsReady_services h rfl h.noFailure rfl hsame (fun _ hk => hk) ⟨htask, hnodes⟩
  · exact keepsReady_services h rfl h.noFailure rfl h.services (fun _ hk => hk) ⟨htask, hnodes⟩

theorem putNode_ready (h : Ready env ctx chunks s) {repaired : Bool}
    (hw : WorkerReady env ctx chunks s.services (.uploading task (nodeId :: rest) (.put repaired))) :
    WorkerKeepsReady env ctx chunks s (s.putNode env task nodeId rest repaired .answered) := by
  obtain ⟨htask, hnodes⟩ := hw
  obtain ⟨chunk, hchunk, hid, hbytes⟩ := htask.chunk
  have hintact := h.services.stores nodeId (hnodes nodeId (by simp)) chunk hchunk
  obtain ⟨store, hput, hkept⟩ := serveStorage_put hintact
  have hserved : serveStorage env (s.services.stores nodeId)
      (.putChunk task.chunk.chunkId task.bytes) = (.ok .noContent, store) := by
    rw [hid, hbytes]
    exact hput
  unfold PushState.putNode
  simp only [PushState.storageExchange, exchange, hserved, StorageNodeClient.putChunk, ok_bind]
  exact keepsReady_services h rfl h.noFailure rfl (h.services.setStore hkept) (fun _ hk => hk)
    ⟨htask, hnodes⟩

theorem registerNode_ready (h : Ready env ctx chunks s)
    (hw : WorkerReady env ctx chunks s.services (.uploading task (nodeId :: rest) .register)) :
    WorkerKeepsReady env ctx chunks s (s.registerNode env task nodeId rest .answered) := by
  obtain ⟨htask, hnodes⟩ := hw
  have hvalid : nodeIdInvalid nodeId = false :=
    (UploadSession.valid_iff.mp ctx.session.valid).2.2.2.2.1 nodeId (hnodes nodeId (by simp))
  obtain ⟨db, hserved, hhealthy, hchunks⟩ := serveRegister_healthy h.services htask.known hvalid
  have hcheck : MetadataClient.checkStorageLocation
      (uploadedLocation task.chunk.chunkId nodeId) = .ok () := by
    have hinvalid : ¬nodeIdInvalid (uploadedLocation task.chunk.chunkId nodeId).nodeId = true := by
      simp [uploadedLocation, hvalid]
    have hpath : ¬(uploadedLocation task.chunk.chunkId nodeId).storagePath = "" :=
      logicalStoragePath_ne_empty _
    rw [MetadataClient.checkStorageLocation, failIf_of_false hinvalid, ok_bind,
      failIf_of_false hpath]
  have hknown : ∀ chunk, s.services.Known chunk → (s.services.setDb db).Known chunk := by
    intro chunk hchunk
    unfold Services.Known Services.setDb
    rw [hchunks]
    exact hchunk
  unfold uploadedLocation at hcheck hserved
  unfold PushState.registerNode
  simp only [hcheck, exchange, hserved]
  exact keepsReady_services h rfl h.noFailure rfl hhealthy hknown
    ⟨htask, fun other hother => hnodes other (List.mem_cons_of_mem _ hother)⟩

end

theorem workerAction_ready (hset : Setting env ctx chunks) (h : Ready env ctx chunks s)
    {worker : Worker} (hw : WorkerReady env ctx chunks s.services worker)
    {result : PushState × Worker} (hstep : s.workerAction env ctx .answered worker = some result) :
    WorkerKeepsReady env ctx chunks s result := by
  unfold PushState.workerAction at hstep
  split at hstep
  · split at hstep
    · cases hstep
    · rename_i queue hpop
      cases hstep
      obtain ⟨rfl, -, -⟩ := BoundedQueue.pop_none hpop
      exact keepsReady_services h rfl h.noFailure rfl h.services (fun _ hk => hk) trivial
    · rename_i task queue hpop
      cases hstep
      obtain ⟨hitems, hclosed, hcancelled⟩ := BoundedQueue.pop_some hpop
      have htask := h.tasks task (by simp [hitems])
      exact ⟨h.services, fun _ hk => hk, h.noFailure, rfl, hcancelled.trans h.uncancelled, hclosed,
        fun other hother => by simp [hitems, hother], htask, htask.desired⟩
  · cases hstep
    exact keepsReady_services h rfl h.noFailure rfl h.services (fun _ hk => hk) trivial
  · cases hstep
    exact startNode_ready hset h hw
  · cases hstep
    exact putNode_ready h hw
  · cases hstep
    exact registerNode_ready h hw
  · exact hw.elim
  · cases hstep

theorem ready_step (hset : Setting env ctx chunks) (hstep : AnsweredStep env ctx s s')
    (h : Ready env ctx chunks s) : Ready env ctx chunks s' := by
  obtain ⟨op, hanswered, hstep⟩ := hstep
  cases op with
  | read count => exact ready_read h hstep
  | readFailure => cases hanswered
  | reader delivery =>
      obtain rfl : delivery = .answered := of_decide_eq_true hanswered
      exact ready_readerStep hset h hstep
  | worker index delivery =>
      obtain rfl : delivery = .answered := of_decide_eq_true hanswered
      simp only [PushState.step, PushState.workerStep] at hstep
      split at hstep
      · cases hstep
      · rename_i worker hworker
        split at hstep
        · cases hstep
        · rename_i next worker' haction
          cases hstep
          have hw := h.workers worker (List.mem_of_getElem? hworker)
          exact (workerAction_ready hset h hw haction).ready h

/-! ## The call -/

structure Succeeds (env : Environment) (ctx : PushContext) (chunks : List ChunkBuffer)
    (source : List UInt8) (s : PushState) : Prop where
  ready : Ready env ctx chunks s
  scans : Scans source s.reader
  alive : Alive s

theorem succeeds_step (hset : Setting env ctx chunks) {source : List UInt8}
    (hstep : AnsweredStep env ctx s s') (h : Succeeds env ctx chunks source s) :
    Succeeds env ctx chunks source s' := by
  have hready := ready_step hset hstep h.ready
  refine ⟨hready, ?_, alive_step hstep.step h.alive⟩
  obtain ⟨op, -, hstep⟩ := hstep
  rcases PushState.step_cases hstep with hfailed | hprogress
  · exact absurd hready.noFailure hfailed
  · exact scans_progress hprogress h.scans

theorem succeeds_change {source : List UInt8} (hstep : HealthyChange env ctx chunks s s')
    (h : Succeeds env ctx chunks source s) : Succeeds env ctx chunks source s' := by
  obtain ⟨services, hhealthy, hknown, rfl⟩ := hstep
  exact ⟨h.ready.mono hhealthy hknown, h.scans, alive_change ⟨services, rfl⟩ h.alive⟩

theorem prepared_of_succeeds {source : List UInt8} {chunkFeed : ChunkFeed}
    (hfeed : makeChunkFeed ctx.session = .ok chunkFeed) (hfits : source.length ≤ uint64Max)
    (hstorable : Storable env (chunkFeed.allChunks source))
    (h : Succeeds env ctx (chunkFeed.allChunks source) source s)
    {result : Except EngineExc PreparedPush} (hreturns : s.returns env ctx = some result) :
    ∃ prepared, result = .ok prepared := by
  unfold PushState.returns at hreturns
  split at hreturns
  · rename_i hjoined
    simp only [PushState.joined, Bool.and_eq_true, decide_eq_true_eq] at hjoined
    have hfinished := hjoined.1.resolve_right h.scans.running.2
    obtain ⟨hpending, hend⟩ := h.ready.reader.finished hfinished
    have hfed : s.reader.fed = source := by
      rw [← h.scans.stream, h.scans.ended hend, List.append_nil]
    obtain ⟨before, hstream, hrefs⟩ := h.ready.reader.stream
    have hall : before = chunkFeed.allChunks source := by
      rw [← hstream]
      simp [Reader.remaining, hpending, hend]
    obtain ⟨d, hdescribe⟩ := @describe_allChunks env _ _ _ hfeed
      (fun chunk hchunk => (hstorable.sizes chunk hchunk).1) hfits
    have hprepare := Option.some.inj hreturns
    rw [PushState.prepare, h.ready.noFailure] at hprepare
    simp only [hfed, hrefs, hall, hdescribe, ok_bind] at hprepare
    exact ⟨_, hprepare.symm⟩
  · cases hreturns

theorem finalized_of_makeChunkFeed {session : UploadSession} {chunkFeed : ChunkFeed}
    (h : makeChunkFeed session = .ok chunkFeed) : chunkFeed.finalized = false := by
  unfold makeChunkFeed at h
  split at h
  · simp only [bind_eq_ok, mapError_eq_ok] at h
    obtain ⟨-, -, chunker, hmake, hfeed⟩ := h
    obtain rfl := Except.ok.inj hfeed
    unfold FixedSizeChunker.make at hmake
    split at hmake
    · obtain rfl := Except.ok.inj hmake
      rfl
    · cases hmake
  · simp only [bind_eq_ok, mapError_eq_ok] at h
    obtain ⟨chunker, hmake, hfeed⟩ := h
    obtain rfl := Except.ok.inj hfeed
    unfold FastCdcChunker.make at hmake
    split at hmake
    · cases hmake
    · obtain rfl := Except.ok.inj hmake
      rfl

theorem answered_lowers :
    Lowers PushState.left (AnsweredStep env ctx) (HealthyChange env ctx chunks) where
  own := fun _ _ hstep => push_lowers.own _ _ hstep.step
  others := by
    rintro s s' ⟨services, -, -, rfl⟩
    rfl

theorem succeeds_initial {source : List UInt8} {chunkFeed : ChunkFeed}
    (hfeed : makeChunkFeed ctx.session = .ok chunkFeed)
    (hhealthy : Healthy env ctx (chunkFeed.allChunks source) services) :
    Succeeds env ctx (chunkFeed.allChunks source) source (.initial services chunkFeed source) := by
  refine ⟨⟨hhealthy, rfl, ⟨by simp [PushState.initial], fun _ => finalized_of_makeChunkFeed hfeed,
    ⟨[], rfl, rfl⟩, ⟨by simp [PushState.initial], by simp [PushState.initial]⟩,
    by simp [PushState.initial], Nat.zero_le _, by simp [PushState.initial, ReaderPhase.work],
    by simp [PushState.initial]⟩, rfl, (fun hclosed => by cases hclosed),
    by simp [PushState.initial, BoundedQueue.make], fun worker hworker => ?_⟩,
    ⟨by simp [PushState.initial], rfl, by simp [PushState.initial], by simp [PushState.initial]⟩,
    alive_initial⟩
  rw [List.eq_of_mem_replicate hworker]
  trivial

end

/-- While requests are answered and everybody else keeps the services healthy, a push can only
return a prepared push, and in every fair run it does. -/
theorem push_succeeds {env : Environment} {engine : PushEngine} {services : Services}
    {sessionId : UuidV7} {source : List UInt8} {ctx : PushContext} {start : PushState}
    (hpush : engine.push services sessionId (some source) = .ok (ctx, start))
    (hsorts : SortsByBytes env) (hfree : CollisionFree env (start.reader.chunkFeed.allChunks source))
    (hpool : ∀ nodeId ∈ ctx.session.placementNodeIds, nodeId ∈ engine.pool)
    (hhealthy : Healthy env ctx (start.reader.chunkFeed.allChunks source) services)
    (hfits : source.length ≤ uint64Max) :
    (∀ s result, ReflTransGen (fun s s' => AnsweredStep env ctx s s' ∨
        HealthyChange env ctx (start.reader.chunkFeed.allChunks source) s s') start s →
      s.returns env ctx = some result → ∃ prepared, result = .ok prepared) ∧
    ∀ run, run 0 = start →
      EndlessRun (AnsweredStep env ctx)
        (HealthyChange env ctx (start.reader.chunkFeed.allChunks source)) run →
      Fair (AnsweredStep env ctx) run →
      ∃ n prepared, (run n).returns env ctx = some (.ok prepared) := by
  obtain ⟨chunkFeed, input, hinput, hstarted⟩ := push_started hpush
  obtain rfl := Option.some.inj hinput
  obtain rfl := hstarted.initial
  have hstorable : Storable env (chunkFeed.allChunks source) :=
    storable_allChunks hstarted.feed hfree
  have hset : Setting env ctx (chunkFeed.allChunks source) :=
    ⟨hsorts, hstorable, fun nodeId hnode => hstarted.pool ▸ hpool nodeId hnode⟩
  have hstart : Succeeds env ctx (chunkFeed.allChunks source) source
      (.initial services chunkFeed source) := succeeds_initial hstarted.feed hhealthy
  have hown : ∀ s s', AnsweredStep env ctx s s' →
      Succeeds env ctx (chunkFeed.allChunks source) source s →
      Succeeds env ctx (chunkFeed.allChunks source) source s' := fun _ _ => succeeds_step hset
  have hothers : ∀ s s', HealthyChange env ctx (chunkFeed.allChunks source) s s' →
      Succeeds env ctx (chunkFeed.allChunks source) source s →
      Succeeds env ctx (chunkFeed.allChunks source) source s' := fun _ _ => succeeds_change
  refine ⟨fun s result hrun hreturns => ?_, fun run hzero hrun hfair => ?_⟩
  · have hsucceeds := invariant_of_step (P := Succeeds env ctx (chunkFeed.allChunks source) source)
      (fun _ _ hstep => hstep.elim (hown _ _) (hothers _ _)) hrun hstart
    exact prepared_of_succeeds hstarted.feed hfits hstorable hsucceeds hreturns
  · have hsucceeds := hrun.invariant hown hothers (hzero ▸ hstart)
    obtain ⟨n, result, hreturns⟩ := answered_lowers.fair_reaches hrun hfair fun n =>
      @step_or_returned env ctx _ (hsucceeds n).alive
    obtain ⟨prepared, rfl⟩ :=
      prepared_of_succeeds hstarted.feed hfits hstorable (hsucceeds n) hreturns
    exact ⟨n, prepared, hreturns⟩

/-! ## The sample push -/

namespace Sample

open Metadata.Sample

theorem sortsByBytes_env : SortsByBytes Metadata.Sample.env := by
  have hiff : ∀ a b : String, Metadata.Sample.env.textLe a b = true ↔ ¬b < a := by
    intro a b
    simp [Metadata.Sample.env]
  have hlinear := strictComparison_string.linear
  refine ⟨⟨fun a b => ?_, fun a b c => ?_, fun a b => ?_⟩, fun a _ b _ hab => (hiff a b).mp hab⟩
  · simp only [hiff]
    exact hlinear.total a b
  · simp only [hiff]
    exact hlinear.trans a b c
  · simp only [hiff]
    exact hlinear.antisymm a b

theorem healthy_services {ctx : PushContext} {chunks : List ChunkBuffer}
    (h : services.db.uploadSessions.find? ctx.sessionId = some ⟨ctx.session, .open⟩) :
    Healthy Metadata.Sample.env ctx chunks services := by
  have hchunks : services.db.chunks.rows = [] := by decide +kernel
  have hlocations : services.db.storageLocations.rows = [] := by decide +kernel
  refine ⟨h, fun chunk _ row hrow => ?_, fun location hlocation => ?_, fun nodeId _ chunk _ => ?_⟩
  · have hmem := Table.mem_rows.mpr (Table.mem_of_find? hrow)
    simp [hchunks] at hmem
  · have hmem := Table.mem_rows.mpr hlocation
    simp [hlocations] at hmem
  · exact ⟨fun bytes hbytes => (by cases hbytes), by simp [services]⟩

end Sample

theorem push_succeeds_sample :
    ∃ (ctx : PushContext) (start : PushState),
      Sample.pushCall (asciiBytes ['a']) = .ok (ctx, start) ∧
      ∀ run, run 0 = start →
        EndlessRun (AnsweredStep Metadata.Sample.env ctx)
          (HealthyChange Metadata.Sample.env ctx
            (start.reader.chunkFeed.allChunks (asciiBytes ['a']))) run →
        Fair (AnsweredStep Metadata.Sample.env ctx) run →
        ∃ n prepared, (run n).returns Metadata.Sample.env ctx = some (.ok prepared) := by
  obtain ⟨ctx, start, -, -, hpush, hfree, -⟩ := Sample.pushCall_returns Sample.pushReturns_a
  obtain ⟨chunkFeed, input, hinput, hstarted⟩ := push_started hpush
  obtain rfl := Option.some.inj hinput
  obtain ⟨row, hfind, hopen, hrow⟩ := hstarted.stored
  have hstored : Sample.services.db.uploadSessions.find? Metadata.Sample.session.sessionId =
      some ⟨Metadata.Sample.session, .open⟩ := by decide +kernel
  have hsession : ctx.session = Metadata.Sample.session := by
    rw [← hrow, ← Option.some.inj (hstored.symm.trans hfind)]
  have hrequest : Sample.services.db.uploadSessions.find? ctx.sessionId =
      some ⟨ctx.session, .open⟩ := by
    rw [hstarted.request, hstored, hsession]
  have hpool : ∀ nodeId ∈ ctx.session.placementNodeIds, nodeId ∈ Sample.engine.pool := by
    rw [hsession]
    decide
  have hfree' : CollisionFree Metadata.Sample.env
      (start.reader.chunkFeed.allChunks (asciiBytes ['a'])) := by
    rw [hstarted.initial] at hfree ⊢
    exact hfree
  have hfits : (asciiBytes ['a']).length ≤ uint64Max := by decide
  have hhealthy : Healthy Metadata.Sample.env ctx
      (start.reader.chunkFeed.allChunks (asciiBytes ['a'])) Sample.services :=
    Sample.healthy_services hrequest
  exact ⟨ctx, start, hpush,
    (push_succeeds hpush Sample.sortsByBytes_env hfree' hpool hhealthy hfits).2⟩

end AiArtifactStore.Push
