import AiArtifactStore.Push.Progress

/-!
# Every recorded chunk reaches its nodes

The invariant of a push without a failure: a chunk of the layout is staged,
negotiated, queued or in the hands of a worker, or it is already stored on every
node that placement assigns it.
-/

namespace AiArtifactStore.Push

open AiArtifactStore.Foundation
open AiArtifactStore.Identity
open AiArtifactStore.Metadata
open AiArtifactStore.Storage
open AiArtifactStore.Chunking
open AiArtifactStore.Client

/-! ## The invariant -/

/-- Equal content ids among the chunks of the input mean equal bytes. -/
def CollisionFree (env : Environment) (chunks : List ChunkBuffer) : Prop :=
  ∀ a ∈ chunks, ∀ b ∈ chunks, env.contentId a.bytes = env.contentId b.bytes → a.bytes = b.bytes

instance (env : Environment) (chunks : List ChunkBuffer) : Decidable (CollisionFree env chunks) :=
  inferInstanceAs (Decidable (∀ a ∈ chunks, ∀ b ∈ chunks,
    env.contentId a.bytes = env.contentId b.bytes → a.bytes = b.bytes))

def desiredNodes (env : Environment) (ctx : PushContext) (chunkId : ContentId) :
    Except Exc (List String) :=
  selectReplicaNodes env chunkId ctx.session.placementNodeIds ctx.session.replicationFactor

structure Durable (env : Environment) (ctx : PushContext) (services : Services)
    (chunk : ChunkMetadata) : Prop where
  known : services.Known chunk
  replicated : ∃ desired, desiredNodes env ctx chunk.chunkId = .ok desired ∧
    ∀ nodeId ∈ desired, services.Stored chunk.chunkId nodeId

structure TaskSound (env : Environment) (ctx : PushContext) (services : Services)
    (task : UploadTask) : Prop where
  known : services.Known task.chunk
  desired : desiredNodes env ctx task.chunk.chunkId = .ok task.desiredNodeIds
  available : ∀ nodeId ∈ task.availableNodeIds, services.Available task.chunk.chunkId nodeId

def WorkerSound (env : Environment) (ctx : PushContext) (services : Services) : Worker → Prop
  | .uploading task nodes phase =>
      TaskSound env ctx services task ∧
        (∃ before, task.desiredNodeIds = before ++ nodes ∧
          ∀ nodeId ∈ before, services.Stored task.chunk.chunkId nodeId) ∧
        (phase = .register → ∀ nodeId ∈ nodes.head?, services.Present task.chunk.chunkId nodeId)
  | _ => True

def Worker.Holds (chunk : ChunkMetadata) : Worker → Prop
  | .uploading task _ _ => task.chunk = chunk
  | _ => False

def ReaderPhase.work : ReaderPhase → List (StagedChunk × NegotiatedChunk)
  | .enqueueing work => work
  | _ => []

def Reader.Holds (r : Reader) (chunk : ChunkMetadata) : Prop :=
  (∃ staged ∈ r.staging, staged.metadata = chunk) ∨
    ∃ entry ∈ r.phase.work, entry.1.metadata = chunk

def PushState.Held (s : PushState) (chunk : ChunkMetadata) : Prop :=
  s.reader.Holds chunk ∨ (∃ task ∈ s.shared.queue.items, task.chunk = chunk) ∨
    ∃ worker ∈ s.workers, worker.Holds chunk

def Reader.remaining (r : Reader) : List ChunkBuffer :=
  r.pending ++ if r.atEnd then [] else r.chunkFeed.allChunks r.input

def ChunkRef.metadata (chunk : ChunkRef) : ChunkMetadata := ⟨chunk.chunkId, chunk.size⟩

structure Reader.Sound (env : Environment) (input : List UInt8) (chunks : List ChunkBuffer)
    (services : Services) (r : Reader) : Prop where
  running : r.phase ≠ .failing ∧ r.phase ≠ .failed
  stream : r.fed ++ r.input = input
  ended : r.atEnd = true → r.input = []
  refs : r.layoutRefs ++ r.remaining.map (chunkRef env) = chunks.map (chunkRef env)
  seen : ∀ chunkId, chunkId ∈ r.seenChunkIds ↔ ∃ ref ∈ r.layoutRefs, ref.chunkId = chunkId
  known : ∀ entry ∈ r.phase.work, services.Known entry.2.chunk
  available : ∀ entry ∈ r.phase.work, ∀ nodeId ∈ entry.2.availableNodeIds,
    services.Available entry.2.chunk.chunkId nodeId
  finished : r.phase = .finished → r.staging = [] ∧ r.pending = [] ∧ r.atEnd = true

structure Sound (env : Environment) (ctx : PushContext) (input : List UInt8)
    (chunks : List ChunkBuffer) (s : PushState) : Prop where
  reader : s.reader.Sound env input chunks s.services
  queue : ∀ task ∈ s.shared.queue.items, TaskSound env ctx s.services task
  workers : ∀ worker ∈ s.workers, worker ≠ .failing ∧ WorkerSound env ctx s.services worker
  covered : CollisionFree env chunks → ∀ ref ∈ s.reader.layoutRefs,
    s.Held (ChunkRef.metadata ref) ∨ Durable env ctx s.services (ChunkRef.metadata ref)
  drained : .exited ∈ s.workers → s.shared.queue.items = [] ∧ s.shared.queue.closed = true
  staffed : s.workers ≠ []

/-! ## Growth keeps what is established -/

section

variable {env : Environment} {ctx : PushContext} {a b : Services} {input : List UInt8}
  {chunks : List ChunkBuffer} {r : Reader}

theorem Durable.grows {chunk : ChunkMetadata} (h : a.Grows b) (hd : Durable env ctx a chunk) :
    Durable env ctx b chunk := by
  obtain ⟨hknown, desired, hdesired, hstored⟩ := hd
  exact ⟨h.known _ hknown, desired, hdesired, fun nodeId hn => h.stored (hstored nodeId hn)⟩

theorem TaskSound.grows {task : UploadTask} (h : a.Grows b) (ht : TaskSound env ctx a task) :
    TaskSound env ctx b task :=
  ⟨h.known _ ht.known, ht.desired, fun nodeId hn => h.available _ _ (ht.available nodeId hn)⟩

theorem WorkerSound.grows {worker : Worker} (h : a.Grows b) (hw : WorkerSound env ctx a worker) :
    WorkerSound env ctx b worker := by
  cases worker with
  | uploading task nodes phase =>
      obtain ⟨htask, ⟨before, hsplit, hstored⟩, hpresent⟩ := hw
      exact ⟨htask.grows h, ⟨before, hsplit, fun nodeId hn => h.stored (hstored nodeId hn)⟩,
        fun hphase nodeId hn => h.present _ _ (hpresent hphase nodeId hn)⟩
  | idle => trivial
  | failing => trivial
  | exited => trivial

theorem Reader.Sound.grows (h : a.Grows b) (hr : r.Sound env input chunks a) :
    r.Sound env input chunks b :=
  { hr with
    known := fun entry hentry => h.known _ (hr.known entry hentry)
    available := fun entry hentry nodeId hn => h.available _ _ (hr.available entry hentry nodeId hn) }

end

section

variable {env : Environment} {ctx : PushContext} {s s' : PushState} {input : List UInt8}
  {chunks : List ChunkBuffer}

/-! ## Steps of a worker -/

structure WorkerEffect (env : Environment) (ctx : PushContext) (s : PushState) (worker : Worker)
    (services : Services) (queue : BoundedQueue UploadTask) (worker' : Worker) : Prop where
  grows : s.services.Grows services
  notFailing : worker' ≠ .failing
  sound : WorkerSound env ctx services worker'
  items : ∀ task ∈ queue.items, task ∈ s.shared.queue.items
  closed : queue.closed = s.shared.queue.closed
  taken : ∀ task ∈ s.shared.queue.items, task ∈ queue.items ∨ worker'.Holds task.chunk
  held : ∀ chunk, worker.Holds chunk → worker'.Holds chunk ∨ Durable env ctx services chunk
  drained : worker' = .exited → queue.items = [] ∧ queue.closed = true

theorem WorkerSound.next {services : Services} {task : UploadTask} {nodeId : String}
    {rest : List String} {phase : UploadPhase}
    (h : WorkerSound env ctx services (.uploading task (nodeId :: rest) phase))
    (hstored : services.Stored task.chunk.chunkId nodeId) :
    WorkerSound env ctx services (.uploading task rest .start) := by
  obtain ⟨htask, ⟨before, hsplit, hbefore⟩, -⟩ := h
  refine ⟨htask, ⟨before ++ [nodeId], by rw [hsplit, List.append_assoc, List.singleton_append],
    fun other hother => ?_⟩, fun hphase => by cases hphase⟩
  rcases List.mem_append.mp hother with hother | hother
  · exact hbefore other hother
  · rw [List.mem_singleton.mp hother]
    exact hstored

theorem workerEffect (hqueue : ∀ task ∈ s.shared.queue.items, TaskSound env ctx s.services task)
    {worker worker' : Worker} {services : Services} {queue : BoundedQueue UploadTask}
    (hsound : worker ≠ .failing ∧ WorkerSound env ctx s.services worker)
    (h : WorkerProgress env s worker services queue worker') :
    WorkerEffect env ctx s worker services queue worker' := by
  cases h with
  | @pop task queue hpop =>
      obtain ⟨hitems, hclosed, -⟩ := BoundedQueue.pop_some hpop
      refine ⟨.refl _, by simp, ⟨hqueue task (by simp [hitems]), ⟨[], rfl, by simp⟩, by simp⟩,
        fun other hother => by simp [hitems, hother], hclosed, fun other hother => ?_,
        fun chunk hchunk => hchunk.elim, by simp⟩
      rw [hitems] at hother
      rcases List.mem_cons.mp hother with rfl | hother
      · exact .inr rfl
      · exact .inl hother
  | exit hpop =>
      obtain ⟨rfl, hitems, hclosed⟩ := BoundedQueue.pop_none hpop
      exact ⟨.refl _, by simp, trivial, fun _ h => h, rfl, fun _ h => .inl h,
        fun chunk hchunk => hchunk.elim, fun _ => ⟨hitems, hclosed⟩⟩
  | @uploaded task phase =>
      obtain ⟨-, htask, ⟨before, hsplit, hstored⟩, -⟩ := hsound
      refine ⟨.refl _, by simp, trivial, fun _ h => h, rfl, fun _ h => .inl h, ?_, by simp⟩
      rintro chunk rfl
      rw [List.append_nil] at hsplit
      exact .inr ⟨htask.known, before, hsplit ▸ htask.desired, hstored⟩
  | @verified task nodeId rest services havailable hgrows hpresent =>
      have hstored : s.services.Stored task.chunk.chunkId nodeId :=
        ⟨hpresent, hsound.2.1.available nodeId havailable⟩
      exact ⟨hgrows, by simp, (hsound.2.next hstored).grows hgrows, fun _ h => h, rfl,
        fun _ h => .inl h, fun chunk hchunk => .inl hchunk, by simp⟩
  | absent hgrows =>
      obtain ⟨-, htask, hbefore, -⟩ := hsound
      exact ⟨hgrows, by simp, WorkerSound.grows hgrows ⟨htask, hbefore, by simp⟩, fun _ h => h, rfl,
        fun _ h => .inl h, fun chunk hchunk => .inl hchunk, by simp⟩
  | put hgrows hpresent =>
      have hgrown := hsound.2.grows hgrows
      refine ⟨hgrows, by simp, ⟨hgrown.1, hgrown.2.1, fun _ nodeId hnode => ?_⟩, fun _ h => h, rfl,
        fun _ h => .inl h, fun chunk hchunk => .inl hchunk, by simp⟩
      obtain rfl : _ = nodeId := Option.some.inj hnode
      exact hpresent
  | @registered task nodeId rest services hgrows havailable =>
      have hgrown := hsound.2.grows hgrows
      have hstored : services.Stored task.chunk.chunkId nodeId :=
        ⟨hgrown.2.2 rfl nodeId rfl, havailable⟩
      exact ⟨hgrows, by simp, hgrown.next hstored, fun _ h => h, rfl, fun _ h => .inl h,
        fun chunk hchunk => .inl hchunk, by simp⟩
  | cancelled => exact absurd rfl hsound.1

theorem Sound.worker (h : Sound env ctx input chunks s) {index : Nat} {worker worker' : Worker}
    {services : Services} {queue : BoundedQueue UploadTask} {counters : UploadCounters}
    (hworker : s.workers[index]? = some worker)
    (he : WorkerEffect env ctx s worker services queue worker') :
    Sound env ctx input chunks
      { services := services
        shared := ⟨queue, s.shared.firstFailure, counters⟩
        reader := s.reader
        workers := s.workers.set index worker' } := by
  have hmem' : worker' ∈ s.workers.set index worker' := by
    have hindex := (List.getElem?_eq_some_iff.mp hworker).1
    exact List.mem_iff_getElem.mpr ⟨index, by simpa using hindex, by simp⟩
  refine ⟨h.reader.grows he.grows, fun task htask => (h.queue task (he.items task htask)).grows he.grows,
    fun other hother => ?_, fun hfree ref href => ?_, fun hexited => ?_, List.ne_nil_of_mem hmem'⟩
  · rcases List.mem_or_eq_of_mem_set hother with hother | rfl
    · exact ⟨(h.workers other hother).1, (h.workers other hother).2.grows he.grows⟩
    · exact ⟨he.notFailing, he.sound⟩
  · rcases h.covered hfree ref href with (hreader | ⟨task, htask, hchunk⟩ | ⟨other, hother, hholds⟩) | hdurable
    · exact .inl (.inl hreader)
    · rcases he.taken task htask with hqueue | hholds
      · exact .inl (.inr (.inl ⟨task, hqueue, hchunk⟩))
      · exact .inl (.inr (.inr ⟨worker', hmem', hchunk ▸ hholds⟩))
    · rcases mem_set_or hworker hother with hstays | rfl
      · exact .inl (.inr (.inr ⟨other, hstays, hholds⟩))
      · rcases he.held _ hholds with hholds' | hdurable
        · exact .inl (.inr (.inr ⟨worker', hmem', hholds'⟩))
        · exact .inr hdurable
    · exact .inr (hdurable.grows he.grows)
  · rcases List.mem_or_eq_of_mem_set hexited with hbefore | heq
    · obtain ⟨hitems, hclosed⟩ := h.drained hbefore
      refine ⟨?_, he.closed.trans hclosed⟩
      exact List.eq_nil_iff_forall_not_mem.mpr fun task htask => by
        have := he.items task htask
        simp [hitems] at this
    · exact he.drained heq.symm

/-! ## Steps of the reader -/

theorem Sound.setReader (h : Sound env ctx input chunks s) {services : Services} {r : Reader}
    (hgrows : s.services.Grows services) (hr : r.Sound env input chunks services)
    (hcovered : CollisionFree env chunks → ∀ ref ∈ r.layoutRefs, ref ∈ s.reader.layoutRefs ∨
      r.Holds (ChunkRef.metadata ref) ∨
        ∃ old ∈ s.reader.layoutRefs, ChunkRef.metadata old = ChunkRef.metadata ref)
    (hheld : ∀ chunk, s.reader.Holds chunk → r.Holds chunk) :
    Sound env ctx input chunks { s with services := services, reader := r } := by
  have hold : CollisionFree env chunks → ∀ ref ∈ s.reader.layoutRefs,
      PushState.Held { s with services := services, reader := r } (ChunkRef.metadata ref) ∨
        Durable env ctx services (ChunkRef.metadata ref) := by
    intro hfree ref href
    rcases h.covered hfree ref href with (hreader | hrest) | hdurable
    · exact .inl (.inl (hheld _ hreader))
    · exact .inl (.inr hrest)
    · exact .inr (hdurable.grows hgrows)
  refine ⟨hr, fun task htask => (h.queue task htask).grows hgrows,
    fun worker hworker => ⟨(h.workers worker hworker).1, (h.workers worker hworker).2.grows hgrows⟩,
    fun hfree ref href => ?_, h.drained, h.staffed⟩
  rcases hcovered hfree ref href with hmem | hholds | ⟨old, hmem, heq⟩
  · exact hold hfree ref hmem
  · exact .inl (.inl hholds)
  · rw [← heq]
    exact hold hfree old hmem

theorem Reader.Sound.mem_refs {services : Services} {r : Reader}
    (h : r.Sound env input chunks services) {ref : ChunkRef} (href : ref ∈ r.layoutRefs) :
    ∃ chunk ∈ chunks, chunkRef env chunk = ref := by
  have hmem : ref ∈ chunks.map (chunkRef env) := h.refs ▸ List.mem_append.mpr (.inl href)
  exact List.mem_map.mp hmem

theorem sound_record (h : Sound env ctx input chunks s)
    {chunk : ChunkBuffer} {rest : List ChunkBuffer} (hphase : s.reader.phase = .scanning)
    (hpending : s.reader.pending = chunk :: rest) :
    Sound env ctx input chunks
      { s with reader := Reader.recordChunk env { s.reader with pending := rest } chunk } := by
  have hr := h.reader
  have hremaining : s.reader.remaining =
      chunk :: Reader.remaining { s.reader with pending := rest } := by
    simp [Reader.remaining, hpending]
  have hrefs := hr.refs
  rw [hremaining, List.map_cons] at hrefs
  have hchunk : chunkRef env chunk ∈ chunks.map (chunkRef env) := by
    rw [← hrefs]
    simp
  unfold Reader.recordChunk
  simp only
  split
  · rename_i hseen
    obtain ⟨old, hold, hid⟩ := (hr.seen _).mp hseen
    -- The earlier chunk with this id has the same bytes, so the same size.
    have hsame : CollisionFree env chunks →
        ChunkRef.metadata old = ChunkRef.metadata (chunkRef env chunk) := by
      intro hfree
      obtain ⟨first, hfirst, rfl⟩ := hr.mem_refs hold
      obtain ⟨second, hsecond, hsecondRef⟩ := List.mem_map.mp hchunk
      rw [← hsecondRef]
      have hids : env.contentId second.bytes = env.contentId chunk.bytes :=
        congrArg ChunkRef.chunkId hsecondRef
      have hbytes := hfree first hfirst second hsecond (hid.trans hids.symm)
      simp [ChunkRef.metadata, chunkRef, hbytes]
    refine h.setReader (.refl _) ⟨hr.running, hr.stream, hr.ended, ?_, fun chunkId => ?_, hr.known,
      hr.available, fun hfinished => ?_⟩ (fun hfree ref href => ?_) (fun _ hheld => hheld)
    · rw [List.append_assoc, List.singleton_append]
      exact hrefs
    · rw [hr.seen]
      constructor
      · rintro ⟨ref, href, rfl⟩
        exact ⟨ref, List.mem_append.mpr (.inl href), rfl⟩
      · rintro ⟨ref, href, rfl⟩
        rcases List.mem_append.mp href with href | href
        · exact ⟨ref, href, rfl⟩
        · rw [List.mem_singleton.mp href]
          exact ⟨old, hold, hid⟩
    · rw [hphase] at hfinished
      cases hfinished
    · rcases List.mem_append.mp href with href | href
      · exact .inl href
      · rw [List.mem_singleton.mp href]
        exact .inr (.inr ⟨old, hold, hsame hfree⟩)
  · refine h.setReader (.refl _) ⟨hr.running, hr.stream, hr.ended, ?_, fun chunkId => ?_, hr.known,
      hr.available, fun hfinished => ?_⟩ (fun hfree ref href => ?_) (fun other hheld => ?_)
    · rw [List.append_assoc, List.singleton_append]
      exact hrefs
    · rw [List.mem_append, hr.seen, List.mem_singleton]
      constructor
      · rintro (⟨ref, href, rfl⟩ | rfl)
        · exact ⟨ref, List.mem_append.mpr (.inl href), rfl⟩
        · exact ⟨chunkRef env chunk, by simp, rfl⟩
      · rintro ⟨ref, href, rfl⟩
        rcases List.mem_append.mp href with href | href
        · exact .inl ⟨ref, href, rfl⟩
        · rw [List.mem_singleton.mp href]
          exact .inr rfl
    · rw [hphase] at hfinished
      cases hfinished
    · rcases List.mem_append.mp href with href | href
      · exact .inl href
      · rw [List.mem_singleton.mp href]
        exact .inr (.inl (.inl ⟨stagedChunk env chunk, by simp, rfl⟩))
    · rcases hheld with ⟨staged, hstaged, heq⟩ | hwork
      · exact .inl ⟨staged, List.mem_append.mpr (.inl hstaged), heq⟩
      · exact .inr hwork

theorem sound_enqueued (h : Sound env ctx input chunks s) {staged : StagedChunk}
    {negotiated : NegotiatedChunk} {rest : List (StagedChunk × NegotiatedChunk)}
    {task : UploadTask} {queue : BoundedQueue UploadTask}
    (hphase : s.reader.phase = .enqueueing ((staged, negotiated) :: rest))
    (htask : PushState.uploadTask env ctx staged negotiated = .ok task)
    (hpush : s.shared.queue.push task = some (true, queue)) :
    Sound env ctx input chunks { s with
      shared := { s.shared with queue := queue }
      reader := { s.reader with phase := .enqueueing rest } } := by
  obtain ⟨hopen, hitems, -, -⟩ := BoundedQueue.push_accepted hpush
  have hr := h.reader
  have hmem : (staged, negotiated) ∈ s.reader.phase.work := by simp [hphase, ReaderPhase.work]
  have hrest : ∀ entry ∈ rest, entry ∈ s.reader.phase.work := by
    intro entry hentry
    simp [hphase, ReaderPhase.work, hentry]
  simp only [PushState.uploadTask, bind_eq_ok, exists_unit, failIf_eq_ok, not_or,
    Decidable.not_not] at htask
  obtain ⟨⟨hid, hsize⟩, desired, hdesired, -, htask⟩ := htask
  obtain rfl := Except.ok.inj htask
  have hchunk : negotiated.chunk = staged.metadata := by
    cases hn : negotiated.chunk
    cases hm : staged.metadata
    simp_all
  have hselected : desiredNodes env ctx staged.metadata.chunkId = .ok desired := by
    unfold desiredNodes
    cases hs : selectReplicaNodes env staged.metadata.chunkId ctx.session.placementNodeIds
        ctx.session.replicationFactor with
    | error e => simp [hs, Except.mapError] at hdesired
    | ok nodes => simpa [hs, Except.mapError] using hdesired
  have hsound : TaskSound env ctx s.services
      ⟨staged.metadata, staged.bytes, negotiated.availability, negotiated.availableNodeIds,
        desired⟩ :=
    ⟨hchunk ▸ hr.known _ hmem, hselected, fun nodeId hn => hchunk ▸ hr.available _ hmem nodeId hn⟩
  refine ⟨⟨by simp, hr.stream, hr.ended, hr.refs, hr.seen, fun entry hentry => hr.known entry (hrest entry hentry),
    fun entry hentry => hr.available entry (hrest entry hentry), by simp⟩, fun task htask => ?_,
    h.workers, fun hfree ref href => ?_, fun hexited => ?_, h.staffed⟩
  · rw [hitems] at htask
    rcases List.mem_append.mp htask with htask | htask
    · exact h.queue task htask
    · rw [List.mem_singleton.mp htask]
      exact hsound
  · rcases h.covered hfree ref href with ((hstaged | ⟨entry, hentry, heq⟩) | ⟨task, htask, heq⟩ | hworker) | hdurable
    · exact .inl (.inl (.inl hstaged))
    · simp only [hphase, ReaderPhase.work, List.mem_cons] at hentry
      rcases hentry with rfl | hentry
      · exact .inl (.inr (.inl ⟨_, hitems ▸ List.mem_append.mpr (.inr (List.mem_singleton.mpr rfl)), heq⟩))
      · exact .inl (.inl (.inr ⟨entry, hentry, heq⟩))
    · exact .inl (.inr (.inl ⟨task, hitems ▸ List.mem_append.mpr (.inl htask), heq⟩))
    · exact .inl (.inr (.inr hworker))
    · exact .inr hdurable
  · have := (h.drained hexited).2
    rw [hopen] at this
    cases this

theorem sound_progress (h : Sound env ctx input chunks s)
    (hp : Progress env ctx s s') : Sound env ctx input chunks s' := by
  have hr := h.reader
  cases hp with
  | @read data rest htop hinput =>
      obtain ⟨hphase, -, hpending, hopen⟩ := PushState.atTop_iff.mp htop
      refine h.setReader (.refl _) ⟨hr.running, ?_, by simp, ?_, hr.seen, hr.known, hr.available, ?_⟩
        (fun _ ref href => .inl href) (fun _ hheld => hheld)
      · rw [List.append_assoc, ← hinput]
        exact hr.stream
      · rw [← hr.refs]
        simp [Reader.remaining, hpending, hopen, hinput, ChunkFeed.allChunks_append]
      · intro hfinished
        rw [hphase] at hfinished
        cases hfinished
  | @finalized chunkFeed hphase hpending hopen hinput =>
      refine h.setReader (.refl _) ⟨hr.running, ?_, fun _ => hinput, ?_, hr.seen, hr.known,
        hr.available, ?_⟩ (fun _ ref href => .inl href) (fun _ hheld => hheld)
      · rw [List.append_nil]
        exact hr.stream
      · rw [← hr.refs]
        simp [Reader.remaining, hpending, hopen, hinput]
      · intro hfinished
        rw [hphase] at hfinished
        cases hfinished
  | record hphase hpending => exact sound_record h hphase hpending
  | @negotiated services work hphase hgrows hwork =>
      refine h.setReader hgrows ⟨by simp, hr.stream, hr.ended, hr.refs, hr.seen, hwork.known,
        fun entry hentry nodeId hn => hgrows.available _ _ (hwork.available entry hentry nodeId hn),
        by simp⟩ (fun _ ref href => .inl href) (fun chunk hheld => ?_)
      rcases hheld with ⟨staged, hstaged, heq⟩ | ⟨entry, hentry, -⟩
      · rw [← hwork.staged] at hstaged
        obtain ⟨entry, hentry, rfl⟩ := List.mem_map.mp hstaged
        exact .inr ⟨entry, hentry, heq⟩
      · simp [hphase, ReaderPhase.work] at hentry
  | enqueued hphase htask hpush => exact sound_enqueued h hphase htask hpush
  | resumed hphase =>
      refine h.setReader (.refl _) ⟨by simp, hr.stream, hr.ended, hr.refs, hr.seen,
        by simp [ReaderPhase.work], by simp [ReaderPhase.work], by simp⟩
        (fun _ ref href => .inl href) (fun chunk hheld => ?_)
      rcases hheld with hstaged | ⟨entry, hentry, -⟩
      · exact .inl hstaged
      · simp [hphase, ReaderPhase.work] at hentry
  | closed hphase hstaging hpending hend =>
      refine ⟨⟨by simp [PushState.closeQueue], hr.stream, hr.ended, hr.refs, hr.seen,
        by simp [PushState.closeQueue, ReaderPhase.work],
        by simp [PushState.closeQueue, ReaderPhase.work], fun _ => ⟨hstaging, hpending, hend⟩⟩, h.queue,
        h.workers, fun hfree ref href => ?_, fun hexited => ⟨(h.drained hexited).1, rfl⟩,
        h.staffed⟩
      rcases h.covered hfree ref href with ((hstaged | ⟨entry, hentry, -⟩) | hrest) | hdurable
      · exact .inl (.inl (.inl hstaged))
      · simp [hphase, ReaderPhase.work] at hentry
      · exact .inl (.inr hrest)
      · exact .inr hdurable
  | cancelled hphase => exact absurd hphase hr.running.1
  | worker hworker hprogress =>
      exact h.worker hworker
        (workerEffect h.queue (h.workers _ (List.mem_of_getElem? hworker)) hprogress)

/-! ## Runs -/

theorem Progress.grows (h : Progress env ctx s s') : s.services.Grows s'.services := by
  cases h with
  | negotiated hphase hgrows hwork => exact hgrows
  | worker hworker hprogress =>
      cases hprogress with
      | verified havailable hgrows hpresent => exact hgrows
      | absent hgrows => exact hgrows
      | put hgrows hpresent => exact hgrows
      | registered hgrows havailable => exact hgrows
      | _ => exact .refl _
  | _ => exact .refl _

/-- Without a failure, a run keeps the invariant, and the services only grow. -/
theorem sound_runs (h : Sound env ctx input chunks s)
    (hrun : PushState.Runs env ctx s s') (hok : s'.shared.firstFailure = none) :
    Sound env ctx input chunks s' ∧ s.services.Grows s'.services := by
  have hinvariant : ∀ t t', PushState.Step env ctx t t' →
      (t.shared.firstFailure = none → Sound env ctx input chunks t ∧ s.services.Grows t.services) →
        t'.shared.firstFailure = none →
          Sound env ctx input chunks t' ∧ s.services.Grows t'.services := by
    rintro t t' ⟨op, hstep⟩ ht hok'
    rcases PushState.step_cases hstep with hfailed | hprogress
    · exact absurd hok' hfailed
    · obtain ⟨hsound, hgrows⟩ := ht (hprogress.firstFailure.symm.trans hok')
      exact ⟨sound_progress hsound hprogress, hgrows.trans hprogress.grows⟩
  exact invariant_of_step hinvariant hrun (fun _ => ⟨h, .refl _⟩) hok

theorem Sound.durable (h : Sound env ctx input chunks s) (hjoined : s.joined = true) :
    s.reader.layoutRefs = chunks.map (chunkRef env) ∧ s.reader.fed = input ∧
      (CollisionFree env chunks →
        ∀ ref ∈ s.reader.layoutRefs, Durable env ctx s.services (ChunkRef.metadata ref)) := by
  simp only [PushState.joined, Bool.and_eq_true, decide_eq_true_eq, List.all_eq_true] at hjoined
  obtain ⟨hphase, hexited⟩ := hjoined
  have hfinished : s.reader.phase = .finished := hphase.resolve_right h.reader.running.2
  obtain ⟨hstaging, hpending, hend⟩ := h.reader.finished hfinished
  have hempty : s.shared.queue.items = [] := by
    obtain ⟨worker, hworker⟩ := List.exists_mem_of_ne_nil _ h.staffed
    exact (h.drained (hexited worker hworker ▸ hworker)).1
  refine ⟨?_, ?_, fun hfree ref href => ?_⟩
  · rw [← h.reader.refs]
    simp [Reader.remaining, hpending, hend]
  · rw [← h.reader.stream, h.reader.ended hend, List.append_nil]
  · rcases h.covered hfree ref href with ((hstaged | hwork) | hqueued | ⟨worker, hworker, hholds⟩) | hdurable
    · simp [hstaging] at hstaged
    · simp [hfinished, ReaderPhase.work] at hwork
    · simp [hempty] at hqueued
    · rw [hexited worker hworker] at hholds
      exact hholds.elim
    · exact hdurable

end

end AiArtifactStore.Push
