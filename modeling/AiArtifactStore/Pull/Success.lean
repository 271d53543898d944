import AiArtifactStore.Pull.Atomicity
import AiArtifactStore.Pull.SourceFallback
import AiArtifactStore.Pull.Termination

/-!
# A pull succeeds

When a node of the pool serves each chunk of the plan, no call of the file system
fails and nobody takes the destination away, a pull publishes its object.
-/

namespace AiArtifactStore.Pull

open AiArtifactStore.Client
open AiArtifactStore.Foundation
open AiArtifactStore.Identity
open AiArtifactStore.Metadata
open AiArtifactStore.Storage
open Relation

/-! ## The source of a plan -/

def pieceAt (plan : MultiNodeRestorePlan) (content : List UInt8) (chunkIndex : Nat) : List UInt8 :=
  readAt (chunkAt plan chunkIndex).offset (chunkAt plan chunkIndex).size content

/-- The plan is accepted, describes the content and has sources in the pool for every chunk. -/
structure PlanFor (ctx : PullContext) (plan : MultiNodeRestorePlan) (source : List UInt8) :
    Prop where
  accepted : acceptPlan ctx.request.versionId (.ok plan) = .ok plan
  describes : Assembled ctx.env (layoutChunks plan) source
  objectId : ctx.env.contentId source = plan.layoutDescriptor.objectId
  sources : ∀ chunk ∈ plan.chunks, chunk.sources ≠ []
  pooled : ∀ chunk ∈ plan.chunks, ∀ node ∈ chunk.sources, node.nodeId ∈ ctx.pool

/-- The nodes answer or fail like `HttpClient`, one of them has the chunk, and bytes that hash
to the id of the chunk are the chunk. -/
structure Served (ctx : PullContext) (plan : MultiNodeRestorePlan) (source : List UInt8)
    (chunkIndex : Nat) (answers : Answers) : Prop where
  fails : AnswersFail answers
  supplied : ∃ i bytes, SuppliesAt ctx plan chunkIndex answers i bytes
  honest : ∀ i bytes, SuppliesAt ctx plan chunkIndex answers i bytes →
    bytes = pieceAt plan source chunkIndex

section

variable {ctx : PullContext} {plan : MultiNodeRestorePlan} {source : List UInt8} {chunkIndex : Nat}
  {answers : Answers}

theorem Assembled.chunk {env : Environment} {chunks : List ChunkRef} {content : List UInt8}
    {i : Nat} {chunk : ChunkRef} (h : Assembled env chunks content)
    (hchunk : chunks[i]? = some chunk) :
    env.contentId (readAt ((chunks.take i).map ChunkRef.size).sum chunk.size content) =
      chunk.chunkId ∧
    (readAt ((chunks.take i).map ChunkRef.size).sum chunk.size content).length =
      chunk.size := by
  obtain ⟨pieces, hpieces, rfl⟩ := h
  induction hpieces generalizing i with
  | nil => cases hchunk
  | @cons first piece chunks pieces hpiece _ ih =>
      cases i with
      | zero =>
          obtain rfl : first = chunk := by simpa using hchunk
          have hread : readAt 0 first.size (piece ++ pieces.flatten) = piece := by
            rw [readAt, List.drop_zero, ← hpiece.2, List.take_left]
          simpa [hread] using hpiece
      | succ i =>
          have hrest := ih (by simpa using hchunk)
          have hread : readAt (first.size + ((chunks.take i).map ChunkRef.size).sum)
              chunk.size (piece ++ pieces.flatten) =
                readAt ((chunks.take i).map ChunkRef.size).sum chunk.size
                  pieces.flatten := by
            rw [readAt, ← hpiece.2, List.drop_append, List.drop_eq_nil_of_le (by simp),
              List.nil_append, Nat.add_sub_cancel_left, readAt]
          rw [List.take_succ_cons, List.map_cons, List.sum_cons, List.flatten_cons, hread]
          exact hrest

namespace PlanFor

theorem check (h : PlanFor ctx plan source) : checkPlan plan = .ok () :=
  (acceptPlan_eq_ok h.accepted).2

theorem getElem? (hlt : chunkIndex < (layoutChunks plan).length) :
    (layoutChunks plan)[chunkIndex]? = some (chunkAt plan chunkIndex) := by
  rw [chunkAt, List.getD_eq_getElem?_getD, List.getElem?_eq_getElem hlt, Option.getD_some]

theorem piece (h : PlanFor ctx plan source) (hlt : chunkIndex < (layoutChunks plan).length) :
    ctx.env.contentId (pieceAt plan source chunkIndex) = (chunkAt plan chunkIndex).chunkId ∧
      (pieceAt plan source chunkIndex).length = (chunkAt plan chunkIndex).size := by
  have hchunk := getElem? hlt
  have hoffset := plan.layoutDescriptor.layout.contiguous _ _ hchunk
  rw [Nat.zero_add] at hoffset
  rw [pieceAt, hoffset]
  exact h.describes.chunk hchunk

theorem length (h : PlanFor ctx plan source) :
    source.length = plan.layoutDescriptor.object.totalSize := by
  rw [h.describes.length, plan.layoutDescriptor.sizeMatches, ObjectLayout.totalSize_eq_sum]
  rfl

theorem planned (h : PlanFor ctx plan source) (hlt : chunkIndex < (layoutChunks plan).length) :
    ∃ chunk ∈ plan.chunks, sourcesAt plan chunkIndex = chunk.sources := by
  have hcheck := h.check
  simp only [checkPlan, bind_eq_ok, exists_unit, failIf_eq_ok, Decidable.not_not] at hcheck
  have hplanned : chunkIndex < plan.chunks.length := hcheck.2.1.symm ▸ hlt
  exact ⟨plan.chunks[chunkIndex], List.getElem_mem hplanned, by
    rw [sourcesAt, List.getElem?_eq_getElem hplanned, Option.map_some, Option.getD_some]⟩

end PlanFor

theorem downloadChunk_of_served (h : PlanFor ctx plan source)
    (hlt : chunkIndex < (layoutChunks plan).length)
    (hserved : Served ctx plan source chunkIndex answers) :
    downloadChunk ctx plan chunkIndex answers = .ok (pieceAt plan source chunkIndex) := by
  obtain ⟨i, bytes, hsupplies⟩ := hserved.supplied
  obtain ⟨first, found, hfirst⟩ := Attempt.exists_isFirst (attempt_supplied_iff.mpr hsupplies)
  obtain rfl := hserved.honest first found (attempt_supplied_iff.mp hfirst.supplies)
  refine downloadChunk_eq_ok.mpr ⟨(Attempt.firstSupplied_iff hfirst).mpr ⟨rfl, ?_⟩,
    (h.piece hlt).2⟩
  intro j _ e he
  obtain ⟨node, hnode, hpool⟩ := (attempt_aborted_iff hserved.fails).mp ⟨e, he⟩
  obtain ⟨chunk, hchunk, hsources⟩ := h.planned hlt
  rw [hsources] at hnode
  exact hpool (h.pooled chunk hchunk node (List.mem_of_getElem? hnode))

theorem served_content (h : PlanFor ctx plan source)
    (hlt : chunkIndex < (layoutChunks plan).length) :
    Served ctx plan source chunkIndex fun _ => .ok (.content (pieceAt plan source chunkIndex)) := by
  obtain ⟨chunk, hchunk, hsources⟩ := h.planned hlt
  obtain ⟨node, rest, hnodes⟩ := List.exists_cons_of_ne_nil (h.sources chunk hchunk)
  refine ⟨fun i e he => (by cases he), ⟨0, _, ⟨node, ?_, ?_⟩, rfl, (h.piece hlt).1⟩,
    fun i bytes hsupplies => ?_⟩
  · rw [hsources, hnodes]
    rfl
  · exact h.pooled chunk hchunk node (by rw [hnodes]; exact List.mem_cons_self)
  · have hanswered := hsupplies.answered
    cases hanswered
    rfl

end

/-! ## The destination and the partial file -/

structure Destination (ctx : PullContext) (fs : FileSystem String) : Prop where
  named : ctx.request.destinationPath ≠ ""
  parentNamed : parentPath ctx.request.destinationPath ≠ ""
  parent : fs.lookup (parentPath ctx.request.destinationPath) = some .directory
  noDirectory : fs.lookup ctx.request.destinationPath ≠ some .directory
  free : ctx.request.overwrite = false → fs.lookup ctx.request.destinationPath = none

/-- The partial path is free, or names a file in which no other bytes pass for a chunk of the
source. -/
def Usable (ctx : PullContext) (plan : MultiNodeRestorePlan) (source : List UInt8)
    (fs : FileSystem String) : Prop :=
  ∀ node, fs.lookup ctx.request.partialPath = some node → ∃ content, node = .file content ∧
    ∀ chunk ∈ layoutChunks plan, chunk.size ≤ (readAt chunk.offset chunk.size content).length →
      ctx.env.contentId (readAt chunk.offset chunk.size content) = chunk.chunkId →
        readAt chunk.offset chunk.size content = readAt chunk.offset chunk.size source

section

variable {ctx : PullContext} {plan : MultiNodeRestorePlan} {source : List UInt8}
  {fs fs' : FileSystem String}

theorem destination_iff :
    Destination ctx fs ↔ validateDestination fs ctx.request = .ok () := by
  simp only [validateDestination, bind_eq_ok, exists_unit, failIf_eq_ok, Decidable.not_not,
    not_and_or, ne_eq]
  constructor
  · intro h
    refine ⟨h.named, h.parentNamed, by simp [h.parent], h.parent, h.noDirectory, ?_⟩
    cases hmode : ctx.request.overwrite with
    | true => exact .inr (by simp)
    | false => exact .inl (h.free hmode)
  · rintro ⟨hnamed, hparentNamed, -, hparent, hnoDirectory, hfree⟩
    exact ⟨hnamed, hparentNamed, hparent, hnoDirectory, fun hmode =>
      hfree.resolve_right fun hoverwrite => hoverwrite hmode⟩

theorem Destination.change (h : Destination ctx fs)
    (hdirectory : ∀ path, fs'.lookup path = some .directory ↔ fs.lookup path = some .directory)
    (hfree : fs.lookup ctx.request.destinationPath = none →
      fs'.lookup ctx.request.destinationPath = none) : Destination ctx fs' :=
  ⟨h.named, h.parentNamed, (hdirectory _).mpr h.parent,
    fun hdest => h.noDirectory ((hdirectory _).mp hdest), fun hmode => hfree (h.free hmode)⟩

theorem Destination.modify (h : Destination ctx fs) (inode : Nat) (f : List UInt8 → List UInt8) :
    Destination ctx (fs.modify inode f) := by
  refine h.change (fs.lookup_modify_directory inode f) fun hnone => ?_
  simp only [FileSystem.lookup, Option.map_eq_none_iff] at hnone ⊢
  exact hnone

theorem Destination.openFile {inode : Nat} (h : Destination ctx fs)
    (hopen : fs.openFile ctx.request.partialPath = some (inode, fs')) : Destination ctx fs' := by
  obtain ⟨hentry, ⟨bytes, hfile⟩, hother⟩ := FileSystem.openFile_spec hopen
  refine h.change (fun path => ?_) fun hnone => ?_
  · by_cases hpath : path = ctx.request.partialPath
    · subst hpath
      have hbefore : fs.lookup ctx.request.partialPath ≠ some .directory := by
        intro hdirectory
        obtain ⟨named, hnamed, hnode⟩ := Option.map_eq_some_iff.mp hdirectory
        simp [FileSystem.openFile, hnamed, hnode] at hopen
      rw [FileSystem.lookup_eq_some hentry, hfile]
      exact iff_of_false (by simp) hbefore
    · rw [(hother path hpath).1]
  · rwa [(hother _ (partialPath_ne _).symm).1]

theorem Destination.parent_ne (h : Destination ctx fs) :
    parentPath ctx.request.destinationPath ≠ ctx.request.destinationPath := by
  intro hsame
  exact h.noDirectory (hsame ▸ h.parent)

theorem Destination.create (h : Destination ctx fs) (hmode : ctx.request.overwrite = true)
    (bytes : List UInt8) :
    Destination ctx (fs.create ctx.request.destinationPath bytes) := by
  refine ⟨h.named, h.parentNamed, ?_, ?_, fun hfalse => ?_⟩
  · rw [FileSystem.lookup_create_of_ne h.parent_ne]
    exact h.parent
  · rw [FileSystem.lookup_create]
    simp
  · rw [hmode] at hfalse
    cases hfalse

theorem Destination.remove (h : Destination ctx fs) :
    Destination ctx (fs.remove ctx.request.destinationPath) := by
  refine ⟨h.named, h.parentNamed, ?_, ?_, fun _ => FileSystem.lookup_remove⟩
  · rw [FileSystem.lookup_remove_of_ne h.parent_ne]
    exact h.parent
  · rw [FileSystem.lookup_remove]
    simp

theorem Usable.change (h : Usable ctx plan source fs)
    (hsame : fs'.lookup ctx.request.partialPath = fs.lookup ctx.request.partialPath) :
    Usable ctx plan source fs' := by
  intro node hnode
  exact h node (hsame ▸ hnode)

theorem usable_empty {fs : FileSystem String}
    (h : fs.lookup ctx.request.partialPath = some (.file [])) : Usable ctx plan source fs := by
  intro node hnode
  refine ⟨[], Option.some.inj (hnode.symm.trans h), fun chunk hchunk hlength => ?_⟩
  have hpos : 0 < chunk.size := ObjectLayout.size_pos hchunk
  simp [readAt] at hlength
  omega

theorem Usable.openFile {inode : Nat} (h : Usable ctx plan source fs)
    (hopen : fs.openFile ctx.request.partialPath = some (inode, fs')) :
    Usable ctx plan source fs' := by
  unfold FileSystem.openFile at hopen
  split at hopen
  · obtain ⟨-, rfl⟩ := Prod.mk.inj (Option.some.inj hopen)
    exact usable_empty (FileSystem.lookup_create _)
  · split at hopen
    · obtain ⟨-, rfl⟩ := Prod.mk.inj (Option.some.inj hopen)
      exact h
    · cases hopen

theorem Usable.opens (h : Usable ctx plan source fs) :
    ∃ inode fs', fs.openFile ctx.request.partialPath = some (inode, fs') := by
  unfold FileSystem.openFile
  split
  · exact ⟨_, _, rfl⟩
  · rename_i inode hentry
    obtain ⟨content, hcontent, -⟩ := h _ (FileSystem.lookup_eq_some hentry)
    rw [hcontent]
    exact ⟨_, _, rfl⟩

/-! ## Publishing -/

theorem rename_enabled {content : List UInt8} {file : PartialFile} (h : Destination ctx fs)
    (hholds : Holds ctx fs file content) :
    ∃ fs', fs.rename ctx.request.partialPath ctx.request.destinationPath = some fs' := by
  unfold FileSystem.rename
  split
  · rw [hholds.1]
    exact ⟨_, rfl⟩
  · rw [if_neg h.noDirectory]
    have hentry : (fs.remove ctx.request.destinationPath).entries ctx.request.partialPath =
        some file.inode := (Function.update_of_ne (partialPath_ne _) ..).trans hholds.1
    unfold FileSystem.link
    split
    · rename_i hnone
      rw [hentry] at hnone
      cases hnone
    · rw [if_pos (by simp [FileSystem.remove])]
      exact ⟨_, rfl⟩

theorem link_enabled {content : List UInt8} {file : PartialFile} (h : Destination ctx fs)
    (hmode : ctx.request.overwrite = false) (hholds : Holds ctx fs file content) :
    ∃ fs', fs.link ctx.request.partialPath ctx.request.destinationPath = some fs' := by
  have hfree := h.free hmode
  simp only [FileSystem.lookup, Option.map_eq_none_iff] at hfree
  unfold FileSystem.link
  split
  · rename_i hnone
    rw [hholds.1] at hnone
    cases hnone
  · rw [if_pos hfree]
    exact ⟨_, rfl⟩

end

/-! ## The window -/

/-- The steps of a call whose requests are answered and whose chunks are served. -/
def Answered (ctx : PullContext) (plan : MultiNodeRestorePlan) (source : List UInt8)
    (s : PullState) : PullOp → Prop
  | .next => True
  | .metadata response => response = .ok plan
  | .window (.worker index answers) => ∀ file state remaining window chunkIndex,
      s.phase = .downloading file state remaining window →
        window.workers index = .downloading chunkIndex → Served ctx plan source chunkIndex answers
  | .window .writer => True
  | .window (.pwrite _) => True
  | .window (.throwWriter _) => False
  | .fails _ => False
  | .others _ => False

structure Smooth (plan : MultiNodeRestorePlan) (source : List UInt8)
    (window : WindowState Files) : Prop where
  noFailure : window.shared.firstFailure = none
  cancelled : window.shared.cancelled = true → window.writer = .joining ∨ window.writer = .joined
  workers : ∀ index, (∀ e, window.workers index ≠ .recording e) ∧
    window.workers index ≠ .cancelling
  writer : (∀ e, window.writer ≠ .recording e) ∧ window.writer ≠ .cancelling
  ready : ∀ i bytes, window.shared.ready i = some bytes → bytes = pieceAt plan source i
  writing : ∀ i bytes position, window.writer = .writing i bytes position →
    bytes = pieceAt plan source i
  hashed : window.sink.hashed <+: source

section

variable {ctx : PullContext} {plan : MultiNodeRestorePlan} {source : List UInt8}
  {file : PartialFile} {state : ResumeState}
  {remaining : state.firstDownloadIndex < file.chunks.length} {window window' : WindowState Files}

theorem smooth_initial {files : Files} (hhashed : files.hashed <+: source) :
    Smooth plan source (WindowState.initial (windowContext ctx file state remaining) files) := by
  constructor <;> simp [WindowState.initial, hhashed]

theorem Smooth.worker {shared : SharedDownloadState} {index : Fin kWorkerCount} {worker : Worker}
    {claimed : List Nat} (h : Smooth plan source window)
    (hfailure : shared.firstFailure = window.shared.firstFailure)
    (hcancelled : shared.cancelled = window.shared.cancelled)
    (hready : ∀ i bytes, shared.ready i = some bytes → bytes = pieceAt plan source i)
    (hworker : (∀ e, worker ≠ .recording e) ∧ worker ≠ .cancelling) :
    Smooth plan source { window with
      shared := shared
      workers := Function.update window.workers index worker
      claimed := claimed } := by
  refine ⟨hfailure.trans h.noFailure, fun hflag => h.cancelled (hcancelled ▸ hflag),
    fun other => ?_, h.writer, hready, h.writing, h.hashed⟩
  by_cases hother : other = index
  · simpa [hother] using hworker
  · simpa [hother] using h.workers other

theorem smooth_workerStep {index : Fin kWorkerCount} {answers : Answers}
    (hfits : PlanFor ctx file.plan source)
    (hbound : ∀ chunkIndex, window.workers index = .downloading chunkIndex →
      chunkIndex < file.chunks.length)
    (hserved : ∀ chunkIndex, window.workers index = .downloading chunkIndex →
      Served ctx file.plan source chunkIndex answers)
    (h : Smooth file.plan source window)
    (hstep : window.workerStep (windowContext ctx file state remaining) index answers =
      some window') : Smooth file.plan source window' := by
  unfold WindowState.workerStep at hstep
  split at hstep
  · unfold WindowState.claim at hstep
    split at hstep
    · cases hstep
    · split at hstep
      · cases hstep
        exact h.worker rfl rfl h.ready (by simp)
      · split at hstep
        · cases hstep
          exact h.worker rfl rfl h.ready (by simp)
        · cases hstep
          exact h.worker rfl rfl h.ready (by simp)
  · rename_i chunkIndex hworker
    have hdownload := downloadChunk_of_served hfits (hbound _ hworker) (hserved _ hworker)
    simp only [windowContext, hdownload] at hstep
    cases hstep
    refine h.worker rfl rfl (fun i bytes hbytes => ?_) (by simp)
    by_cases hindex : i = chunkIndex
    · subst hindex
      simp only [Function.update_self] at hbytes
      cases hready : window.shared.ready i with
      | some before =>
          simp only [hready, Option.some_or, Option.some.injEq] at hbytes
          exact hbytes ▸ h.ready i before hready
      | none =>
          simp only [hready, Option.none_or, Option.some.injEq] at hbytes
          exact hbytes.symm
    · exact h.ready i bytes (by simpa [hindex] using hbytes)
  · exact absurd ‹_› ((h.workers index).1 _)
  · exact absurd ‹_› (h.workers index).2
  · cases hstep
  · cases hstep

theorem Smooth.loop {shared : SharedDownloadState} {workers : Fin kWorkerCount → Worker}
    {writer : Writer} {sink : Files} {written : List Nat} (h : Smooth plan source window)
    (hfailure : shared.firstFailure = none)
    (hcancelled : shared.cancelled = true → writer = .joining ∨ writer = .joined)
    (hworkers : ∀ index, (∀ e, workers index ≠ .recording e) ∧ workers index ≠ .cancelling)
    (hwriter : (∀ e, writer ≠ .recording e) ∧ writer ≠ .cancelling)
    (hready : ∀ i bytes, shared.ready i = some bytes → window.shared.ready i = some bytes)
    (hwriting : ∀ i bytes position, writer = .writing i bytes position →
      bytes = pieceAt plan source i)
    (hhashed : sink.hashed <+: source) :
    Smooth plan source { window with
      shared := shared, workers := workers, writer := writer, sink := sink, written := written } :=
  ⟨hfailure, hcancelled, hworkers, hwriter, fun i bytes hbytes => h.ready i bytes (hready i bytes hbytes),
    hwriting, hhashed⟩

theorem prefix_readAt {hashed : List UInt8} {offset : Nat} (h : hashed <+: source)
    (hoffset : offset = hashed.length) (size : Nat) :
    hashed ++ readAt offset size source <+: source := by
  obtain ⟨rest, rfl⟩ := h
  rw [hoffset, readAt, List.drop_left]
  exact (List.prefix_append_right_inj hashed).mpr (List.take_prefix _ _)

theorem running_of_smooth (h : Smooth plan source window) (hloop : window.writer ≠ .joining)
    (hend : window.writer ≠ .joined) : window.shared.cancelled = false := by
  by_contra hcancelled
  rcases h.cancelled (by simpa using hcancelled) with hjoining | hjoined
  · exact hloop hjoining
  · exact hend hjoined

theorem smooth_writerStep (h : Smooth file.plan source window)
    (hoffset : ∀ i bytes position, window.writer = .writing i bytes position →
      (chunkAt file.plan i).offset = window.sink.hashed.length)
    (hstep : window.writerStep (windowContext ctx file state remaining) = some window') :
    Smooth file.plan source window' := by
  unfold WindowState.writerStep at hstep
  split at hstep
  · rename_i workerIndex hwriter
    have hrunning := running_of_smooth h (by simp [hwriter]) (by simp [hwriter])
    cases hstep
    unfold WindowState.startWorker
    split
    · refine h.loop h.noFailure (by simp [hrunning]) (fun other => ?_) (by simp)
        (fun _ _ => id) (by simp) h.hashed
      by_cases hother : other = ⟨workerIndex, ‹_›⟩
      · simp [hother]
      · simpa [hother] using h.workers other
    · refine h.loop h.noFailure (by simp [hrunning]) h.workers ?_ (fun _ _ => id) ?_ h.hashed
      · unfold WindowState.atIndex
        split <;> simp
      · unfold WindowState.atIndex
        split <;> simp
  · rename_i chunkIndex hwriter
    have hrunning := running_of_smooth h (by simp [hwriter]) (by simp [hwriter])
    simp only [WindowState.take, h.noFailure, hrunning] at hstep
    split at hstep
    · rename_i habsurd
      cases habsurd
    · split at hstep
      · cases hstep
      · rename_i bytes hready
        cases hstep
        refine h.loop rfl (by simp) h.workers (by simp) (fun i other hother => ?_)
          (fun i other position hwriting => ?_) h.hashed
        · by_cases hindex : i = chunkIndex
          · simp [hindex] at hother
          · simpa [hindex] using hother
        · cases hwriting
          exact h.ready _ _ hready
  · rename_i chunkIndex chunkBytes position hwriter
    have hrunning := running_of_smooth h (by simp [hwriter]) (by simp [hwriter])
    split at hstep
    · cases hstep
    · cases hstep
      refine h.loop h.noFailure (by simp [hrunning]) h.workers (by simp) (fun _ _ => id)
        (by simp) ?_
      rw [h.writing _ _ _ hwriter]
      exact prefix_readAt h.hashed (hoffset _ _ _ hwriter) _
  · rename_i chunkIndex hwriter
    have hrunning := running_of_smooth h (by simp [hwriter]) (by simp [hwriter])
    cases hstep
    refine h.loop h.noFailure (by simp [hrunning]) h.workers ?_ (fun _ _ => id) ?_ h.hashed
    · unfold WindowState.atIndex
      split <;> simp
    · unfold WindowState.atIndex
      split <;> simp
  · cases hstep
    exact h.loop h.noFailure (by simp) h.workers (by simp) (fun _ _ => id) (by simp) h.hashed
  · exact absurd ‹_› (h.writer.1 _)
  · exact absurd ‹_› h.writer.2
  · split at hstep
    · cases hstep
      exact h.loop h.noFailure (by simp) h.workers (by simp) (fun _ _ => id) (by simp) h.hashed
    · cases hstep
  · cases hstep

theorem smooth_pwrite {count : Nat} (h : Smooth file.plan source window)
    (hstep : window.pwrite (windowContext ctx file state remaining) count = some window') :
    Smooth file.plan source window' := by
  unfold WindowState.pwrite at hstep
  split at hstep
  · rename_i hwriter
    have hrunning := running_of_smooth h (by simp [hwriter]) (by simp [hwriter])
    split at hstep
    · cases hstep
      refine h.loop h.noFailure (by simp [hrunning]) h.workers (by simp) (fun _ _ => id)
        (fun i bytes position hwriting => ?_) h.hashed
      cases hwriting
      exact h.writing _ _ _ hwriter
    · cases hstep
  · cases hstep

end

/-! ## A call -/

/-- The phases in which the partial file is as the call found or made it. -/
def Phase.reads : Phase → Bool
  | .validating | .planning | .opening _ | .sizing _ | .emptying _ | .resuming .. => true
  | _ => false

namespace PullState

structure Succeeding (ctx : PullContext) (plan : MultiNodeRestorePlan) (source : List UInt8)
    (s : PullState) : Prop where
  content : Content ctx s
  planned : ∀ received, s.phase.plan? = some received → received = plan
  destination : s.phase.beforePublication = true → Destination ctx s.files.fs
  usable : s.phase.reads = true → Usable ctx plan source s.files.fs
  hashed : s.files.hashed <+: source
  window : ∀ file state remaining window, s.phase = .downloading file state remaining window →
    Smooth plan source (window.withSink s.files)
  published : s.phase.beforePublication = false →
    s.files.fs.lookup ctx.request.destinationPath = some (.file source)
  runs : ∀ e, s.phase ≠ .thrown e

section

variable {ctx : PullContext} {plan : MultiNodeRestorePlan} {source : List UInt8} {s s' : PullState}
  {file : PartialFile} {state : ResumeState} {restored : Restored}

theorem succeeding_initial {fs : FileSystem String} (hdestination : Destination ctx fs)
    (husable : Usable ctx plan source fs) : Succeeding ctx plan source (initial ctx fs) where
  content := content_initial fs
  planned _ h := by cases h
  destination _ := hdestination
  usable _ := husable
  hashed := List.nil_prefix
  window _ _ _ _ h := by cases h
  published h := by cases h
  runs _ h := by cases h

theorem Succeeding.phase (hs : Succeeding ctx plan source s) (hfiles : s'.files = s.files)
    (hcontent : Content ctx s')
    (hplan : ∀ received, s'.phase.plan? = some received → s.phase.plan? = some received)
    (hbefore : s'.phase.beforePublication = s.phase.beforePublication)
    (hreads : s'.phase.reads = true → s.phase.reads = true)
    (hwindow : ∀ file state remaining window, s'.phase = .downloading file state remaining window →
      Smooth plan source (window.withSink s.files))
    (hruns : ∀ e, s'.phase ≠ .thrown e) : Succeeding ctx plan source s' where
  content := hcontent
  planned received h := hs.planned received (hplan received h)
  destination h := by rw [hfiles]; exact hs.destination (hbefore ▸ h)
  usable h := by rw [hfiles]; exact hs.usable (hreads h)
  hashed := by rw [hfiles]; exact hs.hashed
  window file state remaining window h := by rw [hfiles]; exact hwindow file state remaining window h
  published h := by rw [hfiles]; exact hs.published (hbefore ▸ h)
  runs := hruns

/-! ### Nothing throws -/

theorem afterResume_runs (e : EngineExc) : (s.afterResume ctx file state).phase ≠ .thrown e := by
  unfold afterResume
  split <;> simp [goto]

theorem resume_runs {partialSize : Nat} (hs : Succeeding ctx plan source s)
    (hphase : s.phase = .resuming file partialSize state) (e : EngineExc) :
    (s.resume ctx file partialSize state).phase ≠ .thrown e := by
  have hcontent := hs.content
  unfold Content at hcontent
  rw [hphase] at hcontent
  obtain ⟨rest, ⟨hholds, -⟩, hsize, -⟩ := hcontent
  unfold resume
  split
  · exact afterResume_runs e
  · rename_i chunk hchunk
    split
    · rename_i hend
      have hread : ¬(readAt chunk.offset chunk.size (s.files.fs.contents file.inode)).length <
          chunk.size := by
        rw [hholds.contents, readAt, List.length_take, List.length_drop, ← hsize]
        omega
      simp only [if_neg hread]
      split <;> simp [goto]
    · split
      · simp [goto]
      · exact afterResume_runs e

theorem hashed_eq (hfits : PlanFor ctx plan source) (hs : Succeeding ctx plan source s)
    (hplan : restored.file.plan = plan) (hwhole : Whole ctx restored s.files) :
    s.files.hashed = source := by
  refine hs.hashed.eq_of_length ?_
  rw [hwhole.2.totalSize, hfits.length, hplan]

theorem publish_runs (hs : Succeeding ctx plan source s) (hphase : s.phase = .publishing restored)
    (e : EngineExc) : (s.publish ctx restored).phase ≠ .thrown e := by
  have hcontent := hs.content
  unfold Content at hcontent
  rw [hphase] at hcontent
  have hdestination := hs.destination (by rw [hphase]; rfl)
  unfold publish
  split
  · obtain ⟨fs, hrename⟩ := rename_enabled hdestination hcontent.1.1
    rw [hrename]
    simp [goto]
  · rename_i hmode
    obtain ⟨fs, hlink⟩ := link_enabled hdestination (Bool.eq_false_iff.mpr hmode) hcontent.1.1
    rw [hlink]
    simp [goto]

theorem next_runs (hfits : PlanFor ctx plan source) (hs : Succeeding ctx plan source s)
    (h : s.next ctx = some s') (e : EngineExc) : s'.phase ≠ .thrown e := by
  unfold next at h
  split at h
  · rename_i hphase
    have hvalid := destination_iff.mp (hs.destination (by rw [hphase]; rfl))
    rw [hvalid] at h
    cases h
    simp [goto]
  · cases h
  · rename_i planned hphase
    obtain ⟨inode, fs, hopen⟩ := (hs.usable (by rw [hphase]; rfl)).opens
    rw [hopen] at h
    cases h
    simp [goto]
  · simp only at h
    split at h <;> cases h <;> simp [goto]
  · cases h
    simp [goto]
  · rename_i hphase
    cases h
    exact resume_runs hs hphase e
  · cases h
    exact afterResume_runs e
  · rename_i window hphase
    have hfailure := (hs.window _ _ _ _ hphase).noFailure
    simp only [WindowState.withSink] at hfailure
    rw [hfailure] at h
    split at h
    · rename_i habsurd
      cases habsurd
    · cases h
      simp [goto]
    · cases h
  · rename_i restored hphase
    have hcontent := hs.content
    unfold Content at hcontent
    rw [hphase] at hcontent
    have hplan := hs.planned restored.file.plan (by rw [hphase]; rfl)
    rw [hashed_eq hfits hs hplan hcontent, hplan, if_neg (not_not.mpr hfits.objectId)] at h
    cases h
    simp [goto]
  · cases h
    simp [goto]
  · cases h
    simp [goto]
  · rename_i hphase
    cases h
    exact publish_runs hs hphase e
  · split at h <;> cases h <;> simp [goto]
  · cases h
  · cases h

/-! ### Steps -/

theorem succeeding_afterResume (hcontent : Content ctx (s.afterResume ctx file state))
    (hplan : file.plan = plan) (hdestination : Destination ctx s.files.fs)
    (hhashed : s.files.hashed <+: source) :
    Succeeding ctx plan source (s.afterResume ctx file state) := by
  refine ⟨hcontent, fun received h => ?_, fun _ => ?_, fun h => ?_, ?_,
    fun other state' remaining window h => ?_, fun h => ?_, afterResume_runs⟩
  · rw [plan?_afterResume] at h
    rw [← Option.some.inj h, hplan]
  · rwa [files_afterResume]
  · unfold afterResume at h
    split at h <;> cases h
  · rwa [files_afterResume]
  · rw [files_afterResume]
    unfold afterResume at h
    split at h
    · cases h
      exact smooth_initial hhashed
    · cases h
  · unfold afterResume at h
    split at h <;> cases h

theorem succeeding_published {fs : FileSystem String} {phase : Phase}
    (hs : Succeeding ctx plan source s) (hcontent : Content ctx ((s.withFs fs).goto phase))
    (hplan : ∀ received, phase.plan? = some received → s.phase.plan? = some received)
    (hafter : phase.beforePublication = false)
    (hlookup : fs.lookup ctx.request.destinationPath = some (.file source)) :
    Succeeding ctx plan source ((s.withFs fs).goto phase) where
  content := hcontent
  planned received h := hs.planned received (hplan received h)
  destination h := by
    rw [show ((s.withFs fs).goto phase).phase.beforePublication = false from hafter] at h
    cases h
  usable h := by cases phase <;> cases h <;> cases hafter
  hashed := hs.hashed
  window _ _ _ _ h := by
    simp only [goto] at h
    rw [h] at hafter
    cases hafter
  published _ := hlookup
  runs _ h := by
    simp only [goto] at h
    rw [h] at hafter
    cases hafter

theorem succeeding_next (hfits : PlanFor ctx plan source) (hs : Succeeding ctx plan source s)
    (h : s.next ctx = some s') : Succeeding ctx plan source s' := by
  have hruns := next_runs hfits hs h
  have hmoves := moves_of_next h
  have hcontent' := content_moves hmoves hs.content
  have hcontent := hs.content
  unfold Content at hcontent
  cases hmoves with
  | throws => exact absurd rfl (hruns _)
  | plans hphase => simp [next, hphase] at h
  | mismatches hphase =>
      exact hs.phase rfl hcontent' (fun received hreceived => by rw [hphase]; exact hreceived)
        (by rw [hphase]; rfl) (fun hreads => (by cases hreads))
        (fun _ _ _ _ hwindow => (by cases hwindow)) hruns
  | validates hphase | oversized hphase | sized hphase | joins hphase | verifies hphase
  | flushes hphase | closes hphase =>
      refine hs.phase rfl hcontent' (fun received hreceived => ?_) ?_ (fun hreads => ?_)
        (fun _ _ _ _ hwindow => ?_) hruns
      · rw [hphase]
        exact hreceived
      · rw [hphase]
        rfl
      · rw [hphase]
        exact hreads
      · cases hwindow
  | keeps hphase =>
      have hpublished := hs.published (by rw [hphase]; rfl)
      have hsame : Succeeding ctx plan source ((s.withFs s.files.fs).goto (.published _)) :=
        succeeding_published hs hcontent' (fun received hreceived => by rw [hphase]; exact hreceived)
          rfl hpublished
      exact hsame
  | opens hphase hopen =>
      have hdestination := hs.destination (by rw [hphase]; rfl)
      have husable := hs.usable (by rw [hphase]; rfl)
      exact ⟨hcontent', fun received hreceived => hs.planned received (by rw [hphase]; exact hreceived),
        fun _ => hdestination.openFile hopen, fun _ => husable.openFile hopen, hs.hashed,
        fun _ _ _ _ hwindow => (by cases hwindow), fun hafter => (by cases hafter), hruns⟩
  | empties hphase =>
      rw [hphase] at hcontent
      obtain ⟨-, content, hholds⟩ := hcontent
      have hdestination := hs.destination (by rw [hphase]; rfl)
      have hempty := (hholds.modify (resize 0)).lookup
      rw [resize_of_le (Nat.zero_le _), List.take_zero] at hempty
      exact ⟨hcontent', fun received hreceived => hs.planned received (by rw [hphase]; exact hreceived),
        fun _ => hdestination.modify _ _, fun _ => usable_empty hempty, hs.hashed,
        fun _ _ _ _ hwindow => (by cases hwindow), fun hafter => (by cases hafter), hruns⟩
  | reuses hphase hchunk hlength hid =>
      rename_i file partialSize state chunk
      have hplan := hs.planned file.plan (by rw [hphase]; rfl)
      rw [hphase] at hcontent
      obtain ⟨rest, ⟨hholds, hassembled, -⟩, -⟩ := hcontent
      obtain ⟨content, hnode, htells⟩ := hs.usable (by rw [hphase]; rfl) _ hholds.lookup
      obtain rfl := Node.file.inj hnode
      have hmem : chunk ∈ layoutChunks plan := hplan ▸ List.mem_of_getElem? hchunk
      rw [partialBytes, hholds.contents] at hlength hid
      have hpiece := htells chunk hmem hlength hid
      have hgrown := prefix_readAt hs.hashed (hassembled.offset hchunk) chunk.size
      rw [← hpiece, ← hholds.contents] at hgrown
      exact ⟨hcontent', fun received hreceived => hs.planned received (by rw [hphase]; exact hreceived),
        fun _ => hs.destination (by rw [hphase]; rfl), fun _ => hs.usable (by rw [hphase]; rfl),
        hgrown, fun _ _ _ _ hwindow => (by cases hwindow), fun hafter => (by cases hafter), hruns⟩
  | resumes hphase =>
      exact succeeding_afterResume hcontent' (hs.planned _ (by rw [hphase]; rfl))
        (hs.destination (by rw [hphase]; rfl)) hs.hashed
  | cuts hphase =>
      have hdestination := hs.destination (by rw [hphase]; rfl)
      exact succeeding_afterResume hcontent' (hs.planned _ (by rw [hphase]; rfl))
        (hdestination.modify _ _) hs.hashed
  | renames hphase hmode hrename =>
      rw [hphase] at hcontent
      have hsource := hashed_eq hfits hs (hs.planned _ (by rw [hphase]; rfl)) hcontent.1
      refine succeeding_published hs hcontent'
        (fun received hreceived => by rw [hphase]; exact hreceived) rfl ?_
      rw [FileSystem.lookup_rename (partialPath_ne _).symm hrename, hcontent.1.1.lookup, hsource]
  | links hphase hmode hlink =>
      rw [hphase] at hcontent
      have hsource := hashed_eq hfits hs (hs.planned _ (by rw [hphase]; rfl)) hcontent.1
      refine succeeding_published hs hcontent'
        (fun received hreceived => by rw [hphase]; exact hreceived) rfl ?_
      rw [(FileSystem.link_spec hlink).2.2.1, hcontent.1.1.lookup, hsource]
  | unlinks hphase =>
      have hpublished := hs.published (by rw [hphase]; rfl)
      refine succeeding_published hs hcontent'
        (fun received hreceived => by rw [hphase]; exact hreceived) rfl ?_
      rw [FileSystem.lookup_remove_of_ne (partialPath_ne _).symm, hpublished]

theorem succeeding_metadata (hfits : PlanFor ctx plan source) (hs : Succeeding ctx plan source s)
    (h : step ctx s (.metadata (.ok plan)) = some s') : Succeeding ctx plan source s' := by
  have hcontent' := content_moves (moves_of_step h) hs.content
  simp only [step, receivePlan, hfits.accepted] at h
  split at h
  · rename_i hphase
    cases h
    exact ⟨hcontent', fun received hreceived => (Option.some.inj hreceived).symm,
      fun _ => hs.destination (by rw [hphase]; rfl), fun _ => hs.usable (by rw [hphase]; rfl),
      hs.hashed, fun _ _ _ _ hwindow => (by cases hwindow), fun hafter => (by cases hafter),
      fun _ hthrown => (by cases hthrown)⟩
  · cases h

theorem smooth_step {remaining : state.firstDownloadIndex < file.chunks.length}
    {window window' : WindowState Files} {op : WindowOp Answers}
    (hfits : PlanFor ctx file.plan source) (hs : Succeeding ctx file.plan source s)
    (hphase : s.phase = .downloading file state remaining window)
    (hanswered : Answered ctx file.plan source s (.window op))
    (hstep : (window.withSink s.files).step (windowContext ctx file state remaining) op =
      some window') : Smooth file.plan source window' := by
  have hsmooth := hs.window _ _ _ _ hphase
  have hcontent := hs.content
  unfold Content at hcontent
  rw [hphase] at hcontent
  cases op with
  | worker index answers =>
      refine smooth_workerStep hfits (fun chunkIndex hworker => ?_) (fun chunkIndex hworker => ?_)
        hsmooth hstep
      · have hclaimed := hcontent.1.counters.downloading _ _ hworker
        exact hclaimed.trans_le hcontent.1.counters.bounded
      · exact hanswered _ _ _ _ _ hphase hworker
  | writer =>
      refine smooth_writerStep hsmooth (fun i bytes position hwriter => ?_) hstep
      have hloop := hcontent.2.loop
      unfold WindowState.AtWriter at hloop
      rw [hwriter] at hloop
      obtain ⟨-, -, hassembled, hlt, -⟩ := hloop
      exact hassembled.offset (getElem?_chunkAt hlt)
  | pwrite count => exact smooth_pwrite hsmooth hstep
  | throwWriter e => exact absurd hanswered id

theorem succeeding_window {op : WindowOp Answers} (hfits : PlanFor ctx plan source)
    (hs : Succeeding ctx plan source s) (hanswered : Answered ctx plan source s (.window op))
    (h : step ctx s (.window op) = some s') : Succeeding ctx plan source s' := by
  have hcontent' := content_moves (moves_of_step h) hs.content
  simp only [step, stepWindow] at h
  split at h
  · rename_i file state remaining window hphase
    obtain ⟨window', hstep, rfl⟩ := Option.map_eq_some_iff.mp h
    obtain rfl := hs.planned file.plan (by rw [hphase]; rfl)
    have hsmooth := smooth_step hfits hs hphase hanswered hstep
    have hdestination := hs.destination (by rw [hphase]; rfl)
    refine ⟨hcontent', fun received hreceived => (Option.some.inj hreceived).symm, fun _ => ?_,
      fun hreads => (by cases hreads), hsmooth.hashed, fun _ _ _ _ hwindow => ?_,
      fun hafter => (by cases hafter), fun _ hthrown => (by cases hthrown)⟩
    · rcases fs_window hstep with hfs | ⟨-, f, hfs⟩
      · simp only [hfs]
        exact hdestination
      · simp only [hfs]
        exact hdestination.modify _ _
    · cases hwindow
      exact hsmooth
  · cases h

/-! ## Other processes -/

/-- Other processes take nothing away: they remove the destination, and put a file of their own
there only where the call replaces it. -/
def HarmlessStep (ctx : PullContext) (s s' : PullState) : Prop :=
  s' = s ∨ ∃ bytes, (bytes.isSome = true → ctx.request.overwrite = true) ∧
    step ctx s (.others bytes) = some s'

theorem HarmlessStep.others (h : HarmlessStep ctx s s') : OthersStep ctx s s' := by
  rcases h with rfl | ⟨bytes, -, hstep⟩
  · exact .inl rfl
  · exact .inr ⟨bytes, hstep⟩

theorem Succeeding.withFs {fs : FileSystem String} {left : Option Node}
    (hs : Succeeding ctx plan source s) (hbefore : s.phase.beforePublication = true)
    (hcontent : Content ctx { s.withFs fs with left := left }) (hdestination : Destination ctx fs)
    (hsame : fs.lookup ctx.request.partialPath = s.files.fs.lookup ctx.request.partialPath) :
    Succeeding ctx plan source { s.withFs fs with left := left } where
  content := hcontent
  planned := hs.planned
  destination _ := hdestination
  usable h := (hs.usable h).change hsame
  hashed := hs.hashed
  window file state remaining window h := by
    obtain ⟨hfailure, hcancelled, hworkers, hwriter, hready, hwriting, hhashed⟩ :=
      hs.window file state remaining window h
    exact ⟨hfailure, hcancelled, hworkers, hwriter, hready, hwriting, hhashed⟩
  published h := by
    rw [show s.phase.beforePublication = false from h] at hbefore
    cases hbefore
  runs := hs.runs

theorem succeeding_others (hs : Succeeding ctx plan source s) (h : HarmlessStep ctx s s') :
    Succeeding ctx plan source s' := by
  have hcontent' := content_others h.others hs.content
  rcases h with rfl | ⟨bytes, hmode, hstep⟩
  · exact hs
  · simp only [step, othersWrite] at hstep
    split at hstep
    · rename_i hbefore
      have hdestination := hs.destination hbefore
      cases bytes with
      | some bytes =>
          cases hstep
          exact hs.withFs hbefore hcontent' (hdestination.create (hmode rfl) bytes)
            (FileSystem.lookup_create_of_ne (partialPath_ne _) bytes)
      | none =>
          cases hstep
          exact hs.withFs hbefore hcontent' hdestination.remove
            (FileSystem.lookup_remove_of_ne (partialPath_ne _))
    · cases hstep

/-! ## The call returns the object -/

def AnsweredStep (ctx : PullContext) (plan : MultiNodeRestorePlan) (source : List UInt8)
    (s s' : PullState) : Prop :=
  ∃ op, Answered ctx plan source s op ∧ step ctx s op = some s'

theorem AnsweredStep.own (h : AnsweredStep ctx plan source s s') : OwnStep ctx s s' := by
  obtain ⟨op, hanswered, hstep⟩ := h
  refine ⟨op, ?_, hstep⟩
  cases op with
  | others => exact absurd hanswered id
  | _ => rfl

theorem answered_lowers :
    Lowers (toDo ctx) (AnsweredStep ctx plan source) (HarmlessStep ctx) where
  own s s' h := pull_lowers.own s s' h.own
  others _ _ h := toDo_others h.others

theorem succeeding_step (hfits : PlanFor ctx plan source) (hs : Succeeding ctx plan source s)
    (h : AnsweredStep ctx plan source s s') : Succeeding ctx plan source s' := by
  obtain ⟨op, hanswered, hstep⟩ := h
  cases op with
  | next => exact succeeding_next hfits hs hstep
  | metadata response =>
      obtain rfl : response = .ok plan := hanswered
      exact succeeding_metadata hfits hs hstep
  | window op => exact succeeding_window hfits hs hanswered hstep
  | fails e => exact absurd hanswered id
  | others bytes => exact absurd hanswered id

theorem answered_of_window {remaining : state.firstDownloadIndex < file.chunks.length}
    {window window' : WindowState Files} {op : WindowOp Answers}
    (hfits : PlanFor ctx file.plan source)
    (hphase : s.phase = .downloading file state remaining window)
    (hwindow : WindowState.Invariant (windowContext ctx file state remaining)
      (window.withSink s.files))
    (hstep : (window.withSink s.files).step (windowContext ctx file state remaining) op =
      some window') : ∃ s', AnsweredStep ctx file.plan source s s' := by
  have hmake : ∀ op, Answered ctx file.plan source s (.window op) →
      ((window.withSink s.files).step (windowContext ctx file state remaining) op).isSome = true →
        ∃ s', AnsweredStep ctx file.plan source s s' := by
    intro op hanswered hsome
    obtain ⟨next, hnext⟩ := Option.isSome_iff_exists.mp hsome
    exact ⟨_, .window op, hanswered, by simp only [step, stepWindow, hphase, hnext]; rfl⟩
  cases op with
  | writer => exact hmake .writer trivial (Option.isSome_of_eq_some hstep)
  | pwrite count => exact hmake (.pwrite count) trivial (Option.isSome_of_eq_some hstep)
  | throwWriter e =>
      simp only [WindowState.step, WindowState.throwWriter] at hstep
      split at hstep
      · rename_i hwriter
        exact hmake .writer trivial (by simp [WindowState.step, WindowState.writerStep, hwriter])
      · rename_i hwriter
        split at hstep
        · rename_i hlt
          exact hmake (.pwrite 1) trivial
            (by simp [WindowState.step, WindowState.pwrite, hwriter, Nat.succ_le_of_lt hlt])
        · cases hstep
      · cases hstep
  | worker index answers =>
      cases hworker : window.workers index with
      | downloading chunkIndex =>
          have hclaimed := hwindow.counters.downloading _ _ hworker
          have hserved := served_content hfits (hclaimed.trans_le hwindow.counters.bounded)
          refine hmake (.worker index fun _ => .ok (.content (pieceAt file.plan source chunkIndex)))
            (fun _ _ _ _ i hphase' hworker' => ?_) ?_
          · cases hphase.symm.trans hphase'
            cases hworker.symm.trans hworker'
            exact hserved
          · simp only [WindowState.step, WindowState.workerStep, WindowState.withSink, hworker]
            split <;> rfl
      | _ =>
          refine hmake (.worker index answers) (fun _ _ _ _ i hphase' hworker' => ?_)
            (Option.isSome_of_eq_some hstep)
          cases hphase.symm.trans hphase'
          cases hworker.symm.trans hworker'

theorem answered_enabled (hfits : PlanFor ctx plan source) (hs : Succeeding ctx plan source s)
    (hopen : ¬Returned ctx s) : ∃ s', AnsweredStep ctx plan source s s' := by
  cases hphase : s.phase with
  | planning =>
      refine ⟨s.goto (.opening plan), .metadata (.ok plan), rfl, ?_⟩
      simp only [step, receivePlan, hphase, hfits.accepted]
  | downloading file state remaining window =>
      have hcontent := hs.content
      unfold Content at hcontent
      rw [hphase] at hcontent
      obtain rfl := hs.planned file.plan (by rw [hphase]; rfl)
      by_cases hjoined : window.writer = .joined
      · refine ⟨_, .next, trivial, Option.eq_some_of_isSome ?_⟩
        simp only [step, next, hphase, hjoined]
        cases window.shared.firstFailure <;> rfl
      · obtain ⟨op, window', hstep⟩ := hcontent.1.enabled hjoined
        exact answered_of_window hfits hphase hcontent.1 hstep
  | _ =>
      have hnext : (s.next ctx).isSome = true :=
        next_isSome (by simp [hphase]) (by simp [hphase]) hopen
      exact ⟨_, .next, trivial, Option.eq_some_of_isSome hnext⟩

theorem ok_of_succeeding {result : Except EngineExc PullResult}
    (hs : Succeeding ctx plan source s) (hreturned : s.returned ctx = some result) :
    (∃ pulled, result = .ok pulled) ∧
      s.files.fs.lookup ctx.request.destinationPath = some (.file source) := by
  cases hphase : s.phase with
  | published restored =>
      rw [returned, hphase] at hreturned
      exact ⟨⟨_, (Option.some.inj hreturned).symm⟩, hs.published (by rw [hphase]; rfl)⟩
  | thrown e => exact absurd hphase (hs.runs e)
  | _ => simp [returned, hphase] at hreturned

end

/-- While the metadata service answers with the plan of an object, nodes of the pool serve its
chunks, no call of the file system fails and nobody takes the destination away, a pull can only
return with the object at its destination, and in every fair run it does. -/
theorem pull_succeeds {ctx : PullContext} {fs : FileSystem String} {plan : MultiNodeRestorePlan}
    {source : List UInt8} (hfits : PlanFor ctx plan source)
    (hdestination : validateDestination fs ctx.request = .ok ())
    (husable : Usable ctx plan source fs) :
    (∀ s result, ReflTransGen (fun s s' => AnsweredStep ctx plan source s s' ∨
        HarmlessStep ctx s s') (initial ctx fs) s → s.returned ctx = some result →
      (∃ pulled, result = .ok pulled) ∧
        s.files.fs.lookup ctx.request.destinationPath = some (.file source)) ∧
    ∀ run, run 0 = initial ctx fs →
      EndlessRun (AnsweredStep ctx plan source) (HarmlessStep ctx) run →
      Fair (AnsweredStep ctx plan source) run →
      ∃ n pulled, (run n).returned ctx = some (.ok pulled) ∧
        (run n).files.fs.lookup ctx.request.destinationPath = some (.file source) := by
  have hstart : Succeeding ctx plan source (initial ctx fs) :=
    succeeding_initial (destination_iff.mpr hdestination) husable
  have hown : ∀ s s', AnsweredStep ctx plan source s s' → Succeeding ctx plan source s →
      Succeeding ctx plan source s' := fun _ _ h hs => succeeding_step hfits hs h
  have hothers : ∀ s s', HarmlessStep ctx s s' → Succeeding ctx plan source s →
      Succeeding ctx plan source s' := fun _ _ h hs => succeeding_others hs h
  refine ⟨fun s result hrun hreturned => ?_, fun run hzero hrun hfair => ?_⟩
  · have hs := invariant_of_step (P := Succeeding ctx plan source)
      (fun _ _ hstep => hstep.elim (hown _ _) (hothers _ _)) hrun hstart
    exact ok_of_succeeding hs hreturned
  · have hs := hrun.invariant hown hothers (hzero ▸ hstart)
    obtain ⟨n, result, hreturned⟩ :=
      answered_lowers.fair_reaches hrun hfair fun n => answered_enabled hfits (hs n)
    obtain ⟨⟨pulled, rfl⟩, hlookup⟩ := ok_of_succeeding (hs n) hreturned
    exact ⟨n, pulled, hreturned, hlookup⟩

/-! ## The sample call -/

namespace Sample

def object : List UInt8 := asciiBytes ['a']

theorem planFor : PlanFor (context false) plan object where
  accepted := eq_ok_of_toOption (by decide +kernel)
  describes := ⟨[object], .cons (by decide +kernel) .nil, rfl⟩
  objectId := by decide +kernel
  sources := by decide
  pooled := by decide

theorem usable_leftover : Usable (context false) plan object leftover := by
  intro node hnode
  obtain rfl := Option.some.inj (hnode.symm.trans (FileSystem.lookup_create _))
  refine ⟨_, rfl, fun chunk hchunk _ hid => ?_⟩
  obtain rfl : chunk = ⟨Metadata.Sample.chunkId, 0, 1⟩ := List.mem_singleton.mp hchunk
  exact absurd hid (by decide +kernel)

end Sample

theorem pull_succeeds_sample :
    (∀ s result, ReflTransGen (fun s s' =>
        AnsweredStep (Sample.context false) Sample.plan Sample.object s s' ∨
          HarmlessStep (Sample.context false) s s')
        (initial (Sample.context false) Sample.leftover) s →
      s.returned (Sample.context false) = some result →
      (∃ pulled, result = .ok pulled) ∧
        s.files.fs.lookup "/out/a" = some (.file Sample.object)) ∧
    ∀ run, run 0 = initial (Sample.context false) Sample.leftover →
      EndlessRun (AnsweredStep (Sample.context false) Sample.plan Sample.object)
        (HarmlessStep (Sample.context false)) run →
      Fair (AnsweredStep (Sample.context false) Sample.plan Sample.object) run →
      ∃ n pulled, (run n).returned (Sample.context false) = some (.ok pulled) ∧
        (run n).files.fs.lookup "/out/a" = some (.file Sample.object) :=
  pull_succeeds Sample.planFor (eq_ok_of_toOption (by decide +kernel)) Sample.usable_leftover

end PullState

end AiArtifactStore.Pull
