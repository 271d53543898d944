import AiArtifactStore.Metadata.Histories
import AiArtifactStore.Metadata.LayoutArithmetic
import AiArtifactStore.Pull.Engine

/-!
# A published file is the object

The partial file and the object hasher agree at every step, from any partial file
that an earlier call left, so what is published is the concatenation of the chunks.
-/

namespace AiArtifactStore.Pull

open AiArtifactStore.Client
open AiArtifactStore.Foundation
open AiArtifactStore.Identity
open AiArtifactStore.Metadata
open AiArtifactStore.Storage
open Relation

variable {env : Environment}

/-! ## Contents made of chunks -/

/-- The content is one piece for each chunk, which hashes to the chunk's id and has its size. -/
def Assembled (env : Environment) (chunks : List ChunkRef) (content : List UInt8) : Prop :=
  ∃ pieces : List (List UInt8),
    List.Forall₂ (fun chunk piece => env.contentId piece = chunk.chunkId ∧
      piece.length = chunk.size) chunks pieces ∧
    pieces.flatten = content

theorem assembled_nil : Assembled env [] [] := ⟨[], .nil, rfl⟩

theorem Assembled.concat {chunks : List ChunkRef} {content piece : List UInt8} {chunk : ChunkRef}
    (h : Assembled env chunks content) (hid : env.contentId piece = chunk.chunkId)
    (hsize : piece.length = chunk.size) :
    Assembled env (chunks ++ [chunk]) (content ++ piece) := by
  obtain ⟨pieces, hpieces, rfl⟩ := h
  exact ⟨pieces ++ [piece], List.rel_append hpieces (.cons ⟨hid, hsize⟩ .nil), by simp⟩

theorem Assembled.length {chunks : List ChunkRef} {content : List UInt8}
    (h : Assembled env chunks content) : content.length = (chunks.map ChunkRef.size).sum := by
  obtain ⟨pieces, hpieces, rfl⟩ := h
  induction hpieces with
  | nil => rfl
  | cons hpiece _ ih => simp [hpiece.2, ih]

/-! ## A fetched chunk -/

def Fetched (env : Environment) (plan : MultiNodeRestorePlan) (index : Nat) (bytes : List UInt8) :
    Prop :=
  env.contentId bytes = (chunkAt plan index).chunkId ∧ bytes.length = (chunkAt plan index).size

theorem contentId_of_fetchChunk {ctx : PullContext} {chunkId : ContentId} {answers : Answers}
    {position : Nat} {sources : List NodeEndpoint} {bytes : List UInt8}
    (h : fetchChunk ctx chunkId answers position sources = .ok (some bytes)) :
    ctx.env.contentId bytes = chunkId := by
  induction sources generalizing position with
  | nil => cases h
  | cons source sources ih =>
      simp only [fetchChunk] at h
      split at h
      · rename_i fetched hattempt
        obtain rfl := Option.some.inj (Except.ok.inj h)
        simp only [bind_eq_ok, exists_unit] at hattempt
        exact StorageNodeClient.contentId_of_getChunk hattempt.2
      · exact ih h
      · split at h
        · exact ih h
        · cases h

theorem fetched_of_downloadChunk {ctx : PullContext} {plan : MultiNodeRestorePlan} {index : Nat}
    {answers : Answers} {bytes : List UInt8}
    (h : downloadChunk ctx plan index answers = .ok bytes) : Fetched ctx.env plan index bytes := by
  simp only [downloadChunk, bind_eq_ok, exists_unit, orFail_eq_ok, failIf_eq_ok,
    Decidable.not_not] at h
  obtain ⟨downloaded, hfetch, fetched, rfl, hsize, hbytes⟩ := h
  obtain rfl := Except.ok.inj hbytes
  exact ⟨contentId_of_fetchChunk hfetch, hsize⟩

/-! ## The partial file -/

theorem partialPath_ne (request : PullRequest) : request.partialPath ≠ request.destinationPath := by
  intro h
  have hlength := congrArg (fun path => path.toList.length) h
  simp [PullRequest.partialPath] at hlength

/-- The partial path names the file that the descriptor is open on. -/
def Holds (ctx : PullContext) (fs : FileSystem String) (file : PartialFile)
    (content : List UInt8) : Prop :=
  fs.entries ctx.request.partialPath = some file.inode ∧ fs.nodes file.inode = .file content

theorem Holds.contents {ctx : PullContext} {fs : FileSystem String} {file : PartialFile}
    {content : List UInt8} (h : Holds ctx fs file content) : fs.contents file.inode = content := by
  simp only [FileSystem.contents, h.2]

theorem Holds.lookup {ctx : PullContext} {fs : FileSystem String} {file : PartialFile}
    {content : List UInt8} (h : Holds ctx fs file content) :
    fs.lookup ctx.request.partialPath = some (.file content) := by
  rw [FileSystem.lookup_eq_some h.1, h.2]

theorem Holds.modify {ctx : PullContext} {fs : FileSystem String} {file : PartialFile}
    {content : List UInt8} (h : Holds ctx fs file content) (f : List UInt8 → List UInt8) :
    Holds ctx (fs.modify file.inode f) file (f content) :=
  ⟨h.1, FileSystem.nodes_modify h.2 f⟩

theorem Holds.create {ctx : PullContext} {fs : FileSystem String} {file : PartialFile}
    {content : List UInt8} (h : Holds ctx fs file content) (bytes : List UInt8) :
    Holds ctx (fs.create ctx.request.destinationPath bytes) file content :=
  ⟨(FileSystem.entries_create_of_ne (partialPath_ne _) bytes).trans h.1,
    (FileSystem.nodes_create_of_lt (fs.fresh _ _ h.1) bytes).trans h.2⟩

theorem Holds.remove {ctx : PullContext} {fs : FileSystem String} {file : PartialFile}
    {content : List UInt8} (h : Holds ctx fs file content) :
    Holds ctx (fs.remove ctx.request.destinationPath) file content :=
  ⟨(Function.update_of_ne (partialPath_ne _) ..).trans h.1, h.2⟩

theorem chunks_take_succ {file : PartialFile} {index : Nat} {chunk : ChunkRef}
    (h : file.chunks[index]? = some chunk) :
    file.chunks.take (index + 1) = file.chunks.take index ++ [chunk] := by
  rw [List.take_add_one, h, Option.toList_some]

theorem getElem?_chunkAt {file : PartialFile} {index : Nat} (h : index < file.chunks.length) :
    file.chunks[index]? = some (chunkAt file.plan index) := by
  rw [chunkAt, List.getD_eq_getElem?_getD, ← PartialFile.chunks, List.getElem?_eq_getElem h,
    Option.getD_some]

theorem Assembled.offset {file : PartialFile} {index : Nat} {chunk : ChunkRef}
    {content : List UInt8} (h : Assembled env (file.chunks.take index) content)
    (hchunk : file.chunks[index]? = some chunk) : chunk.offset = content.length := by
  rw [h.length, file.plan.layoutDescriptor.layout.contiguous _ _ hchunk, Nat.zero_add]
  rfl

theorem Assembled.totalSize {file : PartialFile} {content : List UInt8}
    (h : Assembled env file.chunks content) :
    content.length = file.plan.layoutDescriptor.object.totalSize := by
  rw [h.length, file.plan.layoutDescriptor.sizeMatches, ObjectLayout.totalSize_eq_sum]
  rfl

/-! ## The writer's loop -/

/-- Before a chunk the file holds what is hashed, the chunks before it.  While a chunk is written
it holds a prefix of that chunk as well. -/
def contentSpec (ctx : PullContext) (file : PartialFile) : LoopSpec Files where
  Fetched := Fetched ctx.env file.plan
  Before index files :=
    Holds ctx files.fs file files.hashed ∧
      Assembled ctx.env (file.chunks.take index) files.hashed
  During index bytes position files :=
    Holds ctx files.fs file (files.hashed ++ bytes.take position) ∧
      Assembled ctx.env (file.chunks.take index) files.hashed ∧
      index < file.chunks.length ∧ Fetched ctx.env file.plan index bytes

theorem contentSpec_holds (ctx : PullContext) (file : PartialFile) (state : ResumeState)
    (remaining : state.firstDownloadIndex < file.chunks.length) :
    (contentSpec ctx file).Holds (windowContext ctx file state remaining) where
  fetched _ _ _ _ h := fetched_of_downloadChunk h
  enter index bytes files hlt hfetched hbefore :=
    ⟨by simpa using hbefore.1, hbefore.2, hlt, hfetched⟩
  pwrite index bytes position count files hle hduring := by
    obtain ⟨hholds, hassembled, hlt, hfetched⟩ := hduring
    have hoffset := hassembled.offset (getElem?_chunkAt hlt)
    have hend : (chunkAt file.plan index).offset + position =
        (files.hashed ++ bytes.take position).length := by
      rw [hoffset, List.length_append, List.length_take, Nat.min_eq_left (by omega)]
    refine ⟨?_, hassembled, hlt, hfetched⟩
    have hwritten := hholds.modify
      (writeAt ((chunkAt file.plan index).offset + position) ((bytes.drop position).take count))
    rw [writeAt_end hend, List.append_assoc, ← List.take_add] at hwritten
    exact hwritten
  complete index bytes files hlt hduring := by
    obtain ⟨hholds, hassembled, -, hid, hsize⟩ := hduring
    rw [List.take_length] at hholds
    refine ⟨hholds, ?_⟩
    rw [chunks_take_succ (getElem?_chunkAt hlt)]
    exact hassembled.concat hid hsize

/-! ## The invariant of a call -/

/-- A prefix of the chunks is verified and hashed, and the file holds it and perhaps more. -/
def Resumable (ctx : PullContext) (file : PartialFile) (state : ResumeState) (files : Files)
    (rest : List UInt8) : Prop :=
  Holds ctx files.fs file (files.hashed ++ rest) ∧
    Assembled ctx.env (file.chunks.take state.firstDownloadIndex) files.hashed ∧
    state.firstDownloadIndex ≤ file.chunks.length

def Whole (ctx : PullContext) (restored : Restored) (files : Files) : Prop :=
  Holds ctx files.fs restored.file files.hashed ∧
    Assembled ctx.env restored.file.chunks files.hashed

def Complete (env : Environment) (plan : MultiNodeRestorePlan) (content : List UInt8) : Prop :=
  Assembled env (layoutChunks plan) content ∧
    content.length = plan.layoutDescriptor.object.totalSize ∧
    env.contentId content = plan.layoutDescriptor.objectId

namespace PullState

def Content (ctx : PullContext) (s : PullState) : Prop :=
  match s.phase with
  | .validating => s.files.hashed = []
  | .planning => s.files.hashed = []
  | .opening _ => s.files.hashed = []
  | .sizing file => s.files.hashed = [] ∧ ∃ content, Holds ctx s.files.fs file content
  | .emptying file => s.files.hashed = [] ∧ ∃ content, Holds ctx s.files.fs file content
  | .resuming file partialSize state =>
      ∃ rest, Resumable ctx file state s.files rest ∧
        partialSize = (s.files.hashed ++ rest).length ∧
        partialSize ≤ file.plan.layoutDescriptor.object.totalSize
  | .cutting file length state =>
      ∃ rest, Resumable ctx file state s.files rest ∧ length = s.files.hashed.length
  | .downloading file state remaining window =>
      WindowState.Invariant (windowContext ctx file state remaining) (window.withSink s.files) ∧
        WindowState.Loaded (contentSpec ctx file) (windowContext ctx file state remaining)
          (window.withSink s.files)
  | .verifying restored => Whole ctx restored s.files
  | .flushing restored | .closing restored | .publishing restored =>
      Whole ctx restored s.files ∧
        ctx.env.contentId s.files.hashed = restored.file.plan.layoutDescriptor.objectId
  | .unlinking restored | .published restored =>
      ∃ content, s.files.fs.lookup ctx.request.destinationPath = some (.file content) ∧
        Complete ctx.env restored.file.plan content
  | .thrown _ => True

variable {ctx : PullContext} {s s' : PullState} {op : PullOp}

theorem content_initial (fs : FileSystem String) : Content ctx (initial ctx fs) := rfl

/-- The call goes on from a file that holds exactly the verified chunks. -/
theorem content_afterResume {file : PartialFile} {state : ResumeState}
    (h : Resumable ctx file state s.files []) : Content ctx (s.afterResume ctx file state) := by
  obtain ⟨hholds, hassembled, hle⟩ := h
  rw [List.append_nil] at hholds
  unfold afterResume
  split
  · exact ⟨WindowState.invariant_initial _, WindowState.loaded_initial ⟨hholds, hassembled⟩⟩
  · rename_i hall
    refine ⟨hholds, ?_⟩
    rwa [List.take_of_length_le (Nat.le_of_not_lt hall)] at hassembled

theorem content_withFs {fs : FileSystem String} {left : Option Node}
    (hbefore : s.phase.beforePublication = true)
    (hholds : ∀ file content, Holds ctx s.files.fs file content → Holds ctx fs file content)
    (hs : Content ctx s) : Content ctx { s.withFs fs with left := left } := by
  unfold Content at hs ⊢
  simp only [withFs]
  cases hphase : s.phase <;> rw [hphase] at hs hbefore
  case validating | planning | opening => exact hs
  case sizing | emptying =>
      obtain ⟨hloaded, content, h⟩ := hs
      exact ⟨hloaded, content, hholds _ _ h⟩
  case resuming =>
      obtain ⟨rest, ⟨h, hrest⟩, hsize⟩ := hs
      exact ⟨rest, ⟨hholds _ _ h, hrest⟩, hsize⟩
  case cutting =>
      obtain ⟨rest, ⟨h, hrest⟩, hlength⟩ := hs
      exact ⟨rest, ⟨hholds _ _ h, hrest⟩, hlength⟩
  case downloading file state remaining window =>
      refine ⟨hs.1.withSink _, WindowState.Loaded.withSink (s := window.withSink s.files)
        (fun i h => ?_) (fun i bytes position h => ?_) hs.2⟩
      · exact ⟨hholds _ _ h.1, h.2⟩
      · exact ⟨hholds _ _ h.1, h.2⟩
  case verifying => exact ⟨hholds _ _ hs.1, hs.2⟩
  case flushing | closing | publishing => exact ⟨⟨hholds _ _ hs.1.1, hs.1.2⟩, hs.2⟩
  case unlinking | published => cases hbefore
  case thrown => trivial

theorem resumable_reuses {file : PartialFile} {state : ResumeState} {chunk : ChunkRef}
    {rest : List UInt8} (h : Resumable ctx file state s.files rest)
    (hchunk : file.chunks[state.firstDownloadIndex]? = some chunk)
    (hlength : chunk.size ≤ (s.partialBytes file chunk).length)
    (hid : ctx.env.contentId (s.partialBytes file chunk) = chunk.chunkId) :
    Resumable ctx file ⟨state.firstDownloadIndex + 1, state.chunksReusedFromPartial + 1⟩
      { s.files with hashed := s.files.hashed ++ s.partialBytes file chunk }
      (rest.drop chunk.size) ∧
    s.partialBytes file chunk = rest.take chunk.size := by
  obtain ⟨hholds, hassembled, hle⟩ := h
  have hbytes : s.partialBytes file chunk = rest.take chunk.size := by
    rw [partialBytes, hholds.contents, hassembled.offset hchunk, readAt, List.drop_left]
  have hsize : (s.partialBytes file chunk).length = chunk.size :=
    Nat.le_antisymm (by rw [hbytes]; exact List.length_take_le ..) hlength
  refine ⟨⟨?_, ?_, ?_⟩, hbytes⟩
  · rw [hbytes, List.append_assoc, List.take_append_drop]
    exact hholds
  · rw [chunks_take_succ hchunk]
    exact hassembled.concat hid hsize
  · exact (List.getElem?_eq_some_iff.mp hchunk).1

/-- When the loop ends at the size of the file, nothing is left after the verified chunks. -/
theorem rest_eq_nil {file : PartialFile} {state : ResumeState} {rest : List UInt8}
    (h : Resumable ctx file state s.files rest)
    (hle : (s.files.hashed ++ rest).length ≤ file.plan.layoutDescriptor.object.totalSize)
    (hend : ∀ chunk, file.chunks[state.firstDownloadIndex]? = some chunk →
      (s.files.hashed ++ rest).length ≤ chunk.offset) : rest = [] := by
  obtain ⟨-, hassembled, hindex⟩ := h
  rw [List.length_append] at hle hend
  refine List.eq_nil_of_length_eq_zero ?_
  cases hchunk : file.chunks[state.firstDownloadIndex]? with
  | some chunk =>
      have hsize := hend chunk hchunk
      have hoffset := hassembled.offset hchunk
      omega
  | none =>
      rw [List.take_of_length_le (List.getElem?_eq_none_iff.mp hchunk)] at hassembled
      have htotal := hassembled.totalSize
      omega

theorem content_moves (h : Moves ctx s op s') (hs : Content ctx s) : Content ctx s' := by
  unfold Content at hs
  cases h with
  | throws => trivial
  | validates hphase => rw [hphase] at hs; exact hs
  | plans hphase => rw [hphase] at hs; exact hs
  | opens hphase hopen =>
      rw [hphase] at hs
      obtain ⟨hentry, ⟨bytes, hfile⟩, -⟩ := FileSystem.openFile_spec hopen
      exact ⟨hs, bytes, hentry, hfile⟩
  | oversized hphase => rw [hphase] at hs; exact hs
  | sized hphase hsize hle =>
      rw [hphase] at hs
      obtain ⟨hhashed, content, hholds⟩ := hs
      refine ⟨content, ⟨?_, ?_, Nat.zero_le _⟩, ?_, hle⟩
      · simpa [hhashed, goto] using hholds
      · simpa [hhashed, goto] using assembled_nil
      · rw [← hsize, hholds.contents]
        simp [hhashed, goto]
  | empties hphase =>
      rw [hphase] at hs
      obtain ⟨hhashed, content, hholds⟩ := hs
      have hempty := hholds.modify (resize 0)
      refine ⟨[], ⟨?_, ?_, Nat.zero_le _⟩, ?_, Nat.zero_le _⟩
      · simpa [hhashed, goto, withFs, FileSystem.ftruncate, resize] using hempty
      · simpa [hhashed, goto, withFs] using assembled_nil
      · simp [hhashed, goto, withFs]
  | reuses hphase hchunk hlength hid =>
      rw [hphase] at hs
      obtain ⟨rest, hresumable, hsize, hle⟩ := hs
      obtain ⟨hnext, hbytes⟩ := resumable_reuses hresumable hchunk hlength hid
      refine ⟨_, hnext, ?_, hle⟩
      rw [hsize, hbytes, List.append_assoc, List.take_append_drop]
  | mismatches hphase hchunk hlt =>
      rw [hphase] at hs
      obtain ⟨rest, hresumable, -, -⟩ := hs
      exact ⟨rest, hresumable, hresumable.2.1.offset hchunk⟩
  | resumes hphase hend =>
      rw [hphase] at hs
      obtain ⟨rest, hresumable, rfl, hle⟩ := hs
      obtain rfl := rest_eq_nil hresumable hle hend
      exact content_afterResume hresumable
  | cuts hphase =>
      rw [hphase] at hs
      obtain ⟨rest, ⟨hholds, hassembled, hindex⟩, hlength⟩ := hs
      refine content_afterResume ⟨?_, hassembled, hindex⟩
      have hcut := hholds.modify (resize s.files.hashed.length)
      rw [resize_of_le (by simp), List.take_left] at hcut
      rw [List.append_nil, hlength]
      exact hcut
  | window hphase hstep =>
      rw [hphase] at hs
      rename_i file state remaining window window' op
      have hmoves := WindowState.moves_of_step hstep
      exact ⟨hs.1.moves hmoves, hs.2.moves (contentSpec_holds ctx file state remaining) hs.1 hmoves⟩
  | joins hphase hwriter hfailure =>
      rw [hphase] at hs
      rename_i file state remaining window
      have hloop := hs.2.loop
      simp only [WindowState.AtWriter, WindowState.withSink, hwriter] at hloop
      obtain ⟨hholds, hassembled⟩ := hloop hfailure
      have hall : Assembled ctx.env file.chunks s.files.hashed := by
        simpa [windowContext] using hassembled
      exact ⟨hholds, hall⟩
  | verifies hphase hid => rw [hphase] at hs; exact ⟨hs, hid⟩
  | flushes hphase => rw [hphase] at hs; exact hs
  | closes hphase => rw [hphase] at hs; exact hs
  | renames hphase hmode hrename =>
      rw [hphase] at hs
      obtain ⟨⟨hholds, hassembled⟩, hid⟩ := hs
      refine ⟨s.files.hashed, ?_, hassembled, hassembled.totalSize, hid⟩
      exact (FileSystem.lookup_rename (partialPath_ne _).symm hrename).trans hholds.lookup
  | links hphase hmode hlink =>
      rw [hphase] at hs
      obtain ⟨⟨hholds, hassembled⟩, hid⟩ := hs
      refine ⟨s.files.hashed, ?_, hassembled, hassembled.totalSize, hid⟩
      exact (FileSystem.link_spec hlink).2.2.1.trans hholds.lookup
  | unlinks hphase =>
      rw [hphase] at hs
      obtain ⟨content, hlookup, hcomplete⟩ := hs
      refine ⟨content, ?_, hcomplete⟩
      exact (FileSystem.lookup_remove_of_ne (partialPath_ne _).symm).trans hlookup
  | keeps hphase => rw [hphase] at hs; exact hs
  | othersCreate hbefore => exact content_withFs hbefore (fun _ _ h => h.create _) hs
  | othersRemove hbefore => exact content_withFs hbefore (fun _ _ h => h.remove) hs

theorem content_of_runs {fs : FileSystem String} (hrun : Runs ctx (initial ctx fs) s) :
    Content ctx s :=
  hrun.invariant (fun _ _ _ => content_moves) (content_initial fs)

/-! ## What is published -/

theorem plan?_afterResume (file : PartialFile) (state : ResumeState) :
    (s.afterResume ctx file state).phase.plan? = some file.plan := by
  unfold afterResume
  split <;> rfl

def KeepsPlan (plan : MultiNodeRestorePlan) (s : PullState) : Prop :=
  s.phase.plan? = some plan ∨ ∃ e, s.phase = .thrown e

theorem keepsPlan_moves {plan : MultiNodeRestorePlan} (h : Moves ctx s op s')
    (hs : KeepsPlan plan s) : KeepsPlan plan s' := by
  cases h with
  | throws => exact .inr ⟨_, rfl⟩
  | othersCreate | othersRemove => exact hs
  | resumes hphase | cuts hphase =>
      simp only [KeepsPlan, hphase, Phase.plan?, reduceCtorEq, exists_false, or_false] at hs
      exact .inl ((plan?_afterResume _ _).trans hs)
  | validates hphase | plans hphase =>
      simp [KeepsPlan, hphase, Phase.plan?] at hs
  | opens hphase | oversized hphase | sized hphase | empties hphase | reuses hphase
  | mismatches hphase | window hphase | joins hphase | verifies hphase | flushes hphase
  | closes hphase | renames hphase | links hphase | unlinks hphase | keeps hphase =>
      simp only [KeepsPlan, hphase, Phase.plan?, reduceCtorEq, exists_false, or_false] at hs
      exact .inl hs

theorem thrown_moves (h : Moves ctx s op s') (hs : ∃ e, s.phase = .thrown e) :
    ∃ e, s'.phase = .thrown e := by
  obtain ⟨e, he⟩ := hs
  cases h with
  | throws => exact ⟨_, rfl⟩
  | othersCreate | othersRemove => exact ⟨e, he⟩
  | resumes hphase | cuts hphase | validates hphase | plans hphase | opens hphase
  | oversized hphase | sized hphase | empties hphase | reuses hphase | mismatches hphase
  | window hphase | joins hphase | verifies hphase | flushes hphase | closes hphase
  | renames hphase | links hphase | unlinks hphase | keeps hphase =>
      exact absurd (hphase.symm.trans he) (by simp)

theorem plan_of_receivePlan {response : Except EngineExc MultiNodeRestorePlan}
    (h : step ctx s (.metadata response) = some s') :
    (∃ e, s'.phase = .thrown e) ∨ ∃ plan, response = .ok plan ∧ checkPlan plan = .ok () ∧
      s'.phase.plan? = some plan := by
  simp only [step, receivePlan] at h
  split at h
  · split at h
    · rename_i plan haccepted
      obtain rfl := Option.some.inj h
      obtain ⟨hresponse, hcheck⟩ := acceptPlan_eq_ok haccepted
      exact .inr ⟨plan, hresponse, hcheck, rfl⟩
    · obtain rfl := Option.some.inj h
      exact .inl ⟨_, rfl⟩
  · cases h

/-- Whatever the partial file held, whatever the storage nodes answer and however the threads
interleave, a call that publishes has put the object of its plan at the destination. -/
theorem pull_restores (ctx : PullContext) (fs : FileSystem String) (start accepted s : PullState)
    (response : Except EngineExc MultiNodeRestorePlan) (hstart : Runs ctx (initial ctx fs) start)
    (hplan : step ctx start (.metadata response) = some accepted) (hrun : Runs ctx accepted s)
    (hpublished : s.phase.beforePublication = false) :
    ∃ plan content, response = .ok plan ∧ checkPlan plan = .ok () ∧
      s.files.fs.lookup ctx.request.destinationPath = some (.file content) ∧
      Assembled ctx.env (layoutChunks plan) content ∧
      content.length = plan.layoutDescriptor.object.totalSize ∧
      ctx.env.contentId content = plan.layoutDescriptor.objectId ∧
      ∀ result, s.returned ctx = some (.ok result) →
        result.objectId = plan.layoutDescriptor.objectId ∧
          result.stats.bytesRestored = content.length := by
  have hcontent : Content ctx s :=
    content_of_runs ((hstart.tail ⟨_, hplan⟩).trans hrun)
  have hnothrow : ¬∃ e, s.phase = .thrown e := by
    rintro ⟨e, h⟩
    simp [h, Phase.beforePublication] at hpublished
  rcases plan_of_receivePlan hplan with hthrown | ⟨plan, hresponse, hcheck, hopening⟩
  · exact absurd (hrun.invariant (fun _ _ _ => thrown_moves) hthrown) hnothrow
  · have hkeeps : KeepsPlan plan s :=
      hrun.invariant (fun _ _ _ => keepsPlan_moves) (.inl hopening)
    have hkept := hkeeps.resolve_right hnothrow
    unfold Content at hcontent
    cases hphase : s.phase with
    | unlinking restored =>
        rw [hphase] at hcontent hkept
        obtain rfl := Option.some.inj hkept
        obtain ⟨content, hlookup, hassembled, hlength, hid⟩ := hcontent
        refine ⟨_, content, hresponse, hcheck, hlookup, hassembled, hlength, hid,
          fun result hresult => ?_⟩
        simp [returned, hphase] at hresult
    | published restored =>
        rw [hphase] at hcontent hkept
        obtain rfl := Option.some.inj hkept
        obtain ⟨content, hlookup, hassembled, hlength, hid⟩ := hcontent
        refine ⟨_, content, hresponse, hcheck, hlookup, hassembled, hlength, hid,
          fun answer hresult => ?_⟩
        simp only [returned, hphase] at hresult
        obtain rfl := Except.ok.inj (Option.some.inj hresult)
        exact ⟨rfl, hlength.symm⟩
    | _ => simp [hphase, Phase.beforePublication] at hpublished

/-! ## A sample call -/

namespace Sample

def plan : MultiNodeRestorePlan where
  artifactId := Metadata.Sample.uuid 1
  versionId := Metadata.Sample.chunkId
  objectId := Metadata.Sample.descriptor.objectId
  layoutId := Metadata.Sample.chunkId
  layoutDescriptor := Metadata.Sample.descriptor
  chunks := [⟨Metadata.Sample.chunkId, 0, 1, [⟨"n1", "127.0.0.1", 9000⟩]⟩]

def context (overwrite : Bool) : PullContext where
  env := Metadata.Sample.env
  request := ⟨Metadata.Sample.chunkId.hex, "/out/a", overwrite⟩
  pool := ["n1"]

def directories : FileSystem String where
  entries path := if path = "/out" then some 0 else none
  nodes _ := .directory
  next := 1
  fresh := by
    intro path inode h
    split at h
    · exact Option.some.inj h ▸ Nat.one_pos
    · cases h

/-- An earlier call has left three bytes that are not the object's. -/
def leftover : FileSystem String :=
  directories.create (context false).request.partialPath (asciiBytes "xyz".toList)

def answers : Answers := fun _ => .ok (.content (asciiBytes ['a']))

def restoreOps : List PullOp :=
  .next :: .next :: .next :: .next ::
    [.writer, .writer, .writer, .writer, .writer, .worker 0 answers, .worker 0 answers, .writer,
      .pwrite 1, .writer, .writer, .writer, .worker 0 answers, .worker 1 answers,
      .worker 2 answers, .worker 3 answers, .writer].map .window ++
    List.replicate 6 .next

def atPlan : PullState := (initial (context false) leftover).goto .planning

def accepted : PullState := atPlan.goto (.opening plan)

def restored : PullState := afterOps (step (context false)) accepted restoreOps

end Sample

theorem pull_restores_sample :
    ∃ content, Sample.restored.files.fs.lookup "/out/a" = some (.file content) ∧
      content.length = 1 := by
  have hvalid : validateDestination Sample.leftover (Sample.context false).request = .ok () :=
    eq_ok_of_toOption (by decide +kernel)
  have hstart : Runs (Sample.context false) (initial (Sample.context false) Sample.leftover)
      Sample.atPlan := by
    refine .single ⟨.next, ?_⟩
    simp only [step, next, initial, hvalid]
    rfl
  have haccepted : acceptPlan (Sample.context false).request.versionId (.ok Sample.plan) =
      .ok Sample.plan := eq_ok_of_toOption (by decide +kernel)
  have hplan : step (Sample.context false) Sample.atPlan (.metadata (.ok Sample.plan)) =
      some Sample.accepted := by
    simp only [step, receivePlan, Sample.atPlan, goto, haccepted]
    rfl
  have hpublished : Sample.restored.phase.beforePublication = false := by decide +kernel
  obtain ⟨plan, content, hresponse, -, hlookup, -, hlength, -⟩ :=
    pull_restores (Sample.context false) Sample.leftover Sample.atPlan Sample.accepted
      Sample.restored (.ok Sample.plan) hstart hplan (runs_afterOps _ _ _) hpublished
  obtain rfl := Except.ok.inj hresponse
  exact ⟨content, hlookup, hlength⟩

end PullState

end AiArtifactStore.Pull
