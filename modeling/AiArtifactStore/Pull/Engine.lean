import AiArtifactStore.Client.ReplicaClients
import AiArtifactStore.Foundation.FileSystem
import AiArtifactStore.Pull.WindowLoop

/-!
# The pull engine

One call of `PullEngine::pull`, on a file system that other processes share.  A
step is one call of the file system or of a service, or the code between two of
them, so a state of a run is a point at which the process may stop.
-/

namespace AiArtifactStore.Pull

open AiArtifactStore.Client
open AiArtifactStore.Foundation
open AiArtifactStore.Identity
open AiArtifactStore.Metadata
open AiArtifactStore.Storage
open Relation

def kMaxM5ChunkSize : Nat := 8 * 1024 * 1024

structure PullRequest where
  versionId : String
  destinationPath : String
  overwrite : Bool
  deriving DecidableEq, Repr

structure PullStats where
  bytesRestored : Nat
  totalChunks : Nat
  chunksDownloaded : Nat
  chunksReusedFromPartial : Nat
  bytesReceivedFromStorage : Nat
  deriving DecidableEq, Repr

structure PullResult where
  versionId : ContentId
  artifactId : UuidV7
  sourceNodeId : String
  objectId : ContentId
  layoutId : ContentId
  destinationPath : String
  stats : PullStats
  deriving DecidableEq, Repr

structure PullContext where
  env : Environment
  request : PullRequest
  pool : List String

/-! ## Checks before the partial file is opened -/

def parentPath (path : String) : String :=
  let upToSeparator := path.toList.reverse.dropWhile (· != '/')
  let parent := upToSeparator.dropWhile (· == '/')
  if parent = [] ∧ upToSeparator ≠ [] then "/" else String.ofList parent.reverse

def PullRequest.partialPath (request : PullRequest) : String :=
  request.destinationPath ++ ".aistore." ++ request.versionId ++ ".part"

def validateDestination (fs : FileSystem String) (request : PullRequest) : Except EngineExc Unit := do
  failIf (request.destinationPath = "") (.invalidArgument "destination path must not be empty")
  failIf (parentPath request.destinationPath = "")
    (.invalidArgument "destination parent directory must exist")
  failIf (fs.lookup (parentPath request.destinationPath) = none)
    (.invalidArgument "destination parent directory does not exist")
  failIf (fs.lookup (parentPath request.destinationPath) ≠ some .directory)
    (.invalidArgument "destination parent path is not a directory")
  failIf (fs.lookup request.destinationPath = some .directory)
    (.invalidArgument "destination path must not be a directory")
  failIf (fs.lookup request.destinationPath ≠ none ∧ request.overwrite = false)
    (.runtimeError "destination already exists and overwrite is disabled")

def getMultiNodeRestorePlan (versionId : String)
    (response : Except EngineExc MultiNodeRestorePlan) : Except EngineExc MultiNodeRestorePlan := do
  failIf (ContentId.ofHex? versionId = none)
    (.invalidArgument "version_id must be 64 lowercase hex characters")
  let plan ← response
  failIf (plan.versionId.hex ≠ versionId)
    (.remoteProtocol "multi-node restore plan version_id does not match request")
  .ok plan

def layoutChunks (plan : MultiNodeRestorePlan) : List ChunkRef := plan.layoutDescriptor.layout.chunks

def matchesChunk (planned : RestoreChunkSources) (chunk : ChunkRef) : Bool :=
  planned.chunkId = chunk.chunkId && planned.offset = chunk.offset && planned.sizeBytes = chunk.size

def checkPlan (plan : MultiNodeRestorePlan) : Except EngineExc Unit := do
  failIf (∃ chunk ∈ layoutChunks plan, chunk.size > kMaxM5ChunkSize)
    (.invalidArgument "restore plan chunk size exceeds M5 storage limits")
  failIf (plan.chunks.length ≠ (layoutChunks plan).length)
    (.runtimeError "multi-node restore plan chunk count does not match layout")
  failIf (∃ pair ∈ plan.chunks.zip (layoutChunks plan), matchesChunk pair.1 pair.2 = false)
    (.runtimeError "multi-node restore plan chunk metadata does not match layout")

def acceptPlan (versionId : String) (response : Except EngineExc MultiNodeRestorePlan) :
    Except EngineExc MultiNodeRestorePlan := do
  let plan ← getMultiNodeRestorePlan versionId response
  checkPlan plan
  .ok plan

theorem acceptPlan_eq_ok {versionId : String} {response : Except EngineExc MultiNodeRestorePlan}
    {plan : MultiNodeRestorePlan} (h : acceptPlan versionId response = .ok plan) :
    response = .ok plan ∧ checkPlan plan = .ok () := by
  simp only [acceptPlan, getMultiNodeRestorePlan, bind_eq_ok, exists_unit] at h
  obtain ⟨received, ⟨-, answered, hanswered, -, hreceived⟩, hcheck, hplan⟩ := h
  obtain rfl := Except.ok.inj hreceived
  obtain rfl := Except.ok.inj hplan
  exact ⟨hanswered, hcheck⟩

def openError (fs : FileSystem String) (path : String) : EngineExc :=
  if fs.lookup path = some .directory then .runtimeError "failed to open partial restore file"
  else .runtimeError "partial restore path is not a regular file"

def primarySourceNodeId (plan : MultiNodeRestorePlan) : String :=
  match plan.chunks.head? with
  | some chunk => (chunk.sources.head?.map NodeEndpoint.nodeId).getD ""
  | none => ""

/-! ## Downloading one chunk -/

/-- What the storage nodes answer while a chunk is downloaded, by the position of the source. -/
abbrev Answers := Nat → Except EngineExc StorageReply

/-- Caught by `catch (const std::runtime_error&)`. -/
def isRuntimeError : EngineExc → Bool
  | .client (.invalidArgument _) => false
  | .chunker _ => false
  | .domain e => e.isRuntimeError
  | _ => true

def fetchChunk (ctx : PullContext) (chunkId : ContentId) (answers : Answers) (position : Nat) :
    List NodeEndpoint → Except EngineExc (Option (List UInt8))
  | [] => .ok none
  | source :: sources =>
      let attempt : Except EngineExc (Option (List UInt8)) := do
        failIf (source.nodeId ∉ ctx.pool) (.invalidArgument "storage node client not found in pool")
        StorageNodeClient.getChunk ctx.env chunkId (answers position)
      match attempt with
      | .ok (some bytes) => .ok (some bytes)
      | .ok none => fetchChunk ctx chunkId answers (position + 1) sources
      | .error e =>
          if isRuntimeError e then fetchChunk ctx chunkId answers (position + 1) sources
          else .error e

def chunkAt (plan : MultiNodeRestorePlan) (chunkIndex : Nat) : ChunkRef :=
  (layoutChunks plan).getD chunkIndex ⟨⟨0⟩, 0, 0⟩

def sourcesAt (plan : MultiNodeRestorePlan) (chunkIndex : Nat) : List NodeEndpoint :=
  (plan.chunks[chunkIndex]?.map RestoreChunkSources.sources).getD []

/-- The body of `download_worker_loop` outside its critical sections. -/
def downloadChunk (ctx : PullContext) (plan : MultiNodeRestorePlan) (chunkIndex : Nat)
    (answers : Answers) : Except EngineExc (List UInt8) := do
  let chunk := chunkAt plan chunkIndex
  let downloaded ← fetchChunk ctx chunk.chunkId answers 0 (sourcesAt plan chunkIndex)
  let bytes ← orFail downloaded
    (.runtimeError "required chunk missing from all configured source nodes")
  failIf (bytes.length ≠ chunk.size)
    (.runtimeError "downloaded chunk size does not match restore plan")
  .ok bytes

/-! ## State of a call -/

structure Files where
  fs : FileSystem String
  hashed : List UInt8

structure PartialFile where
  plan : MultiNodeRestorePlan
  inode : Nat

def PartialFile.chunks (file : PartialFile) : List ChunkRef := layoutChunks file.plan

structure ResumeState where
  firstDownloadIndex : Nat
  chunksReusedFromPartial : Nat
  deriving DecidableEq, Repr

/-- What `pull` knows when every chunk is in the partial file. -/
structure Restored where
  file : PartialFile
  resume : ResumeState
  chunksDownloaded : Nat
  bytesReceivedFromStorage : Nat

inductive Phase where
  | validating
  | planning
  | opening (plan : MultiNodeRestorePlan)
  | sizing (file : PartialFile)
  | emptying (file : PartialFile)
  | resuming (file : PartialFile) (partialSize : Nat) (state : ResumeState)
  | cutting (file : PartialFile) (length : Nat) (state : ResumeState)
  | downloading (file : PartialFile) (state : ResumeState)
      (remaining : state.firstDownloadIndex < file.chunks.length) (window : WindowState Files)
  | verifying (restored : Restored)
  | flushing (restored : Restored)
  | closing (restored : Restored)
  | publishing (restored : Restored)
  | unlinking (restored : Restored)
  | published (restored : Restored)
  | thrown (e : EngineExc)

def Phase.beforePublication : Phase → Bool
  | .unlinking _ => false
  | .published _ => false
  | _ => true

def Phase.plan? : Phase → Option MultiNodeRestorePlan
  | .validating | .planning | .thrown _ => none
  | .opening plan => some plan
  | .sizing file | .emptying file | .resuming file _ _ | .cutting file _ _
  | .downloading file _ _ _ => some file.plan
  | .verifying restored | .flushing restored | .closing restored | .publishing restored
  | .unlinking restored | .published restored => some restored.file.plan

/-- `left` is what the destination held at the start, or what other processes put there since. -/
structure PullState where
  files : Files
  phase : Phase
  left : Option Node

def windowContext (ctx : PullContext) (file : PartialFile) (state : ResumeState)
    (remaining : state.firstDownloadIndex < file.chunks.length) : WindowContext Answers Files where
  totalChunks := file.chunks.length
  resumeIndex := state.firstDownloadIndex
  resume_lt := remaining
  download := downloadChunk ctx file.plan
  pwrite chunkIndex position data files :=
    { files with
      fs := files.fs.pwrite file.inode ((chunkAt file.plan chunkIndex).offset + position) data }
  update bytes files := { files with hashed := files.hashed ++ bytes }

/-! ## Steps -/

inductive PullOp where
  | next
  | metadata (response : Except EngineExc MultiNodeRestorePlan)
  | window (op : WindowOp Answers)
  | fails (e : EngineExc)
  | others (bytes : Option (List UInt8))

namespace PullState

def goto (s : PullState) (phase : Phase) : PullState := { s with phase := phase }

def withFs (s : PullState) (fs : FileSystem String) : PullState :=
  { s with files := { s.files with fs := fs } }

def afterResume (ctx : PullContext) (s : PullState) (file : PartialFile) (state : ResumeState) :
    PullState :=
  if remaining : state.firstDownloadIndex < file.chunks.length then
    s.goto (.downloading file state remaining
      (WindowState.initial (windowContext ctx file state remaining) s.files))
  else s.goto (.verifying ⟨file, state, 0, 0⟩)

def resume (ctx : PullContext) (s : PullState) (file : PartialFile) (partialSize : Nat)
    (state : ResumeState) : PullState :=
  match file.chunks[state.firstDownloadIndex]? with
  | none => s.afterResume ctx file state
  | some chunk =>
      if chunk.offset + chunk.size ≤ partialSize then
        let bytes := readAt chunk.offset chunk.size (s.files.fs.contents file.inode)
        if bytes.length < chunk.size then
          s.goto (.thrown (.runtimeError "partial restore read ended before expected bytes"))
        else if ctx.env.contentId bytes ≠ chunk.chunkId then
          s.goto (.cutting file chunk.offset state)
        else
          { s with
            files := { s.files with hashed := s.files.hashed ++ bytes }
            phase := .resuming file partialSize
              ⟨state.firstDownloadIndex + 1, state.chunksReusedFromPartial + 1⟩ }
      else if chunk.offset < partialSize then s.goto (.cutting file chunk.offset state)
      else s.afterResume ctx file state

def publish (ctx : PullContext) (s : PullState) (restored : Restored) : PullState :=
  if ctx.request.overwrite then
    match s.files.fs.rename ctx.request.partialPath ctx.request.destinationPath with
    | some fs => (s.withFs fs).goto (.published restored)
    | none => s.goto (.thrown (.runtimeError "failed to publish restored destination"))
  else
    match s.files.fs.link ctx.request.partialPath ctx.request.destinationPath with
    | some fs => (s.withFs fs).goto (.unlinking restored)
    | none => s.goto (.thrown (.runtimeError "failed to publish restored destination"))

/-- The next action of `pull`, when nothing fails that the state does not make fail. -/
def next (ctx : PullContext) (s : PullState) : Option PullState :=
  match s.phase with
  | .validating =>
      match validateDestination s.files.fs ctx.request with
      | .ok () => some (s.goto .planning)
      | .error e => some (s.goto (.thrown e))
  | .planning => none
  | .opening plan =>
      match s.files.fs.openFile ctx.request.partialPath with
      | some (inode, fs) => some ((s.withFs fs).goto (.sizing ⟨plan, inode⟩))
      | none => some (s.goto (.thrown (openError s.files.fs ctx.request.partialPath)))
  | .sizing file =>
      let partialSize := (s.files.fs.contents file.inode).length
      if partialSize > file.plan.layoutDescriptor.object.totalSize then
        some (s.goto (.emptying file))
      else some (s.goto (.resuming file partialSize ⟨0, 0⟩))
  | .emptying file =>
      some ((s.withFs (s.files.fs.ftruncate file.inode 0)).goto (.resuming file 0 ⟨0, 0⟩))
  | .resuming file partialSize state => some (s.resume ctx file partialSize state)
  | .cutting file length state =>
      some ((s.withFs (s.files.fs.ftruncate file.inode length)).afterResume ctx file state)
  | .downloading file state _ window =>
      match window.writer, window.shared.firstFailure with
      | .joined, some e => some (s.goto (.thrown e))
      | .joined, none =>
          some (s.goto (.verifying ⟨file, state, window.shared.chunksDownloaded,
            window.shared.bytesReceivedFromStorage⟩))
      | _, _ => none
  | .verifying restored =>
      if ctx.env.contentId s.files.hashed ≠ restored.file.plan.layoutDescriptor.objectId then
        some (s.goto (.thrown
          (.runtimeError "restored object hash does not match expected object ID")))
      else some (s.goto (.flushing restored))
  | .flushing restored => some (s.goto (.closing restored))
  | .closing restored => some (s.goto (.publishing restored))
  | .publishing restored => some (s.publish ctx restored)
  | .unlinking restored =>
      match s.files.fs.unlink ctx.request.partialPath with
      | some fs => some ((s.withFs fs).goto (.published restored))
      | none => some (s.goto (.published restored))
  | .published _ => none
  | .thrown _ => none

def receivePlan (ctx : PullContext) (s : PullState)
    (response : Except EngineExc MultiNodeRestorePlan) : Option PullState :=
  match s.phase with
  | .planning =>
      match acceptPlan ctx.request.versionId response with
      | .ok plan => some (s.goto (.opening plan))
      | .error e => some (s.goto (.thrown e))
  | _ => none

def stepWindow (ctx : PullContext) (s : PullState) (op : WindowOp Answers) : Option PullState :=
  match s.phase with
  | .downloading file state remaining window =>
      ((window.withSink s.files).step (windowContext ctx file state remaining) op).map fun window =>
        { s with files := window.sink, phase := .downloading file state remaining window }
  | _ => none

/-- An exception outside the window.  A failed `unlink` is ignored. -/
def fail (s : PullState) (e : EngineExc) : Option PullState :=
  match s.phase with
  | .downloading .. => none
  | .unlinking restored => some (s.goto (.published restored))
  | .published _ => none
  | .thrown _ => none
  | _ => some (s.goto (.thrown e))

/-- Until the publication, other processes put a file of their own at the destination, or
remove what is there. -/
def othersWrite (ctx : PullContext) (s : PullState) (bytes : Option (List UInt8)) :
    Option PullState :=
  if s.phase.beforePublication then
    match bytes with
    | some bytes =>
        some { s.withFs (s.files.fs.create ctx.request.destinationPath bytes) with
          left := some (.file bytes) }
    | none => some { s.withFs (s.files.fs.remove ctx.request.destinationPath) with left := none }
  else none

def step (ctx : PullContext) (s : PullState) : PullOp → Option PullState
  | .next => s.next ctx
  | .metadata response => s.receivePlan ctx response
  | .window op => s.stepWindow ctx op
  | .fails e => s.fail e
  | .others bytes => s.othersWrite ctx bytes

def Step (ctx : PullContext) (s s' : PullState) : Prop := ∃ op, step ctx s op = some s'

/-- Every order of the steps of the call and of the other processes. -/
def Runs (ctx : PullContext) : PullState → PullState → Prop := ReflTransGen (Step ctx)

def result (ctx : PullContext) (restored : Restored) : PullResult where
  versionId := restored.file.plan.versionId
  artifactId := restored.file.plan.artifactId
  sourceNodeId := primarySourceNodeId restored.file.plan
  objectId := restored.file.plan.layoutDescriptor.objectId
  layoutId := restored.file.plan.layoutDescriptor.layoutId ctx.env
  destinationPath := ctx.request.destinationPath
  stats :=
    { bytesRestored := restored.file.plan.layoutDescriptor.object.totalSize
      totalChunks := restored.file.chunks.length
      chunksDownloaded := restored.chunksDownloaded
      chunksReusedFromPartial := restored.resume.chunksReusedFromPartial
      bytesReceivedFromStorage := restored.bytesReceivedFromStorage }

def returned (ctx : PullContext) (s : PullState) : Option (Except EngineExc PullResult) :=
  match s.phase with
  | .published restored => some (.ok (result ctx restored))
  | .thrown e => some (.error e)
  | _ => none

def initial (ctx : PullContext) (fs : FileSystem String) : PullState where
  files := ⟨fs, []⟩
  phase := .validating
  left := fs.lookup ctx.request.destinationPath

/-! ## What a step can do -/

def partialBytes (s : PullState) (file : PartialFile) (chunk : ChunkRef) : List UInt8 :=
  readAt chunk.offset chunk.size (s.files.fs.contents file.inode)

inductive Moves (ctx : PullContext) (s : PullState) : PullOp → PullState → Prop
  | throws {op : PullOp} {e : EngineExc} (hphase : s.phase.beforePublication = true) :
      Moves ctx s op (s.goto (.thrown e))
  | validates {op : PullOp} (hphase : s.phase = .validating)
      (hvalid : validateDestination s.files.fs ctx.request = .ok ()) :
      Moves ctx s op (s.goto .planning)
  | plans {op : PullOp} {plan : MultiNodeRestorePlan} (hphase : s.phase = .planning)
      (hplan : checkPlan plan = .ok ()) :
      Moves ctx s op (s.goto (.opening plan))
  | opens {op : PullOp} {plan : MultiNodeRestorePlan} {inode : Nat} {fs : FileSystem String}
      (hphase : s.phase = .opening plan)
      (hopen : s.files.fs.openFile ctx.request.partialPath = some (inode, fs)) :
      Moves ctx s op ((s.withFs fs).goto (.sizing ⟨plan, inode⟩))
  | oversized {op : PullOp} {file : PartialFile} (hphase : s.phase = .sizing file) :
      Moves ctx s op (s.goto (.emptying file))
  | sized {op : PullOp} {file : PartialFile} {partialSize : Nat} (hphase : s.phase = .sizing file)
      (hsize : (s.files.fs.contents file.inode).length = partialSize)
      (hle : partialSize ≤ file.plan.layoutDescriptor.object.totalSize) :
      Moves ctx s op (s.goto (.resuming file partialSize ⟨0, 0⟩))
  | empties {file : PartialFile} (hphase : s.phase = .emptying file) :
      Moves ctx s .next
        ((s.withFs (s.files.fs.ftruncate file.inode 0)).goto (.resuming file 0 ⟨0, 0⟩))
  | reuses {op : PullOp} {file : PartialFile} {partialSize : Nat} {state : ResumeState}
      {chunk : ChunkRef}
      (hphase : s.phase = .resuming file partialSize state)
      (hchunk : file.chunks[state.firstDownloadIndex]? = some chunk)
      (hlength : chunk.size ≤ (s.partialBytes file chunk).length)
      (hid : ctx.env.contentId (s.partialBytes file chunk) = chunk.chunkId) :
      Moves ctx s op { s with
        files := { s.files with hashed := s.files.hashed ++ s.partialBytes file chunk }
        phase := .resuming file partialSize
          ⟨state.firstDownloadIndex + 1, state.chunksReusedFromPartial + 1⟩ }
  | mismatches {op : PullOp} {file : PartialFile} {partialSize : Nat} {state : ResumeState}
      {chunk : ChunkRef}
      (hphase : s.phase = .resuming file partialSize state)
      (hchunk : file.chunks[state.firstDownloadIndex]? = some chunk)
      (hlt : chunk.offset < partialSize) :
      Moves ctx s op (s.goto (.cutting file chunk.offset state))
  | resumes {op : PullOp} {file : PartialFile} {partialSize : Nat} {state : ResumeState}
      (hphase : s.phase = .resuming file partialSize state)
      (hend : ∀ chunk, file.chunks[state.firstDownloadIndex]? = some chunk →
        partialSize ≤ chunk.offset) :
      Moves ctx s op (s.afterResume ctx file state)
  | cuts {file : PartialFile} {length : Nat} {state : ResumeState}
      (hphase : s.phase = .cutting file length state) :
      Moves ctx s .next ((s.withFs (s.files.fs.ftruncate file.inode length)).afterResume ctx file state)
  | window {file : PartialFile} {state : ResumeState}
      {remaining : state.firstDownloadIndex < file.chunks.length}
      {window window' : WindowState Files} {op : WindowOp Answers}
      (hphase : s.phase = .downloading file state remaining window)
      (hstep : (window.withSink s.files).step (windowContext ctx file state remaining) op =
        some window') :
      Moves ctx s (.window op) { s with
        files := window'.sink
        phase := .downloading file state remaining window' }
  | joins {op : PullOp} {file : PartialFile} {state : ResumeState}
      {remaining : state.firstDownloadIndex < file.chunks.length} {window : WindowState Files}
      (hphase : s.phase = .downloading file state remaining window)
      (hwriter : window.writer = .joined) (hfailure : window.shared.firstFailure = none) :
      Moves ctx s op (s.goto (.verifying ⟨file, state, window.shared.chunksDownloaded,
        window.shared.bytesReceivedFromStorage⟩))
  | verifies {op : PullOp} {restored : Restored} (hphase : s.phase = .verifying restored)
      (hid : ctx.env.contentId s.files.hashed = restored.file.plan.layoutDescriptor.objectId) :
      Moves ctx s op (s.goto (.flushing restored))
  | flushes {op : PullOp} {restored : Restored} (hphase : s.phase = .flushing restored) :
      Moves ctx s op (s.goto (.closing restored))
  | closes {op : PullOp} {restored : Restored} (hphase : s.phase = .closing restored) :
      Moves ctx s op (s.goto (.publishing restored))
  | renames {op : PullOp} {restored : Restored} {fs : FileSystem String}
      (hphase : s.phase = .publishing restored) (hmode : ctx.request.overwrite = true)
      (hrename : s.files.fs.rename ctx.request.partialPath ctx.request.destinationPath = some fs) :
      Moves ctx s op ((s.withFs fs).goto (.published restored))
  | links {op : PullOp} {restored : Restored} {fs : FileSystem String}
      (hphase : s.phase = .publishing restored) (hmode : ctx.request.overwrite = false)
      (hlink : s.files.fs.link ctx.request.partialPath ctx.request.destinationPath = some fs) :
      Moves ctx s op ((s.withFs fs).goto (.unlinking restored))
  | unlinks {op : PullOp} {restored : Restored} (hphase : s.phase = .unlinking restored) :
      Moves ctx s op ((s.withFs (s.files.fs.remove ctx.request.partialPath)).goto
        (.published restored))
  | keeps {op : PullOp} {restored : Restored} (hphase : s.phase = .unlinking restored) :
      Moves ctx s op (s.goto (.published restored))
  | othersCreate {bytes : List UInt8} (hphase : s.phase.beforePublication = true) :
      Moves ctx s (.others (some bytes))
        { s.withFs (s.files.fs.create ctx.request.destinationPath bytes) with
        left := some (.file bytes) }
  | othersRemove (hphase : s.phase.beforePublication = true) :
      Moves ctx s (.others none)
        { s.withFs (s.files.fs.remove ctx.request.destinationPath) with left := none }

variable {ctx : PullContext} {s s' : PullState}

theorem moves_of_resume {file : PartialFile} {partialSize : Nat} {state : ResumeState}
    (hphase : s.phase = .resuming file partialSize state) :
    Moves ctx s .next (s.resume ctx file partialSize state) := by
  unfold resume
  split
  · rename_i hchunk
    exact .resumes hphase (by simp [hchunk])
  · rename_i chunk hchunk
    have hpos : 0 < chunk.size := ObjectLayout.size_pos (List.mem_of_getElem? hchunk)
    split
    · rename_i hend
      simp only
      split
      · exact .throws (by simp [hphase, Phase.beforePublication])
      · rename_i hlength
        split
        · exact .mismatches hphase hchunk (by omega)
        · rename_i hid
          exact .reuses hphase hchunk (Nat.le_of_not_lt hlength) (not_not.mp hid)
    · split
      · rename_i hlt
        exact .mismatches hphase hchunk hlt
      · rename_i hle
        refine .resumes hphase fun other hother => ?_
        obtain rfl := Option.some.inj (hchunk.symm.trans hother)
        exact Nat.le_of_not_lt hle

theorem moves_of_publish {restored : Restored} (hphase : s.phase = .publishing restored) :
    Moves ctx s .next (s.publish ctx restored) := by
  have hbefore : s.phase.beforePublication = true := by simp [hphase, Phase.beforePublication]
  unfold publish
  split
  · rename_i hmode
    split
    · rename_i fs hrename
      exact .renames hphase hmode hrename
    · exact .throws hbefore
  · rename_i hmode
    split
    · rename_i fs hlink
      exact .links hphase (Bool.eq_false_iff.mpr hmode) hlink
    · exact .throws hbefore

theorem moves_of_next (h : s.next ctx = some s') : Moves ctx s .next s' := by
  unfold next at h
  split at h
  · rename_i hphase
    split at h
    · rename_i hvalid
      obtain rfl := Option.some.inj h
      exact .validates hphase hvalid
    · obtain rfl := Option.some.inj h
      exact .throws (by simp [hphase, Phase.beforePublication])
  · cases h
  · rename_i plan hphase
    split at h
    · rename_i inode fs hopen
      obtain rfl := Option.some.inj h
      exact .opens hphase hopen
    · obtain rfl := Option.some.inj h
      exact .throws (by simp [hphase, Phase.beforePublication])
  · rename_i file hphase
    simp only at h
    split at h
    · obtain rfl := Option.some.inj h
      exact .oversized hphase
    · rename_i hle
      obtain rfl := Option.some.inj h
      exact .sized hphase rfl (Nat.le_of_not_lt hle)
  · rename_i file hphase
    obtain rfl := Option.some.inj h
    exact .empties hphase
  · rename_i file partialSize state hphase
    obtain rfl := Option.some.inj h
    exact moves_of_resume hphase
  · rename_i file length state hphase
    obtain rfl := Option.some.inj h
    exact .cuts hphase
  · rename_i file state remaining window hphase
    split at h
    · obtain rfl := Option.some.inj h
      exact .throws (by simp [hphase, Phase.beforePublication])
    · rename_i hwriter hfailure
      obtain rfl := Option.some.inj h
      exact .joins hphase hwriter hfailure
    · cases h
  · rename_i restored hphase
    split at h
    · obtain rfl := Option.some.inj h
      exact .throws (by simp [hphase, Phase.beforePublication])
    · rename_i hid
      obtain rfl := Option.some.inj h
      exact .verifies hphase (not_not.mp hid)
  · rename_i restored hphase
    obtain rfl := Option.some.inj h
    exact .flushes hphase
  · rename_i restored hphase
    obtain rfl := Option.some.inj h
    exact .closes hphase
  · rename_i restored hphase
    obtain rfl := Option.some.inj h
    exact moves_of_publish hphase
  · rename_i restored hphase
    unfold FileSystem.unlink at h
    split at h
    · rename_i fs hunlink
      obtain rfl := Option.some.inj h
      split at hunlink
      · cases hunlink
      · obtain rfl := Option.some.inj hunlink
        exact .unlinks hphase
    · obtain rfl := Option.some.inj h
      exact .keeps hphase
  · cases h
  · cases h

theorem moves_of_receivePlan {response : Except EngineExc MultiNodeRestorePlan}
    (h : s.receivePlan ctx response = some s') : Moves ctx s (.metadata response) s' := by
  unfold receivePlan at h
  split at h
  · rename_i hphase
    split at h
    · rename_i plan haccepted
      obtain rfl := Option.some.inj h
      exact .plans hphase (acceptPlan_eq_ok haccepted).2
    · obtain rfl := Option.some.inj h
      exact .throws (by simp [hphase, Phase.beforePublication])
  · cases h

theorem moves_of_fail {e : EngineExc} (h : s.fail e = some s') : Moves ctx s (.fails e) s' := by
  cases hphase : s.phase with
  | downloading | published | thrown => simp [fail, hphase] at h
  | unlinking restored =>
      obtain rfl : s.goto (.published restored) = s' := by
        simpa [fail, hphase] using h
      exact .keeps hphase
  | validating | planning | opening | sizing | emptying | resuming | cutting | verifying
  | flushing | closing | publishing =>
      obtain rfl : s.goto (.thrown e) = s' := by simpa [fail, hphase] using h
      exact .throws (by simp [hphase, Phase.beforePublication])

theorem moves_of_step {op : PullOp} (h : step ctx s op = some s') : Moves ctx s op s' := by
  cases op with
  | next => exact moves_of_next h
  | metadata response => exact moves_of_receivePlan h
  | fails e => exact moves_of_fail h
  | window op =>
      simp only [step, stepWindow] at h
      split at h
      · rename_i file state remaining window hphase
        obtain ⟨window', hstep, rfl⟩ := Option.map_eq_some_iff.mp h
        exact .window hphase hstep
      · cases h
  | others bytes =>
      simp only [step, othersWrite] at h
      split at h
      · rename_i hphase
        split at h
        · obtain rfl := Option.some.inj h
          exact .othersCreate hphase
        · obtain rfl := Option.some.inj h
          exact .othersRemove hphase
      · cases h

theorem Runs.invariant {P : PullState → Prop} (hmoves : ∀ op s s', Moves ctx s op s' → P s → P s')
    (hrun : Runs ctx s s') (h : P s) : P s' := by
  refine invariant_of_step (P := P) ?_ hrun h
  rintro before after ⟨op, hop⟩
  exact hmoves op before after (moves_of_step hop)

end PullState

end AiArtifactStore.Pull
