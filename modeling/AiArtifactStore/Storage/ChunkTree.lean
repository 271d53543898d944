import AiArtifactStore.Storage.LocalChunkStore

/-!
# The directory tree of a chunk store

The directory `chunks` by its names: fan-out directories, the files in them, temporary
files and whatever else stands there.  `listedStore` is the chunk store of
`LocalChunkStore` that the scan of the inventory sees in it.
-/

namespace AiArtifactStore.Storage

open AiArtifactStore.Foundation
open AiArtifactStore.Identity
open AiArtifactStore.Metadata

structure FileEntry where
  name : String
  file : ChunkFile
  deriving DecidableEq

abbrev Files := Table FileEntry.name

/-- What stands in `chunks`.  A symlink carries the directory outside the store that it
resolves to, if it does. -/
inductive Fanout where
  | directory (files : Files)
  | symlink (target : Option Files)
  | other

structure FanoutEntry where
  name : String
  node : Fanout

abbrev ChunkTree := Table FanoutEntry.name

/-! ## Names -/

def isLowercaseHex (text : List Char) : Bool :=
  text.all fun character =>
    ('0' ≤ character && character ≤ '9') || ('a' ≤ character && character ≤ 'f')

def isValidFanoutDirectoryName (name : String) : Bool :=
  name.toList.length = 2 && isLowercaseHex name.toList

def isValidChunkFilename (name : String) : Bool :=
  name.toList.length = 64 && isLowercaseHex name.toList

def kTemporaryPrefix : List Char := ".aistore-chunk-".toList

def isTemporaryChunkFilename (name : String) : Bool := kTemporaryPrefix.isPrefixOf name.toList

def temporaryName (suffix : List Char) : String := String.ofList (kTemporaryPrefix ++ suffix)

def fanoutName (chunkId : ContentId) : String := String.ofList (chunkId.hexCharacters.take 2)

theorem isLowercaseHex_hexDigits (width n : Nat) : isLowercaseHex (hexDigits width n) = true := by
  have hdigit : ∀ d : Fin 16, isLowercaseHex [Nat.digitChar d] = true := by decide
  induction width generalizing n with
  | zero => rfl
  | succ width ih =>
      have hlast := hdigit ⟨n % 16, Nat.mod_lt _ (by decide)⟩
      have happend : isLowercaseHex (hexDigits width (n / 16) ++ [hexDigit n]) =
          (isLowercaseHex (hexDigits width (n / 16)) && isLowercaseHex [hexDigit n]) :=
        List.all_append
      rw [hexDigits, happend, ih]
      exact hlast

@[simp] theorem toList_hex (chunkId : ContentId) : chunkId.hex.toList = chunkId.hexCharacters :=
  String.toList_ofList

@[simp] theorem length_hexCharacters (chunkId : ContentId) : chunkId.hexCharacters.length = 64 :=
  length_hexDigits 64 _

theorem isValidChunkFilename_hex (chunkId : ContentId) :
    isValidChunkFilename chunkId.hex = true := by
  have hhex : isLowercaseHex chunkId.hexCharacters = true := isLowercaseHex_hexDigits 64 _
  simp [isValidChunkFilename, hhex]

theorem isValidFanoutDirectoryName_fanoutName (chunkId : ContentId) :
    isValidFanoutDirectoryName (fanoutName chunkId) = true := by
  have hhex : isLowercaseHex chunkId.hexCharacters = true := isLowercaseHex_hexDigits 64 _
  have htake : isLowercaseHex (chunkId.hexCharacters.take 2) = true :=
    List.all_eq_true.mpr fun c hc => List.all_eq_true.mp hhex c (List.mem_of_mem_take hc)
  simp [isValidFanoutDirectoryName, fanoutName, htake]

theorem not_temporary_hex (chunkId : ContentId) :
    isTemporaryChunkFilename chunkId.hex = false := by
  have hhex : isLowercaseHex chunkId.hexCharacters = true := isLowercaseHex_hexDigits 64 _
  have hdot : '.' ∈ kTemporaryPrefix := by decide
  rw [isTemporaryChunkFilename, toList_hex, Bool.eq_false_iff, ne_eq, List.isPrefixOf_iff_prefix]
  intro hstarts
  exact absurd (List.all_eq_true.mp hhex '.' (hstarts.subset hdot)) (by decide)

theorem temporaryName_ne_hex (suffix : List Char) (chunkId : ContentId) :
    temporaryName suffix ≠ chunkId.hex := by
  intro h
  have htemporary : isTemporaryChunkFilename (temporaryName suffix) = true := by
    rw [isTemporaryChunkFilename, temporaryName, String.toList_ofList, List.isPrefixOf_iff_prefix]
    exact List.prefix_append _ _
  rw [h, not_temporary_hex] at htemporary
  cases htemporary

/-! ## Paths -/

/-- The directory of a path, and whether the scan of the inventory enters it. -/
def Fanout.resolve : Fanout → Option (Bool × Files)
  | .directory files => some (true, files)
  | .symlink target => target.map fun files => (false, files)
  | .other => none

def Fanout.mapFiles (f : Files → Files) : Fanout → Fanout
  | .directory files => .directory (f files)
  | .symlink target => .symlink (target.map f)
  | .other => .other

namespace ChunkTree

def filesOf (tree : ChunkTree) (fanout : String) : Option (Bool × Files) :=
  (tree.find? fanout).bind fun entry => entry.node.resolve

/-- What stands at the path of a chunk, and whether the inventory sees its directory. -/
def entryOf (tree : ChunkTree) (chunkId : ContentId) : Option (Bool × ChunkFile) :=
  (filesOf tree (fanoutName chunkId)).bind fun resolved =>
    (resolved.2.find? chunkId.hex).map fun entry => (resolved.1, entry.file)

def modify (tree : ChunkTree) (fanout : String) (f : Files → Files) : ChunkTree :=
  tree.mapRows
    (fun entry => if entry.name = fanout then { entry with node := entry.node.mapFiles f } else entry)
    fun entry => by split <;> rfl

/-! ## Operations -/

def validateChunkId (chunkId : String) : Except Exc ContentId :=
  orFail (ContentId.ofHex? chunkId) (.invalidArgument
    (if chunkId.utf8ByteSize ≠ 64 then "chunk ID must contain exactly 64 hexadecimal characters"
    else "chunk ID must use lowercase hexadecimal characters"))

def storedBytes (tree : ChunkTree) (chunkId : ContentId) : Option (List UInt8) :=
  (entryOf tree chunkId).bind fun entry => entry.2.regularBytes

def contains (tree : ChunkTree) (chunkId : String) : Except Exc Bool := do
  let id ← validateChunkId chunkId
  .ok (storedBytes tree id).isSome

def get (env : Environment) (tree : ChunkTree) (chunkId : String) :
    Except Exc (List UInt8) := do
  let id ← validateChunkId chunkId
  let data ← orFail (storedBytes tree id) (.runtimeError "requested chunk does not exist")
  failIf ((env.contentId data).hex ≠ chunkId)
    (.runtimeError "stored chunk failed SHA-256 verification")
  .ok data

def createDirectories (tree : ChunkTree) (fanout : String) : Except Exc ChunkTree :=
  match tree.find? fanout with
  | none => .ok (tree.insert ⟨fanout, .directory .empty⟩)
  | some entry =>
      if entry.node.resolve.isSome then .ok tree
      else .error (.runtimeError "cannot create directories")

def createTemporary (tree : ChunkTree) (fanout temporary : String) : Except Exc ChunkTree :=
  if (filesOf tree fanout).any fun resolved => (resolved.2.find? temporary).isNone then
    .ok (modify tree fanout fun files => files.insert ⟨temporary, .regular []⟩)
  else .error (.runtimeError "failed to create temporary chunk file")

def setBytes (tree : ChunkTree) (fanout name : String) (bytes : List UInt8) : ChunkTree :=
  modify tree fanout fun files => files.upsert ⟨name, .regular bytes⟩

def removeFile (tree : ChunkTree) (fanout name : String) : ChunkTree :=
  modify tree fanout fun files => files.filter fun entry => entry.name ≠ name

/-- `rename` inside a fan-out directory: it replaces anything but a directory. -/
def renameFile (tree : ChunkTree) (fanout name newName : String) : Except Exc ChunkTree := do
  let resolved ← orFail (filesOf tree fanout) (.runtimeError "cannot rename")
  let entry ← orFail (resolved.2.find? name) (.runtimeError "cannot rename")
  failIf ((resolved.2.find? newName).map FileEntry.file = some .directory)
    (.runtimeError "cannot rename")
  .ok (modify tree fanout fun files =>
    (files.filter fun other => other.name ≠ name).upsert ⟨newName, entry.file⟩)

def publish (env : Environment) (written : ChunkTree) (fanout temporary expectedChunkId : String)
    (data : List UInt8) : Except Exc ChunkTree := do
  failIf ((env.contentId data).hex ≠ expectedChunkId)
    (.runtimeError "chunk content does not match expected chunk ID")
  renameFile written fanout temporary expectedChunkId

/-- A put that reads and writes without I/O errors, with the suffix that `mkstemp` chose.
An exception leaves a directory that was created, and no temporary file. -/
def put (env : Environment) (tree : ChunkTree) (suffix : List Char) (expectedChunkId : String)
    (data : List UInt8) : Except Exc Unit × ChunkTree :=
  match validateChunkId expectedChunkId with
  | .error e => (.error e, tree)
  | .ok id =>
    if (storedBytes tree id).isSome then
      match get env tree expectedChunkId with
      | .error e => (.error e, tree)
      | .ok _ => (.ok (), tree)
    else
      match createDirectories tree (fanoutName id) with
      | .error e => (.error e, tree)
      | .ok made =>
        match createTemporary made (fanoutName id) (temporaryName suffix) with
        | .error e => (.error e, made)
        | .ok created =>
          let written := setBytes created (fanoutName id) (temporaryName suffix) data
          match publish env written (fanoutName id) (temporaryName suffix) expectedChunkId data with
          | .error e => (.error e, removeFile written (fanoutName id) (temporaryName suffix))
          | .ok renamed => (.ok (), renamed)

def remove (tree : ChunkTree) (chunkId : String) : Except Exc (Bool × ChunkTree) := do
  let id ← validateChunkId chunkId
  match (entryOf tree id).map Prod.snd with
  | none => .ok (false, tree)
  | some (.symlink none) => .ok (false, tree)
  | some (.symlink (some _)) =>
      .error (.runtimeError "chunk path is a symlink; refusing to remove")
  | some .directory =>
      .error (.invalidArgument "chunk path exists but is not a regular file")
  | some (.regular _) => .ok (true, removeFile tree (fanoutName id) chunkId)

def scanFile (fanout : String) (entry : FileEntry) : Option StoredChunkInfo :=
  if isTemporaryChunkFilename entry.name then none
  else if ¬isValidChunkFilename entry.name then none
  else if entry.name.toList.take 2 ≠ fanout.toList then none
  else
    match entry.file with
    | .regular bytes => (ContentId.ofHex? entry.name).map fun id => ⟨id, bytes.length⟩
    | _ => none

def scanFanout (entry : FanoutEntry) : List StoredChunkInfo :=
  match entry.node with
  | .directory files =>
      if isValidFanoutDirectoryName entry.name then files.rows.filterMap (scanFile entry.name) else []
  | _ => []

def discoveredChunks (tree : ChunkTree) : List StoredChunkInfo :=
  (tree.rows.flatMap scanFanout).insertionSort fun a b => a.chunkId ≤ b.chunkId

def listChunks (tree : ChunkTree) (after : Option String) (limit : Nat) :
    Except Exc StoredChunkPage := do
  failIf (limit < 1 ∨ limit > 256)
    (.invalidArgument "chunk inventory limit must be between 1 and 256")
  let after ← after.mapM validateChunkId
  let remaining := LocalChunkStore.remainingChunks after (discoveredChunks tree)
  let chunks := remaining.take limit
  .ok
    { chunks := chunks
      nextAfter :=
        if limit < remaining.length then chunks.getLast?.map StoredChunkInfo.chunkId else none }

end ChunkTree

end AiArtifactStore.Storage
