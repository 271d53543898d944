import AiArtifactStore.Storage.LocalChunkStore

/-!
# The service of a storage node

One request at a time on the chunk store of the node.  The node knows nothing
of runs, sessions or versions.
-/

namespace AiArtifactStore.Storage

open AiArtifactStore.Foundation
open AiArtifactStore.Identity
open AiArtifactStore.Metadata

inductive StorageRequest where
  | listChunks (after : Option ContentId) (limit : Nat)
  | headChunk (chunkId : ContentId)
  | putChunk (chunkId : ContentId) (body : List UInt8)
  | getChunk (chunkId : ContentId)
  | deleteChunk (chunkId : ContentId)
  deriving DecidableEq, Repr

inductive StorageReply where
  | page (page : StoredChunkPage)
  | present (found : Bool)
  | noContent
  | content (bytes : List UInt8)
  | deleted (chunkId : ContentId) (deleted : Bool)
  deriving DecidableEq, Repr

/-- A response with an error status; an exception of the store becomes a 500. -/
inductive StorageError where
  | chunkHashMismatch
  | chunkNotFound
  | exception (e : Exc)
  deriving DecidableEq, Repr

def StorageRequest.isDelete : StorageRequest → Bool
  | .deleteChunk _ => true
  | _ => false

namespace StorageNodeService

def rethrow {α : Type} (result : Except Exc α) : Except StorageError α :=
  result.mapError .exception

/-- A response and the store after it, or the error that leaves the store alone. -/
def respond (env : Environment) (store : ChunkStore) :
    StorageRequest → Except StorageError (StorageReply × ChunkStore)
  | .listChunks after limit => do
      let page ← rethrow (LocalChunkStore.listChunks store after limit)
      .ok (.page page, store)
  | .headChunk chunkId => .ok (.present (LocalChunkStore.contains store chunkId), store)
  | .putChunk chunkId body => do
      failIf (env.contentId body ≠ chunkId) .chunkHashMismatch
      let store ← rethrow (LocalChunkStore.put env store chunkId body)
      .ok (.noContent, store)
  | .getChunk chunkId => do
      failIf (LocalChunkStore.contains store chunkId = false) .chunkNotFound
      let bytes ← rethrow (LocalChunkStore.get env store chunkId)
      .ok (.content bytes, store)
  | .deleteChunk chunkId => do
      let (deleted, store) ← rethrow (LocalChunkStore.remove store chunkId)
      .ok (.deleted chunkId deleted, store)

def handleRequest (env : Environment) (store : ChunkStore) (request : StorageRequest) :
    Except StorageError StorageReply × ChunkStore :=
  match respond env store request with
  | .ok (reply, next) => (.ok reply, next)
  | .error e => (.error e, store)

variable {env : Environment} {store : ChunkStore}

theorem rethrow_eq_ok {α : Type} {result : Except Exc α} {a : α} :
    rethrow result = .ok a ↔ result = .ok a :=
  mapError_eq_ok

theorem handleRequest_listChunks (after : Option ContentId) (limit : Nat) :
    handleRequest env store (.listChunks after limit) =
      ((rethrow (LocalChunkStore.listChunks store after limit)).map .page, store) := by
  cases h : LocalChunkStore.listChunks store after limit with
  | error e => simp [handleRequest, respond, rethrow, h, Except.map]
  | ok page => simp [handleRequest, respond, rethrow, h, Except.map]

theorem handleRequest_deleteChunk (chunkId : ContentId) :
    (∃ e, handleRequest env store (.deleteChunk chunkId) = (.error (.exception e), store)) ∨
      ∃ deleted store', LocalChunkStore.remove store chunkId = .ok (deleted, store') ∧
        handleRequest env store (.deleteChunk chunkId) =
          (.ok (.deleted chunkId deleted), store') := by
  cases h : LocalChunkStore.remove store chunkId with
  | error e => exact .inl ⟨e, by simp [handleRequest, respond, rethrow, h]⟩
  | ok r => exact .inr ⟨r.1, r.2, rfl, by simp [handleRequest, respond, rethrow, h]⟩

theorem find?_deleteChunk_of_ne {chunkId other : ContentId} (h : chunkId ≠ other) :
    (handleRequest env store (.deleteChunk chunkId)).2.find? other = store.find? other := by
  rcases @handleRequest_deleteChunk env store chunkId with ⟨e, hs⟩ | ⟨deleted, store', hremove, hs⟩
  · rw [hs]
  · rw [hs]
    have hsame := (LocalChunkStore.remove_ok hremove).1
    cases hfind : store.find? other with
    | none =>
        rw [Table.find?_eq_none] at hfind ⊢
        intro entry hentry hid
        exact hfind entry ((hsame entry (hid ▸ h.symm)).mp hentry) hid
    | some entry =>
        obtain ⟨hmem, rfl⟩ := Table.find?_eq_some.mp hfind
        exact Table.find?_of_mem ((hsame entry h.symm).mpr hmem)

end StorageNodeService

end AiArtifactStore.Storage
