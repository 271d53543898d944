import AiArtifactStore.Foundation.Segmentation
import AiArtifactStore.Metadata.Exceptions

/-!
# The fixed-size chunker

`FixedSizeChunker` with its copy loop.  The chunks that the consumer receives
during a call are its result, in order.
-/

namespace AiArtifactStore.Chunking

open AiArtifactStore.Foundation
open AiArtifactStore.Metadata

structure ChunkBuffer where
  offset : Nat
  bytes : List UInt8
  deriving DecidableEq, Repr

inductive ChunkerExc where
  | invalidArgument (what : String)
  | logicError (what : String)
  deriving DecidableEq, Repr

structure FixedSizeChunker where
  chunkSize : Nat
  buffer : List UInt8
  nextChunkOffset : Nat
  finalized : Bool
  room : buffer.length < chunkSize
  deriving DecidableEq

namespace FixedSizeChunker

def make (chunkSize : Nat) : Except ChunkerExc FixedSizeChunker :=
  if h : 0 < chunkSize then .ok ⟨chunkSize, [], 0, false, h⟩
  else .error (.invalidArgument "chunk size must be greater than zero")

def emitCurrentChunk (c : FixedSizeChunker) (buffer : List UInt8) :
    FixedSizeChunker × ChunkBuffer :=
  ({ c with
      buffer := []
      nextChunkOffset := c.nextChunkOffset + buffer.length
      room := Nat.zero_lt_of_lt c.room },
    ⟨c.nextChunkOffset, buffer⟩)

/-- How much of the input one iteration of `update` copies. -/
def bytesToCopy (c : FixedSizeChunker) (data : List UInt8) : Nat :=
  min (c.chunkSize - c.buffer.length) data.length

def updateLoop (c : FixedSizeChunker) (data : List UInt8) : FixedSizeChunker × List ChunkBuffer :=
  if hdata : data = [] then (c, [])
  else
    let buffer := c.buffer ++ data.take (c.bytesToCopy data)
    if hfull : buffer.length = c.chunkSize then
      let next := c.emitCurrentChunk buffer
      let rest := updateLoop next.1 (data.drop (c.bytesToCopy data))
      (rest.1, next.2 :: rest.2)
    else
      updateLoop
        { c with
          buffer := buffer
          room := by
            have hroom := c.room
            simp only [buffer, bytesToCopy, List.length_append, List.length_take] at hfull ⊢
            omega }
        (data.drop (c.bytesToCopy data))
termination_by data.length
decreasing_by
  all_goals
    have hroom := c.room
    have hlength := List.length_pos_iff.mpr hdata
    simp only [bytesToCopy, List.length_drop]
    omega

def update (c : FixedSizeChunker) (data : List UInt8) :
    Except ChunkerExc (FixedSizeChunker × List ChunkBuffer) :=
  if c.finalized then .error (.logicError "cannot update a finalized fixed-size chunker")
  else .ok (c.updateLoop data)

/-- The chunk that `finalize` emits, if any. -/
def lastChunk (c : FixedSizeChunker) : List ChunkBuffer :=
  if c.buffer = [] then [] else [(c.emitCurrentChunk c.buffer).2]

def finalize (c : FixedSizeChunker) : Except ChunkerExc (FixedSizeChunker × List ChunkBuffer) :=
  if c.finalized then
    .error (.logicError "fixed-size chunker has already been finalized")
  else
    let emitted := if c.buffer = [] then c else (c.emitCurrentChunk c.buffer).1
    .ok ({ emitted with finalized := true }, c.lastChunk)

/-! ## The loop, byte by byte -/

def absorb (c : FixedSizeChunker) (byte : UInt8) : FixedSizeChunker × List ChunkBuffer :=
  if h : c.buffer.length + 1 = c.chunkSize then
    let next := c.emitCurrentChunk (c.buffer ++ [byte])
    (next.1, [next.2])
  else
    ({ c with
        buffer := c.buffer ++ [byte]
        room := by
          have hroom := c.room
          simp only [List.length_append, List.length_singleton]
          omega }, [])

variable {c : FixedSizeChunker}

theorem feed_absorb_append {data : List UInt8} (h : c.buffer.length + data.length < c.chunkSize) :
    feed absorb c data =
      ({ c with buffer := c.buffer ++ data, room := by simpa using h }, []) := by
  induction data generalizing c with
  | nil => simp
  | cons byte data ih =>
      simp only [List.length_cons] at h
      have hroom : ¬c.buffer.length + 1 = c.chunkSize := by omega
      simp only [feed, absorb, hroom, ↓reduceDIte, List.nil_append]
      rw [ih (by simp; omega)]
      simp

theorem feed_absorb_fill {data : List UInt8} (hdata : data ≠ [])
    (h : c.buffer.length + data.length = c.chunkSize) :
    feed absorb c data =
      ((c.emitCurrentChunk (c.buffer ++ data)).1, [(c.emitCurrentChunk (c.buffer ++ data)).2]) := by
  obtain ⟨front, byte, rfl⟩ := List.eq_nil_or_concat data |>.resolve_left hdata
  have hfront : c.buffer.length + front.length < c.chunkSize := by
    simp at h
    omega
  have hfull : (c.buffer ++ front).length + 1 = c.chunkSize := by
    simp at h ⊢
    omega
  rw [List.concat_eq_append, feed_append, feed_absorb_append hfront]
  simp only [feed, absorb, hfull, ↓reduceDIte, emitCurrentChunk, List.append_assoc,
    List.append_nil, List.nil_append]

theorem updateLoop_eq_feed (c : FixedSizeChunker) (data : List UInt8) :
    c.updateLoop data = feed absorb c data := by
  fun_induction updateLoop c data with
  | case1 c => simp
  | case2 c data hdata buffer hfull next rest ih =>
      have hroom := c.room
      have hsplit := List.take_append_drop (c.bytesToCopy data) data
      have hpiece : data.take (c.bytesToCopy data) ≠ [] := by
        intro hnil
        simp only [buffer, hnil, List.append_nil] at hfull
        omega
      have hlength : c.buffer.length + (data.take (c.bytesToCopy data)).length = c.chunkSize := by
        simpa only [buffer, List.length_append] using hfull
      have hfeed : feed absorb c data =
          ((feed absorb next.1 (data.drop (c.bytesToCopy data))).1,
            next.2 :: (feed absorb next.1 (data.drop (c.bytesToCopy data))).2) := by
        rw [← hsplit, feed_append, feed_absorb_fill hpiece hlength, hsplit]
        rfl
      rw [hfeed, ← ih]
  | case3 c data hdata buffer hfull ih =>
      have hsplit := List.take_append_drop (c.bytesToCopy data) data
      have hlength : c.buffer.length + (data.take (c.bytesToCopy data)).length < c.chunkSize := by
        have hroom := c.room
        simp only [buffer, bytesToCopy, List.length_append, List.length_take] at hfull ⊢
        omega
      have hfeed : feed absorb c data =
          feed absorb { c with buffer := buffer, room := by simpa [buffer] using hlength }
            (data.drop (c.bytesToCopy data)) := by
        have hpieces := @feed_append _ _ _ absorb c (data.take (c.bytesToCopy data))
          (data.drop (c.bytesToCopy data))
        rw [hsplit, feed_absorb_append hlength] at hpieces
        simpa only [List.nil_append] using hpieces
      rw [hfeed, ← ih]

/-! ## Sizes -/

theorem absorb_spec (c : FixedSizeChunker) (byte : UInt8) :
    ((c.absorb byte).1.chunkSize = c.chunkSize ∧ (c.absorb byte).1.finalized = c.finalized) ∧
      ∀ chunk ∈ (c.absorb byte).2, chunk.bytes.length = c.chunkSize := by
  unfold absorb
  split
  · rename_i hfull
    refine ⟨⟨rfl, rfl⟩, fun chunk hchunk => ?_⟩
    rw [List.mem_singleton.mp hchunk]
    simp [emitCurrentChunk, hfull]
  · exact ⟨⟨rfl, rfl⟩, by simp⟩

theorem feed_absorb_spec (c : FixedSizeChunker) (data : List UInt8) :
    ((feed absorb c data).1.chunkSize = c.chunkSize ∧
        (feed absorb c data).1.finalized = c.finalized) ∧
      ∀ chunk ∈ (feed absorb c data).2, chunk.bytes.length = c.chunkSize := by
  refine feed_invariant
    (P := fun s : FixedSizeChunker => s.chunkSize = c.chunkSize ∧ s.finalized = c.finalized)
    ?_ ⟨rfl, rfl⟩ data
  rintro s byte ⟨hchunkSize, hfinalized⟩
  obtain ⟨⟨hs, hf⟩, hsize⟩ := s.absorb_spec byte
  rw [hchunkSize] at hs hsize
  rw [hfinalized] at hf
  exact ⟨⟨hs, hf⟩, hsize⟩

theorem size_of_lastChunk {chunk : ChunkBuffer} (h : chunk ∈ c.lastChunk) :
    0 < chunk.bytes.length ∧ chunk.bytes.length < c.chunkSize := by
  unfold lastChunk at h
  split at h
  · cases h
  · rename_i hbuffer
    rw [List.mem_singleton.mp h]
    exact ⟨List.length_pos_iff.mpr hbuffer, c.room⟩

end FixedSizeChunker

end AiArtifactStore.Chunking
