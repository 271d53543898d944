import AiArtifactStore.Chunking.FastCdc
import AiArtifactStore.Metadata.Upload

/-!
# Chunk feeds

The chunker that a push runs, for either strategy of its session, and the sizes
of the chunks that the metadata service will accept from it.
-/

namespace AiArtifactStore.Push

open AiArtifactStore.Foundation
open AiArtifactStore.Identity
open AiArtifactStore.Metadata
open AiArtifactStore.Chunking

inductive ChunkFeed where
  | fixedSize (chunker : FixedSizeChunker)
  | fastCdc (chunker : FastCdcChunker)
  deriving DecidableEq

namespace ChunkFeed

def finalized : ChunkFeed → Bool
  | .fixedSize chunker => chunker.finalized
  | .fastCdc chunker => chunker.finalized

def update (data : List UInt8) : ChunkFeed → Except ChunkerExc (ChunkFeed × List ChunkBuffer)
  | .fixedSize chunker => (chunker.update data).map fun r => (.fixedSize r.1, r.2)
  | .fastCdc chunker => (chunker.update data).map fun r => (.fastCdc r.1, r.2)

def finalize : ChunkFeed → Except ChunkerExc (ChunkFeed × List ChunkBuffer)
  | .fixedSize chunker => chunker.finalize.map fun r => (.fixedSize r.1, r.2)
  | .fastCdc chunker => chunker.finalize.map fun r => (.fastCdc r.1, r.2)

/-! ## The chunks of a stream -/

/-- A feed that is not finalized after some more input, and what it emitted. -/
def advance (data : List UInt8) : ChunkFeed → ChunkFeed × List ChunkBuffer
  | .fixedSize chunker =>
      (.fixedSize (feed FixedSizeChunker.absorb chunker data).1,
        (feed FixedSizeChunker.absorb chunker data).2)
  | .fastCdc chunker =>
      (.fastCdc (feed FastCdcChunker.absorb chunker data).1,
        (feed FastCdcChunker.absorb chunker data).2)

def lastChunk : ChunkFeed → List ChunkBuffer
  | .fixedSize chunker => chunker.lastChunk
  | .fastCdc chunker => chunker.lastChunk

/-- Every chunk that a feed has still to emit, if its input ends after `data`. -/
def allChunks (data : List UInt8) (source : ChunkFeed) : List ChunkBuffer :=
  (source.advance data).2 ++ (source.advance data).1.lastChunk

variable {source source' : ChunkFeed} {data : List UInt8} {chunks : List ChunkBuffer}

theorem update_ok (h : source.update data = .ok (source', chunks)) :
    source' = (source.advance data).1 ∧ chunks = (source.advance data).2 := by
  cases source with
  | fixedSize chunker =>
      simp only [update, FixedSizeChunker.update, FixedSizeChunker.updateLoop_eq_feed] at h
      split at h
      · cases h
      · cases h
        exact ⟨rfl, rfl⟩
  | fastCdc chunker =>
      simp only [update, FastCdcChunker.update] at h
      split at h
      · cases h
      · cases h
        exact ⟨rfl, rfl⟩

theorem finalize_ok (h : source.finalize = .ok (source', chunks)) : chunks = source.lastChunk := by
  cases source with
  | fixedSize chunker =>
      simp only [finalize, FixedSizeChunker.finalize] at h
      split at h
      · cases h
      · cases h
        rfl
  | fastCdc chunker =>
      simp only [finalize, FastCdcChunker.finalize] at h
      split at h
      · cases h
      · cases h
        rfl

theorem update_of_open (h : source.finalized = false) (data : List UInt8) :
    source.update data = .ok (source.advance data) := by
  cases source with
  | fixedSize chunker =>
      have hopen : chunker.finalized = false := h
      simp [update, FixedSizeChunker.update, hopen, FixedSizeChunker.updateLoop_eq_feed, Except.map,
        advance]
  | fastCdc chunker =>
      have hopen : chunker.finalized = false := h
      simp [update, FastCdcChunker.update, hopen, Except.map, advance]

theorem finalize_of_open (h : source.finalized = false) :
    ∃ source', source.finalize = .ok (source', source.lastChunk) := by
  cases source with
  | fixedSize chunker =>
      have hopen : chunker.finalized = false := h
      exact ⟨_, by simp only [finalize, FixedSizeChunker.finalize, hopen]; rfl⟩
  | fastCdc chunker =>
      have hopen : chunker.finalized = false := h
      exact ⟨_, by simp only [finalize, FastCdcChunker.finalize, hopen]; rfl⟩

theorem finalized_advance (data : List UInt8) :
    (source.advance data).1.finalized = source.finalized := by
  cases source with
  | fixedSize chunker => exact (chunker.feed_absorb_spec data).1.2
  | fastCdc chunker => exact (chunker.feed_absorb_spec data).1.2

@[simp] theorem allChunks_nil : source.allChunks [] = source.lastChunk := by
  cases source with
  | fixedSize chunker => rfl
  | fastCdc chunker => rfl

theorem allChunks_append (xs ys : List UInt8) :
    source.allChunks (xs ++ ys) =
      (source.advance xs).2 ++ (source.advance xs).1.allChunks ys := by
  cases source with
  | fixedSize chunker => simp only [allChunks, advance, feed_append, List.append_assoc]
  | fastCdc chunker => simp only [allChunks, advance, feed_append, List.append_assoc]

/-! ## Sizes -/

/-- The size rule for chunks before the end of the input. -/
def nonFinalSizeOk (chunking : SessionChunking) (size : Nat) : Bool :=
  match chunking with
  | .fixedSize chunkSizeBytes => size = chunkSizeBytes
  | .fastCdc p => p.minChunkSizeBytes ≤ size && size ≤ p.maxChunkSizeBytes

def finalSizeOk (chunking : SessionChunking) (size : Nat) : Bool :=
  match chunking with
  | .fixedSize chunkSizeBytes => 0 < size && size ≤ chunkSizeBytes
  | .fastCdc p => 0 < size && size ≤ p.maxChunkSizeBytes

theorem finalSizeOk_of_nonFinal {chunking : SessionChunking} {size : Nat}
    (hvalid : chunking.validate = .ok ()) (h : nonFinalSizeOk chunking size = true) :
    finalSizeOk chunking size = true := by
  cases chunking with
  | fixedSize n =>
      simp only [SessionChunking.validate, failIf_eq_ok] at hvalid
      simp only [nonFinalSizeOk, decide_eq_true_eq] at h
      simp only [finalSizeOk, Bool.and_eq_true, decide_eq_true_eq]
      omega
  | fastCdc p =>
      have hp := validateFastCdcParameters_ok.mp hvalid
      simp only [nonFinalSizeOk, Bool.and_eq_true, decide_eq_true_eq] at h
      simp only [finalSizeOk, Bool.and_eq_true, decide_eq_true_eq]
      omega

def Runs (chunking : SessionChunking) : ChunkFeed → Prop
  | .fixedSize chunker => chunking = .fixedSize chunker.chunkSize
  | .fastCdc chunker => chunking = .fastCdc chunker.parameters

variable {chunking : SessionChunking}

theorem Runs.advance (h : source.Runs chunking) (data : List UInt8) :
    (source.advance data).1.Runs chunking := by
  cases source with
  | fixedSize chunker =>
      exact h.trans (congrArg _ (chunker.feed_absorb_spec data).1.1.symm)
  | fastCdc chunker =>
      exact h.trans (congrArg _ (chunker.feed_absorb_spec data).1.1.symm)

theorem Runs.nonFinal (h : source.Runs chunking) :
    ∀ chunk ∈ (source.advance data).2, nonFinalSizeOk chunking chunk.bytes.length = true := by
  cases source with
  | fixedSize chunker =>
      intro chunk hchunk
      obtain rfl : chunking = .fixedSize chunker.chunkSize := h
      simpa [nonFinalSizeOk] using (chunker.feed_absorb_spec data).2 chunk hchunk
  | fastCdc chunker =>
      intro chunk hchunk
      obtain rfl : chunking = .fastCdc chunker.parameters := h
      simpa [nonFinalSizeOk, FastCdcChunker.SizeOk] using
        (chunker.feed_absorb_spec data).2 chunk hchunk

theorem Runs.final (h : source.Runs chunking) :
    source.lastChunk.length ≤ 1 ∧
      ∀ chunk ∈ source.lastChunk, finalSizeOk chunking chunk.bytes.length = true := by
  cases source with
  | fixedSize chunker =>
      obtain rfl : chunking = .fixedSize chunker.chunkSize := h
      refine ⟨?_, fun chunk hchunk => ?_⟩
      · simp only [lastChunk, FixedSizeChunker.lastChunk]
        split <;> simp
      · have hsize := FixedSizeChunker.size_of_lastChunk hchunk
        simpa [finalSizeOk] using ⟨hsize.1, Nat.le_of_lt hsize.2⟩
  | fastCdc chunker =>
      obtain rfl : chunking = .fastCdc chunker.parameters := h
      refine ⟨?_, fun chunk hchunk => ?_⟩
      · simp only [lastChunk, FastCdcChunker.lastChunk]
        split <;> simp
      · have hsize := FastCdcChunker.size_of_lastChunk hchunk
        simpa [finalSizeOk] using ⟨hsize.1, Nat.le_of_lt hsize.2⟩

end ChunkFeed

theorem checkChunkSizes_append {xs ys : List ChunkRef} {nonFinalOk finalOk : Nat → Bool}
    {nonFinalError finalError : Exc} (himp : ∀ size, nonFinalOk size = true → finalOk size = true)
    (hlength : ys.length ≤ 1) (hxs : ∀ chunk ∈ xs, nonFinalOk chunk.size = true)
    (hys : ∀ chunk ∈ ys, finalOk chunk.size = true) :
    checkChunkSizes (xs ++ ys) nonFinalOk finalOk nonFinalError finalError = .ok () := by
  have hlast : ∀ chunk ∈ xs ++ ys, finalOk chunk.size = true := by
    intro chunk hchunk
    rcases List.mem_append.mp hchunk with h | h
    · exact himp _ (hxs chunk h)
    · exact hys chunk h
  have hfront : ∀ chunk ∈ (xs ++ ys).dropLast, chunk ∈ xs := by
    intro chunk hchunk
    cases ys with
    | nil => exact List.dropLast_subset _ (by simpa using hchunk)
    | cons y ys =>
        obtain rfl : ys = [] := List.eq_nil_of_length_eq_zero (by simp at hlength ⊢; exact hlength)
        simpa using hchunk
  have hchecks : forEach (xs ++ ys).dropLast
      (fun chunk => failIf (¬nonFinalOk chunk.size) nonFinalError) = .ok () := by
    rw [forEach_eq_ok]
    intro chunk hchunk
    exact failIf_of_false (by simp [hxs chunk (hfront chunk hchunk)])
  rw [checkChunkSizes, hchecks, ok_bind]
  cases h : (xs ++ ys).getLast? with
  | none => rfl
  | some last => exact failIf_of_false (by simp [hlast last (List.mem_of_getLast? h)])

end AiArtifactStore.Push
