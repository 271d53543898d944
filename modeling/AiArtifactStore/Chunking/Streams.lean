import AiArtifactStore.Chunking.FastCdc
import AiArtifactStore.Foundation.Segmentation

/-!
# The chunks of a stream

A stream that reaches a chunker in any number of update calls, and the chunks that its
consumer receives.  Both chunkers cut the bytes of the stream into segments: the fixed-size
chunker at a length, FastCDC where the hash of the current chunk says so.
-/

namespace AiArtifactStore.Chunking

open AiArtifactStore.Foundation
open AiArtifactStore.Metadata

/-! ## Contents and offsets -/

/-- Chunks with the given contents, one after the other. -/
def layOut (start : Nat) : List (List UInt8) → List ChunkBuffer
  | [] => []
  | bytes :: contents => ⟨start, bytes⟩ :: layOut (start + bytes.length) contents

/-- Every chunk begins where the one before it ends. -/
def Contiguous (start : Nat) : List ChunkBuffer → Prop
  | [] => True
  | chunk :: chunks => chunk.offset = start ∧ Contiguous (start + chunk.bytes.length) chunks

section

variable {start : Nat} {contents : List (List UInt8)}

theorem layOut_append (start : Nat) (before after : List (List UInt8)) :
    layOut start (before ++ after) =
      layOut start before ++ layOut (start + before.flatten.length) after := by
  induction before generalizing start with
  | nil => rfl
  | cons bytes before ih =>
      rw [List.cons_append, layOut, ih, layOut, List.flatten_cons, List.length_append,
        Nat.add_assoc]
      rfl

@[simp] theorem map_bytes_layOut (start : Nat) (contents : List (List UInt8)) :
    (layOut start contents).map ChunkBuffer.bytes = contents := by
  induction contents generalizing start with
  | nil => rfl
  | cons bytes contents ih => rw [layOut, List.map_cons, ih]

theorem contiguous_layOut (start : Nat) (contents : List (List UInt8)) :
    Contiguous start (layOut start contents) := by
  induction contents generalizing start with
  | nil => trivial
  | cons bytes contents ih => exact ⟨rfl, ih (start + bytes.length)⟩

theorem bytes_mem_of_mem_layOut {chunk : ChunkBuffer} (h : chunk ∈ layOut start contents) :
    chunk.bytes ∈ contents := by
  rw [← map_bytes_layOut start contents]
  exact List.mem_map_of_mem h

theorem bytes_mem_dropLast {chunk : ChunkBuffer} (h : chunk ∈ (layOut start contents).dropLast) :
    chunk.bytes ∈ contents.dropLast := by
  rw [← map_bytes_layOut start contents, ← List.map_dropLast]
  exact List.mem_map_of_mem h

end

/-! ## Update calls -/

def updateEach {σ : Type}
    (update : σ → List UInt8 → Except ChunkerExc (σ × List ChunkBuffer)) (chunker : σ) :
    List (List UInt8) → Except ChunkerExc (σ × List ChunkBuffer)
  | [] => .ok (chunker, [])
  | piece :: pieces => do
      let next ← update chunker piece
      let rest ← updateEach update next.1 pieces
      pure (rest.1, next.2 ++ rest.2)

def FixedSizeChunker.chunksOf (chunkSize : Nat) (pieces : List (List UInt8)) :
    Except ChunkerExc (List ChunkBuffer) := do
  let chunker ← make chunkSize
  let updated ← updateEach update chunker pieces
  let finalized ← updated.1.finalize
  pure (updated.2 ++ finalized.2)

def FastCdcChunker.chunksOf (parameters : FastCdcParameters) (pieces : List (List UInt8)) :
    Except ChunkerExc (List ChunkBuffer) := do
  let chunker ← make parameters
  let updated ← updateEach update chunker pieces
  let finalized ← updated.1.finalize
  pure (updated.2 ++ finalized.2)

section

variable {σ : Type} {absorb : σ → UInt8 → σ × List ChunkBuffer} {good : σ → Prop}

theorem updateEach_eq_feed
    {update : σ → List UInt8 → Except ChunkerExc (σ × List ChunkBuffer)}
    (hupdate : ∀ c data, good c → update c data = .ok (feed absorb c data))
    (hgood : ∀ c data, good c → good (feed absorb c data).1) {c : σ} (hc : good c)
    (pieces : List (List UInt8)) :
    updateEach update c pieces = .ok (feed absorb c pieces.flatten) := by
  induction pieces generalizing c with
  | nil => rfl
  | cons piece pieces ih =>
      rw [updateEach, hupdate c piece hc, ok_bind, ih (hgood c piece hc), ok_bind,
        List.flatten_cons, feed_append]
      rfl

/-- What a chunker does with one byte, if it closes its buffer where a test passes. -/
structure Collects (closes : List UInt8 → Bool) (buffer : σ → List UInt8) (offset : σ → Nat)
    (c : σ) (byte : UInt8) (next : σ × List ChunkBuffer) : Prop where
  buffer_eq : buffer next.1 = (collect closes (buffer c) byte).1
  offset_eq : offset next.1 = offset c + (collect closes (buffer c) byte).2.flatten.length
  chunks_eq : next.2 = layOut (offset c) (collect closes (buffer c) byte).2

theorem feed_eq_layOut {closes : List UInt8 → Bool} {buffer : σ → List UInt8} {offset : σ → Nat}
    (hstep : ∀ c byte, good c → Collects closes buffer offset c byte (absorb c byte))
    (hgood : ∀ c byte, good c → good (absorb c byte).1) {c : σ} (hc : good c)
    (data : List UInt8) :
    (feed absorb c data).2 ++
        layOut (offset (feed absorb c data).1) (lastSegment (buffer (feed absorb c data).1)) =
      layOut (offset c) (segmentsFrom closes (buffer c) data) := by
  induction data generalizing c with
  | nil => rfl
  | cons byte data ih =>
      have hbyte := hstep c byte hc
      have hrest := ih (hgood c byte hc)
      rw [hbyte.buffer_eq, hbyte.offset_eq] at hrest
      have hsplit : segmentsFrom closes (buffer c) (byte :: data) =
          (collect closes (buffer c) byte).2 ++
            segmentsFrom closes (collect closes (buffer c) byte).1 data :=
        List.append_assoc _ _ _
      rw [hsplit, layOut_append, ← hrest, ← hbyte.chunks_eq]
      exact List.append_assoc _ _ _

end

/-! ## The fixed-size chunker -/

namespace FixedSizeChunker

def Open (chunkSize : Nat) (c : FixedSizeChunker) : Prop :=
  c.chunkSize = chunkSize ∧ c.finalized = false

variable {chunkSize : Nat} {c : FixedSizeChunker}

theorem open_feed (data : List UInt8) (h : Open chunkSize c) :
    Open chunkSize (feed absorb c data).1 := by
  obtain ⟨⟨hsize, hfinalized⟩, -⟩ := c.feed_absorb_spec data
  exact ⟨hsize.trans h.1, hfinalized.trans h.2⟩

theorem open_absorb (byte : UInt8) (h : Open chunkSize c) : Open chunkSize (c.absorb byte).1 :=
  open_feed [byte] h

theorem absorb_collects (byte : UInt8) (h : Open chunkSize c) :
    Collects (fun chunk => chunk.length = chunkSize) buffer nextChunkOffset c byte
      (c.absorb byte) := by
  have hlength : (c.buffer ++ [byte]).length = c.buffer.length + 1 := by simp
  by_cases hfull : c.buffer.length + 1 = c.chunkSize
  · have hcollect := @collect_of_closes _ (fun chunk => decide (chunk.length = chunkSize))
      c.buffer byte (by rw [hlength, hfull, h.1]; exact decide_eq_true rfl)
    simp only [absorb, hfull, ↓reduceDIte]
    constructor
    · rw [hcollect]
      rfl
    · rw [hcollect]
      simp [emitCurrentChunk]
    · rw [hcollect]
      rfl
  · have hcollect := @collect_of_open _ (fun chunk => decide (chunk.length = chunkSize))
      c.buffer byte (by rw [hlength, ← h.1]; exact decide_eq_false hfull)
    simp only [absorb, hfull, ↓reduceDIte]
    constructor
    · rw [hcollect]
    · rw [hcollect]
      rfl
    · rw [hcollect]
      rfl

theorem lastChunk_eq (c : FixedSizeChunker) :
    c.lastChunk = layOut c.nextChunkOffset (lastSegment c.buffer) := by
  unfold lastChunk
  cases hbuffer : c.buffer with
  | nil => rfl
  | cons byte buffer => simp [emitCurrentChunk, lastSegment, layOut]

theorem chunksOf_eq (h : 0 < chunkSize) (pieces : List (List UInt8)) :
    chunksOf chunkSize pieces =
      .ok (layOut 0 (segments (fun chunk => chunk.length = chunkSize) pieces.flatten)) := by
  have hopen : Open chunkSize ⟨chunkSize, [], 0, false, h⟩ := ⟨rfl, rfl⟩
  have hupdate : ∀ c data, Open chunkSize c → update c data = .ok (feed absorb c data) := by
    intro c data hc
    rw [update, hc.2, updateLoop_eq_feed]
    rfl
  have hupdates := updateEach_eq_feed hupdate (fun _ data => open_feed data) hopen pieces
  have hfinalized := (open_feed pieces.flatten hopen).2
  have hchunks := feed_eq_layOut (fun _ byte => absorb_collects byte)
    (fun _ byte => open_absorb byte) hopen pieces.flatten
  rw [chunksOf, make, dif_pos h, ok_bind, hupdates, ok_bind, finalize, hfinalized]
  simp only [Bool.false_eq_true, ↓reduceIte, ok_bind, lastChunk_eq, hchunks]
  rfl

/-- The fixed-size chunker cuts a stream into pieces of its size. -/
theorem chunksOf_eq_cutInto (h : 0 < chunkSize) (pieces : List (List UInt8)) :
    chunksOf chunkSize pieces = .ok (layOut 0 (cutInto chunkSize pieces.flatten)) := by
  rw [chunksOf_eq h, segments_of_length h]

theorem chunksOf_eq_cutInto_sample :
    0 < 2 ∧ chunksOf 2 [[1], [], [2, 3], [4, 5]] =
      .ok (layOut 0 (cutInto 2 [[1], [], [2, 3], [4, 5]].flatten)) :=
  ⟨by decide, chunksOf_eq_cutInto (by decide) _⟩

end FixedSizeChunker

/-! ## FastCDC -/

namespace FastCdcChunker

/-- The hash that the chunker holds after the bytes of the current chunk. -/
def gearHashOf (chunk : List UInt8) : BitVec 64 := chunk.foldl rollGearHash 0#64

def closes (p : FastCdcParameters) (chunk : List UInt8) : Bool :=
  cutsAt p chunk.length (gearHashOf chunk)

structure Open (p : FastCdcParameters) (c : FastCdcChunker) : Prop where
  parameters_eq : c.parameters = p
  finalized_eq : c.finalized = false
  gearHash_eq : c.gearHash = gearHashOf c.buffer

variable {p : FastCdcParameters} {c : FastCdcChunker}

theorem gearHashOf_concat (chunk : List UInt8) (byte : UInt8) :
    gearHashOf (chunk ++ [byte]) = rollGearHash (gearHashOf chunk) byte := by
  simp [gearHashOf]

theorem open_absorb (byte : UInt8) (h : Open p c) : Open p (c.absorb byte).1 := by
  obtain ⟨⟨hparameters, hfinalized⟩, -⟩ := c.absorb_spec byte
  refine ⟨hparameters.trans h.parameters_eq, hfinalized.trans h.finalized_eq, ?_⟩
  unfold absorb
  simp only
  split
  · rfl
  · simp only [gearHashOf_concat, h.gearHash_eq]

theorem open_feed (data : List UInt8) (h : Open p c) : Open p (feed absorb c data).1 :=
  (feed_invariant (Q := fun _ => True)
    (fun _ byte hc => ⟨open_absorb byte hc, fun _ _ => trivial⟩) h data).1

theorem cutsAt_eq_closes (byte : UInt8) (h : Open p c) :
    cutsAt c.parameters (c.buffer ++ [byte]).length (rollGearHash c.gearHash byte) =
      closes p (c.buffer ++ [byte]) := by
  rw [closes, gearHashOf_concat, h.gearHash_eq, h.parameters_eq]

theorem absorb_collects (byte : UInt8) (h : Open p c) :
    Collects (closes p) buffer nextChunkOffset c byte (c.absorb byte) := by
  have hcuts := cutsAt_eq_closes byte h
  cases hcloses : closes p (c.buffer ++ [byte]) with
  | true =>
      simp only [absorb, hcuts.trans hcloses, ↓reduceDIte]
      constructor
      · rw [collect_of_closes hcloses]
        rfl
      · rw [collect_of_closes hcloses]
        simp [emitCurrentChunk]
      · rw [collect_of_closes hcloses]
        rfl
  | false =>
      simp only [absorb, hcuts.trans hcloses, Bool.false_eq_true, ↓reduceDIte]
      constructor
      · rw [collect_of_open hcloses]
      · rw [collect_of_open hcloses]
        rfl
      · rw [collect_of_open hcloses]
        rfl

theorem lastChunk_eq (c : FastCdcChunker) :
    c.lastChunk = layOut c.nextChunkOffset (lastSegment c.buffer) := by
  unfold lastChunk
  cases hbuffer : c.buffer with
  | nil => rfl
  | cons byte buffer => simp [emitCurrentChunk, lastSegment, layOut]

theorem make_ok (h : validateFastCdcChunkerParameters p = .ok ()) :
    make p = .ok ⟨p, [], 0#64, 0, false, h, maxChunkSizeBytes_pos h⟩ := by
  unfold make
  split
  · rename_i e he
    cases he.symm.trans h
  · rfl

theorem make_error {e : ChunkerExc} (h : validateFastCdcChunkerParameters p = .error e) :
    make p = .error e := by
  unfold make
  split
  · rename_i e' he'
    rw [Except.error.inj (he'.symm.trans h)]
  · rename_i hok
    cases hok.symm.trans h

/-- The chunks of a stream, wherever the stream is cut into calls. -/
theorem chunksOf_eq (h : validateFastCdcChunkerParameters p = .ok ())
    (pieces : List (List UInt8)) :
    chunksOf p pieces = .ok (layOut 0 (segments (closes p) pieces.flatten)) := by
  have hopen : Open p ⟨p, [], 0#64, 0, false, h, maxChunkSizeBytes_pos h⟩ := ⟨rfl, rfl, rfl⟩
  have hupdate : ∀ c data, Open p c → update c data = .ok (feed absorb c data) := by
    intro c data hc
    rw [update, hc.finalized_eq]
    rfl
  have hupdates := updateEach_eq_feed hupdate (fun _ data => open_feed data) hopen pieces
  have hfinalized := (open_feed pieces.flatten hopen).finalized_eq
  have hchunks := feed_eq_layOut (fun _ byte => absorb_collects byte)
    (fun _ byte => open_absorb byte) hopen pieces.flatten
  rw [chunksOf, make_ok h, ok_bind, hupdates, ok_bind, finalize, hfinalized]
  simp only [Bool.false_eq_true, ↓reduceIte, ok_bind, lastChunk_eq, hchunks]
  rfl

theorem minChunkSizeBytes_bounds (h : validateFastCdcChunkerParameters p = .ok ()) :
    0 < p.minChunkSizeBytes ∧ p.minChunkSizeBytes ≤ p.maxChunkSizeBytes := by
  have hvalid := validateFastCdcParameters_ok.mp (validateFastCdcChunkerParameters_ok.mp h)
  omega

theorem closes_of_max (h : validateFastCdcChunkerParameters p = .ok ()) {chunk : List UInt8}
    (hmax : p.maxChunkSizeBytes ≤ chunk.length) : closes p chunk = true :=
  cutsAt_max ((minChunkSizeBytes_bounds h).2.trans hmax) hmax

structure IsChunking (p : FastCdcParameters) (data : List UInt8) (chunks : List ChunkBuffer) :
    Prop where
  contents : (chunks.map ChunkBuffer.bytes).flatten = data
  contiguous : Contiguous 0 chunks
  nonempty : ∀ chunk ∈ chunks, chunk.bytes ≠ []
  nonFinal : ∀ chunk ∈ chunks.dropLast,
    p.minChunkSizeBytes ≤ chunk.bytes.length ∧ chunk.bytes.length ≤ p.maxChunkSizeBytes
  final : ∀ chunk ∈ chunks.getLast?, chunk.bytes.length ≤ p.maxChunkSizeBytes
  empty : data = [] → chunks = []

theorem isChunking_layOut_segments (h : validateFastCdcChunkerParameters p = .ok ())
    (data : List UInt8) : IsChunking p data (layOut 0 (segments (closes p) data)) := by
  have hmax := maxChunkSizeBytes_pos h
  have hcloses : ∀ chunk : List UInt8, p.maxChunkSizeBytes ≤ chunk.length →
      closes p chunk = true := fun _ => closes_of_max h
  constructor
  · rw [map_bytes_layOut, flatten_segments]
  · exact contiguous_layOut 0 _
  · exact fun chunk hchunk => ne_nil_of_mem_segments (bytes_mem_of_mem_layOut hchunk)
  · intro chunk hchunk
    have hclosed := dropLast_segments_spec hmax hcloses (bytes_mem_dropLast hchunk)
    exact ⟨cutsAt_min hclosed.1, hclosed.2⟩
  · intro chunk hchunk
    exact length_le_of_mem_segments hmax hcloses
      (bytes_mem_of_mem_layOut (List.mem_of_getLast? hchunk))
  · rintro rfl
    rfl

/-- However a stream reaches the chunker, the chunks are those of one call. -/
theorem chunksOf_isChunking (h : validateFastCdcChunkerParameters p = .ok ())
    (pieces : List (List UInt8)) :
    ∃ chunks, chunksOf p pieces = .ok chunks ∧ chunksOf p [pieces.flatten] = .ok chunks ∧
      IsChunking p pieces.flatten chunks := by
  refine ⟨_, chunksOf_eq h pieces, ?_, isChunking_layOut_segments h pieces.flatten⟩
  rw [chunksOf_eq h, List.flatten_singleton]

theorem chunksOf_isChunking_sample :
    let pieces : List (List UInt8) := [List.replicate 65 0, List.replicate 65 7]
    ∃ chunks, chunksOf ⟨64, 64, 128⟩ pieces = .ok chunks ∧ 2 ≤ chunks.length ∧
      chunksOf ⟨64, 64, 128⟩ [pieces.flatten] = .ok chunks ∧
      IsChunking ⟨64, 64, 128⟩ pieces.flatten chunks := by
  intro pieces
  obtain ⟨chunks, hchunks, hwhole, hchunking⟩ :=
    chunksOf_isChunking (show validateFastCdcChunkerParameters ⟨64, 64, 128⟩ = .ok () by decide)
      pieces
  have hcut : ((chunksOf ⟨64, 64, 128⟩ pieces).toOption.any fun chunks =>
      2 ≤ chunks.length) = true := by
    decide +kernel
  rw [hchunks] at hcut
  exact ⟨chunks, hchunks, of_decide_eq_true hcut, hwhole, hchunking⟩

end FastCdcChunker

end AiArtifactStore.Chunking
