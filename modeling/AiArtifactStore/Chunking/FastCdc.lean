import AiArtifactStore.Chunking.FixedSize
import AiArtifactStore.Metadata.ObjectLayout

/-!
# The FastCDC chunker

`FastCdcChunker`: a gear hash over the current chunk, in 64-bit arithmetic, and
a cut where its low bits vanish.
-/

namespace AiArtifactStore.Chunking

open AiArtifactStore.Foundation
open AiArtifactStore.Metadata

/-! ## The gear hash -/

def kGearSeed : BitVec 64 := 0xA15C0DE5A15C0DE5#64

def splitmix64 (value : BitVec 64) : BitVec 64 :=
  let value := value + 0x9E3779B97F4A7C15#64
  let value := (value ^^^ (value >>> 30)) * 0xBF58476D1CE4E5B9#64
  let value := (value ^^^ (value >>> 27)) * 0x94D049BB133111EB#64
  value ^^^ (value >>> 31)

/-- `make_gear_table`: entry `i` is the state after `i + 1` rounds. -/
def gearTable : List (BitVec 64) := List.iterate splitmix64 (splitmix64 kGearSeed) 256

def gearEntry (byte : UInt8) : BitVec 64 := gearTable.getD byte.toNat 0#64

def rollGearHash (gearHash : BitVec 64) (byte : UInt8) : BitVec 64 :=
  (gearHash <<< 1) + gearEntry byte

def countrZero (value : Nat) : Nat := ((List.range 64).find? fun i => value.testBit i).getD 64

def computeMaskS (avgChunkSize : Nat) : BitVec 64 :=
  (1#64 <<< (countrZero avgChunkSize + 1)) - 1#64

def computeMaskL (avgChunkSize : Nat) : BitVec 64 :=
  (1#64 <<< (countrZero avgChunkSize - 1)) - 1#64

/-! ## The chunker -/

def validateFastCdcChunkerParameters (p : FastCdcParameters) : Except ChunkerExc Unit := do
  failIf (p.minChunkSizeBytes < 64)
    (.invalidArgument "FastCDC min chunk size must be at least 64 bytes")
  failIf (p.avgChunkSizeBytes < 64)
    (.invalidArgument "FastCDC avg chunk size must be at least 64 bytes")
  failIf (¬isPowerOfTwo p.avgChunkSizeBytes)
    (.invalidArgument "FastCDC avg chunk size must be a power of two")
  failIf (p.minChunkSizeBytes > p.avgChunkSizeBytes)
    (.invalidArgument "FastCDC min chunk size must be <= avg chunk size")
  failIf (p.avgChunkSizeBytes > p.maxChunkSizeBytes)
    (.invalidArgument "FastCDC avg chunk size must be <= max chunk size")
  failIf (p.maxChunkSizeBytes > 8 * 1024 * 1024)
    (.invalidArgument "FastCDC max chunk size must be <= 8 MiB")

theorem validateFastCdcChunkerParameters_ok {p : FastCdcParameters} :
    validateFastCdcChunkerParameters p = .ok () ↔ validateFastCdcParameters p = .ok () := by
  simp [validateFastCdcChunkerParameters, validateFastCdcParameters, bind_eq_ok]

/-- Between two calls the carried buffer is shorter than the largest chunk. -/
structure FastCdcChunker where
  parameters : FastCdcParameters
  buffer : List UInt8
  gearHash : BitVec 64
  nextChunkOffset : Nat
  finalized : Bool
  valid : validateFastCdcChunkerParameters parameters = .ok ()
  room : buffer.length < parameters.maxChunkSizeBytes
  deriving DecidableEq

theorem maxChunkSizeBytes_pos {p : FastCdcParameters}
    (h : validateFastCdcChunkerParameters p = .ok ()) : 0 < p.maxChunkSizeBytes := by
  have hvalid := validateFastCdcParameters_ok.mp (validateFastCdcChunkerParameters_ok.mp h)
  omega

namespace FastCdcChunker

def make (parameters : FastCdcParameters) : Except ChunkerExc FastCdcChunker :=
  match h : validateFastCdcChunkerParameters parameters with
  | .error e => .error e
  | .ok () => .ok ⟨parameters, [], 0#64, 0, false, h, maxChunkSizeBytes_pos h⟩

def emitCurrentChunk (c : FastCdcChunker) (buffer : List UInt8) : FastCdcChunker × ChunkBuffer :=
  ({ c with
      buffer := []
      gearHash := 0#64
      nextChunkOffset := c.nextChunkOffset + buffer.length
      room := Nat.zero_lt_of_lt c.room },
    ⟨c.nextChunkOffset, buffer⟩)

def cutsAt (p : FastCdcParameters) (bufferedSize : Nat) (gearHash : BitVec 64) : Bool :=
  if bufferedSize < p.minChunkSizeBytes then false
  else if bufferedSize ≥ p.maxChunkSizeBytes then true
  else if bufferedSize < p.avgChunkSizeBytes then
    gearHash &&& computeMaskS p.avgChunkSizeBytes == 0#64
  else gearHash &&& computeMaskL p.avgChunkSizeBytes == 0#64

theorem cutsAt_min {p : FastCdcParameters} {bufferedSize : Nat} {gearHash : BitVec 64}
    (h : cutsAt p bufferedSize gearHash = true) : p.minChunkSizeBytes ≤ bufferedSize := by
  unfold cutsAt at h
  split at h
  · cases h
  · rename_i hmin
    exact Nat.le_of_not_lt hmin

theorem cutsAt_max {p : FastCdcParameters} {bufferedSize : Nat} {gearHash : BitVec 64}
    (hmin : p.minChunkSizeBytes ≤ bufferedSize) (hmax : p.maxChunkSizeBytes ≤ bufferedSize) :
    cutsAt p bufferedSize gearHash = true := by
  simp [cutsAt, Nat.not_lt.mpr hmin, hmax]

def absorb (c : FastCdcChunker) (byte : UInt8) : FastCdcChunker × List ChunkBuffer :=
  let gearHash := rollGearHash c.gearHash byte
  if h : cutsAt c.parameters (c.buffer ++ [byte]).length gearHash = true then
    let next := c.emitCurrentChunk (c.buffer ++ [byte])
    (next.1, [next.2])
  else
    ({ c with
        buffer := c.buffer ++ [byte]
        gearHash := gearHash
        room := by
          have hvalid := validateFastCdcParameters_ok.mp
            (validateFastCdcChunkerParameters_ok.mp c.valid)
          exact Nat.lt_of_not_le fun hmax => h (cutsAt_max (by omega) hmax) }, [])

def update (c : FastCdcChunker) (data : List UInt8) :
    Except ChunkerExc (FastCdcChunker × List ChunkBuffer) :=
  if c.finalized then .error (.logicError "cannot update a finalized FastCDC chunker")
  else .ok (feed absorb c data)

/-- The chunk that `finalize` emits, if any. -/
def lastChunk (c : FastCdcChunker) : List ChunkBuffer :=
  if c.buffer = [] then [] else [(c.emitCurrentChunk c.buffer).2]

def finalize (c : FastCdcChunker) : Except ChunkerExc (FastCdcChunker × List ChunkBuffer) :=
  if c.finalized then .error (.logicError "FastCDC chunker has already been finalized")
  else
    let emitted := if c.buffer = [] then c else (c.emitCurrentChunk c.buffer).1
    .ok ({ emitted with finalized := true }, c.lastChunk)

/-! ## Sizes -/

variable {c : FastCdcChunker}

/-- The sizes of the chunks that are cut before the end of the input. -/
def SizeOk (p : FastCdcParameters) (size : Nat) : Prop :=
  p.minChunkSizeBytes ≤ size ∧ size ≤ p.maxChunkSizeBytes

theorem absorb_spec (c : FastCdcChunker) (byte : UInt8) :
    ((c.absorb byte).1.parameters = c.parameters ∧ (c.absorb byte).1.finalized = c.finalized) ∧
      ∀ chunk ∈ (c.absorb byte).2, SizeOk c.parameters chunk.bytes.length := by
  unfold absorb
  simp only
  split
  · rename_i hcut
    refine ⟨⟨rfl, rfl⟩, fun chunk hchunk => ?_⟩
    rw [List.mem_singleton.mp hchunk]
    have hroom := c.room
    refine ⟨cutsAt_min hcut, ?_⟩
    simp only [emitCurrentChunk, List.length_append, List.length_singleton]
    omega
  · exact ⟨⟨rfl, rfl⟩, by simp⟩

theorem feed_absorb_spec (c : FastCdcChunker) (data : List UInt8) :
    ((feed absorb c data).1.parameters = c.parameters ∧
        (feed absorb c data).1.finalized = c.finalized) ∧
      ∀ chunk ∈ (feed absorb c data).2, SizeOk c.parameters chunk.bytes.length := by
  refine feed_invariant
    (P := fun s : FastCdcChunker => s.parameters = c.parameters ∧ s.finalized = c.finalized)
    ?_ ⟨rfl, rfl⟩ data
  rintro s byte ⟨hparameters, hfinalized⟩
  obtain ⟨⟨hp, hf⟩, hsize⟩ := s.absorb_spec byte
  rw [hparameters] at hp hsize
  rw [hfinalized] at hf
  exact ⟨⟨hp, hf⟩, hsize⟩

theorem size_of_lastChunk {chunk : ChunkBuffer} (h : chunk ∈ c.lastChunk) :
    0 < chunk.bytes.length ∧ chunk.bytes.length < c.parameters.maxChunkSizeBytes := by
  unfold lastChunk at h
  split at h
  · cases h
  · rename_i hbuffer
    rw [List.mem_singleton.mp h]
    exact ⟨List.length_pos_iff.mpr hbuffer, c.room⟩

end FastCdcChunker

end AiArtifactStore.Chunking
