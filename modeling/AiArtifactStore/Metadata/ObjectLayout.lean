import AiArtifactStore.Identity.ContentId
import AiArtifactStore.Metadata.Exceptions

/-!
# Objects and their layouts

Chunk references, validated object layouts and the content-addressed layout
descriptor, for both chunking strategies.
-/

namespace AiArtifactStore.Metadata

open AiArtifactStore.Foundation
open AiArtifactStore.Identity

def uint64Max : Nat := 2 ^ 64 - 1

inductive ChunkingStrategy where
  | fixedSize
  | fastCdc
  deriving DecidableEq, Repr

/-- `chunking_strategy_code` -/
def ChunkingStrategy.code : ChunkingStrategy → Nat
  | .fixedSize => 1
  | .fastCdc => 2

structure FastCdcParameters where
  minChunkSizeBytes : Nat
  avgChunkSizeBytes : Nat
  maxChunkSizeBytes : Nat
  deriving DecidableEq, Repr

def isPowerOfTwo (value : Nat) : Bool := value != 0 && value &&& (value - 1) == 0

def validateFastCdcParameters (p : FastCdcParameters) : Except Exc Unit := do
  failIf (p.minChunkSizeBytes < 64)
    (.invalidArgument "FastCDC min chunk size must be at least 64 bytes")
  failIf (p.avgChunkSizeBytes < 64)
    (.invalidArgument "FastCDC avg chunk size must be at least 64 bytes")
  failIf (¬isPowerOfTwo p.avgChunkSizeBytes)
    (.invalidArgument "FastCDC avg chunk size must be a power of two")
  failIf (p.minChunkSizeBytes > p.avgChunkSizeBytes)
    (.invalidArgument "FastCDC min chunk size must be <= avg chunk size")
  failIf (p.avgChunkSizeBytes > p.maxChunkSizeBytes)
    (.invalidArgument "FastCDC avg chunk size must be <= max chunk size")
  failIf (p.maxChunkSizeBytes > 8 * 1024 * 1024)
    (.invalidArgument "FastCDC max chunk size must be <= 8 MiB")

theorem validateFastCdcParameters_ok {p : FastCdcParameters} :
    validateFastCdcParameters p = .ok () ↔
      64 ≤ p.minChunkSizeBytes ∧ 64 ≤ p.avgChunkSizeBytes ∧
        isPowerOfTwo p.avgChunkSizeBytes = true ∧
        p.minChunkSizeBytes ≤ p.avgChunkSizeBytes ∧
        p.avgChunkSizeBytes ≤ p.maxChunkSizeBytes ∧
        p.maxChunkSizeBytes ≤ 8 * 1024 * 1024 := by
  simp [validateFastCdcParameters, bind_eq_ok]

/-! ## Layouts -/

structure ChunkRef where
  chunkId : ContentId
  offset : Nat
  size : Nat
  deriving DecidableEq, Repr

def validateChunksFrom (expectedOffset : Nat) : List ChunkRef → Except Exc Unit
  | [] => .ok ()
  | chunk :: chunks => do
      failIf (chunk.size = 0)
        (.invalidArgument "object layout contains a zero-sized chunk")
      failIf (chunk.offset ≠ expectedOffset)
        (.invalidArgument "object layout chunks must be contiguous and ordered")
      failIf (chunk.size > uint64Max - expectedOffset)
        (.overflowError "object layout size exceeds uint64_t range")
      validateChunksFrom (expectedOffset + chunk.size) chunks

structure ObjectLayout where
  chunks : List ChunkRef
  valid : validateChunksFrom 0 chunks = .ok ()
  deriving DecidableEq

namespace ObjectLayout

def make (chunks : List ChunkRef) : Except Exc ObjectLayout :=
  match h : validateChunksFrom 0 chunks with
  | .error e => .error e
  | .ok () => .ok ⟨chunks, h⟩

def totalSize (layout : ObjectLayout) : Nat :=
  match layout.chunks.getLast? with
  | none => 0
  | some last => last.offset + last.size

theorem make_chunks (layout : ObjectLayout) : make layout.chunks = .ok layout := by
  unfold make
  split
  · rename_i e h
    rw [layout.valid] at h
    cases h
  · rfl

theorem chunks_of_make {refs : List ChunkRef} {layout : ObjectLayout}
    (h : make refs = .ok layout) : layout.chunks = refs := by
  unfold make at h
  split at h
  · cases h
  · obtain rfl := Except.ok.inj h
    rfl

theorem size_pos_from {expectedOffset : Nat} {chunks : List ChunkRef} {chunk : ChunkRef}
    (h : validateChunksFrom expectedOffset chunks = .ok ()) (hmem : chunk ∈ chunks) :
    0 < chunk.size := by
  induction chunks generalizing expectedOffset with
  | nil => simp at hmem
  | cons head rest ih =>
      simp only [validateChunksFrom, bind_eq_ok, exists_unit, failIf_eq_ok] at h
      rcases List.mem_cons.mp hmem with rfl | hmem
      · exact Nat.pos_of_ne_zero h.1
      · exact ih h.2.2.2 hmem

theorem size_pos {layout : ObjectLayout} {chunk : ChunkRef} (h : chunk ∈ layout.chunks) :
    0 < chunk.size :=
  size_pos_from layout.valid h

end ObjectLayout

structure StoredObject where
  objectId : ContentId
  totalSize : Nat
  deriving DecidableEq, Repr

/-! ## Layout descriptors -/

inductive LayoutChunking where
  | fixedSize
  | fastCdc (parameters : FastCdcParameters)
  deriving DecidableEq, Repr

namespace LayoutChunking

def strategy : LayoutChunking → ChunkingStrategy
  | .fixedSize => .fixedSize
  | .fastCdc _ => .fastCdc

def fastCdcParameters : LayoutChunking → Option FastCdcParameters
  | .fixedSize => none
  | .fastCdc p => some p

def validate : LayoutChunking → Except Exc Unit
  | .fixedSize => .ok ()
  | .fastCdc p => validateFastCdcParameters p

theorem validate_fixedSize : fixedSize.validate = .ok () := rfl

end LayoutChunking

structure ObjectLayoutDescriptor where
  object : StoredObject
  chunking : LayoutChunking
  layout : ObjectLayout
  chunkingValid : chunking.validate = .ok ()
  sizeMatches : object.totalSize = layout.totalSize
  deriving DecidableEq

namespace ObjectLayoutDescriptor

def make (object : StoredObject) (chunking : LayoutChunking) (layout : ObjectLayout) :
    Except Exc ObjectLayoutDescriptor :=
  match hc : chunking.validate with
  | .error e => .error e
  | .ok () =>
      if hs : object.totalSize = layout.totalSize then
        .ok ⟨object, chunking, layout, hc, hs⟩
      else .error (.invalidArgument "object size must match object layout size")

def objectId (d : ObjectLayoutDescriptor) : ContentId := d.object.objectId

def chunkingStrategy (d : ObjectLayoutDescriptor) : ChunkingStrategy := d.chunking.strategy

def formatVersion : Nat := 1

def magic : List UInt8 := asciiBytes "AISTORE_LAYOUT".toList

def serializeParameters : Option FastCdcParameters → List UInt8
  | none => []
  | some p =>
      bigEndian 8 p.minChunkSizeBytes ++ bigEndian 8 p.avgChunkSizeBytes ++
        bigEndian 8 p.maxChunkSizeBytes

def serializeChunk (chunk : ChunkRef) : List UInt8 :=
  chunk.chunkId.bytes ++ bigEndian 8 chunk.offset ++ bigEndian 8 chunk.size

/-- `serialize` -/
def canonicalBytes (d : ObjectLayoutDescriptor) : List UInt8 :=
  magic ++ bigEndian 4 formatVersion ++ d.objectId.bytes ++
    [UInt8.ofNat d.chunkingStrategy.code] ++ serializeParameters d.chunking.fastCdcParameters ++
    bigEndian 8 d.object.totalSize ++ bigEndian 8 d.layout.chunks.length ++
    d.layout.chunks.flatMap serializeChunk

def layoutId (env : Environment) (d : ObjectLayoutDescriptor) : ContentId :=
  env.contentId d.canonicalBytes

theorem make_self (d : ObjectLayoutDescriptor) : make d.object d.chunking d.layout = .ok d := by
  unfold make
  split
  · rename_i e h
    rw [d.chunkingValid] at h
    cases h
  · rw [dif_pos d.sizeMatches]

theorem fields_of_make {object : StoredObject} {chunking : LayoutChunking}
    {layout : ObjectLayout} {d : ObjectLayoutDescriptor}
    (h : make object chunking layout = .ok d) :
    d.object = object ∧ d.chunking = chunking ∧ d.layout = layout := by
  unfold make at h
  split at h
  · cases h
  · split at h
    · obtain rfl := Except.ok.inj h
      exact ⟨rfl, rfl, rfl⟩
    · cases h

end ObjectLayoutDescriptor

end AiArtifactStore.Metadata
