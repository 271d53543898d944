import AiArtifactStore.Foundation.Ranges
import AiArtifactStore.Metadata.ObjectLayout

/-!
# Layouts in 64-bit arithmetic

The constructors of `ObjectLayout` and of its descriptor on the words of a request, a database
row or a response, and the layouts over natural numbers that they compute.
-/

namespace AiArtifactStore.Metadata

open AiArtifactStore.Foundation
open AiArtifactStore.Identity

/-- `ChunkRef`, before any check. -/
structure RawChunkRef where
  chunkId : String
  offset : UInt64
  size : UInt64
  deriving DecidableEq, Repr

def isValidChunkId (chunkId : String) : Bool :=
  chunkId.toList.length == 64 && chunkId.toList.all fun character =>
    ('0' ≤ character && character ≤ '9') || ('a' ≤ character && character ≤ 'f')

def validateRawChunksFrom (add : Addition) (expectedOffset : UInt64) :
    List RawChunkRef → Option (Except Exc Unit)
  | [] => some (.ok ())
  | chunk :: chunks =>
      if ¬isValidChunkId chunk.chunkId then
        some (.error (.invalidArgument "object layout contains an invalid chunk ID"))
      else if chunk.size = 0 then
        some (.error (.invalidArgument "object layout contains a zero-sized chunk"))
      else if chunk.offset ≠ expectedOffset then
        some (.error (.invalidArgument "object layout chunks must be contiguous and ordered"))
      else if chunk.size > UInt64.ofNat uint64Max - expectedOffset then
        some (.error (.overflowError "object layout size exceeds uint64_t range"))
      else do
        let expectedOffset ← add expectedOffset chunk.size
        validateRawChunksFrom add expectedOffset chunks

structure RawObjectLayout where
  chunks : List RawChunkRef
  totalSize : UInt64
  deriving DecidableEq

def rawTotalSize (add : Addition) (chunks : List RawChunkRef) : Option UInt64 :=
  match chunks.getLast? with
  | none => some 0
  | some last => add last.offset last.size

def RawObjectLayout.make (add : Addition) (chunks : List RawChunkRef) :
    Option (Except Exc RawObjectLayout) := do
  match ← validateRawChunksFrom add 0 chunks with
  | .error e => return .error e
  | .ok () =>
      let totalSize ← rawTotalSize add chunks
      return .ok ⟨chunks, totalSize⟩

/-- The layout of a descriptor, as the handler that finalizes, the restore planner and the
decoders of plans build it for an object of the size given. -/
def RawObjectLayout.describe (add : Addition) (objectSize : UInt64) (chunks : List RawChunkRef) :
    Option (Except Exc RawObjectLayout) := do
  match ← make add chunks with
  | .error e => return .error e
  | .ok layout =>
      if objectSize ≠ layout.totalSize then
        return .error (.invalidArgument "object size must match object layout size")
      else return .ok layout

/-! ## Chunk ids -/

theorem isSome_ofHexDigit? (character : Char) :
    (ofHexDigit? character).isSome =
      (('0' ≤ character && character ≤ '9') || ('a' ≤ character && character ≤ 'f')) := by
  unfold ofHexDigit?
  rw [← Bool.decide_and, ← Bool.decide_and]
  by_cases hdigit : '0' ≤ character ∧ character ≤ '9'
  · rw [if_pos hdigit, decide_eq_true hdigit]
    rfl
  · rw [if_neg hdigit, decide_eq_false hdigit, Bool.false_or]
    by_cases hletter : 'a' ≤ character ∧ character ≤ 'f'
    · rw [if_pos hletter, decide_eq_true hletter]
      rfl
    · rw [if_neg hletter, decide_eq_false hletter]
      rfl

theorem isSome_ofHexDigitsFrom? (acc : Nat) (characters : List Char) :
    (ofHexDigitsFrom? acc characters).isSome =
      characters.all fun character => (ofHexDigit? character).isSome := by
  induction characters generalizing acc with
  | nil => rfl
  | cons character rest ih =>
      cases hdigit : ofHexDigit? character with
      | none => simp [ofHexDigitsFrom?, hdigit]
      | some d => simp [ofHexDigitsFrom?, hdigit, ih]

theorem isValidChunkId_eq (chunkId : String) :
    isValidChunkId chunkId = (ContentId.ofHex? chunkId).isSome := by
  unfold isValidChunkId ContentId.ofHex?
  by_cases hlength : chunkId.toList.length = 64
  · rw [if_pos hlength, Option.isSome_map, ofHexDigits?, isSome_ofHexDigitsFrom?]
    simp only [hlength, BEq.rfl, Bool.true_and, isSome_ofHexDigit?]
  · rw [if_neg hlength]
    simp [hlength]

/-! ## The layouts over natural numbers -/

structure RawChunkRef.Denotes (raw : RawChunkRef) (chunk : ChunkRef) : Prop where
  chunkId : ContentId.ofHex? raw.chunkId = some chunk.chunkId
  offset : raw.offset.toNat = chunk.offset
  size : raw.size.toNat = chunk.size

theorem validateChunksFrom_eq_ok {expectedOffset : Nat} {chunks : List ChunkRef}
    (h : expectedOffset ≤ uint64Max) :
    validateChunksFrom expectedOffset chunks = .ok () ↔
      (∀ chunk ∈ chunks, chunk.size ≠ 0) ∧
        Contiguous ChunkRef.offset ChunkRef.size expectedOffset chunks ∧
        expectedOffset + (chunks.map ChunkRef.size).sum ≤ uint64Max := by
  induction chunks generalizing expectedOffset with
  | nil => simpa [validateChunksFrom, contiguous_nil] using h
  | cons chunk chunks ih =>
      simp only [validateChunksFrom, bind_eq_ok, exists_unit, failIf_eq_ok, Decidable.not_not,
        Nat.not_lt, contiguous_cons, List.forall_mem_cons, List.map_cons, List.sum_cons]
      constructor
      · rintro ⟨hsize, hoffset, hfits, hrest⟩
        obtain ⟨hsizes, hcontiguous, htotal⟩ := (ih (by omega)).mp hrest
        exact ⟨⟨hsize, hsizes⟩, ⟨hoffset, hcontiguous⟩, by omega⟩
      · rintro ⟨⟨hsize, hsizes⟩, ⟨hoffset, hcontiguous⟩, htotal⟩
        exact ⟨hsize, hoffset, by omega, (ih (by omega)).mpr ⟨hsizes, hcontiguous, by omega⟩⟩

namespace ObjectLayout

theorem contiguous (layout : ObjectLayout) :
    Contiguous ChunkRef.offset ChunkRef.size 0 layout.chunks :=
  ((validateChunksFrom_eq_ok (Nat.zero_le _)).mp layout.valid).2.1

theorem totalSize_eq_sum (layout : ObjectLayout) :
    layout.totalSize = (layout.chunks.map ChunkRef.size).sum := by
  unfold totalSize
  cases hlast : layout.chunks.getLast? with
  | none => simp [List.getLast?_eq_none_iff.mp hlast]
  | some last =>
      have hend := layout.contiguous.end_last hlast
      simpa using hend

theorem totalSize_le (layout : ObjectLayout) : layout.totalSize ≤ uint64Max := by
  have htotal := ((validateChunksFrom_eq_ok (Nat.zero_le _)).mp layout.valid).2.2
  rw [totalSize_eq_sum]
  omega

theorem end_le_totalSize {layout : ObjectLayout} {chunk : ChunkRef} (h : chunk ∈ layout.chunks) :
    chunk.offset + chunk.size ≤ layout.totalSize := by
  have hend := layout.contiguous.end_le h
  rwa [Nat.zero_add, ← layout.totalSize_eq_sum] at hend

theorem length_le_totalSize (layout : ObjectLayout) :
    layout.chunks.length ≤ layout.totalSize := by
  rw [layout.totalSize_eq_sum, ← List.length_map ChunkRef.size]
  refine List.length_le_sum_of_one_le _ fun size hsize => ?_
  obtain ⟨chunk, hchunk, rfl⟩ := List.mem_map.mp hsize
  exact size_pos hchunk

end ObjectLayout

/-- The guard of the constructor, without 64-bit arithmetic. -/
theorem exceeds_iff (expectedOffset size : UInt64) :
    size > UInt64.ofNat uint64Max - expectedOffset ↔
      size.toNat > uint64Max - expectedOffset.toNat := by
  have hmax : (UInt64.ofNat uint64Max).toNat = uint64Max := rfl
  have hle : expectedOffset.toNat ≤ uint64Max := Nat.le_of_lt_succ expectedOffset.toNat_lt
  have hsub : (UInt64.ofNat uint64Max - expectedOffset).toNat =
      uint64Max - expectedOffset.toNat := by
    rw [UInt64.toNat_sub_of_le _ _ (by rwa [UInt64.le_iff_toNat_le, hmax]), hmax]
  rw [gt_iff_lt, UInt64.lt_iff_toNat_lt, hsub]

theorem sum_lt_of_not_exceeds {expectedOffset size : UInt64}
    (h : ¬size > UInt64.ofNat uint64Max - expectedOffset) :
    expectedOffset.toNat + size.toNat < 2 ^ 64 := by
  have hle : expectedOffset.toNat ≤ uint64Max := Nat.le_of_lt_succ expectedOffset.toNat_lt
  rw [exceeds_iff] at h
  simp only [uint64Max] at h hle
  omega

theorem validateRawChunksFrom_exact (expectedOffset : UInt64) (raws : List RawChunkRef) :
    validateRawChunksFrom addExact expectedOffset raws =
      validateRawChunksFrom addWrapping expectedOffset raws := by
  induction raws generalizing expectedOffset with
  | nil => rfl
  | cons raw raws ih =>
      simp only [validateRawChunksFrom]
      split_ifs with hid hsize hoffset hexceeds
      · rfl
      · rfl
      · rfl
      · rw [addExact_of_lt (sum_lt_of_not_exceeds hexceeds)]
        exact Option.bind_congr fun next _ => ih next
      · rfl

theorem validateRawChunksFrom_eq {raws : List RawChunkRef} {chunks : List ChunkRef}
    {expectedOffset : UInt64} (h : List.Forall₂ RawChunkRef.Denotes raws chunks) :
    validateRawChunksFrom addWrapping expectedOffset raws =
      some (validateChunksFrom expectedOffset.toNat chunks) := by
  induction h generalizing expectedOffset with
  | nil => rfl
  | @cons raw chunk raws chunks hchunk _ ih =>
      have hid : isValidChunkId raw.chunkId = true := by
        rw [isValidChunkId_eq, hchunk.chunkId]
        rfl
      have hsize : raw.size = 0 ↔ chunk.size = 0 := by
        rw [← hchunk.size, ← UInt64.toNat_inj]
        rfl
      have hoffset : raw.offset ≠ expectedOffset ↔ chunk.offset ≠ expectedOffset.toNat := by
        rw [← hchunk.offset, Ne, Ne, UInt64.toNat_inj]
      have hfits := exceeds_iff expectedOffset raw.size
      rw [hchunk.size] at hfits
      simp only [validateRawChunksFrom, validateChunksFrom, hid, not_true_eq_false, if_false, hsize,
        hoffset, hfits]
      by_cases hzero : chunk.size = 0
      · simp only [if_pos hzero, failIf_of_true hzero, error_bind]
      by_cases hgap : chunk.offset ≠ expectedOffset.toNat
      · simp only [if_neg hzero, if_pos hgap, failIf_of_false hzero, failIf_of_true hgap, ok_bind,
          error_bind]
      by_cases hexceeds : chunk.size > uint64Max - expectedOffset.toNat
      · simp only [if_neg hzero, if_neg hgap, if_pos hexceeds, failIf_of_false hzero,
          failIf_of_false hgap, failIf_of_true hexceeds, ok_bind, error_bind]
      have hnext : (expectedOffset + raw.size).toNat = expectedOffset.toNat + chunk.size := by
        rw [toNat_add_of_lt (sum_lt_of_not_exceeds fun h => hexceeds (hfits.mp h)), hchunk.size]
      simp only [if_neg hzero, if_neg hgap, if_neg hexceeds, failIf_of_false hzero,
        failIf_of_false hgap, failIf_of_false hexceeds, ok_bind]
      rw [← hnext]
      exact ih

theorem denotes_of_validate {raws : List RawChunkRef} {expectedOffset : UInt64}
    (h : validateRawChunksFrom addWrapping expectedOffset raws = some (.ok ())) :
    ∃ chunks, List.Forall₂ RawChunkRef.Denotes raws chunks := by
  induction raws generalizing expectedOffset with
  | nil => exact ⟨[], .nil⟩
  | cons raw raws ih =>
      simp only [validateRawChunksFrom] at h
      split_ifs at h with hid hsize hoffset hexceeds
      · cases Option.some.inj h
      · cases Option.some.inj h
      · cases Option.some.inj h
      · obtain ⟨chunks, hchunks⟩ := ih h
        rw [isValidChunkId_eq] at hid
        obtain ⟨id, hid⟩ := Option.isSome_iff_exists.mp hid
        exact ⟨⟨id, raw.offset.toNat, raw.size.toNat⟩ :: chunks, .cons ⟨hid, rfl, rfl⟩ hchunks⟩
      · cases Option.some.inj h

structure WellFormedChunks (raws : List RawChunkRef) : Prop where
  chunkIds : ∀ raw ∈ raws, ∃ id : ContentId, id.hex = raw.chunkId
  sizes : ∀ raw ∈ raws, raw.size ≠ 0
  offsets : Contiguous (fun raw => raw.offset.toNat) (fun raw => raw.size.toNat) 0 raws
  total : (raws.map fun raw => raw.size.toNat).sum ≤ 2 ^ 64 - 1

theorem wellFormedChunks_of_denotes {raws : List RawChunkRef} {chunks : List ChunkRef}
    (h : List.Forall₂ RawChunkRef.Denotes raws chunks) :
    WellFormedChunks raws ↔ validateChunksFrom 0 chunks = .ok () := by
  have hmap : (raws.map fun raw => raw.size.toNat) = chunks.map ChunkRef.size :=
    map_eq_of_forall₂ h fun _ _ hraw => hraw.size
  have hoffsets : Contiguous (fun raw => raw.offset.toNat) (fun raw => raw.size.toNat) 0 raws ↔
      Contiguous ChunkRef.offset ChunkRef.size 0 chunks :=
    contiguous_congr h (fun _ _ hraw => hraw.offset) (fun _ _ hraw => hraw.size)
  have hids : ∀ raw ∈ raws, ∃ id : ContentId, id.hex = raw.chunkId := by
    have hboth := h.imp fun raw chunk hraw =>
      (⟨⟨chunk.chunkId, ContentId.hex_of_ofHex? hraw.chunkId⟩, hraw⟩ :
        (∃ id : ContentId, id.hex = raw.chunkId) ∧ raw.Denotes chunk)
    exact ((List.forall₂_and_left raws chunks).mp hboth).1
  have hsizes : (∀ raw ∈ raws, raw.size ≠ 0) ↔ ∀ chunk ∈ chunks, chunk.size ≠ 0 := by
    have hzero : (0 ∉ raws.map fun raw => raw.size.toNat) ↔ 0 ∉ chunks.map ChunkRef.size := by
      rw [hmap]
    simpa [List.mem_map, ← UInt64.toNat_inj] using hzero
  rw [validateChunksFrom_eq_ok (Nat.zero_le _), ← hsizes, ← hoffsets, ← hmap, Nat.zero_add]
  exact ⟨fun h => ⟨h.sizes, h.offsets, h.total⟩, fun h => ⟨hids, h.1, h.2.1, h.2.2⟩⟩

theorem exists_denotes {raws : List RawChunkRef}
    (h : ∀ raw ∈ raws, ∃ id : ContentId, id.hex = raw.chunkId) :
    ∃ chunks, List.Forall₂ RawChunkRef.Denotes raws chunks := by
  induction raws with
  | nil => exact ⟨[], .nil⟩
  | cons raw raws ih =>
      obtain ⟨chunks, hchunks⟩ := ih fun other hother => h other (by simp [hother])
      obtain ⟨id, hid⟩ := h raw (by simp)
      refine ⟨⟨id, raw.offset.toNat, raw.size.toNat⟩ :: chunks, .cons ⟨?_, rfl, rfl⟩ hchunks⟩
      rw [← hid]
      exact ContentId.ofHex?_hex id

namespace WellFormedChunks

variable {raws : List RawChunkRef}

theorem end_lt (h : WellFormedChunks raws) {raw : RawChunkRef} (hraw : raw ∈ raws) :
    raw.offset.toNat + raw.size.toNat < 2 ^ 64 := by
  have hend := h.offsets.end_le hraw
  have htotal := h.total
  omega

theorem rawTotalSize_eq (h : WellFormedChunks raws) :
    ∃ totalSize, rawTotalSize addWrapping raws = some totalSize ∧
      rawTotalSize addExact raws = some totalSize ∧
      totalSize.toNat = (raws.map fun raw => raw.size.toNat).sum := by
  unfold rawTotalSize
  cases hlast : raws.getLast? with
  | none =>
      rw [List.getLast?_eq_none_iff.mp hlast]
      exact ⟨0, rfl, rfl, rfl⟩
  | some last =>
      have hlt := h.end_lt (List.mem_of_getLast? hlast)
      refine ⟨last.offset + last.size, rfl, addExact_of_lt hlt, ?_⟩
      rw [toNat_add_of_lt hlt, h.offsets.end_last hlast, Nat.zero_add]

end WellFormedChunks

namespace RawObjectLayout

variable {raws : List RawChunkRef} {layout : RawObjectLayout}

theorem validate_ok_iff :
    validateRawChunksFrom addWrapping 0 raws = some (.ok ()) ↔ WellFormedChunks raws := by
  constructor
  · intro h
    obtain ⟨chunks, hchunks⟩ := denotes_of_validate h
    rw [validateRawChunksFrom_eq hchunks] at h
    exact (wellFormedChunks_of_denotes hchunks).mpr (Option.some.inj h)
  · intro h
    obtain ⟨chunks, hchunks⟩ := exists_denotes h.chunkIds
    rw [validateRawChunksFrom_eq hchunks]
    exact congrArg some ((wellFormedChunks_of_denotes hchunks).mp h)

theorem make_of_wellFormed (h : WellFormedChunks raws) :
    ∃ layout, make addWrapping raws = some (.ok layout) ∧ layout.chunks = raws ∧
      layout.totalSize.toNat = (raws.map fun raw => raw.size.toNat).sum := by
  obtain ⟨totalSize, hwrapping, -, hsum⟩ := h.rawTotalSize_eq
  refine ⟨⟨raws, totalSize⟩, ?_, rfl, hsum⟩
  simp only [make, validate_ok_iff.mpr h, hwrapping]
  rfl

theorem wellFormed_of_make (h : make addWrapping raws = some (.ok layout)) :
    WellFormedChunks raws := by
  unfold make at h
  obtain ⟨checked, hchecked, h⟩ := Option.bind_eq_some_iff.mp h
  cases checked with
  | error e => cases Option.some.inj h
  | ok done => exact validate_ok_iff.mp hchecked

/-- No sum of the constructor wraps around, whatever it is given. -/
theorem make_exact (raws : List RawChunkRef) : make addExact raws = make addWrapping raws := by
  unfold make
  rw [validateRawChunksFrom_exact]
  refine Option.bind_congr fun checked hchecked => ?_
  cases checked with
  | error e => rfl
  | ok done =>
      obtain ⟨totalSize, hwrapping, hexact, -⟩ :=
        (validate_ok_iff.mp hchecked).rawTotalSize_eq
      simp only [hwrapping, hexact]

theorem describe_exact (objectSize : UInt64) (raws : List RawChunkRef) :
    describe addExact objectSize raws = describe addWrapping objectSize raws := by
  rw [describe, describe, make_exact]

theorem make_of_describe {objectSize : UInt64}
    (h : describe addWrapping objectSize raws = some (.ok layout)) :
    make addWrapping raws = some (.ok layout) ∧ objectSize = layout.totalSize := by
  unfold describe at h
  obtain ⟨made, hmade, h⟩ := Option.bind_eq_some_iff.mp h
  cases made with
  | error e => cases Option.some.inj h
  | ok made =>
      simp only at h
      split at h
      · cases Option.some.inj h
      · rename_i hsize
        obtain rfl := Except.ok.inj (Option.some.inj h)
        exact ⟨hmade, not_not.mp hsize⟩

theorem totalSize_of_make (h : make addWrapping raws = some (.ok layout)) :
    layout.totalSize.toNat = (raws.map fun raw => raw.size.toNat).sum := by
  obtain ⟨made, hmade, -, hsum⟩ := make_of_wellFormed (wellFormed_of_make h)
  obtain rfl := Except.ok.inj (Option.some.inj (h.symm.trans hmade))
  exact hsum

theorem denotes_of_make (h : make addWrapping raws = some (.ok layout)) :
    ∃ denoted : ObjectLayout, List.Forall₂ RawChunkRef.Denotes raws denoted.chunks ∧
      layout.totalSize.toNat = denoted.totalSize := by
  have hformed := wellFormed_of_make h
  obtain ⟨chunks, hchunks⟩ := exists_denotes hformed.chunkIds
  refine ⟨⟨chunks, (wellFormedChunks_of_denotes hchunks).mp hformed⟩, hchunks, ?_⟩
  rw [totalSize_of_make h, ObjectLayout.totalSize_eq_sum]
  exact congrArg List.sum (map_eq_of_forall₂ hchunks fun _ _ hraw => hraw.size)

end RawObjectLayout

end AiArtifactStore.Metadata
