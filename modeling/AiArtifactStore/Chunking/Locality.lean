import Mathlib.Data.List.DropRight
import AiArtifactStore.Chunking.Streams

/-!
# FastCDC cuts are local

The masks keep low bits of the gear hash, and the low bits forget old bytes: each byte
shifts them out by one.  A cut therefore depends on a few last bytes of the chunk, and two
streams with a common end are cut alike once a boundary falls at the same place of it.
-/

namespace AiArtifactStore.Chunking.FastCdcChunker

open AiArtifactStore.Foundation
open AiArtifactStore.Metadata

/-! ## The low bits of the gear hash -/

theorem toNat_rollGearHash_mod {m : Nat} (hm : m < 64) (gearHash : BitVec 64) (byte : UInt8) :
    (rollGearHash gearHash byte).toNat % 2 ^ (m + 1) =
      (2 * (gearHash.toNat % 2 ^ m) + (gearEntry byte).toNat) % 2 ^ (m + 1) := by
  have hdvd : 2 ^ (m + 1) ∣ 2 ^ 64 := Nat.pow_dvd_pow 2 hm
  have hdouble : 2 * (gearHash.toNat % 2 ^ m) = (2 * gearHash.toNat) % 2 ^ (m + 1) := by
    rw [Nat.pow_succ', Nat.mul_mod_mul_left]
  rw [rollGearHash, BitVec.toNat_add, Nat.mod_mod_of_dvd _ hdvd, BitVec.toNat_shiftLeft,
    Nat.shiftLeft_eq, Nat.pow_one, Nat.mul_comm, Nat.add_mod, Nat.mod_mod_of_dvd _ hdvd, hdouble,
    ← Nat.add_mod, Nat.mod_add_mod]

/-- The lowest `m` bits know the last `m` bytes only. -/
theorem gearHashOf_mod {m : Nat} (hm : m ≤ 64) {chunk chunk' : List UInt8}
    (h : chunk.rtake m = chunk'.rtake m) :
    (gearHashOf chunk).toNat % 2 ^ m = (gearHashOf chunk').toNat % 2 ^ m := by
  induction m generalizing chunk chunk' with
  | zero => rw [Nat.pow_zero, Nat.mod_one, Nat.mod_one]
  | succ m ih =>
      rcases List.eq_nil_or_concat' chunk with rfl | ⟨front, byte, rfl⟩
      · rcases List.eq_nil_or_concat' chunk' with rfl | ⟨front', byte', rfl⟩
        · rfl
        · rw [List.rtake_concat_succ] at h
          simp at h
      · rcases List.eq_nil_or_concat' chunk' with rfl | ⟨front', byte', rfl⟩
        · rw [List.rtake_concat_succ] at h
          simp at h
        · rw [List.rtake_concat_succ, List.rtake_concat_succ] at h
          obtain ⟨hfront, hbyte⟩ := List.append_inj' h rfl
          obtain rfl := List.singleton_inj.mp hbyte
          rw [gearHashOf_concat, gearHashOf_concat, toNat_rollGearHash_mod hm,
            toNat_rollGearHash_mod hm, ih (Nat.le_of_succ_le hm) hfront]

/-! ## The masks -/

theorem toNat_mask {m : Nat} (hm : m < 64) : ((1#64 <<< m) - 1#64).toNat = 2 ^ m - 1 := by
  have hpow : 2 ^ m < 2 ^ 64 := Nat.pow_lt_pow_right (by decide) hm
  have hpos : 0 < 2 ^ m := Nat.two_pow_pos m
  have hshift : (1#64 <<< m).toNat = 2 ^ m := by
    rw [BitVec.toNat_shiftLeft, Nat.shiftLeft_eq]
    simpa using hpow
  rw [BitVec.toNat_sub_of_le (by rw [BitVec.le_def, hshift]; exact hpos), hshift]
  rfl

theorem and_mask_eq_zero_iff {m : Nat} (hm : m < 64) (gearHash : BitVec 64) :
    gearHash &&& ((1#64 <<< m) - 1#64) = 0#64 ↔ gearHash.toNat % 2 ^ m = 0 := by
  rw [← BitVec.toNat_inj, BitVec.toNat_and, toNat_mask hm, Nat.and_two_pow_sub_one_eq_mod]
  rfl

theorem and_mask_congr {m window : Nat} (hm : m ≤ window) (hwindow : window < 64)
    {chunk chunk' : List UInt8} (h : chunk.rtake window = chunk'.rtake window) :
    (gearHashOf chunk &&& ((1#64 <<< m) - 1#64) == 0#64) =
      (gearHashOf chunk' &&& ((1#64 <<< m) - 1#64) == 0#64) := by
  have hmod := gearHashOf_mod (Nat.le_of_lt hwindow) h
  have hdvd : 2 ^ m ∣ 2 ^ window := Nat.pow_dvd_pow 2 hm
  have hlow : (gearHashOf chunk).toNat % 2 ^ m = (gearHashOf chunk').toNat % 2 ^ m := by
    rw [← Nat.mod_mod_of_dvd _ hdvd, hmod, Nat.mod_mod_of_dvd _ hdvd]
  rw [Bool.eq_iff_iff, beq_iff_eq, beq_iff_eq, and_mask_eq_zero_iff (by omega),
    and_mask_eq_zero_iff (by omega), hlow]

/-! ## The window -/

variable {p : FastCdcParameters}

theorem avgChunkSizeBytes_eq (h : validateFastCdcChunkerParameters p = .ok ()) :
    p.avgChunkSizeBytes = 2 ^ p.avgChunkSizeBytes.log2 := by
  have hvalid := validateFastCdcParameters_ok.mp (validateFastCdcChunkerParameters_ok.mp h)
  have hpower : p.avgChunkSizeBytes.isPowerOfTwo := by
    rw [← Nat.ne_zero_and_sub_one_eq_zero_iff_isPowerOfTwo]
    simpa [isPowerOfTwo] using hvalid.2.2.1
  obtain ⟨k, hk⟩ := hpower
  rw [hk, Nat.log2_two_pow]

theorem log2_avgChunkSizeBytes_lt (h : validateFastCdcChunkerParameters p = .ok ()) :
    p.avgChunkSizeBytes.log2 ≤ 23 ∧ p.avgChunkSizeBytes.log2 + 1 ≤ p.minChunkSizeBytes := by
  have hvalid := validateFastCdcParameters_ok.mp (validateFastCdcChunkerParameters_ok.mp h)
  have hlog : p.avgChunkSizeBytes.log2 < 24 := by
    rw [Nat.log2_lt (by omega)]
    omega
  omega

theorem countrZero_avgChunkSizeBytes (h : validateFastCdcChunkerParameters p = .ok ()) :
    countrZero p.avgChunkSizeBytes = p.avgChunkSizeBytes.log2 := by
  have hlog := (log2_avgChunkSizeBytes_lt h).1
  have hfind : (List.range 64).find? (fun i => (2 ^ p.avgChunkSizeBytes.log2).testBit i) =
      some p.avgChunkSizeBytes.log2 := by
    rw [List.find?_range_eq_some]
    simp only [Nat.testBit_two_pow, decide_eq_true_eq, Bool.not_eq_true', decide_eq_false_iff_not,
      List.mem_range, true_and]
    exact ⟨by omega, fun i hi => by omega⟩
  rw [countrZero]
  nth_rewrite 1 [avgChunkSizeBytes_eq h]
  rw [hfind, Option.getD_some]

theorem closes_congr (h : validateFastCdcChunkerParameters p = .ok ())
    {chunk chunk' : List UInt8} (hlength : chunk.length = chunk'.length)
    (hlast : chunk.rtake (p.avgChunkSizeBytes.log2 + 1) =
      chunk'.rtake (p.avgChunkSizeBytes.log2 + 1)) :
    closes p chunk = closes p chunk' := by
  have hlog := (log2_avgChunkSizeBytes_lt h).1
  have hmask : ∀ m, m ≤ p.avgChunkSizeBytes.log2 + 1 →
      (gearHashOf chunk &&& ((1#64 <<< m) - 1#64) == 0#64) =
        (gearHashOf chunk' &&& ((1#64 <<< m) - 1#64) == 0#64) :=
    fun m hm => and_mask_congr hm (by omega) hlast
  rw [closes, closes, cutsAt, cutsAt, hlength, computeMaskS, computeMaskL,
    countrZero_avgChunkSizeBytes h, hmask _ (Nat.le_refl _), hmask _ (by omega)]

/-! ## Locality -/

/-- The chunker after some bytes, with no `finalize`. -/
def after (p : FastCdcParameters) (h : validateFastCdcChunkerParameters p = .ok ())
    (data : List UInt8) : FastCdcChunker :=
  (feed absorb ⟨p, [], 0#64, 0, false, h, maxChunkSizeBytes_pos h⟩ data).1

theorem open_after (h : validateFastCdcChunkerParameters p = .ok ()) (data : List UInt8) :
    Open p (after p h data) := open_feed data ⟨rfl, rfl, rfl⟩

theorem absorb_cuts_iff {c : FastCdcChunker} (byte : UInt8) (h : Open p c) :
    (c.absorb byte).2 ≠ [] ↔ closes p (c.buffer ++ [byte]) = true := by
  rw [(absorb_collects byte h).chunks_eq]
  cases hcloses : closes p (c.buffer ++ [byte]) with
  | true =>
      rw [collect_of_closes hcloses]
      simp [layOut]
  | false =>
      rw [collect_of_open hcloses]
      simp [layOut]

/-! ## Two streams with a common end -/

def BoundaryAt (chunks : List ChunkBuffer) (position : Nat) : Prop :=
  position = 0 ∨ ∃ chunk ∈ chunks, chunk.offset + chunk.bytes.length = position

def chunksFrom (position : Nat) (chunks : List ChunkBuffer) : List ChunkBuffer :=
  chunks.filter fun chunk => position ≤ chunk.offset

def shift (distance : Nat) (chunk : ChunkBuffer) : ChunkBuffer :=
  { chunk with offset := distance + chunk.offset }

theorem map_shift_layOut (distance start : Nat) (contents : List (List UInt8)) :
    (layOut start contents).map (shift distance) = layOut (distance + start) contents := by
  induction contents generalizing start with
  | nil => rfl
  | cons bytes contents ih =>
      rw [layOut, List.map_cons, ih, layOut, Nat.add_assoc]
      rfl

theorem offset_of_mem_layOut {start : Nat} {contents : List (List UInt8)} {chunk : ChunkBuffer}
    (h : chunk ∈ layOut start contents) :
    start ≤ chunk.offset ∧
      chunk.offset + chunk.bytes.length ≤ start + contents.flatten.length := by
  induction contents generalizing start with
  | nil => cases h
  | cons bytes contents ih =>
      rw [List.flatten_cons, List.length_append]
      rcases List.mem_cons.mp h with rfl | h
      · exact ⟨Nat.le_refl start, by simp only; omega⟩
      · have hrest := ih h
        omega

/-- The contents before and after the end of a chunk. -/
theorem split_at_chunk {start : Nat} {contents : List (List UInt8)} {chunk : ChunkBuffer}
    (h : chunk ∈ layOut start contents) :
    ∃ before after, contents = before ++ after ∧
      start + before.flatten.length = chunk.offset + chunk.bytes.length := by
  induction contents generalizing start with
  | nil => cases h
  | cons bytes contents ih =>
      rcases List.mem_cons.mp h with rfl | h
      · exact ⟨[bytes], contents, rfl, by simp⟩
      · obtain ⟨before, after, rfl, hlength⟩ := ih h
        refine ⟨bytes :: before, after, rfl, ?_⟩
        rw [List.flatten_cons, List.length_append, ← hlength, Nat.add_assoc]

theorem chunksFrom_layOut {before after : List (List UInt8)}
    (hnonempty : ∀ bytes ∈ before, bytes ≠ []) :
    chunksFrom before.flatten.length (layOut 0 (before ++ after)) =
      layOut before.flatten.length after := by
  rw [chunksFrom, layOut_append, List.filter_append, Nat.zero_add]
  have hbefore : (layOut 0 before).filter (fun chunk => before.flatten.length ≤ chunk.offset) =
      [] := by
    rw [List.filter_eq_nil_iff]
    intro chunk hchunk
    have hend := (offset_of_mem_layOut hchunk).2
    have hlength := List.length_pos_iff.mpr (hnonempty _ (bytes_mem_of_mem_layOut hchunk))
    rw [decide_eq_true_iff]
    omega
  have hafter : (layOut before.flatten.length after).filter
      (fun chunk => before.flatten.length ≤ chunk.offset) =
        layOut before.flatten.length after := by
    rw [List.filter_eq_self]
    exact fun chunk hchunk => decide_eq_true (offset_of_mem_layOut hchunk).1
  rw [hbefore, hafter, List.nil_append]

theorem chunksFrom_boundary {closes : List UInt8 → Bool} {data : List UInt8} {position : Nat}
    (h : BoundaryAt (layOut 0 (segments closes data)) position) :
    chunksFrom position (layOut 0 (segments closes data)) =
      layOut position (segments closes (data.drop position)) := by
  obtain ⟨before, after, hsegments, rfl⟩ : ∃ before after,
      segments closes data = before ++ after ∧ before.flatten.length = position := by
    rcases h with rfl | ⟨chunk, hchunk, rfl⟩
    · exact ⟨[], _, rfl, rfl⟩
    · obtain ⟨before, after, hsegments, hlength⟩ := split_at_chunk hchunk
      exact ⟨before, after, hsegments, by omega⟩
  have hnonempty : ∀ bytes ∈ before, bytes ≠ [] := by
    intro bytes hbytes
    have hmem : bytes ∈ segments closes data := by
      rw [hsegments]
      exact List.mem_append_left after hbytes
    exact ne_nil_of_mem_segments hmem
  rw [← segments_resume hsegments, hsegments]
  exact chunksFrom_layOut hnonempty

theorem chunksFrom_common_end {closes : List UInt8 → Bool} {x s : List UInt8} {k : Nat}
    (h : BoundaryAt (layOut 0 (segments closes (x ++ s))) (x.length + k)) :
    chunksFrom (x.length + k) (layOut 0 (segments closes (x ++ s))) =
      (layOut k (segments closes (s.drop k))).map (shift x.length) := by
  rw [chunksFrom_boundary h, map_shift_layOut, List.drop_length_add_append]

/-- Whether a byte closes the chunk depends on the length of the chunk and on its last bytes,
fewer than a chunk has.  Two streams with a common end have the same chunks from a common
boundary on. -/
theorem cuts_are_local (h : validateFastCdcChunkerParameters p = .ok ()) :
    p.avgChunkSizeBytes.log2 + 1 ≤ p.minChunkSizeBytes ∧
    (∀ (data data' : List UInt8) (byte byte' : UInt8),
      ((after p h data).buffer ++ [byte]).length = ((after p h data').buffer ++ [byte']).length →
      ((after p h data).buffer ++ [byte]).rtake (p.avgChunkSizeBytes.log2 + 1) =
        ((after p h data').buffer ++ [byte']).rtake (p.avgChunkSizeBytes.log2 + 1) →
      (((after p h data).absorb byte).2 ≠ [] ↔ ((after p h data').absorb byte').2 ≠ [])) ∧
    ∀ (x y s : List UInt8) (k : Nat) (pieces pieces' : List (List UInt8))
      (chunks chunks' : List ChunkBuffer),
      pieces.flatten = x ++ s → chunksOf p pieces = .ok chunks →
      pieces'.flatten = y ++ s → chunksOf p pieces' = .ok chunks' →
      BoundaryAt chunks (x.length + k) → BoundaryAt chunks' (y.length + k) →
      ∃ later : List ChunkBuffer, chunksFrom (x.length + k) chunks = later.map (shift x.length) ∧
        chunksFrom (y.length + k) chunks' = later.map (shift y.length) := by
  refine ⟨(log2_avgChunkSizeBytes_lt h).2, ?_, ?_⟩
  · intro data data' byte byte' hlength hlast
    rw [absorb_cuts_iff byte (open_after h data), absorb_cuts_iff byte' (open_after h data'),
      closes_congr h hlength hlast]
  · intro x y s k pieces pieces' chunks chunks' hdata hchunks hdata' hchunks' hboundary hboundary'
    rw [chunksOf_eq h, hdata] at hchunks
    rw [chunksOf_eq h, hdata'] at hchunks'
    obtain rfl := Except.ok.inj hchunks
    obtain rfl := Except.ok.inj hchunks'
    exact ⟨_, chunksFrom_common_end hboundary, chunksFrom_common_end hboundary'⟩

theorem cuts_are_local_sample :
    ∃ later : List ChunkBuffer,
      chunksFrom 64 [⟨0, List.replicate 64 0⟩, ⟨64, [7, 8]⟩] = later.map (shift 64) ∧
        chunksFrom 0 [⟨0, [7, 8]⟩] = later.map (shift 0) :=
  (cuts_are_local (p := ⟨64, 64, 64⟩) (by decide)).2.2 (List.replicate 64 0) [] [7, 8] 0
    [List.replicate 64 0, [7, 8]] [[7], [8]] _ _ (by decide) (by decide +kernel) (by decide) (by rfl)
    (.inr ⟨⟨0, List.replicate 64 0⟩, by decide, by decide⟩) (.inl rfl)

end AiArtifactStore.Chunking.FastCdcChunker
