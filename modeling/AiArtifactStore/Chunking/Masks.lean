import AiArtifactStore.Chunking.Locality
import AiArtifactStore.Foundation.Contract

/-!
# The masks of a FastCDC chunker under construction

The constructor computes both masks in its member initialiser list, of an average size that
its body has not validated yet.  A shift of a 64-bit word by 64 bits or more has no value.
-/

namespace AiArtifactStore.Chunking

open AiArtifactStore.Foundation
open AiArtifactStore.Metadata
open FastCdcChunker (toNat_mask countrZero_avgChunkSizeBytes log2_avgChunkSizeBytes_lt)

def shiftOne (amount : BitVec 32) : Option (BitVec 64) :=
  if amount.toNat < 64 then some (1#64 <<< amount.toNat) else none

def evaluateMaskS (avgChunkSize : BitVec 64) : Option (BitVec 64) := do
  let bits := BitVec.ofNat 32 (countrZero avgChunkSize.toNat)
  let bit ← shiftOne (bits + 1#32)
  return bit - 1#64

def evaluateMaskL (avgChunkSize : BitVec 64) : Option (BitVec 64) := do
  let bits := BitVec.ofNat 32 (countrZero avgChunkSize.toNat)
  let bit ← shiftOne (bits - 1#32)
  return bit - 1#64

structure Constructed where
  chunker : FastCdcChunker
  maskS : BitVec 64
  maskL : BitVec 64

def construct (minChunkSize avgChunkSize maxChunkSize : BitVec 64) :
    Option (Except ChunkerExc Constructed) := do
  let maskS ← evaluateMaskS avgChunkSize
  let maskL ← evaluateMaskL avgChunkSize
  return do
    let chunker ← FastCdcChunker.make
      ⟨minChunkSize.toNat, avgChunkSize.toNat, maxChunkSize.toNat⟩
    return ⟨chunker, maskS, maskL⟩

/-! ## Trailing zeros -/

theorem countrZero_spec (value : Nat) :
    (countrZero value = 64 ∧ ∀ i < 64, value.testBit i = false) ∨
      (countrZero value < 64 ∧ value.testBit (countrZero value) = true ∧
        ∀ i < countrZero value, value.testBit i = false) := by
  unfold countrZero
  cases hfind : (List.range 64).find? fun i => value.testBit i with
  | none =>
      rw [List.find?_range_eq_none] at hfind
      exact .inl ⟨rfl, fun i hi => by simpa using hfind i hi⟩
  | some first =>
      rw [List.find?_range_eq_some] at hfind
      obtain ⟨hbit, hmem, hbefore⟩ := hfind
      exact .inr ⟨List.mem_range.mp hmem, hbit, fun i hi => by simpa using hbefore i hi⟩

theorem countrZero_le (value : Nat) : countrZero value ≤ 64 := by
  rcases countrZero_spec value with ⟨hlast, _⟩ | ⟨hlt, _, _⟩ <;> omega

theorem countrZero_eq_zero_iff (word : BitVec 64) :
    countrZero word.toNat = 0 ↔ word.toNat % 2 = 1 := by
  have hlowest : word.toNat % 2 = 1 ↔ word.toNat.testBit 0 = true := by
    rw [Nat.testBit_zero, decide_eq_true_iff]
  rw [hlowest]
  rcases countrZero_spec word.toNat with ⟨hlast, hzero⟩ | ⟨_, hbit, hzero⟩
  · rw [hlast, hzero 0 (by omega)]
    decide
  · constructor
    · intro h
      rwa [h] at hbit
    · intro h
      by_contra hpos
      rw [hzero 0 (Nat.pos_of_ne_zero hpos)] at h
      cases h

theorem countrZero_eq_last_iff (word : BitVec 64) :
    countrZero word.toNat = 64 ↔ word = 0#64 := by
  constructor
  · intro h
    rcases countrZero_spec word.toNat with ⟨_, hzero⟩ | ⟨hlt, _, _⟩
    · refine BitVec.eq_of_getLsbD_eq fun i hi => ?_
      rw [BitVec.getLsbD_zero]
      exact hzero i hi
    · omega
  · rintro rfl
    rfl

theorem countrZero_eq_highest_iff (word : BitVec 64) :
    countrZero word.toNat = 63 ↔ word = BitVec.twoPow 64 63 := by
  constructor
  · intro h
    rcases countrZero_spec word.toNat with ⟨hlast, _⟩ | ⟨_, hbit, hzero⟩
    · omega
    · rw [h] at hbit hzero
      refine BitVec.eq_of_getLsbD_eq fun i hi => ?_
      rw [BitVec.getLsbD_twoPow]
      by_cases hi' : i = 63
      · subst hi'
        exact hbit
      · have hlow : word.getLsbD i = false := hzero i (by omega)
        simp [hlow, Ne.symm hi']
  · rintro rfl
    rfl

/-! ## Shifts -/

theorem shiftOne_of_lt {amount : BitVec 32} (h : amount.toNat < 64) :
    shiftOne amount = some (1#64 <<< amount.toNat) := if_pos h

theorem shiftOne_of_le {amount : BitVec 32} (h : 64 ≤ amount.toNat) : shiftOne amount = none :=
  if_neg (Nat.not_lt.mpr h)

theorem evaluateMaskS_eq {avgChunkSize : BitVec 64} (h : countrZero avgChunkSize.toNat < 63) :
    evaluateMaskS avgChunkSize = some (computeMaskS avgChunkSize.toNat) := by
  have hamount : (BitVec.ofNat 32 (countrZero avgChunkSize.toNat) + 1#32).toNat =
      countrZero avgChunkSize.toNat + 1 := by
    simp only [BitVec.toNat_add, BitVec.toNat_ofNat]
    omega
  rw [evaluateMaskS, shiftOne_of_lt (by omega), hamount]
  rfl

theorem evaluateMaskS_eq_none {avgChunkSize : BitVec 64}
    (h : 63 ≤ countrZero avgChunkSize.toNat) : evaluateMaskS avgChunkSize = none := by
  have hle := countrZero_le avgChunkSize.toNat
  have hamount : (BitVec.ofNat 32 (countrZero avgChunkSize.toNat) + 1#32).toNat =
      countrZero avgChunkSize.toNat + 1 := by
    simp only [BitVec.toNat_add, BitVec.toNat_ofNat]
    omega
  rw [evaluateMaskS, shiftOne_of_le (by omega)]
  rfl

theorem evaluateMaskL_eq {avgChunkSize : BitVec 64} (h : 0 < countrZero avgChunkSize.toNat) :
    evaluateMaskL avgChunkSize = some (computeMaskL avgChunkSize.toNat) := by
  have hle := countrZero_le avgChunkSize.toNat
  have hamount : (BitVec.ofNat 32 (countrZero avgChunkSize.toNat) - 1#32).toNat =
      countrZero avgChunkSize.toNat - 1 := by
    simp only [BitVec.toNat_sub, BitVec.toNat_ofNat]
    omega
  rw [evaluateMaskL, shiftOne_of_lt (by omega), hamount]
  rfl

/-- The shift amount of an odd size wraps below zero. -/
theorem evaluateMaskL_eq_none {avgChunkSize : BitVec 64}
    (h : countrZero avgChunkSize.toNat = 0) : evaluateMaskL avgChunkSize = none := by
  have hamount : (BitVec.ofNat 32 (countrZero avgChunkSize.toNat) - 1#32).toNat = 2 ^ 32 - 1 := by
    rw [h]
    rfl
  rw [evaluateMaskL, shiftOne_of_le (by omega)]
  rfl

/-! ## Construction -/

theorem validateFastCdcChunkerParameters_within (p : FastCdcParameters) :
    Within (fun e => ∃ what, e = ChunkerExc.invalidArgument what) (fun _ => True)
      (validateFastCdcChunkerParameters p) := by
  have hinvalid (what : String) :
      ∃ what', ChunkerExc.invalidArgument what = .invalidArgument what' := ⟨what, rfl⟩
  simp only [validateFastCdcChunkerParameters, within_bind, within_failIf, hinvalid, implies_true]

def LowestBits (mask : BitVec 64) (count : Nat) : Prop :=
  ∀ i, mask.getLsbD i = decide (i < count)

theorem lowestBits_mask {m : Nat} (hm : m < 64) : LowestBits ((1#64 <<< m) - 1#64) m := by
  intro i
  rw [BitVec.getLsbD, toNat_mask hm, Nat.testBit_two_pow_sub_one]

/-- No shift without a value is evaluated, and the parameters are rejected or give the masks of
the average size. -/
def ConstructsSafely (minChunkSize avgChunkSize maxChunkSize : BitVec 64) : Prop :=
  (∃ what, construct minChunkSize avgChunkSize maxChunkSize =
      some (.error (.invalidArgument what))) ∨
    ∃ made, construct minChunkSize avgChunkSize maxChunkSize = some (.ok made) ∧
      made.chunker.parameters =
        ⟨minChunkSize.toNat, avgChunkSize.toNat, maxChunkSize.toNat⟩ ∧
      LowestBits made.maskS (avgChunkSize.toNat.log2 + 1) ∧
      LowestBits made.maskL (avgChunkSize.toNat.log2 - 1)

theorem constructsSafely_of_shifts {minChunkSize avgChunkSize maxChunkSize : BitVec 64}
    (hpos : 0 < countrZero avgChunkSize.toNat) (hlt : countrZero avgChunkSize.toNat < 63) :
    ConstructsSafely minChunkSize avgChunkSize maxChunkSize := by
  cases hvalid : validateFastCdcChunkerParameters
      ⟨minChunkSize.toNat, avgChunkSize.toNat, maxChunkSize.toNat⟩ with
  | error e =>
      have hwithin := validateFastCdcChunkerParameters_within
        ⟨minChunkSize.toNat, avgChunkSize.toNat, maxChunkSize.toNat⟩
      rw [hvalid, within_error] at hwithin
      obtain ⟨what, rfl⟩ := hwithin
      refine .inl ⟨what, ?_⟩
      rw [construct, evaluateMaskS_eq hlt, evaluateMaskL_eq hpos]
      simp [FastCdcChunker.make_error hvalid]
  | ok done =>
      have hlog := log2_avgChunkSizeBytes_lt hvalid
      have hzeros := countrZero_avgChunkSizeBytes hvalid
      simp only at hlog hzeros
      refine .inr ⟨⟨⟨_, [], 0#64, 0, false, hvalid, maxChunkSizeBytes_pos hvalid⟩,
        computeMaskS avgChunkSize.toNat, computeMaskL avgChunkSize.toNat⟩, ?_, rfl, ?_, ?_⟩
      · rw [construct, evaluateMaskS_eq hlt, evaluateMaskL_eq hpos]
        simp [FastCdcChunker.make_ok hvalid]
      · rw [computeMaskS, hzeros]
        exact lowestBits_mask (by omega)
      · rw [computeMaskL, hzeros]
        exact lowestBits_mask (by omega)

/-- Every shift of the constructor has a value exactly for the even sizes other than 0 and
2^63; the validation comes too late for the others. -/
theorem constructs_safely_iff (minChunkSize avgChunkSize maxChunkSize : BitVec 64) :
    ConstructsSafely minChunkSize avgChunkSize maxChunkSize ↔
      avgChunkSize.toNat % 2 = 0 ∧ avgChunkSize ≠ 0#64 ∧ avgChunkSize ≠ BitVec.twoPow 64 63 := by
  have hle := countrZero_le avgChunkSize.toNat
  have hodd := countrZero_eq_zero_iff avgChunkSize
  rw [Ne, ← countrZero_eq_last_iff, Ne, ← countrZero_eq_highest_iff]
  constructor
  · intro hsafe
    have hdefined : (construct minChunkSize avgChunkSize maxChunkSize).isSome := by
      rcases hsafe with ⟨what, h⟩ | ⟨made, h, _⟩ <;> rw [h] <;> rfl
    by_contra hbad
    by_cases hzero : countrZero avgChunkSize.toNat = 0
    · cases hmask : evaluateMaskS avgChunkSize <;>
        simp [construct, hmask, evaluateMaskL_eq_none hzero] at hdefined
    · rw [construct, evaluateMaskS_eq_none (by omega)] at hdefined
      cases hdefined
  · rintro ⟨heven, hlast, hhighest⟩
    exact constructsSafely_of_shifts (by omega) (by omega)

theorem construct_shifts_out_of_range : ¬ConstructsSafely 64#64 65#64 128#64 := by
  have hundefined : construct 64#64 65#64 128#64 = none := by rfl
  rintro (⟨what, h⟩ | ⟨made, h, _⟩) <;> rw [hundefined] at h <;> cases h

end AiArtifactStore.Chunking
