import Mathlib.Data.List.Induction
import Mathlib.Data.Nat.Digits.Defs
import Mathlib.Tactic.Ring

/-!
# Fixed-width encodings of naturals

Lowercase hexadecimal text and big-endian bytes of a stated width, most
significant digit first.
-/

namespace AiArtifactStore.Foundation

/-! ## Hexadecimal -/

def hexDigit (n : Nat) : Char := Nat.digitChar (n % 16)

def ofHexDigit? (c : Char) : Option Nat :=
  if '0' ≤ c ∧ c ≤ '9' then some (c.toNat - '0'.toNat)
  else if 'a' ≤ c ∧ c ≤ 'f' then some (10 + (c.toNat - 'a'.toNat))
  else none

def hexDigits : Nat → Nat → List Char
  | 0, _ => []
  | width + 1, n => hexDigits width (n / 16) ++ [hexDigit n]

def ofHexDigitsFrom? : Nat → List Char → Option Nat
  | acc, [] => some acc
  | acc, c :: cs =>
      match ofHexDigit? c with
      | none => none
      | some d => ofHexDigitsFrom? (16 * acc + d) cs

def ofHexDigits? (cs : List Char) : Option Nat := ofHexDigitsFrom? 0 cs

theorem ofHexDigit?_hexDigit (n : Nat) : ofHexDigit? (hexDigit n) = some (n % 16) := by
  have hall : ∀ d : Fin 16, ofHexDigit? (Nat.digitChar d) = some d.val := by decide
  exact hall ⟨n % 16, Nat.mod_lt _ (by omega)⟩

theorem ofHexDigit?_of_mem_hexDigits {width n : Nat} {c : Char} (h : c ∈ hexDigits width n) :
    ∃ d, ofHexDigit? c = some d := by
  induction width generalizing n with
  | zero => cases h
  | succ width ih =>
      rw [hexDigits, List.mem_append, List.mem_singleton] at h
      rcases h with h | rfl
      · exact ih h
      · exact ⟨_, ofHexDigit?_hexDigit n⟩

theorem length_hexDigits (width n : Nat) : (hexDigits width n).length = width := by
  induction width generalizing n with
  | zero => rfl
  | succ width ih => simp [hexDigits, ih]

theorem ofHexDigitsFrom?_append (acc : Nat) (xs ys : List Char) :
    ofHexDigitsFrom? acc (xs ++ ys) =
      (ofHexDigitsFrom? acc xs).bind fun a => ofHexDigitsFrom? a ys := by
  induction xs generalizing acc with
  | nil => rfl
  | cons c cs ih =>
      cases h : ofHexDigit? c with
      | none => simp [ofHexDigitsFrom?, h]
      | some d => simp [ofHexDigitsFrom?, h, ih]

theorem ofHexDigitsFrom?_hexDigits (width acc n : Nat) :
    ofHexDigitsFrom? acc (hexDigits width n) = some (16 ^ width * acc + n % 16 ^ width) := by
  induction width generalizing n with
  | zero => simp [hexDigits, ofHexDigitsFrom?, Nat.mod_one]
  | succ width ih =>
      simp only [hexDigits, ofHexDigitsFrom?_append, ih, Option.bind_some, ofHexDigitsFrom?,
        ofHexDigit?_hexDigit]
      have hmod : n % 16 ^ (width + 1) = 16 * (n / 16 % 16 ^ width) + n % 16 := by
        rw [Nat.pow_succ', Nat.mod_mul]
        ring
      rw [hmod, Nat.pow_succ]
      congr 1
      ring

theorem ofHexDigits?_hexDigits (width n : Nat) (h : n < 16 ^ width) :
    ofHexDigits? (hexDigits width n) = some n := by
  rw [ofHexDigits?, ofHexDigitsFrom?_hexDigits, Nat.mod_eq_of_lt h]
  simp

theorem hexDigit_of_ofHexDigit? {c : Char} {d : Nat} (h : ofHexDigit? c = some d) :
    d < 16 ∧ Nat.digitChar d = c := by
  have hdecimal : ∀ d : Fin 10, Nat.digitChar d = Char.ofNat (48 + d) := by decide
  have hletter : ∀ d : Fin 6, Nat.digitChar (10 + d) = Char.ofNat (97 + d) := by decide
  unfold ofHexDigit? at h
  split at h
  · rename_i hrange
    have hlow : 48 ≤ c.toNat := hrange.1
    have hhigh : c.toNat ≤ 57 := hrange.2
    have hd : c.toNat - 48 = d := Option.some.inj h
    refine ⟨by omega, ?_⟩
    rw [hdecimal ⟨d, by omega⟩, show 48 + d = c.toNat by omega, Char.ofNat_toNat]
  · split at h
    · rename_i hrange
      have hlow : 97 ≤ c.toNat := hrange.1
      have hhigh : c.toNat ≤ 102 := hrange.2
      have hd : 10 + (c.toNat - 97) = d := Option.some.inj h
      refine ⟨by omega, ?_⟩
      rw [← hd, hletter ⟨c.toNat - 97, by omega⟩, show 97 + (c.toNat - 97) = c.toNat by omega,
        Char.ofNat_toNat]
    · cases h

theorem hexDigits_of_ofHexDigits? {cs : List Char} {n : Nat} (h : ofHexDigits? cs = some n) :
    n < 16 ^ cs.length ∧ hexDigits cs.length n = cs := by
  induction cs using List.reverseRecOn generalizing n with
  | nil =>
      obtain rfl := Option.some.inj h
      exact ⟨Nat.one_pos, rfl⟩
  | append_singleton cs c ih =>
      rw [ofHexDigits?, ofHexDigitsFrom?_append] at h
      obtain ⟨high, hhigh, h⟩ := Option.bind_eq_some_iff.mp h
      obtain ⟨hbound, hdigits⟩ := ih hhigh
      cases hc : ofHexDigit? c with
      | none => simp [ofHexDigitsFrom?, hc] at h
      | some d =>
          obtain ⟨hd, hchar⟩ := hexDigit_of_ofHexDigit? hc
          simp only [ofHexDigitsFrom?, hc, Option.some.injEq] at h
          subst h
          rw [List.length_append, List.length_singleton, hexDigits, hexDigit]
          have hquotient : (16 * high + d) / 16 = high := by omega
          have hrest : (16 * high + d) % 16 = d := by omega
          rw [hquotient, hrest, hdigits, hchar, Nat.pow_succ]
          exact ⟨by omega, rfl⟩

/-! ## Big-endian bytes -/

def bigEndian : Nat → Nat → List UInt8
  | 0, _ => []
  | width + 1, n => bigEndian width (n / 256) ++ [UInt8.ofNat n]

theorem length_bigEndian (width n : Nat) : (bigEndian width n).length = width := by
  induction width generalizing n with
  | zero => rfl
  | succ width ih => simp [bigEndian, ih]

def asciiBytes (cs : List Char) : List UInt8 := cs.map fun c => UInt8.ofNat c.toNat

end AiArtifactStore.Foundation
