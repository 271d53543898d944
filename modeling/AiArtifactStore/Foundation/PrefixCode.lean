import AiArtifactStore.Foundation.Encoding

/-!
# Prefix codes

An encoding is a prefix code on a set of values when an encoded value, followed
by anything, determines both the value and what follows.  Fixed-width encodings
are prefix codes, and so are sequences, counted lists and length-prefixed strings
of prefix codes.
-/

namespace AiArtifactStore.Foundation

variable {α β γ τ : Type} {P : α → Prop} {Q : β → Prop}

def PrefixCode (P : α → Prop) (encode : α → List τ) : Prop :=
  ∀ a b, P a → P b → ∀ rest rest', encode a ++ rest = encode b ++ rest' → a = b ∧ rest = rest'

namespace PrefixCode

variable {encode : α → List τ} {encode' : β → List τ}

theorem injective (h : PrefixCode P encode) {a b : α} (ha : P a) (hb : P b)
    (heq : encode a = encode b) : a = b :=
  (h a b ha hb [] [] (by rw [heq])).1

theorem of_length {n : Nat} (hlength : ∀ a, P a → (encode a).length = n)
    (hinjective : ∀ a b, P a → P b → encode a = encode b → a = b) : PrefixCode P encode := by
  intro a b ha hb rest rest' heq
  obtain ⟨hcode, hrest⟩ := List.append_inj heq ((hlength a ha).trans (hlength b hb).symm)
  exact ⟨hinjective a b ha hb hcode, hrest⟩

theorem pair (h : PrefixCode P encode) (h' : PrefixCode Q encode') :
    PrefixCode (fun p : α × β => P p.1 ∧ Q p.2) fun p => encode p.1 ++ encode' p.2 := by
  rintro ⟨a, b⟩ ⟨a', b'⟩ ⟨ha, hb⟩ ⟨ha', hb'⟩ rest rest' heq
  simp only [List.append_assoc] at heq
  obtain ⟨rfl, hrest⟩ := h a a' ha ha' _ _ heq
  obtain ⟨rfl, hend⟩ := h' b b' hb hb' _ _ hrest
  exact ⟨rfl, hend⟩

theorem comap {f : γ → α} {R : γ → Prop} (h : PrefixCode P encode) (hf : ∀ c, R c → P (f c))
    (hinjective : ∀ c d, R c → R d → f c = f d → c = d) :
    PrefixCode R fun c => encode (f c) := by
  intro c d hc hd rest rest' heq
  obtain ⟨hcode, hrest⟩ := h _ _ (hf c hc) (hf d hd) _ _ heq
  exact ⟨hinjective c d hc hd hcode, hrest⟩

theorem flatMap (h : PrefixCode P encode) {xs ys : List α} (hlength : xs.length = ys.length)
    (hxs : ∀ x ∈ xs, P x) (hys : ∀ y ∈ ys, P y) {rest rest' : List τ}
    (heq : xs.flatMap encode ++ rest = ys.flatMap encode ++ rest') : xs = ys ∧ rest = rest' := by
  induction xs generalizing ys with
  | nil =>
      obtain rfl : ys = [] := List.eq_nil_of_length_eq_zero hlength.symm
      exact ⟨rfl, by simpa using heq⟩
  | cons x xs ih =>
      cases ys with
      | nil => cases hlength
      | cons y ys =>
          simp only [List.flatMap_cons, List.append_assoc] at heq
          obtain ⟨rfl, hrest⟩ := h x y (hxs x (by simp)) (hys y (by simp)) _ _ heq
          obtain ⟨rfl, hend⟩ := ih (Nat.succ.inj hlength) (fun a ha => hxs a (by simp [ha]))
            (fun a ha => hys a (by simp [ha])) hrest
          exact ⟨rfl, hend⟩

theorem counted {count : Nat → List τ} {R : Nat → Prop} (hcount : PrefixCode R count)
    (h : PrefixCode P encode) :
    PrefixCode (fun xs : List α => R xs.length ∧ ∀ x ∈ xs, P x)
      fun xs => count xs.length ++ xs.flatMap encode := by
  rintro xs ys ⟨hxsLength, hxs⟩ ⟨hysLength, hys⟩ rest rest' heq
  simp only [List.append_assoc] at heq
  obtain ⟨hlength, hrest⟩ := hcount _ _ hxsLength hysLength _ _ heq
  exact h.flatMap hlength hxs hys hrest

end PrefixCode

/-! ## Codes of bytes -/

theorem bigEndian_inj {width m n : Nat} (hm : m < 256 ^ width) (hn : n < 256 ^ width)
    (h : bigEndian width m = bigEndian width n) : m = n := by
  induction width generalizing m n with
  | zero => simp at hm hn; omega
  | succ width ih =>
      simp only [bigEndian] at h
      obtain ⟨hhigh, hlow⟩ := List.append_inj h (by simp [length_bigEndian])
      have hlow : m % 256 = n % 256 := by
        have := congrArg UInt8.toNat (List.singleton_inj.mp hlow)
        simpa using this
      have hdiv : m / 256 = n / 256 :=
        ih (Nat.div_lt_of_lt_mul (by rwa [Nat.pow_succ'] at hm))
          (Nat.div_lt_of_lt_mul (by rwa [Nat.pow_succ'] at hn)) hhigh
      omega

theorem prefixCode_bigEndian (width : Nat) :
    PrefixCode (fun n => n < 256 ^ width) (bigEndian width) :=
  .of_length (fun n _ => length_bigEndian width n) fun _ _ hm hn => bigEndian_inj hm hn

/-- A byte string after its length, in `width` bytes. -/
theorem prefixCode_bytes (width : Nat) :
    PrefixCode (fun bytes : List UInt8 => bytes.length < 256 ^ width)
      fun bytes => bigEndian width bytes.length ++ bytes := by
  have hbyte : PrefixCode (fun _ : UInt8 => True) fun byte => [byte] :=
    .of_length (fun _ _ => rfl) fun _ _ _ _ h => List.singleton_inj.mp h
  have hcounted := (prefixCode_bigEndian width).counted hbyte
  intro xs ys hxs hys rest rest' heq
  refine hcounted xs ys ⟨hxs, fun _ _ => trivial⟩ ⟨hys, fun _ _ => trivial⟩ rest rest' ?_
  simpa using heq

theorem toList_loop_toByteArray (bytes : ByteArray) (i : Nat) (acc : List UInt8) :
    ByteArray.toList.loop bytes i acc = acc.reverse ++ bytes.data.toList.drop i := by
  fun_induction ByteArray.toList.loop bytes i acc with
  | case1 i acc hi ih =>
      have hlt : i < bytes.data.toList.length := by simpa using hi
      rw [ih, List.drop_eq_getElem_cons hlt]
      have hget : bytes.get! i = bytes.data.toList[i] := by
        simp only [ByteArray.get!, Array.getElem_toList]
        exact getElem!_pos bytes.data i (by simpa using hi)
      simp [hget]
  | case2 i acc hi =>
      rw [List.drop_eq_nil_of_le (by simpa using hi), List.append_nil]

theorem toList_toUTF8 (s : String) : s.toUTF8.toList = s.toByteArray.data.toList := by
  rw [String.toUTF8_eq_toByteArray, ByteArray.toList, toList_loop_toByteArray]
  simp

theorem length_toUTF8 (s : String) : s.toUTF8.toList.length = s.utf8ByteSize := by
  rw [toList_toUTF8, Array.length_toList]
  rfl

theorem toUTF8_injective {s t : String} (h : s.toUTF8.toList = t.toUTF8.toList) : s = t := by
  rw [toList_toUTF8, toList_toUTF8] at h
  exact String.toByteArray_inj.mp (ByteArray.ext (Array.toList_inj.mp h))

end AiArtifactStore.Foundation
