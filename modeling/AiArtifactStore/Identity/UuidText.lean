import AiArtifactStore.Foundation.Checked
import AiArtifactStore.Identity.ContentId

/-!
# The text of a UUIDv7

`format_uuid` writes five groups of lowercase hexadecimal digits; the constructor
of `UuidV7` accepts these texts only.
-/

namespace AiArtifactStore.Identity

open AiArtifactStore.Foundation

namespace UuidV7

def hyphenate (digits : List Char) : List Char :=
  digits.take 8 ++ '-' :: ((digits.drop 8).take 4 ++ '-' :: ((digits.drop 12).take 4 ++
    '-' :: ((digits.drop 16).take 4 ++ '-' :: digits.drop 20)))

def str (id : UuidV7) : String := String.ofList (hyphenate (hexDigits 32 id.bits.toNat))

def unhyphenate (text : List Char) : List Char :=
  text.take 8 ++ ((text.drop 9).take 4 ++ ((text.drop 14).take 4 ++ ((text.drop 19).take 4 ++
    text.drop 24)))

def ofBits (bits : BitVec 128) : Except String UuidV7 :=
  if hversion : bits.extractLsb' 76 4 = 7#4 then
    if hvariant : bits.extractLsb' 62 2 = 2#2 then .ok ⟨bits, hversion, hvariant⟩
    else .error "UUIDv7 does not contain RFC variant bits"
  else .error "UUID does not contain version 7 bits"

def parse (text : String) : Except String UuidV7 := do
  failIf (text.toList.length ≠ 36) "UUIDv7 must contain exactly 36 characters"
  failIf (¬∀ position ∈ [8, 13, 18, 23], text.toList[position]? = some '-')
    "UUIDv7 contains invalid separator positions"
  let n ← orFail (ofHexDigits? (unhyphenate text.toList))
    "UUIDv7 must use lowercase hexadecimal characters"
  ofBits (BitVec.ofNat 128 n)

theorem exists_split {digits : List Char} {k l : Nat} (h : digits.length = k + l) :
    ∃ first rest, digits = first ++ rest ∧ first.length = k ∧ rest.length = l :=
  ⟨digits.take k, digits.drop k, (List.take_append_drop k digits).symm, by simp [h], by simp [h]⟩

theorem unhyphenate_hyphenate {digits : List Char} (h : digits.length = 32) :
    unhyphenate (hyphenate digits) = digits := by
  obtain ⟨a, digits, rfl, ha, h⟩ := @exists_split digits 8 24 h
  obtain ⟨b, digits, rfl, hb, h⟩ := @exists_split digits 4 20 h
  obtain ⟨c, digits, rfl, hc, h⟩ := @exists_split digits 4 16 h
  obtain ⟨d, e, rfl, hd, he⟩ := @exists_split digits 4 12 h
  simp [hyphenate, unhyphenate, List.drop_append, List.drop_of_length_le, ha, hb, hc, hd]

theorem length_hyphenate {digits : List Char} (h : digits.length = 32) :
    (hyphenate digits).length = 36 := by
  simp [hyphenate, h]

theorem hyphen_positions {digits : List Char} (h : digits.length = 32) :
    ∀ position ∈ [8, 13, 18, 23], (hyphenate digits)[position]? = some '-' := by
  simp [hyphenate, List.getElem?_append, h]

theorem ofBits_bits (id : UuidV7) : ofBits id.bits = .ok id := by
  rw [ofBits, dif_pos id.version, dif_pos id.variant]

theorem parse_str (id : UuidV7) : parse id.str = .ok id := by
  have hlength := length_hexDigits 32 id.bits.toNat
  have hdigits : ofHexDigits? (hexDigits 32 id.bits.toNat) = some id.bits.toNat :=
    ofHexDigits?_hexDigits 32 _ id.bits.isLt
  simp only [parse, str, String.toList_ofList, length_hyphenate hlength,
    unhyphenate_hyphenate hlength, hdigits, orFail_some, ok_bind]
  rw [failIf_of_false (by simp), ok_bind,
    failIf_of_false (not_not.mpr (hyphen_positions hlength)), ok_bind, BitVec.ofNat_toNat,
    BitVec.setWidth_eq, ofBits_bits]

end UuidV7

end AiArtifactStore.Identity
