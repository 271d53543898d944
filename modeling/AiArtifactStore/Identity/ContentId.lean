import AiArtifactStore.Foundation.Encoding
import Mathlib.Data.List.Sort

/-!
# Content and run identities

A content identity (chunk, object, layout, version or manifest id) is a SHA-256
digest, written in the source as 64 lowercase hexadecimal characters; a
`UuidV7` is 128 bits with the version and variant bits fixed.  The digests come from
code outside the repository.
-/

namespace AiArtifactStore.Identity

open AiArtifactStore.Foundation

structure ContentId where
  digest : BitVec 256
  deriving DecidableEq, Repr

namespace ContentId

def hexCharacters (id : ContentId) : List Char := hexDigits 64 id.digest.toNat

def hex (id : ContentId) : String := String.ofList id.hexCharacters

def ofHex? (text : String) : Option ContentId :=
  if text.toList.length = 64 then
    (ofHexDigits? text.toList).map fun n => ⟨BitVec.ofNat 256 n⟩
  else none

/-- `append_content_id` -/
def bytes (id : ContentId) : List UInt8 := bigEndian 32 id.digest.toNat

def hexBytes (id : ContentId) : List UInt8 := asciiBytes id.hexCharacters

instance : LT ContentId := ⟨fun a b => a.digest.toNat < b.digest.toNat⟩

instance : LE ContentId := ⟨fun a b => a.digest.toNat ≤ b.digest.toNat⟩

instance (a b : ContentId) : Decidable (a < b) :=
  inferInstanceAs (Decidable (a.digest.toNat < b.digest.toNat))

instance (a b : ContentId) : Decidable (a ≤ b) :=
  inferInstanceAs (Decidable (a.digest.toNat ≤ b.digest.toNat))

theorem lt_iff {a b : ContentId} : a < b ↔ a.digest.toNat < b.digest.toNat := Iff.rfl

theorem lt_trans {a b c : ContentId} (h : a < b) (h' : b < c) : a < c := Nat.lt_trans h h'

theorem ne_of_lt {a b : ContentId} (h : a < b) : a ≠ b := fun e => Nat.lt_irrefl _ (e ▸ h)

theorem ext_toNat {a b : ContentId} (h : a.digest.toNat = b.digest.toNat) : a = b := by
  cases a
  cases b
  exact congrArg _ (BitVec.eq_of_toNat_eq h)

theorem ofHex?_hex (id : ContentId) : ofHex? id.hex = some id := by
  have hlt : id.digest.toNat < 16 ^ 64 := id.digest.isLt
  simp [ofHex?, hex, hexCharacters, length_hexDigits, ofHexDigits?_hexDigits 64 _ hlt]

theorem hex_injective : Function.Injective hex := by
  intro a b h
  have := congrArg ofHex? h
  simpa [ofHex?_hex] using this

theorem hex_of_ofHex? {text : String} {id : ContentId} (h : ofHex? text = some id) :
    id.hex = text := by
  unfold ofHex? at h
  split at h
  · rename_i hlength
    obtain ⟨n, hdigits, rfl⟩ := Option.map_eq_some_iff.mp h
    obtain ⟨hbound, hchars⟩ := hexDigits_of_ofHexDigits? hdigits
    rw [hlength] at hbound hchars
    have hn : (BitVec.ofNat 256 n).toNat = n := by
      rw [BitVec.toNat_ofNat]
      exact Nat.mod_eq_of_lt hbound
    rw [hex, hexCharacters, hn, hchars, String.ofList_toList]
  · cases h

end ContentId

structure UuidV7 where
  bits : BitVec 128
  version : bits.extractLsb' 76 4 = 7#4
  variant : bits.extractLsb' 62 2 = 2#2
  deriving DecidableEq, Repr

namespace UuidV7

/-- `append_uuid` -/
def bytes (id : UuidV7) : List UInt8 := bigEndian 16 id.bits.toNat

instance : LT UuidV7 := ⟨fun a b => a.bits.toNat < b.bits.toNat⟩

instance (a b : UuidV7) : Decidable (a < b) :=
  inferInstanceAs (Decidable (a.bits.toNat < b.bits.toNat))

end UuidV7

/-! ## Storage node ids -/

def isNodeIdCharacter (c : Char) : Bool :=
  ('A' ≤ c && c ≤ 'Z') || ('a' ≤ c && c ≤ 'z') || ('0' ≤ c && c ≤ '9') ||
    c == '-' || c == '_' || c == '.'

def nodeIdLengthInvalid (nodeId : String) : Bool :=
  nodeId.isEmpty || nodeId.utf8ByteSize > 128

def nodeIdCharacterInvalid (nodeId : String) : Bool :=
  !nodeId.toList.all isNodeIdCharacter

def nodeIdInvalid (nodeId : String) : Bool :=
  nodeIdLengthInvalid nodeId || nodeIdCharacterInvalid nodeId

/-! ## Code outside the repository -/

/-- What the metadata layer takes from OpenSSL, PostgreSQL and Boost: the SHA-256
function, the collation that `ORDER BY` uses on `TEXT` columns, and the
recognition of numeric IP addresses. -/
structure Environment where
  sha256 : List UInt8 → BitVec 256
  textLe : String → String → Bool
  isNumericAddress : String → Bool

namespace Environment

def contentId (env : Environment) (bytes : List UInt8) : ContentId := ⟨env.sha256 bytes⟩

def orderByText {α : Type} (env : Environment) (column : α → String) (rows : List α) : List α :=
  rows.insertionSort fun a b => env.textLe (column a) (column b) = true

theorem mem_orderByText {α : Type} {env : Environment} {column : α → String} {rows : List α}
    {a : α} : a ∈ env.orderByText column rows ↔ a ∈ rows :=
  (List.perm_insertionSort _ _).mem_iff

end Environment

end AiArtifactStore.Identity
