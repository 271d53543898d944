import Mathlib.Data.Nat.Digits.Defs
import AiArtifactStore.Foundation.Json

/-!
# A JSON library

An instance of `JsonLibrary`: a value is a tree of numbers, written in prefix order, each
number by its digits and a mark.  A text is read from its end, with a stack of the trees that
are complete.
-/

namespace AiArtifactStore.Foundation

/-! ## Numbers -/

def endMark : UInt8 := 255

def writeNumber (n : Nat) : List UInt8 := (Nat.digits 128 n).map UInt8.ofNat ++ [endMark]

/-- One byte, before the numbers that have been read. -/
def readByte (byte : UInt8) : List Nat → List Nat
  | [] => [0]
  | n :: numbers => if byte = endMark then 0 :: n :: numbers else (byte.toNat + 128 * n) :: numbers

def readNumbers (text : List UInt8) : List Nat := text.foldr readByte []

theorem readByte_endMark (numbers : List Nat) : readByte endMark numbers = 0 :: numbers := by
  cases numbers with
  | nil => rfl
  | cons n numbers => rw [readByte, if_pos rfl]

theorem readByte_digit {d n : Nat} (h : d < 128) (numbers : List Nat) :
    readByte (UInt8.ofNat d) (n :: numbers) = (d + 128 * n) :: numbers := by
  have hd : (UInt8.ofNat d).toNat = d := UInt8.toNat_ofNat_of_lt (h.trans (by decide))
  have hmark : UInt8.ofNat d ≠ endMark := by
    intro hsame
    have hvalue : d = 255 := by rw [← hd, hsame, endMark, UInt8.toNat_ofNat]
    omega
  rw [readByte, if_neg hmark, hd]

theorem readNumbers_digits {digits : List Nat} (h : ∀ d ∈ digits, d < 128) (rest : List UInt8) :
    readNumbers (digits.map UInt8.ofNat ++ endMark :: rest) =
      Nat.ofDigits 128 digits :: readNumbers rest := by
  induction digits with
  | nil => exact readByte_endMark _
  | cons d digits ih =>
      have hrest := ih fun other hother => h other (by simp [hother])
      change readByte (UInt8.ofNat d) (readNumbers (digits.map UInt8.ofNat ++ endMark :: rest)) = _
      rw [hrest, readByte_digit (h d (by simp)), Nat.ofDigits_cons]

theorem readNumbers_writeNumber (n : Nat) (rest : List UInt8) :
    readNumbers (writeNumber n ++ rest) = n :: readNumbers rest := by
  have hdigits : ∀ d ∈ Nat.digits 128 n, d < 128 := fun d hd => Nat.digits_lt_base (by decide) hd
  rw [writeNumber, List.append_assoc, List.singleton_append, readNumbers_digits hdigits,
    Nat.ofDigits_digits]

theorem readNumbers_flatMap (numbers : List Nat) :
    readNumbers (numbers.flatMap writeNumber) = numbers := by
  induction numbers with
  | nil => rfl
  | cons n numbers ih => rw [List.flatMap_cons, readNumbers_writeNumber, ih]

/-! ## Trees -/

inductive JsonTree where
  | leaf (n : Nat)
  | node (left right : JsonTree)

namespace JsonTree

/-- The tree in prefix order, where a zero stands for a node. -/
def numbers : JsonTree → List Nat
  | .leaf n => [n + 1]
  | .node left right => 0 :: (left.numbers ++ right.numbers)

/-- One number, before the trees that have been read. -/
def readTree : Nat → List JsonTree → List JsonTree
  | n + 1, trees => .leaf n :: trees
  | 0, left :: right :: trees => .node left right :: trees
  | 0, trees => trees

def readTrees (numbers : List Nat) : List JsonTree := numbers.foldr readTree []

theorem foldr_numbers (tree : JsonTree) (trees : List JsonTree) :
    tree.numbers.foldr readTree trees = tree :: trees := by
  induction tree generalizing trees with
  | leaf n => rfl
  | node left right ihl ihr => rw [numbers, List.foldr_cons, List.foldr_append, ihr, ihl, readTree]

theorem readTrees_numbers (tree : JsonTree) : readTrees tree.numbers = [tree] :=
  foldr_numbers tree []

/-! ## Values as trees -/

def ofText (text : String) : JsonTree :=
  text.toList.foldr (fun c rest => .node (.leaf c.toNat) rest) (.leaf 0)

def toChars : JsonTree → List Char
  | .node (.leaf n) rest => Char.ofNat n :: toChars rest
  | _ => []

def toText (tree : JsonTree) : String := String.ofList tree.toChars

theorem toText_ofText (text : String) : toText (ofText text) = text := by
  have hchars (chars : List Char) :
      toChars (chars.foldr (fun c rest => .node (.leaf c.toNat) rest) (.leaf 0)) = chars := by
    induction chars with
    | nil => rfl
    | cons c chars ih => rw [List.foldr_cons, toChars, ih, Char.ofNat_toNat]
  rw [toText, ofText, hchars, String.ofList_toList]

mutual

def ofJson : Json → JsonTree
  | .null => .leaf 0
  | .bool false => .leaf 1
  | .bool true => .leaf 2
  | .int64 (.ofNat n) => .node (.leaf 0) (.leaf n)
  | .int64 (.negSucc n) => .node (.leaf 1) (.leaf n)
  | .uint64 n => .node (.leaf 2) (.leaf n)
  | .double text => .node (.leaf 3) (ofText text)
  | .string text => .node (.leaf 4) (ofText text)
  | .array elements => .node (.leaf 5) (ofElements elements)
  | .object members => .node (.leaf 6) (ofMembers members)

def ofElements : List Json → JsonTree
  | [] => .leaf 0
  | element :: elements => .node (ofJson element) (ofElements elements)

def ofMembers : Json.Members → JsonTree
  | [] => .leaf 0
  | (key, value) :: members => .node (.node (ofText key) (ofJson value)) (ofMembers members)

end

mutual

def toJson : JsonTree → Json
  | .leaf 1 => .bool false
  | .leaf 2 => .bool true
  | .node (.leaf 0) (.leaf n) => .int64 (.ofNat n)
  | .node (.leaf 1) (.leaf n) => .int64 (.negSucc n)
  | .node (.leaf 2) (.leaf n) => .uint64 n
  | .node (.leaf 3) text => .double (toText text)
  | .node (.leaf 4) text => .string (toText text)
  | .node (.leaf 5) elements => .array (toElements elements)
  | .node (.leaf 6) members => .object (toMembers members)
  | _ => .null

def toElements : JsonTree → List Json
  | .leaf _ => []
  | .node element elements => toJson element :: toElements elements

def toMembers : JsonTree → Json.Members
  | .node (.node key value) members => (toText key, toJson value) :: toMembers members
  | _ => []

end

mutual

theorem toJson_ofJson (value : Json) : toJson (ofJson value) = value := by
  match value with
  | .null => simp only [ofJson, toJson]
  | .bool false => simp only [ofJson, toJson]
  | .bool true => simp only [ofJson, toJson]
  | .int64 (.ofNat n) => simp only [ofJson, toJson]
  | .int64 (.negSucc n) => simp only [ofJson, toJson]
  | .uint64 n => simp only [ofJson, toJson]
  | .double text => simp only [ofJson, toJson, toText_ofText]
  | .string text => simp only [ofJson, toJson, toText_ofText]
  | .array elements => simp only [ofJson, toJson, toElements_ofElements elements]
  | .object members => simp only [ofJson, toJson, toMembers_ofMembers members]

theorem toElements_ofElements (elements : List Json) :
    toElements (ofElements elements) = elements := by
  match elements with
  | [] => simp only [ofElements, toElements]
  | element :: elements =>
      simp only [ofElements, toElements, toJson_ofJson element, toElements_ofElements elements]

theorem toMembers_ofMembers (members : Json.Members) :
    toMembers (ofMembers members) = members := by
  match members with
  | [] => simp only [ofMembers, toMembers]
  | (key, value) :: members =>
      simp only [ofMembers, toMembers, toText_ofText, toJson_ofJson value,
        toMembers_ofMembers members]

end

end JsonTree

def treeJson : JsonLibrary (List UInt8) where
  serialize value := (JsonTree.ofJson value).numbers.flatMap writeNumber
  parse text := (JsonTree.readTrees (readNumbers text)).head?.map fun tree => tree.toJson.wire
  parse_serialize value := by
    rw [readNumbers_flatMap, JsonTree.readTrees_numbers, List.head?_cons, Option.map_some,
      JsonTree.toJson_ofJson]

end AiArtifactStore.Foundation
