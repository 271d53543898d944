import Mathlib.Algebra.GroupWithZero.Nat

/-!
# JSON values

Values as a JSON library holds them, and the library's own serializer and parser.
-/

namespace AiArtifactStore.Foundation

inductive Json where
  | null
  | bool (b : Bool)
  | int64 (n : Int)
  | uint64 (n : Nat)
  | double (text : String)
  | string (text : String)
  | array (elements : List Json)
  | object (members : List (String × Json))

namespace Json

abbrev Members := List (String × Json)

/-! ## What the wire keeps -/

mutual

/-- The value that is parsed from a serialized one: an unsigned number that fits is read
as a signed one. -/
def wire : Json → Json
  | .uint64 n => if n < 2 ^ 63 then .int64 n else .uint64 n
  | .array elements => .array (wireElements elements)
  | .object members => .object (wireMembers members)
  | .null => .null
  | .bool b => .bool b
  | .int64 n => .int64 n
  | .double text => .double text
  | .string text => .string text

def wireElements : List Json → List Json
  | [] => []
  | element :: elements => wire element :: wireElements elements

def wireMembers : Members → Members
  | [] => []
  | (key, value) :: members => (key, wire value) :: wireMembers members

end

theorem wireElements_eq (elements : List Json) : wireElements elements = elements.map wire := by
  induction elements with
  | nil => simp only [wireElements, List.map_nil]
  | cons element elements ih => simp only [wireElements, ih, List.map_cons]

theorem wireMembers_eq (members : Members) :
    wireMembers members = members.map fun member => (member.1, member.2.wire) := by
  induction members with
  | nil => simp only [wireMembers, List.map_nil]
  | cons member members ih => simp only [wireMembers, ih, List.map_cons]

@[simp] theorem wire_string (text : String) : (string text).wire = .string text := by
  simp only [wire]

@[simp] theorem wire_array (elements : List Json) :
    (array elements).wire = .array (elements.map wire) := by
  simp only [wire, wireElements_eq]

@[simp] theorem wire_object (members : Members) :
    (object members).wire = .object (members.map fun member => (member.1, member.2.wire)) := by
  simp only [wire, wireMembers_eq]

/-! ## Access -/

def asObject? : Json → Option Members
  | .object members => some members
  | _ => none

def asArray? : Json → Option (List Json)
  | .array elements => some elements
  | _ => none

def asString? : Json → Option String
  | .string text => some text
  | _ => none

/-- `json_object_has_exact_keys` -/
def hasExactKeys (members : Members) (keys : List String) : Bool :=
  members.length = keys.length && keys.all fun key => (members.lookup key).isSome

theorem lookup_cons (key other : String) (value : Json) (members : Members) :
    List.lookup key ((other, value) :: members) =
      if key = other then some value else List.lookup key members := by
  rw [List.lookup_cons]
  by_cases h : key = other
  · simp [h]
  · simp [h, beq_eq_false_iff_ne.mpr h]

theorem exists_lookup {key : String} {members : Members} (h : key ∈ members.map Prod.fst) :
    (List.lookup key members).isSome = true := by
  induction members with
  | nil => simp at h
  | cons member members ih =>
      rw [lookup_cons]
      by_cases hkey : key = member.1
      · simp [hkey]
      · rw [List.map_cons, List.mem_cons] at h
        simpa [hkey] using ih (h.resolve_left hkey)

theorem hasExactKeys_of_keys {members : Members} {keys : List String}
    (h : members.map Prod.fst = keys) : hasExactKeys members keys = true := by
  subst h
  simp only [hasExactKeys, List.length_map, decide_true, Bool.true_and, List.all_eq_true]
  exact fun key hkey => exists_lookup hkey

end Json

structure JsonLibrary (Text : Type) where
  serialize : Json → Text
  parse : Text → Option Json
  parse_serialize : ∀ value, parse (serialize value) = some value.wire

end AiArtifactStore.Foundation
