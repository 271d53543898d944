import AiArtifactStore.Foundation.Segments
import AiArtifactStore.Service.WellFormed

/-!
# What the handlers accept as input

A parser of a body or of a query string returns a value that the input states, or
ends the handler with a failure response.
-/

namespace AiArtifactStore.Service

open AiArtifactStore.Foundation
open AiArtifactStore.Foundation.Json
open AiArtifactStore.Identity
open AiArtifactStore.Metadata
open AiArtifactStore.Wire

/-! ## Checks that refuse -/

theorem toOption_eq_some {ε α : Type} {result : Except ε α} {a : α} :
    result.toOption = some a ↔ result = .ok a := by
  cases result with
  | error e => simp [Except.toOption]
  | ok b => simp [Except.toOption]

theorem reads_asUuid_iff {members : Members} {key : String} {id : UuidV7} :
    Reads members key asUuid? id ↔
      ∃ text, Reads members key asString? text ∧ UuidV7.parse text = .ok id := by
  refine (@reads_iff _ _ members key asString? (fun text => (UuidV7.parse text).toOption) id).trans ?_
  simp only [toOption_eq_some]

section

variable {json : JsonLibrary (List UInt8)} {request : Request}

theorem field_eq_ok {α : Type} {members : Members} {key : String} {as? : Json → Option α}
    {value : α} : field members key as? = .ok value ↔ Reads members key as? value :=
  orFail_eq_ok

theorem validUuid_eq_ok {text : String} {id : UuidV7} :
    validUuid text = .ok id ↔ UuidV7.parse text = .ok id :=
  mapError_eq_ok

theorem jsonObject_eq_ok {notObject : String} {members : Members} :
    jsonObject json request notObject = .ok members ↔
      request.contentType = "application/json" ∧
        (json.parse request.body).bind asObject? = some members := by
  simp only [jsonObject, bind_eq_ok, exists_unit, failIf_eq_ok, orFail_eq_ok, not_not,
    Option.bind_eq_some_iff]

def narrowRule (rule : LifecycleRule) : LifecycleRule :=
  { rule with keepLastN := rule.keepLastN % 2 ^ 32 }

def StatedPolicy.narrow (policy : StatedPolicy) : StatedPolicy :=
  { policy with rules := policy.rules.map narrowRule }

def StatedPolicy.toPolicy (policy : StatedPolicy) : LifecyclePolicy :=
  ⟨policy.policyId, policy.name, .ofList strictTotal_artifactKind
    (policy.rules.map fun rule => (rule.artifactKind, rule))⟩

theorem parseLifecycleRule_eq_ok {entry : Json} {rule : LifecycleRule} :
    parseLifecycleRule entry = .ok rule ↔
      ∃ stated, ReadsLifecycleRule entry stated ∧ rule = narrowRule stated := by
  simp only [parseLifecycleRule, bind_eq_ok, exists_unit, failIf_eq_ok, orFail_eq_ok, field_eq_ok,
    not_not, Except.ok.injEq]
  constructor
  · rintro ⟨members, hmembers, hkeys, kindText, hkindText, keepLastN, hkeep, maxAge, hmaxAge, kind,
      hkind, rfl⟩
    exact ⟨⟨kind, keepLastN, maxAge⟩,
      ⟨members, hmembers, hkeys, reads_iff.mpr ⟨_, hkindText, hkind⟩, hkeep, hmaxAge⟩, rfl⟩
  · rintro ⟨stated, ⟨members, hmembers, hkeys, hkind, hkeep, hmaxAge⟩, rfl⟩
    obtain ⟨kindText, hkindText, hkind⟩ := reads_iff.mp hkind
    exact ⟨members, hmembers, hkeys, kindText, hkindText, _, hkeep, _, hmaxAge, _, hkind, rfl⟩

theorem forall₂_map_exists {α β γ : Type} {read : α → β → Prop} {f : β → γ} {xs : List α}
    {ys : List γ} :
    List.Forall₂ (fun x y => ∃ z, read x z ∧ y = f z) xs ys ↔
      ∃ zs, List.Forall₂ read xs zs ∧ ys = zs.map f := by
  constructor
  · intro h
    induction h with
    | nil => exact ⟨[], .nil, rfl⟩
    | cons hxy _ ih =>
        obtain ⟨z, hz, rfl⟩ := hxy
        obtain ⟨zs, hzs, rfl⟩ := ih
        exact ⟨z :: zs, .cons hz hzs, rfl⟩
  · rintro ⟨zs, hzs, rfl⟩
    induction hzs with
    | nil => exact .nil
    | cons hxz _ ih => exact .cons ⟨_, hxz, rfl⟩ ih

theorem kinds_narrow (rules : List LifecycleRule) :
    (rules.map narrowRule).map LifecycleRule.artifactKind =
      rules.map LifecycleRule.artifactKind := by
  rw [List.map_map]
  rfl

/-- A policy that the handler goes on with is the stated one with narrowed counts. -/
theorem parseLifecyclePolicy_eq_ok {policy : LifecyclePolicy} :
    parseLifecyclePolicy json request = .ok policy ↔
      ∃ stated, StatesLifecyclePolicy json request stated ∧ stated.OneRuleEach ∧
        policy = stated.narrow.toPolicy := by
  simp only [parseLifecyclePolicy, bind_eq_ok, exists_unit, failIf_eq_ok, field_eq_ok,
    jsonObject_eq_ok, validUuid_eq_ok, mapEach_eq_ok_iff, parseLifecycleRule_eq_ok,
    forall₂_map_exists, not_not, Except.ok.injEq]
  constructor
  · rintro ⟨members, ⟨hcontent, hmembers⟩, hkeys, policyIdText, hpolicyText, name, hname, entries,
      hentries, hlength, _, ⟨rules, hrules, rfl⟩, hkinds, policyId, hpolicyId, rfl⟩
    rw [kinds_narrow] at hkinds
    refine ⟨⟨policyId, name, rules⟩, ⟨hcontent, members, hmembers, hkeys,
      reads_asUuid_iff.mpr ⟨_, hpolicyText, hpolicyId⟩, hname, entries, hentries, hrules⟩,
      ⟨?_, hkinds⟩, rfl⟩
    rw [← hrules.length_eq, hlength]
  · rintro ⟨stated, ⟨hcontent, members, hmembers, hkeys, hpolicyId, hname, entries, hentries,
      hrules⟩, ⟨hlength, hkinds⟩, rfl⟩
    obtain ⟨policyIdText, hpolicyText, hpolicyId⟩ := reads_asUuid_iff.mp hpolicyId
    exact ⟨members, ⟨hcontent, hmembers⟩, hkeys, policyIdText, hpolicyText, _, hname, entries,
      hentries, by rw [hrules.length_eq, hlength], _, ⟨_, hrules, rfl⟩,
      by rwa [kinds_narrow], _, hpolicyId, rfl⟩

end

end AiArtifactStore.Service
