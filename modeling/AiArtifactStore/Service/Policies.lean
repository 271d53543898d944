import AiArtifactStore.Service.Reading
import Mathlib.Data.List.Perm.Subperm

/-!
# Policies that the metadata accepts

The repository looks at the rules of a policy by kind.  For a policy that was built
from one rule for each kind its checks are those of the stated rules.
-/

namespace AiArtifactStore.Service

open AiArtifactStore.Foundation
open AiArtifactStore.Foundation.Json
open AiArtifactStore.Identity
open AiArtifactStore.Metadata
open AiArtifactStore.Wire

section

variable {policy : StatedPolicy}

theorem StatedPolicy.OneRuleEach.exists_rule (h : policy.OneRuleEach) (kind : ArtifactKind) :
    ∃ rule ∈ policy.rules, rule.artifactKind = kind := by
  have hsubset : policy.rules.map LifecycleRule.artifactKind ⊆ ArtifactKind.all := fun kind _ => by
    cases kind <;> decide
  have hperm := (List.subperm_of_subset h.2 hsubset).perm_of_length_le
    (by rw [List.length_map, h.1]; decide)
  have hkind : kind ∈ ArtifactKind.all := by cases kind <;> decide
  exact List.mem_map.mp (hperm.mem_iff.mpr hkind)

theorem StatedPolicy.OneRuleEach.find?_rules (h : policy.OneRuleEach) {kind : ArtifactKind}
    {rule : LifecycleRule} :
    policy.toPolicy.rules.find? kind = some rule ↔
      rule ∈ policy.rules ∧ rule.artifactKind = kind := by
  have hkeys : ((policy.rules.map fun rule => (rule.artifactKind, rule)).map Prod.fst).Nodup := by
    rw [List.map_map]
    exact h.2
  rw [StatedPolicy.toPolicy, OrderedMap.find?_ofList strictTotal_artifactKind hkeys]
  constructor
  · intro hmem
    obtain ⟨other, hother, hpair⟩ := List.mem_map.mp hmem
    obtain ⟨rfl, rfl⟩ := Prod.mk.inj hpair
    exact ⟨hother, rfl⟩
  · rintro ⟨hrule, rfl⟩
    exact List.mem_map_of_mem hrule

theorem StatedPolicy.OneRuleEach.length_rules (h : policy.OneRuleEach) :
    policy.toPolicy.rules.entries.length = 5 := by
  have hkeys : ((policy.rules.map fun rule => (rule.artifactKind, rule)).map Prod.fst).Nodup := by
    rw [List.map_map]
    exact h.2
  rw [StatedPolicy.toPolicy, (OrderedMap.perm_ofList strictTotal_artifactKind hkeys).length_eq,
    List.length_map, h.1]

theorem StatedPolicy.OneRuleEach.narrow (h : policy.OneRuleEach) : policy.narrow.OneRuleEach :=
  ⟨by rw [StatedPolicy.narrow, List.length_map, h.1],
    by rw [StatedPolicy.narrow, kinds_narrow]; exact h.2⟩

def IsInvalidPolicy (e : Exc) : Prop := ∃ what, e = .lifecycleError .invalidRequest what

theorem isInvalidPolicy (what : String) :
    IsInvalidPolicy (.lifecycleError .invalidRequest what) := ⟨what, rfl⟩

theorem validateLifecycleRule_within (policy : LifecyclePolicy) (kind : ArtifactKind) :
    Within IsInvalidPolicy
      (fun _ => ∃ rule, policy.rules.find? kind = some rule ∧ rule.artifactKind = kind ∧
        rule.keepLastN ≤ 1000 ∧ AgeValid rule)
      (validateLifecycleRule policy kind) := by
  simp only [validateLifecycleRule, within_bind, within_orFail, within_failIf, isInvalidPolicy,
    not_not, Nat.not_lt, not_exists, not_and]
  exact fun rule hrule hkind hkeep hage => ⟨rule, hrule, hkind, hkeep, hage⟩

theorem rule_of_validateLifecyclePolicy {policy : LifecyclePolicy}
    (h : validateLifecyclePolicy policy = .ok ()) (kind : ArtifactKind) :
    ∃ rule, policy.rules.find? kind = some rule ∧ rule.artifactKind = kind ∧
      rule.keepLastN ≤ 1000 ∧ AgeValid rule := by
  simp only [validateLifecyclePolicy, bind_eq_ok, exists_unit] at h
  exact (validateLifecycleRule_within policy kind).of_ok
    (forEach_eq_ok.mp h.2.2 kind (by cases kind <;> decide))

theorem validateLifecyclePolicy_within (h : policy.OneRuleEach) :
    Within IsInvalidPolicy (fun _ => policy.Valid) (validateLifecyclePolicy policy.toPolicy) := by
  simp only [validateLifecyclePolicy, within_bind, within_failIf, isInvalidPolicy, not_or, not_not,
    Nat.not_lt]
  intro hname _
  refine within_mono (within_forEach fun kind _ =>
    within_mono (validateLifecycleRule_within policy.toPolicy kind) fun _ _ => trivial) ?_
  intro _ hrules
  have hrule : ∀ rule ∈ policy.rules, rule.keepLastN ≤ 1000 ∧ AgeValid rule := fun rule hrule => by
    obtain ⟨found, hfound, -, hvalid⟩ :=
      (validateLifecycleRule_within policy.toPolicy rule.artifactKind).of_ok
        (hrules rule.artifactKind (by cases rule.artifactKind <;> decide))
    have hsame := h.find?_rules.mpr ⟨hrule, rfl⟩
    obtain rfl := Option.some.inj (hfound.symm.trans hsame)
    exact hvalid
  have hnameValid : policy.NameValid := ⟨fun hempty => hname.1 (by
    rw [show policy.toPolicy.name = "" from hempty]
    rfl), hname.2⟩
  exact ⟨⟨h, hnameValid, fun rule hmem => (hrule rule hmem).2⟩,
    fun rule hmem => (hrule rule hmem).1⟩

theorem validateLifecyclePolicy_ok (h : policy.Valid) :
    validateLifecyclePolicy policy.toPolicy = .ok () := by
  obtain ⟨⟨hone, hname, hage⟩, hkeep⟩ := h
  simp only [validateLifecyclePolicy, bind_eq_ok, exists_unit, failIf_eq_ok, forEach_eq_ok, not_or,
    not_not, Nat.not_lt]
  refine ⟨⟨?_, hname.2⟩, hone.length_rules, fun kind _ => ?_⟩
  · rw [String.isEmpty_iff]
    exact hname.1
  · obtain ⟨rule, hrule, rfl⟩ := hone.exists_rule kind
    simp only [validateLifecycleRule, bind_eq_ok, exists_unit, failIf_eq_ok, orFail_eq_ok,
      hone.find?_rules, not_not, Nat.not_lt, not_exists, not_and]
    exact ⟨rule, ⟨hrule, rfl⟩, rfl, hkeep rule hrule, hage rule hrule⟩

theorem validateLifecyclePolicy_eq_ok (h : policy.OneRuleEach) :
    validateLifecyclePolicy policy.toPolicy = .ok () ↔ policy.Valid :=
  ⟨(validateLifecyclePolicy_within h).of_ok, validateLifecyclePolicy_ok⟩

theorem StatedPolicy.OneRuleEach.of_narrow (h : policy.narrow.OneRuleEach) : policy.OneRuleEach := by
  obtain ⟨hlength, hkinds⟩ := h
  rw [StatedPolicy.narrow, kinds_narrow] at hkinds
  rw [StatedPolicy.narrow, List.length_map] at hlength
  exact ⟨hlength, hkinds⟩

/-! ## Rules that are read -/

/-- A rule whose counts are read in one way. -/
def ReadsRule (number? : Json → Option Nat) (entry : Json) (rule : LifecycleRule) : Prop :=
  ∃ members, entry.asObject? = some members ∧
    hasExactKeys members ["artifact_kind", "keep_last_n", "max_age_seconds"] = true ∧
    Reads members "artifact_kind" (fun value => value.asString?.bind ArtifactKind.ofText?)
      rule.artifactKind ∧
    Reads members "keep_last_n" number? rule.keepLastN ∧
    Reads members "max_age_seconds" (orNull number?) rule.maxAgeSeconds

end

/-! ## Registration -/

section

variable {db final : Db} {policy : LifecyclePolicy}

/-- Nothing else is stored under the id of the policy. -/
def Unopposed (db : Db) (policy : LifecyclePolicy) : Prop :=
  ∀ stored ∈ db.lifecyclePolicies.find? policy.policyId, stored = policy

theorem eq_of_find?_iff {stored : LifecyclePolicy}
    (h : db.lifecyclePolicies.find? policy.policyId = some stored) :
    stored = policy ↔ stored.name = policy.name ∧ stored.rules = policy.rules := by
  have hkey : stored.policyId = policy.policyId := Table.key_of_find? h
  constructor
  · rintro rfl
    exact ⟨rfl, rfl⟩
  · rintro ⟨hname, hrules⟩
    cases stored
    cases policy
    obtain rfl := hkey
    obtain rfl := hname
    obtain rfl := hrules
    rfl

theorem unopposed_iff :
    Unopposed db policy ↔ ∀ stored ∈ db.lifecyclePolicies.find? policy.policyId,
      stored.name = policy.name ∧ stored.rules = policy.rules :=
  forall₂_congr fun _ hstored => eq_of_find?_iff hstored

def NameStored (db : Db) (policy : LifecyclePolicy) : Prop :=
  db.lifecyclePolicies.find? policy.policyId = none → policy.stored.name ≠ ""

def registeredPolicy (db : Db) (policy : LifecyclePolicy) : LifecyclePolicy :=
  (db.lifecyclePolicies.find? policy.policyId).getD policy.stored

theorem registeredPolicy_rules (h : Unopposed db policy) :
    (registeredPolicy db policy).rules = policy.rules := by
  rw [registeredPolicy]
  cases hfind : db.lifecyclePolicies.find? policy.policyId with
  | none => rfl
  | some existing => exact congrArg LifecyclePolicy.rules (h existing hfind)

theorem registeredPolicy_eq_self_iff (h : Unopposed db policy) :
    registeredPolicy db policy = policy ↔
      (db.lifecyclePolicies.find? policy.policyId = none → nul ∉ policy.name.toList) := by
  rw [registeredPolicy]
  cases hfind : db.lifecyclePolicies.find? policy.policyId with
  | none =>
      rw [Option.getD_none, ← cString_eq_self_iff]
      constructor
      · exact fun hsame _ => congrArg LifecyclePolicy.name hsame
      · exact fun hname => congrArg (LifecyclePolicy.mk policy.policyId · policy.rules) (hname rfl)
  | some existing => exact iff_of_true (h existing hfind) nofun

theorem registerLifecyclePolicy_of_valid (h : validateLifecyclePolicy policy = .ok ()) :
    registerLifecyclePolicy db policy =
      match db.lifecyclePolicies.find? policy.policyId with
      | some existing =>
          if existing.name = policy.name ∧ existing.rules = policy.rules then .ok db
          else .error (.lifecycleError .policyConflict
            "lifecycle policy ID conflicts with a different configuration")
      | none =>
          if policy.stored.name = "" then .error (.sqlError "lifecycle_policies_name_check")
          else .ok { db with lifecyclePolicies := db.lifecyclePolicies.insert policy.stored } := by
  rw [registerLifecyclePolicy, h, ok_bind]
  cases db.lifecyclePolicies.find? policy.policyId with
  | some existing => rfl
  | none => by_cases hname : policy.stored.name = "" <;> simp [failIf, hname]

/-- A policy is stored under its id, unless it is invalid or the id is taken. -/
theorem registerLifecyclePolicy_ok (hvalid : validateLifecyclePolicy policy = .ok ())
    (h : Unopposed db policy) (hname : NameStored db policy) :
    ∃ final, registerLifecyclePolicy db policy = .ok final := by
  rw [registerLifecyclePolicy_of_valid hvalid]
  cases hfind : db.lifecyclePolicies.find? policy.policyId with
  | none => exact ⟨_, if_neg (hname hfind)⟩
  | some existing => exact ⟨db, if_pos (unopposed_iff.mp h existing hfind)⟩

theorem registerLifecyclePolicy_unnamed (hvalid : validateLifecyclePolicy policy = .ok ())
    (h : ¬NameStored db policy) :
    registerLifecyclePolicy db policy = .error (.sqlError "lifecycle_policies_name_check") := by
  rw [NameStored, Classical.not_imp, not_not] at h
  rw [registerLifecyclePolicy_of_valid hvalid, h.1]
  exact if_pos h.2

theorem registerLifecyclePolicy_conflict (hvalid : validateLifecyclePolicy policy = .ok ())
    (h : ¬Unopposed db policy) :
    registerLifecyclePolicy db policy = .error (.lifecycleError .policyConflict
      "lifecycle policy ID conflicts with a different configuration") := by
  rw [registerLifecyclePolicy_of_valid hvalid]
  cases hfind : db.lifecyclePolicies.find? policy.policyId with
  | none => exact absurd (fun stored hstored => by rw [hfind] at hstored; cases hstored) h
  | some existing =>
      refine if_neg fun hsame => h fun stored hstored => ?_
      obtain rfl := Option.some.inj (hfind.symm.trans hstored)
      exact (eq_of_find?_iff hfind).mpr hsame

theorem valid_of_registered (h : registerLifecyclePolicy db policy = .ok final) :
    validateLifecyclePolicy policy = .ok () := by
  simp only [registerLifecyclePolicy, bind_eq_ok, exists_unit] at h
  exact h.1

theorem exists_registered :
    (∃ final, registerLifecyclePolicy db policy = .ok final) ↔
      validateLifecyclePolicy policy = .ok () ∧ Unopposed db policy ∧ NameStored db policy := by
  constructor
  · rintro ⟨final, hregister⟩
    have hvalid := valid_of_registered hregister
    refine ⟨hvalid, Classical.by_contradiction fun hopposed => ?_,
      Classical.by_contradiction fun hname => ?_⟩
    · rw [registerLifecyclePolicy_conflict hvalid hopposed] at hregister
      cases hregister
    · rw [registerLifecyclePolicy_unnamed hvalid hname] at hregister
      cases hregister
  · exact fun h => registerLifecyclePolicy_ok h.1 h.2.1 h.2.2

theorem find?_registered (h : registerLifecyclePolicy db policy = .ok final) :
    final.lifecyclePolicies.find? policy.policyId = some (registeredPolicy db policy) := by
  have hunopposed := (exists_registered.mp ⟨final, h⟩).2.1
  rw [registerLifecyclePolicy_of_valid (valid_of_registered h)] at h
  cases hfind : db.lifecyclePolicies.find? policy.policyId with
  | none =>
      simp only [hfind] at h
      split at h
      · cases h
      · obtain rfl := Except.ok.inj h
        have hfresh : db.lifecyclePolicies.find? policy.stored.policyId = none := hfind
        rw [registeredPolicy, hfind]
        exact (Table.find?_insert_new hfresh).trans (if_pos rfl)
  | some existing =>
      obtain rfl := hunopposed existing hfind
      simp only [hfind, and_self, if_true] at h
      obtain rfl := Except.ok.inj h
      rw [registeredPolicy, hfind]
      rfl

theorem handleRegisterLifecyclePolicy_of_error {json : JsonLibrary (List UInt8)}
    {request : Request} {e : Exc} (hparse : parseLifecyclePolicy json request = .ok policy)
    (h : registerLifecyclePolicy db policy = .error e) :
    ∃ stop, handleRegisterLifecyclePolicy json request db = (.error stop, db) := by
  have hupdate : Handler.update (fun db => registerLifecyclePolicy db policy) db =
      (.error (.throw e), db) := Handler.update_of_error h
  rw [handleRegisterLifecyclePolicy, hparse]
  change ∃ stop, Handler.catching _ _ db = _
  exact Handler.catching_of_error (Stateful.bind_of_error hupdate)

theorem handleRegisterLifecyclePolicy_eq_ok {json : JsonLibrary (List UInt8)} {request : Request}
    {payload : Payload} :
    handleRegisterLifecyclePolicy json request db = (.ok payload, final) ↔
      ∃ policy, parseLifecyclePolicy json request = .ok policy ∧
        registerLifecyclePolicy db policy = .ok final ∧
        payload = .lifecyclePolicy (registeredPolicy db policy) := by
  simp only [handleRegisterLifecyclePolicy, Stateful.bind_eq_ok, Stateful.check_eq_ok,
    Stateful.read_eq_ok, Stateful.pure_eq, Handler.catching_eq_ok, Handler.update_eq_ok,
    orFail_eq_ok]
  constructor
  · rintro ⟨policy, _, ⟨hparse, rfl⟩, ⟨⟩, middle, hregister, found, _, ⟨rfl, rfl⟩, loaded, _,
      ⟨hloaded, rfl⟩, rfl, rfl⟩
    obtain rfl := Option.some.inj (hloaded.symm.trans (find?_registered hregister))
    exact ⟨policy, hparse, hregister, rfl⟩
  · rintro ⟨policy, hparse, hregister, rfl⟩
    exact ⟨policy, db, ⟨hparse, rfl⟩, (), final, hregister, _, final, ⟨rfl, rfl⟩, _, final,
      ⟨find?_registered hregister, rfl⟩, rfl, rfl⟩

end

end AiArtifactStore.Service
