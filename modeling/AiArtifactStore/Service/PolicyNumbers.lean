import AiArtifactStore.Foundation.Decimal
import AiArtifactStore.Foundation.JsonCode
import AiArtifactStore.Service.LifecycleCommands
import AiArtifactStore.Service.Policies
import AiArtifactStore.Service.Routing
import AiArtifactStore.Wire.LayoutRoundTrip

/-!
# The numbers of a policy

The service and the CLI read the counts of a policy as 64-bit numbers, cast them to 32 bits
and only then look at their range.  The stored counts are the written ones exactly if no
count of an accepted policy has lost bits.
-/

namespace AiArtifactStore.Service

open AiArtifactStore.Foundation
open AiArtifactStore.Foundation.Json
open AiArtifactStore.Identity
open AiArtifactStore.Metadata
open AiArtifactStore.Wire

/-! ## Integers that are written -/

def integer? : Json → Option Int
  | .int64 n => some n
  | .uint64 n => some n
  | _ => none

/-- The integer that a value of a policy file is, where digits in a string are one too. -/
def fileInteger? : Json → Option Int
  | .string text => (decimal? text.toList).map Int.ofNat
  | value => integer? value

def WritesRule (integer? : Json → Option Int) (entry : Json) (rule : LifecycleRule) : Prop :=
  ∃ members, entry.asObject? = some members ∧
    Reads members "artifact_kind" (fun value => value.asString?.bind ArtifactKind.ofText?)
      rule.artifactKind ∧
    Reads members "keep_last_n" integer? (rule.keepLastN : Int) ∧
    Reads members "max_age_seconds" (orNull integer?) (rule.maxAgeSeconds.map Int.ofNat)

/-- The policy has the rules that the entries write, one for each kind, and no entry keeps
more than the validator allows. -/
structure StoredAsWritten (integer? : Json → Option Int) (entries : List Json)
    (stored : LifecyclePolicy) : Prop where
  kept : ∀ entry ∈ entries, ∃ rule, stored.rules.find? rule.artifactKind = some rule ∧
    WritesRule integer? entry rule
  each : ∀ kind, ∃ entry ∈ entries, ∃ rule, rule.artifactKind = kind ∧
    stored.rules.find? kind = some rule ∧ WritesRule integer? entry rule
  bounded : ∀ entry ∈ entries, ∀ rule, WritesRule integer? entry rule → rule.keepLastN ≤ 1000

theorem storedAsWritten_congr {integer? : Json → Option Int} {entries : List Json}
    {stored stored' : LifecyclePolicy} (h : stored.rules = stored'.rules) :
    StoredAsWritten integer? entries stored ↔ StoredAsWritten integer? entries stored' := by
  constructor
  · exact fun hwritten => ⟨h ▸ hwritten.kept, h ▸ hwritten.each, hwritten.bounded⟩
  · exact fun hwritten => ⟨h ▸ hwritten.kept, h ▸ hwritten.each, hwritten.bounded⟩

/-! ## Counts that lose bits -/

def StatedPolicy.Truncated (policy : StatedPolicy) : Prop :=
  ∃ rule ∈ policy.rules, 2 ^ 32 ≤ rule.keepLastN

def StatedPolicy.AcceptedTruncated (policy : StatedPolicy) (db : Db) : Prop :=
  policy.Truncated ∧ policy.narrow.Valid ∧ Unopposed db policy.narrow.toPolicy ∧
    NameStored db policy.narrow.toPolicy

theorem narrow_eq_self {policy : StatedPolicy} (h : ¬policy.Truncated) : policy.narrow = policy := by
  have hsame : ∀ rule ∈ policy.rules, narrowRule rule = rule := fun rule hrule => by
    have hsmall : rule.keepLastN < 2 ^ 32 := Nat.not_le.mp fun hlarge => h ⟨rule, hrule, hlarge⟩
    rw [narrowRule, Nat.mod_eq_of_lt hsmall]
  rw [StatedPolicy.narrow, List.map_congr_left hsame, List.map_id']

theorem not_truncated_of_bounded {policy : StatedPolicy}
    (h : ∀ rule ∈ policy.rules, rule.keepLastN ≤ 1000) : ¬policy.Truncated := by
  rintro ⟨rule, hrule, hlarge⟩
  have hbounded := h rule hrule
  omega

/-! ## Numbers that are read -/

def ReadsIntegers (number? : Json → Option Nat) (integer? : Json → Option Int) : Prop :=
  ∀ value n, number? value = some n → integer? value = some (n : Int)

section

variable {number? : Json → Option Nat} {integer? : Json → Option Int}

theorem ReadsIntegers.orNull (h : ReadsIntegers number? integer?) {value : Json} {n : Option Nat}
    (hread : orNull number? value = some n) :
    Service.orNull integer? value = some (n.map Int.ofNat) := by
  cases value with
  | null =>
      obtain rfl := Option.some.inj hread
      rfl
  | _ =>
      obtain ⟨m, hm, rfl⟩ := Option.map_eq_some_iff.mp hread
      exact Option.map_eq_some_iff.mpr ⟨_, h _ m hm, rfl⟩

theorem ReadsIntegers.writesRule (h : ReadsIntegers number? integer?) {entry : Json}
    {rule : LifecycleRule} (hread : ReadsRule number? entry rule) :
    WritesRule integer? entry rule := by
  obtain ⟨members, hmembers, -, hkind, hkeep, hage⟩ := hread
  obtain ⟨keepValue, hkeepValue, hkeep⟩ := Option.bind_eq_some_iff.mp hkeep
  obtain ⟨ageValue, hageValue, hage⟩ := Option.bind_eq_some_iff.mp hage
  exact ⟨members, hmembers, hkind,
    Option.bind_eq_some_iff.mpr ⟨keepValue, hkeepValue, h _ _ hkeep⟩,
    Option.bind_eq_some_iff.mpr ⟨ageValue, hageValue, h.orNull hage⟩⟩

theorem WritesRule.unique {entry : Json} {rule rule' : LifecycleRule}
    (hrule : WritesRule integer? entry rule) (hrule' : WritesRule integer? entry rule') :
    rule = rule' := by
  obtain ⟨members, hmembers, hkind, hkeep, hage⟩ := hrule
  obtain ⟨members', hmembers', hkind', hkeep', hage'⟩ := hrule'
  obtain rfl := Option.some.inj (hmembers.symm.trans hmembers')
  have hages := Option.map_injective (fun _ _ h => Int.ofNat.inj h) (hage.unique hage')
  cases rule
  cases rule'
  obtain rfl := hkind.unique hkind'
  obtain rfl := Int.ofNat.inj (hkeep.unique hkeep')
  obtain rfl := hages
  rfl

/-- A policy that is stored after narrowing is stored as it was written exactly if no count
was truncated. -/
theorem storedAsWritten_iff (h : ReadsIntegers number? integer?) {policy : StatedPolicy}
    {entries : List Json} (hread : List.Forall₂ (ReadsRule number?) entries policy.rules)
    (hvalid : policy.narrow.Valid) :
    StoredAsWritten integer? entries policy.narrow.toPolicy ↔ ¬policy.Truncated := by
  have hwrites : List.Forall₂ (WritesRule integer?) entries policy.rules :=
    hread.imp fun _ _ => h.writesRule
  constructor
  · rintro hstored ⟨rule, hrule, hlarge⟩
    obtain ⟨entry, hentry, hwritten⟩ := exists_of_forall₂_right hwrites hrule
    have hbounded := hstored.bounded entry hentry rule hwritten
    omega
  · intro htruncated
    rw [narrow_eq_self htruncated] at hvalid ⊢
    have hone := hvalid.1.1
    refine ⟨fun entry hentry => ?_, fun kind => ?_, fun entry hentry rule hrule => ?_⟩
    · obtain ⟨rule, hrule, hwritten⟩ := exists_of_forall₂_left hwrites hentry
      exact ⟨rule, hone.find?_rules.mpr ⟨hrule, rfl⟩, hwritten⟩
    · obtain ⟨rule, hrule, hkind⟩ := hone.exists_rule kind
      obtain ⟨entry, hentry, hwritten⟩ := exists_of_forall₂_right hwrites hrule
      exact ⟨entry, hentry, rule, hkind, hone.find?_rules.mpr ⟨hrule, hkind⟩, hwritten⟩
    · obtain ⟨rule', hrule', hwritten⟩ := exists_of_forall₂_left hwrites hentry
      obtain rfl := hrule.unique hwritten
      exact hvalid.2 rule hrule'

def StoresAsWritten (integer? : Json → Option Int) (members : Members) (policyId : UuidV7)
    (db : Db) : Prop :=
  ∃ entries stored, Reads members "rules" asArray? entries ∧
    db.lifecyclePolicies.find? policyId = some stored ∧ StoredAsWritten integer? entries stored

theorem storesAsWritten_iff (h : ReadsIntegers number? integer?) {policy : StatedPolicy}
    {members : Members} {db final : Db}
    (hread : ReadsEach members "rules" (ReadsRule number?) policy.rules)
    (hone : policy.OneRuleEach)
    (hregister : registerLifecyclePolicy db policy.narrow.toPolicy = .ok final) :
    StoresAsWritten integer? members policy.policyId final ↔ ¬policy.Truncated := by
  obtain ⟨entries, hentries, hrules⟩ := hread
  have hvalid : policy.narrow.Valid :=
    (validateLifecyclePolicy_eq_ok hone.narrow).mp (valid_of_registered hregister)
  have hfind : final.lifecyclePolicies.find? policy.policyId =
      some (registeredPolicy db policy.narrow.toPolicy) := find?_registered hregister
  have hsame := registeredPolicy_rules (exists_registered.mp ⟨final, hregister⟩).2.1
  rw [← storedAsWritten_iff h hrules hvalid, ← storedAsWritten_congr hsame]
  constructor
  · rintro ⟨entries', stored, hentries', hstored, hwritten⟩
    obtain rfl := hentries.unique hentries'
    obtain rfl := Option.some.inj (hfind.symm.trans hstored)
    exact hwritten
  · exact fun hwritten => ⟨entries, _, hentries, hfind, hwritten⟩

theorem exists_registered_narrow {policy : StatedPolicy} {db : Db} (hone : policy.OneRuleEach) :
    (∃ final, registerLifecyclePolicy db policy.narrow.toPolicy = .ok final) ↔
      policy.narrow.Valid ∧ Unopposed db policy.narrow.toPolicy ∧
        NameStored db policy.narrow.toPolicy := by
  rw [exists_registered, validateLifecyclePolicy_eq_ok hone.narrow]

end

/-! ## Bodies -/

section

variable (json : JsonLibrary (List UInt8)) (request : Request) (db : Db)

theorem readsIntegers_body : ReadsIntegers extractNonnegativeUint64 integer? := by
  intro value n hread
  cases value with
  | int64 m =>
      rw [extractNonnegativeUint64] at hread
      split at hread
      · cases hread
      split at hread
      · cases hread
      · obtain rfl := Option.some.inj hread
        rename_i hnonneg _
        rw [integer?, Int.toNat_of_nonneg (Int.not_lt.mp hnonneg)]
  | uint64 m =>
      rw [extractNonnegativeUint64] at hread
      split at hread
      · cases hread
      · obtain rfl := Option.some.inj hread
        rfl
  | _ => cases hread

/-- A policy that the request registers is stored with the integers that its body writes. -/
def KeepsNumbers : Prop :=
  ∀ payload final, handleRegisterLifecyclePolicy json request db = (.ok payload, final) →
    ∃ members policyId, (json.parse request.body).bind asObject? = some members ∧
      Reads members "policy_id" asUuid? policyId ∧
      StoresAsWritten integer? members policyId final

variable {json request db}

theorem keepsNumbers_iff :
    KeepsNumbers json request db ↔
      ¬∃ policy, StatesLifecyclePolicy json request policy ∧ policy.AcceptedTruncated db := by
  constructor
  · rintro hkeeps ⟨policy, hstates, htruncated, haccepted⟩
    have hone : policy.OneRuleEach := .of_narrow haccepted.1.1.1
    obtain ⟨final, hregister⟩ := (exists_registered_narrow hone).mpr haccepted
    obtain ⟨members', policyId, hmembers', hpolicyId, hstores⟩ :=
      hkeeps _ final (handleRegisterLifecyclePolicy_eq_ok.mpr
        ⟨_, parseLifecyclePolicy_eq_ok.mpr ⟨policy, hstates, hone, rfl⟩, hregister, rfl⟩)
    obtain ⟨-, members, hmembers, -, hid, -, hrules⟩ := hstates
    obtain rfl := Option.some.inj (hmembers.symm.trans hmembers')
    obtain rfl := hid.unique hpolicyId
    exact (storesAsWritten_iff readsIntegers_body hrules hone hregister).mp hstores htruncated
  · intro hnone payload final hrun
    obtain ⟨_, hparse, hregister, -⟩ := handleRegisterLifecyclePolicy_eq_ok.mp hrun
    obtain ⟨policy, hstates, hone, rfl⟩ := parseLifecyclePolicy_eq_ok.mp hparse
    have haccepted := (exists_registered_narrow hone).mp ⟨final, hregister⟩
    have htruncated : ¬policy.Truncated := fun htruncated =>
      hnone ⟨policy, hstates, htruncated, haccepted⟩
    obtain ⟨-, members, hmembers, -, hid, -, hrules⟩ := hstates
    exact ⟨members, policy.policyId, hmembers, hid,
      (storesAsWritten_iff readsIntegers_body hrules hone hregister).mpr htruncated⟩

end

/-! ## Policy files -/

def fileNumber? : Json → Option Nat
  | .string text => (decimal? text.toList).filter fun n => n < 2 ^ 64
  | .uint64 n => some n
  | .int64 n => if n < 0 then none else some n.toNat
  | _ => none

theorem readsIntegers_file : ReadsIntegers fileNumber? fileInteger? := by
  intro value n hread
  cases value with
  | string text =>
      obtain ⟨hdecimal, -⟩ := Option.filter_eq_some_iff.mp hread
      exact Option.map_eq_some_iff.mpr ⟨n, hdecimal, rfl⟩
  | int64 m =>
      rw [fileNumber?] at hread
      split at hread
      · cases hread
      · obtain rfl := Option.some.inj hread
        rename_i hnonneg
        rw [fileInteger?, integer?, Int.toNat_of_nonneg (Int.not_lt.mp hnonneg)]
        exact nofun
  | uint64 m =>
      obtain rfl := Option.some.inj hread
      rfl
  | _ => cases hread

theorem parseStrictU64_eq_ok {text fieldName : String} {n : Nat} :
    parseStrictU64 text fieldName = .ok n ↔ decimal? text.toList = some n ∧ n < 2 ^ 64 := by
  rw [parseStrictU64]
  split
  case isTrue hempty => simp [hempty, decimal?]
  case isFalse hne =>
    have hadds : AddsDigit (2 ^ 64 - 1) fun value c => (addDigit fieldName value c).toOption := by
      refine addsDigit_of_division (by decide) fun value c => ?_
      rw [addDigit]
      split
      · rfl
      · dsimp only
        split <;> rfl
    rw [foldEach_eq_ok_iff, hadds.foldlM_eq_decimal? hne]
    exact and_congr_right fun _ => by omega

theorem parsePolicyUint64Field_eq_ok {value : Json} {fieldName : String} {n : Nat} :
    parsePolicyUint64Field value fieldName = .ok n ↔ fileNumber? value = some n := by
  cases value with
  | string text =>
      rw [parsePolicyUint64Field, parseStrictU64_eq_ok, fileNumber?, Option.filter_eq_some_iff,
        decide_eq_true_iff]
  | int64 m =>
      rw [parsePolicyUint64Field, fileNumber?]
      split <;> simp
  | uint64 m => simp [parsePolicyUint64Field, fileNumber?]
  | _ => simp [parsePolicyUint64Field, fileNumber?]

theorem parsePolicyMaxAge_eq_ok {value : Json} {n : Option Nat} :
    parsePolicyMaxAge value = .ok n ↔ orNull fileNumber? value = some n := by
  cases value with
  | null => simp [parsePolicyMaxAge, orNull]
  | _ =>
      simp only [parsePolicyMaxAge, orNull, map_eq_ok, parsePolicyUint64Field_eq_ok,
        Option.map_eq_some_iff]

theorem parsePolicyFileRule_eq_ok {entry : Json} {rule : LifecycleRule} :
    parsePolicyFileRule entry = .ok rule ↔
      ∃ stated, ReadsRule fileNumber? entry stated ∧ rule = narrowRule stated := by
  simp only [parsePolicyFileRule, bind_eq_ok, exists_unit, failIf_eq_ok, orFail_eq_ok, not_not,
    parsePolicyUint64Field_eq_ok, parsePolicyMaxAge_eq_ok, Except.ok.injEq]
  constructor
  · rintro ⟨members, hmembers, hkeys, kindText, hkindText, keepValue, hkeepValue, ageValue,
      hageValue, keepLastN, hkeep, maxAge, hmaxAge, kind, hkind, rfl⟩
    exact ⟨⟨kind, keepLastN, maxAge⟩, ⟨members, hmembers, hkeys,
      reads_iff.mpr ⟨_, hkindText, hkind⟩, Option.bind_eq_some_iff.mpr ⟨_, hkeepValue, hkeep⟩,
      Option.bind_eq_some_iff.mpr ⟨_, hageValue, hmaxAge⟩⟩, rfl⟩
  · rintro ⟨stated, ⟨members, hmembers, hkeys, hkind, hkeep, hmaxAge⟩, rfl⟩
    obtain ⟨kindText, hkindText, hkind⟩ := reads_iff.mp hkind
    obtain ⟨keepValue, hkeepValue, hkeep⟩ := Option.bind_eq_some_iff.mp hkeep
    obtain ⟨ageValue, hageValue, hmaxAge⟩ := Option.bind_eq_some_iff.mp hmaxAge
    exact ⟨members, hmembers, hkeys, kindText, hkindText, keepValue, hkeepValue, ageValue,
      hageValue, _, hkeep, _, hmaxAge, _, hkind, rfl⟩

/-- The policy as the file states it, with its rules in their order. -/
def StatesPolicyFile (members : Members) (policy : StatedPolicy) : Prop :=
  Reads members "name" asString? policy.name ∧
    ReadsEach members "rules" (ReadsRule fileNumber?) policy.rules

theorem parseLifecyclePolicyFile_eq_ok {members : Members} {policyId : UuidV7}
    {policy : LifecyclePolicy} :
    parseLifecyclePolicyFile members policyId = .ok policy ↔
      ∃ stated, StatesPolicyFile members stated ∧ stated.policyId = policyId ∧
        stated.OneRuleEach ∧ policy = stated.narrow.toPolicy := by
  have hcollect := fun entries rules => @foldEach_distinct CliExc Json LifecycleRule _ _ entries
    parsePolicyFileRule LifecycleRule.artifactKind
    (.usage "policy file rules contain duplicate artifact kinds") [] rules List.nodup_nil
  simp only [parseLifecyclePolicyFile, bind_eq_ok, exists_unit, failIf_eq_ok, orFail_eq_ok,
    hcollect, mapEach_eq_ok_iff, parsePolicyFileRule_eq_ok, forall₂_map_exists, List.nil_append,
    not_not, Except.ok.injEq]
  constructor
  · rintro ⟨name, hname, entries, hentries, hlength, _, ⟨_, ⟨rules, hrules, rfl⟩, rfl, hkinds⟩, rfl⟩
    rw [kinds_narrow] at hkinds
    exact ⟨⟨policyId, name, rules⟩, ⟨hname, entries, hentries, hrules⟩, rfl,
      ⟨hrules.length_eq.symm.trans hlength, hkinds⟩, rfl⟩
  · rintro ⟨stated, ⟨hname, entries, hentries, hrules⟩, rfl, ⟨hlength, hkinds⟩, rfl⟩
    exact ⟨_, hname, entries, hentries, hrules.length_eq.trans hlength, _,
      ⟨_, ⟨_, hrules, rfl⟩, rfl, by rwa [kinds_narrow]⟩, rfl⟩

/-! ## The request of the client library -/

section

variable {policy : LifecyclePolicy}

theorem canonicalRules_ok (h : validateLifecyclePolicy policy = .ok ()) :
    ∃ rules, canonicalRules policy = .ok rules ∧
      rules.map LifecycleRule.artifactKind = ArtifactKind.all ∧
      ∀ rule ∈ rules, policy.rules.find? rule.artifactKind = some rule := by
  have hfound : ∀ kind ∈ ArtifactKind.all, ∃ rule, orFail (policy.rules.find? kind)
      (CliExc.invalidArgument "lifecycle policy is missing a canonical artifact kind rule") =
        .ok rule := fun kind _ => by
    obtain ⟨rule, hrule, -⟩ := rule_of_validateLifecyclePolicy h kind
    exact ⟨rule, orFail_eq_ok.mpr hrule⟩
  have hkind : ∀ kind rule, policy.rules.find? kind = some rule → rule.artifactKind = kind :=
    fun kind rule hrule => by
      obtain ⟨found, hfound, hkind, -⟩ := rule_of_validateLifecyclePolicy h kind
      obtain rfl := Option.some.inj (hfound.symm.trans hrule)
      exact hkind
  obtain ⟨rules, hrules⟩ := exists_mapEach_ok hfound
  refine ⟨rules, hrules, ?_, fun rule hrule => ?_⟩
  · have hmap := map_of_mapEach (g := LifecycleRule.artifactKind) (k := id) hrules
      fun kind rule hrule => hkind kind rule (orFail_eq_ok.mp hrule)
    rwa [List.map_id] at hmap
  · obtain ⟨kind, -, hrule⟩ := mem_of_mapEach hrules hrule
    have hfind := orFail_eq_ok.mp hrule
    rwa [hkind kind rule hfind]

theorem toPolicy_canonical {rules : List LifecycleRule}
    (hkinds : rules.map LifecycleRule.artifactKind = ArtifactKind.all)
    (hfind : ∀ rule ∈ rules, policy.rules.find? rule.artifactKind = some rule) :
    (StatedPolicy.mk policy.policyId policy.name rules).OneRuleEach ∧
      (StatedPolicy.mk policy.policyId policy.name rules).toPolicy = policy := by
  have hlength : rules.length = 5 := by
    rw [← List.length_map LifecycleRule.artifactKind, hkinds]
    rfl
  have hone : (StatedPolicy.mk policy.policyId policy.name rules).OneRuleEach :=
    ⟨hlength, by rw [hkinds]; decide⟩
  refine ⟨hone, ?_⟩
  have hrules : (StatedPolicy.mk policy.policyId policy.name rules).toPolicy.rules =
      policy.rules := by
    refine @OrderedMap.ext_find? ArtifactKind LifecycleRule _ _
      (fun hlt => Nat.lt_asymm hlt) _ _ fun kind rule => ?_
    rw [hone.find?_rules]
    constructor
    · rintro ⟨hrule, rfl⟩
      exact hfind rule hrule
    · intro hrule
      obtain ⟨found, hfound, hkind⟩ := hone.exists_rule kind
      have hsame := hfind found hfound
      rw [hkind, hrule] at hsame
      obtain rfl := Option.some.inj hsame
      exact ⟨hfound, hkind⟩
  exact congrArg (LifecyclePolicy.mk policy.policyId policy.name) hrules

theorem readsLifecycleRule_wire {rule : LifecycleRule} (hkeep : rule.keepLastN ≤ postgresBigintMax)
    (hage : ∀ maxAge ∈ rule.maxAgeSeconds, maxAge ≤ postgresBigintMax) :
    ReadsLifecycleRule (lifecycleRuleToJson rule).wire rule := by
  have hkeepWire := extractNonnegativeUint64_wire hkeep
  have hageWire : orNull extractNonnegativeUint64
      ((rule.maxAgeSeconds.map Json.uint64).getD .null).wire = some rule.maxAgeSeconds := by
    cases hmax : rule.maxAgeSeconds with
    | none => simp [orNull, wire]
    | some maxAge =>
        have hsmall : maxAge ≤ postgresBigintMax := hage maxAge hmax
        have hread := extractNonnegativeUint64_wire hsmall
        rw [wire_uint64 hsmall] at hread
        simp [wire_uint64 hsmall, orNull, hread]
  refine ⟨_, by rw [lifecycleRuleToJson, wire_object, asObject?], ?_, ?_, ?_, ?_⟩
  · exact hasExactKeys_of_keys rfl
  · simp [Reads, asString?, ArtifactKind.ofText?_toText]
  · simpa [Reads, lookup_cons] using hkeepWire
  · simpa [Reads, lookup_cons] using hageWire

theorem registerPolicyRequest_states (json : JsonLibrary (List UInt8)) (policy : LifecyclePolicy)
    {rules : List LifecycleRule}
    (h : ∀ rule ∈ rules, rule.keepLastN ≤ postgresBigintMax ∧
      ∀ maxAge ∈ rule.maxAgeSeconds, maxAge ≤ postgresBigintMax) :
    StatesLifecyclePolicy json (registerPolicyRequest json policy rules)
      ⟨policy.policyId, policy.name, rules⟩ := by
  refine ⟨rfl, _, by rw [registerPolicyRequest, json.parse_serialize, wire_object]; rfl, ?_, ?_, ?_,
    (rules.map lifecycleRuleToJson).map wire, ?_, ?_⟩
  · exact hasExactKeys_of_keys rfl
  · simp [Reads, asUuid?, asString?, UuidV7.parse_str, Except.toOption]
  · simp [Reads, lookup_cons, asString?]
  · simp [Reads, lookup_cons, asArray?]
  · rw [List.map_map, List.forall₂_map_left_iff, List.forall₂_same]
    exact fun rule hrule => readsLifecycleRule_wire (h rule hrule).1 (h rule hrule).2

theorem parseLifecyclePolicy_posted {json : JsonLibrary (List UInt8)} {rules : List LifecycleRule}
    (h : validateLifecyclePolicy policy = .ok ()) (hrules : canonicalRules policy = .ok rules) :
    parseLifecyclePolicy json (registerPolicyRequest json policy rules) = .ok policy := by
  obtain ⟨rules', hrules', hkinds, hfind⟩ := canonicalRules_ok h
  obtain rfl := Except.ok.inj (hrules.symm.trans hrules')
  obtain ⟨hone, hpolicy⟩ := toPolicy_canonical hkinds hfind
  have hvalid : ∀ rule ∈ rules, rule.keepLastN ≤ 1000 ∧ AgeValid rule := fun rule hrule => by
    obtain ⟨found, hfound, -, hvalid⟩ := rule_of_validateLifecyclePolicy h rule.artifactKind
    obtain rfl := Option.some.inj (hfound.symm.trans (hfind rule hrule))
    exact hvalid
  have hstates := registerPolicyRequest_states json policy fun rule hrule =>
    ⟨(hvalid rule hrule).1.trans (by decide), fun maxAge hmax =>
      ((hvalid rule hrule).2 maxAge hmax).trans (by decide)⟩
  refine parseLifecyclePolicy_eq_ok.mpr ⟨_, hstates, hone, ?_⟩
  rw [narrow_eq_self (not_truncated_of_bounded fun rule hrule => (hvalid rule hrule).1), hpolicy]

end

/-! ## The command -/

section

variable {env : Environment} {json : JsonLibrary (List UInt8)} {clock : Clock} {db final : Db}

theorem route_registerPolicyRequest (policy : LifecyclePolicy) (rules : List LifecycleRule) :
    route (registerPolicyRequest json policy rules) = .ok .registerLifecyclePolicy := by
  have hfragment : ¬Request.hasFragment ⟨.post, kLifecyclePoliciesCollection, "", []⟩ := by decide
  exact route_eq_ok_iff.mpr ⟨.inl rfl, ⟨rfl, hfragment⟩, .inl trivial⟩

theorem send_registerPolicyRequest {policy : LifecyclePolicy} {rules : List LifecycleRule}
    {payload : Payload} (hvalid : validateLifecyclePolicy policy = .ok ())
    (hrules : canonicalRules policy = .ok rules) :
    send env json clock (registerPolicyRequest json policy rules) db = (.ok payload, final) ↔
      registerLifecyclePolicy db policy = .ok final ∧
        payload = .lifecyclePolicy (registeredPolicy db policy) := by
  rw [send_eq_ok, handleRequest, route_registerPolicyRequest]
  refine handleRegisterLifecyclePolicy_eq_ok.trans ?_
  simp only [parseLifecyclePolicy_posted hvalid hrules, Except.ok.injEq, exists_eq_left']

theorem send_registerPolicyRequest_error {policy : LifecyclePolicy} {rules : List LifecycleRule}
    {e : Exc} (hvalid : validateLifecyclePolicy policy = .ok ())
    (hrules : canonicalRules policy = .ok rules) (h : registerLifecyclePolicy db policy = .error e) :
    ∃ thrown, send env json clock (registerPolicyRequest json policy rules) db =
      (.error thrown, db) := by
  obtain ⟨stop, hstop⟩ :=
    handleRegisterLifecyclePolicy_of_error (parseLifecyclePolicy_posted hvalid hrules) h
  have hrequest : handleRequest env json clock (registerPolicyRequest json policy rules) db =
      (.error stop, db) := by
    rw [handleRequest, route_registerPolicyRequest]
    exact hstop
  exact ⟨.remoteApi stop, by rw [send, hrequest]⟩

theorem clientRegisterLifecyclePolicy_of_registered {policy : LifecyclePolicy}
    (h : registerLifecyclePolicy db policy = .ok final) :
    clientRegisterLifecyclePolicy env json clock policy db =
      (if registeredPolicy db policy = policy then .ok policy
        else .error (.remoteProtocol "lifecycle policy response does not match request"),
        final) := by
  have hvalid := valid_of_registered h
  obtain ⟨rules, hrules, -⟩ := canonicalRules_ok hvalid
  have hsend := (@send_registerPolicyRequest env json clock db final _ _ _ hvalid hrules).mpr
    ⟨h, rfl⟩
  rw [clientRegisterLifecyclePolicy, hvalid, hrules]
  refine (Stateful.bind_of_ok rfl).trans ((Stateful.bind_of_ok rfl).trans
    ((Stateful.bind_of_ok hsend).trans ?_))
  by_cases hsame : registeredPolicy db policy = policy
  · rw [if_pos hsame, hsame]
    change (Stateful.check (failIf (policy ≠ policy) _) >>= _) final = _
    rw [failIf_of_false (not_not.mpr rfl)]
    rfl
  · rw [if_neg hsame]
    refine Stateful.bind_of_error ?_
    rw [failIf_of_true hsame]
    rfl

theorem clientRegisterLifecyclePolicy_of_refused {policy : LifecyclePolicy} {e : Exc}
    (h : registerLifecyclePolicy db policy = .error e) :
    ∃ thrown, clientRegisterLifecyclePolicy env json clock policy db = (.error thrown, db) := by
  rw [clientRegisterLifecyclePolicy]
  cases hvalid : validateLifecyclePolicy policy with
  | error e => exact ⟨_, rfl⟩
  | ok u =>
      obtain ⟨rules, hrules, -⟩ := canonicalRules_ok hvalid
      obtain ⟨thrown, hsend⟩ :=
        @send_registerPolicyRequest_error env json clock db _ _ _ hvalid hrules h
      rw [hrules]
      exact ⟨thrown, (Stateful.bind_of_ok rfl).trans ((Stateful.bind_of_ok rfl).trans
        (Stateful.bind_of_error hsend))⟩

/-- The command ends with the database: it returned, or the service stored something. -/
def Registers (command : Stateful Db CliExc LifecyclePolicy) (db final : Db) : Prop :=
  ∃ outcome, command db = (outcome, final) ∧ (outcome.isOk ∨ final ≠ db)

theorem clientRegisterLifecyclePolicy_registers_iff {policy : LifecyclePolicy} :
    Registers (clientRegisterLifecyclePolicy env json clock policy) db final ↔
      registerLifecyclePolicy db policy = .ok final := by
  constructor
  · rintro ⟨outcome, hrun, hregisters⟩
    cases hregister : registerLifecyclePolicy db policy with
    | ok stored =>
        rw [clientRegisterLifecyclePolicy_of_registered hregister] at hrun
        exact congrArg Except.ok (Prod.ext_iff.mp hrun).2
    | error e =>
        obtain ⟨thrown, hthrown⟩ :=
          @clientRegisterLifecyclePolicy_of_refused env json clock db _ _ hregister
        obtain ⟨rfl, rfl⟩ := Prod.ext_iff.mp (hthrown.symm.trans hrun)
        exact absurd rfl (hregisters.resolve_left Bool.false_ne_true)
  · intro hregister
    refine ⟨_, clientRegisterLifecyclePolicy_of_registered hregister, ?_⟩
    by_cases hsame : registeredPolicy db policy = policy
    · exact .inl (by rw [if_pos hsame]; rfl)
    · refine .inr fun hfinal => hsame ?_
      have hstored := find?_registered hregister
      rw [hfinal] at hstored
      exact (exists_registered.mp ⟨final, hregister⟩).2.1 _ hstored

theorem lifecyclePolicyCreate_registers_iff {contents : List UInt8} {policyId : UuidV7} :
    Registers (lifecyclePolicyCreate env json clock contents policyId) db final ↔
      ∃ members policy, (json.parse contents).bind asObject? = some members ∧
        StatesPolicyFile members policy ∧ policy.policyId = policyId ∧ policy.OneRuleEach ∧
        registerLifecyclePolicy db policy.narrow.toPolicy = .ok final := by
  cases hmembers : (json.parse contents).bind asObject? with
  | none =>
      refine iff_of_false ?_ (by simp)
      rintro ⟨outcome, hrun, hregisters⟩
      rw [lifecyclePolicyCreate, hmembers] at hrun
      obtain ⟨rfl, rfl⟩ := Prod.ext_iff.mp hrun
      exact absurd rfl (hregisters.resolve_left Bool.false_ne_true)
  | some members =>
      have hcreate : lifecyclePolicyCreate env json clock contents policyId =
          Stateful.check (parseLifecyclePolicyFile members policyId) >>=
            clientRegisterLifecyclePolicy env json clock := by
        rw [lifecyclePolicyCreate, hmembers]
        rfl
      cases hparse : parseLifecyclePolicyFile members policyId with
      | error e =>
          refine iff_of_false ?_ ?_
          · rintro ⟨outcome, hrun, hregisters⟩
            rw [hcreate, hparse] at hrun
            obtain ⟨rfl, rfl⟩ := Prod.ext_iff.mp hrun
            exact absurd rfl (hregisters.resolve_left Bool.false_ne_true)
          · rintro ⟨_, policy, hsame, hstates, hid, hone, -⟩
            obtain rfl := Option.some.inj hsame
            have hok := parseLifecyclePolicyFile_eq_ok.mpr ⟨policy, hstates, hid, hone, rfl⟩
            rw [hparse] at hok
            cases hok
      | ok parsed =>
          have hruns : Registers (lifecyclePolicyCreate env json clock contents policyId) db final ↔
              Registers (clientRegisterLifecyclePolicy env json clock parsed) db final := by
            rw [hcreate, hparse]
            rfl
          rw [hruns, clientRegisterLifecyclePolicy_registers_iff]
          constructor
          · intro hregister
            obtain ⟨policy, hstates, hid, hone, rfl⟩ := parseLifecyclePolicyFile_eq_ok.mp hparse
            exact ⟨members, policy, rfl, hstates, hid, hone, hregister⟩
          · rintro ⟨_, policy, hsame, hstates, hid, hone, hregister⟩
            obtain rfl := Option.some.inj hsame
            have hok := parseLifecyclePolicyFile_eq_ok.mpr ⟨policy, hstates, hid, hone, rfl⟩
            rwa [← Except.ok.inj (hparse.symm.trans hok)] at hregister

end

/-- A policy that the command registers is stored with the integers that its file writes. -/
def FileKeepsNumbers (env : Environment) (json : JsonLibrary (List UInt8)) (clock : Clock)
    (contents : List UInt8) (policyId : UuidV7) (db : Db) : Prop :=
  ∀ final, Registers (lifecyclePolicyCreate env json clock contents policyId) db final →
    ∃ members, (json.parse contents).bind asObject? = some members ∧
      StoresAsWritten fileInteger? members policyId final

section

variable {env : Environment} {json : JsonLibrary (List UInt8)} {clock : Clock} {db : Db}

theorem fileKeepsNumbers_iff {contents : List UInt8} {policyId : UuidV7} :
    FileKeepsNumbers env json clock contents policyId db ↔
      ¬∃ members policy, (json.parse contents).bind asObject? = some members ∧
        StatesPolicyFile members policy ∧ policy.policyId = policyId ∧
        policy.AcceptedTruncated db := by
  constructor
  · rintro hkeeps ⟨members, policy, hmembers, hstates, rfl, htruncated, haccepted⟩
    have hone : policy.OneRuleEach := .of_narrow haccepted.1.1.1
    obtain ⟨final, hregister⟩ := (exists_registered_narrow hone).mpr haccepted
    obtain ⟨members', hmembers', hstores⟩ := hkeeps final
      (lifecyclePolicyCreate_registers_iff.mpr
        ⟨members, policy, hmembers, hstates, rfl, hone, hregister⟩)
    obtain rfl := Option.some.inj (hmembers.symm.trans hmembers')
    exact (storesAsWritten_iff readsIntegers_file hstates.2 hone hregister).mp hstores htruncated
  · intro hnone final hregisters
    obtain ⟨members, policy, hmembers, hstates, rfl, hone, hregister⟩ :=
      lifecyclePolicyCreate_registers_iff.mp hregisters
    have haccepted := (exists_registered_narrow hone).mp ⟨final, hregister⟩
    have htruncated : ¬policy.Truncated := fun htruncated =>
      hnone ⟨members, policy, hmembers, hstates, rfl, htruncated, haccepted⟩
    exact ⟨members, hmembers,
      (storesAsWritten_iff readsIntegers_file hstates.2 hone hregister).mpr htruncated⟩

end

/-- An accepted policy is stored with the integers of its request or file exactly if none of
its counts was truncated to one that the validator allows. -/
theorem policy_numbers_kept_iff (env : Environment) (json : JsonLibrary (List UInt8))
    (clock : Clock) (db : Db) :
    (∀ request, KeepsNumbers json request db ↔
      ¬∃ policy, StatesLifecyclePolicy json request policy ∧ policy.AcceptedTruncated db) ∧
    ∀ contents policyId, FileKeepsNumbers env json clock contents policyId db ↔
      ¬∃ members policy, (json.parse contents).bind asObject? = some members ∧
        StatesPolicyFile members policy ∧ policy.policyId = policyId ∧
        policy.AcceptedTruncated db :=
  ⟨fun _ => keepsNumbers_iff, fun _ _ => fileKeepsNumbers_iff⟩

def Sample.truncatedRules : List LifecycleRule :=
  ArtifactKind.all.map fun kind => ⟨kind, 2 ^ 32 + 5, none⟩

/-- They are accepted as rules that keep five. -/
theorem truncated_count_is_stored :
    ¬KeepsNumbers treeJson
      (registerPolicyRequest treeJson Metadata.Sample.policy Sample.truncatedRules)
      Db.initial := by
  have hbounds : ∀ rule ∈ Sample.truncatedRules, rule.keepLastN ≤ postgresBigintMax ∧
      ∀ maxAge ∈ rule.maxAgeSeconds, maxAge ≤ postgresBigintMax := by decide
  have hstates := registerPolicyRequest_states treeJson Metadata.Sample.policy hbounds
  have htruncated : StatedPolicy.Truncated
      ⟨Metadata.Sample.policy.policyId, Metadata.Sample.policy.name, Sample.truncatedRules⟩ :=
    ⟨⟨.generic, 2 ^ 32 + 5, none⟩, List.mem_cons_self .., by decide⟩
  rw [keepsNumbers_iff, not_not]
  refine ⟨_, hstates, htruncated, ⟨⟨⟨rfl, by decide⟩, ⟨by decide, by decide⟩, ?_⟩, ?_⟩, ?_, ?_⟩
  · simp only [AgeValid]
    decide
  · decide
  · intro stored hstored
    cases hstored
  · exact fun _ => by decide

end AiArtifactStore.Service
