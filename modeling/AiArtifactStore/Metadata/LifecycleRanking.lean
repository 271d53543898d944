import AiArtifactStore.Foundation.Retention
import AiArtifactStore.Metadata.LifecycleProgress
import Mathlib.Data.Prod.Lex
import Mathlib.Order.Defs.LinearOrder

/-!
# Ranks of candidates

One sort and one running counter rank the candidates of every artifact and kind
at once.  The counter has 32 bits.  The decisions about the candidates are those
of a retention policy over exact ranks, as long as no group outgrows the counter.
-/

namespace AiArtifactStore.Metadata

open AiArtifactStore.Foundation
open AiArtifactStore.Identity

section

variable {db : Db} {policy : LifecyclePolicy} {evaluatedAtMs : Int}

/-! ## The order of the sort -/

def ArtifactKind.textRank : ArtifactKind → Nat
  | .datasetSnapshot => 0
  | .embeddingIndex => 1
  | .evaluationOutput => 2
  | .generic => 3
  | .modelCheckpoint => 4

theorem toText_lt_iff (a b : ArtifactKind) : a.toText < b.toText ↔ a.textRank < b.textRank := by
  cases a <;> cases b <;> decide +kernel

theorem textRank_inj {a b : ArtifactKind} : a.textRank = b.textRank ↔ a = b := by
  cases a <;> cases b <;> decide

def Candidate.group (candidate : Candidate) : UuidV7 × ArtifactKind :=
  (candidate.artifactId, candidate.artifactKind)

theorem group_eq_iff {a b : Candidate} :
    a.group = b.group ↔ a.artifactId = b.artifactId ∧ a.artifactKind = b.artifactKind :=
  Prod.ext_iff

def Candidate.sortKey (candidate : Candidate) : ℕ ×ₗ ℕ ×ₗ ℤ ×ₗ ℕ :=
  toLex (candidate.artifactId.bits.toNat, toLex (candidate.artifactKind.textRank,
    toLex (-candidate.createdAt, candidate.versionId.digest.toNat)))

theorem artifactBits_inj {a b : UuidV7} : a.bits.toNat = b.bits.toNat ↔ a = b := by
  constructor
  · intro h
    cases a
    cases b
    congr 1
    exact BitVec.eq_of_toNat_eq h
  · exact fun h => h ▸ rfl

theorem before_iff {a b : Candidate} : a.before b = true ↔ a.sortKey < b.sortKey := by
  simp only [Candidate.before, Candidate.sortKey, Prod.Lex.toLex_lt_toLex, artifactBits_inj,
    textRank_inj, neg_inj, neg_lt_neg_iff, ← toText_lt_iff]
  by_cases hartifact : a.artifactId = b.artifactId
  · by_cases hkind : a.artifactKind = b.artifactKind
    · by_cases hcreated : a.createdAt = b.createdAt
      · simp [hartifact, hkind, hcreated, ContentId.lt_iff]
      · simp [hartifact, hkind, hcreated]
    · simp [hartifact, hkind]
  · simp only [hartifact, ne_eq, not_false_eq_true, ↓reduceIte, decide_eq_true_eq, false_and,
      or_false]
    exact Iff.rfl

/-- In one group the order is newest first, with ties by version id. -/
theorem before_of_group_eq {a b : Candidate} (h : a.group = b.group) :
    a.before b = true ↔
      b.createdAt < a.createdAt ∨ (a.createdAt = b.createdAt ∧ a.versionId < b.versionId) := by
  obtain ⟨hartifact, hkind⟩ := group_eq_iff.mp h
  simp only [Candidate.before, hartifact, hkind, ne_eq, not_true_eq_false, ↓reduceIte]
  by_cases hcreated : a.createdAt = b.createdAt
  · simp [hcreated]
  · simp [hcreated]

theorem groupedOrder_before : GroupedOrder Candidate.group Candidate.before := by
  constructor
  · intro a b hab
    rw [before_iff] at hab
    rw [Bool.eq_false_iff, ne_eq, before_iff]
    exact hab.asymm
  · intro a b c hab hbc hsame
    rw [before_iff] at hab hbc
    simp only [Candidate.sortKey, Prod.Lex.toLex_lt_toLex] at hab hbc
    simp only [group_eq_iff, ← artifactBits_inj, ← textRank_inj] at hsame ⊢
    omega

theorem pairwise_sortCandidates {candidates : List Candidate}
    (h : (candidates.map Candidate.versionId).Nodup) :
    (sortCandidates candidates).Pairwise fun a b => a.before b = true := by
  have hle : ∀ a b : Candidate, b.before a = false ↔ a.sortKey ≤ b.sortKey := fun a b => by
    rw [Bool.eq_false_iff, ne_eq, before_iff, not_lt]
  have : Std.Total fun a b : Candidate => b.before a = false := by
    refine ⟨fun a b => ?_⟩
    rw [hle, hle]
    exact le_total _ _
  have : IsTrans Candidate fun a b => b.before a = false := by
    refine ⟨fun a b c hab hbc => ?_⟩
    rw [hle] at hab hbc ⊢
    exact hab.trans hbc
  have hsorted := List.pairwise_insertionSort (fun a b : Candidate => b.before a = false) candidates
  have hnodup : ((sortCandidates candidates).map Candidate.versionId).Nodup :=
    ((List.perm_insertionSort _ _).map _).nodup_iff.mpr h
  rw [List.Nodup, List.pairwise_map] at hnodup
  refine (hsorted.and hnodup).imp fun {a b} hpair => ?_
  rw [before_iff]
  refine lt_of_le_of_ne ((hle a b).mp hpair.1) fun hkey => hpair.2 ?_
  simp only [Candidate.sortKey, toLex_inj, Prod.mk.injEq] at hkey
  exact ContentId.ext_toNat hkey.2.2.2

theorem rankCandidates_eq_numberGroups (previous : Option (Candidate × Nat))
    (candidates : List Candidate) :
    rankCandidates previous candidates =
      numberGroups Candidate.group (2 ^ 32) previous candidates := by
  induction candidates generalizing previous with
  | nil => rfl
  | cons candidate rest ih =>
      rcases previous with - | ⟨last, rank⟩
      · simp only [rankCandidates, numberGroups, ih]
      · by_cases hgroup : last.group = candidate.group
        · simp only [rankCandidates, numberGroups, ih, hgroup, group_eq_iff.mp hgroup, and_self,
            ↓reduceIte]
        · simp only [rankCandidates, numberGroups, ih, hgroup, mt group_eq_iff.mpr hgroup,
            ↓reduceIte]

/-! ## The candidates of a database -/

def Candidates (db : Db) (candidates : List Candidate) : Prop :=
  mapEach (candidateRows db) (readCandidate db) = .ok candidates

theorem Candidates.nodup {candidates : List Candidate} (h : Candidates db candidates) :
    (candidates.map Candidate.versionId).Nodup := by
  have hids : candidates.map Candidate.versionId =
      (candidateRows db).map fun row => row.1.versionId :=
    map_of_mapEach h fun row candidate hrow => (readCandidate_fields hrow).1
  rw [hids]
  exact nodup_candidateRows db

theorem Candidates.not_retired {candidates : List Candidate} (h : Candidates db candidates)
    {candidate : Candidate} (hmem : candidate ∈ candidates) : ¬db.Retired candidate.versionId := by
  obtain ⟨row, hrow, hread⟩ := mem_of_mapEach h hmem
  rw [(readCandidate_fields hread).1]
  exact not_retired_of_candidate hrow

theorem rankCandidates_sort {candidates : List Candidate} (h : Candidates db candidates) :
    rankCandidates none (sortCandidates candidates) =
      (sortCandidates candidates).map fun candidate =>
        (candidate, rankIn Candidate.group Candidate.before candidates candidate % 2 ^ 32) := by
  rw [rankCandidates_eq_numberGroups,
    numberGroups_eq groupedOrder_before (by decide) (pairwise_sortCandidates h.nodup)]
  refine List.map_congr_left fun candidate _ => ?_
  rw [sortCandidates, rankIn_perm (List.perm_insertionSort _ candidates)]

/-! ## Decisions -/

def decisionOf (rule : LifecycleRule) (evaluatedAtMs : Int) (candidate : Candidate) (rank : Nat) :
    LifecycleDecision :=
  { versionId := candidate.versionId
    artifactId := candidate.artifactId
    artifactKind := candidate.artifactKind
    retire := decisionReason rule evaluatedAtMs candidate rank = .policyRetire
    reason := decisionReason rule evaluatedAtMs candidate rank
    logicalSizeBytes := candidate.logicalSizeBytes }

theorem decide?_eq_ok {ranked : Candidate × Nat} {d : LifecycleDecision} :
    decide? policy evaluatedAtMs ranked = .ok d ↔
      ∃ rule, policy.rules.find? ranked.1.artifactKind = some rule ∧
        d = decisionOf rule evaluatedAtMs ranked.1 ranked.2 := by
  simp only [decide?, bind_eq_ok, orFail_eq_ok, Except.ok.injEq]
  exact exists_congr fun rule => and_congr_right fun _ => eq_comm

/-- The decisions are exactly those about the candidates under their ranks. -/
theorem mem_lifecycleDecisions {candidates : List Candidate} {decisions : List LifecycleDecision}
    (hcandidates : Candidates db candidates)
    (h : lifecycleDecisions db policy evaluatedAtMs = .ok decisions) {d : LifecycleDecision} :
    d ∈ decisions ↔ ∃ candidate ∈ candidates, ∃ rule,
      policy.rules.find? candidate.artifactKind = some rule ∧
        d = decisionOf rule evaluatedAtMs candidate
          (rankIn Candidate.group Candidate.before candidates candidate % 2 ^ 32) := by
  rw [lifecycleDecisions, hcandidates, ok_bind, rankCandidates_sort hcandidates] at h
  have hmem : ∀ candidate, candidate ∈ sortCandidates candidates ↔ candidate ∈ candidates :=
    fun _ => List.mem_insertionSort _
  constructor
  · intro hd
    obtain ⟨ranked, hranked, hdecide⟩ := mem_of_mapEach h hd
    obtain ⟨candidate, hcandidate, rfl⟩ := List.mem_map.mp hranked
    exact ⟨candidate, (hmem candidate).mp hcandidate, decide?_eq_ok.mp hdecide⟩
  · rintro ⟨candidate, hcandidate, rule, hrule, rfl⟩
    obtain ⟨d, hd, hdecide⟩ := mapEach_mem h
      (List.mem_map_of_mem ((hmem candidate).mpr hcandidate))
    obtain ⟨rule', hrule', rfl⟩ := decide?_eq_ok.mp hdecide
    obtain rfl := Option.some.inj (hrule.symm.trans hrule')
    exact hd

theorem decisionReason_eq_policyRetire {rule : LifecycleRule} {candidate : Candidate} {rank : Nat} :
    decisionReason rule evaluatedAtMs candidate rank = .policyRetire ↔
      (candidate.pinned = false ∧ candidate.tagged = false ∧
        candidate.manifestReferenced = false) ∧
        rule.keepLastN < rank ∧ ∀ maxAge ∈ rule.maxAgeSeconds,
          1000000 * (maxAge : Int) ≤ 1000 * evaluatedAtMs - candidate.createdAt := by
  simp only [decisionReason]
  split
  · simp [*]
  split
  · simp [*]
  split
  · simp [*]
  split
  · rename_i hrank
    simp [Nat.not_lt.mpr hrank]
  split
  · rename_i hage
    obtain ⟨maxAge, hmem, hyoung⟩ := hage
    simp only [reduceCtorEq, false_iff, not_and, not_forall]
    exact fun _ _ => ⟨maxAge, hmem, by omega⟩
  · rename_i hpinned htagged hmanifest hrank hage
    simp only [not_exists, not_and, Int.not_lt] at hage
    simp only [Bool.not_eq_true] at hpinned htagged hmanifest
    simp only [true_iff]
    exact ⟨⟨hpinned, htagged, hmanifest⟩, Nat.lt_of_not_le hrank, hage⟩

end

end AiArtifactStore.Metadata
