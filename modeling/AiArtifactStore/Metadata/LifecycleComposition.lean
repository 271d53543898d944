import AiArtifactStore.Metadata.LifecycleDecisions

/-!
# Runs in sequence

A lifecycle run is one application of a retention policy to the candidates, so
an apply run at one time followed by another at a later time retires what the
later one alone would retire.  Ranks have 32 bits: in a larger group the ranks
wrap, and a second run retires what the first one kept.
-/

namespace AiArtifactStore.Metadata

open AiArtifactStore.Foundation
open AiArtifactStore.Identity

section

variable {db db' : Db} {policy : LifecyclePolicy} {mode : LifecycleRunMode} {t t' : Int}
  {runId : UuidV7} {run : LifecycleRun} {decisions : List LifecycleDecision}
  {candidates : List Candidate}

/-! ## The retention policy -/

def hasAged (rule : LifecycleRule) (evaluatedAtMs : Int) (candidate : Candidate) : Bool :=
  decide (∀ maxAge ∈ rule.maxAgeSeconds,
    1000000 * (maxAge : Int) ≤ 1000 * evaluatedAtMs - candidate.createdAt)

def LifecyclePolicy.retention (policy : LifecyclePolicy) :
    RetentionPolicy Int Candidate.group Candidate.before where
  exempt candidate := candidate.pinned || candidate.tagged || candidate.manifestReferenced
  keeps candidate :=
    ((policy.rules.find? candidate.artifactKind).map LifecycleRule.keepLastN).getD 0
  aged t candidate := (policy.rules.find? candidate.artifactKind).any fun rule =>
    hasAged rule t candidate
  aged_mono := by
    intro t t' candidate htimes haged
    obtain ⟨rule, hrule, haged⟩ := (Option.any_eq_true _ _).mp haged
    refine (Option.any_eq_true _ _).mpr ⟨rule, hrule, decide_eq_true fun maxAge hmem => ?_⟩
    have hbound := of_decide_eq_true haged maxAge hmem
    omega
  aged_later := by
    intro t a b hgroup hbefore haged
    obtain ⟨-, hkind⟩ := group_eq_iff.mp hgroup
    obtain ⟨rule, hrule, haged⟩ := (Option.any_eq_true _ _).mp haged
    rw [hkind] at hrule
    refine (Option.any_eq_true _ _).mpr ⟨rule, hrule, decide_eq_true fun maxAge hmem => ?_⟩
    have hbound := of_decide_eq_true haged maxAge hmem
    rw [before_of_group_eq hgroup] at hbefore
    omega

theorem decisionOf_retire {rule : LifecycleRule} {candidate : Candidate} {rank : Nat}
    (hrule : policy.rules.find? candidate.artifactKind = some rule) :
    (decisionOf rule t candidate rank).retire = true ↔
      policy.retention.exempt candidate = false ∧ policy.retention.keeps candidate < rank ∧
        policy.retention.aged t candidate = true := by
  simp [decisionOf, decisionReason_eq_policyRetire, LifecyclePolicy.retention, hasAged, hrule,
    and_assoc]

theorem marked_iff (hfits : RanksFit db) (hcandidates : Candidates db candidates)
    (h : lifecycleDecisions db policy t = .ok decisions) (versionId : ContentId) :
    (∃ d ∈ decisions, d.versionId = versionId ∧ d.retire = true) ↔
      ∃ candidate ∈ candidates, candidate.versionId = versionId ∧
        policy.retention.due t candidates candidate = true := by
  constructor
  · rintro ⟨d, hd, hid, hretire⟩
    obtain ⟨candidate, hmem, rule, hrule, rfl⟩ := (mem_lifecycleDecisions hcandidates h).mp hd
    rw [decisionOf_retire hrule, Nat.mod_eq_of_lt (rankIn_lt hfits hcandidates hmem)] at hretire
    exact ⟨candidate, hmem, hid, RetentionPolicy.due_iff.mpr hretire⟩
  · rintro ⟨candidate, hmem, hid, hdue⟩
    have hdue := RetentionPolicy.due_iff.mp hdue
    obtain ⟨rule, hrule, -⟩ := (Option.any_eq_true _ _).mp hdue.2.2
    refine ⟨_, (mem_lifecycleDecisions hcandidates h).mpr ⟨candidate, hmem, rule, hrule, rfl⟩, hid,
      ?_⟩
    rw [decisionOf_retire hrule, Nat.mod_eq_of_lt (rankIn_lt hfits hcandidates hmem)]
    exact hdue

/-! ## The database after a run -/

/-- What a run returns leaves every table but two alone. -/
def Db.afterRun (db : Db) (lifecycleRuns : Table LifecycleRunRow.runId)
    (retirements : Table RetirementRow.versionId) : Db :=
  { db with lifecycleRuns := lifecycleRuns, retirements := retirements }

theorem joinObjects_filter (db : Db) (versions : List VersionRow) (keep : VersionRow → Bool) :
    (versions.filter keep).filterMap (fun version =>
      (db.objects.find? version.rootObjectId).map fun object => (version, object)) =
      (versions.filterMap fun version =>
        (db.objects.find? version.rootObjectId).map fun object => (version, object)).filter
          fun row => keep row.1 := by
  induction versions with
  | nil => rfl
  | cons version rest ih =>
      cases hobject : db.objects.find? version.rootObjectId with
      | none => cases hkeep : keep version <;> simp [hobject, hkeep, ih]
      | some object => cases hkeep : keep version <;> simp [hobject, hkeep, ih]

section

variable {runs : Table LifecycleRunRow.runId} {retirements : Table RetirementRow.versionId}

theorem isCurrent_afterRun
    (hkept : ∀ versionId, db.Retired versionId → (db.afterRun runs retirements).Retired versionId)
    (version : VersionRow) :
    (db.afterRun runs retirements).isCurrent version =
      (db.isCurrent version &&
        !(db.afterRun runs retirements).isVersionRetired version.versionId) := by
  rw [Bool.eq_iff_iff, Bool.and_eq_true, isCurrent_iff, isCurrent_iff, Bool.not_eq_true',
    Db.isVersionRetired_eq_false]
  constructor
  · rintro ⟨hstate, hlive⟩
    exact ⟨⟨hstate, fun hretired => hlive (hkept _ hretired)⟩, hlive⟩
  · rintro ⟨⟨hstate, -⟩, hlive⟩
    exact ⟨hstate, hlive⟩

theorem candidates_afterRun
    (hkept : ∀ versionId, db.Retired versionId → (db.afterRun runs retirements).Retired versionId)
    (h : Candidates db candidates) :
    Candidates (db.afterRun runs retirements) (candidates.filter fun candidate =>
      !(db.afterRun runs retirements).isVersionRetired candidate.versionId) := by
  have hrows : candidateRows (db.afterRun runs retirements) = (candidateRows db).filter fun row =>
      !(db.afterRun runs retirements).isVersionRetired row.1.versionId := by
    have hfilter : db.artifactVersions.rows.filter (db.afterRun runs retirements).isCurrent =
        (db.artifactVersions.rows.filter db.isCurrent).filter fun version =>
          !(db.afterRun runs retirements).isVersionRetired version.versionId := by
      rw [List.filter_filter]
      refine List.filter_congr fun version _ => ?_
      rw [isCurrent_afterRun hkept, Bool.and_comm]
    change List.filterMap _
      (db.artifactVersions.rows.filter (db.afterRun runs retirements).isCurrent) = _
    rw [hfilter]
    exact joinObjects_filter db _ _
  rw [Candidates, hrows]
  exact mapEach_filter h fun row _ candidate hread => by rw [(readCandidate_fields hread).1]

theorem ranksFit_afterRun
    (hkept : ∀ versionId, db.Retired versionId → (db.afterRun runs retirements).Retired versionId)
    (h : RanksFit db) : RanksFit (db.afterRun runs retirements) := by
  intro version hversion
  refine (List.countP_mono_left fun other _ hother => ?_).trans_lt (h version hversion)
  simp only [Db.inPartition, isCurrent_afterRun hkept, Bool.and_eq_true] at hother ⊢
  exact ⟨⟨hother.1.1.1, hother.1.2⟩, hother.2⟩

end

/-! ## Apply runs -/

theorem RanLifecycle.kept (h : RanLifecycle db runId policy mode t run decisions db')
    (versionId : ContentId) (hretired : db.Retired versionId) : db'.Retired versionId :=
  (h.retired versionId).mpr (.inl hretired)

theorem RanLifecycle.retired_apply (h : RanLifecycle db runId policy .apply t run decisions db')
    (hfits : RanksFit db) (hcandidates : Candidates db candidates) (versionId : ContentId) :
    db'.Retired versionId ↔ db.Retired versionId ∨ ∃ candidate ∈ candidates,
      candidate.versionId = versionId ∧ policy.retention.due t candidates candidate = true := by
  rw [h.retired versionId, ← marked_iff hfits hcandidates h.decided]
  refine or_congr_right (exists_congr fun d => ?_)
  rw [mem_retirementsToPersist (decided_of_lifecycleDecisions h.decided)]
  simp only [true_and, and_assoc]
  exact and_congr_right fun _ => and_comm

theorem RanLifecycle.candidates_apply (h : RanLifecycle db runId policy .apply t run decisions db')
    (hfits : RanksFit db) (hcandidates : Candidates db candidates) :
    Candidates db' (policy.retention.retain t candidates) := by
  have hafter : Candidates db' (candidates.filter fun candidate =>
      !db'.isVersionRetired candidate.versionId) := by
    have hkept := h.kept
    rw [h.db_eq] at hkept ⊢
    exact candidates_afterRun hkept hcandidates
  have hretain : policy.retention.retain t candidates =
      candidates.filter fun candidate => !db'.isVersionRetired candidate.versionId := by
    refine List.filter_congr fun candidate hcandidate => ?_
    congr 1
    rw [Bool.eq_iff_iff, Db.isVersionRetired_iff, h.retired_apply hfits hcandidates]
    constructor
    · exact fun hdue => .inr ⟨candidate, hcandidate, rfl, hdue⟩
    · rintro (hretired | ⟨other, hother, hid, hdue⟩)
      · exact absurd hretired (hcandidates.not_retired hcandidate)
      · rwa [← List.inj_on_of_nodup_map hcandidates.nodup hother hcandidate hid]
  rw [hretain]
  exact hafter

theorem RanLifecycle.retired_apply_apply {db'' : Db} {runId' : UuidV7} {run' : LifecycleRun}
    {decisions' : List LifecycleDecision}
    (h : RanLifecycle db runId policy .apply t run decisions db')
    (h' : RanLifecycle db' runId' policy .apply t' run' decisions' db'') (htimes : t ≤ t')
    (hfits : RanksFit db) (hcandidates : Candidates db candidates) (versionId : ContentId) :
    db''.Retired versionId ↔ db.Retired versionId ∨ ∃ candidate ∈ candidates,
      candidate.versionId = versionId ∧ policy.retention.due t' candidates candidate = true := by
  have hfits' : RanksFit db' := by
    have hkept := h.kept
    rw [h.db_eq] at hkept ⊢
    exact ranksFit_afterRun hkept hfits
  rw [h'.retired_apply hfits' (h.candidates_apply hfits hcandidates),
    h.retired_apply hfits hcandidates, or_assoc, ← exists_or]
  refine or_congr_right (exists_congr fun candidate => ?_)
  rw [and_left_comm, and_left_comm (b := candidate.versionId = versionId), ← and_or_left,
    RetentionPolicy.due_or_due_retain htimes, and_left_comm]

theorem RanLifecycle.lifecyclePolicies (h : RanLifecycle db runId policy mode t run decisions db') :
    db'.lifecyclePolicies = db.lifecyclePolicies := by
  rw [h.db_eq]

/-- While 32 bits hold every rank, lifecycle runs compose. -/
theorem runLifecycle_composes {policyId first : UuidV7} (hfits : RanksFit db) (htimes : t ≤ t')
    (hfresh : db.lifecycleRuns.find? first = none)
    (hrun : runLifecycle db first policyId .apply t = .ok (run, db')) :
    (∀ second run₂ db₂ single run₃ db₃, db'.lifecycleRuns.find? second = none →
        runLifecycle db' second policyId .apply t' = .ok (run₂, db₂) →
        db.lifecycleRuns.find? single = none →
        runLifecycle db single policyId .apply t' = .ok (run₃, db₃) →
        ∀ versionId, db₂.Retired versionId ↔ db₃.Retired versionId) ∧
      (∀ second run₂ db₂, db'.lifecycleRuns.find? second = none →
        runLifecycle db' second policyId .apply t = .ok (run₂, db₂) →
        ∀ versionId, db₂.Retired versionId ↔ db'.Retired versionId) ∧
      ∀ dry run₄ db₄, db.lifecycleRuns.find? dry = none →
        runLifecycle db dry policyId .dryRun t = .ok (run₄, db₄) →
        ∃ decisions, db₄.lifecycleRuns.find? dry = some ⟨run₄, decisions⟩ ∧
          ∀ versionId, (∃ d ∈ decisions, d.versionId = versionId ∧ d.retire = true) ↔
            db'.Retired versionId ∧ ¬db.Retired versionId := by
  obtain ⟨policy, decisions, hpolicy, hran⟩ := ranLifecycle_of_ok hfresh hrun
  obtain ⟨candidates, hcandidates⟩ := exists_candidates hran.decided
  have hsecond : ∀ {second time run₂ db₂}, db'.lifecycleRuns.find? second = none →
      runLifecycle db' second policyId .apply time = .ok (run₂, db₂) →
      ∃ decisions₂, RanLifecycle db' second policy .apply time run₂ decisions₂ db₂ := by
    intro second time run₂ db₂ hfresh₂ hrun₂
    obtain ⟨policy₂, decisions₂, hpolicy₂, hran₂⟩ := ranLifecycle_of_ok hfresh₂ hrun₂
    rw [hran.lifecyclePolicies] at hpolicy₂
    obtain rfl := Option.some.inj (hpolicy.symm.trans hpolicy₂)
    exact ⟨decisions₂, hran₂⟩
  refine ⟨?_, ?_, ?_⟩
  · intro second run₂ db₂ single run₃ db₃ hfresh₂ hrun₂ hfresh₃ hrun₃ versionId
    obtain ⟨decisions₂, hran₂⟩ := hsecond hfresh₂ hrun₂
    obtain ⟨policy₃, decisions₃, hpolicy₃, hran₃⟩ := ranLifecycle_of_ok hfresh₃ hrun₃
    obtain rfl := Option.some.inj (hpolicy.symm.trans hpolicy₃)
    rw [hran.retired_apply_apply hran₂ htimes hfits hcandidates,
      hran₃.retired_apply hfits hcandidates]
  · intro second run₂ db₂ hfresh₂ hrun₂ versionId
    obtain ⟨decisions₂, hran₂⟩ := hsecond hfresh₂ hrun₂
    rw [hran.retired_apply_apply hran₂ le_rfl hfits hcandidates,
      hran.retired_apply hfits hcandidates]
  · intro dry run₄ db₄ hfresh₄ hrun₄
    obtain ⟨policy₄, decisions₄, hpolicy₄, hran₄⟩ := ranLifecycle_of_ok hfresh₄ hrun₄
    obtain rfl := Option.some.inj (hpolicy.symm.trans hpolicy₄)
    refine ⟨decisions₄, hran₄.stored, fun versionId => ?_⟩
    rw [marked_iff hfits hcandidates hran₄.decided, hran.retired_apply hfits hcandidates]
    constructor
    · rintro ⟨candidate, hcandidate, rfl, hdue⟩
      exact ⟨.inr ⟨candidate, hcandidate, rfl, hdue⟩, hcandidates.not_retired hcandidate⟩
    · rintro ⟨hretired | hdue, hnot⟩
      · exact absurd hretired hnot
      · exact hdue

end

open Sample in
/-- Only the parent is due at the first run, both versions are at the second. -/
theorem runLifecycle_composes_sample :
    ∃ run db' run₂ db₂ run₃ db₃,
      runLifecycle agingDb (uuid 5) agingPolicy.policyId .apply 1500 = .ok (run, db') ∧
      runLifecycle db' (uuid 6) agingPolicy.policyId .apply 3000 = .ok (run₂, db₂) ∧
      runLifecycle agingDb (uuid 9) agingPolicy.policyId .apply 3000 = .ok (run₃, db₃) ∧
      db'.Retired Sample.versionId ∧ ¬db'.Retired childId ∧ db₂.Retired childId ∧
      ∀ versionId, db₂.Retired versionId ↔ db₃.Retired versionId := by
  have hfits : RanksFit agingDb := by
    have hlength : agingDb.artifactVersions.rows.length < 2 ^ 32 := by decide +kernel
    exact fun version _ => List.countP_le_length.trans_lt hlength
  have hfirst : ((runLifecycle agingDb (uuid 5) agingPolicy.policyId .apply 1500).toOption.any
      fun result => result.2.isVersionRetired Sample.versionId &&
        !result.2.isVersionRetired childId &&
        (result.2.lifecycleRuns.find? (uuid 6)).isNone &&
        ((runLifecycle result.2 (uuid 6) agingPolicy.policyId .apply 3000).toOption.any
          fun result => result.2.isVersionRetired childId)) = true := by
    decide +kernel
  have hsingle : ((runLifecycle agingDb (uuid 9) agingPolicy.policyId .apply 3000).toOption.any
      fun _ => true) = true := by
    decide +kernel
  obtain ⟨⟨run, db'⟩, hrun, hfirst⟩ := Option.any_eq_true _ _ |>.mp hfirst
  obtain ⟨⟨run₃, db₃⟩, hrun₃, -⟩ := Option.any_eq_true _ _ |>.mp hsingle
  simp only [Bool.and_eq_true, Db.isVersionRetired_iff, Bool.not_eq_true',
    Db.isVersionRetired_eq_false, Option.isNone_iff_eq_none] at hfirst
  obtain ⟨⟨⟨hparent, hchild⟩, hfresh⟩, hsecond⟩ := hfirst
  obtain ⟨⟨run₂, db₂⟩, hrun₂, hdue⟩ := Option.any_eq_true _ _ |>.mp hsecond
  have hcomposes := runLifecycle_composes hfits (show (1500 : Int) ≤ 3000 by decide)
    (by decide +kernel) (eq_ok_of_toOption hrun)
  exact ⟨run, db', run₂, db₂, run₃, db₃, eq_ok_of_toOption hrun, eq_ok_of_toOption hrun₂,
    eq_ok_of_toOption hrun₃, hparent, hchild, Db.isVersionRetired_iff.mp hdue,
    hcomposes.1 _ _ _ _ _ _ hfresh (eq_ok_of_toOption hrun₂) (by decide +kernel)
      (eq_ok_of_toOption hrun₃)⟩

/-! ## More versions than ranks -/

namespace Sample

def crowdedVersion (i : Nat) : VersionRow :=
  { versionId := ⟨BitVec.ofNat 256 i⟩
    artifactId := artifact.artifactId
    rootObjectId := chunkId
    parentVersionId := none
    descriptorVersion := ArtifactVersion.formatVersion
    canonicalDescriptor := []
    metadata := metadata
    state := .committed
    createdAt := 0 }

def crowdedObject : StoredObject := ⟨chunkId, 1⟩

theorem crowdedVersion_inj {i j : Nat} (hi : i < 2 ^ 256) (hj : j < 2 ^ 256) :
    (crowdedVersion i).versionId = (crowdedVersion j).versionId ↔ i = j := by
  rw [crowdedVersion, crowdedVersion, ContentId.mk.injEq, ← BitVec.toNat_inj, BitVec.toNat_ofNat,
    BitVec.toNat_ofNat, Nat.mod_eq_of_lt hi, Nat.mod_eq_of_lt hj]

/-- `n` committed versions of one artifact and kind, over one object. -/
def crowdedDb (n : Nat) (h : n ≤ 2 ^ 256) : Db :=
  { Db.initial with
    artifacts := Table.empty.insert artifact
    objects := Table.empty.insert crowdedObject
    artifactVersions :=
      { rows := (List.range n).map crowdedVersion
        keysNodup := by
          rw [List.map_map]
          refine List.Nodup.map_on (fun i hi j hj hid => ?_) List.nodup_range
          exact (crowdedVersion_inj ((List.mem_range.mp hi).trans_le h)
            ((List.mem_range.mp hj).trans_le h)).mp hid }
    lifecyclePolicies := Table.empty.insert policy }

end Sample

section

open Sample

variable {n : Nat} {h : n ≤ 2 ^ 256}

def crowdedCandidate (i : Nat) : Candidate :=
  { versionId := ⟨BitVec.ofNat 256 i⟩
    artifactId := artifact.artifactId
    artifactKind := .generic
    createdAt := 0
    logicalSizeBytes := 1
    pinned := false
    tagged := false
    manifestReferenced := false }

theorem candidateRows_crowdedDb :
    candidateRows (crowdedDb n h) =
      (List.range n).map fun i => (crowdedVersion i, crowdedObject) := by
  have hcurrent : (crowdedDb n h).artifactVersions.rows.filter (crowdedDb n h).isCurrent =
      (List.range n).map crowdedVersion := by
    refine List.filter_eq_self.mpr fun version hversion => ?_
    obtain ⟨i, -, rfl⟩ := List.mem_map.mp hversion
    rfl
  change List.filterMap _
    ((crowdedDb n h).artifactVersions.rows.filter (crowdedDb n h).isCurrent) = _
  rw [hcurrent, List.filterMap_map]
  exact List.filterMap_eq_map_iff_forall_eq_some.mpr fun i _ => rfl

theorem candidates_crowdedDb :
    Candidates (crowdedDb n h) ((List.range n).map crowdedCandidate) := by
  have hread : mapEach (candidateRows (crowdedDb n h)) (readCandidate (crowdedDb n h)) =
      .ok ((candidateRows (crowdedDb n h)).map fun row => ⟨row.1.versionId, row.1.artifactId,
        .generic, row.1.createdAt, row.2.totalSize, false, false, false⟩) := by
    refine mapEach_eq_ok fun row hrow => ?_
    rw [candidateRows_crowdedDb] at hrow
    obtain ⟨i, -, rfl⟩ := List.mem_map.mp hrow
    rfl
  rw [Candidates, hread, candidateRows_crowdedDb, List.map_map]
  rfl

theorem crowdedCandidate_before {i j : Nat} (hi : i < 2 ^ 256) (hj : j < 2 ^ 256) :
    (crowdedCandidate i).before (crowdedCandidate j) = decide (i < j) := by
  have hlt : (⟨BitVec.ofNat 256 i⟩ : ContentId) < ⟨BitVec.ofNat 256 j⟩ ↔ i < j := by
    rw [ContentId.lt_iff, BitVec.toNat_ofNat, BitVec.toNat_ofNat, Nat.mod_eq_of_lt hi,
      Nat.mod_eq_of_lt hj]
  simp only [Candidate.before, crowdedCandidate, ne_eq, not_true_eq_false, ↓reduceIte, hlt]

theorem rankIn_crowded {i : Nat} (hi : i < n) (h : n ≤ 2 ^ 256) :
    rankIn Candidate.group Candidate.before ((List.range n).map crowdedCandidate)
      (crowdedCandidate i) = i + 1 := by
  have hcount : (List.range n).countP (fun j => decide (j < i)) = i := by
    obtain ⟨k, rfl⟩ := Nat.exists_eq_add_of_le hi.le
    have hfront : (List.range i).countP (fun j => decide (j < i)) = (List.range i).length :=
      List.countP_eq_length.mpr fun j hj => decide_eq_true (List.mem_range.mp hj)
    rw [List.range_add, List.countP_append, hfront, List.length_range, List.countP_map]
    simp
  have hrank : ((List.range n).map crowdedCandidate).countP (fun other =>
      other.group = (crowdedCandidate i).group && other.before (crowdedCandidate i)) =
      (List.range n).countP fun j => decide (j < i) := by
    rw [List.countP_map]
    refine List.countP_congr fun j hj => ?_
    have hj := (List.mem_range.mp hj).trans_le h
    simp only [Function.comp_apply, crowdedCandidate_before hj (hi.trans_le h)]
    simp [Candidate.group, crowdedCandidate]
  rw [rankIn, hrank, hcount, Nat.add_comm]

section

variable {runs : Table LifecycleRunRow.runId} {retirements : Table RetirementRow.versionId}

theorem version_crowdedDb {row : VersionRow × StoredObject}
    (hrow : row ∈ candidateRows ((crowdedDb n h).afterRun runs retirements)) :
    (∃ i < n, row.1 = crowdedVersion i) ∧ row.2 = crowdedObject := by
  obtain ⟨hmem, -, hobject⟩ := mem_candidateRows.mp hrow
  obtain ⟨i, hi, hversion⟩ := List.mem_map.mp hmem
  refine ⟨⟨i, List.mem_range.mp hi, hversion.symm⟩, ?_⟩
  rcases Table.mem_insert.mp (Table.mem_of_find? hobject) with hnone | ⟨heq, -⟩
  · exact absurd hnone (Table.not_mem_empty _)
  · exact heq

theorem registered_crowdedDb (n : Nat) (h : n ≤ 2 ^ 256) :
    (crowdedDb n h).lifecyclePolicies.find? policy.policyId = some policy :=
  Table.find?_of_mem (Table.mem_insert_new rfl)

theorem runLifecycle_crowdedDb (hn : n ≤ 2 ^ 32) (runId : UuidV7)
    (hfresh : runs.find? runId = none) :
    ∃ run db', runLifecycle ((crowdedDb n h).afterRun runs retirements) runId policy.policyId
      .apply 1 = .ok (run, db') := by
  have hstarts : LifecycleMayRun ((crowdedDb n h).afterRun runs retirements) runId policy :=
    ⟨⟨hfresh, rfl, rfl, rfl⟩, registered_crowdedDb n h⟩
  have hvalid : validateLifecyclePolicy policy = .ok () := by decide +kernel
  have hsizes : ∀ object ∈ ((crowdedDb n h).afterRun runs retirements).objects,
      object.totalSize ≤ postgresBigintMax := by
    intro object hobject
    rcases Table.mem_insert.mp hobject with hnone | ⟨rfl, -⟩
    · exact absurd hnone (Table.not_mem_empty _)
    · decide
  have hkinds : KindsKnown ((crowdedDb n h).afterRun runs retirements) := by
    intro row hrow
    obtain ⟨⟨i, -, hversion⟩, -⟩ := version_crowdedDb hrow
    rw [hversion]
    exact ⟨.generic, rfl⟩
  have hlength : (candidateRows ((crowdedDb n h).afterRun runs retirements)).length ≤ n := by
    have hle := (candidateRows_sublist ((crowdedDb n h).afterRun runs retirements)).length_le
    rw [List.length_map] at hle
    refine hle.trans (Nat.le_of_eq ?_)
    exact (List.length_map crowdedVersion).trans List.length_range
  have hlarge : (2 : Nat) ^ 32 ≤ postgresBigintMax := by decide
  have hcount := hlength.trans (hn.trans hlarge)
  have hbytes : policyRetiredBytes ((crowdedDb n h).afterRun runs retirements) policy 1 ≤
      postgresBigintMax := by
    unfold policyRetiredBytes
    split
    · rename_i decisions hdecisions
      refine (retiredBytes_le (decided_of_lifecycleDecisions hdecisions)).trans ?_
      have hones : (candidateRows ((crowdedDb n h).afterRun runs retirements)).map
          (fun row => row.2.totalSize) = List.replicate
            (candidateRows ((crowdedDb n h).afterRun runs retirements)).length 1 := by
        refine List.eq_replicate_iff.mpr ⟨List.length_map _, fun size hsize => ?_⟩
        obtain ⟨row, hrow, rfl⟩ := List.mem_map.mp hsize
        rw [(version_crowdedDb hrow).2]
        rfl
      rw [hones, List.sum_replicate_nat, Nat.mul_one]
      exact hcount
    · exact Nat.zero_le _
  obtain ⟨run, db', hrun, -⟩ := runLifecycle_returns hstarts hvalid hsizes hkinds hcount
    ((Nat.mod_le _ _).trans hbytes)
  exact ⟨run, db', hrun⟩

end

/-- Which versions of a full group an apply run retires: all but those whose rank wraps. -/
theorem retired_crowdedDb {runId : UuidV7} {run : LifecycleRun}
    {decisions : List LifecycleDecision} {db' : Db}
    (hran : RanLifecycle (crowdedDb n h) runId policy .apply 1 run decisions db') {i : Nat}
    (hi : i < n) :
    db'.Retired (crowdedVersion i).versionId ↔ 0 < (i + 1) % 2 ^ 32 := by
  have hnot : ¬(crowdedDb n h).Retired (crowdedVersion i).versionId := by
    rintro ⟨row, hrow, -⟩
    exact absurd hrow (Table.not_mem_empty row)
  have hdecided := decided_of_lifecycleDecisions hran.decided
  have hrule : policy.rules.find? .generic = some ⟨.generic, 0, none⟩ := by decide +kernel
  have hretire : ∀ rank, (decisionOf ⟨.generic, 0, none⟩ 1 (crowdedCandidate i) rank).retire =
      decide (0 < rank) := by
    intro rank
    rw [Bool.eq_iff_iff]
    simp [decisionOf, decisionReason_eq_policyRetire, crowdedCandidate]
  rw [hran.retired]
  constructor
  · rintro (hretired | ⟨d, hd, hid⟩)
    · exact absurd hretired hnot
    · obtain ⟨-, hmem, hmarked⟩ := (mem_retirementsToPersist hdecided).mp hd
      obtain ⟨candidate, hcandidate, rule, hfind, rfl⟩ :=
        (mem_lifecycleDecisions candidates_crowdedDb hran.decided).mp hmem
      obtain ⟨j, hj, rfl⟩ := List.mem_map.mp hcandidate
      have hj := List.mem_range.mp hj
      obtain rfl := (crowdedVersion_inj (hj.trans_le h) (hi.trans_le h)).mp hid
      obtain rfl := Option.some.inj (hrule.symm.trans hfind)
      rw [hretire, rankIn_crowded hj h] at hmarked
      exact of_decide_eq_true hmarked
  · intro hpos
    refine .inr ⟨_, (mem_retirementsToPersist hdecided).mpr ⟨rfl,
      (mem_lifecycleDecisions candidates_crowdedDb hran.decided).mpr ⟨crowdedCandidate i,
        List.mem_map_of_mem (List.mem_range.mpr hi), _, hrule, rfl⟩, ?_⟩, rfl⟩
    rw [hretire, rankIn_crowded hi h]
    exact decide_eq_true hpos

theorem retired_second {runs : Table LifecycleRunRow.runId}
    {retirements : Table RetirementRow.versionId} {runId : UuidV7} {run : LifecycleRun}
    {decisions : List LifecycleDecision} {db' : Db}
    (hfits : RanksFit ((crowdedDb n h).afterRun runs retirements))
    (hran : RanLifecycle ((crowdedDb n h).afterRun runs retirements) runId policy .apply 1 run
      decisions db') {i : Nat} (hi : i < n)
    (hleft : ¬((crowdedDb n h).afterRun runs retirements).Retired (crowdedVersion i).versionId) :
    db'.Retired (crowdedVersion i).versionId := by
  obtain ⟨candidates, hcandidates⟩ := exists_candidates hran.decided
  have hobject : (crowdedDb n h).objects.find? crowdedObject.objectId = some crowdedObject :=
    Table.find?_of_mem (Table.mem_insert_new rfl)
  have hversion : crowdedVersion i ∈ (crowdedDb n h).artifactVersions.rows :=
    List.mem_map_of_mem (List.mem_range.mpr hi)
  have hrow : (crowdedVersion i, crowdedObject) ∈
      candidateRows ((crowdedDb n h).afterRun runs retirements) :=
    mem_candidateRows.mpr ⟨hversion, isCurrent_iff.mpr ⟨rfl, hleft⟩, hobject⟩
  obtain ⟨candidate, hcandidate, hread⟩ := mapEach_mem hcandidates hrow
  have hcrowded : candidate = crowdedCandidate i := (Except.ok.inj hread).symm
  subst hcrowded
  refine (hran.retired_apply hfits hcandidates _).mpr
    (.inr ⟨crowdedCandidate i, hcandidate, rfl, RetentionPolicy.due_iff.mpr ⟨rfl, ?_, ?_⟩⟩)
  · have hkeeps : policy.retention.keeps (crowdedCandidate i) = 0 := rfl
    rw [hkeeps, rankIn]
    omega
  · rfl

theorem runLifecycle_wraps (hn : n = 2 ^ 32) :
    ∃ run db' run₂ db₂,
      runLifecycle (crowdedDb n h) (uuid 5) policy.policyId .apply 1 = .ok (run, db') ∧
        db'.lifecycleRuns.find? (uuid 6) = none ∧
        runLifecycle db' (uuid 6) policy.policyId .apply 1 = .ok (run₂, db₂) ∧
        ∃ versionId, db₂.Retired versionId ∧ ¬db'.Retired versionId := by
  have hfresh : (crowdedDb n h).lifecycleRuns.find? (uuid 5) = none := rfl
  obtain ⟨run, db', hrun⟩ : ∃ run db',
      runLifecycle (crowdedDb n h) (uuid 5) policy.policyId .apply 1 = .ok (run, db') :=
    @runLifecycle_crowdedDb n h .empty .empty hn.le (uuid 5) hfresh
  obtain ⟨policy', decisions, hpolicy, hran⟩ := ranLifecycle_of_ok hfresh hrun
  obtain rfl := Option.some.inj ((registered_crowdedDb n h).symm.trans hpolicy)
  have hkept : ¬db'.Retired (crowdedVersion (n - 1)).versionId := by
    rw [retired_crowdedDb hran (by omega), show n - 1 + 1 = 2 ^ 32 by omega, Nat.mod_self]
    exact Nat.lt_irrefl 0
  have hfirst : db'.Retired (crowdedVersion 0).versionId :=
    (retired_crowdedDb hran (by omega)).mpr (by decide)
  have hfresh₂ : ((crowdedDb n h).lifecycleRuns.insert ⟨run, decisions⟩).find? (uuid 6) = none := by
    have hrunId : (⟨run, decisions⟩ : LifecycleRunRow).runId = uuid 5 := by
      rw [hran.run_eq]
      rfl
    rw [Table.find?_insert_new (by rw [hrunId]; rfl), hrunId, if_neg (by decide +kernel)]
    rfl
  have hafter := hran.db_eq
  generalize db'.retirements = retirements at hafter
  obtain rfl : db' = (crowdedDb n h).afterRun _ retirements := hafter
  obtain ⟨run₂, db₂, hrun₂⟩ := @runLifecycle_crowdedDb n h _ retirements hn.le (uuid 6) hfresh₂
  obtain ⟨policy₂, decisions₂, hpolicy₂, hran₂⟩ := ranLifecycle_of_ok hfresh₂ hrun₂
  obtain rfl := Option.some.inj ((registered_crowdedDb n h).symm.trans hpolicy₂)
  refine ⟨run, _, run₂, db₂, hrun, hfresh₂, hrun₂, _, retired_second ?_ hran₂ (by omega) hkept,
    hkept⟩
  -- the first version has left the group
  intro version _
  have hlength : (crowdedDb n h).artifactVersions.rows.length = 2 ^ 32 := by
    rw [← hn]
    exact (List.length_map crowdedVersion).trans List.length_range
  refine (hlength ▸ List.countP_le_length).lt_of_ne fun hall => ?_
  have hall := List.countP_eq_length.mp (hall.trans hlength.symm) (crowdedVersion 0)
    (List.mem_map_of_mem (List.mem_range.mpr (by omega)))
  simp only [Db.inPartition, Bool.and_eq_true, isCurrent_iff] at hall
  exact hall.1.1.2 hfirst

end

open Sample in
/-- In a group of 2^32 versions an apply run keeps the oldest, and the next one retires it. -/
theorem runLifecycle_not_idempotent :
    let db := crowdedDb (2 ^ 32) (Nat.pow_le_pow_right (by decide) (by decide))
    ∃ run db' run₂ db₂,
      runLifecycle db (uuid 5) Sample.policy.policyId .apply 1 = .ok (run, db') ∧
        db'.lifecycleRuns.find? (uuid 6) = none ∧
        runLifecycle db' (uuid 6) Sample.policy.policyId .apply 1 = .ok (run₂, db₂) ∧
        ∃ versionId, db₂.Retired versionId ∧ ¬db'.Retired versionId := by
  exact runLifecycle_wraps rfl

end AiArtifactStore.Metadata
