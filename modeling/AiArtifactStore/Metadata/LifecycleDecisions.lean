import AiArtifactStore.Metadata.LifecycleRanking
import AiArtifactStore.Metadata.Sweep
import Mathlib.Algebra.Order.BigOperators.Group.List

/-!
# Lifecycle decisions

What a lifecycle run decides, over the version rows: a version is retired when
nothing protects it, more than the kept number of its artifact and kind are not
newer, and it has reached the maximal age.
-/

namespace AiArtifactStore.Metadata

open AiArtifactStore.Foundation
open AiArtifactStore.Identity

section

variable {env : Environment} {db db' : Db} {policy : LifecyclePolicy} {mode : LifecycleRunMode}
  {evaluatedAtMs : Int}

/-! ## The policy over version rows -/

def VersionRow.kind (version : VersionRow) : Except Exc ArtifactKind :=
  resolveArtifactKind (version.metadata.map.find? artifactKindMetadataKey)

def VersionRow.newer (a b : VersionRow) : Bool :=
  b.createdAt < a.createdAt || (a.createdAt = b.createdAt && a.versionId < b.versionId)

def Db.isCurrent (db : Db) (version : VersionRow) : Bool :=
  version.state = .committed && !db.isVersionRetired version.versionId

/-- The committed, non-retired versions of the same artifact and kind. -/
def Db.inPartition (db : Db) (version other : VersionRow) : Bool :=
  db.isCurrent other && other.artifactId = version.artifactId && other.kind = version.kind

def versionRank (db : Db) (version : VersionRow) : Nat :=
  1 + db.artifactVersions.rows.countP fun other =>
    db.inPartition version other && other.newer version

/-- Every artifact and kind has fewer than 2^32 committed, non-retired versions. -/
def RanksFit (db : Db) : Prop :=
  ∀ version ∈ db.artifactVersions,
    db.artifactVersions.rows.countP (db.inPartition version) < 2 ^ 32

def Due (db : Db) (policy : LifecyclePolicy) (evaluatedAtMs : Int) (version : VersionRow) : Prop :=
  Unprotected db version.versionId ∧ ∃ kind rule, version.kind = .ok kind ∧
    policy.rules.find? kind = some rule ∧ rule.keepLastN < versionRank db version ∧
      ∀ maxAge ∈ rule.maxAgeSeconds,
        1000000 * (maxAge : Int) ≤ 1000 * evaluatedAtMs - version.createdAt

theorem isCurrent_iff {version : VersionRow} :
    db.isCurrent version = true ↔ version.state = .committed ∧ ¬db.Retired version.versionId := by
  simp [Db.isCurrent, Db.isVersionRetired_eq_false]

theorem newer_irrefl (version : VersionRow) : version.newer version = false := by
  simp [VersionRow.newer, ContentId.lt_iff]

theorem versionRank_le {version : VersionRow} (h : version ∈ db.artifactVersions)
    (hcurrent : db.isCurrent version = true) :
    versionRank db version ≤ db.artifactVersions.rows.countP (db.inPartition version) := by
  have hself : db.inPartition version version = true := by simp [Db.inPartition, hcurrent]
  have hsplit : db.artifactVersions.rows.countP (db.inPartition version) =
      db.artifactVersions.rows.countP (fun other =>
        db.inPartition version other && other.newer version) +
      db.artifactVersions.rows.countP fun other =>
        db.inPartition version other && !other.newer version := by
    rw [List.countP_eq_countP_filter_add _ _ fun other => other.newer version,
      List.countP_filter, List.countP_filter]
  have hpos : 0 < db.artifactVersions.rows.countP fun other =>
      db.inPartition version other && !other.newer version :=
    List.countP_pos_iff.mpr ⟨version, h, by simp [hself, newer_irrefl]⟩
  rw [versionRank]
  omega

/-! ## Rows and candidates -/

/-- Every version has its object, as the foreign key demands. -/
def RootsStored (db : Db) : Prop :=
  ∀ version ∈ db.artifactVersions, ∃ object, db.objects.find? version.rootObjectId = some object

theorem rootsStored_of_reachable (h : Reachable env db) : RootsStored db := by
  refine reachable_invariant (P := RootsStored)
    (fun version hversion => absurd hversion (Table.not_mem_empty version))
    (fun db op db' he hroots => ?_) h
  cases he with
  | @finalized now createdAt row d table hfinalizes =>
      intro version hversion
      rcases Table.mem_upsert.mp hversion with rfl | ⟨hversion, -⟩
      · exact ⟨d.object, hfinalizes.objectStored⟩
      · obtain ⟨object, hobject⟩ := hroots version hversion
        exact ⟨object, Table.find?_insert_mono hobject⟩
  | @gcCompleted run completed stats hcompletes =>
      cases hmode : run.mode with
      | dryRun =>
          simp only [completedGcDb, completionDb, hmode]
          exact hroots
      | apply =>
          simp only [completedGcDb, completionDb, hmode]
          intro version hversion
          obtain ⟨object, hobject⟩ := hroots version hversion
          obtain ⟨hmem, hkey⟩ := Table.find?_eq_some.mp hobject
          have hkept : object ∈ (sweptDb db run.targetNodeId).objects :=
            mem_sweptDb_objects.mpr ⟨hmem, .inl ⟨version, hversion, hkey.symm⟩⟩
          exact ⟨object, Table.find?_eq_some.mpr ⟨hkept, hkey⟩⟩
  | _ => exact hroots

theorem mem_candidateRows {row : VersionRow × StoredObject} :
    row ∈ candidateRows db ↔ row.1 ∈ db.artifactVersions ∧ db.isCurrent row.1 = true ∧
      db.objects.find? row.1.rootObjectId = some row.2 := by
  obtain ⟨version, object⟩ := row
  simp only [candidateRows, List.mem_filterMap, List.mem_filter, Option.map_eq_some_iff,
    Prod.mk.injEq]
  constructor
  · rintro ⟨_, ⟨hmem, hcurrent⟩, _, hobject, rfl, rfl⟩
    exact ⟨hmem, hcurrent, hobject⟩
  · rintro ⟨hmem, hcurrent, hobject⟩
    exact ⟨version, ⟨hmem, hcurrent⟩, object, hobject, rfl, rfl⟩

theorem map_fst_candidateRows (h : RootsStored db) :
    (candidateRows db).map Prod.fst = db.artifactVersions.rows.filter db.isCurrent := by
  refine (joinObjects_sublist db (db.artifactVersions.rows.filter db.isCurrent)).eq_of_length ?_
  rw [List.length_map, List.length_filterMap_eq_countP, List.countP_eq_length]
  intro version hversion
  obtain ⟨object, hobject⟩ := h version (List.mem_filter.mp hversion).1
  simp [hobject]

/-! ## Candidates of rows -/

theorem readCandidate_eq_ok {row : VersionRow × StoredObject} {candidate : Candidate} :
    readCandidate db row = .ok candidate ↔ ∃ kind, row.1.kind = .ok kind ∧
      candidate = ⟨row.1.versionId, row.1.artifactId, kind, row.1.createdAt, row.2.totalSize,
        isPinned db row.1.versionId, isTagged db row.1.versionId,
        isManifestReferenced db row.1.versionId⟩ := by
  simp only [readCandidate, bind_eq_ok, Except.ok.injEq]
  exact exists_congr fun kind => and_congr_right fun _ => eq_comm

/-- The versions that rank before a version, as a condition on candidates. -/
theorem precedes_iff {row row' : VersionRow × StoredObject} {candidate other : Candidate}
    (h : readCandidate db row = .ok candidate) (h' : readCandidate db row' = .ok other) :
    (decide (other.group = candidate.group) && other.before candidate) =
      ((decide (row'.1.artifactId = row.1.artifactId) && decide (row'.1.kind = row.1.kind)) &&
        row'.1.newer row.1) := by
  obtain ⟨kind, hkind, rfl⟩ := readCandidate_eq_ok.mp h
  obtain ⟨kind', hkind', rfl⟩ := readCandidate_eq_ok.mp h'
  rw [Bool.eq_iff_iff]
  simp only [Bool.and_eq_true, decide_eq_true_eq, hkind, hkind', Except.ok.injEq]
  constructor
  · rintro ⟨hgroup, hbefore⟩
    rw [before_of_group_eq hgroup] at hbefore
    exact ⟨group_eq_iff.mp hgroup, by simpa [VersionRow.newer] using hbefore⟩
  · rintro ⟨hsame, hnewer⟩
    refine ⟨group_eq_iff.mpr hsame, (before_of_group_eq (group_eq_iff.mpr hsame)).mpr ?_⟩
    simpa [VersionRow.newer] using hnewer

theorem rankIn_eq {candidates : List Candidate} (hcandidates : Candidates db candidates)
    {row : VersionRow × StoredObject} {candidate : Candidate}
    (h : readCandidate db row = .ok candidate) :
    rankIn Candidate.group Candidate.before candidates candidate =
      1 + ((candidateRows db).map Prod.fst).countP fun other =>
        (decide (other.artifactId = row.1.artifactId) && decide (other.kind = row.1.kind)) &&
          other.newer row.1 := by
  rw [rankIn, List.countP_map]
  congr 1
  exact countP_mapEach hcandidates fun row' other h' => precedes_iff h h'

theorem versionRank_eq (version : VersionRow) :
    versionRank db version =
      1 + (db.artifactVersions.rows.filter db.isCurrent).countP fun other =>
        (decide (other.artifactId = version.artifactId) && decide (other.kind = version.kind)) &&
          other.newer version := by
  rw [versionRank, List.countP_filter]
  congr 1
  refine List.countP_congr fun other _ => ?_
  simp only [Db.inPartition, Bool.and_eq_true]
  tauto

theorem rankIn_le_versionRank {candidates : List Candidate}
    (hcandidates : Candidates db candidates) {row : VersionRow × StoredObject}
    {candidate : Candidate} (h : readCandidate db row = .ok candidate) :
    rankIn Candidate.group Candidate.before candidates candidate ≤ versionRank db row.1 := by
  rw [rankIn_eq hcandidates h, versionRank_eq]
  exact Nat.add_le_add_left (joinObjects_sublist db _).countP_le 1

theorem rankIn_eq_versionRank (hroots : RootsStored db) {candidates : List Candidate}
    (hcandidates : Candidates db candidates) {row : VersionRow × StoredObject}
    {candidate : Candidate} (h : readCandidate db row = .ok candidate) :
    rankIn Candidate.group Candidate.before candidates candidate = versionRank db row.1 := by
  rw [rankIn_eq hcandidates h, versionRank_eq, map_fst_candidateRows hroots]

theorem rankIn_lt (hfits : RanksFit db) {candidates : List Candidate}
    (hcandidates : Candidates db candidates) {candidate : Candidate}
    (h : candidate ∈ candidates) :
    rankIn Candidate.group Candidate.before candidates candidate < 2 ^ 32 := by
  obtain ⟨row, hrow, hread⟩ := mem_of_mapEach hcandidates h
  obtain ⟨hmem, hcurrent, -⟩ := mem_candidateRows.mp hrow
  exact (rankIn_le_versionRank hcandidates hread).trans_lt
    ((versionRank_le hmem hcurrent).trans_lt (hfits row.1 hmem))

/-! ## Counters -/

theorem lifecycleStats_partition (mode : LifecycleRunMode) (decisions : List LifecycleDecision) :
    (lifecycleStats mode decisions).versionsProtected +
        (lifecycleStats mode decisions).versionsRetainedByPolicy +
        (lifecycleStats mode decisions).versionsCandidates =
      (lifecycleStats mode decisions).versionsScanned := by
  simp only [lifecycleStats, ← List.countP_eq_length_filter]
  induction decisions with
  | nil => rfl
  | cons d rest ih =>
      have hone : (if d.isProtected then 1 else 0) + (if d.isRetained then 1 else 0) +
          (if d.reason = .policyRetire then 1 else 0) = 1 := by
        cases hreason : d.reason <;>
          simp [LifecycleDecision.isProtected, LifecycleDecision.isRetained, hreason]
      simp only [List.countP_cons, List.length_cons, decide_eq_true_eq]
      omega

theorem retiredBytes_le {decisions : List LifecycleDecision} (h : Decided db decisions) :
    retiredBytes decisions ≤ ((candidateRows db).map fun row => row.2.totalSize).sum := by
  have hsizes : (decisions.map LifecycleDecision.logicalSizeBytes).Perm
      ((candidateRows db).map fun row => row.2.totalSize) := by
    have hperm := h.perm.map Prod.snd
    rwa [List.map_map, List.map_map] at hperm
  rw [← hsizes.sum_eq]
  exact (List.filter_sublist.map _).sum_le_sum fun _ _ => Nat.zero_le _

/-! ## Retirements of a run -/

theorem insertRetirements_retired {runId : UuidV7} {decisions : List LifecycleDecision}
    {before after : Table RetirementRow.versionId}
    (h : foldEach decisions before (insertRetirement runId) = .ok after) (versionId : ContentId) :
    (∃ row ∈ after, row.versionId = versionId) ↔
      (∃ row ∈ before, row.versionId = versionId) ∨ ∃ d ∈ decisions, d.versionId = versionId := by
  induction decisions generalizing before with
  | nil =>
      obtain rfl := Except.ok.inj h
      simp
  | cons d rest ih =>
      cases hinsert : insertRetirement runId before d with
      | error e => simp [foldEach, hinsert] at h
      | ok next =>
          simp only [foldEach, hinsert] at h
          simp only [insertRetirement, bind_eq_ok, exists_unit, failIf_eq_ok, not_not] at hinsert
          obtain ⟨hnone, hnext⟩ := hinsert
          obtain rfl := Except.ok.inj hnext
          rw [ih h]
          constructor
          · rintro (⟨row, hrow, hid⟩ | ⟨e, he, hid⟩)
            · rcases Table.mem_insert.mp hrow with hrow | ⟨rfl, -⟩
              · exact .inl ⟨row, hrow, hid⟩
              · exact .inr ⟨d, by simp, hid⟩
            · exact .inr ⟨e, by simp [he], hid⟩
          · rintro (⟨row, hrow, hid⟩ | ⟨e, he, hid⟩)
            · exact .inl ⟨row, Table.mem_insert_of_mem hrow, hid⟩
            · rcases List.mem_cons.mp he with rfl | he
              · exact .inl ⟨_, Table.mem_insert_new hnone, hid⟩
              · exact .inr ⟨e, he, hid⟩

structure RanLifecycle (db : Db) (runId : UuidV7) (policy : LifecyclePolicy)
    (mode : LifecycleRunMode) (evaluatedAtMs : Int) (run : LifecycleRun)
    (decisions : List LifecycleDecision) (db' : Db) : Prop where
  decided : lifecycleDecisions db policy evaluatedAtMs = .ok decisions
  run_eq : run = ⟨runId, policy.policyId, mode, evaluatedAtMs, lifecycleStats mode decisions⟩
  db_eq : db' = { db with
    lifecycleRuns := db.lifecycleRuns.insert ⟨run, decisions⟩
    retirements := db'.retirements }
  stored : db'.lifecycleRuns.find? runId = some ⟨run, decisions⟩
  retired : ∀ versionId, db'.Retired versionId ↔ db.Retired versionId ∨
    ∃ d ∈ retirementsToPersist mode decisions, d.versionId = versionId

theorem ranLifecycle_of_ok {runId policyId : UuidV7} {run : LifecycleRun}
    (hfresh : db.lifecycleRuns.find? runId = none)
    (h : runLifecycle db runId policyId mode evaluatedAtMs = .ok (run, db')) :
    ∃ policy decisions, db.lifecyclePolicies.find? policyId = some policy ∧
      RanLifecycle db runId policy mode evaluatedAtMs run decisions db' := by
  simp only [runLifecycle, hfresh, insertLifecycleRun, bind_eq_ok, exists_unit, failIf_eq_ok,
    orFail_eq_ok] at h
  obtain ⟨-, -, -, policy, hpolicy, decisions, hdecisions, -, retirements, hretirements, -,
    loaded, hloaded, h⟩ := h
  obtain ⟨rfl, rfl⟩ := Prod.ext_iff.mp (Except.ok.inj h)
  have hstored := hloaded
  rw [Table.find?_insert_fresh hfresh rfl, Option.some.injEq] at hloaded
  subst hloaded
  obtain rfl := Table.key_of_find? hpolicy
  exact ⟨policy, decisions, hpolicy, hdecisions, rfl, rfl, hstored,
    insertRetirements_retired hretirements⟩

theorem lifecycleRuns_effect {op : ServiceOp} (he : Effect env db op db') :
    db'.lifecycleRuns = db.lifecycleRuns ∨ ∃ runId policyId mode evaluatedAtMs,
      op = .runLifecycle runId policyId mode evaluatedAtMs := by
  cases he with
  | lifecycleRan => exact .inr ⟨_, _, _, _, rfl⟩
  | @gcCompleted run completed stats hcompletes =>
      obtain ⟨_, _, _, _, _, heq⟩ := completedGcDb_frame db run completed
      rw [heq]
      exact .inl rfl
  | _ => exact .inl rfl

theorem nodup_decisions_of_reachable (h : Reachable env db) : ∀ row ∈ db.lifecycleRuns,
    (row.decisions.map LifecycleDecision.versionId).Nodup := by
  refine invariant_of_step
    (P := fun db : Db => ∀ row ∈ db.lifecycleRuns,
      (row.decisions.map LifecycleDecision.versionId).Nodup)
    (fun db db' hstep => ?_) h fun row hrow => absurd hrow (Table.not_mem_empty row)
  refine serviceStep_of_transact
    (P := fun db db' => (∀ row ∈ db.lifecycleRuns,
        (row.decisions.map LifecycleDecision.versionId).Nodup) →
      ∀ row ∈ db'.lifecycleRuns, (row.decisions.map LifecycleDecision.versionId).Nodup)
    (fun _ h => h) (fun db db' op reply _ htransact hnodup => ?_) hstep
  rcases lifecycleRuns_effect (transact_effect htransact) with
    hsame | ⟨runId, policyId, mode, evaluatedAtMs, rfl⟩
  · rw [hsame]
    exact hnodup
  · obtain ⟨run, hrun, -⟩ := replyWith_eq_ok.mp htransact
    cases hfind : db.lifecycleRuns.find? runId with
    | some existing =>
        rcases runLifecycle_ok hrun with ⟨rfl, -⟩ | ⟨_, _, -, -, -, hstarts, -⟩
        · exact hnodup
        · exact absurd (hfind.symm.trans hstarts.fresh) nofun
    | none =>
        obtain ⟨policy, decisions, -, hran⟩ := ranLifecycle_of_ok hfind hrun
        have hruns : db'.lifecycleRuns = db.lifecycleRuns.insert ⟨run, decisions⟩ :=
          congrArg Db.lifecycleRuns hran.db_eq
        rw [hruns]
        intro row hrow
        rcases Table.mem_insert.mp hrow with hrow | ⟨rfl, -⟩
        · exact hnodup row hrow
        · exact (decided_of_lifecycleDecisions hran.decided).nodup

/-! ## Decisions of rows -/

theorem exists_candidates {decisions : List LifecycleDecision}
    (h : lifecycleDecisions db policy evaluatedAtMs = .ok decisions) :
    ∃ candidates, Candidates db candidates := by
  simp only [lifecycleDecisions, bind_eq_ok] at h
  exact ⟨h.choose, h.choose_spec.1⟩

theorem decided_versions (hroots : RootsStored db) {decisions : List LifecycleDecision}
    (h : Decided db decisions) (versionId : ContentId) :
    (∃ d ∈ decisions, d.versionId = versionId) ↔ ∃ version ∈ db.artifactVersions,
      version.versionId = versionId ∧ version.state = .committed ∧ ¬db.Retired versionId := by
  constructor
  · rintro ⟨d, hd, rfl⟩
    obtain ⟨row, hrow, hid, -⟩ := h.mem hd
    obtain ⟨hmem, hcurrent, -⟩ := mem_candidateRows.mp hrow
    rw [isCurrent_iff, hid] at hcurrent
    exact ⟨row.1, hmem, hid, hcurrent⟩
  · rintro ⟨version, hmem, rfl, hcurrent⟩
    obtain ⟨object, hobject⟩ := hroots version hmem
    have hrow : (version, object) ∈ candidateRows db :=
      mem_candidateRows.mpr ⟨hmem, isCurrent_iff.mpr hcurrent, hobject⟩
    obtain ⟨d, hd, heq⟩ := List.mem_map.mp (h.perm.mem_iff.mpr (List.mem_map_of_mem hrow))
    exact ⟨d, hd, congrArg Prod.fst heq⟩

/-- A decision retires its version exactly when the version is due. -/
theorem retire_iff_due (hroots : RootsStored db) (hfits : RanksFit db)
    {decisions : List LifecycleDecision}
    (h : lifecycleDecisions db policy evaluatedAtMs = .ok decisions) {d : LifecycleDecision}
    (hd : d ∈ decisions) {version : VersionRow} (hversion : version ∈ db.artifactVersions)
    (hid : version.versionId = d.versionId) :
    d.retire = true ↔ Due db policy evaluatedAtMs version := by
  obtain ⟨candidates, hcandidates⟩ := exists_candidates h
  obtain ⟨candidate, hcandidate, rule, hrule, rfl⟩ := (mem_lifecycleDecisions hcandidates h).mp hd
  rw [Nat.mod_eq_of_lt (rankIn_lt hfits hcandidates hcandidate)] at hid ⊢
  obtain ⟨row, hrow, hread⟩ := mem_of_mapEach hcandidates hcandidate
  rw [rankIn_eq_versionRank hroots hcandidates hread] at hid ⊢
  obtain ⟨kind, hkind, rfl⟩ := readCandidate_eq_ok.mp hread
  obtain rfl : version = row.1 :=
    Table.key_inj hversion (mem_candidateRows.mp hrow).1 hid
  simp only [decisionOf, decide_eq_true_eq, decisionReason_eq_policyRetire]
  constructor
  · rintro ⟨⟨hpinned, htagged, hmanifest⟩, hrank, hage⟩
    exact ⟨⟨hpinned, htagged, hmanifest⟩, kind, rule, hkind, hrule, hrank, hage⟩
  · rintro ⟨⟨hpinned, htagged, hmanifest⟩, kind', rule', hkind', hrule', hrank, hage⟩
    obtain rfl := Except.ok.inj (hkind.symm.trans hkind')
    obtain rfl := Option.some.inj (hrule.symm.trans hrule')
    exact ⟨⟨hpinned, htagged, hmanifest⟩, hrank, hage⟩

theorem mem_retirementsToPersist {decisions : List LifecycleDecision} (h : Decided db decisions)
    {d : LifecycleDecision} :
    d ∈ retirementsToPersist mode decisions ↔ mode = .apply ∧ d ∈ decisions ∧ d.retire = true := by
  cases mode with
  | dryRun => simp [retirementsToPersist]
  | apply =>
      rw [retired_eq_of_decided h, List.mem_filter]
      simp only [true_and]
      exact and_congr_right fun hd => by rw [h.retire d hd]

/-- A lifecycle run scans the committed, non-retired versions, marks those that the policy
makes due, and an apply run retires what it marks. -/
theorem runLifecycle_exact (hreach : Reachable env db) {runId : UuidV7}
    (h : LifecycleMayRun db runId policy) (hkinds : KindsKnown db)
    (hversions : db.artifactVersions.rows.length < 2 ^ 32)
    (hbytes : ((candidateRows db).map fun row => row.2.totalSize).sum < 2 ^ 63) :
    ∃ run db' decisions,
      runLifecycle db runId policy.policyId mode evaluatedAtMs = .ok (run, db') ∧
        db'.lifecycleRuns.find? runId = some ⟨run, decisions⟩ ∧
        (decisions.map LifecycleDecision.versionId).Nodup ∧
        (∀ versionId, (∃ d ∈ decisions, d.versionId = versionId) ↔
          ∃ version ∈ db.artifactVersions, version.versionId = versionId ∧
            version.state = .committed ∧ ¬db.Retired versionId) ∧
        (∀ d ∈ decisions, ∀ version ∈ db.artifactVersions, version.versionId = d.versionId →
          (d.retire = true ↔ Due db policy evaluatedAtMs version)) ∧
        run.stats.versionsScanned = decisions.length ∧
        run.stats.versionsProtected + run.stats.versionsRetainedByPolicy +
          run.stats.versionsCandidates = run.stats.versionsScanned ∧
        (∀ versionId, db'.Retired versionId ↔ db.Retired versionId ∨
          (mode = .apply ∧ ∃ d ∈ decisions, d.versionId = versionId ∧ d.retire = true)) := by
  have hroots := rootsStored_of_reachable hreach
  have hvalid := validPolicies_of_reachable hreach policy (Table.mem_of_find? h.registered)
  have hfits : RanksFit db := fun version _ => List.countP_le_length.trans_lt hversions
  have hcount : (candidateRows db).length ≤ postgresBigintMax := by
    have hlength := (candidateRows_sublist db).length_le
    rw [List.length_map] at hlength
    exact hlength.trans (hversions.le.trans (by decide))
  have hretired : policyRetiredBytes db policy evaluatedAtMs ≤ postgresBigintMax := by
    obtain ⟨decisions, hdecisions⟩ := @lifecycleDecisions_ok db policy evaluatedAtMs hvalid hkinds
    have hall := retiredBytes_le (decided_of_lifecycleDecisions hdecisions)
    simp only [policyRetiredBytes, hdecisions]
    exact Nat.le_of_lt_succ (hall.trans_lt hbytes)
  obtain ⟨run, db', hrun, -⟩ := @runLifecycle_returns db policy mode evaluatedAtMs runId h hvalid
    (objectSize_le_of_reachable hreach) hkinds hcount ((Nat.mod_le _ _).trans hretired)
  obtain ⟨policy', decisions, hpolicy, hran⟩ := ranLifecycle_of_ok h.fresh hrun
  obtain rfl := Option.some.inj (h.registered.symm.trans hpolicy)
  have hdecided := decided_of_lifecycleDecisions hran.decided
  refine ⟨run, db', decisions, hrun, hran.stored, hdecided.nodup, decided_versions hroots hdecided,
    fun d hd version hversion hid => retire_iff_due hroots hfits hran.decided hd hversion hid,
    ?_, ?_, fun versionId => ?_⟩
  · rw [hran.run_eq]
    rfl
  · rw [hran.run_eq]
    exact lifecycleStats_partition mode decisions
  · rw [hran.retired versionId]
    refine or_congr_right ?_
    constructor
    · rintro ⟨d, hd, hid⟩
      obtain ⟨hmode, hmem, hmarked⟩ := (mem_retirementsToPersist hdecided).mp hd
      exact ⟨hmode, d, hmem, hid, hmarked⟩
    · rintro ⟨hmode, d, hd, hid, hmarked⟩
      exact ⟨d, (mem_retirementsToPersist hdecided).mpr ⟨hmode, hd, hmarked⟩, hid⟩

end

open Sample in
/-- The parent has aged when the run starts and its child has not. -/
theorem runLifecycle_exact_sample :
    ∃ run db' decisions,
      runLifecycle agingDb (uuid 5) agingPolicy.policyId .apply 1500 = .ok (run, db') ∧
        db'.lifecycleRuns.find? (uuid 5) = some ⟨run, decisions⟩ ∧ decisions.length = 2 ∧
        (∀ versionId, db'.Retired versionId ↔ agingDb.Retired versionId ∨
          (LifecycleRunMode.apply = .apply ∧
            ∃ d ∈ decisions, d.versionId = versionId ∧ d.retire = true)) ∧
        db'.Retired Sample.versionId ∧ ¬db'.Retired childId := by
  have hkinds : KindsKnown agingDb := by
    have hall : ∀ row ∈ candidateRows agingDb, resolveArtifactKind
        (row.1.metadata.map.find? artifactKindMetadataKey) = .ok .generic := by decide +kernel
    exact fun row hrow => ⟨.generic, hall row hrow⟩
  obtain ⟨run, db', decisions, hrun, hstored, -, -, -, hscanned, -, hretired⟩ :=
    @runLifecycle_exact Sample.env agingDb agingPolicy .apply 1500 (reachable_afterOps _ _) (uuid 5)
      (by decide +kernel) hkinds (by decide +kernel) (by decide +kernel)
  have hresult : ((runLifecycle agingDb (uuid 5) agingPolicy.policyId .apply 1500).toOption.any
      fun result => result.1.stats.versionsScanned = 2 &&
        result.2.isVersionRetired Sample.versionId && !result.2.isVersionRetired childId) =
          true := by
    decide +kernel
  rw [hrun] at hresult
  simp only [Except.toOption, Option.any_some, Bool.and_eq_true, decide_eq_true_eq,
    Db.isVersionRetired_iff, Bool.not_eq_true', Db.isVersionRetired_eq_false] at hresult
  obtain ⟨⟨htwo, hparent⟩, hchild⟩ := hresult
  exact ⟨run, db', decisions, hrun, hstored, hscanned.symm.trans htwo, hretired, hparent, hchild⟩

end AiArtifactStore.Metadata
