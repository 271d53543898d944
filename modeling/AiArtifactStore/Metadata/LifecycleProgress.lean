import AiArtifactStore.Metadata.Histories

/-!
# When a lifecycle run returns

`run_lifecycle` reads the kind of every candidate before it decides anything,
and stores its counters as `BIGINT`.  With a registered policy and nothing open,
these are the only two ways in which a fresh run can fail.
-/

namespace AiArtifactStore.Metadata

open AiArtifactStore.Foundation
open AiArtifactStore.Identity

section

variable {env : Environment} {db db' : Db} {policy : LifecyclePolicy} {mode : LifecycleRunMode}
  {evaluatedAtMs : Int} {versionId : ContentId}

/-! ## What every reachable database provides -/

theorem exists_rule_of_validateLifecyclePolicy
    (h : validateLifecyclePolicy policy = .ok ()) (kind : ArtifactKind) :
    ∃ rule, policy.rules.find? kind = some rule := by
  simp only [validateLifecyclePolicy, bind_eq_ok, exists_unit] at h
  have hrule := forEach_eq_ok.mp h.2.2 kind (by cases kind <;> simp [ArtifactKind.all])
  simp only [validateLifecycleRule, bind_eq_ok, orFail_eq_ok] at hrule
  obtain ⟨rule, hfind, -⟩ := hrule
  exact ⟨rule, hfind⟩

theorem policies_effect {op : ServiceOp} (he : Effect env db op db') :
    db'.lifecyclePolicies = db.lifecyclePolicies ∨ ∃ policy, op = .registerLifecyclePolicy policy := by
  cases he with
  | policyRegistered => exact .inr ⟨_, rfl⟩
  | @gcCompleted run completed stats hcompletes =>
      obtain ⟨_, _, _, _, _, heq⟩ := completedGcDb_frame db run completed
      rw [heq]
      exact .inl rfl
  | _ => exact .inl rfl

theorem validateLifecyclePolicy_stored {policy : LifecyclePolicy}
    (h : validateLifecyclePolicy policy = .ok ()) (hname : policy.stored.name ≠ "") :
    validateLifecyclePolicy policy.stored = .ok () := by
  simp only [validateLifecyclePolicy, bind_eq_ok, exists_unit, failIf_eq_ok, not_or] at h ⊢
  have hsize := utf8ByteSize_cString_le policy.name
  refine ⟨⟨by simpa [String.isEmpty_iff] using hname, ?_⟩, h.2⟩
  have hbound := h.1.2
  change ¬(cString policy.name).utf8ByteSize > 128
  omega

theorem registerLifecyclePolicy_valid {policy : LifecyclePolicy}
    (h : registerLifecyclePolicy db policy = .ok db') {stored : LifecyclePolicy}
    (hstored : stored ∈ db'.lifecyclePolicies) :
    stored ∈ db.lifecyclePolicies ∨ validateLifecyclePolicy stored = .ok () := by
  simp only [registerLifecyclePolicy, bind_eq_ok, exists_unit] at h
  obtain ⟨hvalid, h⟩ := h
  split at h
  · split at h
    · obtain rfl := Except.ok.inj h
      exact .inl hstored
    · cases h
  · simp only [bind_eq_ok, exists_unit, failIf_eq_ok] at h
    obtain ⟨hname, h⟩ := h
    obtain rfl := Except.ok.inj h
    rcases Table.mem_insert.mp hstored with hstored | ⟨rfl, -⟩
    · exact .inl hstored
    · exact .inr (validateLifecyclePolicy_stored hvalid hname)

theorem validPolicies_of_reachable (h : Reachable env db) :
    ∀ policy ∈ db.lifecyclePolicies, validateLifecyclePolicy policy = .ok () := by
  refine invariant_of_step
    (P := fun db : Db => ∀ policy ∈ db.lifecyclePolicies, validateLifecyclePolicy policy = .ok ())
    (fun db db' hstep => ?_) h fun policy hp => absurd hp (Table.not_mem_empty policy)
  refine serviceStep_of_transact
    (P := fun db db' => (∀ policy ∈ db.lifecyclePolicies, validateLifecyclePolicy policy = .ok ()) →
      ∀ policy ∈ db'.lifecyclePolicies, validateLifecyclePolicy policy = .ok ())
    (fun _ h => h) (fun db db' op reply _ htransact hvalid => ?_) hstep
  rcases policies_effect (transact_effect htransact) with hsame | ⟨policy, rfl⟩
  · rw [hsame]
    exact hvalid
  · intro stored hstored
    exact (registerLifecyclePolicy_valid (done_eq_ok.mp htransact).1 hstored).elim
      (hvalid stored) id

theorem objects_completedGcDb {run completed : GcRun} {object : StoredObject}
    (h : object ∈ (completedGcDb db run completed).objects) : object ∈ db.objects := by
  cases hmode : run.mode with
  | dryRun => simpa only [completedGcDb, completionDb, hmode] using h
  | apply =>
      simp only [completedGcDb, completionDb, hmode, sweptDb] at h
      exact (Table.mem_filter.mp h).1

theorem objectSize_le_of_reachable (h : Reachable env db) :
    ∀ object ∈ db.objects, object.totalSize ≤ postgresBigintMax := by
  refine reachable_invariant (P := fun db => ∀ object ∈ db.objects, object.totalSize ≤ _)
    (fun object ho => absurd ho (Table.not_mem_empty object)) (fun db op db' he hfits => ?_) h
  cases he with
  | finalized hfinalizes =>
      intro object ho
      rcases Table.mem_insert.mp ho with ho | ⟨rfl, -⟩
      · exact hfits object ho
      · exact hfinalizes.sizeFits
  | gcCompleted hcompletes => exact fun object ho => hfits object (objects_completedGcDb ho)
  | _ => exact hfits

/-! ## Candidates -/

def KindsKnown (db : Db) : Prop :=
  ∀ row ∈ candidateRows db, ∃ kind,
    resolveArtifactKind (row.1.metadata.map.find? artifactKindMetadataKey) = .ok kind

theorem resolveArtifactKind_error {value : Option String}
    (h : ¬∃ kind, resolveArtifactKind value = .ok kind) :
    resolveArtifactKind value = .error
      (.lifecycleError .invalidArtifactKind "invalid reserved aistore.artifact_kind value") := by
  cases value with
  | none => exact absurd ⟨.generic, rfl⟩ h
  | some text =>
      simp only [resolveArtifactKind, orFail_eq_ok] at h ⊢
      cases hkind : ArtifactKind.ofText? text with
      | some kind => exact absurd ⟨kind, hkind⟩ h
      | none => rfl

theorem readCandidate_error {row : VersionRow × StoredObject}
    (h : ¬∃ kind, resolveArtifactKind (row.1.metadata.map.find? artifactKindMetadataKey) =
      .ok kind) :
    readCandidate db row = .error
      (.lifecycleError .invalidArtifactKind "invalid reserved aistore.artifact_kind value") := by
  rw [readCandidate, resolveArtifactKind_error h]
  rfl

theorem readCandidate_ok {row : VersionRow × StoredObject}
    (h : ∃ kind, resolveArtifactKind (row.1.metadata.map.find? artifactKindMetadataKey) =
      .ok kind) :
    ∃ candidate, readCandidate db row = .ok candidate := by
  obtain ⟨kind, hkind⟩ := h
  rw [readCandidate, hkind]
  exact ⟨_, rfl⟩

theorem readCandidate_fields {row : VersionRow × StoredObject} {candidate : Candidate}
    (h : readCandidate db row = .ok candidate) :
    candidate.versionId = row.1.versionId ∧ candidate.logicalSizeBytes = row.2.totalSize := by
  simp only [readCandidate, bind_eq_ok] at h
  obtain ⟨kind, -, h⟩ := h
  obtain rfl := Except.ok.inj h
  exact ⟨rfl, rfl⟩

theorem map_fst_rankCandidates (previous : Option (Candidate × Nat)) (candidates : List Candidate) :
    (rankCandidates previous candidates).map Prod.fst = candidates := by
  induction candidates generalizing previous with
  | nil => rfl
  | cons candidate rest ih => simp only [rankCandidates, List.map_cons, ih]

/-! ## Decisions -/

theorem decide?_ok (h : validateLifecyclePolicy policy = .ok ()) (ranked : Candidate × Nat) :
    ∃ d, decide? policy evaluatedAtMs ranked = .ok d := by
  obtain ⟨rule, hrule⟩ := exists_rule_of_validateLifecyclePolicy h ranked.1.artifactKind
  rw [decide?, hrule]
  exact ⟨_, rfl⟩

theorem decide?_fields {ranked : Candidate × Nat} {d : LifecycleDecision}
    (h : decide? policy evaluatedAtMs ranked = .ok d) :
    d.versionId = ranked.1.versionId ∧ d.logicalSizeBytes = ranked.1.logicalSizeBytes ∧
      d.retire = decide (d.reason = .policyRetire) := by
  simp only [decide?, bind_eq_ok] at h
  obtain ⟨rule, -, h⟩ := h
  obtain rfl := Except.ok.inj h
  exact ⟨rfl, rfl, rfl⟩

structure Decided (db : Db) (decisions : List LifecycleDecision) : Prop where
  perm : (decisions.map fun d => (d.versionId, d.logicalSizeBytes)).Perm
    ((candidateRows db).map fun row => (row.1.versionId, row.2.totalSize))
  retire : ∀ d ∈ decisions, d.retire = decide (d.reason = .policyRetire)

theorem lifecycleDecisions_ok (hvalid : validateLifecyclePolicy policy = .ok ())
    (hkinds : KindsKnown db) :
    ∃ decisions, lifecycleDecisions db policy evaluatedAtMs = .ok decisions := by
  have hread : ∀ row ∈ candidateRows db, ∃ candidate, readCandidate db row = .ok candidate :=
    fun row hrow => readCandidate_ok (hkinds row hrow)
  obtain ⟨candidates, hcandidates⟩ := exists_mapEach_ok hread
  have hdecide : ∀ ranked ∈ rankCandidates none (sortCandidates candidates),
      ∃ d, decide? policy evaluatedAtMs ranked = .ok d :=
    fun ranked _ => decide?_ok hvalid ranked
  obtain ⟨decisions, hdecisions⟩ := exists_mapEach_ok hdecide
  refine ⟨decisions, ?_⟩
  rw [lifecycleDecisions, hcandidates]
  exact hdecisions

theorem decided_of_lifecycleDecisions {decisions : List LifecycleDecision}
    (h : lifecycleDecisions db policy evaluatedAtMs = .ok decisions) : Decided db decisions := by
  simp only [lifecycleDecisions, bind_eq_ok] at h
  obtain ⟨candidates, hcandidates, hdecisions⟩ := h
  constructor
  · have hread : candidates.map (fun c => (c.versionId, c.logicalSizeBytes)) =
        (candidateRows db).map fun row => (row.1.versionId, row.2.totalSize) :=
      map_of_mapEach hcandidates fun row candidate hrow => by
        obtain ⟨hid, hsize⟩ := readCandidate_fields hrow
        rw [hid, hsize]
    have hdecided : decisions.map (fun d => (d.versionId, d.logicalSizeBytes)) =
        (rankCandidates none (sortCandidates candidates)).map
          fun ranked => (ranked.1.versionId, ranked.1.logicalSizeBytes) :=
      map_of_mapEach hdecisions fun ranked d hd => by
        obtain ⟨hid, hsize, -⟩ := decide?_fields hd
        rw [hid, hsize]
    have hranked : (rankCandidates none (sortCandidates candidates)).map
          (fun ranked => (ranked.1.versionId, ranked.1.logicalSizeBytes)) =
        (sortCandidates candidates).map fun c => (c.versionId, c.logicalSizeBytes) := by
      conv_rhs => rw [← map_fst_rankCandidates none (sortCandidates candidates), List.map_map]
      rfl
    rw [hdecided, hranked, ← hread]
    exact (List.perm_insertionSort _ _).map _
  · intro d hd
    obtain ⟨ranked, -, hranked⟩ := mem_of_mapEach hdecisions hd
    exact (decide?_fields hranked).2.2

theorem lifecycleDecisions_error (hkinds : ¬KindsKnown db) :
    lifecycleDecisions db policy evaluatedAtMs = .error
      (.lifecycleError .invalidArtifactKind "invalid reserved aistore.artifact_kind value") := by
  have hread : mapEach (candidateRows db) (readCandidate db) = .error
      (.lifecycleError .invalidArtifactKind "invalid reserved aistore.artifact_kind value") := by
    refine mapEach_error
      (fun row _ => (Classical.em _).imp readCandidate_ok readCandidate_error) ?_
    simp only [KindsKnown, not_forall] at hkinds
    obtain ⟨row, hrow, hkind⟩ := hkinds
    exact ⟨row, hrow, readCandidate_error hkind⟩
  rw [lifecycleDecisions, hread]
  rfl

/-! ## Retirements -/

theorem joinObjects_sublist (db : Db) (versions : List VersionRow) :
    ((versions.filterMap fun version =>
      (db.objects.find? version.rootObjectId).map fun object => (version, object)).map
        Prod.fst).Sublist versions := by
  induction versions with
  | nil => exact .slnil
  | cons version rest ih =>
      cases hobject : db.objects.find? version.rootObjectId with
      | none => simpa [hobject] using ih.cons version
      | some object => simpa [hobject] using ih.cons_cons version

theorem candidateRows_sublist (db : Db) :
    ((candidateRows db).map Prod.fst).Sublist db.artifactVersions.rows :=
  (joinObjects_sublist db _).trans List.filter_sublist

theorem nodup_candidateRows (db : Db) :
    ((candidateRows db).map fun row => row.1.versionId).Nodup := by
  have hids := ((candidateRows_sublist db).map VersionRow.versionId).nodup
    db.artifactVersions.keysNodup
  rwa [List.map_map] at hids

theorem not_retired_of_candidate {row : VersionRow × StoredObject} (h : row ∈ candidateRows db) :
    ¬db.Retired row.1.versionId := by
  obtain ⟨version, hversion, hobject⟩ := List.mem_filterMap.mp h
  obtain ⟨object, -, rfl⟩ := Option.map_eq_some_iff.mp hobject
  have hcondition := (List.mem_filter.mp hversion).2
  simp only [Bool.and_eq_true, Bool.not_eq_true', Db.isVersionRetired_eq_false] at hcondition
  exact hcondition.2

theorem Decided.mem {decisions : List LifecycleDecision} (h : Decided db decisions)
    {d : LifecycleDecision} (hd : d ∈ decisions) : ∃ row ∈ candidateRows db,
      row.1.versionId = d.versionId ∧ row.2.totalSize = d.logicalSizeBytes := by
  have hmem := h.perm.mem_iff.mp (List.mem_map_of_mem hd)
  obtain ⟨row, hrow, heq⟩ := List.mem_map.mp hmem
  exact ⟨row, hrow, congrArg Prod.fst heq, congrArg Prod.snd heq⟩

theorem Decided.length {decisions : List LifecycleDecision} (h : Decided db decisions) :
    (candidateRows db).length = decisions.length := by
  simpa only [List.length_map] using h.perm.length_eq.symm

theorem Decided.nodup {decisions : List LifecycleDecision} (h : Decided db decisions) :
    (decisions.map LifecycleDecision.versionId).Nodup := by
  have hperm := h.perm.map Prod.fst
  simp only [List.map_map] at hperm
  exact hperm.nodup_iff.mpr (nodup_candidateRows db)

theorem insertRetirements_succeed {runId : UuidV7} {decisions : List LifecycleDecision}
    {retirements : Table RetirementRow.versionId}
    (hnodup : (decisions.map LifecycleDecision.versionId).Nodup)
    (hfresh : ∀ d ∈ decisions, retirements.find? d.versionId = none) :
    ∃ retired, foldEach decisions retirements (insertRetirement runId) = .ok retired := by
  induction decisions generalizing retirements with
  | nil => exact ⟨retirements, rfl⟩
  | cons d rest ih =>
      obtain ⟨hnotMem, hnodup⟩ := List.nodup_cons.mp hnodup
      have hd := hfresh d (by simp)
      have hinsert : insertRetirement runId retirements d =
          .ok (retirements.insert ⟨d.versionId, runId, d.artifactKind, d.reason⟩) := by
        rw [insertRetirement, failIf_of_false (not_not.mpr hd)]
        rfl
      simp only [foldEach, hinsert]
      refine ih hnodup fun e he => ?_
      have hother : e.versionId ≠ d.versionId := fun hsame =>
        hnotMem (hsame ▸ List.mem_map_of_mem he)
      rw [Table.find?_insert_new hd, if_neg hother.symm, hfresh e (by simp [he])]

theorem retirements_find?_none (h : ¬db.Retired versionId) :
    db.retirements.find? versionId = none := by
  rw [Table.find?_eq_none]
  exact fun row hrow hkey => h ⟨row, hrow, hkey⟩

theorem retirementsToPersist_sublist (mode : LifecycleRunMode)
    (decisions : List LifecycleDecision) :
    (retirementsToPersist mode decisions).Sublist decisions := by
  cases mode with
  | dryRun => exact List.nil_sublist _
  | apply => exact List.filter_sublist

theorem Decided.retire_all {decisions : List LifecycleDecision} (h : Decided db decisions)
    (runId : UuidV7) (mode : LifecycleRunMode) :
    ∃ retired, foldEach (retirementsToPersist mode decisions) db.retirements
      (insertRetirement runId) = .ok retired := by
  have hsublist := retirementsToPersist_sublist mode decisions
  refine insertRetirements_succeed ((hsublist.map _).nodup h.nodup) fun d hd => ?_
  obtain ⟨row, hrow, hid, -⟩ := h.mem (hsublist.subset hd)
  exact retirements_find?_none (hid ▸ not_retired_of_candidate hrow)

/-! ## Counters -/

def retiredBytes (decisions : List LifecycleDecision) : Nat :=
  ((decisions.filter fun d => d.reason = .policyRetire).map
    LifecycleDecision.logicalSizeBytes).sum

def policyRetiredBytes (db : Db) (policy : LifecyclePolicy) (evaluatedAtMs : Int) : Nat :=
  match lifecycleDecisions db policy evaluatedAtMs with
  | .ok decisions => retiredBytes decisions
  | .error _ => 0

theorem retired_eq_of_decided {decisions : List LifecycleDecision} (h : Decided db decisions) :
    retirementsToPersist .apply decisions =
      decisions.filter fun d => d.reason = .policyRetire := by
  refine List.filter_congr fun d hd => ?_
  rw [h.retire d hd, Bool.and_self]

theorem lifecycleStats_bytes {decisions : List LifecycleDecision} (h : Decided db decisions) :
    (lifecycleStats mode decisions).logicalBytesCandidates = retiredBytes decisions % 2 ^ 64 ∧
      (lifecycleStats mode decisions).logicalBytesRetired =
        match mode with
        | .dryRun => 0
        | .apply => retiredBytes decisions % 2 ^ 64 := by
  refine ⟨rfl, ?_⟩
  cases mode with
  | dryRun => rfl
  | apply =>
      show logicalBytes (retirementsToPersist .apply decisions) = _
      rw [retired_eq_of_decided h]
      rfl

theorem lifecycleStats_counts (mode : LifecycleRunMode) (decisions : List LifecycleDecision) :
    (lifecycleStats mode decisions).versionsScanned = decisions.length ∧
      (lifecycleStats mode decisions).versionsProtected ≤ decisions.length ∧
      (lifecycleStats mode decisions).versionsRetainedByPolicy ≤ decisions.length ∧
      (lifecycleStats mode decisions).versionsCandidates ≤ decisions.length ∧
      (lifecycleStats mode decisions).versionsRetired ≤ decisions.length :=
  ⟨rfl, List.countP_le_length, List.countP_le_length, List.length_filter_le _ _,
    (retirementsToPersist_sublist mode decisions).length_le⟩

theorem checkLifecycleStats_of_fits {decisions : List LifecycleDecision} (h : Decided db decisions)
    (hcount : decisions.length ≤ postgresBigintMax)
    (hbytes : retiredBytes decisions % 2 ^ 64 ≤ postgresBigintMax) :
    checkLifecycleStats (lifecycleStats mode decisions) = .ok () := by
  obtain ⟨hscanned, hprotected, hretained, hcandidates, hretired⟩ :=
    lifecycleStats_counts mode decisions
  obtain ⟨hbytesCandidates, hbytesRetired⟩ := @lifecycleStats_bytes db mode decisions h
  rw [checkLifecycleStats, toPostgresBigint_of_le (hscanned ▸ hcount),
    toPostgresBigint_of_le (hprotected.trans hcount),
    toPostgresBigint_of_le (hretained.trans hcount),
    toPostgresBigint_of_le (hcandidates.trans hcount),
    toPostgresBigint_of_le (hretired.trans hcount),
    toPostgresBigint_of_le (hbytesCandidates ▸ hbytes), toPostgresBigint_of_le]
  · rfl
  · rw [hbytesRetired]
    cases mode with
    | dryRun => exact Nat.zero_le _
    | apply => exact hbytes

theorem checkLifecycleStats_overflow {decisions : List LifecycleDecision} (h : Decided db decisions)
    (hcount : decisions.length ≤ postgresBigintMax)
    (hbytes : postgresBigintMax < retiredBytes decisions) (hrange : retiredBytes decisions < 2 ^ 64) :
    checkLifecycleStats (lifecycleStats mode decisions) = .error
      (.overflowError "logical_bytes_candidates exceeds PostgreSQL BIGINT range") := by
  obtain ⟨hscanned, hprotected, hretained, hcandidates, hretired⟩ :=
    lifecycleStats_counts mode decisions
  have hfails : toPostgresBigint (lifecycleStats mode decisions).logicalBytesCandidates
      "logical_bytes_candidates" = .error
        (.overflowError "logical_bytes_candidates exceeds PostgreSQL BIGINT range") := by
    rw [(lifecycleStats_bytes h).1, Nat.mod_eq_of_lt hrange, toPostgresBigint, if_pos hbytes]
    rfl
  rw [checkLifecycleStats, toPostgresBigint_of_le (hscanned ▸ hcount),
    toPostgresBigint_of_le (hprotected.trans hcount),
    toPostgresBigint_of_le (hretained.trans hcount),
    toPostgresBigint_of_le (hcandidates.trans hcount),
    toPostgresBigint_of_le (hretired.trans hcount), hfails]
  rfl

/-! ## A fresh run -/

/-- A run with a new id may start: its policy is registered and nothing is open. -/
structure LifecycleMayRun (db : Db) (runId : UuidV7) (policy : LifecyclePolicy) : Prop
    extends LifecycleStarts db runId where
  registered : db.lifecyclePolicies.find? policy.policyId = some policy

theorem lifecycleMayRun_iff {runId : UuidV7} :
    LifecycleMayRun db runId policy ↔
      db.lifecycleRuns.find? runId = none ∧ db.hasOpenUploadSession = false ∧
        db.hasOpenGcRun = false ∧ db.hasOpenReplicationRun = false ∧
        db.lifecyclePolicies.find? policy.policyId = some policy := by
  constructor
  · intro h
    exact ⟨h.fresh, h.noUploadSession, h.noGcRun, h.noReplicationRun, h.registered⟩
  · rintro ⟨hfresh, hsession, hgc, hreplication, hregistered⟩
    exact ⟨⟨hfresh, hsession, hgc, hreplication⟩, hregistered⟩

instance {runId : UuidV7} : Decidable (LifecycleMayRun db runId policy) :=
  decidable_of_iff _ lifecycleMayRun_iff.symm

theorem runLifecycle_eq {runId : UuidV7} (h : LifecycleMayRun db runId policy) :
    runLifecycle db runId policy.policyId mode evaluatedAtMs =
      (lifecycleDecisions db policy evaluatedAtMs >>= fun decisions => do
        checkLifecycleStats (lifecycleStats mode decisions)
        let retirements ← foldEach (retirementsToPersist mode decisions) db.retirements
          (insertRetirement runId)
        forEach decisions checkDecisionRow
        .ok (⟨runId, policy.policyId, mode, evaluatedAtMs, lifecycleStats mode decisions⟩,
          { db with
            lifecycleRuns := db.lifecycleRuns.insert
              ⟨⟨runId, policy.policyId, mode, evaluatedAtMs, lifecycleStats mode decisions⟩,
                decisions⟩
            retirements := retirements })) := by
  simp only [runLifecycle, h.fresh, insertLifecycleRun, h.noUploadSession, h.noGcRun,
    h.noReplicationRun, h.registered, orFail_some, ok_bind, failIf_of_false Bool.false_ne_true]
  refine bind_congr_ok fun decisions _ => ?_
  refine bind_congr_ok fun _ _ => ?_
  refine bind_congr_ok fun retirements _ => ?_
  refine bind_congr_ok fun _ _ => ?_
  rw [Table.find?_insert_fresh h.fresh rfl]
  rfl

theorem runLifecycle_returns {runId : UuidV7} (h : LifecycleMayRun db runId policy)
    (hvalid : validateLifecyclePolicy policy = .ok ())
    (hsizes : ∀ object ∈ db.objects, object.totalSize ≤ postgresBigintMax)
    (hkinds : KindsKnown db) (hcount : (candidateRows db).length ≤ postgresBigintMax)
    (hbytes : policyRetiredBytes db policy evaluatedAtMs % 2 ^ 64 ≤ postgresBigintMax) :
    ∃ run db', runLifecycle db runId policy.policyId mode evaluatedAtMs = .ok (run, db') ∧
      ∃ decisions, db'.lifecycleRuns.find? runId = some ⟨run, decisions⟩ := by
  obtain ⟨decisions, hdecisions⟩ := @lifecycleDecisions_ok db policy evaluatedAtMs hvalid hkinds
  have hdecided := decided_of_lifecycleDecisions hdecisions
  simp only [policyRetiredBytes, hdecisions] at hbytes
  obtain ⟨retired, hretired⟩ := hdecided.retire_all runId mode
  have hrows : forEach decisions checkDecisionRow = .ok () := by
    refine forEach_eq_ok.mpr fun d hd => ?_
    obtain ⟨row, hrow, -, hsize⟩ := hdecided.mem hd
    obtain ⟨version, -, hobject⟩ := List.mem_filterMap.mp hrow
    obtain ⟨object, hfind, rfl⟩ := Option.map_eq_some_iff.mp hobject
    have hfits := hsizes object (Table.mem_of_find? hfind)
    rw [checkDecisionRow, toPostgresBigint_of_le (hsize ▸ hfits)]
    rfl
  rw [runLifecycle_eq h, hdecisions, ok_bind,
    checkLifecycleStats_of_fits hdecided (hdecided.length ▸ hcount) hbytes, ok_bind, hretired,
    ok_bind, hrows, ok_bind]
  exact ⟨_, _, rfl, decisions, Table.find?_insert_fresh h.fresh rfl⟩

/-- A fresh run of a registered policy with nothing open fails on a candidate with an
unknown kind and, short of a wrap of the sum, on sizes beyond `BIGINT`; otherwise it
returns. -/
theorem runLifecycle_outcome (hreach : Reachable env db) {runId : UuidV7}
    (h : LifecycleMayRun db runId policy) :
    (¬KindsKnown db →
      runLifecycle db runId policy.policyId mode evaluatedAtMs = .error
        (.lifecycleError .invalidArtifactKind
          "invalid reserved aistore.artifact_kind value")) ∧
      (KindsKnown db → (candidateRows db).length ≤ postgresBigintMax →
        policyRetiredBytes db policy evaluatedAtMs ≤ postgresBigintMax →
        ∃ run db', runLifecycle db runId policy.policyId mode evaluatedAtMs = .ok (run, db') ∧
          ∃ decisions, db'.lifecycleRuns.find? runId = some ⟨run, decisions⟩) ∧
      (KindsKnown db → (candidateRows db).length ≤ postgresBigintMax →
        postgresBigintMax < policyRetiredBytes db policy evaluatedAtMs →
        policyRetiredBytes db policy evaluatedAtMs < 2 ^ 64 →
        runLifecycle db runId policy.policyId mode evaluatedAtMs = .error
          (.overflowError "logical_bytes_candidates exceeds PostgreSQL BIGINT range")) := by
  have hvalid : validateLifecyclePolicy policy = .ok () :=
    validPolicies_of_reachable hreach policy (Table.mem_of_find? h.registered)
  refine ⟨fun hkinds => ?_, fun hkinds hcount hbytes => ?_, fun hkinds hcount hbytes hrange => ?_⟩
  · rw [runLifecycle_eq h, lifecycleDecisions_error hkinds]
    rfl
  · exact runLifecycle_returns h hvalid (objectSize_le_of_reachable hreach) hkinds hcount
      ((Nat.mod_le _ _).trans hbytes)
  · obtain ⟨decisions, hdecisions⟩ :=
      @lifecycleDecisions_ok db policy evaluatedAtMs hvalid hkinds
    have hdecided := decided_of_lifecycleDecisions hdecisions
    simp only [policyRetiredBytes, hdecisions] at hbytes hrange
    rw [runLifecycle_eq h, hdecisions, ok_bind,
      checkLifecycleStats_overflow hdecided (hdecided.length ▸ hcount) hbytes hrange]
    rfl

end

/-! ## Samples -/

namespace Sample

def kindSession : UploadSession :=
  { session with
    immutableMetadata := ⟨.singleton artifactKindMetadataKey "checkpoint", by decide +kernel⟩
    valid := by decide +kernel }

def hugeDescriptor : ObjectLayoutDescriptor :=
  { object := ⟨⟨contentDigest⟩, 2 ^ 62⟩
    chunking := .fixedSize
    layout := ⟨[⟨chunkId, 0, 2 ^ 62⟩], by decide⟩
    chunkingValid := LayoutChunking.validate_fixedSize
    sizeMatches := rfl }

def hugeSession : UploadSession :=
  { session with
    chunking := .fixedSize (2 ^ 62)
    valid := by decide +kernel }

def hugeChildSession : UploadSession :=
  { hugeSession with
    sessionId := uuid 7
    parentVersionId := some versionId
    valid := hugeSession.valid }

def lifecycleEnv : Environment :=
  { env with
    sha256 := fun bytes =>
      if bytes = (sessionVersion kindSession descriptor.objectId).canonicalBytes then
        0x3bc83ca04801ab56338e7f6a2318cdb09f3804189b74ebc05294e29cdf87fdd4#256
      else if bytes = hugeDescriptor.canonicalBytes then
        0xce3d76fa1e57fb1b6f1dff8ae2df6f14a91df59fefce69fddb5242de941ec386#256
      else if bytes = (sessionVersion hugeChildSession descriptor.objectId).canonicalBytes then
        0xc5ab43ebad2aabe978261a4e35c9344c6d0cfeba8d5de98a571b3748997044bd#256
      else sha256 bytes }

def unknownKindOps : List ServiceOp :=
  [.createArtifact artifact,
   .registerStorageNode node,
   .createUploadSession ⟨kindSession, .open⟩,
   .negotiateChunks [⟨chunkId, 1⟩],
   .registerStorageLocation location,
   .finalizeUpload 0 kindSession.sessionId descriptor,
   .registerLifecyclePolicy policy]

def hugeOps : List ServiceOp :=
  [.createArtifact artifact,
   .registerStorageNode node,
   .createUploadSession ⟨hugeSession, .open⟩,
   .negotiateChunks [⟨chunkId, 2 ^ 62⟩],
   .registerStorageLocation location,
   .finalizeUpload 0 hugeSession.sessionId hugeDescriptor,
   .createUploadSession ⟨hugeChildSession, .open⟩,
   .finalizeUpload 0 hugeChildSession.sessionId hugeDescriptor,
   .registerLifecyclePolicy policy]

def unknownKindDb : Db := afterOps lifecycleEnv Db.initial unknownKindOps

def hugeDb : Db := afterOps lifecycleEnv Db.initial hugeOps

end Sample

/-- One version of an unknown kind fails a run, and so do two versions of 2^62 bytes. -/
theorem runLifecycle_wedged :
    (Reachable Sample.lifecycleEnv Sample.unknownKindDb ∧
      LifecycleMayRun Sample.unknownKindDb (Sample.uuid 9) Sample.policy ∧
      (serve Sample.lifecycleEnv Sample.unknownKindDb
        (.runLifecycle (Sample.uuid 9) Sample.policy.policyId .apply 1)).1 = .error
        (.lifecycleError .invalidArtifactKind "invalid reserved aistore.artifact_kind value")) ∧
      Reachable Sample.lifecycleEnv Sample.hugeDb ∧
      LifecycleMayRun Sample.hugeDb (Sample.uuid 9) Sample.policy ∧
      (serve Sample.lifecycleEnv Sample.hugeDb
        (.runLifecycle (Sample.uuid 9) Sample.policy.policyId .apply 1)).1 = .error
        (.overflowError "logical_bytes_candidates exceeds PostgreSQL BIGINT range") := by
  refine ⟨⟨reachable_afterOps _ _, ?_, ?_⟩, reachable_afterOps _ _, ?_, ?_⟩
  all_goals decide +kernel

theorem runLifecycle_outcome_sample :
    let db := afterOps Sample.env Db.initial
      (Sample.pushOps ++ [.registerLifecyclePolicy Sample.policy]);
    (¬KindsKnown db →
      runLifecycle db (Sample.uuid 5) Sample.policy.policyId .apply 1 = .error
        (.lifecycleError .invalidArtifactKind
          "invalid reserved aistore.artifact_kind value")) ∧
      (KindsKnown db → (candidateRows db).length ≤ postgresBigintMax →
        policyRetiredBytes db Sample.policy 1 ≤ postgresBigintMax →
        ∃ run db', runLifecycle db (Sample.uuid 5) Sample.policy.policyId .apply 1 =
            .ok (run, db') ∧
          ∃ decisions, db'.lifecycleRuns.find? (Sample.uuid 5) = some ⟨run, decisions⟩) ∧
      (KindsKnown db → (candidateRows db).length ≤ postgresBigintMax →
        postgresBigintMax < policyRetiredBytes db Sample.policy 1 →
        policyRetiredBytes db Sample.policy 1 < 2 ^ 64 →
        runLifecycle db (Sample.uuid 5) Sample.policy.policyId .apply 1 = .error
          (.overflowError "logical_bytes_candidates exceeds PostgreSQL BIGINT range")) :=
  runLifecycle_outcome (reachable_afterOps _ _) (by decide +kernel)

end AiArtifactStore.Metadata
