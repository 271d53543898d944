import AiArtifactStore.Metadata.Registration

/-!
# Lifecycle policies and runs

`register_lifecycle_policy` and `run_lifecycle`: the candidates, their ranks,
the decisions and the retirements of an apply run.  Times are exact: versions
carry microseconds, an evaluation milliseconds.
-/

namespace AiArtifactStore.Metadata

open AiArtifactStore.Foundation
open AiArtifactStore.Identity

def LifecyclePolicy.stored (policy : LifecyclePolicy) : LifecyclePolicy :=
  { policy with name := cString policy.name }

@[simp] theorem LifecyclePolicy.stored_policyId (policy : LifecyclePolicy) :
    policy.stored.policyId = policy.policyId := rfl

@[simp] theorem LifecyclePolicy.stored_rules (policy : LifecyclePolicy) :
    policy.stored.rules = policy.rules := rfl

def registerLifecyclePolicy (db : Db) (policy : LifecyclePolicy) : Except Exc Db := do
  validateLifecyclePolicy policy
  match db.lifecyclePolicies.find? policy.policyId with
  | some existing =>
      if existing.name = policy.name ∧ existing.rules = policy.rules then .ok db
      else
        .error (.lifecycleError .policyConflict
          "lifecycle policy ID conflicts with a different configuration")
  | none => do
      failIf (policy.stored.name = "") (.sqlError "lifecycle_policies_name_check")
      .ok { db with lifecyclePolicies := db.lifecyclePolicies.insert policy.stored }

/-! ## Candidates -/

structure Candidate where
  versionId : ContentId
  artifactId : UuidV7
  artifactKind : ArtifactKind
  createdAt : Int
  logicalSizeBytes : Nat
  pinned : Bool
  tagged : Bool
  manifestReferenced : Bool
  deriving DecidableEq, Repr

def isTagged (db : Db) (versionId : ContentId) : Bool :=
  db.tags.rows.any fun row => row.versionId = versionId

def isPinned (db : Db) (versionId : ContentId) : Bool :=
  db.pins.rows.any fun row => row.versionId = versionId

def isManifestReferenced (db : Db) (versionId : ContentId) : Bool :=
  db.manifests.rows.any fun row => row.entryRows.any fun entry => entry.2 = versionId

def candidateRows (db : Db) : List (VersionRow × StoredObject) :=
  (db.artifactVersions.rows.filter fun version =>
    version.state = .committed && !db.isVersionRetired version.versionId).filterMap fun version =>
      (db.objects.find? version.rootObjectId).map fun object => (version, object)

def readCandidate (db : Db) (row : VersionRow × StoredObject) : Except Exc Candidate := do
  let kind ← resolveArtifactKind (row.1.metadata.map.find? artifactKindMetadataKey)
  .ok
    { versionId := row.1.versionId
      artifactId := row.1.artifactId
      artifactKind := kind
      createdAt := row.1.createdAt
      logicalSizeBytes := row.2.totalSize
      pinned := isPinned db row.1.versionId
      tagged := isTagged db row.1.versionId
      manifestReferenced := isManifestReferenced db row.1.versionId }

/-- The order of the sort: artifact, kind, newest first, version id. -/
def Candidate.before (left right : Candidate) : Bool :=
  if left.artifactId ≠ right.artifactId then left.artifactId < right.artifactId
  else if left.artifactKind ≠ right.artifactKind then
    left.artifactKind.toText < right.artifactKind.toText
  else if left.createdAt ≠ right.createdAt then right.createdAt < left.createdAt
  else left.versionId < right.versionId

def sortCandidates (candidates : List Candidate) : List Candidate :=
  candidates.insertionSort fun left right => right.before left = false

/-- Pair each candidate with its rank in its artifact and kind, after a
candidate with the rank `previous`. -/
def rankCandidates (previous : Option (Candidate × Nat)) :
    List Candidate → List (Candidate × Nat)
  | [] => []
  | candidate :: rest =>
      let rank :=
        match previous with
        | none => 1
        | some (before, rank) =>
            if before.artifactId = candidate.artifactId ∧
                before.artifactKind = candidate.artifactKind then
              (rank + 1) % 2 ^ 32
            else 1
      (candidate, rank) :: rankCandidates (some (candidate, rank)) rest

/-! ## Decisions -/

/-- The first reason that applies; only `policyRetire` retires. -/
def decisionReason (rule : LifecycleRule) (evaluatedAtMs : Int) (candidate : Candidate)
    (rank : Nat) : LifecycleDecisionReason :=
  if candidate.pinned then .pinned
  else if candidate.tagged then .tagged
  else if candidate.manifestReferenced then .manifestReferenced
  else if rank ≤ rule.keepLastN then .keepLastN
  else if ∃ maxAge ∈ rule.maxAgeSeconds,
      1000 * evaluatedAtMs - candidate.createdAt < 1000000 * maxAge then .ageNotReached
  else .policyRetire

def decide? (policy : LifecyclePolicy) (evaluatedAtMs : Int) (ranked : Candidate × Nat) :
    Except Exc LifecycleDecision := do
  let rule ← orFail (policy.rules.find? ranked.1.artifactKind)
    (.runtimeError "lifecycle policy is missing a rule for an artifact kind")
  let reason := decisionReason rule evaluatedAtMs ranked.1 ranked.2
  .ok
    { versionId := ranked.1.versionId
      artifactId := ranked.1.artifactId
      artifactKind := ranked.1.artifactKind
      retire := reason = .policyRetire
      reason := reason
      logicalSizeBytes := ranked.1.logicalSizeBytes }

def logicalBytes (decisions : List LifecycleDecision) : Nat :=
  (decisions.map LifecycleDecision.logicalSizeBytes).sum % 2 ^ 64

def LifecycleDecision.isProtected (d : LifecycleDecision) : Bool :=
  d.reason = .pinned || d.reason = .tagged || d.reason = .manifestReferenced

def LifecycleDecision.isRetained (d : LifecycleDecision) : Bool :=
  d.reason = .keepLastN || d.reason = .ageNotReached

def retirementsToPersist (mode : LifecycleRunMode) (decisions : List LifecycleDecision) :
    List LifecycleDecision :=
  match mode with
  | .dryRun => []
  | .apply => decisions.filter fun d => d.retire && d.reason = .policyRetire

def lifecycleStats (mode : LifecycleRunMode) (decisions : List LifecycleDecision) :
    LifecycleStats :=
  let candidates := decisions.filter fun d => d.reason = .policyRetire
  let retired := retirementsToPersist mode decisions
  { versionsScanned := decisions.length
    versionsProtected := decisions.countP LifecycleDecision.isProtected
    versionsRetainedByPolicy := decisions.countP LifecycleDecision.isRetained
    versionsCandidates := candidates.length
    versionsRetired := retired.length
    logicalBytesCandidates := logicalBytes candidates
    logicalBytesRetired := logicalBytes retired }

def checkLifecycleStats (stats : LifecycleStats) : Except Exc Unit := do
  let _ ← toPostgresBigint stats.versionsScanned "versions_scanned"
  let _ ← toPostgresBigint stats.versionsProtected "versions_protected"
  let _ ← toPostgresBigint stats.versionsRetainedByPolicy "versions_retained_by_policy"
  let _ ← toPostgresBigint stats.versionsCandidates "versions_candidates"
  let _ ← toPostgresBigint stats.versionsRetired "versions_retired"
  let _ ← toPostgresBigint stats.logicalBytesCandidates "logical_bytes_candidates"
  let _ ← toPostgresBigint stats.logicalBytesRetired "logical_bytes_retired"

/-! ## Runs -/

def insertRetirement (runId : UuidV7) (retirements : Table RetirementRow.versionId)
    (d : LifecycleDecision) : Except Exc (Table RetirementRow.versionId) := do
  failIf (retirements.find? d.versionId ≠ none) (.sqlError "artifact_version_retirements_pkey")
  .ok (retirements.insert ⟨d.versionId, runId, d.artifactKind, d.reason⟩)

def checkDecisionRow (d : LifecycleDecision) : Except Exc Unit := do
  let _ ← toPostgresBigint d.logicalSizeBytes "logical_size_bytes"

def lifecycleDecisions (db : Db) (policy : LifecyclePolicy) (evaluatedAtMs : Int) :
    Except Exc (List LifecycleDecision) := do
  let candidates ← mapEach (candidateRows db) (readCandidate db)
  mapEach (rankCandidates none (sortCandidates candidates)) (decide? policy evaluatedAtMs)

def insertLifecycleRun (db : Db) (runId policyId : UuidV7) (mode : LifecycleRunMode)
    (evaluatedAtMs : Int) : Except Exc (LifecycleRun × Db) := do
  failIf db.hasOpenUploadSession
    (.lifecycleError .blockedByOpenUploadSessions "open upload sessions are present")
  failIf db.hasOpenGcRun (.lifecycleError .blockedByGc "an open GC run is present")
  failIf db.hasOpenReplicationRun
    (.lifecycleError .blockedByReplication "an open replication run is present")
  let policy ← orFail (db.lifecyclePolicies.find? policyId)
    (.lifecycleError .policyNotFound "lifecycle policy does not exist")
  let decisions ← lifecycleDecisions db policy evaluatedAtMs
  let stats := lifecycleStats mode decisions
  checkLifecycleStats stats
  let run : LifecycleRun := ⟨runId, policyId, mode, evaluatedAtMs, stats⟩
  let retirements ← foldEach (retirementsToPersist mode decisions) db.retirements
    (insertRetirement runId)
  forEach decisions checkDecisionRow
  let db := { db with
    lifecycleRuns := db.lifecycleRuns.insert ⟨run, decisions⟩
    retirements := retirements }
  let loaded ← orFail (db.lifecycleRuns.find? runId)
    (.runtimeError "lifecycle run disappeared immediately after persistence")
  .ok (loaded.run, db)

def runLifecycle (db : Db) (runId policyId : UuidV7) (mode : LifecycleRunMode)
    (evaluatedAtMs : Int) : Except Exc (LifecycleRun × Db) :=
  match db.lifecycleRuns.find? runId with
  | some existing =>
      if existing.run.policyId = policyId ∧ existing.run.mode = mode then .ok (existing.run, db)
      else
        .error (.lifecycleError .runConflict
          "lifecycle run ID conflicts with an existing run")
  | none => insertLifecycleRun db runId policyId mode evaluatedAtMs

end AiArtifactStore.Metadata
