import AiArtifactStore.Metadata.ArtifactModel

/-!
# Lifecycle values

Artifact kinds, retention policies, lifecycle runs and their decisions.
-/

namespace AiArtifactStore.Metadata

open AiArtifactStore.Foundation
open AiArtifactStore.Identity

def artifactKindMetadataKey : String := "aistore.artifact_kind"

inductive ArtifactKind where
  | generic
  | modelCheckpoint
  | datasetSnapshot
  | embeddingIndex
  | evaluationOutput
  deriving DecidableEq, Repr

namespace ArtifactKind

/-- `kAllArtifactKinds`, in the order of the enumeration. -/
def all : List ArtifactKind :=
  [.generic, .modelCheckpoint, .datasetSnapshot, .embeddingIndex, .evaluationOutput]

instance : LT ArtifactKind := ⟨fun a b => a.ctorIdx < b.ctorIdx⟩

/-- `artifact_kind_to_string` -/
def toText : ArtifactKind → String
  | .generic => "generic"
  | .modelCheckpoint => "model-checkpoint"
  | .datasetSnapshot => "dataset-snapshot"
  | .embeddingIndex => "embedding-index"
  | .evaluationOutput => "evaluation-output"

/-- `artifact_kind_from_string`: the kind whose text it is. -/
def ofText? (text : String) : Option ArtifactKind :=
  all.find? fun kind => kind.toText = text

theorem ofText?_toText (kind : ArtifactKind) : ofText? kind.toText = some kind := by
  cases kind <;> decide +kernel

end ArtifactKind

def resolveArtifactKind (metadataValue : Option String) : Except Exc ArtifactKind :=
  match metadataValue with
  | none => .ok .generic
  | some value =>
      orFail (ArtifactKind.ofText? value)
        (.lifecycleError .invalidArtifactKind "invalid reserved aistore.artifact_kind value")

structure LifecycleRule where
  artifactKind : ArtifactKind
  keepLastN : Nat
  maxAgeSeconds : Option Nat
  deriving DecidableEq, Repr

structure LifecyclePolicy where
  policyId : UuidV7
  name : String
  rules : OrderedMap ArtifactKind LifecycleRule
  deriving DecidableEq

def validateLifecycleRule (policy : LifecyclePolicy) (kind : ArtifactKind) :
    Except Exc Unit := do
  let rule ← orFail (policy.rules.find? kind)
    (.lifecycleError .invalidRequest
      "lifecycle policy must contain exactly one rule per artifact kind")
  failIf (rule.artifactKind ≠ kind)
    (.lifecycleError .invalidRequest
      "lifecycle policy rule artifact kind does not match map key")
  failIf (rule.keepLastN > 1000)
    (.lifecycleError .invalidRequest "lifecycle policy keep_last_n is out of range")
  failIf (∃ maxAge ∈ rule.maxAgeSeconds, maxAge > 315360000)
    (.lifecycleError .invalidRequest "lifecycle policy max_age_seconds is out of range")

def validateLifecyclePolicy (policy : LifecyclePolicy) : Except Exc Unit := do
  failIf (policy.name.isEmpty ∨ policy.name.utf8ByteSize > 128)
    (.lifecycleError .invalidRequest "lifecycle policy name is invalid")
  failIf (policy.rules.entries.length ≠ 5)
    (.lifecycleError .invalidRequest
      "lifecycle policy must contain exactly one rule per artifact kind")
  forEach ArtifactKind.all (validateLifecycleRule policy)

inductive LifecycleRunMode where
  | dryRun
  | apply
  deriving DecidableEq, Repr

inductive LifecycleDecisionReason where
  | pinned
  | tagged
  | manifestReferenced
  | keepLastN
  | ageNotReached
  | policyRetire
  deriving DecidableEq, Repr

structure LifecycleStats where
  versionsScanned : Nat
  versionsProtected : Nat
  versionsRetainedByPolicy : Nat
  versionsCandidates : Nat
  versionsRetired : Nat
  logicalBytesCandidates : Nat
  logicalBytesRetired : Nat
  deriving DecidableEq, Repr

structure LifecycleRun where
  runId : UuidV7
  policyId : UuidV7
  mode : LifecycleRunMode
  evaluatedAtUnixMs : Int
  stats : LifecycleStats
  deriving DecidableEq, Repr

structure LifecycleDecision where
  versionId : ContentId
  artifactId : UuidV7
  artifactKind : ArtifactKind
  retire : Bool
  reason : LifecycleDecisionReason
  logicalSizeBytes : Nat
  deriving DecidableEq, Repr

end AiArtifactStore.Metadata
