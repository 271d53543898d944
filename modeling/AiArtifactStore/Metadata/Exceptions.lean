import AiArtifactStore.Foundation.Checked
import Mathlib.Algebra.GroupWithZero.Nat

/-!
# Exceptions of the metadata layer

Every exception carries the text the source throws.  A pqxx error names the
violated constraint.
-/

namespace AiArtifactStore.Metadata

inductive GcErrorKind where
  | runNotFound
  | runConflict
  | anotherRunOpen
  | openUploadSessionsPresent
  | runNotOpen
  | gcInProgress
  | replicationInProgress
  deriving DecidableEq, Repr

inductive LifecycleErrorKind where
  | invalidRequest
  | policyNotFound
  | runNotFound
  | versionNotFound
  | versionRetired
  | runConflict
  | blockedByOpenUploadSessions
  | blockedByGc
  | blockedByReplication
  | invalidArtifactKind
  | policyConflict
  deriving DecidableEq, Repr

inductive ReplicationErrorKind where
  | runNotFound
  | runConflict
  | anotherRunOpen
  | gcInProgress
  | runNotOpen
  | versionNotFound
  | versionNotCommitted
  | sourceUnavailable
  | underReplicated
  | targetDisabled
  | versionRetired
  deriving DecidableEq, Repr

inductive FinalizeUploadErrorKind where
  | sessionNotFound
  | sessionNotOpen
  | conflict
  | chunkNotAvailableOnTarget
  | chunkUnderReplicated
  | versionRetired
  deriving DecidableEq, Repr

inductive RestorePlanErrorKind where
  | versionNotFound
  | versionNotCommitted
  | sourceUnavailable
  | versionRetired
  deriving DecidableEq, Repr

inductive Exc where
  | invalidArgument (what : String)
  | runtimeError (what : String)
  | overflowError (what : String)
  | sqlError (constraint : String)
  | gcError (kind : GcErrorKind) (what : String)
  | lifecycleError (kind : LifecycleErrorKind) (what : String)
  | replicationError (kind : ReplicationErrorKind) (what : String)
  | finalizeUploadError (kind : FinalizeUploadErrorKind) (what : String)
      (chunkId : Option String)
  | restorePlanError (kind : RestorePlanErrorKind) (what : String)
  deriving DecidableEq, Repr

/-- Caught by `catch (const std::runtime_error&)`: all but the `std::logic_error`s. -/
def Exc.isRuntimeError : Exc → Bool
  | .invalidArgument _ => false
  | _ => true

def postgresBigintMax : Nat := 2 ^ 63 - 1

def toPostgresBigint (value : Nat) (fieldName : String) : Except Exc Nat :=
  if value > postgresBigintMax then
    .error (.overflowError (fieldName ++ " exceeds PostgreSQL BIGINT range"))
  else .ok value

theorem toPostgresBigint_eq_ok {value stored : Nat} {fieldName : String} :
    toPostgresBigint value fieldName = .ok stored ↔
      value ≤ postgresBigintMax ∧ stored = value := by
  unfold toPostgresBigint
  by_cases h : value > postgresBigintMax
  · simp [h, Nat.not_le.mpr h]
  · simp [h, Nat.le_of_not_lt h, eq_comm]

theorem toPostgresBigint_of_le {value : Nat} {fieldName : String}
    (h : value ≤ postgresBigintMax) : toPostgresBigint value fieldName = .ok value :=
  toPostgresBigint_eq_ok.mpr ⟨h, rfl⟩

end AiArtifactStore.Metadata
