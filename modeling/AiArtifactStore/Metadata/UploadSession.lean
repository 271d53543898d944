import AiArtifactStore.Metadata.ArtifactModel

/-!
# Upload sessions

The creation identity of a session (everything `upload_session_identity_matches`
compares) and its status.
-/

namespace AiArtifactStore.Metadata

open AiArtifactStore.Foundation
open AiArtifactStore.Identity

inductive SessionChunking where
  | fixedSize (chunkSizeBytes : Nat)
  | fastCdc (parameters : FastCdcParameters)
  deriving DecidableEq, Repr

namespace SessionChunking

def strategy : SessionChunking → ChunkingStrategy
  | .fixedSize _ => .fixedSize
  | .fastCdc _ => .fastCdc

def validate : SessionChunking → Except Exc Unit
  | .fixedSize chunkSizeBytes =>
      failIf (chunkSizeBytes = 0)
        (.invalidArgument "upload session FixedSize chunk size must be greater than zero")
  | .fastCdc parameters => validateFastCdcParameters parameters

end SessionChunking

/-- `UploadSession::validate_node_id` -/
def validateSessionNodeId (nodeId : String) : Except Exc Unit := do
  failIf (nodeIdLengthInvalid nodeId)
    (.invalidArgument "upload session target node ID must be 1 to 128 characters")
  failIf (nodeIdCharacterInvalid nodeId)
    (.invalidArgument "upload session target node ID contains an invalid character")

/-- The loop of `validate_replication_configuration`, after the node `previous`. -/
def validatePlacementNodeIds (previous : Option String) : List String → Except Exc Unit
  | [] => .ok ()
  | nodeId :: rest => do
      validateSessionNodeId nodeId
      failIf (∃ p ∈ previous, ¬p < nodeId)
        (.invalidArgument "upload session placement node IDs must be sorted and unique")
      validatePlacementNodeIds (some nodeId) rest

structure UploadSessionFields where
  sessionId : UuidV7
  artifactId : UuidV7
  replicationFactor : Nat
  placementNodeIds : List String
  chunking : SessionChunking
  parentVersionId : Option ContentId
  immutableMetadata : ImmutableMetadata
  deriving DecidableEq

namespace UploadSessionFields

def targetNodeId (s : UploadSessionFields) : String := s.placementNodeIds.headD ""

def validate (s : UploadSessionFields) : Except Exc Unit := do
  validateSessionNodeId s.targetNodeId
  failIf (s.replicationFactor < 1 ∨ s.replicationFactor > 8)
    (.invalidArgument "upload session replication factor must be between 1 and 8")
  failIf (s.placementNodeIds = [] ∨ s.placementNodeIds.length > 64)
    (.invalidArgument "upload session placement node set size must be between 1 and 64")
  failIf (s.replicationFactor > s.placementNodeIds.length)
    (.invalidArgument "upload session replication factor must not exceed placement node count")
  validatePlacementNodeIds none s.placementNodeIds
  s.chunking.validate

end UploadSessionFields

structure UploadSession extends UploadSessionFields where
  valid : toUploadSessionFields.validate = .ok ()
  deriving DecidableEq

theorem validateSessionNodeId_ok {nodeId : String} :
    validateSessionNodeId nodeId = .ok () ↔ nodeIdInvalid nodeId = false := by
  simp [validateSessionNodeId, bind_eq_ok, nodeIdInvalid]

theorem validatePlacementNodeIds_ok {previous : Option String} {nodeIds : List String} :
    validatePlacementNodeIds previous nodeIds = .ok () ↔
      (∀ nodeId ∈ nodeIds, nodeIdInvalid nodeId = false) ∧
        (previous.toList ++ nodeIds).IsChain (· < ·) := by
  induction nodeIds generalizing previous with
  | nil => cases previous <;> simp [validatePlacementNodeIds]
  | cons nodeId rest ih =>
      simp only [validatePlacementNodeIds, bind_eq_ok, exists_unit, validateSessionNodeId_ok,
        failIf_eq_ok, ih]
      cases previous with
      | none =>
          simp
          tauto
      | some p =>
          simp [List.isChain_cons_cons]
          tauto

theorem UploadSession.valid_iff {s : UploadSessionFields} :
    s.validate = .ok () ↔
      (1 ≤ s.replicationFactor ∧ s.replicationFactor ≤ 8) ∧
        s.placementNodeIds ≠ [] ∧ s.placementNodeIds.length ≤ 64 ∧
        s.replicationFactor ≤ s.placementNodeIds.length ∧
        (∀ nodeId ∈ s.placementNodeIds, nodeIdInvalid nodeId = false) ∧
        s.placementNodeIds.IsChain (· < ·) ∧ s.chunking.validate = .ok () := by
  simp only [UploadSessionFields.validate, bind_eq_ok, exists_unit, failIf_eq_ok,
    validatePlacementNodeIds_ok, validateSessionNodeId_ok, Option.toList_none, List.nil_append,
    UploadSessionFields.targetNodeId]
  cases h : s.placementNodeIds with
  | nil => simp
  | cons head rest =>
      simp
      grind

inductive UploadSessionState where
  | «open»
  | committed
  | aborted
  deriving DecidableEq, Repr

/-- The state and finalized version of a session row: a finalized version is
present exactly in a committed row. -/
inductive UploadSessionStatus where
  | «open»
  | committed (finalizedVersionId : ContentId)
  | aborted
  deriving DecidableEq, Repr

namespace UploadSessionStatus

def state : UploadSessionStatus → UploadSessionState
  | .open => .open
  | .committed _ => .committed
  | .aborted => .aborted

def finalizedVersionId : UploadSessionStatus → Option ContentId
  | .committed v => some v
  | _ => none

end UploadSessionStatus

end AiArtifactStore.Metadata
