import AiArtifactStore.Metadata.ObjectLayout

/-!
# Replica placement

Rendezvous hashing of a chunk over the placement nodes of a session or run.
-/

namespace AiArtifactStore.Metadata

open AiArtifactStore.Foundation
open AiArtifactStore.Identity

def validateStorageNodeId (nodeId : String) : Except Exc Unit :=
  failIf (nodeIdInvalid nodeId) (.invalidArgument "storage node ID is invalid")

def placementPrefix : List UInt8 := asciiBytes "AISTORE_PLACEMENT_V1".toList

def placementDigest (env : Environment) (chunkId : ContentId) (nodeId : String) : BitVec 256 :=
  env.sha256 (placementPrefix ++ [0] ++ chunkId.hexBytes ++ [0] ++ nodeId.toUTF8.toList)

structure RankedNode where
  digest : BitVec 256
  nodeId : String
  deriving DecidableEq, Repr

/-- The comparison of the sort: larger digests first, then smaller node ids. -/
def RankedNode.precedes (left right : RankedNode) : Prop :=
  right.digest.toNat < left.digest.toNat ∨
    (left.digest = right.digest ∧ ¬right.nodeId < left.nodeId)

instance : DecidableRel RankedNode.precedes := fun left right =>
  inferInstanceAs (Decidable (right.digest.toNat < left.digest.toNat ∨
    (left.digest = right.digest ∧ ¬right.nodeId < left.nodeId)))

def validatePlacementOrder (previous : Option String) (seen : List String) :
    List String → Except Exc Unit
  | [] => .ok ()
  | nodeId :: rest => do
      validateStorageNodeId nodeId
      failIf (∃ p ∈ previous, ¬p < nodeId)
        (.invalidArgument "placement node IDs must be sorted and unique")
      failIf (nodeId ∈ seen) (.invalidArgument "placement node IDs must be unique")
      validatePlacementOrder (some nodeId) (nodeId :: seen) rest

def rankNodes (env : Environment) (chunkId : ContentId) (nodeIds : List String) :
    List RankedNode :=
  (nodeIds.map fun nodeId => ⟨placementDigest env chunkId nodeId, nodeId⟩).insertionSort
    RankedNode.precedes

def selectReplicaNodes (env : Environment) (chunkId : ContentId)
    (placementNodeIds : List String) (replicationFactor : Nat) : Except Exc (List String) := do
  failIf (placementNodeIds = [] ∨ placementNodeIds.length > 64)
    (.invalidArgument "placement node set size must be between 1 and 64")
  failIf (replicationFactor < 1 ∨ replicationFactor > 8 ∨
      replicationFactor > placementNodeIds.length)
    (.invalidArgument "replication_factor must be between 1 and 8 and <= placement node count")
  validatePlacementOrder none [] placementNodeIds
  .ok (((rankNodes env chunkId placementNodeIds).take replicationFactor).map RankedNode.nodeId)

theorem validatePlacementOrder_ok {previous : Option String} {seen nodeIds : List String}
    (hvalid : ∀ nodeId ∈ nodeIds, nodeIdInvalid nodeId = false)
    (hchain : (previous.toList ++ nodeIds).IsChain (· < ·))
    (hseen : ∀ nodeId ∈ nodeIds, ∀ s ∈ seen, s < nodeId) :
    validatePlacementOrder previous seen nodeIds = .ok () := by
  induction nodeIds generalizing previous seen with
  | nil => rfl
  | cons nodeId rest ih =>
      have hprevious : ¬∃ p ∈ previous, ¬p < nodeId := by
        rintro ⟨p, rfl, hp⟩
        exact hp (List.isChain_cons_cons.mp hchain).1
      have hfresh : nodeId ∉ seen := fun h => String.lt_irrefl _ (hseen nodeId (by simp) nodeId h)
      have hrest : (nodeId :: rest).IsChain (· < ·) := by
        cases previous with
        | none => exact hchain
        | some p => exact (List.isChain_cons_cons.mp hchain).2
      have hlt : ∀ other ∈ rest, nodeId < other :=
        fun other h => (List.pairwise_cons.mp (List.isChain_iff_pairwise.mp hrest)).1 other h
      have htail := @ih (some nodeId) (nodeId :: seen)
        (fun other h => hvalid other (by simp [h])) hrest (by
          intro other hother s hs
          rcases List.mem_cons.mp hs with rfl | hs
          · exact hlt other hother
          · exact hseen other (by simp [hother]) s hs)
      have hcharacters : ¬nodeIdInvalid nodeId = true := by simp [hvalid nodeId (by simp)]
      rw [validatePlacementOrder, validateStorageNodeId, failIf_of_false hcharacters, ok_bind,
        failIf_of_false hprevious, ok_bind, failIf_of_false hfresh, ok_bind]
      exact htail

theorem isChain_of_validatePlacementOrder {previous : Option String} {seen nodeIds : List String}
    (h : validatePlacementOrder previous seen nodeIds = .ok ()) :
    (previous.toList ++ nodeIds).IsChain (· < ·) := by
  induction nodeIds generalizing previous seen with
  | nil => cases previous <;> simp
  | cons nodeId rest ih =>
      simp only [validatePlacementOrder, bind_eq_ok, exists_unit, failIf_eq_ok] at h
      obtain ⟨-, hprevious, -, hrest⟩ := h
      have hchain : (nodeId :: rest).IsChain (· < ·) := ih hrest
      cases previous with
      | none => exact hchain
      | some p =>
          refine List.isChain_cons_cons.mpr ⟨?_, hchain⟩
          by_contra hlt
          exact hprevious ⟨p, rfl, hlt⟩

/-- On valid ids and an admissible factor, `select_replica_nodes` checks the order. -/
theorem exists_selectReplicaNodes_iff {env : Environment} {chunkId : ContentId}
    {placementNodeIds : List String} {replicationFactor : Nat}
    (hvalid : ∀ nodeId ∈ placementNodeIds, nodeIdInvalid nodeId = false)
    (hfactor : 1 ≤ replicationFactor ∧ replicationFactor ≤ 8)
    (hsize : replicationFactor ≤ placementNodeIds.length ∧ placementNodeIds.length ≤ 64) :
    (∃ selected, selectReplicaNodes env chunkId placementNodeIds replicationFactor =
      .ok selected) ↔ placementNodeIds.IsChain (· < ·) := by
  have hnonempty : placementNodeIds ≠ [] := by
    rintro rfl
    simp at hsize
    omega
  have hbounds : ¬(placementNodeIds = [] ∨ placementNodeIds.length > 64) := by
    simp only [hnonempty, false_or]
    omega
  rw [selectReplicaNodes, failIf_of_false hbounds, ok_bind, failIf_of_false (by omega), ok_bind]
  constructor
  · rintro ⟨selected, h⟩
    simp only [bind_eq_ok, exists_unit] at h
    exact isChain_of_validatePlacementOrder h.1
  · intro hchain
    have horder : validatePlacementOrder none [] placementNodeIds = .ok () :=
      validatePlacementOrder_ok hvalid hchain (by simp)
    rw [horder]
    exact ⟨_, rfl⟩

theorem selectReplicaNodes_eq_ok {env : Environment} {chunkId : ContentId}
    {placementNodeIds selected : List String} {replicationFactor : Nat}
    (h : selectReplicaNodes env chunkId placementNodeIds replicationFactor = .ok selected) :
    selected =
      ((rankNodes env chunkId placementNodeIds).take replicationFactor).map RankedNode.nodeId := by
  simp only [selectReplicaNodes, bind_eq_ok] at h
  obtain ⟨-, -, -, -, -, -, h⟩ := h
  exact (Except.ok.inj h).symm

end AiArtifactStore.Metadata
