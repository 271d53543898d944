import AiArtifactStore.Foundation.Ranking
import AiArtifactStore.Metadata.Histories
import AiArtifactStore.Metadata.Placement

/-!
# Placement under changes of the node set

`select_replica_nodes` takes the first nodes of a ranking that depends on the chunk
alone, so a node that joins or leaves displaces at most one selected node.
-/

namespace AiArtifactStore.Metadata

open AiArtifactStore.Foundation
open AiArtifactStore.Identity

section

variable {env : Environment} {chunkId : ContentId} {nodeIds larger selected : List String}
  {replicationFactor : Nat} {nodeId : String}

structure IsPlacement (nodeIds : List String) : Prop where
  sorted : nodeIds.IsChain (· < ·)
  valid : ∀ nodeId ∈ nodeIds, nodeIdInvalid nodeId = false
  size : 1 ≤ nodeIds.length ∧ nodeIds.length ≤ 64

def Admissible (nodeIds : List String) (replicationFactor : Nat) : Prop :=
  1 ≤ replicationFactor ∧ replicationFactor ≤ 8 ∧ replicationFactor ≤ nodeIds.length

/-- The order in which the nodes are taken for a chunk. -/
def ranksBefore (env : Environment) (chunkId : ContentId) (left right : String) : Prop :=
  RankedNode.precedes ⟨placementDigest env chunkId left, left⟩
    ⟨placementDigest env chunkId right, right⟩

instance : DecidableRel (ranksBefore env chunkId) := fun _ _ =>
  inferInstanceAs (Decidable (RankedNode.precedes _ _))

theorem strictComparison_digest :
    StrictComparison fun a b : BitVec 256 => b.toNat < a.toNat := by
  constructor
  · exact fun a => Nat.lt_irrefl a.toNat
  · exact fun a b c hab hbc => Nat.lt_trans hbc hab
  · exact fun a b hab hba =>
      BitVec.eq_of_toNat_eq (Nat.le_antisymm (Nat.not_lt.mp hab) (Nat.not_lt.mp hba))

theorem linearComparison_ranksBefore (env : Environment) (chunkId : ContentId) :
    LinearComparison (ranksBefore env chunkId) :=
  LinearComparison.of_key strictComparison_digest strictComparison_string
    (placementDigest env chunkId)

theorem map_rankNodes (env : Environment) (chunkId : ContentId) (nodeIds : List String) :
    (rankNodes env chunkId nodeIds).map RankedNode.nodeId =
      nodeIds.insertionSort (ranksBefore env chunkId) := by
  have hranked := List.map_insertionSort (ranksBefore env chunkId) RankedNode.precedes
    (fun nodeId => ⟨placementDigest env chunkId nodeId, nodeId⟩) nodeIds fun _ _ _ _ => Iff.rfl
  rw [rankNodes, ← hranked, List.map_map]
  exact List.map_id _

theorem selectReplicaNodes_eq_foremost
    (h : selectReplicaNodes env chunkId nodeIds replicationFactor = .ok selected) :
    selected = Ranking.foremost (ranksBefore env chunkId) replicationFactor nodeIds := by
  rw [selectReplicaNodes_eq_ok h, List.map_take, map_rankNodes]
  rfl

theorem nodup_selectReplicaNodes
    (h : selectReplicaNodes env chunkId nodeIds replicationFactor = .ok selected) :
    selected.Nodup := by
  have hsorted : nodeIds.IsChain (· < ·) := by
    simp only [selectReplicaNodes, bind_eq_ok, exists_unit] at h
    exact isChain_of_validatePlacementOrder h.2.2.1
  rw [selectReplicaNodes_eq_foremost h]
  exact Ranking.nodup_foremost
    ((List.isChain_iff_pairwise.mp hsorted).imp fun hlt => String.ne_of_lt hlt)

theorem selectReplicaNodes_of_isPlacement (h : IsPlacement nodeIds)
    (hfactor : Admissible nodeIds replicationFactor) :
    selectReplicaNodes env chunkId nodeIds replicationFactor =
      .ok (Ranking.foremost (ranksBefore env chunkId) replicationFactor nodeIds) := by
  have haccepts : ∃ selected,
      selectReplicaNodes env chunkId nodeIds replicationFactor = .ok selected :=
    (exists_selectReplicaNodes_iff h.valid ⟨hfactor.1, hfactor.2.1⟩
      ⟨hfactor.2.2, h.size.2⟩).mpr h.sorted
  obtain ⟨selected, hselected⟩ := haccepts
  rw [hselected, selectReplicaNodes_eq_foremost hselected]

theorem IsPlacement.nodup (h : IsPlacement nodeIds) : nodeIds.Nodup :=
  (List.isChain_iff_pairwise.mp h.sorted).imp fun hlt => String.ne_of_lt hlt

theorem IsPlacement.erase (h : IsPlacement nodeIds) (hfactor : Admissible nodeIds replicationFactor)
    (hmem : nodeId ∈ nodeIds) (henough : replicationFactor < nodeIds.length) :
    IsPlacement (nodeIds.erase nodeId) ∧ Admissible (nodeIds.erase nodeId) replicationFactor := by
  have hlength := List.length_erase_of_mem hmem
  obtain ⟨hpos, hmost, -⟩ := hfactor
  have hbound := h.size.2
  refine ⟨⟨?_, ?_, by omega⟩, hpos, hmost, by omega⟩
  · exact List.isChain_iff_pairwise.mpr
      ((List.isChain_iff_pairwise.mp h.sorted).sublist List.erase_sublist)
  · exact fun other hother => h.valid other (List.mem_of_mem_erase hother)

theorem lt_length_of_notMem (hmem : nodeId ∈ nodeIds)
    (hfactor : Admissible nodeIds replicationFactor)
    (hnot : nodeId ∉ Ranking.foremost (ranksBefore env chunkId) replicationFactor nodeIds) :
    replicationFactor < nodeIds.length := by
  refine Nat.lt_of_le_of_ne hfactor.2.2 fun hall => hnot ?_
  rw [hall, Ranking.foremost,
    List.take_of_length_le (Nat.le_of_eq (List.length_insertionSort _ _))]
  exact (List.mem_insertionSort _).mpr hmem

theorem Admissible.perm_cons (h : Admissible nodeIds replicationFactor)
    (hperm : larger.Perm (nodeId :: nodeIds)) :
    Admissible larger replicationFactor ∧ replicationFactor < larger.length := by
  obtain ⟨hpos, hmost, hcount⟩ := h
  have hlength := hperm.length_eq
  rw [List.length_cons] at hlength
  exact ⟨⟨hpos, hmost, by omega⟩, by omega⟩

/-- The nodes selected for a chunk, and what becomes of them where the factor or the node
set changes by one. -/
structure MinimallyDisruptive (env : Environment) (chunkId : ContentId) (nodeIds : List String)
    (replicationFactor : Nat) (selected : List String) : Prop where
  length : selected.length = replicationFactor
  nodup : selected.Nodup
  mem : ∀ nodeId ∈ selected, nodeId ∈ nodeIds
  factor : Admissible nodeIds (replicationFactor + 1) → ∃ longer,
    selectReplicaNodes env chunkId nodeIds (replicationFactor + 1) = .ok longer ∧
      selected <+: longer
  unselected : ∀ removed ∈ nodeIds, removed ∉ selected →
    selectReplicaNodes env chunkId (nodeIds.erase removed) replicationFactor = .ok selected
  removed : ∀ removed ∈ selected, replicationFactor < nodeIds.length → ∃ last ∈ nodeIds,
    last ∉ selected ∧ selectReplicaNodes env chunkId (nodeIds.erase removed) replicationFactor =
      .ok (selected.erase removed ++ [last])
  added : ∀ added larger, IsPlacement larger → larger.Perm (added :: nodeIds) → ∃ selected',
    selectReplicaNodes env chunkId larger replicationFactor = .ok selected' ∧
      (selected' = selected ∨
        added ∈ selected' ∧ ∃ last, selected = selected'.erase added ++ [last])

theorem selectReplicaNodes_minimallyDisruptive (env : Environment) (chunkId : ContentId)
    (h : IsPlacement nodeIds) (hfactor : Admissible nodeIds replicationFactor) :
    ∃ selected, selectReplicaNodes env chunkId nodeIds replicationFactor = .ok selected ∧
      MinimallyDisruptive env chunkId nodeIds replicationFactor selected := by
  have hle := linearComparison_ranksBefore env chunkId
  refine ⟨_, selectReplicaNodes_of_isPlacement h hfactor, Ranking.length_foremost hfactor.2.2,
    Ranking.nodup_foremost h.nodup, fun _ => Ranking.mem_of_mem_foremost, ?_, ?_, ?_, ?_⟩
  · intro hlonger
    exact ⟨_, selectReplicaNodes_of_isPlacement h hlonger, Ranking.foremost_prefix _⟩
  · intro removed hmem hnot
    obtain ⟨hrest, hadmissible⟩ := h.erase hfactor hmem (lt_length_of_notMem hmem hfactor hnot)
    rw [selectReplicaNodes_of_isPlacement hrest hadmissible,
      Ranking.foremost_erase_of_notMem hle hnot]
  · intro removed hremoved henough
    obtain ⟨hrest, hadmissible⟩ :=
      h.erase hfactor (Ranking.mem_of_mem_foremost hremoved) henough
    obtain ⟨last, hlast, hnew, hnext⟩ :=
      Ranking.exists_next (ranksBefore env chunkId) h.nodup henough
    refine ⟨last, hlast, hnew, ?_⟩
    rw [selectReplicaNodes_of_isPlacement hrest hadmissible,
      Ranking.foremost_erase_of_mem hle hremoved, hnext]
  · -- the smaller set is the larger one without the node that joined
    intro added larger hlarger hperm
    obtain ⟨hadmissible, henough⟩ := hfactor.perm_cons hperm
    have hwithout : nodeIds.Perm (larger.erase added) := by
      have herased := (hperm.erase added).symm
      rwa [List.erase_cons_head] at herased
    refine ⟨_, selectReplicaNodes_of_isPlacement hlarger hadmissible, ?_⟩
    rw [Ranking.foremost_perm hle hwithout]
    by_cases hadded : added ∈ Ranking.foremost (ranksBefore env chunkId) replicationFactor larger
    · obtain ⟨last, -, -, hnext⟩ :=
        Ranking.exists_next (ranksBefore env chunkId) hlarger.nodup henough
      refine .inr ⟨hadded, last, ?_⟩
      rw [Ranking.foremost_erase_of_mem hle hadded, hnext]
    · exact .inl (Ranking.foremost_erase_of_notMem hle hadded).symm

end

theorem selectReplicaNodes_minimallyDisruptive_sample :
    ∃ selected, selectReplicaNodes Sample.env Sample.chunkId ["n1", "n2", "n3"] 2 = .ok selected ∧
      MinimallyDisruptive Sample.env Sample.chunkId ["n1", "n2", "n3"] 2 selected :=
  selectReplicaNodes_minimallyDisruptive Sample.env Sample.chunkId
    ⟨by decide, by decide, by decide⟩ ⟨by decide, by decide, by decide⟩

end AiArtifactStore.Metadata
