import AiArtifactStore.Client.PushClients
import AiArtifactStore.Metadata.Histories
import AiArtifactStore.Metadata.RunSnapshots

/-!
# The order of node ids across layers

The database returns node ids in its collation; `select_replica_nodes` and the
client require byte order.
-/

namespace AiArtifactStore.Replication

open AiArtifactStore.Foundation
open AiArtifactStore.Identity
open AiArtifactStore.Metadata
open AiArtifactStore.Client

section

variable {env : Environment} {db db' : Db}

/-- The client accepts the available nodes of every entry. -/
def Decodable (batch : ChunkNegotiationBatch) : Prop :=
  ∀ entry ∈ batch.chunks, MetadataClient.checkAvailableNodeIds none entry.availableNodeIds = .ok ()

/-- On these node ids the collation is byte order. -/
def CollatesAsBytes (env : Environment) (nodeIds : Set String) : Prop :=
  AgreesOn (fun a b => env.textLe a b = true) (fun a b => a < b) nodeIds

def holders (db : Db) (chunkId : ContentId) : Set String :=
  { nodeId | ∃ location ∈ db.storageLocations, location.chunkId = chunkId ∧
      location.nodeId = nodeId ∧ location.state = .available }

theorem checkAvailableNodeIds_ok {previous : Option String} {nodeIds : List String} :
    MetadataClient.checkAvailableNodeIds previous nodeIds = .ok () ↔
      (∀ nodeId ∈ nodeIds, nodeIdInvalid nodeId = false) ∧
        (previous.toList ++ nodeIds).IsChain (· < ·) := by
  induction nodeIds generalizing previous with
  | nil => cases previous <;> simp [MetadataClient.checkAvailableNodeIds]
  | cons nodeId rest ih =>
      simp only [MetadataClient.checkAvailableNodeIds, bind_eq_ok, exists_unit, failIf_eq_ok, ih]
      cases previous with
      | none =>
          simp
          tauto
      | some p =>
          simp [List.isChain_cons_cons]
          tauto

theorem isChain_of_sorted_iff (hlinear : LinearText env) {nodeIds sorted : List String}
    (hnodup : nodeIds.Nodup)
    (hsorted : sorted = nodeIds.insertionSort fun a b => env.textLe a b = true) :
    sorted.IsChain (· < ·) ↔ CollatesAsBytes env { nodeId | nodeId ∈ sorted } := by
  have hsame : { nodeId | nodeId ∈ sorted } = { nodeId | nodeId ∈ nodeIds } := by
    ext nodeId
    simp only [Set.mem_ofPred_eq, hsorted, List.mem_insertionSort]
  rw [hsame, hsorted]
  exact isChain_insertionSort_iff hlinear strictComparison_string hnodup

theorem availableNodeIds_of_negotiateChunks {chunks : List ChunkMetadata}
    {batch : ChunkNegotiationBatch} (h : negotiateChunks env db chunks = .ok (batch, db')) :
    ∀ entry ∈ batch.chunks,
      entry.availableNodeIds = availableNodeIds env db entry.chunk.chunkId := by
  simp only [negotiateChunks, bind_eq_ok] at h
  obtain ⟨distinct, -, conflict, -, h⟩ := h
  cases conflict with
  | some conflict =>
      obtain ⟨rfl, -⟩ := Prod.ext_iff.mp (Except.ok.inj h)
      simp
  | none =>
      simp only at h
      split at h
      · obtain ⟨rfl, -⟩ := Prod.ext_iff.mp (Except.ok.inj h)
        simp
      · obtain ⟨rfl, -⟩ := Prod.ext_iff.mp (Except.ok.inj h)
        intro entry hentry
        obtain ⟨chunk, -, rfl⟩ := List.mem_map.mp hentry
        rfl

theorem decodable_entry_iff (hlinear : LinearText env) (hvalid : NodeIdsValid env db)
    (chunkId : ContentId) :
    MetadataClient.checkAvailableNodeIds none (availableNodeIds env db chunkId) = .ok () ↔
      CollatesAsBytes env (holders db chunkId) := by
  obtain ⟨nodeIds, hnodup, hsorted⟩ := availableNodeIds_sorted env db chunkId
  have hholders : { nodeId | nodeId ∈ availableNodeIds env db chunkId } = holders db chunkId := by
    ext nodeId
    exact mem_availableNodeIds
  have hids : ∀ nodeId ∈ availableNodeIds env db chunkId, nodeIdInvalid nodeId = false := by
    intro nodeId hmem
    obtain ⟨location, hlocation, -, rfl, -⟩ := mem_availableNodeIds.mp hmem
    exact hvalid.locations location hlocation
  rw [checkAvailableNodeIds_ok, and_iff_right hids, ← hholders,
    ← isChain_of_sorted_iff hlinear hnodup hsorted]
  rfl

end

/-! ## A collation that folds case -/

namespace Sample

open Metadata.Sample

def foldCase (nodeId : String) : List Char := nodeId.toList.map Char.toLower

/-- SHA-256 on the placement inputs of the two nodes, and as in the sample history. -/
def foldedSha256 (bytes : List UInt8) : BitVec 256 :=
  if bytes = placementPrefix ++ [0] ++ chunkId.hexBytes ++ [0] ++ "B1".toUTF8.toList then
    0x213e43d98b221c382368bec83557a573bdb979feb2a782b4c89a5745efb22817#256
  else if bytes = placementPrefix ++ [0] ++ chunkId.hexBytes ++ [0] ++ "a1".toUTF8.toList then
    0x657d63ef784cbee174e87b16c004bf1d1feae33d821ab7335b6766593b40b7f6#256
  else sha256 bytes

/-- Letters first without regard to case, then in byte order. -/
def foldedEnv : Environment :=
  { env with
    sha256 := foldedSha256
    textLe := fun a b =>
      foldCase a < foldCase b || (foldCase a = foldCase b && ¬b < a) }

theorem strictComparison_chars : StrictComparison fun a b : List Char => a < b :=
  ⟨List.lt_irrefl, fun _ _ _ => List.lt_trans, fun _ _ hab hba =>
    List.le_antisymm (List.not_lt.mp hba) (List.not_lt.mp hab)⟩

theorem linearText_foldedEnv : LinearText foldedEnv := by
  have h := LinearComparison.of_key strictComparison_chars strictComparison_string foldCase
  simpa only [LinearText, foldedEnv, Bool.or_eq_true, Bool.and_eq_true, decide_eq_true_eq] using h

def mixedNode (nodeId : String) : StorageNode := ⟨nodeId, "127.0.0.1", 9000, .active⟩

def mixedSession : UploadSession :=
  { session with
    placementNodeIds := ["B1", "a1"]
    valid := by decide +kernel }

def mixedLocation (nodeId : String) : StorageLocation :=
  ⟨chunkId, nodeId, "/v1/chunks/" ++ chunkId.hex, .available⟩

/-- Push the object to a node `B1` and a node `a1`, and start to repair it. -/
def mixedOps : List ServiceOp :=
  [.createArtifact artifact,
   .registerStorageNode (mixedNode "B1"),
   .registerStorageNode (mixedNode "a1"),
   .createUploadSession ⟨mixedSession, .open⟩,
   .negotiateChunks [⟨chunkId, 1⟩],
   .registerStorageLocation (mixedLocation "B1"),
   .registerStorageLocation (mixedLocation "a1"),
   .finalizeUpload 0 mixedSession.sessionId descriptor,
   .startReplicationRun (uuid 3) versionId 2]

def mixedDb : Db := afterOps foldedEnv Db.initial mixedOps

def mixedRun : ReplicationRun :=
  { runId := uuid 3
    versionId := versionId
    layoutId := descriptor.layoutId env
    replicationFactor := 2
    placementNodeIds := ["a1", "B1"]
    state := .open
    stats := .zero }

theorem evolves_mixedDb : Evolves foldedEnv ServiceOp.Routed Db.initial mixedDb := by
  refine evolves_afterOps _ _ _ ?_
  simp [mixedOps, ServiceOp.Routed, mixedLocation]
  decide +kernel

end Sample

end AiArtifactStore.Replication
