import AiArtifactStore.Metadata.UploadSession

/-!
# Maintenance runs, storage nodes and locations
-/

namespace AiArtifactStore.Metadata

open AiArtifactStore.Identity

inductive RunState where
  | «open»
  | completed
  deriving DecidableEq, Repr

/-! ## Garbage collection -/

inductive GcRunMode where
  | apply
  | dryRun
  deriving DecidableEq, Repr

structure GcPhysicalStats where
  physicalChunksScanned : Nat
  physicalBytesScanned : Nat
  collectibleChunks : Nat
  collectibleBytes : Nat
  physicallyDeletedChunks : Nat
  physicallyDeletedBytes : Nat
  deriving DecidableEq, Repr

def GcPhysicalStats.zero : GcPhysicalStats := ⟨0, 0, 0, 0, 0, 0⟩

structure GcMetadataStats where
  storageLocationsSwept : Nat
  chunkRowsSwept : Nat
  objectLayoutsSwept : Nat
  objectsSwept : Nat
  deriving DecidableEq, Repr

def GcMetadataStats.zero : GcMetadataStats := ⟨0, 0, 0, 0⟩

structure GcRun where
  runId : UuidV7
  targetNodeId : String
  mode : GcRunMode
  state : RunState
  physicalStats : GcPhysicalStats
  metadataStats : GcMetadataStats
  deriving DecidableEq, Repr

structure GcChunkDecision where
  chunkId : ContentId
  collectible : Bool
  deriving DecidableEq, Repr

/-! ## Replication -/

structure ReplicationStats where
  chunksScanned : Nat
  chunksUnderReplicated : Nat
  replicasVerified : Nat
  replicasWritten : Nat
  bytesCopied : Nat
  sourceFailovers : Nat
  deriving DecidableEq, Repr

def ReplicationStats.zero : ReplicationStats := ⟨0, 0, 0, 0, 0, 0⟩

structure ReplicationRun where
  runId : UuidV7
  versionId : ContentId
  layoutId : ContentId
  replicationFactor : Nat
  placementNodeIds : List String
  state : RunState
  stats : ReplicationStats
  deriving DecidableEq, Repr

/-! ## Storage nodes and locations -/

inductive StorageNodeState where
  | active
  | draining
  | disabled
  deriving DecidableEq, Repr

structure StorageNode where
  nodeId : String
  address : String
  port : Nat
  state : StorageNodeState
  deriving DecidableEq, Repr

inductive StorageLocationState where
  | available
  | missing
  | corrupt
  deriving DecidableEq, Repr

structure StorageLocation where
  chunkId : ContentId
  nodeId : String
  storagePath : String
  state : StorageLocationState
  deriving DecidableEq, Repr

structure ChunkMetadata where
  chunkId : ContentId
  sizeBytes : Nat
  deriving DecidableEq, Repr

end AiArtifactStore.Metadata
