import AiArtifactStore.Metadata.Registration

/-!
# Restore planning

The single-node and multi-node restore plans of a committed version.
-/

namespace AiArtifactStore.Metadata

open AiArtifactStore.Foundation
open AiArtifactStore.Identity

structure RestorePlan where
  artifactId : UuidV7
  versionId : ContentId
  sourceNodeId : String
  layoutDescriptor : ObjectLayoutDescriptor
  deriving DecidableEq

structure NodeEndpoint where
  nodeId : String
  address : String
  port : Nat
  deriving DecidableEq, Repr

structure RestoreChunkSources where
  chunkId : ContentId
  offset : Nat
  sizeBytes : Nat
  sources : List NodeEndpoint
  deriving DecidableEq, Repr

structure MultiNodeRestorePlan where
  artifactId : UuidV7
  versionId : ContentId
  objectId : ContentId
  layoutId : ContentId
  layoutDescriptor : ObjectLayoutDescriptor
  chunks : List RestoreChunkSources
  deriving DecidableEq

def leastLayout (db : Db) (objectId : ContentId) (usable : ObjectLayoutRow → Bool) :
    Option ObjectLayoutRow :=
  ((db.objectLayouts.rows.filter fun layout =>
    layout.objectId = objectId && usable layout).insertionSort
      fun a b => a.layoutId ≤ b.layoutId).head?

def isAvailableOn (db : Db) (nodeId : String) (chunkId : ContentId) : Bool :=
  db.storageLocations.rows.any fun location =>
    location.chunkId = chunkId && location.nodeId = nodeId && location.state = .available

def isServing (state : StorageNodeState) : Bool := state = .active || state = .draining

/-- The serving nodes with an available location of the chunk, ordered by node id. -/
def chunkSources (env : Environment) (db : Db) (chunkId : ContentId) : List NodeEndpoint :=
  env.orderByText NodeEndpoint.nodeId
    ((db.storageLocations.rows.filter fun location =>
      location.chunkId = chunkId && location.state = .available).filterMap fun location =>
        (db.storageNodes.find? location.nodeId).bind fun node =>
          if isServing node.state then some ⟨node.nodeId, node.address, node.port⟩ else none)

/-- `kMultiNodeRestorableChunkPredicate` -/
def isRestorableChunk (db : Db) (chunkId : ContentId) : Bool :=
  db.storageLocations.rows.any fun location =>
    location.chunkId = chunkId && location.state = .available &&
      (db.storageNodes.find? location.nodeId).any fun node => isServing node.state

def isRestorableLayout (db : Db) (layout : ObjectLayoutRow) : Bool :=
  layout.chunkRows.all fun row => isRestorableChunk db row.chunkId

def loadRestorableVersion (env : Environment) (db : Db) (versionId : ContentId) :
    Except Exc ArtifactVersion := do
  let version ← orFail (← loadVersion env db versionId)
    (.restorePlanError .versionNotFound ("artifact version does not exist: " ++ versionId.hex))
  failIf (version.state ≠ .committed)
    (.restorePlanError .versionNotCommitted
      ("artifact version is not committed: " ++ versionId.hex))
  failIf (db.isVersionRetired versionId)
    (.restorePlanError .versionRetired ("artifact version has been retired: " ++ versionId.hex))
  .ok version

def resolveRestorePlan (env : Environment) (db : Db) (versionId : ContentId)
    (sourceNodeId : String) : Except Exc RestorePlan := do
  failIf (nodeIdInvalid sourceNodeId) (.invalidArgument "source node ID is invalid")
  let version ← loadRestorableVersion env db versionId
  let selected ← orFail
    (leastLayout db version.rootObjectId fun layout =>
      layout.chunkRows.all fun row => isAvailableOn db sourceNodeId row.chunkId)
    (.restorePlanError .sourceUnavailable "no fully available layout for requested source node")
  let descriptor ← orFail (← loadObjectLayout env db selected.layoutId)
    (.runtimeError "selected restore layout could not be loaded")
  failIf (descriptor.objectId ≠ version.rootObjectId)
    (.runtimeError "selected restore layout object does not match version root object")
  .ok ⟨version.artifactId, version.versionId env, sourceNodeId, descriptor⟩

def resolveMultiNodeRestorePlan (env : Environment) (db : Db) (versionId : ContentId) :
    Except Exc MultiNodeRestorePlan := do
  let version ← loadRestorableVersion env db versionId
  let selected ← orFail (leastLayout db version.rootObjectId (isRestorableLayout db))
    (.restorePlanError .sourceUnavailable
      "no fully restorable layout for registered active or draining nodes")
  let descriptor ← orFail (← loadObjectLayout env db selected.layoutId)
    (.runtimeError "selected multi-node restore layout could not be loaded")
  failIf (descriptor.objectId ≠ version.rootObjectId)
    (.runtimeError "selected multi-node restore layout object does not match version root object")
  let chunks := descriptor.layout.chunks.map fun chunk =>
    ⟨chunk.chunkId, chunk.offset, chunk.size, chunkSources env db chunk.chunkId⟩
  .ok ⟨version.artifactId, version.versionId env, descriptor.objectId, descriptor.layoutId env,
    descriptor, chunks⟩

end AiArtifactStore.Metadata
