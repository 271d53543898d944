import AiArtifactStore.Foundation.OrderedMap
import AiArtifactStore.Metadata.ObjectLayout

/-!
# Artifacts, versions and manifests
-/

namespace AiArtifactStore.Metadata

open AiArtifactStore.Foundation
open AiArtifactStore.Identity

structure Artifact where
  artifactId : UuidV7
  name : String
  project : String
  nameNonempty : name ≠ ""
  projectNonempty : project ≠ ""
  deriving DecidableEq

structure ImmutableMetadata where
  map : OrderedMap String String
  keysNonempty : ∀ entry ∈ map.entries, entry.1 ≠ ""
  deriving DecidableEq

/-- `append_string` -/
def stringBytes (value : String) : List UInt8 :=
  bigEndian 8 value.utf8ByteSize ++ value.toUTF8.toList

inductive VersionState where
  | staging
  | committed
  | failed
  deriving DecidableEq, Repr

structure ArtifactVersion where
  artifactId : UuidV7
  rootObjectId : ContentId
  parentVersionId : Option ContentId
  immutableMetadata : ImmutableMetadata
  state : VersionState
  deriving DecidableEq

namespace ArtifactVersion

def formatVersion : Nat := 1

def magic : List UInt8 := asciiBytes "AISTORE_VERSION".toList

def serializeParent : Option ContentId → List UInt8
  | none => [0]
  | some parent => 1 :: parent.bytes

def canonicalBytes (v : ArtifactVersion) : List UInt8 :=
  magic ++ bigEndian 4 formatVersion ++ v.artifactId.bytes ++ v.rootObjectId.bytes ++
    serializeParent v.parentVersionId ++ bigEndian 8 v.immutableMetadata.map.entries.length ++
    v.immutableMetadata.map.entries.flatMap fun entry =>
      stringBytes entry.1 ++ stringBytes entry.2

def versionId (env : Environment) (v : ArtifactVersion) : ContentId :=
  env.contentId v.canonicalBytes

end ArtifactVersion

structure Manifest where
  entries : OrderedMap String ContentId
  rolesNonempty : ∀ entry ∈ entries.entries, entry.1 ≠ ""
  deriving DecidableEq

namespace Manifest

def formatVersion : Nat := 1

def magic : List UInt8 := asciiBytes "AISTORE_MANIFEST".toList

def canonicalBytes (m : Manifest) : List UInt8 :=
  magic ++ bigEndian 4 formatVersion ++ bigEndian 8 m.entries.entries.length ++
    m.entries.entries.flatMap fun entry => stringBytes entry.1 ++ entry.2.bytes

def manifestId (env : Environment) (m : Manifest) : ContentId := env.contentId m.canonicalBytes

end Manifest

end AiArtifactStore.Metadata
