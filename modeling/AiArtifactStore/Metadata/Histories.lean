import AiArtifactStore.Metadata.Effects

/-!
# Histories of operations

The reachable databases as the results of finite sequences of operations, and a
sample history over one artifact whose single object is the byte `a`.
-/

namespace AiArtifactStore.Metadata

open AiArtifactStore.Foundation
open AiArtifactStore.Identity
open Relation

section

variable {env : Environment} {db db' : Db} {allowed : ServiceOp → Prop}

/-- Serve a sequence of operations, in order. -/
def afterOps (env : Environment) (db : Db) (ops : List ServiceOp) : Db :=
  ops.foldl (fun db op => (serve env db op).2) db

theorem afterOps_append (xs ys : List ServiceOp) :
    afterOps env db (xs ++ ys) = afterOps env (afterOps env db xs) ys :=
  List.foldl_append

theorem evolves_afterOps (env : Environment) (db : Db) (ops : List ServiceOp)
    (h : ∀ op ∈ ops, allowed op) : Evolves env allowed db (afterOps env db ops) := by
  induction ops generalizing db with
  | nil => exact .refl
  | cons op ops ih =>
      have hfirst : Evolves env allowed db (serve env db op).2 :=
        Evolves.tail_serve .refl (h op (by simp))
      exact hfirst.trans (ih _ fun o ho => h o (by simp [ho]))

theorem evolves_iff :
    Evolves env allowed db db' ↔
      ∃ ops : List ServiceOp, (∀ op ∈ ops, allowed op) ∧ db' = afterOps env db ops := by
  constructor
  · intro h
    induction h with
    | refl => exact ⟨[], by simp, rfl⟩
    | tail _ hstep ih =>
        obtain ⟨ops, hops, rfl⟩ := ih
        obtain ⟨op, hop, rfl⟩ := hstep
        refine ⟨ops ++ [op], ?_, (afterOps_append ops [op]).symm⟩
        intro o ho
        rcases List.mem_append.mp ho with ho | ho
        · exact hops o ho
        · rwa [List.mem_singleton.mp ho]
  · rintro ⟨ops, hops, rfl⟩
    exact evolves_afterOps env db ops hops

theorem reachable_afterOps (env : Environment) (ops : List ServiceOp) :
    Reachable env (afterOps env Db.initial ops) :=
  evolves_afterOps env Db.initial ops fun _ _ => trivial

end

/-! ## A sample history -/

namespace Sample

/-- The literals of every sample are built on this instance. -/
instance neZero256 : NeZero 256 := ⟨by decide⟩

def uuid (n : Fin 256) : UuidV7 :=
  { bits := 0x0190a000_0000_7000_8000_000000000000#128 + BitVec.ofNat 128 n
    version := by revert n; decide +kernel
    variant := by revert n; decide +kernel }

def artifact : Artifact :=
  ⟨uuid 1, "model", "research", by decide, by decide⟩

def node : StorageNode := ⟨"n1", "127.0.0.1", 9000, .active⟩

def metadata : ImmutableMetadata := ⟨.empty, by simp [OrderedMap.empty]⟩

def session : UploadSession :=
  { sessionId := uuid 2
    artifactId := uuid 1
    replicationFactor := 1
    placementNodeIds := ["n1"]
    chunking := .fixedSize 4
    parentVersionId := none
    immutableMetadata := metadata
    valid := by decide +kernel }

def contentDigest : BitVec 256 :=
  0xca978112ca1bbdcafac231b39a23dc4da786eff8147c4e72b9807785afee48bb#256

def chunkId : ContentId := ⟨contentDigest⟩

def orphanDigest : BitVec 256 :=
  0x3e23e8160039594a33894f6564e1b1348bbd7a0088d42c4acb73eeaed59c009d#256

def orphanId : ContentId := ⟨orphanDigest⟩

def descriptor : ObjectLayoutDescriptor :=
  { object := ⟨⟨contentDigest⟩, 1⟩
    chunking := .fixedSize
    layout := ⟨[⟨chunkId, 0, 1⟩], by decide⟩
    chunkingValid := rfl
    sizeMatches := rfl }

def version : ArtifactVersion := sessionVersion session descriptor.objectId

def versionDigest : BitVec 256 :=
  0x881f870cd63174b33b207014e6dc249693df11d48bf8835756eae59580a815be#256

def childSession : UploadSession :=
  { session with
    sessionId := uuid 7
    parentVersionId := some ⟨versionDigest⟩
    valid := by decide +kernel }

def childVersion : ArtifactVersion := sessionVersion childSession descriptor.objectId

def sha256 (bytes : List UInt8) : BitVec 256 :=
  if bytes = asciiBytes ['a'] then contentDigest
  else if bytes = asciiBytes ['b'] then orphanDigest
  else if bytes = descriptor.canonicalBytes then
    0x3dadbe62acd5cbda4b78303850c797c2d9346ac0a2493ab56b6f996d138c0d12#256
  else if bytes = version.canonicalBytes then versionDigest
  else if bytes = childVersion.canonicalBytes then
    0xc5ab43ebad2aabe978261a4e35c9344c6d0cfeba8d5de98a571b3748997044bd#256
  else if bytes = placementPrefix ++ [0] ++ chunkId.hexBytes ++ [0] ++ "n1".toUTF8.toList then
    0xae2601fafd8f9834ed71dea4e2e00d09c162e72f7dee9e9779d4a96f96662cef#256
  else 0#256

def env : Environment :=
  { sha256 := sha256
    textLe := fun a b => !decide (b < a)
    isNumericAddress := fun address => address = "127.0.0.1" }

def versionId : ContentId := version.versionId env

def childId : ContentId := childVersion.versionId env

def location : StorageLocation := ⟨chunkId, "n1", "/v1/chunks/" ++ chunkId.hex, .available⟩

def pushOps : List ServiceOp :=
  [.createArtifact artifact,
   .registerStorageNode node,
   .createUploadSession ⟨session, .open⟩,
   .negotiateChunks [⟨chunkId, 1⟩],
   .registerStorageLocation location,
   .finalizeUpload 0 session.sessionId descriptor]

/-- Push the object again a second later, as a child of the version. -/
def childOps : List ServiceOp :=
  [.createUploadSession ⟨childSession, .open⟩,
   .negotiateChunks [⟨chunkId, 1⟩],
   .finalizeUpload 1000000 childSession.sessionId descriptor]

def repairOps : List ServiceOp :=
  [.startReplicationRun (uuid 3) versionId 1,
   .completeReplicationRun (uuid 3) .zero]

def policy : LifecyclePolicy :=
  { policyId := uuid 4
    name := "retire"
    rules := ⟨ArtifactKind.all.map fun kind => (kind, ⟨kind, 0, none⟩), by decide⟩ }

def retireOps : List ServiceOp :=
  [.registerLifecyclePolicy policy,
   .runLifecycle (uuid 5) policy.policyId .apply 1]

def agingPolicy : LifecyclePolicy :=
  { policyId := uuid 8
    name := "age"
    rules := ⟨ArtifactKind.all.map fun kind => (kind, ⟨kind, 0, some 1⟩), by decide⟩ }

def agingDb : Db :=
  afterOps env .initial (pushOps ++ childOps ++ [.registerLifecyclePolicy agingPolicy])

def gcRun : GcRun := ⟨uuid 6, "n1", .apply, .open, .zero, .zero⟩

end Sample

end AiArtifactStore.Metadata
