import AiArtifactStore.Foundation.Transition
import AiArtifactStore.Metadata.GcRuns
import AiArtifactStore.Metadata.LifecycleRuns
import AiArtifactStore.Metadata.ReplicationRuns
import AiArtifactStore.Metadata.Upload

/-!
# The metadata service

Every operation as one atomic transaction: a throwing operation rolls back.
`Reachable` is reachability from the migrated database by any operations with
any arguments.
-/

namespace AiArtifactStore.Metadata

open AiArtifactStore.Foundation
open AiArtifactStore.Identity
open Relation

inductive ServiceOp where
  | createArtifact (artifact : Artifact)
  | registerStorageNode (node : StorageNode)
  | registerStorageLocation (location : StorageLocation)
  | negotiateChunks (chunks : List ChunkMetadata)
  | createUploadSession (requested : SessionRow)
  | abortUploadSession (sessionId : UuidV7)
  | finalizeUpload (now : Int) (sessionId : UuidV7) (descriptor : ObjectLayoutDescriptor)
  | setTag (artifactId : UuidV7) (tagName : String) (versionId : ContentId)
  | registerManifest (manifest : Manifest)
  | pinVersion (versionId : ContentId) (reason : String)
  | unpinVersion (versionId : ContentId)
  | resolveRestorePlan (versionId : ContentId) (sourceNodeId : String)
  | resolveMultiNodeRestorePlan (versionId : ContentId)
  | startGcRun (requested : GcRun)
  | classifyGcChunks (runId : UuidV7) (chunkIds : List ContentId)
  | completeGcRun (runId : UuidV7) (physicalStats : GcPhysicalStats)
  | startReplicationRun (runId : UuidV7) (versionId : ContentId) (replicationFactor : Nat)
  | getReplicationPlan (runId : UuidV7)
  | completeReplicationRun (runId : UuidV7) (stats : ReplicationStats)
  | registerLifecyclePolicy (policy : LifecyclePolicy)
  | runLifecycle (runId policyId : UuidV7) (mode : LifecycleRunMode) (evaluatedAtMs : Int)

inductive Reply where
  | done
  | negotiated (batch : ChunkNegotiationBatch)
  | finalized (result : FinalizeUploadResult)
  | unpinned (removed : Bool)
  | restorePlan (plan : RestorePlan)
  | multiNodeRestorePlan (plan : MultiNodeRestorePlan)
  | gcRun (run : GcRun)
  | decisions (decisions : List GcChunkDecision)
  | replicationRun (run : ReplicationRun)
  | replicationPlan (plan : ReplicationPlan)
  | lifecycleRun (run : LifecycleRun)
  deriving DecidableEq

def done (result : Except Exc Db) : Except Exc (Reply × Db) :=
  result.map fun db => (.done, db)

def replyWith {α : Type} (reply : α → Reply) (result : Except Exc (α × Db)) :
    Except Exc (Reply × Db) :=
  result.map fun r => (reply r.1, r.2)

def readOnly {α : Type} (db : Db) (reply : α → Reply) (result : Except Exc α) :
    Except Exc (Reply × Db) :=
  result.map fun a => (reply a, db)

/-- The transaction of an operation: a reply and the committed database, or the
exception that rolls it back. -/
def transact (env : Environment) (db : Db) : ServiceOp → Except Exc (Reply × Db)
  | .createArtifact artifact => done (Metadata.createArtifact db artifact)
  | .registerStorageNode node => done (Metadata.registerStorageNode env db node)
  | .registerStorageLocation location => done (Metadata.registerStorageLocation db location)
  | .negotiateChunks chunks => replyWith .negotiated (Metadata.negotiateChunks env db chunks)
  | .createUploadSession requested => done (Metadata.createUploadSession db requested)
  | .abortUploadSession sessionId => done (Metadata.abortUploadSession db sessionId)
  | .finalizeUpload now sessionId d =>
      replyWith .finalized (Metadata.finalizeUpload env now db sessionId d)
  | .setTag artifactId tagName versionId => done (Metadata.setTag db artifactId tagName versionId)
  | .registerManifest manifest => done (Metadata.registerManifest env db manifest)
  | .pinVersion versionId reason => done (Metadata.pinVersion env db versionId reason)
  | .unpinVersion versionId => .ok (.unpinned (Metadata.unpinVersion db versionId).1,
      (Metadata.unpinVersion db versionId).2)
  | .resolveRestorePlan versionId sourceNodeId =>
      readOnly db .restorePlan (Metadata.resolveRestorePlan env db versionId sourceNodeId)
  | .resolveMultiNodeRestorePlan versionId =>
      readOnly db .multiNodeRestorePlan (Metadata.resolveMultiNodeRestorePlan env db versionId)
  | .startGcRun requested => replyWith .gcRun (Metadata.startGcRun db requested)
  | .classifyGcChunks runId chunkIds =>
      readOnly db .decisions (Metadata.classifyGcChunks db runId chunkIds)
  | .completeGcRun runId stats => replyWith .gcRun (Metadata.completeGcRun db runId stats)
  | .startReplicationRun runId versionId replicationFactor =>
      replyWith .replicationRun
        (Metadata.startReplicationRun env db runId versionId replicationFactor)
  | .getReplicationPlan runId =>
      readOnly db .replicationPlan (Metadata.getReplicationPlan env db runId)
  | .completeReplicationRun runId stats =>
      replyWith .replicationRun (Metadata.completeReplicationRun env db runId stats)
  | .registerLifecyclePolicy policy => done (Metadata.registerLifecyclePolicy db policy)
  | .runLifecycle runId policyId mode evaluatedAtMs =>
      replyWith .lifecycleRun (Metadata.runLifecycle db runId policyId mode evaluatedAtMs)

def commit (db : Db) (result : Except Exc (Reply × Db)) : Except Exc Reply × Db :=
  match result with
  | .ok (reply, next) => (.ok reply, next)
  | .error e => (.error e, db)

def serve (env : Environment) (db : Db) (op : ServiceOp) : Except Exc Reply × Db :=
  commit db (transact env db op)

def ServiceStep (env : Environment) (allowed : ServiceOp → Prop) (db db' : Db) : Prop :=
  ∃ op, allowed op ∧ db' = (serve env db op).2

def Evolves (env : Environment) (allowed : ServiceOp → Prop) : Db → Db → Prop :=
  ReflTransGen (ServiceStep env allowed)

def Reachable (env : Environment) (db : Db) : Prop := Evolves env (fun _ => True) Db.initial db

/-! ## Rules -/

variable {env : Environment} {db db' : Db} {op : ServiceOp} {allowed : ServiceOp → Prop}

theorem done_eq_ok {result : Except Exc Db} {r : Reply × Db} :
    done result = .ok r ↔ result = .ok r.2 ∧ r.1 = .done := by
  cases result with
  | error e => simp [done, Except.map]
  | ok db =>
      obtain ⟨reply, db'⟩ := r
      simp [done, Except.map, eq_comm, and_comm]

theorem replyWith_eq_ok {α : Type} {reply : α → Reply} {result : Except Exc (α × Db)}
    {r : Reply × Db} :
    replyWith reply result = .ok r ↔ ∃ a, result = .ok (a, r.2) ∧ r.1 = reply a := by
  cases result with
  | error e => simp [replyWith, Except.map]
  | ok p =>
      obtain ⟨a, next⟩ := p
      obtain ⟨x, db'⟩ := r
      simp [replyWith, Except.map, eq_comm, and_comm]

theorem readOnly_eq_ok {α : Type} {reply : α → Reply} {result : Except Exc α} {r : Reply × Db} :
    readOnly db reply result = .ok r ↔ r.2 = db ∧ ∃ a, result = .ok a ∧ r.1 = reply a := by
  cases result with
  | error e => simp [readOnly, Except.map]
  | ok a =>
      obtain ⟨x, db'⟩ := r
      simp [readOnly, Except.map, eq_comm, and_comm]

theorem serve_cases (env : Environment) (db : Db) (op : ServiceOp) :
    (∃ e, transact env db op = .error e ∧ serve env db op = (.error e, db)) ∨
      ∃ reply next, transact env db op = .ok (reply, next) ∧
        serve env db op = (.ok reply, next) := by
  cases h : transact env db op with
  | error e => exact .inl ⟨e, rfl, by simp [serve, commit, h]⟩
  | ok r => exact .inr ⟨r.1, r.2, rfl, by simp [serve, commit, h]⟩

theorem serve_classifyGcChunks_db {runId : UuidV7} {chunkIds : List ContentId} :
    (serve env db (.classifyGcChunks runId chunkIds)).2 = db := by
  rcases serve_cases env db (.classifyGcChunks runId chunkIds) with
    ⟨e, -, hs⟩ | ⟨reply, next, ht, hs⟩
  · rw [hs]
  · rw [hs]
    exact (readOnly_eq_ok.mp ht).1

theorem serviceStep_of_transact {P : Db → Db → Prop} (hrefl : ∀ db, P db db)
    (htransact : ∀ db db' op reply, allowed op → transact env db op = .ok (reply, db') → P db db')
    (h : ServiceStep env allowed db db') : P db db' := by
  obtain ⟨op, hop, rfl⟩ := h
  rcases serve_cases env db op with ⟨e, -, hs⟩ | ⟨reply, next, ht, hs⟩
  · rw [hs]
    exact hrefl db
  · rw [hs]
    exact htransact db next op reply hop ht

theorem Evolves.invariant {P : Db → Prop} (h : Evolves env allowed db db')
    (htransact : ∀ db db' op reply, allowed op → transact env db op = .ok (reply, db') →
      P db → P db') (hdb : P db) : P db' :=
  invariant_of_step (P := P) (fun _ _ hstep => serviceStep_of_transact
    (P := fun before after => P before → P after) (fun _ hp => hp) htransact hstep) h hdb

theorem Evolves.mono {allowed' : ServiceOp → Prop} (himp : ∀ op, allowed op → allowed' op)
    (h : Evolves env allowed db db') : Evolves env allowed' db db' := by
  refine ReflTransGen.mono ?_ _ _ h
  rintro _ _ ⟨op, hop, hdb⟩
  exact ⟨op, himp op hop, hdb⟩

theorem Evolves.tail_serve (h : Evolves env allowed db db') (hop : allowed op) :
    Evolves env allowed db (serve env db' op).2 :=
  ReflTransGen.tail h ⟨op, hop, rfl⟩

theorem Reachable.evolves (h : Reachable env db) (he : Evolves env allowed db db') :
    Reachable env db' :=
  ReflTransGen.trans h (he.mono fun _ _ => trivial)

theorem Reachable.serve (h : Reachable env db) : Reachable env (serve env db op).2 :=
  Evolves.tail_serve h trivial

end AiArtifactStore.Metadata
