import AiArtifactStore.Gc.Engine
import AiArtifactStore.Metadata.Collectible
import AiArtifactStore.Metadata.RunIdentity

/-!
# Many clients

The metadata service, the storage nodes, and any number of GC engines that act
one request at a time.  All other clients (push, abort, lifecycle, repair, pull)
are the requests they send: any operation of the metadata service, and any
request to a storage node but a `DELETE`.
-/

namespace AiArtifactStore.Gc

open AiArtifactStore.Foundation
open AiArtifactStore.Identity
open AiArtifactStore.Metadata
open AiArtifactStore.Storage
open AiArtifactStore.Client
open Relation

structure GcClient where
  engine : GcEngine
  request : GcRequest
  state : GcState

structure System where
  db : Db
  stores : String → ChunkStore
  clients : List GcClient

inductive SystemOp where
  | metadata (op : ServiceOp)
  | storage (nodeId : String) (request : StorageRequest)
  | collect (engine : GcEngine) (request : GcRequest)
  | gcRequest (index : Nat)
  | gcCrash (index : Nat)

def SystemOp.permitted : SystemOp → Bool
  | .storage _ request => !request.isDelete
  | _ => true

namespace System

def initial (stores : String → ChunkStore) : System := ⟨Db.initial, stores, []⟩

/-- The next request of a GC engine, served at its node and answered. -/
def serveClient (env : Environment) (s : System) (index : Nat) (client : GcClient) : System :=
  let nodeId := client.engine.storageNodeId
  let next := client.engine.step client.request env (⟨s.db, s.stores nodeId⟩, client.state)
  { db := next.1.db
    stores := Function.update s.stores nodeId next.1.store
    clients := s.clients.set index { client with state := next.2 } }

def apply (env : Environment) (s : System) : SystemOp → System
  | .metadata op => { s with db := (serve env s.db op).2 }
  | .storage nodeId request =>
      { s with
        stores := Function.update s.stores nodeId
          (StorageNodeService.handleRequest env (s.stores nodeId) request).2 }
  | .collect engine request =>
      { s with clients := s.clients ++ [⟨engine, request, engine.collect⟩] }
  | .gcRequest index =>
      match s.clients[index]? with
      | none => s
      | some client => serveClient env s index client
  | .gcCrash index => { s with clients := s.clients.eraseIdx index }

def Step (env : Environment) (s s' : System) : Prop :=
  ∃ op : SystemOp, op.permitted = true ∧ s' = apply env s op

def Reachable (env : Environment) (s : System) : Prop :=
  ∃ stores, ReflTransGen (Step env) (initial stores) s

end System

/-- A sequence of operations, in order. -/
def System.afterOps (env : Environment) (s : System) (ops : List SystemOp) : System :=
  ops.foldl (System.apply env) s

theorem reachable_afterSystemOps (env : Environment) (stores : String → ChunkStore)
    (ops : List SystemOp) (h : ∀ op ∈ ops, op.permitted = true) :
    System.Reachable env (System.afterOps env (.initial stores) ops) := by
  refine ⟨stores, ?_⟩
  generalize System.initial stores = s
  induction ops generalizing s with
  | nil => exact .refl
  | cons op ops ih =>
      exact .head ⟨op, h op List.mem_cons_self, rfl⟩
        (ih (fun o ho => h o (List.mem_cons_of_mem _ ho)) _)

/-! ## What an engine has settled -/

namespace GcState

/-- The chunks that `collect` will still delete for the page in hand. -/
def pending : GcState → List ContentId
  | .delete _ _ info rest _ =>
      info.chunkId :: (rest.filter fun p => p.1.collectible).map fun p => p.2.chunkId
  | _ => []

def HasRun : GcState → Prop
  | .list _ _ => True
  | .classify _ _ _ => True
  | .delete _ _ _ _ _ => True
  | .complete _ => True
  | _ => False

end GcState

/-- While its run is open, no chunk that the engine will delete is live. -/
def Settled (db : Db) (client : GcClient) : Prop :=
  client.state.HasRun → ∃ run, db.gcRuns.find? client.request.runId = some run ∧
    (run.state = .open → ∀ chunkId ∈ client.state.pending, ¬db.LiveChunk chunkId)

variable {env : Environment} {db db' : Db} {op : ServiceOp} {client : GcClient}

/-! ## Operations of the metadata service -/

theorem completedRun_effect (he : Effect env db op db') {runId : UuidV7} {run : GcRun}
    (h : db.gcRuns.find? runId = some run) (hcompleted : run.state = .completed) :
    db'.gcRuns.find? runId = some run := by
  cases he with
  | gcStarted hstarts => exact Table.find?_insert_mono h
  | @gcCompleted other completed stats hcompletes =>
      have hother : other.runId ≠ runId := by
        intro hid
        have hstored := hcompletes.stored
        rw [hid, h] at hstored
        obtain rfl := Option.some.inj hstored
        rw [hcompletes.isOpen] at hcompleted
        cases hcompleted
      obtain ⟨physical, metadata, rfl⟩ := hcompletes.row
      obtain ⟨_, _, _, _, _, heq⟩ := completedGcDb_frame db other _
      rw [heq]
      change (db.gcRuns.upsert _).find? runId = _
      rw [Table.find?_upsert]
      simp only [hother, ↓reduceIte, h]
  | _ => exact h

/-- A run that is open after an operation was open before, and nothing that
decides which layouts are live has changed. -/
theorem openRun_effect (he : Effect env db op db') (hexclusive : Exclusive db) {run run' : GcRun}
    (h : db.gcRuns.find? run.runId = some run) (h' : db'.gcRuns.find? run.runId = some run')
    (hopen : run'.state = .open) : run.state = .open ∧ Frozen run db db' := by
  have hbefore : run.state = .open := by
    cases hstate : run.state with
    | «open» => rfl
    | completed =>
        rw [completedRun_effect he h hstate] at h'
        obtain rfl := Option.some.inj h'
        rw [hopen] at hstate
        cases hstate
  refine ⟨hbefore, ?_⟩
  by_cases hop : NotCompleting run op
  · exact frozen_effect he hexclusive h hbefore hop
  · simp only [NotCompleting, not_forall, not_not] at hop
    obtain ⟨stats, rfl⟩ := hop
    generalize hid : run.runId = runId at he h'
    cases he with
    | unchanged => exact ⟨rfl, rfl, rfl, rfl, rfl, h⟩
    | @gcCompleted other completed stats hcompletes =>
        obtain ⟨physical, metadata, rfl⟩ := hcompletes.row
        obtain ⟨_, _, _, _, _, heq⟩ := completedGcDb_frame db other _
        rw [heq] at h'
        change (db.gcRuns.upsert _).find? other.runId = _ at h'
        rw [Table.find?_upsert] at h'
        simp only [↓reduceIte, Option.some.injEq] at h'
        rw [← h'] at hopen
        cases hopen

theorem settled_effect (he : Effect env db op db') (hexclusive : Exclusive db)
    (h : Settled db client) : Settled db' client := by
  intro hrun
  obtain ⟨run, hfind, hdead⟩ := h hrun
  have hid : run.runId = client.request.runId := Table.key_of_find? hfind
  obtain ⟨run', hfind', -, -⟩ := gcRun_effect he hfind
  refine ⟨run', hfind', fun hopen' chunkId hchunk => ?_⟩
  rw [← hid] at hfind hfind'
  obtain ⟨hopen, hfrozen⟩ := openRun_effect he hexclusive hfind hfind' hopen'
  rw [hfrozen.liveChunk]
  exact hdead hopen chunkId hchunk

namespace Sample

open Metadata.Sample

def engine : GcEngine := ⟨"n1"⟩

def request : GcRequest := ⟨uuid 6, false⟩

end Sample

end AiArtifactStore.Gc
