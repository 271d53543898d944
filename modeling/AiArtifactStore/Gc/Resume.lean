import AiArtifactStore.Gc.Attempt
import AiArtifactStore.Gc.System

/-!
# Resuming a GC run

Attempts of `collect` in apply mode with one run id, when no other client acts.
An attempt may stop between any two requests; the last one returns.
-/

namespace AiArtifactStore.Gc

open AiArtifactStore.Foundation
open AiArtifactStore.Identity
open AiArtifactStore.Metadata
open AiArtifactStore.Storage
open AiArtifactStore.Client
open Relation

/-- An attempt that stops after any of its requests has taken effect. -/
def Attempt (env : Environment) (engine : GcEngine) (request : GcRequest)
    (world world' : World) : Prop :=
  ∃ n, (engine.steps request env world n).1 = world'

def Returns (env : Environment) (engine : GcEngine) (request : GcRequest) (world world' : World)
    (run : GcRun) : Prop :=
  ∃ n, engine.steps request env world n = (world', .returned run)

/-! ## Counters aside -/

def withoutCounters (run : GcRun) : GcRun :=
  { run with physicalStats := .zero, metadataStats := .zero }

def withoutGcCounters (db : Db) : Db :=
  { db with gcRuns := db.gcRuns.mapRows withoutCounters fun _ => rfl }

/-! ## Sample runs -/

namespace Sample

open Metadata.Sample

def storeOf (chunks : List (ContentId × List UInt8)) : ChunkStore :=
  chunks.foldl (fun store chunk => store.upsert ⟨chunk.1, .regular chunk.2⟩) .empty

def mixed : World :=
  ⟨Metadata.afterOps env .initial pushOps,
    storeOf [(chunkId, asciiBytes ['a']), (orphanId, asciiBytes ['b'])]⟩

/-- A node with a chunk that was stored after the run had completed. -/
def completedEarlier : World :=
  ⟨Metadata.afterOps env .initial [.startGcRun gcRun, .completeGcRun gcRun.runId .zero],
    storeOf [(orphanId, asciiBytes ['b'])]⟩

end Sample

section

variable {env : Environment} {engine : GcEngine} {request : GcRequest}
  {origin world world' world'' : World}

theorem withoutGcCounters_completed {db : Db} {run completed completed' : GcRun}
    (h : GcCompletes db run completed) (h' : GcCompletes db run completed') :
    withoutGcCounters (completedGcDb db run completed) =
      withoutGcCounters (completedGcDb db run completed') := by
  obtain ⟨physical, metadata, rfl⟩ := h.row
  obtain ⟨physical', metadata', rfl⟩ := h'.row
  unfold withoutGcCounters completedGcDb
  simp only
  congr 1
  exact Table.mapRows_upsert_congr rfl rfl

theorem Finished.unique (h : Finished engine request origin world)
    (h' : Finished engine request origin world') :
    world'.store = world.store ∧ withoutGcCounters world'.db = withoutGcCounters world.db := by
  obtain ⟨⟨run, completed, hrun, hcompletes, hdb⟩, -, hstore⟩ := h
  obtain ⟨⟨run', completed', hrun', hcompletes', hdb'⟩, -, hstore'⟩ := h'
  obtain rfl := hrun.unique hrun'
  refine ⟨hstore'.trans hstore.symm, ?_⟩
  rw [hdb, hdb']
  exact withoutGcCounters_completed hcompletes' hcompletes

/-! ## Attempts -/

section

variable (hmode : request.dryRun = false)
  (hopen : ∀ run, origin.db.gcRuns.find? request.runId = some run → run.state = .open)

include hmode hopen

theorem standing_attempts (h : ReflTransGen (Attempt env engine request) origin world) :
    Standing engine request origin world := by
  refine invariant_of_step (P := Standing engine request origin) ?_ h standing_origin
  rintro before _ ⟨n, rfl⟩ hstanding
  rcases @invariant_steps env engine request origin before hmode hopen hstanding n with
    ⟨hunderway, -⟩ | ⟨hfinished, -⟩
  · exact .inl hunderway
  · exact .inr hfinished

theorem finished_of_returns {run : GcRun} (h : Standing engine request origin world)
    (hreturns : Returns env engine request world world' run) :
    Finished engine request origin world' := by
  obtain ⟨n, hsteps⟩ := hreturns
  have hinvariant := @invariant_steps env engine request origin world hmode hopen h n
  rw [hsteps] at hinvariant
  rcases hinvariant with ⟨-, hstate⟩ | ⟨hfinished, -⟩
  · exact absurd hstate not_false
  · exact hfinished

theorem returns_of_unhindered (h : Unhindered engine request origin) :
    ∃ world run, Returns env engine request origin world run := by
  have hnext : ∀ n, GcEngine.message engine request (engine.steps request env origin n).2 = none ∨
      ∃ response, (engine.steps request env origin (n + 1)).2 =
        engine.receive request (engine.steps request env origin n).2 response := by
    intro n
    have hsucc : engine.steps request env origin (n + 1) =
        engine.step request env (engine.steps request env origin n) :=
      Function.iterate_succ_apply' _ _ _
    rw [hsucc, GcEngine.step]
    cases GcEngine.message engine request (engine.steps request env origin n).2 with
    | none => exact .inl rfl
    | some m => exact .inr ⟨_, rfl⟩
  obtain ⟨n, hend⟩ := GcEngine.terminates _ hnext
  have hinvariant := @invariant_steps env engine request origin origin hmode hopen standing_origin n
  generalize hpoint : engine.steps request env origin n = point at hend hinvariant
  obtain ⟨world, state⟩ := point
  rcases hinvariant with ⟨-, hstate⟩ | ⟨-, rfl | ⟨run, rfl⟩⟩
  · cases state with
    | returned run => exact absurd hstate not_false
    | threw e => exact absurd h hstate
    | _ => cases hend
  · cases hend
  · exact ⟨world, run, n, hpoint⟩

end

theorem Finished.unhindered (h : Finished engine request origin world)
    (hmode : request.dryRun = false) (htotals : TotalsFit origin.store) :
    Unhindered engine request origin := by
  obtain ⟨⟨run, completed, hrun, hcompletes, -⟩, hrows, -⟩ := h
  exact ⟨⟨run, hrun⟩, htotals, hcompletes.noUploadSession,
    hcompletes.unpinned (hrun.identity.2.trans (request_mode hmode)), hrows⟩

theorem steps_of_completed {run : GcRun} (h : world.db.gcRuns.find? request.runId = some run)
    (hcompleted : run.state = .completed) (n : Nat) :
    (engine.steps request env world n).1 = world ∧
      ∀ m, GcEngine.message engine request (engine.steps request env world n).2 = some m →
        ∃ op, m = .metadata op := by
  have hpoint : (engine.steps request env world n).1 = world ∧
      ((engine.steps request env world n).2 = .start ∨
        GcEngine.message engine request (engine.steps request env world n).2 = none) := by
    unfold GcEngine.steps
    induction n with
    | zero =>
        refine ⟨rfl, ?_⟩
        simp only [Function.iterate_zero, id_eq, GcEngine.collect]
        split
        · exact .inr rfl
        · exact .inl rfl
    | succ n ih =>
        rw [Function.iterate_succ_apply']
        generalize (engine.step request env)^[n] (world, engine.collect) = point at ih
        obtain ⟨before, state⟩ := point
        obtain ⟨rfl, rfl | hend⟩ := ih
        · obtain ⟨hworld, ⟨e, hs⟩ | hs⟩ := @step_start_completed env engine request _ run h hcompleted
          · exact ⟨hworld, .inr (by rw [hs]; rfl)⟩
          · exact ⟨hworld, .inr (by rw [hs]; rfl)⟩
        · have hfixed : engine.step request env (before, state) = (before, state) := by
            simp only [GcEngine.step, hend]
          rw [hfixed]
          exact ⟨rfl, .inr hend⟩
  refine ⟨hpoint.1, fun m hm => ?_⟩
  rcases hpoint.2 with hstart | hend
  · rw [hstart] at hm
    exact ⟨_, (Option.some.inj hm).symm⟩
  · rw [hend] at hm
    cases hm

/-- Interrupted attempts followed by one that returns end like one attempt that
is not interrupted, and leave exactly the live chunks. -/
theorem collect_resumable (hmode : request.dryRun = false)
    (hopen : ∀ run, origin.db.gcRuns.find? request.runId = some run → run.state = .open)
    (hattempts : ReflTransGen (Attempt env engine request) origin world) {run : GcRun}
    (hreturns : Returns env engine request world world' run) :
    (∃ stored, world'.db.gcRuns.find? request.runId = some stored ∧ stored.state = .completed) ∧
      (∀ chunkId bytes, LocalChunkStore.regular? world'.store chunkId = some bytes ↔
        LocalChunkStore.regular? origin.store chunkId = some bytes ∧
          origin.db.LiveChunk chunkId) ∧
      (∀ location ∈ world'.db.storageLocations, location.nodeId = engine.storageNodeId →
        world'.db.LiveChunk location.chunkId) ∧
      (∀ world'' run', Returns env engine request origin world'' run' →
        world''.store = world'.store ∧
          withoutGcCounters world''.db = withoutGcCounters world'.db) ∧
      (TotalsFit origin.store → ∃ world'' run', Returns env engine request origin world'' run') ∧
      ∀ (again : GcEngine) (next : GcRequest), next.runId = request.runId → ∀ n,
        (again.steps next env world' n).1 = world' ∧
          ∀ m, again.message next (again.steps next env world' n).2 = some m →
            ∃ op, m = .metadata op := by
  have hfinished := finished_of_returns hmode hopen (standing_attempts hmode hopen hattempts)
    hreturns
  obtain ⟨stored, hstored, hcompleted, -, -⟩ := hfinished.stored
  refine ⟨⟨stored, hstored, hcompleted⟩, fun chunkId bytes => ?_, fun location hlocation hnode => ?_,
    fun world'' run' hreturns' => ?_, fun htotals => ?_, fun again next hnext n => ?_⟩
  · rw [hfinished.store]
    exact regular?_liveStore
  · obtain ⟨⟨opened, completed, hopened, -, hdb⟩, -, -⟩ := hfinished
    have happly : opened.mode = .apply := hopened.identity.2.trans (request_mode hmode)
    have hlive : ∀ location ∈ (sweptDb (startedDb engine request origin.db)
        opened.targetNodeId).storageLocations, location.nodeId = opened.targetNodeId →
          (sweptDb (startedDb engine request origin.db) opened.targetNodeId).LiveChunk
            location.chunkId := by
      intro location hmem hnode
      exact liveChunk_sweptDb.mpr ((mem_sweptDb_storageLocations.mp hmem).2 hnode)
    rw [hdb] at hlocation ⊢
    simp only [completedGcDb, completionDb, happly] at hlocation ⊢
    exact hlive location hlocation (hnode.trans hopened.identity.1.symm)
  · exact hfinished.unique (finished_of_returns hmode hopen standing_origin hreturns')
  · exact returns_of_unhindered hmode hopen (hfinished.unhindered hmode htotals)
  · exact steps_of_completed (hnext ▸ hstored) hcompleted n

end

open Metadata.Sample Sample in
/-- An attempt that stops after its delete, and one that returns. -/
theorem collect_resumable_sample :
    ∃ world, ReflTransGen (Attempt Metadata.Sample.env engine request) mixed world ∧
      (∃ bytes, LocalChunkStore.regular? mixed.store orphanId = some bytes) ∧
      ∃ world' run, Returns Metadata.Sample.env engine request world world' run ∧
        ∀ chunkId bytes, LocalChunkStore.regular? world'.store chunkId = some bytes ↔
          LocalChunkStore.regular? mixed.store chunkId = some bytes ∧
            mixed.db.LiveChunk chunkId := by
  have hattempt : ReflTransGen (Attempt Metadata.Sample.env engine request) mixed
      (engine.steps request Metadata.Sample.env mixed 4).1 := .single ⟨4, rfl⟩
  have hnone : mixed.db.gcRuns.find? request.runId = none := by decide +kernel
  have hstate : ((engine.steps request Metadata.Sample.env
      (engine.steps request Metadata.Sample.env mixed 4).1 4).2 matches .returned _) = true := by
    decide +kernel
  generalize hpoint : engine.steps request Metadata.Sample.env
    (engine.steps request Metadata.Sample.env mixed 4).1 4 = point at hstate
  obtain ⟨world', state⟩ := point
  cases state with
  | returned run =>
      refine ⟨_, hattempt, ⟨asciiBytes ['b'], by decide +kernel⟩, world', run, ⟨4, hpoint⟩, ?_⟩
      exact (collect_resumable rfl (fun run hrun => by rw [hnone] at hrun; cases hrun) hattempt
        ⟨4, hpoint⟩).2.1
  | _ => cases hstate

open Metadata.Sample Sample in
/-- With the run completed before the first attempt, a dead chunk stays. -/
theorem collect_completed_keeps_dead :
    ¬∀ (origin world world' : World) (run : GcRun), ¬PinsDeadLayout origin.db →
      ReflTransGen (Attempt Metadata.Sample.env engine request) origin world →
      Returns Metadata.Sample.env engine request world world' run →
      ∀ chunkId bytes, LocalChunkStore.regular? world'.store chunkId = some bytes ↔
        LocalChunkStore.regular? origin.store chunkId = some bytes ∧
          origin.db.LiveChunk chunkId := by
  intro hexact
  have hlayouts : completedEarlier.db.objectLayouts.rows = [] := by decide +kernel
  have hunpinned : ¬PinsDeadLayout completedEarlier.db := by
    rintro ⟨layout, hlayout, -⟩
    rw [← Table.mem_rows, hlayouts] at hlayout
    cases hlayout
  have hdead : completedEarlier.db.isLiveChunk orphanId = false := by decide +kernel
  have hkept : LocalChunkStore.regular? (engine.steps request Metadata.Sample.env
      completedEarlier 1).1.store orphanId = some (asciiBytes ['b']) := by decide +kernel
  have hstate : ((engine.steps request Metadata.Sample.env completedEarlier 1).2
      matches .returned _) = true := by decide +kernel
  generalize hpoint :
    engine.steps request Metadata.Sample.env completedEarlier 1 = point at hkept hstate
  obtain ⟨world', state⟩ := point
  cases state with
  | returned run =>
      have hlive := (hexact completedEarlier completedEarlier world' run hunpinned .refl
        ⟨1, hpoint⟩ orphanId _).mp hkept
      exact absurd hlive.2 (Db.isLiveChunk_eq_false.mp hdead)
  | _ => cases hstate

end AiArtifactStore.Gc
