import AiArtifactStore.Metadata.Exclusion

/-!
# Stability of collectible chunks

While a GC run is open, no operation that does not complete it changes the
tables that decide which layouts are live.
-/

namespace AiArtifactStore.Metadata

open AiArtifactStore.Foundation
open AiArtifactStore.Identity
open Relation

/-- What stays the same from one database to a later one while a run is open. -/
structure Frozen (run : GcRun) (db db' : Db) : Prop where
  objectLayouts : db'.objectLayouts = db.objectLayouts
  artifactVersions : db'.artifactVersions = db.artifactVersions
  finalizations : db'.finalizations = db.finalizations
  uploadSessions : db'.uploadSessions = db.uploadSessions
  retirements : db'.retirements = db.retirements
  stored : db'.gcRuns.find? run.runId = some run

def NotCompleting (run : GcRun) (op : ServiceOp) : Prop :=
  ∀ stats, op ≠ .completeGcRun run.runId stats

variable {env : Environment} {db db' db'' : Db} {op : ServiceOp} {run : GcRun}

theorem Frozen.trans (h : Frozen run db db') (h' : Frozen run db' db'') : Frozen run db db'' :=
  ⟨h'.objectLayouts.trans h.objectLayouts, h'.artifactVersions.trans h.artifactVersions,
    h'.finalizations.trans h.finalizations, h'.uploadSessions.trans h.uploadSessions,
    h'.retirements.trans h.retirements, h'.stored⟩

theorem liveLayout_congr (hversions : db'.artifactVersions = db.artifactVersions)
    (hfinalizations : db'.finalizations = db.finalizations)
    (hsessions : db'.uploadSessions = db.uploadSessions)
    (hretirements : db'.retirements = db.retirements) (layout : ObjectLayoutRow) :
    db'.LiveLayout layout ↔ db.LiveLayout layout := by
  simp only [Db.LiveLayout, Db.Retired, Db.finalizedVersionOf, hversions, hfinalizations,
    hsessions, hretirements]

theorem Frozen.liveLayout (h : Frozen run db db') (layout : ObjectLayoutRow) :
    db'.LiveLayout layout ↔ db.LiveLayout layout :=
  liveLayout_congr h.artifactVersions h.finalizations h.uploadSessions h.retirements layout

theorem Frozen.liveChunk (h : Frozen run db db') (chunkId : ContentId) :
    db'.LiveChunk chunkId ↔ db.LiveChunk chunkId := by
  simp only [Db.LiveChunk, h.objectLayouts, h.liveLayout]

theorem frozen_effect (he : Effect env db op db') (hexclusive : Exclusive db)
    (hstored : db.gcRuns.find? run.runId = some run) (hopen : run.state = .open)
    (hop : NotCompleting run op) : Frozen run db db' := by
  have hgc : db.hasOpenGcRun = true := hasOpenGcRun_of_mem (Table.mem_of_find? hstored) hopen
  have hnotFree : db.hasOpenGcRun ≠ false := by simp [hgc]
  have hnoSession : ∀ row ∈ db.uploadSessions, row.status ≠ .open := fun row hrow hstatus => by
    have := hexclusive.gcExcludesSession hgc
    rw [hasOpenUploadSession_of_mem hrow hstatus] at this
    cases this
  cases he with
  | sessionOpened hopened => exact absurd hopened.noGcRun hnotFree
  | sessionAborted hrow hstatus => exact absurd hstatus (hnoSession _ hrow)
  | finalized hfinalizes =>
      exact absurd hfinalizes.isOpen (hnoSession _ (Table.mem_of_find? hfinalizes.stored))
  | gcStarted hstarts => exact absurd hstarts.noGcRun hnotFree
  | @gcCompleted other _ stats hcompletes =>
      have hsame : other = run :=
        hexclusive.oneGcRun other (Table.mem_of_find? hcompletes.stored) run
          (Table.mem_of_find? hstored) hcompletes.isOpen hopen
      exact absurd (by rw [hsame]) (hop stats)
  | replicationStarted hstarts => exact absurd hstarts.noGcRun hnotFree
  | lifecycleRan hstarts _ => exact absurd hstarts.noGcRun hnotFree
  | _ => exact ⟨rfl, rfl, rfl, rfl, rfl, hstored⟩

theorem frozen_of_evolves (h : Reachable env db) (hstored : db.gcRuns.find? run.runId = some run)
    (hopen : run.state = .open) (he : Evolves env (NotCompleting run) db db') :
    Frozen run db db' := by
  have hboth : Reachable env db' ∧ Frozen run db db' := by
    refine invariant_of_step (P := fun s => Reachable env s ∧ Frozen run db s) ?_ he
      ⟨h, ⟨rfl, rfl, rfl, rfl, rfl, hstored⟩⟩
    intro s s' hstep ⟨hreach, hfrozen⟩
    have hreach' : Reachable env s' := hreach.evolves (.single hstep)
    obtain ⟨op, hop, heffect⟩ := serviceStep_effect hstep
    exact ⟨hreach', hfrozen.trans
      (frozen_effect heffect (exclusive_of_reachable hreach) hfrozen.stored hopen hop)⟩
  exact hboth.2

/-! ## Classification -/

theorem classifyGcChunks_ok {runId : UuidV7} {chunkIds : List ContentId}
    {decisions : List GcChunkDecision} (h : classifyGcChunks db runId chunkIds = .ok decisions) :
    decisions = chunkIds.map fun chunkId => ⟨chunkId, !db.isLiveChunk chunkId⟩ := by
  simp only [classifyGcChunks, bind_eq_ok] at h
  obtain ⟨-, -, -, -, -, -, -, -, h⟩ := h
  exact (Except.ok.inj h).symm

theorem classifyGcChunks_of_open {chunkIds : List ContentId}
    (hstored : db.gcRuns.find? run.runId = some run) (hopen : run.state = .open)
    (hne : chunkIds ≠ []) (hlength : chunkIds.length ≤ 256) (hnodup : chunkIds.Nodup) :
    classifyGcChunks db run.runId chunkIds =
      .ok (chunkIds.map fun chunkId => ⟨chunkId, !db.isLiveChunk chunkId⟩) := by
  have hsize : ¬(chunkIds = [] ∨ chunkIds.length > 256) := by
    rintro (h | h)
    · exact hne h
    · omega
  have hunique : ¬¬chunkIds.Nodup := fun h => h hnodup
  have hstate : ¬run.state ≠ .open := fun h => h hopen
  rw [classifyGcChunks, failIf_of_false hsize, ok_bind, failIf_of_false hunique, ok_bind, hstored,
    orFail_some, ok_bind, failIf_of_false hstate, ok_bind]

theorem collectible_iff {runId : UuidV7} {chunkIds : List ContentId}
    {decisions : List GcChunkDecision} {chunkId : ContentId}
    (h : classifyGcChunks db runId chunkIds = .ok decisions) :
    ⟨chunkId, true⟩ ∈ decisions ↔ chunkId ∈ chunkIds ∧ ¬db.LiveChunk chunkId := by
  rw [classifyGcChunks_ok h, List.mem_map]
  constructor
  · rintro ⟨id, hid, heq⟩
    simp only [GcChunkDecision.mk.injEq, Bool.not_eq_true'] at heq
    obtain ⟨rfl, hdead⟩ := heq
    exact ⟨hid, Db.isLiveChunk_eq_false.mp hdead⟩
  · rintro ⟨hid, hdead⟩
    exact ⟨chunkId, hid, by rw [Db.isLiveChunk_eq_false.mpr hdead]; rfl⟩

/-- A chunk classified as collectible stays collectible until the run completes,
and no layout joins the live ones. -/
theorem collectible_stable (h : Reachable env db)
    (hstored : db.gcRuns.find? run.runId = some run) (hopen : run.state = .open)
    (he : Evolves env (NotCompleting run) db db') :
    (∀ chunkIds decisions chunkId, classifyGcChunks db run.runId chunkIds = .ok decisions →
      ⟨chunkId, true⟩ ∈ decisions →
      ∀ again : List ContentId, chunkId ∈ again → again.length ≤ 256 → again.Nodup →
        ∃ later, classifyGcChunks db' run.runId again = .ok later ∧ ⟨chunkId, true⟩ ∈ later) ∧
    ∀ layout ∈ db'.objectLayouts, db'.LiveLayout layout →
      layout ∈ db.objectLayouts ∧ db.LiveLayout layout := by
  have hfrozen := frozen_of_evolves h hstored hopen he
  refine ⟨?_, fun layout hlayout hlive => ?_⟩
  · intro chunkIds decisions chunkId hclassify hdecision again hmem hlength hnodup
    have hdead := ((collectible_iff hclassify).mp hdecision).2
    have hlater := classifyGcChunks_of_open hfrozen.stored hopen (List.ne_nil_of_mem hmem)
      hlength hnodup
    refine ⟨_, hlater, (collectible_iff hlater).mpr ⟨hmem, ?_⟩⟩
    rwa [hfrozen.liveChunk]
  · exact ⟨hfrozen.objectLayouts ▸ hlayout, (hfrozen.liveLayout layout).mp hlive⟩

open Sample in
theorem collectible_stable_sample :
    ∃ later, classifyGcChunks
        (afterOps Sample.env (afterOps Sample.env .initial
            (pushOps ++ retireOps ++ [.startGcRun gcRun]))
          [.negotiateChunks [⟨chunkId, 1⟩], .registerStorageLocation location,
            .createUploadSession ⟨session, .open⟩])
        gcRun.runId [chunkId] = .ok later ∧ ⟨chunkId, true⟩ ∈ later :=
  (@collectible_stable Sample.env _ _ gcRun (reachable_afterOps _ _) (by decide +kernel) rfl
      (evolves_afterOps Sample.env _ _ (by simp [NotCompleting]))).1
    [chunkId] [⟨chunkId, true⟩] chunkId (by decide +kernel) (by simp) [chunkId] (by simp)
    (by simp) (by simp)

end AiArtifactStore.Metadata
