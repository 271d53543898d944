import AiArtifactStore.Foundation.Succession
import AiArtifactStore.Metadata.Retirement

/-!
# Records only advance

Over any history the records of the repository stay: what identifies a record
never changes, and what may change moves forward only (a session leaves `open`
once, a run completes once, a finalization may lose its layout to a sweep).
Rows that a sweep, an update or an unpin may take away are not records: chunks,
objects, layouts, locations, tags and pins.
-/

namespace AiArtifactStore.Metadata

open AiArtifactStore.Foundation
open AiArtifactStore.Identity
open Relation

/-! ## What a record may become -/

def VersionAdvances (row row' : VersionRow) : Prop :=
  row' = { row with state := row'.state } ∧ (row.state = .committed → row'.state = .committed)

/-- A session keeps its creation identity, and its status once it is not open. -/
def SessionAdvances (row row' : SessionRow) : Prop :=
  row'.session = row.session ∧ (row.status = .open ∨ row'.status = row.status)

def FinalizationAdvances (row row' : FinalizationRow) : Prop :=
  row'.layoutId = row.layoutId ∨ row'.layoutId = none

def GcRunAdvances (run run' : GcRun) : Prop :=
  run'.targetNodeId = run.targetNodeId ∧ run'.mode = run.mode ∧ (run.state = .open ∨ run' = run)

def ReplicationRunAdvances (run run' : ReplicationRun) : Prop :=
  run' = { run with state := run'.state, stats := run'.stats } ∧ (run.state = .open ∨ run' = run)

structure Advances (db db' : Db) : Prop where
  artifacts : Table.Succeeds Eq db.artifacts db'.artifacts
  artifactVersions : Table.Succeeds VersionAdvances db.artifactVersions db'.artifactVersions
  manifests : Table.Succeeds Eq db.manifests db'.manifests
  storageNodes : Table.Succeeds (fun _ _ => True) db.storageNodes db'.storageNodes
  uploadSessions : Table.Succeeds SessionAdvances db.uploadSessions db'.uploadSessions
  finalizations : Table.Succeeds FinalizationAdvances db.finalizations db'.finalizations
  gcRuns : Table.Succeeds GcRunAdvances db.gcRuns db'.gcRuns
  replicationRuns : Table.Succeeds ReplicationRunAdvances db.replicationRuns db'.replicationRuns
  lifecyclePolicies : Table.Succeeds Eq db.lifecyclePolicies db'.lifecyclePolicies
  lifecycleRuns : Table.Succeeds Eq db.lifecycleRuns db'.lifecycleRuns
  retirements : Table.Succeeds Eq db.retirements db'.retirements

/-! ## Preorders -/

theorem VersionAdvances.refl (row : VersionRow) : VersionAdvances row row := ⟨rfl, id⟩

theorem VersionAdvances.trans (a b c : VersionRow) (h : VersionAdvances a b)
    (h' : VersionAdvances b c) : VersionAdvances a c := by
  refine ⟨?_, fun hstate => h'.2 (h.2 hstate)⟩
  rw [h'.1, h.1]

theorem SessionAdvances.refl (row : SessionRow) : SessionAdvances row row := ⟨rfl, .inr rfl⟩

theorem SessionAdvances.trans (a b c : SessionRow) (h : SessionAdvances a b)
    (h' : SessionAdvances b c) : SessionAdvances a c := by
  refine ⟨h'.1.trans h.1, ?_⟩
  rcases h.2 with hopen | hsame
  · exact .inl hopen
  · rcases h'.2 with hopen | hsame'
    · exact .inl (hsame ▸ hopen)
    · exact .inr (hsame'.trans hsame)

theorem FinalizationAdvances.refl (row : FinalizationRow) : FinalizationAdvances row row := .inl rfl

theorem FinalizationAdvances.trans (a b c : FinalizationRow) (h : FinalizationAdvances a b)
    (h' : FinalizationAdvances b c) : FinalizationAdvances a c := by
  rcases h' with hsame' | hnone'
  · rcases h with hsame | hnone
    · exact .inl (hsame'.trans hsame)
    · exact .inr (hsame'.trans hnone)
  · exact .inr hnone'

theorem GcRunAdvances.refl (run : GcRun) : GcRunAdvances run run := ⟨rfl, rfl, .inr rfl⟩

theorem GcRunAdvances.trans (a b c : GcRun) (h : GcRunAdvances a b) (h' : GcRunAdvances b c) :
    GcRunAdvances a c := by
  refine ⟨h'.1.trans h.1, h'.2.1.trans h.2.1, ?_⟩
  rcases h.2.2 with hopen | rfl
  · exact .inl hopen
  · exact h'.2.2

theorem ReplicationRunAdvances.refl (run : ReplicationRun) : ReplicationRunAdvances run run :=
  ⟨rfl, .inr rfl⟩

theorem ReplicationRunAdvances.trans (a b c : ReplicationRun) (h : ReplicationRunAdvances a b)
    (h' : ReplicationRunAdvances b c) : ReplicationRunAdvances a c := by
  refine ⟨?_, ?_⟩
  · rw [h'.1, h.1]
  · rcases h.2 with hopen | rfl
    · exact .inl hopen
    · exact h'.2

theorem Advances.refl (db : Db) : Advances db db where
  artifacts := .refl fun _ => rfl
  artifactVersions := .refl VersionAdvances.refl
  manifests := .refl fun _ => rfl
  storageNodes := .refl fun _ => trivial
  uploadSessions := .refl SessionAdvances.refl
  finalizations := .refl FinalizationAdvances.refl
  gcRuns := .refl GcRunAdvances.refl
  replicationRuns := .refl ReplicationRunAdvances.refl
  lifecyclePolicies := .refl fun _ => rfl
  lifecycleRuns := .refl fun _ => rfl
  retirements := .refl fun _ => rfl

theorem Advances.trans {a b c : Db} (h : Advances a b) (h' : Advances b c) : Advances a c where
  artifacts := h.artifacts.trans (fun _ _ _ => Eq.trans) h'.artifacts
  artifactVersions := h.artifactVersions.trans VersionAdvances.trans h'.artifactVersions
  manifests := h.manifests.trans (fun _ _ _ => Eq.trans) h'.manifests
  storageNodes := h.storageNodes.trans (fun _ _ _ _ => id) h'.storageNodes
  uploadSessions := h.uploadSessions.trans SessionAdvances.trans h'.uploadSessions
  finalizations := h.finalizations.trans FinalizationAdvances.trans h'.finalizations
  gcRuns := h.gcRuns.trans GcRunAdvances.trans h'.gcRuns
  replicationRuns := h.replicationRuns.trans ReplicationRunAdvances.trans h'.replicationRuns
  lifecyclePolicies := h.lifecyclePolicies.trans (fun _ _ _ => Eq.trans) h'.lifecyclePolicies
  lifecycleRuns := h.lifecycleRuns.trans (fun _ _ _ => Eq.trans) h'.lifecycleRuns
  retirements := h.retirements.trans (fun _ _ _ => Eq.trans) h'.retirements

variable {env : Environment} {db db' : Db} {op : ServiceOp} {allowed : ServiceOp → Prop}

/-! ## One transaction -/

theorem sessions_upsert {row : SessionRow} {status : UploadSessionStatus}
    (hrow : row ∈ db.uploadSessions) (hopen : row.status = .open) :
    Table.Succeeds SessionAdvances db.uploadSessions
      (db.uploadSessions.upsert { row with status := status }) := by
  refine .upsert SessionAdvances.refl fun stored hstored hkey => ?_
  obtain rfl : stored = row := Table.key_inj hstored hrow hkey
  exact ⟨rfl, .inl hopen⟩

theorem advances_finalized {row : SessionRow} {d : ObjectLayoutDescriptor} {createdAt : Int}
    {table : Table ChunkMetadata.chunkId} (h : Finalizes env db row d createdAt table) :
    Advances db (finalizedDb env db row d createdAt table) := by
  refine { Advances.refl db with
    artifactVersions := .upsert VersionAdvances.refl fun stored hstored hkey => ?_
    uploadSessions := sessions_upsert (Table.mem_of_find? h.stored) h.isOpen
    finalizations := .insert FinalizationAdvances.refl }
  rcases h.version with ⟨hnone, -, -⟩ | ⟨state, hsome⟩
  · exact absurd hkey (Table.find?_eq_none.mp hnone stored hstored)
  · obtain rfl : stored = _ := Table.key_inj hstored (Table.mem_of_find? hsome) hkey
    exact ⟨rfl, fun _ => rfl⟩

theorem clearLayout_advances (dead : ContentId → Bool) (row : FinalizationRow) :
    FinalizationAdvances row (row.clearLayout dead) := by
  cases hlayout : row.layoutId with
  | none => exact .inr (by simp [FinalizationRow.clearLayout, hlayout])
  | some layoutId =>
      cases hdead : dead layoutId with
      | false => exact .inl (by simp [FinalizationRow.clearLayout, hlayout, hdead])
      | true => exact .inr (by simp [FinalizationRow.clearLayout, hlayout, hdead])

theorem advances_gcCompleted {run completed : GcRun} (h : GcCompletes db run completed) :
    Advances db (completedGcDb db run completed) := by
  have hruns : Table.Succeeds GcRunAdvances db.gcRuns (db.gcRuns.upsert completed) := by
    obtain ⟨physical, metadata, rfl⟩ := h.row
    refine .upsert GcRunAdvances.refl fun stored hstored hkey => ?_
    obtain rfl : stored = run := Table.key_inj hstored (Table.mem_of_find? h.stored) hkey
    exact ⟨rfl, rfl, .inl h.isOpen⟩
  unfold completedGcDb completionDb
  cases run.mode with
  | dryRun => exact { Advances.refl db with gcRuns := hruns }
  | apply =>
      exact { Advances.refl db with
        gcRuns := hruns
        finalizations := .mapRows (FinalizationRow.clearLayout_sessionId _) fun row =>
          clearLayout_advances _ row }

theorem advances_effect (he : Effect env db op db') : Advances db db' := by
  cases he with
  | unchanged => exact .refl db
  | artifactCreated => exact { Advances.refl db with artifacts := .insert fun _ => rfl }
  | nodeRegistered =>
      exact { Advances.refl db with
        storageNodes := .upsert (fun _ => trivial) fun _ _ _ => trivial }
  | sessionOpened =>
      exact { Advances.refl db with uploadSessions := .insert SessionAdvances.refl }
  | sessionAborted hrow hopen =>
      exact { Advances.refl db with uploadSessions := sessions_upsert hrow hopen }
  | finalized hfinalizes => exact advances_finalized hfinalizes
  | manifestRegistered => exact { Advances.refl db with manifests := .insert fun _ => rfl }
  | gcStarted => exact { Advances.refl db with gcRuns := .insert GcRunAdvances.refl }
  | gcCompleted hcompletes => exact advances_gcCompleted hcompletes
  | replicationStarted =>
      exact { Advances.refl db with replicationRuns := .insert ReplicationRunAdvances.refl }
  | @replicationCompleted run stats hfind hopen hgc =>
      refine { Advances.refl db with
        replicationRuns := .upsert ReplicationRunAdvances.refl fun stored hstored hkey => ?_ }
      obtain rfl : stored = run := Table.key_inj hstored (Table.mem_of_find? hfind) hkey
      exact ⟨rfl, .inl hopen⟩
  | policyRegistered => exact { Advances.refl db with lifecyclePolicies := .insert fun _ => rfl }
  | lifecycleRan hstarts hretires =>
      exact { Advances.refl db with
        lifecycleRuns := .insert fun _ => rfl
        retirements := fun row hrow => ⟨row, hretires.kept row hrow, rfl, rfl⟩ }
  | _ => exact { Advances.refl db with }

/-! ## Every history -/

theorem recordsAdvance (h : Evolves env allowed db db') : Advances db db' := by
  induction h with
  | refl => exact .refl db
  | tail _ hstep ih =>
      obtain ⟨op, -, heffect⟩ := serviceStep_effect hstep
      exact ih.trans (advances_effect heffect)

/-- Records only advance, whatever the operations and their order. -/
theorem advances_of_evolves (h : Evolves env allowed db db') : Advances db db' := recordsAdvance h

theorem advances_afterPush :
    Advances (afterOps Sample.env Db.initial Sample.pushOps)
      (afterOps Sample.env (afterOps Sample.env Db.initial Sample.pushOps)
        (Sample.repairOps ++ Sample.retireOps)) :=
  @advances_of_evolves Sample.env _ _ (fun _ => True) (evolves_afterOps _ _ _ fun _ _ => trivial)

end AiArtifactStore.Metadata
