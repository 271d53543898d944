import AiArtifactStore.Metadata.Histories

/-!
# Retirement is terminal

A retired version stays retired, nothing refers to it, and every operation that
would refer to it is refused.
-/

namespace AiArtifactStore.Metadata

open AiArtifactStore.Foundation
open AiArtifactStore.Identity

structure RetiredUnreferenced (db : Db) : Prop where
  untagged : ∀ row ∈ db.tags, ¬db.Retired row.versionId
  unpinned : ∀ row ∈ db.pins, ¬db.Retired row.versionId
  unlisted : ∀ row ∈ db.manifests, ∀ entry ∈ row.entryRows, ¬db.Retired entry.2
  unreplicated : ∀ run ∈ db.replicationRuns, run.state = .open → ¬db.Retired run.versionId

/-- The operation would make something refer to the version, or read it for a
restore.  Finalization counts for the version it would commit and, in a
committed retry, for the one the session committed. -/
inductive RefersTo (env : Environment) (db : Db) (versionId : ContentId) : ServiceOp → Prop where
  | resolveRestorePlan (sourceNodeId : String) :
      RefersTo env db versionId (.resolveRestorePlan versionId sourceNodeId)
  | resolveMultiNodeRestorePlan :
      RefersTo env db versionId (.resolveMultiNodeRestorePlan versionId)
  | setTag (artifactId : UuidV7) (tagName : String) :
      RefersTo env db versionId (.setTag artifactId tagName versionId)
  | pinVersion (reason : String) : RefersTo env db versionId (.pinVersion versionId reason)
  | registerManifest (manifest : Manifest) (role : String)
      (h : (role, versionId) ∈ manifest.entries.entries) :
      RefersTo env db versionId (.registerManifest manifest)
  | startReplicationRun (runId : UuidV7) (replicationFactor : Nat)
      (h : db.replicationRuns.find? runId = none) :
      RefersTo env db versionId (.startReplicationRun runId versionId replicationFactor)
  | finalizeUpload (now : Int) (sessionId : UuidV7) (d : ObjectLayoutDescriptor)
      (row : SessionRow) (hrow : db.uploadSessions.find? sessionId = some row)
      (h : (finalVersion row d).versionId env = versionId) :
      RefersTo env db versionId (.finalizeUpload now sessionId d)
  | committedRetry (now : Int) (sessionId : UuidV7) (d : ObjectLayoutDescriptor)
      (row : SessionRow) (hrow : db.uploadSessions.find? sessionId = some row)
      (h : row.status = .committed versionId) :
      RefersTo env db versionId (.finalizeUpload now sessionId d)

variable {env : Environment} {db db' : Db} {op : ServiceOp} {versionId : ContentId}

/-! ## Retired versions stay retired -/

theorem retired_effect (he : Effect env db op db') (h : db.Retired versionId) :
    db'.Retired versionId := by
  cases he with
  | lifecycleRan hstarts hretires =>
      obtain ⟨row, hrow, hid⟩ := h
      exact ⟨row, hretires.kept row hrow, hid⟩
  | @gcCompleted run completed stats hcompletes =>
      obtain ⟨_, _, _, _, _, heq⟩ := completedGcDb_frame db run completed
      rw [heq]
      exact h
  | _ => exact h

theorem retired_evolves {allowed : ServiceOp → Prop} (he : Evolves env allowed db db')
    (h : db.Retired versionId) : db'.Retired versionId :=
  invariant_of_step (P := fun db => db.Retired versionId) (fun _ _ hstep hretired => by
    obtain ⟨op, -, heffect⟩ := serviceStep_effect hstep
    exact retired_effect heffect hretired) he h

/-! ## Nothing refers to a retired version -/

theorem retiredUnreferenced_initial : RetiredUnreferenced Db.initial :=
  ⟨fun row h => absurd h (Table.not_mem_empty row), fun row h => absurd h (Table.not_mem_empty row),
    fun row h => absurd h (Table.not_mem_empty row),
    fun run h => absurd h (Table.not_mem_empty run)⟩

theorem retiredUnreferenced_retires {run : LifecycleRunRow}
    {retirements : Table RetirementRow.versionId} (h : RetiredUnreferenced db)
    (hreplication : db.hasOpenReplicationRun = false) (hretires : Retires db retirements) :
    RetiredUnreferenced { db with
      lifecycleRuns := db.lifecycleRuns.insert run, retirements := retirements } := by
  refine ⟨?_, ?_, ?_, ?_⟩
  · rintro tag htag ⟨row, hrow, hid⟩
    rcases hretires.added row hrow with hold | ⟨hunprotected, -⟩
    · exact h.untagged tag htag ⟨row, hold, hid⟩
    · have hnone := List.any_eq_false.mp hunprotected.untagged tag htag
      simp [hid] at hnone
  · rintro pin hpin ⟨row, hrow, hid⟩
    rcases hretires.added row hrow with hold | ⟨hunprotected, -⟩
    · exact h.unpinned pin hpin ⟨row, hold, hid⟩
    · have hnone := List.any_eq_false.mp hunprotected.unpinned pin hpin
      simp [hid] at hnone
  · rintro manifest hmanifest entry hentry ⟨row, hrow, hid⟩
    rcases hretires.added row hrow with hold | ⟨hunprotected, -⟩
    · exact h.unlisted manifest hmanifest entry hentry ⟨row, hold, hid⟩
    · refine absurd ?_ (List.any_eq_false.mp hunprotected.unreferenced manifest hmanifest)
      exact List.any_eq_true.mpr ⟨entry, hentry, by simp [hid]⟩
  · intro replication hrun hopen
    have hnone := List.any_eq_false.mp hreplication replication hrun
    simp [hopen] at hnone

theorem retiredUnreferenced_effect (he : Effect env db op db') (h : RetiredUnreferenced db) :
    RetiredUnreferenced db' := by
  cases he with
  | tagged hretired =>
      refine ⟨fun row hrow => ?_, h.unpinned, h.unlisted, h.unreplicated⟩
      rcases Table.mem_upsert.mp hrow with rfl | ⟨hrow, -⟩
      · exact hretired
      · exact h.untagged row hrow
  | pinned hretired =>
      refine ⟨h.untagged, fun row hrow => ?_, h.unlisted, h.unreplicated⟩
      rcases Table.mem_upsert.mp hrow with rfl | ⟨hrow, -⟩
      · exact hretired
      · exact h.unpinned row hrow
  | unpinned =>
      exact ⟨h.untagged, fun row hrow => h.unpinned row (Table.mem_filter.mp hrow).1, h.unlisted,
        h.unreplicated⟩
  | manifestRegistered hretired =>
      refine ⟨h.untagged, h.unpinned, fun row hrow => ?_, h.unreplicated⟩
      rcases Table.mem_insert.mp hrow with hrow | ⟨rfl, -⟩
      · exact h.unlisted row hrow
      · exact hretired
  | replicationStarted hstarts =>
      refine ⟨h.untagged, h.unpinned, h.unlisted, fun run hrun hopen => ?_⟩
      rcases Table.mem_insert.mp hrun with hrun | ⟨rfl, -⟩
      · exact h.unreplicated run hrun hopen
      · exact hstarts.notRetired
  | replicationCompleted hstored hopen hgc =>
      refine ⟨h.untagged, h.unpinned, h.unlisted, fun run hrun hopen => ?_⟩
      rcases Table.mem_upsert.mp hrun with rfl | ⟨hrun, -⟩
      · cases hopen
      · exact h.unreplicated run hrun hopen
  | lifecycleRan hstarts hretires =>
      exact retiredUnreferenced_retires h hstarts.noReplicationRun hretires
  | @gcCompleted run completed stats hcompletes =>
      obtain ⟨_, _, _, _, _, heq⟩ := completedGcDb_frame db run completed
      rw [heq]
      exact ⟨h.untagged, h.unpinned, h.unlisted, h.unreplicated⟩
  | _ => exact ⟨h.untagged, h.unpinned, h.unlisted, h.unreplicated⟩

theorem retiredUnreferenced_of_reachable (h : Reachable env db) : RetiredUnreferenced db :=
  reachable_invariant retiredUnreferenced_initial (fun _ _ _ he => retiredUnreferenced_effect he) h

/-! ## Operations on a retired version -/

theorem loadRestorableVersion_ok {version : ArtifactVersion}
    (h : loadRestorableVersion env db versionId = .ok version) : ¬db.Retired versionId := by
  simp only [loadRestorableVersion, bind_eq_ok, exists_unit, failIf_eq_ok,
    Db.isVersionRetired_iff] at h
  obtain ⟨-, -, -, -, -, hretired, -⟩ := h
  exact hretired

theorem not_ok_of_refersTo {reply : Reply} (href : RefersTo env db versionId op)
    (h : transact env db op = .ok (reply, db')) : ¬db.Retired versionId := by
  cases href with
  | resolveRestorePlan sourceNodeId =>
      obtain ⟨-, plan, hplan, -⟩ := readOnly_eq_ok.mp h
      simp only [resolveRestorePlan, bind_eq_ok] at hplan
      obtain ⟨-, -, version, hversion, -⟩ := hplan
      exact loadRestorableVersion_ok hversion
  | resolveMultiNodeRestorePlan =>
      obtain ⟨-, plan, hplan, -⟩ := readOnly_eq_ok.mp h
      simp only [resolveMultiNodeRestorePlan, bind_eq_ok] at hplan
      obtain ⟨version, hversion, -⟩ := hplan
      exact loadRestorableVersion_ok hversion
  | setTag artifactId tagName =>
      obtain ⟨h, -⟩ := done_eq_ok.mp h
      simp only [setTag, bind_eq_ok, exists_unit, failIf_eq_ok, Db.isVersionRetired_iff] at h
      exact h.2.1
  | pinVersion reason =>
      obtain ⟨h, -⟩ := done_eq_ok.mp h
      simp only [pinVersion, bind_eq_ok, exists_unit, failIf_eq_ok, Db.isVersionRetired_iff] at h
      obtain ⟨-, -, -, -, -, -, hretired, -⟩ := h
      exact hretired
  | registerManifest manifest role hentry =>
      obtain ⟨h, -⟩ := done_eq_ok.mp h
      simp only [registerManifest, bind_eq_ok, exists_unit, failIf_eq_ok,
        Db.isVersionRetired_iff] at h
      exact fun hretired => h.1 ⟨(role, versionId), hentry, hretired⟩
  | startReplicationRun runId replicationFactor hfresh =>
      obtain ⟨run, h, -⟩ := replyWith_eq_ok.mp h
      rcases startReplicationRun_ok h with ⟨-, hfind, -⟩ | ⟨-, rfl, -, hstarts, -⟩
      · rw [hfresh] at hfind
        cases hfind
      · exact hstarts.notRetired
  | finalizeUpload now sessionId d row hrow hversion =>
      obtain ⟨result, h, -⟩ := replyWith_eq_ok.mp h
      simp only [finalizeUpload, bind_eq_ok, exists_unit, orFail_eq_ok, failIf_eq_ok,
        Db.isVersionRetired_iff] at h
      obtain ⟨stored, hfind, read, hread, -, hretired, -⟩ := h
      obtain ⟨rfl, -⟩ := reconstructUploadSession_ok hread
      obtain rfl : row = read := Option.some.inj (hrow.symm.trans hfind)
      exact hversion ▸ hretired
  | committedRetry now sessionId d row hrow hstatus =>
      obtain ⟨result, h, -⟩ := replyWith_eq_ok.mp h
      simp only [finalizeUpload, bind_eq_ok, exists_unit, orFail_eq_ok, failIf_eq_ok] at h
      obtain ⟨stored, hfind, read, hread, -, -, h⟩ := h
      obtain ⟨rfl, -⟩ := reconstructUploadSession_ok hread
      obtain rfl : row = read := Option.some.inj (hrow.symm.trans hfind)
      simp only [hstatus, bind_eq_ok] at h
      obtain ⟨_, hretry, -⟩ := h
      simp only [finalizeCommittedRetry, bind_eq_ok, exists_unit, failIf_eq_ok,
        Db.isVersionRetired_iff] at hretry
      exact hretry.1

theorem refused_of_retired (href : RefersTo env db versionId op) (h : db.Retired versionId) :
    ∃ e, serve env db op = (.error e, db) := by
  rcases serve_cases env db op with ⟨e, -, hs⟩ | ⟨reply, next, ht, -⟩
  · exact ⟨e, hs⟩
  · exact absurd h (not_ok_of_refersTo href ht)

/-- A retired version stays retired; no tag, pin, manifest entry or open
replication run refers to it; and no operation makes one refer to it. -/
theorem retirement_terminal (h : Reachable env db) (hretired : db.Retired versionId) :
    (∀ db', Evolves env (fun _ => True) db db' → db'.Retired versionId) ∧
      (∀ row ∈ db.tags, row.versionId ≠ versionId) ∧
      (∀ row ∈ db.pins, row.versionId ≠ versionId) ∧
      (∀ row ∈ db.manifests, ∀ entry ∈ row.entryRows, entry.2 ≠ versionId) ∧
      (∀ run ∈ db.replicationRuns, run.state = .open → run.versionId ≠ versionId) ∧
      ∀ op, RefersTo env db versionId op → ∃ e, serve env db op = (.error e, db) := by
  have hunreferenced := retiredUnreferenced_of_reachable h
  refine ⟨fun db' he => retired_evolves he hretired, ?_, ?_, ?_, ?_,
    fun op href => refused_of_retired href hretired⟩
  · rintro row hrow rfl
    exact hunreferenced.untagged row hrow hretired
  · rintro row hrow rfl
    exact hunreferenced.unpinned row hrow hretired
  · rintro row hrow entry hentry rfl
    exact hunreferenced.unlisted row hrow entry hentry hretired
  · rintro run hrun hopen rfl
    exact hunreferenced.unreplicated run hrun hopen hretired

open Sample in
theorem retirement_terminal_sample :
    let db := afterOps Sample.env .initial (pushOps ++ repairOps ++ retireOps)
    ∃ e, serve Sample.env db (.finalizeUpload 1 session.sessionId descriptor) = (.error e, db) :=
  (retirement_terminal (reachable_afterOps _ _)
      (Db.isVersionRetired_iff.mp (by decide +kernel))).2.2.2.2.2 _
    (.committedRetry 1 session.sessionId descriptor ⟨session, .committed versionId⟩
      (by decide +kernel) rfl)

end AiArtifactStore.Metadata
