import AiArtifactStore.Metadata.Histories

/-!
# Run identities

A run id names one run for good: what `start_gc_run`, `start_replication_run`
and `run_lifecycle` answer to a repeated call, whatever else is open by then.
-/

namespace AiArtifactStore.Metadata

open AiArtifactStore.Foundation
open AiArtifactStore.Identity

/-- A call that starts a run.  The evaluation time of a lifecycle run comes from
the clock of the service. -/
inductive RunCall where
  | gc (requested : GcRun)
  | replication (runId : UuidV7) (versionId : ContentId) (replicationFactor : Nat)
  | lifecycle (runId policyId : UuidV7) (mode : LifecycleRunMode) (evaluatedAtMs : Int)

namespace RunCall

def op : RunCall → ServiceOp
  | .gc requested => .startGcRun requested
  | .replication runId versionId replicationFactor =>
      .startReplicationRun runId versionId replicationFactor
  | .lifecycle runId policyId mode evaluatedAtMs => .runLifecycle runId policyId mode evaluatedAtMs

/-- The arguments pass the checks that precede every lookup. -/
def Valid : RunCall → Prop
  | .gc requested => validateGcRunStartRequest requested = .ok ()
  | .replication _ _ replicationFactor => 1 ≤ replicationFactor ∧ replicationFactor ≤ 8
  | .lifecycle _ _ _ _ => True

def Repeats : RunCall → RunCall → Prop
  | .gc r, .gc r' => r = r'
  | .replication i v n, .replication i' v' n' => i = i' ∧ v = v' ∧ n = n'
  | .lifecycle i p m _, .lifecycle i' p' m' _ => i = i' ∧ p = p' ∧ m = m'
  | _, _ => False

def Conflicts : RunCall → RunCall → Prop
  | .gc r, .gc r' =>
      r.runId = r'.runId ∧ ¬(r.targetNodeId = r'.targetNodeId ∧ r.mode = r'.mode)
  | .replication i v n, .replication i' v' n' => i = i' ∧ ¬(v = v' ∧ n = n')
  | .lifecycle i p m _, .lifecycle i' p' m' _ => i = i' ∧ ¬(p = p' ∧ m = m')
  | _, _ => False

def IsReplication : RunCall → Prop
  | .replication _ _ _ => True
  | _ => False

def stored (db : Db) : RunCall → Option Reply
  | .gc requested => (db.gcRuns.find? requested.runId).map .gcRun
  | .replication runId _ _ => (db.replicationRuns.find? runId).map .replicationRun
  | .lifecycle runId _ _ _ => (db.lifecycleRuns.find? runId).map fun row => .lifecycleRun row.run

def StoredIn (db : Db) : RunCall → Prop
  | .gc requested => ∃ run, db.gcRuns.find? requested.runId = some run ∧
      run.targetNodeId = requested.targetNodeId ∧ run.mode = requested.mode
  | .replication runId versionId replicationFactor =>
      ∃ run, db.replicationRuns.find? runId = some run ∧
        run.versionId = versionId ∧ run.replicationFactor = replicationFactor
  | .lifecycle runId policyId mode _ => ∃ row, db.lifecycleRuns.find? runId = some row ∧
      row.run.policyId = policyId ∧ row.run.mode = mode

end RunCall

def Exc.isRunConflict : Exc → Bool
  | .gcError .runConflict _ => true
  | .replicationError .runConflict _ => true
  | .lifecycleError .runConflict _ => true
  | _ => false

/-- A repeated call returns the stored run and a conflicting one is rejected;
neither changes the database. -/
structure Idempotent (env : Environment) (db : Db) (call : RunCall) : Prop where
  repeated : ∃ reply, call.stored db = some reply ∧
    ∀ again, call.Repeats again → serve env db again.op = (.ok reply, db)
  conflicting : ∀ other, call.Conflicts other → other.Valid →
    ∃ e, e.isRunConflict = true ∧ serve env db other.op = (.error e, db)

variable {env : Environment} {db db' : Db} {op : ServiceOp}

/-! ## Stored runs stay -/

theorem gcRun_effect (he : Effect env db op db') {runId : UuidV7} {run : GcRun}
    (h : db.gcRuns.find? runId = some run) :
    ∃ run', db'.gcRuns.find? runId = some run' ∧
      run'.targetNodeId = run.targetNodeId ∧ run'.mode = run.mode := by
  cases he with
  | gcStarted hstarts => exact ⟨run, Table.find?_insert_mono h, rfl, rfl⟩
  | @gcCompleted other completed stats hcompletes =>
      obtain ⟨physical, metadata, rfl⟩ := hcompletes.row
      obtain ⟨_, _, _, _, _, heq⟩ := completedGcDb_frame db other _
      rw [heq]
      simp only [Table.find?_upsert]
      by_cases hid : other.runId = runId
      · have hsame : other = run := by
          have := hcompletes.stored
          rw [hid, h] at this
          exact (Option.some.inj this).symm
        subst hsame
        rw [if_pos hid]
        exact ⟨_, rfl, rfl, rfl⟩
      · rw [if_neg hid]
        exact ⟨run, h, rfl, rfl⟩
  | _ => exact ⟨run, h, rfl, rfl⟩

theorem replicationRun_effect (he : Effect env db op db') {runId : UuidV7} {run : ReplicationRun}
    (h : db.replicationRuns.find? runId = some run) :
    ∃ run', db'.replicationRuns.find? runId = some run' ∧
      run'.versionId = run.versionId ∧ run'.replicationFactor = run.replicationFactor := by
  cases he with
  | replicationStarted hstarts => exact ⟨run, Table.find?_insert_mono h, rfl, rfl⟩
  | @replicationCompleted other stats hstored hopen hgc =>
      simp only [Table.find?_upsert]
      by_cases hid : other.runId = runId
      · have hsame : other = run := by
          rw [hid, h] at hstored
          exact (Option.some.inj hstored).symm
        subst hsame
        rw [if_pos hid]
        exact ⟨_, rfl, rfl, rfl⟩
      · rw [if_neg hid]
        exact ⟨run, h, rfl, rfl⟩
  | @gcCompleted other completed stats hcompletes =>
      obtain ⟨_, _, _, _, _, heq⟩ := completedGcDb_frame db other completed
      rw [heq]
      exact ⟨run, h, rfl, rfl⟩
  | _ => exact ⟨run, h, rfl, rfl⟩

theorem lifecycleRun_effect (he : Effect env db op db') {runId : UuidV7} {row : LifecycleRunRow}
    (h : db.lifecycleRuns.find? runId = some row) : db'.lifecycleRuns.find? runId = some row := by
  cases he with
  | lifecycleRan hstarts hretires => exact Table.find?_insert_mono h
  | @gcCompleted other completed stats hcompletes =>
      obtain ⟨_, _, _, _, _, heq⟩ := completedGcDb_frame db other completed
      rw [heq]
      exact h
  | _ => exact h

namespace RunCall

theorem StoredIn.effect {call : RunCall} (h : call.StoredIn db) (he : Effect env db op db') :
    call.StoredIn db' := by
  cases call with
  | gc requested =>
      obtain ⟨run, hfind, hnode, hmode⟩ := h
      obtain ⟨run', hfind', hnode', hmode'⟩ := gcRun_effect he hfind
      exact ⟨run', hfind', hnode'.trans hnode, hmode'.trans hmode⟩
  | replication runId versionId replicationFactor =>
      obtain ⟨run, hfind, hversion, hfactor⟩ := h
      obtain ⟨run', hfind', hversion', hfactor'⟩ := replicationRun_effect he hfind
      exact ⟨run', hfind', hversion'.trans hversion, hfactor'.trans hfactor⟩
  | lifecycle runId policyId mode evaluatedAtMs =>
      obtain ⟨row, hfind, hsame⟩ := h
      exact ⟨row, lifecycleRun_effect he hfind, hsame⟩

theorem StoredIn.evolves {call : RunCall} {allowed : ServiceOp → Prop} (h : call.StoredIn db)
    (he : Evolves env allowed db db') : call.StoredIn db' :=
  invariant_of_step (P := fun db => call.StoredIn db) (fun _ _ hstep hstored => by
    obtain ⟨op, -, heffect⟩ := serviceStep_effect hstep
    exact hstored.effect heffect) he h

theorem storedIn_of_ok {call : RunCall} (h : (serve env db call.op).1.isOk = true) :
    call.Valid ∧ call.StoredIn (serve env db call.op).2 := by
  rcases serve_cases env db call.op with
    ⟨e, -, hs⟩ | ⟨reply, next, ht, hs⟩
  · rw [hs] at h
    cases h
  · rw [hs]
    cases call with
    | gc requested =>
        obtain ⟨run, hstart, -⟩ := replyWith_eq_ok.mp ht
        have hvalid := hstart
        simp only [startGcRun, bind_eq_ok, exists_unit] at hvalid
        refine ⟨hvalid.1, ?_⟩
        rcases startGcRun_ok hstart with ⟨rfl, hfind, hsame⟩ | ⟨hstarts, rfl, rfl⟩
        · exact ⟨run, hfind, hsame⟩
        · exact ⟨run, Table.find?_of_mem (Table.mem_insert_new hstarts.fresh), rfl, rfl⟩
    | replication runId versionId replicationFactor =>
        obtain ⟨run, hstart, -⟩ := replyWith_eq_ok.mp ht
        have hvalid := hstart
        simp only [startReplicationRun, bind_eq_ok, exists_unit, failIf_eq_ok] at hvalid
        refine ⟨by simp only [Valid]; omega, ?_⟩
        rcases startReplicationRun_ok hstart with ⟨rfl, hfind, hsame⟩ |
          ⟨rfl, rfl, rfl, hstarts, rfl⟩
        · exact ⟨run, hfind, hsame⟩
        · exact ⟨run, Table.find?_of_mem (Table.mem_insert_new hstarts.fresh), rfl, rfl⟩
    | lifecycle runId policyId mode evaluatedAtMs =>
        obtain ⟨run, hstart, -⟩ := replyWith_eq_ok.mp ht
        refine ⟨trivial, ?_⟩
        rcases runLifecycle_ok hstart with ⟨rfl, decisions, hfind, hsame⟩ |
          ⟨decisions, retirements, rfl, rfl, rfl, hstarts, -, rfl⟩
        · exact ⟨_, hfind, hsame⟩
        · exact ⟨⟨run, decisions⟩,
            Table.find?_of_mem
              (Table.mem_insert_new (r := (⟨run, decisions⟩ : LifecycleRunRow)) hstarts.fresh),
            rfl, rfl⟩

end RunCall

/-! ## Answers to a later call -/

theorem serve_eq_of_ok {reply : Reply} (h : transact env db op = .ok (reply, db')) :
    serve env db op = (.ok reply, db') := by
  rw [serve, h]
  rfl

theorem serve_eq_of_error {e : Exc} (h : transact env db op = .error e) :
    serve env db op = (.error e, db) := by
  rw [serve, h]
  rfl

theorem idempotent_gc {requested : GcRun} (hvalid : (RunCall.gc requested).Valid)
    (h : (RunCall.gc requested).StoredIn db) : Idempotent env db (.gc requested) := by
  obtain ⟨run, hfind, hnode, hmode⟩ := h
  refine ⟨⟨.gcRun run, by simp [RunCall.stored, hfind], ?_⟩, ?_⟩
  · intro again hagain
    cases again with
    | gc requested' =>
        obtain rfl : requested = requested' := hagain
        refine serve_eq_of_ok ?_
        have hstart : startGcRun db requested = .ok (run, db) := by
          rw [startGcRun, show validateGcRunStartRequest requested = .ok () from hvalid, ok_bind]
          simp [hfind, hnode, hmode]
        simp [RunCall.op, transact, hstart, replyWith, Except.map]
    | _ => cases hagain
  · intro other hconflict hother
    cases other with
    | gc requested' =>
        obtain ⟨hid, hdiffers⟩ := hconflict
        rw [hid] at hfind
        refine ⟨.gcError .runConflict "GC run ID conflicts with an existing run", rfl,
          serve_eq_of_error ?_⟩
        have hstart : startGcRun db requested' =
            .error (.gcError .runConflict "GC run ID conflicts with an existing run") := by
          rw [startGcRun, show validateGcRunStartRequest requested' = .ok () from hother, ok_bind]
          simp only [hfind, hnode, hmode, if_neg hdiffers]
        simp [RunCall.op, transact, hstart, replyWith, Except.map]
    | _ => cases hconflict

theorem idempotent_lifecycle {runId policyId : UuidV7} {mode : LifecycleRunMode}
    {evaluatedAtMs : Int} (h : (RunCall.lifecycle runId policyId mode evaluatedAtMs).StoredIn db) :
    Idempotent env db (.lifecycle runId policyId mode evaluatedAtMs) := by
  obtain ⟨row, hfind, hpolicy, hmode⟩ := h
  refine ⟨⟨.lifecycleRun row.run, by simp [RunCall.stored, hfind], ?_⟩, ?_⟩
  · intro again hagain
    cases again with
    | lifecycle runId' policyId' mode' evaluatedAtMs' =>
        obtain ⟨rfl, rfl, rfl⟩ := hagain
        refine serve_eq_of_ok ?_
        have hrun : runLifecycle db runId policyId mode evaluatedAtMs' = .ok (row.run, db) := by
          simp [runLifecycle, hfind, hpolicy, hmode]
        simp [RunCall.op, transact, hrun, replyWith, Except.map]
    | _ => cases hagain
  · intro other hconflict _
    cases other with
    | lifecycle runId' policyId' mode' evaluatedAtMs' =>
        obtain ⟨rfl, hdiffers⟩ := hconflict
        refine ⟨.lifecycleError .runConflict "lifecycle run ID conflicts with an existing run",
          rfl, serve_eq_of_error ?_⟩
        have hrun : runLifecycle db runId policyId' mode' evaluatedAtMs' =
            .error (.lifecycleError .runConflict
              "lifecycle run ID conflicts with an existing run") := by
          simp only [runLifecycle, hfind, hpolicy, hmode, if_neg hdiffers]
        simp [RunCall.op, transact, hrun, replyWith, Except.map]
    | _ => cases hconflict

theorem startReplicationRun_stored {runId : UuidV7} {versionId : ContentId}
    {replicationFactor : Nat} {run : ReplicationRun}
    (hvalid : 1 ≤ replicationFactor ∧ replicationFactor ≤ 8) (hgc : db.hasOpenGcRun = false)
    (hfind : db.replicationRuns.find? runId = some run) :
    startReplicationRun env db runId versionId replicationFactor =
      if run.versionId = versionId ∧ run.replicationFactor = replicationFactor then .ok (run, db)
      else .error (.replicationError .runConflict
        "replication run ID conflicts with an existing run") := by
  have hfactor : ¬(replicationFactor < 1 ∨ replicationFactor > 8) := by omega
  have hopen : ¬db.hasOpenGcRun = true := by simp [hgc]
  rw [startReplicationRun, failIf_of_false hfactor, ok_bind, failIf_of_false hopen, ok_bind]
  simp only [hfind]

theorem idempotent_replication {runId : UuidV7} {versionId : ContentId} {replicationFactor : Nat}
    (hvalid : (RunCall.replication runId versionId replicationFactor).Valid)
    (h : (RunCall.replication runId versionId replicationFactor).StoredIn db)
    (hgc : db.hasOpenGcRun = false) :
    Idempotent env db (.replication runId versionId replicationFactor) := by
  obtain ⟨run, hfind, hversion, hfactor⟩ := h
  refine ⟨⟨.replicationRun run, by simp [RunCall.stored, hfind], ?_⟩, ?_⟩
  · intro again hagain
    cases again with
    | replication runId' versionId' replicationFactor' =>
        obtain ⟨rfl, rfl, rfl⟩ := hagain
        refine serve_eq_of_ok ?_
        simp [RunCall.op, transact, startReplicationRun_stored hvalid hgc hfind, hversion,
          hfactor, replyWith, Except.map]
    | _ => cases hagain
  · intro other hconflict hother
    cases other with
    | replication runId' versionId' replicationFactor' =>
        obtain ⟨rfl, hdiffers⟩ := hconflict
        refine ⟨.replicationError .runConflict
          "replication run ID conflicts with an existing run", rfl, serve_eq_of_error ?_⟩
        simp only [RunCall.op, transact, startReplicationRun_stored hother hgc hfind, hversion,
          hfactor, if_neg hdiffers, replyWith, Except.map]
    | _ => cases hconflict

theorem not_idempotent_of_openGcRun {runId : UuidV7} {versionId : ContentId}
    {replicationFactor : Nat} (hgc : db.hasOpenGcRun = true) :
    ¬Idempotent env db (.replication runId versionId replicationFactor) := by
  rintro ⟨⟨reply, -, hrepeated⟩, -⟩
  have hserve := hrepeated (.replication runId versionId replicationFactor) ⟨rfl, rfl, rfl⟩
  rcases serve_cases env db
      (RunCall.replication runId versionId replicationFactor).op with
    ⟨e, -, hs⟩ | ⟨reply', next, ht, -⟩
  · rw [hs] at hserve
    cases hserve
  · obtain ⟨run, hstart, -⟩ := replyWith_eq_ok.mp ht
    simp only [startReplicationRun, bind_eq_ok, exists_unit, failIf_eq_ok] at hstart
    exact hstart.2.1 hgc

/-- After a call that stored its run, the run id is idempotent in every later
database, except that a replication run's id is so exactly while no GC run is open. -/
theorem run_idempotent_iff {call : RunCall} (h : (serve env db call.op).1.isOk = true)
    (hlater : Evolves env (fun _ => True) (serve env db call.op).2 db') :
    Idempotent env db' call ↔ (call.IsReplication → db'.hasOpenGcRun = false) := by
  obtain ⟨hvalid, hstored⟩ := RunCall.storedIn_of_ok h
  have hstored' := hstored.evolves hlater
  cases call with
  | gc requested => exact ⟨fun _ h => h.elim, fun _ => idempotent_gc hvalid hstored'⟩
  | lifecycle runId policyId mode evaluatedAtMs =>
      exact ⟨fun _ h => h.elim, fun _ => idempotent_lifecycle hstored'⟩
  | replication runId versionId replicationFactor =>
      refine ⟨fun hidempotent _ => ?_, fun hgc => idempotent_replication hvalid hstored' (hgc trivial)⟩
      cases hopen : db'.hasOpenGcRun with
      | false => rfl
      | true => exact absurd hidempotent (not_idempotent_of_openGcRun hopen)

open Sample in
theorem run_idempotent_iff_sample :
    let call : RunCall := .replication (uuid 3) versionId 1
    let stored := (serve Sample.env (afterOps Sample.env .initial pushOps) call.op).2
    Idempotent Sample.env (afterOps Sample.env stored [.completeReplicationRun (uuid 3) .zero])
      call :=
  (run_idempotent_iff (by decide +kernel)
    (evolves_afterOps Sample.env _ _ (by simp))).mpr fun _ => by decide +kernel

open Sample in
/-- The retry of a completed replication run is refused while a GC run is open. -/
theorem run_idempotent_fails :
    ¬∀ (call : RunCall) (ops later : List ServiceOp),
      (serve Sample.env (afterOps Sample.env .initial ops) call.op).1.isOk = true →
      Idempotent Sample.env
        (afterOps Sample.env (serve Sample.env (afterOps Sample.env .initial ops) call.op).2 later)
        call := by
  intro h
  have hidempotent := h (.replication (uuid 3) versionId 1) pushOps
    [.completeReplicationRun (uuid 3) .zero, .startGcRun gcRun] (by decide +kernel)
  obtain ⟨reply, -, hrepeated⟩ := hidempotent.repeated
  have hserve := hrepeated (.replication (uuid 3) versionId 1) ⟨rfl, rfl, rfl⟩
  have hok := congrArg (fun answer => answer.1.isOk) hserve
  change _ = true at hok
  exact absurd hok (by decide +kernel)

end AiArtifactStore.Metadata
