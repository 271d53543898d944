import AiArtifactStore.Replication.RepairCopies

/-!
# When a repair copies each replica once

A plan that lists no unrecorded replica at two positions is copied without a repetition,
whatever fails on the way; a repair that returns has repeated every replica that its plan
repeats.
-/

namespace AiArtifactStore.Replication

open AiArtifactStore.Foundation
open AiArtifactStore.Identity
open AiArtifactStore.Metadata
open AiArtifactStore.Storage
open AiArtifactStore.Client

/-- The engine before its first request. -/
def RepairState.begin (services : Services) : RepairState := ⟨services, .zero, []⟩

/-- The state in which the engine starts to copy what this plan of the service asks for. -/
def Copying (context : RepairContext) (request : RepairRequest) (services : Services)
    (plan : ReplicationPlan) (s : RepairState) : Prop :=
  ∃ run s₁ s₂,
    RepairEngine.startReplicationRun context request (.begin services) = (.ok run, s₁) ∧
      run.state ≠ .completed ∧
      RepairEngine.getReplicationPlan context request.runId s₁ = (.ok plan, s₂) ∧
      s = { s₂ with stats := run.stats }

def Planned (context : RepairContext) (request : RepairRequest) (services : Services)
    (plan : ReplicationPlan) : Prop :=
  ∃ s, Copying context request services plan s

/-- No replica is put twice, and only replicas that were not stored. -/
structure CopiesOnce (services : Services) (sent : List RepairMessage) : Prop where
  once : ((copies sent).map Copy.replica).Nodup
  missing : ∀ copy ∈ copies sent, ¬services.Stored copy.chunkId copy.nodeId

def distinctCopies (written : List Copy) : List Copy :=
  written.pwFilter fun a b => a.replica ≠ b.replica

structure CountsCopies (stats : ReplicationStats) (sent : List RepairMessage) : Prop where
  written : stats.replicasWritten = (distinctCopies (copies sent)).length
  bytes : stats.bytesCopied = ((distinctCopies (copies sent)).map Copy.sizeBytes).sum

/-- No replica that the plan desires without listing it as a source stands at two positions. -/
def UnrecordedOnce (plan : ReplicationPlan) : Prop := (plan.chunks.flatMap unrecorded).Nodup

section

variable {context : RepairContext} {request : RepairRequest} {services : Services}
  {s s' : RepairState} {plan : ReplicationPlan}

/-! ## The plan -/

theorem recorded_of_available {env : Environment} {db : Db} {run : ReplicationRun}
    {chunk : ChunkRef} {chunkPlan : ReplicationChunkPlan} {nodeId : String}
    (h : planReplicationChunk env db run chunk = .ok chunkPlan)
    (hnode : nodeId ∈ chunkPlan.desiredNodeIds)
    (havailable : AvailableOn db chunkPlan.chunkId nodeId) :
    RepairEngine.metadataSaysAvailable chunkPlan nodeId = true := by
  simp only [planReplicationChunk, bind_eq_ok] at h
  obtain ⟨desired, -, targets, htargets, h⟩ := h
  obtain rfl := Except.ok.inj h
  obtain ⟨endpoint, -, htarget⟩ := mapEach_mem htargets hnode
  unfold replicationTarget at htarget
  split at htarget
  · cases htarget
  · rename_i node hfind
    split at htarget
    · cases htarget
    · rename_i hserving
      obtain ⟨hmem, rfl⟩ := Table.find?_eq_some.mp hfind
      have hstate : node.Serving := by
        cases hcase : node.state with
        | active => exact .inl hcase
        | draining => exact .inr hcase
        | disabled => exact absurd hcase hserving
      have hsource : node.endpoint ∈ chunkSources env db chunk.chunkId :=
        mem_chunkSources.mpr ⟨node, hmem, hstate, havailable, rfl⟩
      exact List.any_eq_true.mpr ⟨node.endpoint, hsource, decide_eq_true rfl⟩

theorem availableOn_of_available {chunkId : ContentId} {nodeId : String}
    (h : services.Available chunkId nodeId) : AvailableOn services.db chunkId nodeId := by
  obtain ⟨location, hfind, hstate⟩ := h
  obtain ⟨hmem, hkey⟩ := Table.find?_eq_some.mp hfind
  obtain ⟨hid, hnode⟩ := Prod.mk.inj hkey
  exact ⟨location, hmem, hid, hnode, hstate⟩

theorem planOf_service {env : Environment} {run : ReplicationRun} {chunks : List ChunkRef}
    {chunkPlans : List ReplicationChunkPlan}
    (h : mapEach chunks (planReplicationChunk env services.db run) = .ok chunkPlans) :
    PlanOf services chunkPlans := by
  constructor
  · intro chunkPlan hmem
    obtain ⟨chunk, -, hplanned⟩ := mem_of_mapEach h hmem
    obtain ⟨-, -, hselect⟩ := planReplicationChunk_ok hplanned
    exact ⟨nodup_selectReplicaNodes hselect, length_selectReplicaNodes hselect⟩
  · intro chunkPlan hmem other hother hid
    obtain ⟨chunk, -, hplanned⟩ := mem_of_mapEach h hmem
    obtain ⟨chunk', -, hplanned'⟩ := mem_of_mapEach h hother
    obtain ⟨hchunk, hsources, -⟩ := planReplicationChunk_ok hplanned
    obtain ⟨hchunk', hsources', -⟩ := planReplicationChunk_ok hplanned'
    rw [hsources, hsources', ← hchunk, ← hchunk', hid]
  · intro chunkPlan hmem nodeId hnode havailable
    obtain ⟨chunk, -, hplanned⟩ := mem_of_mapEach h hmem
    exact recorded_of_available hplanned hnode (availableOn_of_available havailable)

theorem PlanOf.mono {other : Services} {chunks : List ReplicationChunkPlan}
    (h : PlanOf other chunks) (hgrows : services.Grows other) : PlanOf services chunks :=
  ⟨h.desired, h.sources, fun chunkPlan hmem nodeId hnode havailable =>
    h.recorded chunkPlan hmem nodeId hnode (hgrows.available _ _ havailable)⟩

/-! ## Requests to the metadata service -/

def Unwritten (s s' : RepairState) : Prop :=
  s'.services.stores = s.services.stores ∧ copies s'.sent = copies s.sent

theorem sendMetadata_unwritten (op : ServiceOp) :
    Stateful.Preserves (Unwritten s) (RepairEngine.sendMetadata context op) := by
  rintro t ⟨hstores, hcopies⟩
  refine ⟨hstores, ?_⟩
  rw [← hcopies]
  exact (copies_append t.sent _).trans (List.append_nil _)

theorem startReplicationRun_unwritten :
    Stateful.Preserves (Unwritten s) (RepairEngine.startReplicationRun context request) :=
  .bind (.check _) fun _ => .bind (sendMetadata_unwritten _) fun _ => .check _

theorem getReplicationPlan_unwritten {runId : UuidV7} :
    Stateful.Preserves (Unwritten s) (RepairEngine.getReplicationPlan context runId) :=
  .bind (sendMetadata_unwritten _) fun _ => .bind (.check _) fun _ =>
    .bind (.check _) fun _ => .pure _

theorem completeReplicationRun_unwritten {runId : UuidV7} {stats : ReplicationStats} :
    Stateful.Preserves (Unwritten s) (RepairEngine.completeReplicationRun context runId stats) :=
  .bind (sendMetadata_unwritten _) fun _ => .check _

theorem startReplicationRun_grows {run : ReplicationRun}
    (h : RepairEngine.startReplicationRun context request s = (.ok run, s')) :
    s.services.Grows s'.services := by
  obtain ⟨hstores, -⟩ := startReplicationRun_unwritten.state (s := s) ⟨rfl, rfl⟩ h
  have htables : s'.services.db =
      { s.services.db with replicationRuns := s'.services.db.replicationRuns } := by
    rcases startReplicationRun_ok (startReplicationRun_spec h) with
      ⟨hsame, -⟩ | ⟨-, -, -, -, hinserted⟩
    · rw [hsame]
    · rw [hinserted]
  refine ⟨fun chunk hknown => ?_, fun chunkId nodeId havailable => ?_,
    fun chunkId nodeId hpresent => ?_, by rw [htables]⟩
  · rw [Services.Known, htables]
    exact hknown
  · rw [Services.Available, htables]
    exact havailable
  · rw [Services.Present, hstores]
    exact hpresent

structure CopyingStarts (request : RepairRequest) (services : Services) (plan : ReplicationPlan)
    (s : RepairState) : Prop where
  grows : services.Grows s.services
  fresh : copies s.sent = []
  tally : Tally s
  planned : PlanOf services plan.chunks
  run : ∃ run, s.services.db.replicationRuns.find? request.runId = some run ∧ run.state = .open
  size : plan.chunks.length ≤ maxBodyBytes

theorem copyingStarts (hruns : UncountedRuns services.db)
    (h : Copying context request services plan s) : CopyingStarts request services plan s := by
  obtain ⟨run, s₁, s₂, hstart, hincomplete, hplan, rfl⟩ := h
  have hopen : run.state = .open := by
    cases hstate : run.state with
    | «open» => rfl
    | completed => exact absurd hstate hincomplete
  have hzero : run.stats = .zero := stats_of_started hruns hstart hopen
  have hgrows : services.Grows s₁.services := startReplicationRun_grows hstart
  obtain ⟨-, hstarted⟩ :=
    startReplicationRun_unwritten.state (s := .begin services) ⟨rfl, rfl⟩ hstart
  obtain ⟨-, hread⟩ := getReplicationPlan_unwritten.state (s := s₁) ⟨rfl, rfl⟩ hplan
  have hcopies : copies s₂.sent = [] := hread.trans hstarted
  obtain ⟨hplanned, hsame, hentries⟩ := getReplicationPlan_spec hplan
  obtain ⟨stored, descriptor, hfind, hstate, -, hchunks⟩ := getReplicationPlan_ok hplanned
  constructor
  · rwa [hsame]
  · exact hcopies
  · exact ⟨by rw [hcopies, hzero]; rfl, by rw [hcopies, hzero]; rfl⟩
  · exact (planOf_service hchunks).mono hgrows
  · rw [hsame]
    exact ⟨stored, hfind, hstate⟩
  · exact (Nat.le_add_right _ _).trans hentries

/-! ## An execution -/

theorem copyReplicas_of_copying (h : Copying context request services plan s) :
    RepairEngine.copyReplicas context request (.begin services) =
      (Stateful.forEach (RepairEngine.repairChunk context) plan.chunks >>= fun _ =>
        pure (.copied plan)) s := by
  obtain ⟨run, s₁, s₂, hstart, hincomplete, hplan, rfl⟩ := h
  rw [RepairEngine.copyReplicas, Stateful.bind_of_ok hstart, if_neg hincomplete,
    Stateful.bind_of_ok hplan]
  rfl

theorem copyReplicas_unplanned (h : ∀ plan, ¬Planned context request services plan) :
    copies (RepairEngine.copyReplicas context request (.begin services)).2.sent = [] := by
  cases hrun : RepairEngine.copyReplicas context request (.begin services) with
  | mk result s' =>
      rcases Stateful.bind_eq hrun with ⟨e, hstart, -⟩ | ⟨run, s₁, hstart, hlater⟩
      · exact (startReplicationRun_unwritten.state (s := .begin services) ⟨rfl, rfl⟩ hstart).2
      have hstarted : copies s₁.sent = [] :=
        (startReplicationRun_unwritten.state (s := .begin services) ⟨rfl, rfl⟩ hstart).2
      split at hlater
      · obtain ⟨-, rfl⟩ := Prod.mk.inj hlater
        exact hstarted
      · rename_i hincomplete
        rcases Stateful.bind_eq hlater with ⟨e, hplan, -⟩ | ⟨plan, s₂, hplan, -⟩
        · have hread := getReplicationPlan_unwritten.state (s := s₁) ⟨rfl, rfl⟩ hplan
          exact hread.2.trans hstarted
        · exact absurd ⟨_, run, s₁, s₂, hstart, hincomplete, hplan, rfl⟩ (h plan)

theorem repair_sent :
    copies (RepairEngine.repair context request s).2.sent =
      copies (RepairEngine.copyReplicas context request s).2.sent := by
  cases hcopy : RepairEngine.copyReplicas context request s with
  | mk result s₁ =>
      cases result with
      | error e => rw [RepairEngine.repair, Stateful.bind_of_error hcopy]
      | ok progress =>
          rw [RepairEngine.repair, Stateful.bind_of_ok hcopy]
          cases progress with
          | alreadyCompleted run => rfl
          | copied plan =>
              have hkept : Stateful.Preserves (Unwritten s₁) (do
                  let stats ← Stateful.read RepairState.stats
                  let run ← RepairEngine.completeReplicationRun context request.runId stats
                  pure (RepairEngine.repairResult run)) :=
                .bind (.read _) fun stats => .bind completeReplicationRun_unwritten fun run => .pure _
              exact (hkept s₁ ⟨rfl, rfl⟩).2

theorem copiesOnce_of_unrecordedOnce (hruns : UncountedRuns services.db)
    (h : Copying context request services plan s) (honce : UnrecordedOnce plan)
    {result : Except EngineExc Unit}
    (hloop : Stateful.forEach (RepairEngine.repairChunk context) plan.chunks s = (result, s')) :
    CopiesOnce services s'.sent := by
  obtain ⟨hgrows, hfresh, -, hplanned, -, -⟩ := copyingStarts hruns h
  constructor
  · have hapart : Apart [] s := ⟨by simp [hfresh], by simp [hfresh], by simp [hfresh]⟩
    have hall : PlanOf services ([] ++ plan.chunks) := hplanned
    exact repairChunks_once hapart hall honce hloop
  · exact repairChunks_missing hplanned hgrows (by simp [hfresh]) (fun _ => id) hloop

theorem copiesOnce_nil {sent : List RepairMessage} (h : copies sent = []) :
    CopiesOnce services sent :=
  ⟨by simp [h], by simp [h]⟩

/-! ## The counters -/

theorem completeReplicationRun_spec {runId : UuidV7} {stats : ReplicationStats}
    {run : ReplicationRun}
    (h : RepairEngine.completeReplicationRun context runId stats s = (.ok run, s')) :
    run.state = .completed ∧
      ∃ db', completeReplicationRun context.env s.services.db runId stats = .ok (run, db') := by
  obtain ⟨reply, s₁, hsend, hcheck⟩ := Stateful.bind_eq_ok.mp h
  obtain ⟨hparse, -⟩ := Stateful.check_eq_ok.mp hcheck
  obtain ⟨hreply, -⟩ := Prod.mk.inj hsend
  rw [exchange_ok hreply] at hreply
  rcases serve_cases context.env s.services.db (.completeReplicationRun runId stats) with
    ⟨e, -, hs⟩ | ⟨answer, next, ht, hs⟩
  · rw [serveMetadata, hs] at hreply
    cases hreply
  · obtain ⟨completed, hcomplete, hanswer⟩ := replyWith_eq_ok.mp ht
    rw [serveMetadata, hs] at hreply
    obtain rfl := Except.ok.inj hreply
    simp only at hanswer hcomplete
    subst hanswer
    simp only [MetadataClient.completeReplicationRun, MetadataClient.parseReplicationRun,
      bind_eq_ok, exists_unit, failIf_eq_ok, Decidable.not_not] at hparse
    obtain ⟨parsed, ⟨-, hparsed⟩, -, hstate, hdone⟩ := hparse
    obtain rfl := Except.ok.inj hparsed
    obtain rfl := Except.ok.inj hdone
    exact ⟨hstate, next, hcomplete⟩

theorem stats_of_completed {runId : UuidV7} {stats : ReplicationStats} {run stored : ReplicationRun}
    (hstored : s.services.db.replicationRuns.find? runId = some stored)
    (hopen : stored.state = .open)
    (h : RepairEngine.completeReplicationRun context runId stats s = (.ok run, s')) :
    run.stats = stats := by
  obtain ⟨hstate, db', hcomplete⟩ := completeReplicationRun_spec h
  rcases completeReplicationRun_ok hcomplete with ⟨-, hfind⟩ | ⟨_, -, -, -, -, rfl, -⟩
  · rw [hstored] at hfind
    obtain rfl := Option.some.inj hfind
    rw [hopen] at hstate
    cases hstate
  · rfl

theorem distinctCopies_eq_self {written : List Copy}
    (h : (written.map Copy.replica).Nodup) : distinctCopies written = written :=
  List.pwFilter_eq_self.mpr (List.pairwise_map.mp h)

theorem sum_sizeBytes_le {written : List Copy} {bound : Nat}
    (h : ∀ copy ∈ written, copy.sizeBytes ≤ bound) :
    (written.map Copy.sizeBytes).sum ≤ written.length * bound := by
  induction written with
  | nil => simp
  | cons copy rest ih =>
      have hfirst := h copy (by simp)
      have hrest := ih fun other hother => h other (by simp [hother])
      rw [List.map_cons, List.sum_cons, List.length_cons, Nat.add_mul]
      omega

theorem countsCopies_of_tally (htally : Tally s)
    (hsmall : ∀ copy ∈ copies s.sent, copy.sizeBytes ≤ maxBodyBytes)
    (hlength : (copies s.sent).length ≤ maxBodyBytes * 8)
    (honce : ((copies s.sent).map Copy.replica).Nodup) : CountsCopies s.stats s.sent := by
  have hsum := sum_sizeBytes_le hsmall
  have hproduct := Nat.mul_le_mul_right maxBodyBytes hlength
  simp only [maxBodyBytes] at hlength hsum hproduct
  constructor
  · rw [distinctCopies_eq_self honce, htally.written]
    exact Nat.mod_eq_of_lt (by omega)
  · rw [distinctCopies_eq_self honce, htally.bytes]
    exact Nat.mod_eq_of_lt (by omega)

theorem repair_of_copying {result : RepairResult} (h : Copying context request services plan s)
    (hrepair : RepairEngine.repair context request (.begin services) = (.ok result, s')) :
    ∃ s₁ run, Stateful.forEach (RepairEngine.repairChunk context) plan.chunks s = (.ok (), s₁) ∧
      RepairEngine.completeReplicationRun context request.runId s₁.stats s₁ = (.ok run, s') ∧
      result.stats = run.stats := by
  obtain ⟨progress, s₁, hcopy, hfinish⟩ := Stateful.bind_eq_ok.mp hrepair
  rw [copyReplicas_of_copying h] at hcopy
  obtain ⟨u, s₂, hloop, hcopied⟩ := Stateful.bind_eq_ok.mp hcopy
  obtain ⟨rfl, rfl⟩ := (Stateful.pure_eq _ _ _ _).mp hcopied
  obtain ⟨stats, s₃, hread, hfinish⟩ := Stateful.bind_eq_ok.mp hfinish
  obtain ⟨rfl, rfl⟩ := Stateful.read_eq_ok.mp hread
  obtain ⟨run, s₄, hcomplete, hresult⟩ := Stateful.bind_eq_ok.mp hfinish
  obtain ⟨rfl, rfl⟩ := (Stateful.pure_eq _ _ _ _).mp hresult
  exact ⟨_, run, hloop, hcomplete, rfl⟩

/-- Whatever fails on the way, a repair of a plan without repeated unrecorded replicas puts
each replica at most once and only where it was missing; a repair that returns does so and
counts it exactly on these plans. -/
theorem repair_copies_once_iff (hruns : UncountedRuns services.db) :
    ((∀ plan, Planned context request services plan → UnrecordedOnce plan) →
      CopiesOnce services (RepairEngine.repair context request (.begin services)).2.sent) ∧
    ∀ result s', RepairEngine.repair context request (.begin services) = (.ok result, s') →
      ∀ plan, Planned context request services plan →
        (CopiesOnce services s'.sent ∧ CountsCopies result.stats s'.sent ↔
          UnrecordedOnce plan) := by
  constructor
  · intro honce
    have hsent := @repair_sent context request (.begin services)
    by_cases hplanned : ∃ plan, Planned context request services plan
    · obtain ⟨plan, s, h⟩ := hplanned
      cases hloop : Stateful.forEach (RepairEngine.repairChunk context) plan.chunks s with
      | mk result s' =>
          have hcopies := copiesOnce_of_unrecordedOnce hruns h (honce plan ⟨s, h⟩) hloop
          have hstate : (RepairEngine.copyReplicas context request (.begin services)).2 = s' := by
            rw [copyReplicas_of_copying h]
            cases result with
            | error e => rw [Stateful.bind_of_error hloop]
            | ok u =>
                rw [Stateful.bind_of_ok hloop]
                rfl
          rw [hstate] at hsent
          exact ⟨hsent ▸ hcopies.once, hsent ▸ hcopies.missing⟩
    · have hnone := copyReplicas_unplanned fun plan h => hplanned ⟨plan, h⟩
      exact copiesOnce_nil (hsent.trans hnone)
  · rintro result s' hrepair plan ⟨s, h⟩
    obtain ⟨s₁, run, hloop, hcomplete, hresult⟩ := repair_of_copying h hrepair
    obtain ⟨-, hfresh, htally, hplanned, ⟨stored, hstored, hopen⟩, hsize⟩ := copyingStarts hruns h
    obtain ⟨written, hputs, hunrecorded, hsmall, hlength, hcounted⟩ :=
      repairChunks_written (fun chunkPlan hmem => (hplanned.desired chunkPlan hmem).2) hloop
    have hsent : copies s'.sent = copies s₁.sent :=
      (completeReplicationRun_unwritten.state (s := s₁) ⟨rfl, rfl⟩ hcomplete).2
    have hwritten : copies s₁.sent = written := by rw [hputs.copies, hfresh, List.nil_append]
    have hstats : result.stats = s₁.stats := by
      rw [hresult]
      exact stats_of_completed (hputs.runs ▸ hstored) hopen hcomplete
    constructor
    · rintro ⟨⟨honce, -⟩, -⟩
      rw [hsent, hwritten] at honce
      exact honce.sublist hunrecorded
    · intro honce
      obtain ⟨hdistinct, hmissing⟩ := copiesOnce_of_unrecordedOnce hruns h honce hloop
      have hcounts : CountsCopies s₁.stats s₁.sent := by
        refine countsCopies_of_tally (hcounted htally) ?_ ?_ hdistinct
        · rwa [hwritten]
        · rw [hwritten]
          exact hlength.trans (Nat.mul_le_mul_right 8 hsize)
      rw [hstats]
      refine ⟨⟨?_, ?_⟩, ?_, ?_⟩
      · rwa [hsent]
      · rwa [hsent]
      · rw [hsent]
        exact hcounts.written
      · rw [hsent]
        exact hcounts.bytes

end

/-! ## A chunk at two positions -/

namespace Sample

open Metadata.Sample

def repeatedDescriptor : ObjectLayoutDescriptor :=
  { object := ⟨⟨0x961b6dd3ede3cb8ecbaacbd68de040cd78eb2ed5889130cceb4c49268ea4d506#256⟩, 2⟩
    chunking := .fixedSize
    layout := ⟨[⟨chunkId, 0, 1⟩, ⟨chunkId, 1, 1⟩], by decide⟩
    chunkingValid := LayoutChunking.validate_fixedSize
    sizeMatches := rfl }

def repeatedSession : UploadSession :=
  { session with
    chunking := .fixedSize 1
    valid := by decide +kernel }

def repeatedVersion : ArtifactVersion :=
  sessionVersion repeatedSession repeatedDescriptor.objectId

def repeatedSha256 (bytes : List UInt8) : BitVec 256 :=
  if bytes = repeatedDescriptor.canonicalBytes then
    0x91de27c37c4bab7b6713ae6ad19ca92810d694c68f1dca349ddd11bc046f726a#256
  else if bytes = repeatedVersion.canonicalBytes then
    0x6930fdd8090cfb3e57c3fc437b0789d4395f6901aed17201cb7cc90d3fbf9483#256
  else if bytes = placementPrefix ++ [0] ++ chunkId.hexBytes ++ [0] ++ "n2".toUTF8.toList then
    0xa2e5ffdb7105501404ff29b39d3ed12b1fbcd542177104d87f9f0bbecb52c4ae#256
  else sha256 bytes

def repeatedEnv : Environment := { env with sha256 := repeatedSha256 }

def repeatedOps : List ServiceOp :=
  [.createArtifact artifact,
   .registerStorageNode node,
   .createUploadSession ⟨repeatedSession, .open⟩,
   .negotiateChunks [⟨chunkId, 1⟩],
   .registerStorageLocation location,
   .finalizeUpload 0 repeatedSession.sessionId repeatedDescriptor,
   .registerStorageNode spare]

def repeatedServices : Services :=
  { db := afterOps repeatedEnv Db.initial repeatedOps
    stores := fun nodeId =>
      if nodeId = "n1" then Table.empty.upsert ⟨chunkId, .regular (asciiBytes ['a'])⟩
      else .empty }

def repeatedContext : RepairContext := { repairContext with env := repeatedEnv }

def repeatedRequest : RepairRequest := ⟨uuid 3, repeatedVersion.versionId repeatedEnv, 2⟩

def repeatedResult : RepairResult :=
  { runId := uuid 3
    versionId := repeatedVersion.versionId repeatedEnv
    layoutId := repeatedDescriptor.layoutId repeatedEnv
    replicationFactor := 2
    stats :=
      { chunksScanned := 2
        chunksUnderReplicated := 2
        replicasVerified := 2
        replicasWritten := 2
        bytesCopied := 2
        sourceFailovers := 0 } }

end Sample

/-- A chunk at two positions that misses one replica is put there twice and counted twice. -/
theorem repair_copies_twice :
    Reachable Sample.repeatedEnv Sample.repeatedServices.db ∧
      (RepairEngine.repair Sample.repeatedContext Sample.repeatedRequest
        (.begin Sample.repeatedServices)).1 = .ok Sample.repeatedResult ∧
      copies (RepairEngine.repair Sample.repeatedContext Sample.repeatedRequest
          (.begin Sample.repeatedServices)).2.sent =
        [⟨Metadata.Sample.chunkId, "n2", 1⟩, ⟨Metadata.Sample.chunkId, "n2", 1⟩] ∧
      ¬CopiesOnce Sample.repeatedServices (RepairEngine.repair Sample.repeatedContext
        Sample.repeatedRequest (.begin Sample.repeatedServices)).2.sent ∧
      ¬CountsCopies Sample.repeatedResult.stats (RepairEngine.repair Sample.repeatedContext
        Sample.repeatedRequest (.begin Sample.repeatedServices)).2.sent := by
  have hcopies : copies (RepairEngine.repair Sample.repeatedContext Sample.repeatedRequest
      (.begin Sample.repeatedServices)).2.sent =
        [⟨Metadata.Sample.chunkId, "n2", 1⟩, ⟨Metadata.Sample.chunkId, "n2", 1⟩] := by
    decide +kernel
  refine ⟨reachable_afterOps _ _, by decide +kernel, hcopies, ?_, ?_⟩
  · rintro ⟨honce, -⟩
    rw [hcopies] at honce
    exact absurd honce (by decide)
  · rintro ⟨hwritten, -⟩
    rw [hcopies] at hwritten
    exact absurd hwritten (by decide)

theorem repair_copies_once_iff_sample :
    ((∀ plan, Planned Sample.repairContext Sample.repairRequest
          Sample.underReplicated.services plan → UnrecordedOnce plan) →
      CopiesOnce Sample.underReplicated.services (RepairEngine.repair Sample.repairContext
        Sample.repairRequest (.begin Sample.underReplicated.services)).2.sent) ∧
    ∀ result s', RepairEngine.repair Sample.repairContext Sample.repairRequest
        (.begin Sample.underReplicated.services) = (.ok result, s') →
      ∀ plan, Planned Sample.repairContext Sample.repairRequest
          Sample.underReplicated.services plan →
        (CopiesOnce Sample.underReplicated.services s'.sent ∧
          CountsCopies result.stats s'.sent ↔ UnrecordedOnce plan) :=
  repair_copies_once_iff (uncountedRuns_of_reachable (reachable_afterOps _ _))

end AiArtifactStore.Replication
