import AiArtifactStore.Metadata.MaintenanceSpec
import AiArtifactStore.Metadata.Service
import AiArtifactStore.Metadata.UploadSpec

/-!
# The effect of one transaction

`Effect` lists everything a committed operation can do to the database, with
what the operation has checked.  Each invariant is a case analysis of it.
-/

namespace AiArtifactStore.Metadata

open AiArtifactStore.Foundation
open AiArtifactStore.Identity

def manifestRow (env : Environment) (manifest : Manifest) : ManifestRow :=
  { manifestId := manifest.manifestId env
    descriptorVersion := Manifest.formatVersion
    canonicalDescriptor := manifest.canonicalBytes
    entryCount := manifest.entries.entries.length
    entryRows := manifest.entries.entries }

inductive Effect (env : Environment) (db : Db) : ServiceOp → Db → Prop where
  | unchanged {op : ServiceOp} : Effect env db op db
  | artifactCreated {artifact : Artifact} :
      Effect env db (.createArtifact artifact)
        { db with artifacts := db.artifacts.insert artifact }
  | nodeRegistered {node : StorageNode} :
      Effect env db (.registerStorageNode node)
        { db with storageNodes := db.storageNodes.upsert node.stored }
  | locationRegistered {location : StorageLocation} :
      db.chunks.find? location.chunkId ≠ none →
      Effect env db (.registerStorageLocation location)
        { db with storageLocations := db.storageLocations.upsert location.stored }
  | chunksNegotiated {chunks inserted : List ChunkMetadata} :
      Effect env db (.negotiateChunks chunks) (insertChunks db inserted)
  | sessionOpened {requested : SessionRow} :
      SessionOpened db requested.session →
      Effect env db (.createUploadSession requested)
        { db with uploadSessions := db.uploadSessions.insert ⟨requested.session, .open⟩ }
  | sessionAborted {sessionId : UuidV7} {row : SessionRow} :
      row ∈ db.uploadSessions → row.status = .open →
      Effect env db (.abortUploadSession sessionId)
        { db with uploadSessions := db.uploadSessions.upsert { row with status := .aborted } }
  | finalized {now createdAt : Int} {row : SessionRow} {d : ObjectLayoutDescriptor}
      {table : Table ChunkMetadata.chunkId} :
      Finalizes env db row d createdAt table →
      Effect env db (.finalizeUpload now row.sessionId d)
        (finalizedDb env db row d createdAt table)
  | tagged {artifactId : UuidV7} {tagName : String} {versionId : ContentId} :
      ¬db.Retired versionId →
      Effect env db (.setTag artifactId tagName versionId)
        { db with tags := db.tags.upsert ⟨artifactId, tagName, versionId⟩ }
  | manifestRegistered {manifest : Manifest} :
      (∀ entry ∈ manifest.entries.entries, ¬db.Retired entry.2) →
      Effect env db (.registerManifest manifest)
        { db with manifests := db.manifests.insert (manifestRow env manifest) }
  | pinned {versionId : ContentId} {reason : String} :
      ¬db.Retired versionId →
      Effect env db (.pinVersion versionId reason)
        { db with pins := db.pins.upsert ⟨versionId, cString reason⟩ }
  | unpinned {versionId : ContentId} :
      Effect env db (.unpinVersion versionId)
        { db with pins := db.pins.filter fun row => row.versionId ≠ versionId }
  | gcStarted {run : GcRun} :
      GcStarts db run →
      Effect env db (.startGcRun run) { db with gcRuns := db.gcRuns.insert run }
  | gcCompleted {run completed : GcRun} {stats : GcPhysicalStats} :
      GcCompletes db run completed →
      Effect env db (.completeGcRun run.runId stats) (completedGcDb db run completed)
  | replicationStarted {run : ReplicationRun} :
      ReplicationStarts env db run →
      Effect env db (.startReplicationRun run.runId run.versionId run.replicationFactor)
        { db with replicationRuns := db.replicationRuns.insert run }
  | replicationCompleted {run : ReplicationRun} {stats : ReplicationStats} :
      db.replicationRuns.find? run.runId = some run → run.state = .open →
      db.hasOpenGcRun = false →
      Effect env db (.completeReplicationRun run.runId stats)
        { db with replicationRuns :=
            db.replicationRuns.upsert { run with state := .completed, stats := stats } }
  | policyRegistered {policy : LifecyclePolicy} :
      Effect env db (.registerLifecyclePolicy policy)
        { db with lifecyclePolicies := db.lifecyclePolicies.insert policy.stored }
  | lifecycleRan {run : LifecycleRun} {decisions : List LifecycleDecision}
      {retirements : Table RetirementRow.versionId} {evaluatedAtMs : Int} :
      LifecycleStarts db run.runId → Retires db retirements →
      Effect env db (.runLifecycle run.runId run.policyId run.mode evaluatedAtMs)
        { db with
          lifecycleRuns := db.lifecycleRuns.insert ⟨run, decisions⟩
          retirements := retirements }

variable {env : Environment} {db db' : Db}

theorem registerManifest_ok {manifest : Manifest} (h : registerManifest env db manifest = .ok db') :
    db' = db ∨ ((∀ entry ∈ manifest.entries.entries, ¬db.Retired entry.2) ∧
      db' = { db with manifests := db.manifests.insert (manifestRow env manifest) }) := by
  simp only [registerManifest, bind_eq_ok, exists_unit, failIf_eq_ok, toPostgresBigint_eq_ok,
    not_exists, not_and, Db.isVersionRetired_iff] at h
  obtain ⟨hretired, count, ⟨-, rfl⟩, inserted, hinsert, -, h⟩ := h
  obtain rfl := Except.ok.inj h
  unfold insertManifest at hinsert
  split at hinsert
  · exact .inl (Except.ok.inj hinsert).symm
  · simp only [bind_eq_ok, exists_unit] at hinsert
    exact .inr ⟨hretired, (Except.ok.inj hinsert.2).symm⟩

theorem transact_effect {op : ServiceOp} {reply : Reply}
    (h : transact env db op = .ok (reply, db')) : Effect env db op db' := by
  cases op with
  | createArtifact artifact =>
      obtain ⟨h, -⟩ := done_eq_ok.mp h
      simp only [createArtifact, bind_eq_ok, exists_unit] at h
      obtain rfl := Except.ok.inj h.2.2
      exact .artifactCreated
  | registerStorageNode node =>
      obtain ⟨h, -⟩ := done_eq_ok.mp h
      simp only [registerStorageNode, bind_eq_ok, exists_unit] at h
      obtain rfl := Except.ok.inj h.2.2.2.2.2
      exact .nodeRegistered
  | registerStorageLocation location =>
      obtain ⟨h, -⟩ := done_eq_ok.mp h
      simp only [registerStorageLocation, bind_eq_ok, exists_unit, failIf_eq_ok] at h
      obtain ⟨-, -, -, -, hchunk, h⟩ := h
      obtain rfl := Except.ok.inj h
      exact .locationRegistered hchunk
  | negotiateChunks chunks =>
      obtain ⟨batch, h, -⟩ := replyWith_eq_ok.mp h
      rcases negotiateChunks_ok h with rfl | ⟨inserted, rfl⟩
      · exact .unchanged
      · exact .chunksNegotiated
  | createUploadSession requested =>
      obtain ⟨h, -⟩ := done_eq_ok.mp h
      rcases createUploadSession_ok h with rfl | ⟨hopened, rfl⟩
      · exact .unchanged
      · exact .sessionOpened hopened
  | abortUploadSession sessionId =>
      obtain ⟨h, -⟩ := done_eq_ok.mp h
      rcases abortUploadSession_ok h with rfl | ⟨row, hrow, hopen, rfl⟩
      · exact .unchanged
      · exact .sessionAborted hrow hopen
  | finalizeUpload now sessionId d =>
      obtain ⟨result, h, -⟩ := replyWith_eq_ok.mp h
      rcases finalizeUpload_ok h with ⟨rfl, -⟩ | ⟨row, createdAt, table, rfl, -, hfinalizes, rfl⟩
      · exact .unchanged
      · exact .finalized hfinalizes
  | setTag artifactId tagName versionId =>
      obtain ⟨h, -⟩ := done_eq_ok.mp h
      simp only [setTag, bind_eq_ok, exists_unit, failIf_eq_ok, Db.isVersionRetired_iff] at h
      obtain ⟨-, hretired, -, -, h⟩ := h
      obtain rfl := Except.ok.inj h
      exact .tagged hretired
  | registerManifest manifest =>
      obtain ⟨h, -⟩ := done_eq_ok.mp h
      rcases registerManifest_ok h with rfl | ⟨hretired, rfl⟩
      · exact .unchanged
      · exact .manifestRegistered hretired
  | pinVersion versionId reason =>
      obtain ⟨h, -⟩ := done_eq_ok.mp h
      simp only [pinVersion, bind_eq_ok, exists_unit, failIf_eq_ok, Db.isVersionRetired_iff] at h
      obtain ⟨-, _, -, _, -, -, hretired, -, h⟩ := h
      obtain rfl := Except.ok.inj h
      exact .pinned hretired
  | unpinVersion versionId =>
      obtain ⟨-, rfl⟩ := Prod.ext_iff.mp (Except.ok.inj h)
      exact .unpinned
  | resolveRestorePlan versionId sourceNodeId =>
      obtain ⟨rfl, -⟩ := readOnly_eq_ok.mp h
      exact .unchanged
  | resolveMultiNodeRestorePlan versionId =>
      obtain ⟨rfl, -⟩ := readOnly_eq_ok.mp h
      exact .unchanged
  | startGcRun requested =>
      obtain ⟨run, h, -⟩ := replyWith_eq_ok.mp h
      rcases startGcRun_ok h with ⟨rfl, -⟩ | ⟨hstarts, -, rfl⟩
      · exact .unchanged
      · exact .gcStarted hstarts
  | classifyGcChunks runId chunkIds =>
      obtain ⟨rfl, -⟩ := readOnly_eq_ok.mp h
      exact .unchanged
  | completeGcRun runId stats =>
      obtain ⟨result, h, -⟩ := replyWith_eq_ok.mp h
      rcases completeGcRun_ok h with ⟨rfl, -⟩ | ⟨run, rfl, hcompletes, rfl⟩
      · exact .unchanged
      · exact .gcCompleted hcompletes
  | startReplicationRun runId versionId replicationFactor =>
      obtain ⟨run, h, -⟩ := replyWith_eq_ok.mp h
      rcases startReplicationRun_ok h with ⟨rfl, -⟩ | ⟨rfl, rfl, rfl, hstarts, rfl⟩
      · exact .unchanged
      · exact .replicationStarted hstarts
  | getReplicationPlan runId =>
      obtain ⟨rfl, -⟩ := readOnly_eq_ok.mp h
      exact .unchanged
  | completeReplicationRun runId stats =>
      obtain ⟨result, h, -⟩ := replyWith_eq_ok.mp h
      rcases completeReplicationRun_ok h with ⟨rfl, -⟩ | ⟨run, rfl, hfind, hopen, hgc, rfl, rfl⟩
      · exact .unchanged
      · exact .replicationCompleted hfind hopen hgc
  | registerLifecyclePolicy policy =>
      obtain ⟨h, -⟩ := done_eq_ok.mp h
      simp only [registerLifecyclePolicy, bind_eq_ok, exists_unit] at h
      obtain ⟨-, h⟩ := h
      split at h
      · split at h
        · obtain rfl := Except.ok.inj h
          exact .unchanged
        · cases h
      · simp only [bind_eq_ok, exists_unit] at h
        obtain rfl := Except.ok.inj h.2
        exact .policyRegistered
  | runLifecycle runId policyId mode evaluatedAtMs =>
      obtain ⟨run, h, -⟩ := replyWith_eq_ok.mp h
      rcases runLifecycle_ok h with ⟨rfl, -⟩ |
        ⟨decisions, retirements, rfl, rfl, rfl, hstarts, hretires, rfl⟩
      · exact .unchanged
      · exact .lifecycleRan hstarts hretires

theorem serve_effect (env : Environment) (db : Db) (op : ServiceOp) :
    Effect env db op (serve env db op).2 := by
  rcases serve_cases env db op with ⟨e, -, hs⟩ | ⟨reply, next, ht, hs⟩
  · rw [hs]
    exact .unchanged
  · rw [hs]
    exact transact_effect ht

theorem serviceStep_effect {allowed : ServiceOp → Prop} (h : ServiceStep env allowed db db') :
    ∃ op, allowed op ∧ Effect env db op db' := by
  obtain ⟨op, hop, rfl⟩ := h
  exact ⟨op, hop, serve_effect env db op⟩

theorem reachable_invariant {P : Db → Prop} (hinitial : P Db.initial)
    (heffect : ∀ db op db', Effect env db op db' → P db → P db') (h : Reachable env db) : P db :=
  invariant_of_step (fun _ _ hs hp => by
    obtain ⟨op, -, he⟩ := serviceStep_effect hs
    exact heffect _ op _ he hp) h hinitial

/-! ## Version rows -/

theorem version_finalized {row : SessionRow} {d : ObjectLayoutDescriptor} {createdAt : Int}
    {table : Table ChunkMetadata.chunkId} (h : Finalizes env db row d createdAt table)
    {version : VersionRow} (hversion : version ∈ db.artifactVersions) :
    ∃ version' ∈ (finalizedDb env db row d createdAt table).artifactVersions,
      version' = { version with state := version'.state } := by
  by_cases hid : version.versionId = (finalVersion row d).versionId env
  · have hfind := Table.find?_of_mem hversion
    rcases h.version with ⟨hnone, -, -⟩ | ⟨state, hsome⟩
    · rw [hid, hnone] at hfind
      cases hfind
    · rw [hid, hsome] at hfind
      obtain rfl := Option.some.inj hfind
      exact ⟨versionRow env createdAt (finalVersion row d), Table.mem_upsert_self, rfl⟩
  · exact ⟨version, Table.mem_upsert.mpr (.inr ⟨hversion, hid⟩), rfl⟩

theorem version_effect {op : ServiceOp} (he : Effect env db op db') {version : VersionRow}
    (h : version ∈ db.artifactVersions) :
    ∃ version' ∈ db'.artifactVersions, version' = { version with state := version'.state } := by
  cases he with
  | finalized hfinalizes => exact version_finalized hfinalizes h
  | @gcCompleted run completed stats hcompletes =>
      obtain ⟨_, _, _, _, _, heq⟩ := completedGcDb_frame db run completed
      rw [heq]
      exact ⟨version, h, rfl⟩
  | _ => exact ⟨version, h, rfl⟩

end AiArtifactStore.Metadata
