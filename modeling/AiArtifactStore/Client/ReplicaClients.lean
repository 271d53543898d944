import AiArtifactStore.Client.Growth

/-!
# Clients of repair and restore

Reading a chunk from a storage node, and the requests of a replication run.
-/

namespace AiArtifactStore.Client

open AiArtifactStore.Foundation
open AiArtifactStore.Identity
open AiArtifactStore.Metadata
open AiArtifactStore.Storage

def EngineExc.isRemoteError : EngineExc → Bool
  | .client (.remoteApi _) => true
  | .client (.storageApi _) => true
  | .client (.remoteProtocol _) => true
  | .negotiation _ => true
  | .unexpectedStatus => true
  | _ => false

/-- What a request for a chunk throws: an error of `HttpClient` or of the response. -/
def EngineExc.isRequestError : EngineExc → Bool
  | .client (.transport _) => true
  | e => e.isRemoteError

namespace StorageNodeClient

def getChunk (env : Environment) (chunkId : ContentId) :
    Except EngineExc StorageReply → Except EngineExc (Option (List UInt8))
  | .error (.client (.storageApi .chunkNotFound)) => .ok none
  | .error e => .error e
  | .ok (.content bytes) => do
      failIf (env.contentId bytes ≠ chunkId)
        (.remoteProtocol "chunk response digest does not match requested chunk_id")
      .ok (some bytes)
  | .ok .noContent => .error .unexpectedStatus
  | .ok _ =>
      .error (.remoteProtocol "chunk response Content-Type must be application/octet-stream")

theorem contentId_of_getChunk {env : Environment} {chunkId : ContentId}
    {response : Except EngineExc StorageReply} {bytes : List UInt8}
    (h : getChunk env chunkId response = .ok (some bytes)) : env.contentId bytes = chunkId := by
  unfold getChunk at h
  split at h
  · cases h
  · cases h
  · simp only [bind_eq_ok, exists_unit, failIf_eq_ok, Decidable.not_not] at h
    obtain ⟨hid, h⟩ := h
    obtain rfl := Option.some.inj (Except.ok.inj h)
    exact hid
  · cases h
  · cases h

theorem getChunk_eq_some {env : Environment} {chunkId : ContentId}
    {response : Except EngineExc StorageReply} {bytes : List UInt8} :
    getChunk env chunkId response = .ok (some bytes) ↔
      response = .ok (.content bytes) ∧ env.contentId bytes = chunkId := by
  constructor
  · intro h
    refine ⟨?_, contentId_of_getChunk h⟩
    unfold getChunk at h
    split at h
    · cases h
    · cases h
    · simp only [bind_eq_ok, exists_unit] at h
      rw [Option.some.inj (Except.ok.inj h.2)]
    · cases h
    · cases h
  · rintro ⟨rfl, rfl⟩
    simp [getChunk, failIf]

theorem isRequestError_of_getChunk {env : Environment} {chunkId : ContentId}
    {response : Except EngineExc StorageReply} {e : EngineExc}
    (hresponse : ∀ e, response = .error e → e.isRequestError = true)
    (h : getChunk env chunkId response = .error e) : e.isRequestError = true := by
  unfold getChunk at h
  split at h
  · cases h
  · obtain rfl := Except.error.inj h
    exact hresponse _ rfl
  · rename_i bytes
    by_cases hid : env.contentId bytes ≠ chunkId
    · rw [failIf_of_true hid] at h
      obtain rfl := Except.error.inj h
      rfl
    · rw [failIf_of_false hid] at h
      cases h
  · obtain rfl := Except.error.inj h
    rfl
  · obtain rfl := Except.error.inj h
    rfl

end StorageNodeClient

/-! ## Replication runs -/

def serveMetadata (env : Environment) (db : Db) (op : ServiceOp) : Except EngineExc Reply × Db :=
  ((serve env db op).1.mapError fun e => .client (.remoteApi e), (serve env db op).2)

namespace MetadataClient

def parseReplicationRun : Reply → Except EngineExc ReplicationRun
  | .replicationRun run => do
      failIf (run.replicationFactor < 1 ∨ run.replicationFactor > 8)
        (.remoteProtocol "replication run replication_factor is invalid")
      .ok run
  | _ => .error (.remoteProtocol "replication run response has unexpected fields")

/-- The checks of `start_replication_run` before its request. -/
def checkReplicationFactor (replicationFactor : Nat) : Except EngineExc Unit :=
  failIf (replicationFactor < 1 ∨ replicationFactor > 8)
    (.invalidArgument "replication_factor must be between 1 and 8")

def startReplicationRun (runId : UuidV7) (reply : Reply) : Except EngineExc ReplicationRun := do
  let run ← parseReplicationRun reply
  failIf (run.runId ≠ runId)
    (.remoteProtocol "replication run response run_id does not match request")
  .ok run

def getReplicationPlan : Reply → Except EngineExc ReplicationPlan
  | .replicationPlan plan => do
      failIf (plan.replicationFactor < 1 ∨ plan.replicationFactor > 8)
        (.remoteProtocol "replication plan replication_factor is invalid")
      .ok plan
  | _ => .error (.remoteProtocol "replication plan response has unexpected fields")

def completeReplicationRun (runId : UuidV7) (reply : Reply) :
    Except EngineExc ReplicationRun := do
  let run ← parseReplicationRun reply
  failIf (run.runId ≠ runId)
    (.remoteProtocol "replication run response run_id does not match request")
  failIf (run.state ≠ .completed)
    (.remoteProtocol "replication run response state is not completed")
  .ok run

variable {env : Environment} {db : Db}

theorem startReplicationRun_response {runId : UuidV7} {versionId : ContentId}
    {replicationFactor : Nat} {reply : Reply} {run : ReplicationRun}
    (hreply : (serveMetadata env db
      (.startReplicationRun runId versionId replicationFactor)).1 = .ok reply)
    (h : startReplicationRun runId reply = .ok run) :
    Metadata.startReplicationRun env db runId versionId replicationFactor =
      .ok (run, (serveMetadata env db
        (.startReplicationRun runId versionId replicationFactor)).2) := by
  rcases serve_cases env db (.startReplicationRun runId versionId replicationFactor) with
    ⟨e, -, hs⟩ | ⟨answer, next, ht, hs⟩
  · rw [serveMetadata, hs] at hreply
    cases hreply
  · obtain ⟨started, hstart, hanswer⟩ := replyWith_eq_ok.mp ht
    rw [serveMetadata, hs] at hreply ⊢
    obtain rfl := Except.ok.inj hreply
    simp only at hanswer hstart
    subst hanswer
    simp only [startReplicationRun, parseReplicationRun, bind_eq_ok, exists_unit] at h
    obtain ⟨parsed, ⟨-, hparsed⟩, -, h⟩ := h
    obtain rfl := Except.ok.inj hparsed
    obtain rfl := Except.ok.inj h
    exact hstart

theorem getReplicationPlan_response {runId : UuidV7} {reply : Reply} {plan : ReplicationPlan}
    (hreply : (serveMetadata env db (.getReplicationPlan runId)).1 = .ok reply)
    (h : getReplicationPlan reply = .ok plan) :
    Metadata.getReplicationPlan env db runId = .ok plan ∧
      (serveMetadata env db (.getReplicationPlan runId)).2 = db := by
  rcases serve_cases env db (.getReplicationPlan runId) with ⟨e, -, hs⟩ | ⟨answer, next, ht, hs⟩
  · rw [serveMetadata, hs] at hreply
    cases hreply
  · obtain ⟨hdb, planned, hplan, hanswer⟩ := readOnly_eq_ok.mp ht
    rw [serveMetadata, hs] at hreply ⊢
    obtain rfl := Except.ok.inj hreply
    simp only at hanswer hdb
    subst hanswer
    simp only [getReplicationPlan, bind_eq_ok, exists_unit] at h
    obtain rfl := Except.ok.inj h.2
    exact ⟨hplan, hdb⟩

end MetadataClient

end AiArtifactStore.Client
