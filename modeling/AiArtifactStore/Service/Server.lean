import AiArtifactStore.Foundation.JsonCode
import AiArtifactStore.Foundation.Sessions
import AiArtifactStore.Metadata.Histories
import AiArtifactStore.Service.Requests

/-!
# The HTTP server of the metadata service

The handlers hold the mutex of the repository while they use it, so a request is one
critical section.  Exceptions become responses of the server, and bodies over the limit
never reach a handler.
-/

namespace AiArtifactStore.Service

open AiArtifactStore.Foundation
open AiArtifactStore.Identity
open AiArtifactStore.Metadata

inductive HttpResponse where
  | payloadTooLarge
  | internalServerError
  | failed (failure : Failure)
  | succeeded (payload : Payload)

def toResponse : Except Stop Payload → HttpResponse
  | .ok payload => .succeeded payload
  | .error (.respond failure) => .failed failure
  | .error (.throw _) => .internalServerError

def kMaxRequestBodyBytes : Nat := 8 * 1024 * 1024

section

variable (env : Environment) (json : JsonLibrary (List UInt8))

def metadataServer : ServerConfig Clock Db Request HttpResponse where
  handler clock request db :=
    let answer := handleRequest env json clock request db
    (toResponse answer.1, answer.2)
  accepts request := request.body.length ≤ kMaxRequestBodyBytes
  payloadTooLarge := .payloadTooLarge

variable {env json}

theorem toResponse_succeeded {result : Except Stop Payload} {payload : Payload} :
    toResponse result = .succeeded payload ↔ result = .ok payload := by
  rcases result with (failure | e) | value <;> simp [toResponse]

theorem metadataServer_changes {clock : Clock} {request : Request} {db : Db}
    (h : ((metadataServer env json).handler clock request db).2 ≠ db) :
    request.method ≠ .get ∧
      (∃ payload, ((metadataServer env json).handler clock request db).1 = .succeeded payload) ∧
      Commits env db ((metadataServer env json).handler clock request db).2 := by
  rcases handleRequest_commits_once with hsame | ⟨hmethod, ⟨payload, hpayload⟩, hcommits⟩
  · exact absurd hsame h
  · exact ⟨hmethod, ⟨payload, toResponse_succeeded.mpr hpayload⟩, hcommits⟩

/-- The event is a request that succeeded by one operation that its state commits. -/
def Performed (env : Environment) (json : JsonLibrary (List UInt8)) (state : Db)
    (before : List (Event Clock Request)) (event : Event Clock Request) : Prop :=
  ∃ id clock request, event = .handled id clock request ∧ request.method ≠ .get ∧
    (∃ payload, ((metadataServer env json).handler clock request
      (Server.replay (metadataServer env json) state before)).1 = .succeeded payload) ∧
    Commits env (Server.replay (metadataServer env json) state before)
      (Server.replay (metadataServer env json) state (before ++ [event]))

theorem evolves_handler {clock : Clock} {request : Request} {db : Db} :
    Evolves env ServiceOp.Routed db ((metadataServer env json).handler clock request db).2 := by
  by_cases hsame : ((metadataServer env json).handler clock request db).2 = db
  · rw [hsame]
    exact Relation.ReflTransGen.refl
  · obtain ⟨-, -, op, reply, hop, htransact⟩ := metadataServer_changes hsame
    exact Relation.ReflTransGen.single ⟨op, hop, by rw [serve, htransact]; rfl⟩

theorem evolves_perform {event : Event Clock Request} {db : Db} :
    Evolves env ServiceOp.Routed db (Server.perform (metadataServer env json) db event) := by
  cases event with
  | read id request => exact Relation.ReflTransGen.refl
  | handled id clock request => exact evolves_handler

theorem evolves_replay (state : Db) (events : List (Event Clock Request)) :
    Evolves env ServiceOp.Routed state (Server.replay (metadataServer env json) state events) := by
  induction events generalizing state with
  | nil => exact Relation.ReflTransGen.refl
  | cons event rest ih => exact evolves_perform.trans (ih _)

/-- However the connections interleave, the metadata are those that the successful requests
leave one after another, each by one service operation, and every response on a connection is
the one of the request that was read on it, at its place among the events. -/
theorem server_serializable {start server : Server Db Request HttpResponse}
    {events : List (Event Clock Request)} (hfresh : start.Fresh)
    (hrun : Server.Runs (metadataServer env json) start events server) :
    (∃ kept : List (Event Clock Request), kept.Sublist events ∧
      server.state = Server.replay (metadataServer env json) start.state kept ∧
      ∀ before event after, kept = before ++ event :: after →
        Performed env json start.state before event) ∧
      Evolves env ServiceOp.Routed start.state server.state ∧
      ∀ id response, server.sessions id = .writing response →
        Server.Explained (metadataServer env json) start.state events id response := by
  have hserializes := hrun.serializes hfresh
  obtain ⟨kept, hsub, hsame, hchanges⟩ :=
    Server.replay_changes (metadataServer env json) start.state events
  refine ⟨⟨kept, hsub, hserializes.state.trans hsame.symm, ?_⟩, ?_, fun id response hwriting => ?_⟩
  · intro before event after hkept
    have hchange := hchanges before event after hkept
    have hlast : Server.replay (metadataServer env json) start.state (before ++ [event]) =
        Server.perform (metadataServer env json)
          (Server.replay (metadataServer env json) start.state before) event :=
      Server.replay_append
    cases event with
    | read id request => exact absurd rfl hchange
    | handled id clock request =>
        refine ⟨id, clock, request, rfl, ?_⟩
        rw [hlast]
        exact metadataServer_changes hchange
  · rw [hserializes.state]
    exact evolves_replay start.state events
  · have hexplained := hserializes.sessions id
    rwa [hwriting] at hexplained

end

/-! ## Two connections -/

namespace Sample

def openDb : Db :=
  Metadata.afterOps Metadata.Sample.env .initial (Metadata.Sample.pushOps.take 3)

def health : Request where
  method := .get
  target := "/health".toList
  contentType := ""
  body := []

def abort : Request where
  method := .post
  target := "/v1/upload-sessions/0190a000-0000-7000-8000-000000000002/abort".toList
  contentType := ""
  body := []

def idleServer : Server Db Request HttpResponse := ⟨openDb, fun _ => .absent⟩

abbrev sampleServer : ServerConfig Clock Db Request HttpResponse :=
  metadataServer Metadata.Sample.env treeJson

theorem handler_health (db : Db) :
    sampleServer.handler ⟨0, 0⟩ health db = (.succeeded .healthy, db) := by
  have hroute : route health = .ok .health := route_eq_ok_iff.mpr ⟨.inl rfl, rfl, .inl trivial⟩
  simp only [metadataServer, handleRequest, hroute]
  rfl

def isAborted : HttpResponse → Bool
  | .succeeded (.uploadSession row) => row.status = .aborted
  | _ => false

theorem handler_abort :
    (∃ row, (sampleServer.handler ⟨0, 0⟩ abort openDb).1 = .succeeded (.uploadSession row) ∧
      row.status = .aborted) ∧
      (sampleServer.handler ⟨0, 0⟩ abort openDb).2.hasOpenUploadSession = false := by
  have haborted : isAborted (sampleServer.handler ⟨0, 0⟩ abort openDb).1 = true := by
    decide +kernel
  refine ⟨?_, by decide +kernel⟩
  unfold isAborted at haborted
  split at haborted
  · rename_i row hrow
    exact ⟨row, hrow, of_decide_eq_true haborted⟩
  · cases haborted

def events : List (Event Clock Request) :=
  [.read 0 health, .read 1 abort, .handled 1 ⟨0, 0⟩ abort, .handled 0 ⟨0, 0⟩ health]

theorem runs_events : ∃ server : Server Db Request HttpResponse,
    Server.Runs sampleServer idleServer events server ∧
    server.sessions 0 = .writing (sampleServer.handler ⟨0, 0⟩ health
      (sampleServer.handler ⟨0, 0⟩ abort openDb).2).1 ∧
    server.sessions 1 = .writing (sampleServer.handler ⟨0, 0⟩ abort openDb).1 ∧
    server.state = (sampleServer.handler ⟨0, 0⟩ health
      (sampleServer.handler ⟨0, 0⟩ abort openDb).2).2 := by
  let accepted := (idleServer.setSession 0 .reading).setSession 1 .reading
  let received := (accepted.setSession 0 (.received health)).setSession 1 (.received abort)
  have haccepted : Server.Runs sampleServer idleServer [] accepted :=
    .step (.step .refl (.accept rfl)) (.accept rfl)
  have hreceived : Server.Runs sampleServer idleServer [.read 0 health, .read 1 abort] received :=
    .step (.step haccepted (.read rfl (Nat.zero_le _))) (.read rfl (Nat.zero_le _))
  have habort : received.sessions 1 = .received abort := rfl
  have hhandled := Server.Runs.step hreceived (.handle (Clock.mk 0 0) habort)
  have hhealth := @Server.Step.handle _ _ _ _ sampleServer
    { (received.setSession 1 (.writing (sampleServer.handler ⟨0, 0⟩ abort openDb).1)) with
      state := (sampleServer.handler ⟨0, 0⟩ abort openDb).2 } 0 health ⟨0, 0⟩ rfl
  exact ⟨_, hhandled.step hhealth, rfl, rfl, rfl⟩

end Sample

theorem server_serializable_sample :
    ∃ (server : Server Db Request HttpResponse) (row : SessionRow),
      server.sessions 0 = .writing (.succeeded .healthy) ∧
      server.sessions 1 = .writing (.succeeded (.uploadSession row)) ∧ row.status = .aborted ∧
      Sample.openDb.hasOpenUploadSession = true ∧ server.state.hasOpenUploadSession = false ∧
      Server.Explained Sample.sampleServer Sample.openDb Sample.events 0 (.succeeded .healthy) ∧
      Server.Explained Sample.sampleServer Sample.openDb Sample.events 1
        (.succeeded (.uploadSession row)) := by
  obtain ⟨server, hrun, hhealthy, haborted, hstate⟩ := Sample.runs_events
  obtain ⟨⟨row, hrow, hstatus⟩, hclosed⟩ := Sample.handler_abort
  rw [Sample.handler_health] at hhealthy hstate
  rw [hrow] at haborted
  have hfresh : Sample.idleServer.Fresh := fun _ => .inl rfl
  have hexplained := (server_serializable hfresh hrun).2.2
  exact ⟨server, row, hhealthy, haborted, hstatus, by decide +kernel, by rw [hstate]; exact hclosed,
    hexplained 0 _ hhealthy, hexplained 1 _ haborted⟩

end AiArtifactStore.Service
