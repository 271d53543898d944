import AiArtifactStore.Foundation.Contract
import AiArtifactStore.Foundation.Json
import AiArtifactStore.Push.Command

/-!
# Requests and responses of the metadata service

A handler reads and changes the database and ends with the payload of a response,
with a failure response, or with an exception that leaves `handle_request`.
-/

namespace AiArtifactStore.Service

open AiArtifactStore.Foundation
open AiArtifactStore.Identity
open AiArtifactStore.Metadata
open AiArtifactStore.Client

inductive Verb where
  | get
  | post
  | put
  | delete
  | other
  deriving DecidableEq, Repr

structure Request where
  method : Verb
  target : List Char
  contentType : String
  body : List UInt8

/-! ## Responses -/

inductive Status where
  | badRequest
  | notFound
  | methodNotAllowed
  | conflict
  | gone
  | unsupportedMediaType
  deriving DecidableEq, Repr

def Status.code : Status → Nat
  | .badRequest => 400
  | .notFound => 404
  | .methodNotAllowed => 405
  | .conflict => 409
  | .gone => 410
  | .unsupportedMediaType => 415

/-- A response with an error text, the other members of its body and its `Allow` header. -/
structure Failure where
  status : Status
  error : String
  details : Json.Members := []
  allow : Option String := none

/-- The value that the body of a successful response shows. -/
inductive Payload where
  | healthy
  | storageNodes (nodes : List StorageNode)
  | storageNode (node : StorageNode)
  | replicationRun (run : ReplicationRun)
  | replicationPlan (plan : ReplicationPlan)
  | restorePlan (plan : RestorePlan)
  | multiNodeRestorePlan (plan : MultiNodeRestorePlan)
  | lifecyclePolicy (policy : LifecyclePolicy)
  | lifecycleRun (run : LifecycleRun)
  | lifecycleDecisions (decisions : List LifecycleDecision) (nextAfter : Option ContentId)
  | versionPin (versionId : ContentId) (reason : Option String)
  | uploadSession (row : SessionRow)
  | finalized (result : FinalizeUploadResult)
  | negotiated (result : ChunkNegotiationResult)
  | storageLocations (chunkId : ContentId) (locations : List StorageLocation)
  | gcRun (run : GcRun)
  | gcDecisions (gcRunId : UuidV7) (decisions : List GcChunkDecision)
  | noContent

/-- What ends a handler early: a failure response, or an exception. -/
inductive Stop where
  | respond (failure : Failure)
  | throw (e : Exc)

def badRequest (error : String) : Stop := .respond { status := .badRequest, error := error }

def notFound (error : String) : Stop := .respond { status := .notFound, error := error }

def conflict (error : String) : Stop := .respond { status := .conflict, error := error }

def unsupportedMediaType : Stop :=
  .respond { status := .unsupportedMediaType, error := "unsupported_media_type" }

/-- `make_method_not_allowed` -/
def methodNotAllowed (allow : String) : Stop :=
  .respond { status := .methodNotAllowed, error := "method_not_allowed", allow := some allow }

/-! ## Handlers -/

abbrev Handler := Stateful Db Stop Payload

namespace Handler

variable {α : Type}

/-- A transaction of the repository: it commits, or throws and rolls back. -/
def transaction (run : Db → Except Exc (α × Db)) : Stateful Db Stop α := fun db =>
  match run db with
  | .ok (a, next) => (.ok a, next)
  | .error e => (.error (.throw e), db)

def update (run : Db → Except Exc Db) : Stateful Db Stop Unit :=
  transaction fun db => (run db).map fun next => ((), next)

def query (run : Db → Except Exc α) : Stateful Db Stop α :=
  transaction fun db => (run db).map fun a => (a, db)

/-- The `catch` clauses of a handler: some exceptions become failure responses. -/
def catching (caught : Exc → Option Failure) (body : Stateful Db Stop α) : Stateful Db Stop α :=
  Stateful.catching body fun
    | .respond _ => none
    | .throw e => (caught e).map fun failure => Stateful.throw (.respond failure)

theorem update_eq_ok {run : Db → Except Exc Db} {db final : Db} {u : Unit} :
    update run db = (.ok u, final) ↔ run db = .ok final := by
  cases h : run db with
  | error e => simp [update, transaction, h, Except.map]
  | ok next => simp [update, transaction, h, Except.map]

theorem update_of_error {run : Db → Except Exc Db} {db : Db} {e : Exc} (h : run db = .error e) :
    update run db = (.error (.throw e), db) := by
  simp [update, transaction, h, Except.map]

theorem catching_of_error {caught : Exc → Option Failure} {body : Stateful Db Stop α}
    {db final : Db} {stop : Stop} (h : body db = (.error stop, final)) :
    ∃ stop', catching caught body db = (.error stop', final) := by
  simp only [catching, Stateful.catching, h]
  cases stop with
  | respond failure => exact ⟨.respond failure, rfl⟩
  | throw e =>
      cases hcaught : caught e with
      | none => exact ⟨.throw e, by simp [hcaught]⟩
      | some failure => exact ⟨.respond failure, by simp [hcaught, Stateful.throw]⟩

theorem catching_eq_ok {caught : Exc → Option Failure} {body : Stateful Db Stop α}
    {db final : Db} {a : α} :
    catching caught body db = (.ok a, final) ↔ body db = (.ok a, final) := by
  simp only [catching, Stateful.catching]
  cases body db with
  | mk result next =>
      cases result with
      | ok b => exact Iff.rfl
      | error stop =>
          cases stop with
          | respond failure => exact Iff.rfl
          | throw e =>
              cases hcaught : caught e with
              | none => simp only [hcaught, Option.map_none]
              | some failure => simp [hcaught, Stateful.throw]

end Handler

/-- `catch (const std::invalid_argument&)` -/
def invalidArgumentFailure : Exc → Option Failure
  | .invalidArgument _ => some { status := .badRequest, error := "invalid_request" }
  | _ => none

def orElse (first second : Exc → Option Failure) (e : Exc) : Option Failure :=
  (first e).or (second e)

/-! ## Refusals -/

def IsRefusal (stop : Stop) : Prop := ∃ failure, stop = .respond failure

end AiArtifactStore.Service
