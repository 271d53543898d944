import AiArtifactStore.Service.ErrorContract
import AiArtifactStore.Service.Failures
import AiArtifactStore.Service.RecordJson

/-!
# Server errors

Which requests the server answers with an error of its own, because an exception leaves
`handle_request`: on a reachable database those with a fault in what the client sent, and
those for a run that stored rows keep from ending.
-/

namespace AiArtifactStore.Service

open AiArtifactStore.Foundation
open AiArtifactStore.Foundation.Stateful (check read)
open AiArtifactStore.Identity
open AiArtifactStore.Metadata
open AiArtifactStore.Wire
open AiArtifactStore.Push (createSessionError)
open Handler

/-! ## How a handler ends -/

section

variable {α : Type} {allowed : Stop → Prop} {db : Db}

/-- A failure response, or an exception that a clause turns into one. -/
def Settled (caught : Exc → Option Failure) : Stop → Prop
  | .respond _ => True
  | .throw e => Caught caught e

end

/-- Writing the body of the response does not throw. -/
def Shown : Payload → Prop
  | .lifecyclePolicy policy => (lifecyclePolicyToJson policy).isSome = true
  | _ => True

/-- The handler ends with a failure response, or with a result that is written. -/
def Answers (handler : Handler) (db : Db) : Prop :=
  Ends IsRefusal (fun payload _ => Shown payload) handler db

section

variable {env : Environment} {json : JsonLibrary (List UInt8)}

end

/-! ## What the client sent -/

section

variable (env : Environment) (json : JsonLibrary (List UInt8)) (request : Request) (db : Db)

variable (clock : Clock)

end

/-! ## Handlers that answer -/

section

variable {env : Environment} {json : JsonLibrary (List UInt8)} {request : Request} {db : Db}

end

/-! ## Samples -/

namespace Sample

end Sample

end AiArtifactStore.Service
