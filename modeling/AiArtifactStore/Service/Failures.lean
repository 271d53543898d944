import AiArtifactStore.Metadata.Columns
import AiArtifactStore.Metadata.Completion
import AiArtifactStore.Metadata.LifecycleProgress
import AiArtifactStore.Replication.RunPlanning
import AiArtifactStore.Service.Handlers

/-!
# What the operations throw

Which exceptions an operation of the repository throws on a reachable database: those that the
`catch` clauses of its handler take, unless stored rows keep a run from ending.
-/

namespace AiArtifactStore.Service

open AiArtifactStore.Foundation
open AiArtifactStore.Identity
open AiArtifactStore.Metadata
open AiArtifactStore.Replication
open AiArtifactStore.Client (SizesConflict)
open AiArtifactStore.Push (createSessionError)

/-- A `catch` clause turns the exception into a failure response. -/
def Caught (caught : Exc → Option Failure) (e : Exc) : Prop := (caught e).isSome = true

/-! ## Stored rows that keep a run from ending -/

section

variable (env : Environment) (db : Db)

end

section

variable {env : Environment} {db : Db}

/-! ## Loading versions and layouts -/

end

end AiArtifactStore.Service
