import AiArtifactStore.Service.Routes

/-!
# The lifecycle commands

Two commands of the CLI's `run_lifecycle`: `lifecycle policy create` reads a policy file and
registers its policy, `lifecycle explain` follows the pages of the decisions of a run.  The
client library makes the requests and the service answers them.
-/

namespace AiArtifactStore.Service

open AiArtifactStore.Foundation
open AiArtifactStore.Foundation.Json
open AiArtifactStore.Foundation.Stateful (check throw)
open AiArtifactStore.Identity
open AiArtifactStore.Metadata

inductive CliExc where
  | usage (what : String)
  | runtimeError (what : String)
  | invalidArgument (what : String)
  | metadata (e : Exc)
  | remoteApi (stop : Stop)
  | remoteProtocol (what : String)

/-! ## Policy files -/

def addDigit (fieldName : String) (value : Nat) (character : Char) : Except CliExc Nat :=
  if character < '0' ∨ character > '9' then
    .error (.usage (fieldName ++ " must be a positive decimal integer"))
  else
    let digit := character.toNat - '0'.toNat
    if value > (2 ^ 64 - 1 - digit) / 10 then .error (.usage (fieldName ++ " is out of range"))
    else .ok (value * 10 + digit)

def parseStrictU64 (text fieldName : String) : Except CliExc Nat :=
  if text.toList = [] then .error (.usage (fieldName ++ " must be a positive decimal integer"))
  else foldEach text.toList 0 (addDigit fieldName)

def parsePolicyUint64Field (value : Json) (fieldName : String) : Except CliExc Nat :=
  match value with
  | .string text => parseStrictU64 text fieldName
  | .uint64 n => .ok n
  | .int64 n =>
      if n < 0 then .error (.usage (fieldName ++ " must be a non-negative integer"))
      else .ok n.toNat
  | _ => .error (.usage (fieldName ++ " must be an integer"))

def parsePolicyMaxAge (value : Json) : Except CliExc (Option Nat) :=
  match value with
  | .null => .ok none
  | value => (parsePolicyUint64Field value "max_age_seconds").map some

/-- One entry of the loop of `parse_lifecycle_policy_file`; the count is cast to 32 bits. -/
def parsePolicyFileRule (entry : Json) : Except CliExc LifecycleRule := do
  let members ← orFail entry.asObject? (.usage "policy file rule entry must be an object")
  failIf (¬hasExactKeys members ["artifact_kind", "keep_last_n", "max_age_seconds"])
    (.usage "policy file rule entry has invalid fields")
  let kindText ← orFail ((members.lookup "artifact_kind").bind asString?)
    (.usage "policy file rule entry has invalid fields")
  let keepValue ← orFail (members.lookup "keep_last_n")
    (.usage "policy file rule entry has invalid fields")
  let maxAgeValue ← orFail (members.lookup "max_age_seconds")
    (.usage "policy file rule entry has invalid fields")
  let keepLastN ← parsePolicyUint64Field keepValue "keep_last_n"
  let maxAgeSeconds ← parsePolicyMaxAge maxAgeValue
  let artifactKind ← orFail (ArtifactKind.ofText? kindText)
    (.usage "policy file artifact_kind is invalid")
  .ok ⟨artifactKind, keepLastN % 2 ^ 32, maxAgeSeconds⟩

def parseLifecyclePolicyFile (members : Members) (policyId : UuidV7) :
    Except CliExc LifecyclePolicy := do
  let name ← orFail ((members.lookup "name").bind asString?)
    (.usage "policy file must contain name and rules")
  let entries ← orFail ((members.lookup "rules").bind asArray?)
    (.usage "policy file must contain name and rules")
  failIf (entries.length ≠ 5) (.usage "policy file rules must contain exactly five entries")
  let rules ← foldEach entries [] fun rules entry => do
    let rule ← parsePolicyFileRule entry
    failIf (rule.artifactKind ∈ rules.map LifecycleRule.artifactKind)
      (.usage "policy file rules contain duplicate artifact kinds")
    .ok (rules ++ [rule])
  .ok ⟨policyId, name, .ofList strictTotal_artifactKind
    (rules.map fun rule => (rule.artifactKind, rule))⟩

/-! ## Requests of the client library -/

section

variable (env : Environment) (json : JsonLibrary (List UInt8)) (clock : Clock)

/-- The service answers the request; a status other than 200 is thrown. -/
def send (request : Request) : Stateful Db CliExc Payload := fun db =>
  match handleRequest env json clock request db with
  | (.ok payload, final) => (.ok payload, final)
  | (.error stop, final) => (.error (.remoteApi stop), final)

theorem send_eq_ok {request : Request} {payload : Payload} {db final : Db} :
    send env json clock request db = (.ok payload, final) ↔
      handleRequest env json clock request db = (.ok payload, final) := by
  rw [send]
  split
  case h_1 payload' final' hrun => rw [hrun]; simp
  case h_2 stop final' hrun => rw [hrun]; simp

def lifecycleRuleToJson (rule : LifecycleRule) : Json :=
  .object
    [("artifact_kind", .string rule.artifactKind.toText),
     ("keep_last_n", .uint64 rule.keepLastN),
     ("max_age_seconds", (rule.maxAgeSeconds.map Json.uint64).getD .null)]

/-- The rules in the order of `kCanonicalArtifactKindOrder`. -/
def canonicalRules (policy : LifecyclePolicy) : Except CliExc (List LifecycleRule) :=
  mapEach ArtifactKind.all fun kind => orFail (policy.rules.find? kind)
    (.invalidArgument "lifecycle policy is missing a canonical artifact kind rule")

def registerPolicyRequest (policy : LifecyclePolicy) (rules : List LifecycleRule) : Request where
  method := .post
  target := "/v1/lifecycle-policies".toList
  contentType := "application/json"
  body := json.serialize <| .object
    [("policy_id", .string policy.policyId.str),
     ("name", .string policy.name),
     ("rules", .array (rules.map lifecycleRuleToJson))]

/-- `MetadataClient::register_lifecycle_policy` -/
def clientRegisterLifecyclePolicy (policy : LifecyclePolicy) :
    Stateful Db CliExc LifecyclePolicy := do
  check ((validateLifecyclePolicy policy).mapError .metadata)
  let rules ← check (canonicalRules policy)
  let payload ← send env json clock (registerPolicyRequest json policy rules)
  match payload with
  | .lifecyclePolicy loaded => do
      check (failIf (loaded ≠ policy)
        (.remoteProtocol "lifecycle policy response does not match request"))
      pure loaded
  | _ => throw (.remoteProtocol "lifecycle policy response has unexpected fields")

def lifecyclePolicyCreate (contents : List UInt8) (policyId : UuidV7) :
    Stateful Db CliExc LifecyclePolicy := do
  let members ← check (orFail ((json.parse contents).bind asObject?)
    (.runtimeError "policy file is not valid JSON"))
  let policy ← check (parseLifecyclePolicyFile members policyId)
  clientRegisterLifecyclePolicy env json clock policy

/-! ## Pages of decisions -/

structure LifecycleDecisionPage where
  decisions : List LifecycleDecision
  nextAfter : Option ContentId

def decisionsRequest (runId : UuidV7) (after : Option ContentId) (limit : Nat) : Request where
  method := .get
  target := "/v1/lifecycle-runs/".toList ++ runId.str.toList ++ "/decisions?limit=".toList ++
    Nat.toDigits 10 limit ++
    match after with
    | none => []
    | some versionId => "&after=".toList ++ versionId.hexCharacters
  contentType := ""
  body := []

/-- `MetadataClient::list_lifecycle_decisions` -/
def clientListLifecycleDecisions (runId : UuidV7) (after : Option ContentId) (limit : Nat) :
    Stateful Db CliExc LifecycleDecisionPage := do
  check (failIf (limit < 1 ∨ limit > 256)
    (.invalidArgument "lifecycle decision page limit must be between 1 and 256"))
  let payload ← send env json clock (decisionsRequest runId after limit)
  match payload with
  | .lifecycleDecisions decisions nextAfter => pure ⟨decisions, nextAfter⟩
  | _ => throw (.remoteProtocol "lifecycle decisions response has unexpected fields")

/-- The loop of `lifecycle explain` as far as a number of requests goes; before each of them
other clients may change the metadata. -/
def explainLoop (others : Nat → Db → Db) (runId : UuidV7) (limit : Nat) :
    Nat → Option ContentId → List LifecycleDecision →
      Stateful Db CliExc (Option (List LifecycleDecision))
  | 0, _, _ => pure none
  | requests + 1, after, decisions => do
      Stateful.update (others requests)
      let page ← clientListLifecycleDecisions env json clock runId after limit
      match page.nextAfter with
      | none => pure (some (decisions ++ page.decisions))
      | some next =>
          explainLoop others runId limit requests (some next) (decisions ++ page.decisions)

end

end AiArtifactStore.Service
