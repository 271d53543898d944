import AiArtifactStore.Metadata.FinalizeRetry
import AiArtifactStore.Pull.Content
import AiArtifactStore.Push.Success
import AiArtifactStore.Wire.PlanConsistency

/-!
# What was pushed is what is pulled

From the source file of a push to the destination file of a pull, through both
services and the bodies of their requests: other clients may do anything to the
services while the push runs, any history may follow the finalization, and the
storage nodes may answer the pull with anything.
-/

namespace AiArtifactStore.Pull

open AiArtifactStore.Client
open AiArtifactStore.Foundation
open AiArtifactStore.Foundation.Json
open AiArtifactStore.Identity
open AiArtifactStore.Metadata
open AiArtifactStore.Push
open AiArtifactStore.Storage
open AiArtifactStore.Wire
open Relation

/-! ## The push reads its whole source -/

def CallScans (call : PushCall) : Prop :=
  call.state.shared.firstFailure = none → Scans call.source call.state.reader

section

variable {ι : Type} [DecidableEq ι] {env : Environment} {ctx : PushContext}
  {services : Services} {source : List UInt8} {f f' : Fleet ι} {call : PushCall} {i : ι}

theorem callScans_step {op : PushOp} {next : PushState} (h : CallScans call)
    (hstep : PushState.step env call.ctx (call.on services) op = some next) :
    CallScans { call with state := next } := by
  intro hok
  rcases PushState.step_cases hstep with hfailed | hprogress
  · exact absurd hok hfailed
  · exact scans_progress hprogress (h (hprogress.firstFailure.symm.trans hok))

theorem callScans_started {engine : PushEngine} {sessionId : UuidV7} {state : PushState}
    (h : engine.push services sessionId (some source) = .ok (ctx, state)) :
    CallScans ⟨source, ctx, state⟩ := by
  obtain ⟨chunkFeed, input, hinput, hstarted⟩ := push_started h
  obtain rfl := Option.some.inj hinput
  intro _
  rw [hstarted.initial]
  exact ⟨by simp [PushState.initial], rfl, by simp [PushState.initial], by simp [PushState.initial]⟩

def FleetScans (f : Fleet ι) : Prop := ∀ i call, f.calls i = some call → CallScans call

theorem FleetScans.setCall (h : FleetScans f) (hcall : CallScans call) :
    FleetScans (f.setCall i call) := by
  intro j other hother
  simp only [Fleet.setCall, Function.update_apply] at hother
  split at hother
  · obtain rfl := Option.some.inj hother
    exact hcall
  · exact h j other hother

theorem fleetScans_step {allowed : FleetOp ι → Bool} (hstep : Fleet.Step env allowed f f')
    (h : FleetScans f) : FleetScans f' := by
  obtain ⟨op, -, hstep⟩ := hstep
  cases op with
  | call i engine sessionId source =>
      simp only [Fleet.step, Fleet.start] at hstep
      split at hstep
      · rename_i ctx state hfree hpush
        obtain rfl := Option.some.inj hstep
        exact h.setCall (callScans_started hpush)
      · cases hstep
  | push i op =>
      simp only [Fleet.step] at hstep
      split at hstep
      · cases hstep
      · rename_i call hcall
        obtain ⟨next, hnext, rfl⟩ := Option.map_eq_some_iff.mp hstep
        have hsame : FleetScans { f with services := next.services } := h
        exact hsame.setCall (callScans_step (h i call hcall) hnext)
  | others request =>
      obtain rfl := Option.some.inj hstep
      exact h

theorem object_of_returns {allowed : FleetOp ι → Bool} {prepared : PreparedPush}
    (hrun : Fleet.Runs env allowed (Fleet.idle services) f) (hcall : f.calls i = some call)
    (hreturns : (call.on f.services).returns env call.ctx = some (.ok prepared)) :
    prepared.layoutDescriptor.object = ⟨env.contentId call.source, call.source.length⟩ := by
  have hscans : FleetScans f :=
    invariant_of_step (P := FleetScans) (fun _ _ hstep h => fleetScans_step hstep h) hrun
      fun j other hother => by cases hother
  obtain ⟨hjoined, hok, hdescribe⟩ := returns_ok hreturns
  have hscan := hscans i call hcall hok
  simp only [PushState.joined, Bool.and_eq_true, decide_eq_true_eq] at hjoined
  have hend := hscan.finished (hjoined.1.resolve_right hscan.running.2)
  have hfed : call.state.reader.fed = call.source := by
    rw [← hscan.stream, hscan.ended hend, List.append_nil]
  have hobject := (describe_ok hdescribe).1
  rwa [show (call.on f.services).reader.fed = call.source from hfed] at hobject

end

/-! ## The plan is for the object of the version -/

section

variable {Text : Type} {json : JsonLibrary Text} {env : Environment} {db db₁ db₂ : Db}

theorem not_retired_of_plan {versionId : ContentId} {plan : MultiNodeRestorePlan}
    (h : resolveMultiNodeRestorePlan env db versionId = .ok plan) : ¬db.Retired versionId := by
  simp only [resolveMultiNodeRestorePlan, loadRestorableVersion, bind_eq_ok, exists_unit,
    failIf_eq_ok] at h
  obtain ⟨version, ⟨_, _, _, _, -, hretired, -⟩, -⟩ := h
  rwa [Db.isVersionRetired_iff] at hretired

theorem objectId_of_plan {version : ArtifactVersion} {plan : MultiNodeRestorePlan}
    (hstored : artifactVersionIdentityMatches env db version = true)
    (h : resolveMultiNodeRestorePlan env db (version.versionId env) = .ok plan) :
    plan.layoutDescriptor.objectId = version.rootObjectId := by
  simp only [resolveMultiNodeRestorePlan, loadRestorableVersion, bind_eq_ok, exists_unit,
    orFail_eq_ok, failIf_eq_ok, Decidable.not_not] at h
  obtain ⟨loaded, ⟨_, hload, found, rfl, -, -, hloaded⟩, selected, -, _, -, descriptor, rfl,
    hroot, hplan⟩ := h
  obtain rfl := Except.ok.inj hloaded
  obtain rfl := Except.ok.inj hplan
  obtain ⟨row, hrow, hkey, hsame, -⟩ := loadVersion_ok hload
  obtain ⟨stored, hfind, hidentity⟩ := artifactVersionIdentityMatches_iff.mp hstored
  obtain rfl : row = stored :=
    Table.key_inj hrow (Table.mem_of_find? hfind) (hkey.trans (Table.key_of_find? hfind).symm)
  rw [hroot, ← hsame, hidentity]
  rfl

/-- The plan for a finalized version is for the finalized object, after any history. -/
theorem objectId_of_finalized {now : Int} {sessionId : UuidV7} {d : ObjectLayoutDescriptor}
    {result : FinalizeUploadResult} {plan : MultiNodeRestorePlan} (hreach : Reachable env db)
    (hfinalized : serve env db (.finalizeUpload now sessionId d) = (.ok (.finalized result), db₁))
    (hhistory : Evolves env (fun _ => True) db₁ db₂)
    (hplan : resolveMultiNodeRestorePlan env db₂ result.versionId = .ok plan) :
    plan.layoutDescriptor.objectId = d.objectId := by
  obtain ⟨row, rfl, hcommitted, rfl⟩ :=
    committedAs_of_ok (parentsDiffer_of_reachable hreach) (finalizeUpload_of_serve hfinalized)
  have hlater := hcommitted.evolves hhistory (not_retired_of_plan hplan)
  exact objectId_of_plan hlater.version hplan

/-! ## The bodies keep the object id -/

theorem finalizeRequest_objectId {d received : ObjectLayoutDescriptor}
    (h : FinalizeRequest.parse json (finalizeRequestBody json d) = .ok received) :
    received.objectId = d.objectId := by
  simp only [FinalizeRequest.parse, finalizeRequestBody, json.parse_serialize, wire_object,
    List.map_cons, wire_string, orFail_some, ok_bind, asObject?, bind_eq_ok, exists_unit,
    orFail_eq_ok, mapError_eq_ok] at h
  obtain ⟨-, objectIdText, hobjectText, _, -, _, -, _, -, objectId, hobject, _, -, _, -, _, -,
    layout, -, hmake⟩ := h
  simp only [lookup_cons, ↓reduceIte, Option.bind_some, asString?, Option.some.injEq]
    at hobjectText
  subst hobjectText
  rw [ContentId.ofHex?_hex, Option.some.injEq] at hobject
  obtain ⟨hfield, -, -⟩ := ObjectLayoutDescriptor.fields_of_make hmake
  rw [ObjectLayoutDescriptor.objectId, hfield, hobject]

theorem planBody_objectId {versionId : ContentId} {plan received : MultiNodeRestorePlan}
    (h : RestorePlanResponse.parse json versionId (multiNodeRestorePlanBody json plan) =
      .ok received) :
    received.layoutDescriptor.objectId = plan.objectId := by
  obtain ⟨members, hmembers, -, hlayout, -⟩ := restorePlan_reads h
  simp only [multiNodeRestorePlanBody, multiNodeRestorePlanToJson, json.parse_serialize,
    wire_object, List.map_cons, wire_string, Option.bind_some, asObject?, Option.some.injEq]
    at hmembers
  subst hmembers
  refine hlayout.objectId.unique ?_
  simp [Reads, lookup_cons, asContentId?, asString?, ContentId.ofHex?_hex]

end

/-! ## The pull publishes the object of its plan -/

/-- Two contents that their ids do not tell apart. -/
def Collide (env : Environment) (a b : List UInt8) : Prop :=
  a ≠ b ∧ env.contentId a = env.contentId b

section

open PullState

variable {ctx : PullContext} {waiting accepted s : PullState} {fs : FileSystem String}

theorem published_content {response : Except EngineExc MultiNodeRestorePlan}
    (hstart : PullState.Runs ctx (initial ctx fs) waiting)
    (hplan : PullState.step ctx waiting (.metadata response) = some accepted)
    (hrun : PullState.Runs ctx accepted s) (hpublished : s.phase.beforePublication = false) :
    ∃ plan content, response = .ok plan ∧
      s.files.fs.lookup ctx.request.destinationPath = some (.file content) ∧
      ctx.env.contentId content = plan.layoutDescriptor.objectId := by
  have hcontent : Content ctx s := content_of_runs ((hstart.tail ⟨_, hplan⟩).trans hrun)
  have hnothrow : ¬∃ e, s.phase = .thrown e := by
    rintro ⟨e, h⟩
    simp [h, Phase.beforePublication] at hpublished
  rcases plan_of_receivePlan hplan with hthrown | ⟨plan, hresponse, -, hopening⟩
  · exact absurd (hrun.invariant (fun _ _ _ => thrown_moves) hthrown) hnothrow
  · have hkeeps : KeepsPlan plan s :=
      hrun.invariant (fun _ _ _ => keepsPlan_moves) (.inl hopening)
    have hkept := hkeeps.resolve_right hnothrow
    unfold Content at hcontent
    cases hphase : s.phase with
    | unlinking restored =>
        rw [hphase] at hcontent hkept
        obtain rfl := Option.some.inj hkept
        obtain ⟨content, hlookup, -, -, hid⟩ := hcontent
        exact ⟨_, content, hresponse, hlookup, hid⟩
    | published restored =>
        rw [hphase] at hcontent hkept
        obtain rfl := Option.some.inj hkept
        obtain ⟨content, hlookup, -, -, hid⟩ := hcontent
        exact ⟨_, content, hresponse, hlookup, hid⟩
    | _ => simp [hphase, Phase.beforePublication] at hpublished

end

/-! ## The round trip -/

/-- The source of a push, finalized through the wire, is what a pull of the version puts at its
destination, unless two contents collide: whatever other clients do during the push, whatever
happens to the repository afterwards, and whatever the storage nodes answer. -/
theorem pull_restores_pushed {Text ι : Type} [DecidableEq ι] (json : JsonLibrary Text)
    (ctx : PullContext) {services : Services} {f : Fleet ι} {i : ι} {call : PushCall}
    {prepared : PreparedPush} {db db₁ db₂ : Db} {now : Int} {sessionId : UuidV7}
    {d : ObjectLayoutDescriptor} {result : FinalizeUploadResult} {plan : MultiNodeRestorePlan}
    {fs : FileSystem String} {waiting accepted s : PullState}
    (hpush : Fleet.Runs ctx.env (fun _ => true) (Fleet.idle services) f)
    (hcall : f.calls i = some call)
    (hreturns : (call.on f.services).returns ctx.env call.ctx = some (.ok prepared))
    (hrequest : FinalizeRequest.parse json (finalizeRequestBody json prepared.layoutDescriptor) =
      .ok d)
    (hreach : Reachable ctx.env db)
    (hfinalized : serve ctx.env db (.finalizeUpload now sessionId d) =
      (.ok (.finalized result), db₁))
    (hhistory : Evolves ctx.env (fun _ => True) db₁ db₂)
    (hplan : resolveMultiNodeRestorePlan ctx.env db₂ result.versionId = .ok plan)
    (hstart : PullState.Runs ctx (PullState.initial ctx fs) waiting)
    (hresponse : PullState.step ctx waiting (.metadata
      ((RestorePlanResponse.parse json result.versionId
        (multiNodeRestorePlanBody json plan)).mapError .client)) = some accepted)
    (hpull : PullState.Runs ctx accepted s) (hpublished : s.phase.beforePublication = false) :
    ∃ content, s.files.fs.lookup ctx.request.destinationPath = some (.file content) ∧
      (content = call.source ∨ Collide ctx.env content call.source) := by
  obtain ⟨received, content, hreceived, hlookup, hcontent⟩ :=
    published_content hstart hresponse hpull hpublished
  have hobject : plan.objectId = plan.layoutDescriptor.objectId := by
    simp only [resolveMultiNodeRestorePlan, bind_eq_ok, exists_unit] at hplan
    obtain ⟨_, -, _, -, _, -, _, -, -, hplan⟩ := hplan
    obtain rfl := Except.ok.inj hplan
    rfl
  have hid : ctx.env.contentId content = ctx.env.contentId call.source :=
    calc ctx.env.contentId content = received.layoutDescriptor.objectId := hcontent
      _ = plan.objectId := planBody_objectId (mapError_eq_ok.mp hreceived)
      _ = plan.layoutDescriptor.objectId := hobject
      _ = d.objectId := objectId_of_finalized hreach hfinalized hhistory hplan
      _ = prepared.layoutDescriptor.objectId := finalizeRequest_objectId hrequest
      _ = ctx.env.contentId call.source :=
          congrArg StoredObject.objectId (object_of_returns hpush hcall hreturns)
  refine ⟨content, hlookup, ?_⟩
  by_cases hsame : content = call.source
  · exact .inl hsame
  · exact .inr ⟨hsame, hid⟩

/-! ## A sample transfer -/

namespace Sample

open Metadata.Sample

def finalizable : Db := Metadata.afterOps env .initial pushOps.dropLast

def finalized : Db := (serve env finalizable (.finalizeUpload 0 session.sessionId descriptor)).2

def repaired : Db := Metadata.afterOps env finalized repairOps

def transferContext : PullContext where
  env := env
  request := ⟨versionId.hex, "/out/a", false⟩
  pool := ["n1"]

def waiting : PullState := (PullState.initial transferContext PullState.Sample.directories).goto .planning

def accepted : PullState := waiting.goto (.opening Wire.Sample.samplePlan)

def transferred : PullState :=
  Foundation.afterOps (PullState.step transferContext) accepted PullState.Sample.restoreOps

end Sample

open Metadata.Sample in
theorem pull_restores_pushed_sample :
    ∃ call content, Push.Sample.fleet.calls true = some call ∧
      Sample.transferred.files.fs.lookup "/out/a" = some (.file content) ∧
      (content = call.source ∨ Collide env content call.source) := by
  have hpushed : Push.Sample.fleetResult.map (fun result => result.2.layoutDescriptor) =
      some descriptor := by decide +kernel
  obtain ⟨⟨call, prepared⟩, hresult, hdescriptor⟩ := Option.map_eq_some_iff.mp hpushed
  simp only [Push.Sample.fleetResult, Option.bind_eq_bind, Option.bind_eq_some_iff,
    Option.some.injEq, Prod.mk.injEq] at hresult
  obtain ⟨found, hcall, answer, hreturns, ready, hready, rfl, rfl⟩ := hresult
  rw [eq_ok_of_toOption hready] at hreturns
  have hrequest : FinalizeRequest.parse Wire.Sample.valueLibrary
      (finalizeRequestBody Wire.Sample.valueLibrary ready.layoutDescriptor) = .ok descriptor := by
    rw [hdescriptor]
    exact finalizeRequest_roundTrip _ (by decide)
  have hanswer : (serve env Sample.finalizable (.finalizeUpload 0 session.sessionId descriptor)).1 =
      .ok (.finalized (finalResult env ⟨session, .open⟩ descriptor)) := by decide +kernel
  have hfinalized : serve env Sample.finalizable (.finalizeUpload 0 session.sessionId descriptor) =
      (.ok (.finalized (finalResult env ⟨session, .open⟩ descriptor)), Sample.finalized) :=
    Prod.ext hanswer rfl
  have hreach : Reachable env Sample.finalizable := reachable_afterOps env _
  have hhistory : Evolves env (fun _ => True) Sample.finalized Sample.repaired :=
    evolves_afterOps env _ repairOps fun _ _ => trivial
  have hplan : resolveMultiNodeRestorePlan env Sample.repaired versionId =
      .ok Wire.Sample.samplePlan := eq_ok_of_toOption (by decide +kernel)
  have hbody : RestorePlanResponse.parse Wire.Sample.valueLibrary versionId
      (multiNodeRestorePlanBody Wire.Sample.valueLibrary Wire.Sample.samplePlan) =
        .ok Wire.Sample.samplePlan :=
    restorePlan_roundTrip _ (by decide) rfl rfl (by simp [Wire.Sample.samplePlan, PortValid])
  have hvalid : validateDestination PullState.Sample.directories Sample.transferContext.request =
      .ok () := eq_ok_of_toOption (by decide +kernel)
  have haccepted : acceptPlan Sample.transferContext.request.versionId
      (.ok Wire.Sample.samplePlan) = .ok Wire.Sample.samplePlan :=
    eq_ok_of_toOption (by decide +kernel)
  have hstart : PullState.Runs Sample.transferContext
      (PullState.initial Sample.transferContext PullState.Sample.directories) Sample.waiting := by
    refine .single ⟨.next, ?_⟩
    simp only [PullState.step, PullState.next, PullState.initial, hvalid]
    rfl
  have hresponse : PullState.step Sample.transferContext Sample.waiting (.metadata
      ((RestorePlanResponse.parse Wire.Sample.valueLibrary versionId
        (multiNodeRestorePlanBody Wire.Sample.valueLibrary Wire.Sample.samplePlan)).mapError
          EngineExc.client)) = some Sample.accepted := by
    rw [hbody]
    simp only [PullState.step, PullState.receivePlan, Sample.waiting, PullState.goto,
      Except.mapError, haccepted]
    rfl
  have hpublished : Sample.transferred.phase.beforePublication = false := by decide +kernel
  have hpush : Push.Fleet.Runs env (fun _ => true) (Push.Fleet.idle Push.Sample.services)
      Push.Sample.fleet := Push.Fleet.runs_afterOps _ fun _ _ => rfl
  have hpull : PullState.Runs Sample.transferContext Sample.accepted Sample.transferred :=
    runs_afterOps _ _ _
  obtain ⟨content, hlookup, hcontent⟩ := pull_restores_pushed Wire.Sample.valueLibrary
    Sample.transferContext hpush hcall hreturns hrequest hreach hfinalized hhistory hplan hstart
    hresponse hpull hpublished
  exact ⟨found, content, hcall, hlookup, hcontent⟩

end AiArtifactStore.Pull
