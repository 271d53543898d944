import AiArtifactStore.Wire.ReplyContract

/-!
# Restore plans agree with themselves

The layout id of a plan is the hash of the descriptor that its other fields describe.  The
decoder of a single-node plan tests it; the decoder of a multi-node plan returns the id as the
body states it.
-/

namespace AiArtifactStore.Wire

open AiArtifactStore.Foundation
open AiArtifactStore.Foundation.Json
open AiArtifactStore.Identity
open AiArtifactStore.Metadata
open AiArtifactStore.Client

variable {Text : Type} (json : JsonLibrary Text)

structure SelfConsistent (env : Environment) (versionId : ContentId)
    (plan : MultiNodeRestorePlan) : Prop where
  versionId : plan.versionId = versionId
  layoutId : plan.layoutId = plan.layoutDescriptor.layoutId env
  chunks : plan.chunks.map RestorePlanResponse.chunkRef = plan.layoutDescriptor.layout.chunks

structure ReadsLayout (members : Members) (d : ObjectLayoutDescriptor) : Prop where
  objectId : Reads members "object_id" asContentId? d.objectId
  totalSize : Reads members "total_size_bytes" extractNonnegativeUint64 d.object.totalSize
  chunking : ∃ strategy parameters, Reads members "chunking_strategy" asString? strategy ∧
    Reads members "chunking_parameters" asObject? parameters ∧
    RestorePlanResponse.parseChunking strategy parameters = .ok d.chunking
  chunks : ReadsEach members "chunks" ReadsChunkRef d.layout.chunks

/-- The field `layout_id` is the hash of the descriptor that the other fields describe. -/
def StatesOwnLayoutId (env : Environment) (members : Members) : Prop :=
  ∃ d, ReadsLayout members d ∧ Reads members "layout_id" asContentId? (d.layoutId env)

theorem ReadsChunkSources.chunkRef {entry : Json} {chunk : RestoreChunkSources}
    (h : ReadsChunkSources entry chunk) :
    ReadsChunkRef entry (RestorePlanResponse.chunkRef chunk) := by
  obtain ⟨members, hmembers, hid, hoffset, hsize, -⟩ := h
  exact ⟨members, hmembers, hid, hoffset, hsize⟩

/-! ## A body describes one layout -/

theorem ReadsChunkRef.unique {entry : Json} {chunk chunk' : ChunkRef} (h : ReadsChunkRef entry chunk)
    (h' : ReadsChunkRef entry chunk') : chunk = chunk' := by
  obtain ⟨members, hmembers, hid, hoffset, hsize⟩ := h
  obtain ⟨members', hmembers', hid', hoffset', hsize'⟩ := h'
  obtain rfl := Option.some.inj (hmembers.symm.trans hmembers')
  cases chunk
  cases chunk'
  congr 1
  · exact hid.unique hid'
  · exact hoffset.unique hoffset'
  · exact hsize.unique hsize'

theorem ReadsLayout.unique {members : Members} {d d' : ObjectLayoutDescriptor}
    (h : ReadsLayout members d) (h' : ReadsLayout members d') : d = d' := by
  obtain ⟨strategy, parameters, hstrategy, hparameters, hchunking⟩ := h.chunking
  obtain ⟨strategy', parameters', hstrategy', hparameters', hchunking'⟩ := h'.chunking
  obtain rfl := hstrategy.unique hstrategy'
  obtain rfl := hparameters.unique hparameters'
  obtain ⟨entries, hentries, hrefs⟩ := h.chunks
  obtain ⟨entries', hentries', hrefs'⟩ := h'.chunks
  obtain rfl := hentries.unique hentries'
  have hobject : d.object = d'.object := by
    have hid : d.object.objectId = d'.object.objectId := h.objectId.unique h'.objectId
    have hsize : d.object.totalSize = d'.object.totalSize := h.totalSize.unique h'.totalSize
    have heta (object : StoredObject) : object = ⟨object.objectId, object.totalSize⟩ := rfl
    rw [heta d.object, hid, hsize]
  have hchunks : d.layout.chunks = d'.layout.chunks :=
    List.right_unique_forall₂' (R := ReadsChunkRef) (fun _ _ _ => ReadsChunkRef.unique) hrefs
      hrefs'
  have hlayout : d.layout = d'.layout := by
    cases hd : d.layout
    cases hd' : d'.layout
    rw [hd, hd'] at hchunks
    congr 1
  cases d
  cases d'
  congr 1
  exact Except.ok.inj (hchunking.symm.trans hchunking')

/-! ## What the decoder returns -/

section

variable {json}

theorem restorePlan_reads {versionId : ContentId} {body : Text} {plan : MultiNodeRestorePlan}
    (h : RestorePlanResponse.parse json versionId body = .ok plan) :
    ∃ members, (json.parse body).bind asObject? = some members ∧
      plan.versionId = versionId ∧ ReadsLayout members plan.layoutDescriptor ∧
      Reads members "layout_id" asContentId? plan.layoutId ∧
      plan.chunks.map RestorePlanResponse.chunkRef = plan.layoutDescriptor.layout.chunks := by
  simp only [RestorePlanResponse.parse, RestorePlanResponse.field, RestorePlanResponse.domain,
    bind_eq_ok, exists_unit, failIf_eq_ok, orFail_eq_ok, mapError_eq_ok, not_not] at h
  obtain ⟨members, hmembers, -, versionText, -, -, objectIdText, hobjectText, layoutIdText,
    hlayoutText, objectId, hobject, layoutId, hlayout, strategy, hstrategy, parameters,
    hparameters, totalSize, htotal, chunkCount, -, entries, hentries, -, chunks, hparsed, -, -,
    artifactId, -, layout, hmake, chunking, hchunking, descriptor, hdescriptor, hplan⟩ := h
  obtain rfl := Except.ok.inj hplan
  obtain ⟨hobjectField, rfl, rfl⟩ := ObjectLayoutDescriptor.fields_of_make hdescriptor
  have hrefs : descriptor.layout.chunks = chunks.map RestorePlanResponse.chunkRef :=
    ObjectLayout.chunks_of_make hmake
  have hread : List.Forall₂ ReadsChunkRef entries descriptor.layout.chunks := by
    rw [hrefs, List.forall₂_map_right_iff]
    exact (mapEach_eq_ok_iff.mp hparsed).imp fun entry chunk hchunk =>
      ((parseChunkSources_reads entry).of_ok hchunk).chunkRef
  have hobjectId : descriptor.objectId = objectId := congrArg StoredObject.objectId hobjectField
  have htotalSize : descriptor.object.totalSize = totalSize :=
    congrArg StoredObject.totalSize hobjectField
  refine ⟨members, hmembers, rfl, ⟨?_, ?_, ?_, ?_⟩, ?_, hrefs.symm⟩
  · exact reads_iff.mpr ⟨objectIdText, hobjectText, hobject.trans (congrArg some hobjectId.symm)⟩
  · exact htotalSize ▸ htotal
  · exact ⟨strategy, parameters, hstrategy, hparameters, hchunking⟩
  · exact ⟨entries, hentries, hread⟩
  · exact reads_iff.mpr ⟨layoutIdText, hlayoutText, hlayout⟩

theorem sourceRestorePlan_statesLayoutId {env : Environment} {versionId : ContentId}
    {sourceNodeId : String} {body : Text} {plan : RestorePlan}
    (h : SourceRestorePlanResponse.parse json env versionId sourceNodeId body = .ok plan) :
    ∃ members, (json.parse body).bind asObject? = some members ∧
      Reads members "layout_id" asContentId? (plan.layoutDescriptor.layoutId env) := by
  simp only [SourceRestorePlanResponse.parse, SourceRestorePlanResponse.typedField,
    SourceRestorePlanResponse.domain, bind_eq_ok, exists_unit, failIf_eq_ok, orFail_eq_ok,
    mapError_eq_ok, not_not] at h
  obtain ⟨members, hmembers, -, -, -, -, -, -, -, -, -, layoutIdText, hlayoutText, -, -, -, -, -, -,
    -, -, -, -, layoutId, hlayout, -, -, -, -, -, -, -, artifactId, -, -, -, -, -, descriptor, -, -,
    hsame, -, hplan⟩ := h
  obtain rfl := Except.ok.inj hplan
  subst hsame
  exact ⟨members, hmembers, reads_iff.mpr ⟨layoutIdText, hlayoutText, hlayout⟩⟩

/-- A plan that the decoder accepts agrees with itself exactly when its body states the layout
id of the descriptor that it describes. -/
theorem multi_node_plan_consistent_iff (env : Environment) (versionId : ContentId) (body : Text)
    (plan : MultiNodeRestorePlan)
    (h : RestorePlanResponse.parse json versionId body = .ok plan) :
    SelfConsistent env versionId plan ↔
      ∃ members, (json.parse body).bind asObject? = some members ∧
        StatesOwnLayoutId env members := by
  obtain ⟨members, hmembers, hversion, hreads, hlayoutId, hchunks⟩ := restorePlan_reads h
  constructor
  · intro hconsistent
    rw [hconsistent.layoutId] at hlayoutId
    exact ⟨members, hmembers, plan.layoutDescriptor, hreads, hlayoutId⟩
  · rintro ⟨members', hmembers', d, hd, hstated⟩
    obtain rfl := Option.some.inj (hmembers.symm.trans hmembers')
    obtain rfl := hd.unique hreads
    exact ⟨hversion, hlayoutId.unique hstated, hchunks⟩

end

namespace Sample

open Metadata.Sample

def foreignLayoutPlan : MultiNodeRestorePlan := { samplePlan with layoutId := chunkId }

theorem samplePlan_accepted (layoutId : ContentId) :
    RestorePlanResponse.parse valueLibrary versionId
        (multiNodeRestorePlanBody valueLibrary { samplePlan with layoutId := layoutId }) =
      .ok { samplePlan with layoutId := layoutId } :=
  restorePlan_roundTrip valueLibrary
    (show samplePlan.layoutDescriptor.object.totalSize ≤ _ by decide) rfl rfl
    (by simp [samplePlan, PortValid])

end Sample

theorem multi_node_plan_consistent_iff_sample :
    ∃ members, (Sample.valueLibrary.parse
        (multiNodeRestorePlanBody Sample.valueLibrary Sample.samplePlan)).bind asObject? =
          some members ∧
      StatesOwnLayoutId Metadata.Sample.env members :=
  (multi_node_plan_consistent_iff Metadata.Sample.env Metadata.Sample.versionId _
    Sample.samplePlan (Sample.samplePlan_accepted _)).mp ⟨rfl, rfl, rfl⟩

theorem multi_node_plan_accepts_foreign_layout_id :
    RestorePlanResponse.parse Sample.valueLibrary Metadata.Sample.versionId
        (multiNodeRestorePlanBody Sample.valueLibrary Sample.foreignLayoutPlan) =
      .ok Sample.foreignLayoutPlan ∧
    ¬SelfConsistent Metadata.Sample.env Metadata.Sample.versionId Sample.foreignLayoutPlan := by
  refine ⟨Sample.samplePlan_accepted _, fun hconsistent => ?_⟩
  have hlayoutId := hconsistent.layoutId
  revert hlayoutId
  decide +kernel

end AiArtifactStore.Wire
