import AiArtifactStore.Metadata.Rendezvous
import AiArtifactStore.Metadata.RestorePlanning
import AiArtifactStore.Replication.FullReplication

/-!
# The copies of a repair

What `repair` puts, and where.  A replica that the plan lists among the sources is put
only after a `HEAD` has missed it; one that it does not list is put without a look at
the node, at every position of its chunk.
-/

namespace AiArtifactStore.Replication

open AiArtifactStore.Foundation
open AiArtifactStore.Identity
open AiArtifactStore.Metadata
open AiArtifactStore.Storage
open AiArtifactStore.Client

/-- A put of a repair: the chunk, the target node and the number of its bytes. -/
structure Copy where
  chunkId : ContentId
  nodeId : String
  sizeBytes : Nat
  deriving DecidableEq, Repr

def Copy.replica (copy : Copy) : ContentId × String := (copy.chunkId, copy.nodeId)

def copyOf : RepairMessage → Option Copy
  | .storage nodeId (.putChunk chunkId bytes) => some ⟨chunkId, nodeId, bytes.length⟩
  | _ => none

def copies (sent : List RepairMessage) : List Copy := sent.filterMap copyOf

theorem copies_append (sent last : List RepairMessage) :
    copies (sent ++ last) = copies sent ++ copies last := List.filterMap_append

section

variable {context : RepairContext} {base s s' : RepairState} {nodeId : String}
  {chunkId : ContentId} {chunkPlan : ReplicationChunkPlan}

/-! ## Requests that copy nothing -/

structure Quiet (s s' : RepairState) : Prop where
  grows : s.services.Grows s'.services
  runs : s'.services.db.replicationRuns = s.services.db.replicationRuns
  copies : copies s'.sent = copies s.sent
  written : s'.stats.replicasWritten = s.stats.replicasWritten
  bytes : s'.stats.bytesCopied = s.stats.bytesCopied

theorem Quiet.refl (s : RepairState) : Quiet s s := ⟨.refl _, rfl, rfl, rfl, rfl⟩

theorem Quiet.trans {a b c : RepairState} (h : Quiet a b) (h' : Quiet b c) : Quiet a c :=
  ⟨h.grows.trans h'.grows, h'.runs.trans h.runs, h'.copies.trans h.copies,
    h'.written.trans h.written, h'.bytes.trans h.bytes⟩

theorem quiet_of_sent {services : Services} {message : RepairMessage}
    (hgrows : s.services.Grows services)
    (hruns : services.db.replicationRuns = s.services.db.replicationRuns)
    (hmessage : copyOf message = none) :
    Quiet s { s with services := services, sent := s.sent ++ [message] } := by
  refine ⟨hgrows, hruns, ?_, rfl, rfl⟩
  rw [copies_append]
  simp [copies, hmessage]

theorem countStats_quiet {f : ReplicationStats → ReplicationStats}
    (hf : ∀ stats, (f stats).replicasWritten = stats.replicasWritten ∧
      (f stats).bytesCopied = stats.bytesCopied) :
    Stateful.Preserves (Quiet base) (RepairEngine.countStats f) := by
  intro s hs
  exact hs.trans ⟨.refl _, rfl, rfl, (hf s.stats).1, (hf s.stats).2⟩

theorem hasChunk_quiet :
    Stateful.Preserves (Quiet base) (RepairEngine.hasChunk context nodeId chunkId) := by
  refine .bind (fun s hs => hs.trans ?_) fun response => .check _
  exact quiet_of_sent Services.headChunk_spec.1 rfl rfl

theorem getChunk_quiet :
    Stateful.Preserves (Quiet base) (RepairEngine.getChunk context nodeId chunkId) := by
  refine .bind (fun s hs => hs.trans ?_) fun response => .check _
  refine quiet_of_sent (Services.grows_setStore fun other hother => ?_) rfl rfl
  refine exchange_state (P := fun store => LocalChunkStore.contains store other = true) hother ?_
  rwa [serveStorage_getChunk_state]

theorem registerStorageLocation_quiet {location : StorageLocation}
    (hstate : location.state = .available) :
    Stateful.Preserves (Quiet base) (RepairEngine.registerStorageLocation context location) := by
  refine .bind (.check _) fun u s hs => hs.trans ?_
  refine quiet_of_sent (Services.grows_registerStorageLocation hstate).1 ?_ rfl
  refine exchange_state (P := fun db : Db => db.replicationRuns = _) rfl ?_
  rw [serveRegisterStorageLocation_locations]

theorem needsRepair_quiet :
    Stateful.Preserves (Quiet base) (RepairEngine.needsRepair context chunkPlan nodeId) := by
  refine .bind (.check _) fun u => ?_
  split
  · refine .bind hasChunk_quiet fun found => ?_
    split
    · exact .bind (countStats_quiet fun _ => ⟨rfl, rfl⟩) fun _ => .pure _
    · exact .pure _
  · exact .pure _

theorem targetsNeedingRepair_quiet {nodeIds : List String} :
    Stateful.Preserves (Quiet base)
      (RepairEngine.targetsNeedingRepair context chunkPlan nodeIds) := by
  induction nodeIds with
  | nil => exact .pure _
  | cons nodeId rest ih => exact .bind needsRepair_quiet fun _ => .bind ih fun _ => .pure _

theorem tryNode_quiet :
    Stateful.Preserves (Quiet base) (RepairEngine.tryNode context nodeId chunkId) := by
  refine .catching getChunk_quiet fun e handle hhandle => ?_
  split at hhandle
  · obtain rfl := Option.some.inj hhandle
    exact .bind (countStats_quiet fun _ => ⟨rfl, rfl⟩) fun _ => .pure _
  · cases hhandle

theorem readFromSources_quiet {sources : List NodeEndpoint} :
    Stateful.Preserves (Quiet base)
      (RepairEngine.readFromSources context chunkId sources) := by
  induction sources with
  | nil => exact .pure _
  | cons source rest ih =>
      unfold RepairEngine.readFromSources
      split
      · refine .bind tryNode_quiet fun found => ?_
        split
        · exact .pure _
        · exact ih
      · exact ih

/-! ## Puts -/

structure Puts (written : List Copy) (s s' : RepairState) : Prop where
  grows : s.services.Grows s'.services
  runs : s'.services.db.replicationRuns = s.services.db.replicationRuns
  copies : copies s'.sent = copies s.sent ++ written

structure Tally (s : RepairState) : Prop where
  written : s.stats.replicasWritten = (copies s.sent).length % 2 ^ 64
  bytes : s.stats.bytesCopied = ((copies s.sent).map Copy.sizeBytes).sum % 2 ^ 64

theorem Quiet.puts (h : Quiet s s') : Puts [] s s' :=
  ⟨h.grows, h.runs, by rw [h.copies, List.append_nil]⟩

theorem Quiet.tally (h : Quiet s s') (htally : Tally s) : Tally s' :=
  ⟨by rw [h.written, h.copies, htally.written], by rw [h.bytes, h.copies, htally.bytes]⟩

theorem Puts.trans {a b c : RepairState} {written later : List Copy} (h : Puts written a b)
    (h' : Puts later b c) : Puts (written ++ later) a c :=
  ⟨h.grows.trans h'.grows, h'.runs.trans h.runs,
    by rw [h'.copies, h.copies, List.append_assoc]⟩

theorem putChunk_puts {bytes : List UInt8} {result : Except EngineExc Unit}
    (h : RepairEngine.putChunk context nodeId chunkId bytes s = (result, s')) :
    ∃ written, written <+: [⟨chunkId, nodeId, bytes.length⟩] ∧ Puts written s s' ∧
      (result = .ok () → written = [⟨chunkId, nodeId, bytes.length⟩] ∧ s'.stats = s.stats) := by
  rcases Stateful.bind_eq h with ⟨e, hlimit, rfl⟩ | ⟨u, s₁, hlimit, h⟩
  · obtain ⟨-, rfl⟩ := Prod.mk.inj hlimit
    exact ⟨[], List.nil_prefix, (Quiet.refl _).puts, by simp⟩
  · obtain ⟨-, rfl⟩ := Prod.mk.inj hlimit
    have hstate : s' = (RepairEngine.sendStorage context nodeId (.putChunk chunkId bytes) s).2 := by
      rcases Stateful.bind_eq h with ⟨e, hsend, -⟩ | ⟨response, s₂, hsend, hcheck⟩
      · rw [hsend]
      · rw [hsend]
        exact (Prod.mk.inj hcheck).2.symm
    subst hstate
    refine ⟨_, List.prefix_rfl, ⟨Services.putChunk_spec.1, rfl, ?_⟩, fun _ => ⟨rfl, rfl⟩⟩
    exact copies_append s.sent _

def copyTo (chunkPlan : ReplicationChunkPlan) (nodeId : String) : Copy :=
  ⟨chunkPlan.chunkId, nodeId, chunkPlan.sizeBytes⟩

structure Written (chunkPlan : ReplicationChunkPlan) (targets : List String)
    (s s' : RepairState) : Prop where
  puts : Puts (targets.map (copyTo chunkPlan)) s s'
  present : ∀ nodeId ∈ targets, s'.services.Present chunkPlan.chunkId nodeId
  small : ∀ nodeId ∈ targets, chunkPlan.sizeBytes ≤ maxBodyBytes
  tally : Tally s → Tally s'

theorem Written.nil (h : Quiet s s') : Written chunkPlan [] s s' :=
  ⟨h.puts, by simp, by simp, h.tally⟩

theorem Written.cons {targets : List String} {s₁ : RepairState}
    (h : Written chunkPlan [nodeId] s s₁) (h' : Written chunkPlan targets s₁ s') :
    Written chunkPlan (nodeId :: targets) s s' := by
  refine ⟨h.puts.trans h'.puts, fun other hother => ?_, fun other hother => ?_,
    fun htally => h'.tally (h.tally htally)⟩
  · rcases List.mem_cons.mp hother with rfl | hother
    · exact h'.puts.grows.present _ _ (h.present other (by simp))
    · exact h'.present other hother
  · exact h.small nodeId (by simp)

theorem writeTarget_puts {bytes : List UInt8} {result : Except EngineExc Unit}
    (hsize : bytes.length = chunkPlan.sizeBytes)
    (h : RepairEngine.writeTarget context chunkPlan bytes nodeId s = (result, s')) :
    ∃ written, written <+: [copyTo chunkPlan nodeId] ∧ Puts written s s' ∧
      (result = .ok () → Written chunkPlan [nodeId] s s') := by
  have hcopy : (⟨chunkPlan.chunkId, nodeId, bytes.length⟩ : Copy) = copyTo chunkPlan nodeId := by
    rw [hsize, copyTo]
  rcases Stateful.bind_eq h with ⟨e, hput, rfl⟩ | ⟨u, s₁, hput, hlater⟩
  · obtain ⟨written, hstarts, hputs, -⟩ := putChunk_puts hput
    exact ⟨written, hcopy ▸ hstarts, hputs, by simp⟩
  · obtain ⟨written, -, hputs, hall⟩ := putChunk_puts hput
    obtain ⟨rfl, hstats⟩ := hall rfl
    rw [hcopy] at hputs
    rcases Stateful.bind_eq hlater with ⟨e, hregister, rfl⟩ | ⟨u, s₂, hregister, hcount⟩
    · have hquiet : Quiet s₁ s' := (registerStorageLocation_quiet rfl).state (.refl s₁) hregister
      exact ⟨_, List.prefix_rfl, hputs.trans hquiet.puts, by simp⟩
    · have hquiet : Quiet s₁ s₂ := (registerStorageLocation_quiet rfl).state (.refl s₁) hregister
      obtain ⟨-, rfl⟩ := Prod.mk.inj hcount
      have hall : Puts [copyTo chunkPlan nodeId] s s₂ := hputs.trans hquiet.puts
      obtain ⟨-, hpresent, hsmall⟩ := putChunk_spec hput
      refine ⟨_, List.prefix_rfl, ⟨hall.grows, hall.runs, hall.copies⟩, fun _ =>
        ⟨⟨hall.grows, hall.runs, hall.copies⟩, fun other hother => ?_, fun _ _ => hsize ▸ hsmall,
          fun htally => ⟨?_, ?_⟩⟩⟩
      · obtain rfl := List.mem_singleton.mp hother
        exact hquiet.grows.present _ _ hpresent
      · have hcount : s₂.stats.replicasWritten = (copies s.sent).length % 2 ^ 64 := by
          rw [hquiet.written, hstats, htally.written]
        simp only [hall.copies, List.length_append, List.length_singleton, hcount, addCounter,
          Nat.mod_add_mod]
      · have hcount : s₂.stats.bytesCopied = ((copies s.sent).map Copy.sizeBytes).sum % 2 ^ 64 := by
          rw [hquiet.bytes, hstats, htally.bytes]
        simp only [hall.copies, List.map_append, List.map_cons, List.map_nil, List.sum_append,
          List.sum_cons, List.sum_nil, Nat.add_zero, hcount, addCounter, Nat.mod_add_mod, copyTo]

/-- The targets are written in order, as far as nothing fails. -/
theorem writeTargets_puts {bytes : List UInt8} {targets : List String}
    {result : Except EngineExc Unit} (hsize : bytes.length = chunkPlan.sizeBytes)
    (h : Stateful.forEach (RepairEngine.writeTarget context chunkPlan bytes) targets s =
      (result, s')) :
    ∃ written, written <+: targets.map (copyTo chunkPlan) ∧ Puts written s s' ∧
      (result = .ok () → Written chunkPlan targets s s') := by
  induction targets generalizing s with
  | nil =>
      obtain ⟨-, rfl⟩ := Prod.mk.inj h
      exact ⟨[], List.nil_prefix, (Quiet.refl _).puts, fun _ => .nil (.refl _)⟩
  | cons nodeId rest ih =>
      rcases Stateful.bind_eq h with ⟨e, hfirst, rfl⟩ | ⟨u, s₁, hfirst, hrest⟩
      · obtain ⟨written, hstarts, hputs, -⟩ := writeTarget_puts hsize hfirst
        exact ⟨written, hstarts.trans (List.prefix_append _ _), hputs, by simp⟩
      · obtain ⟨-, -, -, hwritten⟩ := writeTarget_puts hsize hfirst
        obtain ⟨later, hstarts, hputs, hlater⟩ := ih hrest
        have hone := hwritten rfl
        exact ⟨_, List.prefix_cons_inj _ |>.mpr hstarts, hone.puts.trans hputs, fun hok =>
          hone.cons (hlater hok)⟩

/-! ## One chunk -/

def unrecordedNodes (chunkPlan : ReplicationChunkPlan) : List String :=
  chunkPlan.desiredNodeIds.filter fun nodeId =>
    !RepairEngine.metadataSaysAvailable chunkPlan nodeId

def Missed (chunkPlan : ReplicationChunkPlan) (s : RepairState) (targets : List String) : Prop :=
  ∀ nodeId ∈ targets, RepairEngine.metadataSaysAvailable chunkPlan nodeId = true →
    ¬s.services.Present chunkPlan.chunkId nodeId

theorem needsRepair_missed {needed : Bool}
    (h : RepairEngine.needsRepair context chunkPlan nodeId s = (.ok needed, s')) :
    (needed = false → RepairEngine.metadataSaysAvailable chunkPlan nodeId = true) ∧
      (needed = true → Missed chunkPlan s [nodeId]) := by
  obtain ⟨u, s₁, hcheck, h⟩ := Stateful.bind_eq_ok.mp h
  obtain ⟨-, rfl⟩ := Stateful.check_eq_ok.mp hcheck
  split at h
  · rename_i hrecorded
    obtain ⟨found, s₁, hhas, h⟩ := Stateful.bind_eq_ok.mp h
    obtain ⟨response, s₂, hsend, hanswer⟩ := Stateful.bind_eq_ok.mp hhas
    obtain ⟨hfound, -⟩ := Stateful.check_eq_ok.mp hanswer
    obtain ⟨hresponse, -⟩ := Prod.mk.inj hsend
    obtain rfl := Except.ok.inj hresponse
    have htruth := Services.headChunk_answer hfound
    refine ⟨fun _ => hrecorded, fun hneeded other hother _ hpresent => ?_⟩
    obtain rfl := List.mem_singleton.mp hother
    rw [Services.Present, htruth] at hpresent
    subst hpresent
    obtain ⟨u, s₃, -, hpure⟩ := Stateful.bind_eq_ok.mp h
    obtain ⟨hfalse, -⟩ := (Stateful.pure_eq _ _ _ _).mp hpure
    rw [hneeded] at hfalse
    cases hfalse
  · rename_i hunrecorded
    obtain ⟨rfl, -⟩ := (Stateful.pure_eq _ _ _ _).mp h
    refine ⟨by simp, fun _ other hother hrecorded => ?_⟩
    obtain rfl := List.mem_singleton.mp hother
    exact absurd hrecorded hunrecorded

theorem targetsNeedingRepair_missed {nodeIds targets : List String}
    (h : RepairEngine.targetsNeedingRepair context chunkPlan nodeIds s = (.ok targets, s')) :
    targets.Sublist nodeIds ∧
      (nodeIds.filter fun nodeId =>
        !RepairEngine.metadataSaysAvailable chunkPlan nodeId).Sublist targets ∧
      Missed chunkPlan s targets := by
  induction nodeIds generalizing s s' targets with
  | nil =>
      obtain ⟨rfl, -⟩ := (Stateful.pure_eq _ _ _ _).mp h
      exact ⟨.refl _, .refl _, by simp [Missed]⟩
  | cons nodeId rest ih =>
      obtain ⟨needed, s₁, hneeds, h⟩ := Stateful.bind_eq_ok.mp h
      obtain ⟨later, s₂, hrest, h⟩ := Stateful.bind_eq_ok.mp h
      obtain ⟨rfl, -⟩ := (Stateful.pure_eq _ _ _ _).mp h
      obtain ⟨hrecorded, hfirst⟩ := needsRepair_missed hneeds
      obtain ⟨hsub, hunrecorded, hlater⟩ := ih hrest
      have hquiet : Quiet s s₁ := needsRepair_quiet.state (.refl s) hneeds
      have hmissed : Missed chunkPlan s later := fun other hother hlisted hpresent =>
        hlater other hother hlisted (hquiet.grows.present _ _ hpresent)
      cases needed with
      | false =>
          refine ⟨hsub.cons _, ?_, hmissed⟩
          rwa [List.filter_cons_of_neg (by simp [hrecorded rfl])]
      | true =>
          refine ⟨hsub.cons_cons _, ?_, fun other hother => ?_⟩
          · rw [List.filter_cons]
            split
            · exact hunrecorded.cons_cons _
            · exact hunrecorded.cons _
          · rcases List.mem_cons.mp hother with rfl | hother
            · exact hfirst rfl other (by simp)
            · exact hmissed other hother

structure ChunkPuts (chunkPlan : ReplicationChunkPlan) (s s' : RepairState)
    (targets : List String) (written : List Copy) : Prop where
  desired : targets.Sublist chunkPlan.desiredNodeIds
  missed : Missed chunkPlan s targets
  started : written <+: targets.map (copyTo chunkPlan)
  puts : Puts written s s'

theorem ChunkPuts.nil (h : Quiet s s') : ChunkPuts chunkPlan s s' [] [] :=
  ⟨List.nil_sublist _, by simp [Missed], List.nil_prefix, h.puts⟩

theorem repairChunk_puts {result : Except EngineExc Unit}
    (h : RepairEngine.repairChunk context chunkPlan s = (result, s')) :
    ∃ targets written, ChunkPuts chunkPlan s s' targets written ∧
      (result = .ok () → Written chunkPlan targets s s' ∧
        (unrecordedNodes chunkPlan).Sublist targets) := by
  rcases Stateful.bind_eq h with ⟨e, hcount, -⟩ | ⟨u, s₁, hcount, h⟩
  · cases (Prod.mk.inj hcount).1
  have hquiet₁ : Quiet s s₁ := by
    obtain ⟨-, rfl⟩ := Prod.mk.inj hcount
    exact ⟨.refl _, rfl, rfl, rfl, rfl⟩
  rcases Stateful.bind_eq h with ⟨e, htargets, rfl⟩ | ⟨targets, s₂, htargets, h⟩
  · have hquiet : Quiet s s' := targetsNeedingRepair_quiet.state hquiet₁ htargets
    exact ⟨[], [], .nil hquiet, by simp⟩
  have hquiet₂ : Quiet s s₂ := targetsNeedingRepair_quiet.state hquiet₁ htargets
  obtain ⟨hdesired, hunrecorded, hmissed₁⟩ := targetsNeedingRepair_missed htargets
  have hmissed : Missed chunkPlan s targets := fun other hother hlisted hpresent =>
    hmissed₁ other hother hlisted (hquiet₁.grows.present _ _ hpresent)
  split at h
  · rename_i hnone
    subst hnone
    obtain ⟨-, rfl⟩ := Prod.mk.inj h
    exact ⟨[], [], .nil hquiet₂, fun _ => ⟨.nil hquiet₂, hunrecorded⟩⟩
  -- a failure before the first put
  have hbefore {e : EngineExc} (hquiet : Quiet s s') : ∃ targets written,
      ChunkPuts chunkPlan s s' targets written ∧
        ((.error e : Except EngineExc Unit) = .ok () → Written chunkPlan targets s s' ∧
          (unrecordedNodes chunkPlan).Sublist targets) := ⟨[], [], .nil hquiet, by simp⟩
  rcases Stateful.bind_eq h with ⟨e, hunder, -⟩ | ⟨u, s₃, hunder, h⟩
  · cases (Prod.mk.inj hunder).1
  have hquiet₃ : Quiet s s₃ := by
    obtain ⟨-, rfl⟩ := Prod.mk.inj hunder
    exact hquiet₂.trans ⟨.refl _, rfl, rfl, rfl, rfl⟩
  rcases Stateful.bind_eq h with ⟨e, hread, rfl⟩ | ⟨found, s₄, hread, h⟩
  · exact hbefore (readFromSources_quiet.state hquiet₃ hread)
  have hquiet₄ : Quiet s s₄ := readFromSources_quiet.state hquiet₃ hread
  rcases Stateful.bind_eq h with ⟨e, hfound, rfl⟩ | ⟨bytes, s₅, hfound, h⟩
  · obtain ⟨-, rfl⟩ := Prod.mk.inj hfound
    exact hbefore hquiet₄
  obtain ⟨-, rfl⟩ := Prod.mk.inj hfound
  rcases Stateful.bind_eq h with ⟨e, hsize, rfl⟩ | ⟨u, s₆, hsize, hwrite⟩
  · obtain ⟨-, rfl⟩ := Prod.mk.inj hsize
    exact hbefore hquiet₄
  obtain ⟨hequal, rfl⟩ := Prod.mk.inj hsize
  obtain ⟨written, hstarts, hputs, hall⟩ :=
    writeTargets_puts (Decidable.not_not.mp (failIf_eq_ok.mp hequal)) hwrite
  refine ⟨targets, written, ⟨hdesired, hmissed, hstarts, hquiet₄.puts.trans hputs⟩, fun hok =>
    ⟨⟨hquiet₄.puts.trans (hall hok).puts, (hall hok).present, (hall hok).small, fun htally =>
      (hall hok).tally (hquiet₄.tally htally)⟩, hunrecorded⟩⟩

/-! ## The chunks of a plan -/

/-- The replicas of the chunk that the plan desires and does not list as sources. -/
def unrecorded (chunkPlan : ReplicationChunkPlan) : List (ContentId × String) :=
  (unrecordedNodes chunkPlan).map fun nodeId => (chunkPlan.chunkId, nodeId)

structure PlanOf (services : Services) (chunks : List ReplicationChunkPlan) : Prop where
  desired : ∀ chunkPlan ∈ chunks,
    chunkPlan.desiredNodeIds.Nodup ∧ chunkPlan.desiredNodeIds.length ≤ 8
  sources : ∀ chunkPlan ∈ chunks, ∀ other ∈ chunks, chunkPlan.chunkId = other.chunkId →
    chunkPlan.sourceNodes = other.sourceNodes
  recorded : ∀ chunkPlan ∈ chunks, ∀ nodeId ∈ chunkPlan.desiredNodeIds,
    services.Available chunkPlan.chunkId nodeId →
      RepairEngine.metadataSaysAvailable chunkPlan nodeId = true

variable {services : Services} {chunks processed : List ReplicationChunkPlan}
  {targets : List String} {written : List Copy} {copy : Copy}

theorem ChunkPuts.mem (h : ChunkPuts chunkPlan s s' targets written) (hcopy : copy ∈ written) :
    copy.chunkId = chunkPlan.chunkId ∧ copy.nodeId ∈ targets := by
  obtain ⟨nodeId, hnode, rfl⟩ := List.mem_map.mp (h.started.subset hcopy)
  exact ⟨rfl, hnode⟩

/-- Only replicas are put that were not stored before. -/
theorem ChunkPuts.missing (h : ChunkPuts chunkPlan s s' targets written)
    (hgrows : services.Grows s.services)
    (hrecorded : ∀ nodeId ∈ chunkPlan.desiredNodeIds,
      services.Available chunkPlan.chunkId nodeId →
        RepairEngine.metadataSaysAvailable chunkPlan nodeId = true)
    (hcopy : copy ∈ written) : ¬services.Stored copy.chunkId copy.nodeId := by
  obtain ⟨hid, htarget⟩ := h.mem hcopy
  rw [hid]
  rintro ⟨hpresent, havailable⟩
  have hlisted := hrecorded _ (h.desired.subset htarget) havailable
  exact h.missed _ htarget hlisted (hgrows.present _ _ hpresent)

theorem repairChunks_missing {result : Except EngineExc Unit} (hplan : PlanOf services chunks)
    (hgrows : services.Grows s.services)
    (hbefore : ∀ copy ∈ copies s.sent, ¬services.Stored copy.chunkId copy.nodeId)
    {rest : List ReplicationChunkPlan} (hrest : ∀ chunkPlan ∈ rest, chunkPlan ∈ chunks)
    (h : Stateful.forEach (RepairEngine.repairChunk context) rest s = (result, s')) :
    ∀ copy ∈ copies s'.sent, ¬services.Stored copy.chunkId copy.nodeId := by
  induction rest generalizing s with
  | nil =>
      obtain ⟨-, rfl⟩ := Prod.mk.inj h
      exact hbefore
  | cons chunkPlan rest ih =>
      have hchunk {after : RepairState} {targets : List String} {written : List Copy}
          (hputs : ChunkPuts chunkPlan s after targets written) :
          ∀ copy ∈ copies after.sent, ¬services.Stored copy.chunkId copy.nodeId := by
        intro copy hcopy
        rw [hputs.puts.copies] at hcopy
        rcases List.mem_append.mp hcopy with hcopy | hcopy
        · exact hbefore copy hcopy
        · exact hputs.missing hgrows (hplan.recorded chunkPlan (hrest _ (by simp))) hcopy
      rcases Stateful.bind_eq h with ⟨e, hfirst, -⟩ | ⟨u, s₁, hfirst, hlater⟩
      · obtain ⟨targets, written, hputs, -⟩ := repairChunk_puts hfirst
        exact hchunk hputs
      · obtain ⟨targets, written, hputs, -⟩ := repairChunk_puts hfirst
        exact ih (hgrows.trans hputs.puts.grows) (hchunk hputs)
          (fun other hother => hrest other (by simp [hother])) hlater

structure Apart (processed : List ReplicationChunkPlan) (s : RepairState) : Prop where
  once : ((copies s.sent).map Copy.replica).Nodup
  present : ∀ copy ∈ copies s.sent, s.services.Present copy.chunkId copy.nodeId
  planned : ∀ copy ∈ copies s.sent, ∃ chunkPlan ∈ processed,
    chunkPlan.chunkId = copy.chunkId ∧ copy.nodeId ∈ chunkPlan.desiredNodeIds

theorem Apart.once_chunk (h : Apart processed s)
    (hputs : ChunkPuts chunkPlan s s' targets written)
    (hplan : PlanOf services (processed ++ chunkPlan :: chunks))
    (honce : ((processed ++ chunkPlan :: chunks).flatMap unrecorded).Nodup) :
    ((copies s'.sent).map Copy.replica).Nodup := by
  have hmem : chunkPlan ∈ processed ++ chunkPlan :: chunks := by simp
  rw [hputs.puts.copies, List.map_append, List.nodup_append]
  refine ⟨h.once, ?_, ?_⟩
  · have htargets : targets.Nodup := (hplan.desired chunkPlan hmem).1.sublist hputs.desired
    have hall : ((targets.map (copyTo chunkPlan)).map Copy.replica).Nodup := by
      rw [List.map_map]
      exact htargets.map fun a b hab => (Prod.mk.inj hab).2
    exact hall.sublist (hputs.started.sublist.map _)
  · -- a copy of an earlier chunk with the same id, whether recorded or not
    rintro replica hfirst _ hsecond rfl
    obtain ⟨earlier, hearlier, rfl⟩ := List.mem_map.mp hfirst
    obtain ⟨later, hlater, hsame⟩ := List.mem_map.mp hsecond
    obtain ⟨hid, hnode⟩ := Prod.mk.inj hsame
    obtain ⟨hchunk, htarget⟩ := hputs.mem hlater
    obtain ⟨previous, hprevious, hpreviousId, hdesired⟩ := h.planned earlier hearlier
    have hids : previous.chunkId = chunkPlan.chunkId := by rw [hpreviousId, ← hid, hchunk]
    have hsources : previous.sourceNodes = chunkPlan.sourceNodes :=
      hplan.sources previous (List.mem_append_left _ hprevious) chunkPlan hmem hids
    cases hlisted : RepairEngine.metadataSaysAvailable chunkPlan later.nodeId with
    | true =>
        refine hputs.missed _ htarget hlisted ?_
        rw [← hchunk, hid, hnode]
        exact h.present earlier hearlier
    | false =>
        rw [List.flatMap_append, List.nodup_append] at honce
        refine honce.2.2 (chunkPlan.chunkId, later.nodeId) ?_ _ ?_ rfl
        · refine List.mem_flatMap.mpr ⟨previous, hprevious, List.mem_map.mpr
            ⟨later.nodeId, List.mem_filter.mpr ⟨hnode ▸ hdesired, ?_⟩, by rw [hids]⟩⟩
          rw [RepairEngine.metadataSaysAvailable, hsources]
          simpa [RepairEngine.metadataSaysAvailable] using hlisted
        · refine List.mem_flatMap.mpr ⟨chunkPlan, by simp, List.mem_map.mpr
            ⟨later.nodeId, List.mem_filter.mpr ⟨hputs.desired.subset htarget, ?_⟩, rfl⟩⟩
          simp [hlisted]

theorem Apart.chunk (h : Apart processed s) (hputs : ChunkPuts chunkPlan s s' targets written)
    (hplan : PlanOf services (processed ++ chunkPlan :: chunks))
    (honce : ((processed ++ chunkPlan :: chunks).flatMap unrecorded).Nodup)
    (hwritten : Written chunkPlan targets s s') : Apart (processed ++ [chunkPlan]) s' := by
  refine ⟨h.once_chunk hputs hplan honce, fun copy hcopy => ?_, fun copy hcopy => ?_⟩
  · rw [hwritten.puts.copies] at hcopy
    rcases List.mem_append.mp hcopy with hcopy | hcopy
    · exact hwritten.puts.grows.present _ _ (h.present copy hcopy)
    · obtain ⟨nodeId, hnode, rfl⟩ := List.mem_map.mp hcopy
      exact hwritten.present nodeId hnode
  · rw [hputs.puts.copies] at hcopy
    rcases List.mem_append.mp hcopy with hcopy | hcopy
    · obtain ⟨previous, hprevious, hsame⟩ := h.planned copy hcopy
      exact ⟨previous, List.mem_append_left _ hprevious, hsame⟩
    · obtain ⟨hid, htarget⟩ := hputs.mem hcopy
      exact ⟨chunkPlan, by simp, hid.symm, hputs.desired.subset htarget⟩

theorem repairChunks_once {result : Except EngineExc Unit} (h : Apart processed s)
    (hplan : PlanOf services (processed ++ chunks))
    (honce : ((processed ++ chunks).flatMap unrecorded).Nodup)
    (hloop : Stateful.forEach (RepairEngine.repairChunk context) chunks s = (result, s')) :
    ((copies s'.sent).map Copy.replica).Nodup := by
  induction chunks generalizing processed s with
  | nil =>
      obtain ⟨-, rfl⟩ := Prod.mk.inj hloop
      exact h.once
  | cons chunkPlan rest ih =>
      rcases Stateful.bind_eq hloop with ⟨e, hfirst, -⟩ | ⟨u, s₁, hfirst, hlater⟩
      · obtain ⟨targets, written, hputs, -⟩ := repairChunk_puts hfirst
        exact h.once_chunk hputs hplan honce
      · obtain ⟨targets, written, hputs, hall⟩ := repairChunk_puts hfirst
        have hnext := h.chunk hputs hplan honce (hall rfl).1
        rw [List.append_cons] at hplan honce
        exact ih hnext hplan honce hlater

theorem repairChunks_written (hdesired : ∀ chunkPlan ∈ chunks, chunkPlan.desiredNodeIds.length ≤ 8)
    (h : Stateful.forEach (RepairEngine.repairChunk context) chunks s = (.ok (), s')) :
    ∃ written, Puts written s s' ∧
      (chunks.flatMap unrecorded).Sublist (written.map Copy.replica) ∧
      (∀ copy ∈ written, copy.sizeBytes ≤ maxBodyBytes) ∧ written.length ≤ chunks.length * 8 ∧
      (Tally s → Tally s') := by
  induction chunks generalizing s with
  | nil =>
      obtain ⟨-, rfl⟩ := Prod.mk.inj h
      exact ⟨[], (Quiet.refl _).puts, .refl _, by simp, by simp, id⟩
  | cons chunkPlan rest ih =>
      obtain ⟨u, s₁, hfirst, hlater⟩ := Stateful.bind_eq_ok.mp h
      obtain ⟨targets, started, hchunk, hall⟩ := repairChunk_puts hfirst
      obtain ⟨hwritten, hunrecorded⟩ := hall rfl
      obtain ⟨later, hputs, hsub, hsmall, hlength, htally⟩ :=
        ih (fun other hother => hdesired other (by simp [hother])) hlater
      refine ⟨_, hwritten.puts.trans hputs, ?_, fun copy hcopy => ?_, ?_, fun hbefore =>
        htally (hwritten.tally hbefore)⟩
      · rw [List.flatMap_cons, List.map_append, List.map_map]
        exact (hunrecorded.map _).append hsub
      · rcases List.mem_append.mp hcopy with hcopy | hcopy
        · obtain ⟨nodeId, hnode, rfl⟩ := List.mem_map.mp hcopy
          exact hwritten.small nodeId hnode
        · exact hsmall copy hcopy
      · have hcount := hchunk.desired.length_le.trans (hdesired chunkPlan (by simp))
        rw [List.length_append, List.length_map, List.length_cons, Nat.add_mul]
        omega

end

end AiArtifactStore.Replication
