import AiArtifactStore.Metadata.Completion
import AiArtifactStore.Metadata.Retirement

/-!
# Retries of a committed finalization

What a committed session leaves in the database, that every operation keeps it
while the version is not retired, and what a retry of `finalize_upload` answers.
-/

namespace AiArtifactStore.Metadata

open AiArtifactStore.Foundation
open AiArtifactStore.Identity

/-- The stored row reads as a descriptor that the retry accepts for `d`. -/
def ReadsAs (env : Environment) (stored : ObjectLayoutRow) (d : ObjectLayoutDescriptor) : Prop :=
  ∃ read, readLayoutRow env stored = .ok read ∧ read.objectId = d.objectId ∧
    read.chunkingStrategy = d.chunkingStrategy ∧ read.canonicalBytes = d.canonicalBytes

structure CommittedAs (env : Environment) (db : Db) (row : SessionRow)
    (d : ObjectLayoutDescriptor) : Prop where
  session : db.uploadSessions.find? row.sessionId = some row
  status : row.status = .committed ((finalVersion row d).versionId env)
  parent : row.session.parentVersionId ≠ some ((finalVersion row d).versionId env)
  finalization : db.finalizations.find? row.sessionId =
    some ⟨row.sessionId, some (d.layoutId env)⟩
  sizeFits : d.object.totalSize ≤ postgresBigintMax
  object : db.objects.find? d.objectId = some d.object
  layout : ∃ stored, db.objectLayouts.find? (d.layoutId env) = some stored ∧ ReadsAs env stored d
  version : artifactVersionIdentityMatches env db (finalVersion row d) = true

def ParentsDiffer (db : Db) : Prop :=
  ∀ version ∈ db.artifactVersions, version.parentVersionId ≠ some version.versionId

variable {env : Environment} {db db' db₁ db₂ : Db} {op : ServiceOp} {row : SessionRow}
  {d : ObjectLayoutDescriptor}

/-! ## Parents -/

theorem parentsDiffer_effect (he : Effect env db op db') (h : ParentsDiffer db) :
    ParentsDiffer db' := by
  cases he with
  | @finalized now createdAt row d table hfinalizes =>
      intro version hversion
      rcases Table.mem_upsert.mp hversion with rfl | ⟨hversion, -⟩
      · rcases hfinalizes.version with ⟨-, hparent, -⟩ | ⟨state, hstored⟩
        · exact hparent
        · have hsame := h _ (Table.mem_of_find? hstored)
          exact hsame
      · exact h version hversion
  | @gcCompleted run completed stats hcompletes =>
      obtain ⟨_, _, _, _, _, heq⟩ := completedGcDb_frame db run completed
      rw [heq]
      exact h
  | _ => exact h

theorem parentsDiffer_of_reachable (h : Reachable env db) : ParentsDiffer db :=
  reachable_invariant (fun version hversion => absurd hversion (Table.not_mem_empty version))
    (fun _ _ _ he => parentsDiffer_effect he) h

/-! ## The committed rows stay -/

theorem identityMatches_effect {version : ArtifactVersion} (he : Effect env db op db')
    (h : artifactVersionIdentityMatches env db version = true) :
    artifactVersionIdentityMatches env db' version = true := by
  obtain ⟨stored, hstored, hidentity⟩ := artifactVersionIdentityMatches_iff.mp h
  obtain ⟨stored', hstored', hsame⟩ := version_effect he (Table.mem_of_find? hstored)
  have hidentity' : stored' =
      { versionRow env stored'.createdAt version with state := stored'.state } := by
    rw [hsame, hidentity]
    rfl
  refine artifactVersionIdentityMatches_iff.mpr ⟨stored', ?_, hidentity'⟩
  refine Table.find?_eq_some.mpr ⟨hstored', ?_⟩
  rw [hidentity']
  rfl

theorem CommittedAs.liveLayout (h : CommittedAs env db row d)
    (hretired : ¬db.Retired ((finalVersion row d).versionId env)) {stored : ObjectLayoutRow}
    (hstored : stored.layoutId = d.layoutId env) : db.LiveLayout stored := by
  refine .inr ⟨_, Table.mem_of_find? h.finalization, by rw [hstored], _, ?_, hretired⟩
  simp [Db.finalizedVersionOf, h.session, h.status, UploadSessionStatus.finalizedVersionId]

theorem CommittedAs.finalized (h : CommittedAs env db row d) {other : SessionRow}
    {d' : ObjectLayoutDescriptor} {createdAt : Int} {table : Table ChunkMetadata.chunkId}
    (hfinalizes : Finalizes env db other d' createdAt table)
    (hversion : artifactVersionIdentityMatches env (finalizedDb env db other d' createdAt table)
      (finalVersion row d) = true) :
    CommittedAs env (finalizedDb env db other d' createdAt table) row d := by
  have hdiffer : other.sessionId ≠ row.sessionId := by
    intro hid
    have hsame := hfinalizes.stored
    rw [hid, h.session] at hsame
    have hopen := hfinalizes.isOpen
    rw [← Option.some.inj hsame, h.status] at hopen
    cases hopen
  obtain ⟨stored, hstored, hreads⟩ := h.layout
  refine ⟨?_, h.status, h.parent, ?_, h.sizeFits, ?_, ⟨stored, ?_, hreads⟩, hversion⟩
  · unfold finalizedDb
    simp only [Table.find?_upsert]
    exact (if_neg hdiffer).trans h.session
  · unfold finalizedDb
    exact Table.find?_insert_mono h.finalization
  · unfold finalizedDb
    exact Table.find?_insert_mono h.object
  · unfold finalizedDb
    exact Table.find?_insert_mono hstored

theorem CommittedAs.swept (h : CommittedAs env db row d)
    (hretired : ¬db.Retired ((finalVersion row d).versionId env)) (targetNodeId : String) :
    CommittedAs env (sweptDb db targetNodeId) row d := by
  obtain ⟨stored, hstored, hreads⟩ := h.layout
  have hmem := Table.mem_of_find? hstored
  have hkey : stored.layoutId = d.layoutId env := Table.key_of_find? hstored
  have hlive := h.liveLayout hretired hkey
  refine ⟨h.session, h.status, h.parent, ?_, h.sizeFits, ?_, ⟨stored, ?_, hreads⟩, h.version⟩
  · have hfinalization := h.finalization
    rw [← hkey] at hfinalization ⊢
    exact find?_sweptDb_finalizations hfinalization hmem hlive
  · obtain ⟨version, hversion, hidentity⟩ := artifactVersionIdentityMatches_iff.mp h.version
    have hroot : version.rootObjectId = d.objectId := by
      rw [hidentity]
      rfl
    exact Table.find?_eq_some.mpr ⟨mem_sweptDb_objects.mpr ⟨Table.mem_of_find? h.object,
      .inl ⟨version, Table.mem_of_find? hversion, hroot⟩⟩, rfl⟩
  · rw [← hkey]
    exact find?_sweptDb_objectLayouts hmem hlive

theorem CommittedAs.completed (h : CommittedAs env db row d)
    (hretired : ¬db.Retired ((finalVersion row d).versionId env)) (run completed : GcRun) :
    CommittedAs env (completedGcDb db run completed) row d := by
  unfold completedGcDb completionDb
  cases run.mode with
  | dryRun =>
      exact ⟨h.session, h.status, h.parent, h.finalization, h.sizeFits, h.object, h.layout,
        h.version⟩
  | apply =>
      have hswept := h.swept hretired run.targetNodeId
      exact ⟨hswept.session, h.status, h.parent, hswept.finalization, h.sizeFits, hswept.object,
        hswept.layout, hswept.version⟩

theorem CommittedAs.effect (he : Effect env db op db') (h : CommittedAs env db row d)
    (hretired : ¬db.Retired ((finalVersion row d).versionId env)) :
    CommittedAs env db' row d := by
  have hversion := identityMatches_effect he h.version
  cases he with
  | sessionOpened hopened =>
      exact ⟨Table.find?_insert_mono h.session, h.status, h.parent, h.finalization, h.sizeFits,
        h.object, h.layout, h.version⟩
  | @sessionAborted sessionId other hother hopen =>
      have hdiffer : other.sessionId ≠ row.sessionId := by
        intro hid
        have hsame := Table.find?_of_mem hother
        rw [hid, h.session] at hsame
        rw [← Option.some.inj hsame, h.status] at hopen
        cases hopen
      refine ⟨?_, h.status, h.parent, h.finalization, h.sizeFits, h.object, h.layout, h.version⟩
      simp only [Table.find?_upsert]
      exact (if_neg hdiffer).trans h.session
  | finalized hfinalizes => exact h.finalized hfinalizes hversion
  | @gcCompleted run completed stats hcompletes => exact h.completed hretired run completed
  | _ =>
      exact ⟨h.session, h.status, h.parent, h.finalization, h.sizeFits, h.object, h.layout,
        hversion⟩

/-- Retirement is terminal, so a version that is not retired at the end was not
retired before. -/
theorem CommittedAs.evolves {allowed : ServiceOp → Prop} (h : CommittedAs env db row d)
    (he : Evolves env allowed db db')
    (hretired : ¬db'.Retired ((finalVersion row d).versionId env)) :
    CommittedAs env db' row d := by
  unfold Evolves at he
  induction he with
  | refl => exact h
  | tail _ hstep ih =>
      obtain ⟨op, -, heffect⟩ := serviceStep_effect hstep
      have hbefore := mt (retired_effect heffect) hretired
      exact (ih hbefore).effect heffect hbefore

/-! ## The first call -/

theorem committedAs_finalized {createdAt : Int} {table : Table ChunkMetadata.chunkId}
    (hparents : ParentsDiffer db) (h : Finalizes env db row d createdAt table) :
    CommittedAs env (finalizedDb env db row d createdAt table)
      { row with status := .committed ((finalVersion row d).versionId env) } d := by
  have hparent : row.session.parentVersionId ≠ some ((finalVersion row d).versionId env) := by
    rcases h.version with ⟨-, hparent, -⟩ | ⟨state, hstored⟩
    · exact hparent
    · have hsame := hparents _ (Table.mem_of_find? hstored)
      exact hsame
  refine ⟨?_, rfl, hparent, ?_, h.sizeFits, h.objectStored, ⟨d.row env, h.layout.stored, d,
    readLayoutRow_row h.layout.countFits, rfl, rfl, rfl⟩, ?_⟩
  · unfold finalizedDb
    exact Table.find?_of_mem Table.mem_upsert_self
  · unfold finalizedDb
    exact Table.find?_of_mem (Table.mem_insert_new h.freshFinalization)
  · refine artifactVersionIdentityMatches_iff.mpr
      ⟨versionRow env createdAt (finalVersion row d), ?_, rfl⟩
    unfold finalizedDb
    exact Table.find?_of_mem Table.mem_upsert_self

theorem committedAs_of_retry {sessionId : UuidV7} {v : ContentId} {result : FinalizeUploadResult}
    (hfind : db.uploadSessions.find? sessionId = some row) (hstatus : row.status = .committed v)
    (hparent : row.session.parentVersionId ≠ some v)
    (h : finalizeCommittedRetry env db sessionId v (finalVersion row d) d = .ok result) :
    CommittedAs env db row d ∧ result = finalResult env row d := by
  have hkey : row.sessionId = sessionId := Table.key_of_find? hfind
  subst hkey
  simp only [finalizeCommittedRetry, bind_eq_ok, exists_unit, failIf_eq_ok, orFail_eq_ok,
    toPostgresBigint_eq_ok, not_or, Decidable.not_not] at h
  obtain ⟨-, ⟨hlayoutId, rfl⟩, object, hobject, total, ⟨hfits, rfl⟩, hsize, loaded, hloaded,
    read, rfl, ⟨hobjectId, hstrategy, hbytes⟩, hmatches, h⟩ := h
  have hloaded := catchRuntimeError_ok hloaded
  refine ⟨⟨hfind, hstatus, hparent, ?_, hfits, ?_, ?_, hmatches⟩, (Except.ok.inj h).symm⟩
  · cases hfinalization : db.finalizations.find? row.sessionId with
    | none =>
        rw [hfinalization] at hlayoutId
        cases hlayoutId
    | some finalization =>
        rw [hfinalization] at hlayoutId
        have hsession : finalization.sessionId = row.sessionId := Table.key_of_find? hfinalization
        have hlayout : finalization.layoutId = some (d.layoutId env) := hlayoutId
        rw [← hsession, ← hlayout]
  · have hobjectKey : object.objectId = d.objectId := Table.key_of_find? hobject
    have heq : object = d.object := by
      cases object
      exact congrArg₂ StoredObject.mk hobjectKey hsize
    rw [hobject, heq]
  · unfold loadObjectLayout at hloaded
    cases hstored : db.objectLayouts.find? (d.layoutId env) with
    | none => simp [hstored] at hloaded
    | some stored =>
        cases hread : readLayoutRow env stored with
        | error e => simp [hstored, hread] at hloaded
        | ok found =>
            simp only [hstored, hread, Except.ok.injEq, Option.some.injEq] at hloaded
            subst hloaded
            exact ⟨stored, rfl, found, hread, hobjectId, hstrategy, hbytes⟩

theorem committedAs_of_ok {now : Int} {sessionId : UuidV7} {result : FinalizeUploadResult}
    (hparents : ParentsDiffer db)
    (h : finalizeUpload env now db sessionId d = .ok (result, db')) :
    ∃ row, row.sessionId = sessionId ∧ CommittedAs env db' row d ∧
      result = finalResult env row d := by
  rcases finalizeUpload_ok h with ⟨rfl, row, v, hfind, hstatus, hparent, hretry⟩ |
    ⟨row, createdAt, table, rfl, rfl, hfinalizes, rfl⟩
  · exact ⟨row, Table.key_of_find? hfind, committedAs_of_retry hfind hstatus hparent hretry⟩
  · exact ⟨{ row with status := .committed ((finalVersion row d).versionId env) }, rfl,
      committedAs_finalized hparents hfinalizes, rfl⟩

/-! ## Later calls -/

theorem CommittedAs.reconstructs (h : CommittedAs env db row d) :
    reconstructUploadSession row = .ok row := by
  have hparent : ¬∃ v ∈ row.status.finalizedVersionId, row.session.parentVersionId = some v := by
    rintro ⟨v, hv, hsome⟩
    simp only [h.status, UploadSessionStatus.finalizedVersionId, Option.mem_def,
      Option.some.injEq] at hv
    exact h.parent (hv ▸ hsome)
  rw [reconstructUploadSession, failIf_of_false hparent, ok_bind]

/-- The retry with the committed descriptor reads only rows that are there. -/
theorem finalizeUpload_same {now : Int} (h : CommittedAs env db row d)
    (hretired : ¬db.Retired ((finalVersion row d).versionId env)) :
    finalizeUpload env now db row.sessionId d = .ok (finalResult env row d, db) := by
  obtain ⟨stored, hstored, read, hread, hobjectId, hstrategy, hbytes⟩ := h.layout
  have hnotRetired : db.isVersionRetired ((finalVersion row d).versionId env) = false :=
    Db.isVersionRetired_eq_false.mpr hretired
  have hloaded : loadObjectLayout env db (d.layoutId env) = .ok (some read) := by
    simp only [loadObjectLayout, hstored, hread]
  have hretry : finalizeCommittedRetry env db row.sessionId ((finalVersion row d).versionId env)
      (finalVersion row d) d = .ok (finalResult env row d) := by
    simp [finalizeCommittedRetry, hnotRetired, h.finalization, failIf, h.object,
      toPostgresBigint_of_le h.sizeFits, hloaded, catchRuntimeError, hobjectId, hstrategy, hbytes,
      h.version, finalResult]
  have hversion : sessionVersion row.session d.objectId = finalVersion row d := rfl
  rw [finalizeUpload, h.session, orFail_some, ok_bind, h.reconstructs, ok_bind]
  simp [hversion, hnotRetired, failIf, h.status, hretry]

/-- A retry with another layout never succeeds. -/
theorem finalizeUpload_other {now : Int} {d' : ObjectLayoutDescriptor}
    {result : FinalizeUploadResult} (h : CommittedAs env db row d)
    (hother : d'.layoutId env ≠ d.layoutId env) :
    finalizeUpload env now db row.sessionId d' ≠ .ok (result, db') := by
  intro hok
  rcases finalizeUpload_ok hok with ⟨-, row', v, hfind, hstatus, hparent, hretry⟩ |
    ⟨row', createdAt, table, hid, -, hfinalizes, -⟩
  · obtain rfl := Option.some.inj (h.session.symm.trans hfind)
    have hfinalization := (committedAs_of_retry hfind hstatus hparent hretry).1.finalization
    rw [h.finalization] at hfinalization
    simp only [Option.some.injEq, FinalizationRow.mk.injEq, true_and] at hfinalization
    exact hother hfinalization.symm
  · have hsame := hfinalizes.stored
    rw [hid, h.session] at hsame
    have hopen := hfinalizes.isOpen
    rw [← Option.some.inj hsame, h.status] at hopen
    cases hopen

theorem finalizeUpload_of_serve {now : Int} {sessionId : UuidV7} {result : FinalizeUploadResult}
    (h : serve env db (.finalizeUpload now sessionId d) = (.ok (.finalized result), db₁)) :
    finalizeUpload env now db sessionId d = .ok (result, db₁) := by
  rcases serve_cases env db (.finalizeUpload now sessionId d) with
    ⟨e, -, hs⟩ | ⟨reply, next, ht, hs⟩
  · rw [hs] at h
    cases h
  · rw [hs] at h
    obtain ⟨hreply, rfl⟩ := Prod.ext_iff.mp h
    obtain ⟨answer, hanswer, hsame⟩ := replyWith_eq_ok.mp ht
    have heq : Reply.finalized answer = .finalized result :=
      hsame.symm.trans (Except.ok.inj hreply)
    rwa [Reply.finalized.inj heq] at hanswer

/-- After `finalize_upload` has committed a session, and as long as its version is
not retired, the same call returns the same result, a call with another layout is
rejected, and neither changes the database. -/
theorem finalizeUpload_idempotent {now later : Int} {sessionId : UuidV7}
    {result : FinalizeUploadResult} (h : Reachable env db)
    (hfirst : serve env db (.finalizeUpload now sessionId d) = (.ok (.finalized result), db₁))
    (hevolves : Evolves env (fun _ => True) db₁ db₂) (hretired : ¬db₂.Retired result.versionId) :
    serve env db₂ (.finalizeUpload later sessionId d) = (.ok (.finalized result), db₂) ∧
      ∀ d' : ObjectLayoutDescriptor, d'.layoutId env ≠ d.layoutId env →
        ∃ e, serve env db₂ (.finalizeUpload later sessionId d') = (.error e, db₂) := by
  have hcall := finalizeUpload_of_serve hfirst
  obtain ⟨row, rfl, hcommitted, rfl⟩ := committedAs_of_ok (parentsDiffer_of_reachable h) hcall
  have hcommitted₂ := hcommitted.evolves hevolves hretired
  refine ⟨?_, fun d' hother => ?_⟩
  · have hsame : finalizeUpload env later db₂ row.sessionId d =
        .ok (finalResult env row d, db₂) := finalizeUpload_same hcommitted₂ hretired
    simp [serve, commit, transact, hsame, replyWith, Except.map]
  · rcases serve_cases env db₂ (.finalizeUpload later row.sessionId d') with
      ⟨e, -, hs⟩ | ⟨reply, next, ht, -⟩
    · exact ⟨e, hs⟩
    · obtain ⟨answer, hanswer, -⟩ := replyWith_eq_ok.mp ht
      exact absurd hanswer (finalizeUpload_other hcommitted₂ hother)

open Sample in
theorem finalizeUpload_idempotent_sample :
    let db := afterOps Sample.env .initial pushOps.dropLast
    let db₁ := (serve Sample.env db (.finalizeUpload 0 session.sessionId descriptor)).2
    let db₂ := afterOps Sample.env db₁ (repairOps ++
      [.startGcRun gcRun, .completeGcRun gcRun.runId .zero])
    serve Sample.env db₂ (.finalizeUpload 1 session.sessionId descriptor) =
      (.ok (.finalized (finalResult Sample.env ⟨session, .open⟩ descriptor)), db₂) := by
  intro db db₁ db₂
  have hanswer : (serve Sample.env db (.finalizeUpload 0 session.sessionId descriptor)).1 =
      .ok (.finalized (finalResult Sample.env ⟨session, .open⟩ descriptor)) := by decide +kernel
  have hretired : db₂.isVersionRetired versionId = false := by decide +kernel
  exact (finalizeUpload_idempotent (reachable_afterOps _ _) (Prod.ext hanswer rfl)
    (evolves_afterOps _ _ _ fun _ _ => trivial) (Db.isVersionRetired_eq_false.mp hretired)).1

end AiArtifactStore.Metadata
