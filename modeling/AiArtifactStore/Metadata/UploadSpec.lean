import AiArtifactStore.Metadata.Upload

/-!
# What the upload operations do

The inversion of a successful `create_upload_session`, `negotiate_chunks` and
`finalize_upload`.
-/

namespace AiArtifactStore.Metadata

open AiArtifactStore.Foundation
open AiArtifactStore.Identity

variable {env : Environment} {db db' : Db}

/-! ## Sessions -/

theorem reconstructUploadSession_ok {row row' : SessionRow}
    (h : reconstructUploadSession row = .ok row') :
    row' = row ∧ ¬∃ v ∈ row.status.finalizedVersionId, row.session.parentVersionId = some v := by
  simp only [reconstructUploadSession, bind_eq_ok, exists_unit, failIf_eq_ok] at h
  exact ⟨(Except.ok.inj h.2).symm, h.1⟩

structure SessionOpened (db : Db) (session : UploadSession) : Prop where
  noGcRun : db.hasOpenGcRun = false
  fresh : db.uploadSessions.find? session.sessionId = none
  artifact : db.artifacts.find? session.artifactId ≠ none
  parent : ¬parentVersionMissing db session.artifactId session.parentVersionId

theorem createUploadSession_ok {requested : SessionRow}
    (h : createUploadSession db requested = .ok db') :
    db' = db ∨ (SessionOpened db requested.session ∧
      db' = { db with
        uploadSessions := db.uploadSessions.insert ⟨requested.session, .open⟩ }) := by
  simp only [createUploadSession, bind_eq_ok, exists_unit, failIf_eq_ok, Bool.not_eq_true] at h
  obtain ⟨-, -, hgc, h⟩ := h
  cases hfind : db.uploadSessions.find? requested.sessionId with
  | some row =>
      simp only [hfind, bind_eq_ok, exists_unit, failIf_eq_ok] at h
      obtain ⟨-, -, -, h⟩ := h
      exact .inl (Except.ok.inj h).symm
  | none =>
      simp only [hfind, insertUploadSession, bind_eq_ok, exists_unit, failIf_eq_ok] at h
      obtain ⟨-, -, hartifact, hparent, -, -, -, -, -, -, h⟩ := h
      exact .inr ⟨⟨hgc, hfind, hartifact, hparent⟩, (Except.ok.inj h).symm⟩

theorem abortUploadSession_ok {sessionId : UuidV7} (h : abortUploadSession db sessionId = .ok db') :
    db' = db ∨ ∃ row ∈ db.uploadSessions, row.status = .open ∧
      db' = { db with
        uploadSessions := db.uploadSessions.upsert { row with status := .aborted } } := by
  unfold abortUploadSession at h
  cases hfind : db.uploadSessions.find? sessionId with
  | none => simp [hfind] at h
  | some row =>
      cases hstatus : row.status with
      | committed v => simp [hfind, hstatus] at h
      | aborted =>
          simp only [hfind, hstatus] at h
          exact .inl (Except.ok.inj h).symm
      | «open» =>
          simp only [hfind, hstatus] at h
          exact .inr ⟨row, Table.mem_of_find? hfind, hstatus, (Except.ok.inj h).symm⟩

/-! ## Negotiation -/

theorem find?_insertChunks {chunks : List ChunkMetadata} {id : ContentId} {row : ChunkMetadata}
    (h : db.chunks.find? id = some row) : (insertChunks db chunks).chunks.find? id = some row := by
  change (chunks.foldl Table.insert db.chunks).find? id = some row
  generalize db.chunks = table at h
  induction chunks generalizing table with
  | nil => exact h
  | cons chunk chunks ih => exact ih _ (Table.find?_insert_mono h)

theorem find?_insertChunks_new {chunks : List ChunkMetadata} {chunk : ChunkMetadata}
    (h : chunk ∈ chunks) : ∃ row, (insertChunks db chunks).chunks.find? chunk.chunkId = some row := by
  change ∃ row, (chunks.foldl Table.insert db.chunks).find? chunk.chunkId = some row
  generalize db.chunks = table
  induction chunks generalizing table with
  | nil => cases h
  | cons head rest ih =>
      rcases List.mem_cons.mp h with rfl | hrest
      · have hhead : ∃ row, (table.insert chunk).find? chunk.chunkId = some row := by
          cases hfind : table.find? chunk.chunkId with
          | none => exact ⟨chunk, Table.find?_of_mem (Table.mem_insert_new hfind)⟩
          | some row => exact ⟨row, Table.find?_insert_mono hfind⟩
        obtain ⟨row, hrow⟩ := hhead
        exact ⟨row, @find?_insertChunks { db with chunks := table.insert chunk } rest _ _ hrow⟩
      · exact ih hrest (table.insert head)

theorem negotiateChunks_ok {chunks : List ChunkMetadata} {batch : ChunkNegotiationBatch}
    (h : negotiateChunks env db chunks = .ok (batch, db')) :
    db' = db ∨ ∃ inserted, db' = insertChunks db inserted := by
  simp only [negotiateChunks, bind_eq_ok] at h
  obtain ⟨distinct, -, conflict, -, h⟩ := h
  cases conflict with
  | some c => exact .inl (Prod.ext_iff.mp (Except.ok.inj h)).2.symm
  | none =>
      simp only at h
      split at h
      · exact .inl (Prod.ext_iff.mp (Except.ok.inj h)).2.symm
      · exact .inr ⟨_, (Prod.ext_iff.mp (Except.ok.inj h)).2.symm⟩

/-! ## Finalization -/

theorem catchRuntimeError_ok {α : Type} {result : Except Exc α} {replacement : Exc} {a : α}
    (h : catchRuntimeError result replacement = .ok a) : result = .ok a := by
  cases result with
  | ok b => exact h
  | error e =>
      simp only [catchRuntimeError] at h
      split at h <;> cases h

theorem artifactVersionIdentityMatches_iff {version : ArtifactVersion} :
    artifactVersionIdentityMatches env db version = true ↔
      ∃ stored, db.artifactVersions.find? (version.versionId env) = some stored ∧
        stored = { versionRow env stored.createdAt version with state := stored.state } := by
  unfold artifactVersionIdentityMatches
  cases hfind : db.artifactVersions.find? (version.versionId env) with
  | none => simp
  | some stored =>
      have hkey : stored.versionId = version.versionId env := Table.key_of_find? hfind
      simp only [Bool.and_eq_true, decide_eq_true_eq, Option.some.injEq, exists_eq_left']
      constructor
      · rintro ⟨⟨⟨⟨⟨h1, h2⟩, h3⟩, h4⟩, h5⟩, h6⟩
        cases stored
        simp only at hkey h1 h2 h3 h4 h5 h6
        subst hkey h1 h2 h3 h4 h5 h6
        rfl
      · intro h
        rw [h]
        simp [versionRow]

/-- The version of a committed row is new, or the stored row has its identity. -/
def FreshOrSame (env : Environment) (db : Db) (version : ArtifactVersion) (createdAt : Int) :
    Prop :=
  (db.artifactVersions.find? (version.versionId env) = none ∧
      version.parentVersionId ≠ some (version.versionId env) ∧
      ¬parentVersionMissing db version.artifactId version.parentVersionId) ∨
    ∃ state, db.artifactVersions.find? (version.versionId env) =
      some { versionRow env createdAt version with state := state }

theorem commitVersion_ok {now : Int} {version : ArtifactVersion}
    (hstate : version.state = .committed) (h : commitVersion env now db version = .ok db') :
    ∃ createdAt, FreshOrSame env db version createdAt ∧ db' = { db with
      artifactVersions := db.artifactVersions.upsert (versionRow env createdAt version) } := by
  unfold commitVersion at h
  cases hfind : db.artifactVersions.find? (version.versionId env) with
  | none =>
      simp only [hfind, insertVersionRow, bind_eq_ok, exists_unit, failIf_eq_ok] at h
      obtain ⟨hparent, -, -, hmissing, h⟩ := h
      refine ⟨now, .inl ⟨hfind, hparent, hmissing⟩, ?_⟩
      rw [Table.upsert_of_find?_none (r := versionRow env now version) hfind]
      exact (Except.ok.inj h).symm
  | some stored =>
      simp only [hfind, bind_eq_ok, exists_unit, failIf_eq_ok, Decidable.not_not] at h
      obtain ⟨hmatches, h⟩ := h
      obtain ⟨same, hsame, heq⟩ := artifactVersionIdentityMatches_iff.mp hmatches
      obtain rfl : stored = same := Option.some.inj (hfind.symm.trans hsame)
      refine ⟨stored.createdAt, .inr ⟨stored.state, heq ▸ hfind⟩, ?_⟩
      have hrow : { stored with state := .committed } =
          versionRow env stored.createdAt version := by
        rw [heq]
        simp [versionRow, hstate]
      rw [← hrow]
      exact (Except.ok.inj h).symm

def finalVersion (row : SessionRow) (d : ObjectLayoutDescriptor) : ArtifactVersion :=
  sessionVersion row.session d.objectId

def finalResult (env : Environment) (row : SessionRow) (d : ObjectLayoutDescriptor) :
    FinalizeUploadResult :=
  ⟨row.sessionId, (finalVersion row d).versionId env, d.objectId, d.layoutId env⟩

/-- The database after an open session has been finalized. -/
def finalizedDb (env : Environment) (db : Db) (row : SessionRow) (d : ObjectLayoutDescriptor)
    (createdAt : Int) (table : Table ChunkMetadata.chunkId) : Db :=
  { db with
    chunks := table
    objects := db.objects.insert d.object
    objectLayouts := db.objectLayouts.insert (d.row env)
    artifactVersions :=
      db.artifactVersions.upsert (versionRow env createdAt (finalVersion row d))
    finalizations := db.finalizations.insert ⟨row.sessionId, some (d.layoutId env)⟩
    uploadSessions := db.uploadSessions.upsert
      { row with status := .committed ((finalVersion row d).versionId env) } }

structure Finalizes (env : Environment) (db : Db) (row : SessionRow)
    (d : ObjectLayoutDescriptor) (createdAt : Int) (table : Table ChunkMetadata.chunkId) :
    Prop where
  stored : db.uploadSessions.find? row.sessionId = some row
  isOpen : row.status = .open
  notRetired : ¬db.Retired ((finalVersion row d).versionId env)
  finalizable : checkFinalizable env db row.session d = .ok ()
  version : FreshOrSame env db (finalVersion row d) createdAt
  freshFinalization : db.finalizations.find? row.sessionId = none
  sizeFits : d.object.totalSize ≤ postgresBigintMax
  objectStored : (db.objects.insert d.object).find? d.objectId = some d.object
  layout : LayoutRegistered env db d table

theorem finalizeOpenSession_ok {now : Int} {row : SessionRow} {d : ObjectLayoutDescriptor}
    {result : FinalizeUploadResult}
    (hstored : db.uploadSessions.find? row.sessionId = some row) (hopen : row.status = .open)
    (hretired : ¬db.Retired ((finalVersion row d).versionId env))
    (h : finalizeOpenSession env now db row (finalVersion row d) d = .ok (result, db')) :
    result = finalResult env row d ∧ ∃ createdAt table, Finalizes env db row d createdAt table ∧
      db' = finalizedDb env db row d createdAt table := by
  simp only [finalizeOpenSession, bind_eq_ok, exists_unit] at h
  obtain ⟨hcheck, registered, hregister, versioned, hcommit, final, hsession, h⟩ := h
  obtain ⟨rfl, rfl⟩ := Prod.ext_iff.mp (Except.ok.inj h)
  have hregister := catchRuntimeError_ok hregister
  simp only [registerObjectAndLayout, bind_eq_ok] at hregister
  obtain ⟨withObject, hobject, hlayout⟩ := hregister
  obtain ⟨hfits, rfl, hobjectStored⟩ := registerObjectInTransaction_ok hobject
  obtain ⟨table, ⟨hcount, hchunks, hlayoutStored⟩, rfl⟩ :=
    registerObjectLayoutInTransaction_ok hlayout
  obtain ⟨createdAt, hfresh, rfl⟩ := commitVersion_ok rfl hcommit
  simp only [commitSession, bind_eq_ok, exists_unit, failIf_eq_ok, Decidable.not_not] at hsession
  obtain ⟨hfinalization, hsession⟩ := hsession
  obtain rfl := Except.ok.inj hsession
  exact ⟨rfl, createdAt, table, ⟨hstored, hopen, hretired, hcheck, hfresh, hfinalization, hfits,
    hobjectStored, ⟨hcount, ⟨hchunks.kept, hchunks.registered⟩, hlayoutStored⟩⟩, rfl⟩

/-- A successful `finalize_upload` is a committed retry, which changes nothing, or
finalizes an open session. -/
theorem finalizeUpload_ok {now : Int} {sessionId : UuidV7} {d : ObjectLayoutDescriptor}
    {result : FinalizeUploadResult}
    (h : finalizeUpload env now db sessionId d = .ok (result, db')) :
    (db' = db ∧ ∃ row v, db.uploadSessions.find? sessionId = some row ∧ row.status = .committed v ∧
        row.session.parentVersionId ≠ some v ∧
        finalizeCommittedRetry env db sessionId v (finalVersion row d) d = .ok result) ∨
      ∃ row createdAt table, row.sessionId = sessionId ∧ result = finalResult env row d ∧
        Finalizes env db row d createdAt table ∧
          db' = finalizedDb env db row d createdAt table := by
  simp only [finalizeUpload, bind_eq_ok, exists_unit, orFail_eq_ok, failIf_eq_ok] at h
  obtain ⟨stored, hfind, row, hrow, haborted, hretired, h⟩ := h
  obtain ⟨rfl, hparent⟩ := reconstructUploadSession_ok hrow
  have hkey : row.sessionId = sessionId := Table.key_of_find? hfind
  rw [Db.isVersionRetired_iff] at hretired
  cases hstatus : row.status with
  | committed v =>
      simp only [hstatus, bind_eq_ok] at h
      obtain ⟨answer, hretry, h⟩ := h
      obtain ⟨rfl, rfl⟩ := Prod.ext_iff.mp (Except.ok.inj h)
      refine .inl ⟨rfl, row, v, hfind, hstatus, fun hsome => hparent ⟨v, ?_, hsome⟩, hretry⟩
      simp [hstatus, UploadSessionStatus.finalizedVersionId]
  | aborted => exact absurd hstatus haborted
  | «open» =>
      simp only [hstatus] at h
      obtain ⟨hresult, createdAt, table, hfinalizes, hdb⟩ :=
        finalizeOpenSession_ok (hkey ▸ hfind) hstatus hretired h
      exact .inr ⟨row, createdAt, table, hkey, hresult, hfinalizes, hdb⟩

end AiArtifactStore.Metadata
