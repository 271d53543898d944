import AiArtifactStore.Metadata.Database

/-!
# Objects, layouts and versions in the database

Registration of objects and layouts inside a transaction, and the readers that
rebuild a descriptor or a version from its rows.
-/

namespace AiArtifactStore.Metadata

open AiArtifactStore.Foundation
open AiArtifactStore.Identity

/-! ## Objects -/

def registerObjectInTransaction (db : Db) (object : StoredObject) : Except Exc Db := do
  let totalSize ← toPostgresBigint object.totalSize "object total size"
  let db := { db with objects := db.objects.insert ⟨object.objectId, totalSize⟩ }
  let stored ← orFail (db.objects.find? object.objectId) (.runtimeError "unexpected row count")
  failIf (stored.totalSize ≠ totalSize)
    (.runtimeError "existing object size does not match object identity")
  .ok db

theorem registerObjectInTransaction_ok {db db' : Db} {object : StoredObject}
    (h : registerObjectInTransaction db object = .ok db') :
    object.totalSize ≤ postgresBigintMax ∧
      db' = { db with objects := db.objects.insert object } ∧
      db'.objects.find? object.objectId = some object := by
  simp only [registerObjectInTransaction, bind_eq_ok, exists_unit, toPostgresBigint_eq_ok,
    orFail_eq_ok, failIf_eq_ok, Decidable.not_not] at h
  obtain ⟨total, ⟨hle, rfl⟩, stored, hstored, hsize, h⟩ := h
  cases h
  have hkey := Table.key_of_find? hstored
  have heq : stored = object := by
    cases stored
    cases object
    cases hkey
    cases hsize
    rfl
  exact ⟨hle, rfl, heq ▸ hstored⟩

/-! ## Layouts -/

def registerLayoutChunk (db : Db) (chunk : ChunkRef) : Except Exc Db := do
  let chunkSize ← toPostgresBigint chunk.size "chunk size"
  let db := { db with chunks := db.chunks.insert ⟨chunk.chunkId, chunkSize⟩ }
  let stored ← orFail (db.chunks.find? chunk.chunkId) (.runtimeError "unexpected row count")
  failIf (stored.sizeBytes ≠ chunkSize)
    (.runtimeError "existing chunk size does not match object layout")
  .ok db

theorem registerLayoutChunk_ok {db db' : Db} {chunk : ChunkRef}
    (h : registerLayoutChunk db chunk = .ok db') :
    chunk.size ≤ postgresBigintMax ∧
      db' = { db with chunks := db.chunks.insert ⟨chunk.chunkId, chunk.size⟩ } ∧
      db'.chunks.find? chunk.chunkId = some ⟨chunk.chunkId, chunk.size⟩ := by
  simp only [registerLayoutChunk, bind_eq_ok, exists_unit, toPostgresBigint_eq_ok, orFail_eq_ok,
    failIf_eq_ok, Decidable.not_not] at h
  obtain ⟨size, ⟨hle, rfl⟩, stored, hstored, hsize, h⟩ := h
  cases h
  have hkey : stored.chunkId = chunk.chunkId := Table.key_of_find? hstored
  have heq : stored = ⟨chunk.chunkId, chunk.size⟩ := by
    cases stored
    cases hkey
    cases hsize
    rfl
  exact ⟨hle, rfl, heq ▸ hstored⟩

/-- The chunk table after the chunks of a layout have been registered. -/
structure ChunksRegistered (db : Db) (chunks : List ChunkRef)
    (table : Table ChunkMetadata.chunkId) : Prop where
  kept : ∀ id row, db.chunks.find? id = some row → table.find? id = some row
  registered : ∀ chunk ∈ chunks, table.find? chunk.chunkId = some ⟨chunk.chunkId, chunk.size⟩

theorem registerLayoutChunks_ok {db db' : Db} {chunks : List ChunkRef}
    (h : foldEach chunks db registerLayoutChunk = .ok db') :
    ∃ table, db' = { db with chunks := table } ∧ ChunksRegistered db chunks table := by
  induction chunks generalizing db with
  | nil =>
      cases h
      exact ⟨db'.chunks, rfl, fun _ _ h => h, by simp⟩
  | cons chunk chunks ih =>
      cases hc : registerLayoutChunk db chunk with
      | error e => simp [foldEach, hc] at h
      | ok next =>
          simp only [foldEach, hc] at h
          obtain ⟨hle, rfl, hfind⟩ := registerLayoutChunk_ok hc
          obtain ⟨table, rfl, hkept, hrest⟩ := ih h
          refine ⟨table, rfl, fun id row hrow => hkept id row (Table.find?_insert_mono hrow), ?_⟩
          intro c hc
          rcases List.mem_cons.mp hc with rfl | hc
          · exact hkept _ _ hfind
          · exact hrest c hc

def writeChunkRows (index : Nat) : List ChunkRef → Except Exc (List LayoutChunkRow)
  | [] => .ok []
  | chunk :: chunks => do
      let chunkIndex ← toPostgresBigint index "chunk index"
      let offset ← toPostgresBigint chunk.offset "chunk byte offset"
      let size ← toPostgresBigint chunk.size "chunk size"
      let rows ← writeChunkRows (index + 1) chunks
      .ok (⟨chunkIndex, chunk.chunkId, offset, size⟩ :: rows)

def verifyChunkRows (expectedIndex : Nat) : List LayoutChunkRow → List ChunkRef → Except Exc Unit
  | [], [] => .ok ()
  | [], _ :: _ => .error (.runtimeError "stored object layout is missing chunk rows")
  | _ :: _, [] =>
      .error (.runtimeError "stored object layout contains unexpected chunk rows")
  | row :: rows, chunk :: chunks => do
      let index ← toPostgresBigint expectedIndex "chunk index"
      let offset ← toPostgresBigint chunk.offset "chunk byte offset"
      let size ← toPostgresBigint chunk.size "chunk size"
      failIf (row ≠ ⟨index, chunk.chunkId, offset, size⟩)
        (.runtimeError "stored object layout does not match descriptor")
      verifyChunkRows (expectedIndex + 1) rows chunks

def verifyRegisteredObjectLayout (env : Environment) (db : Db) (d : ObjectLayoutDescriptor) :
    Except Exc Unit := do
  let stored ← orFail (db.objectLayouts.find? (d.layoutId env))
    (.runtimeError "registered object layout is missing from database")
  let totalSize ← toPostgresBigint d.layout.totalSize "object layout total size"
  let chunkCount ← toPostgresBigint d.layout.chunks.length "object layout chunk count"
  failIf (stored.objectId ≠ d.objectId ∨
      stored.descriptorVersion ≠ ObjectLayoutDescriptor.formatVersion ∨
      stored.chunking ≠ d.chunking ∨ stored.canonicalDescriptor ≠ d.canonicalBytes ∨
      stored.totalSizeBytes ≠ totalSize ∨ stored.chunkCount ≠ chunkCount)
    (.runtimeError "existing object layout metadata does not match descriptor")
  verifyChunkRows 0 stored.chunkRows d.layout.chunks

def insertObjectLayout (env : Environment) (db : Db) (d : ObjectLayoutDescriptor)
    (totalSize chunkCount : Nat) : Except Exc Db :=
  match db.objectLayouts.find? (d.layoutId env) with
  | some _ => .ok db
  | none =>
      match writeChunkRows 0 d.layout.chunks with
      | .error e => .error e
      | .ok chunkRows =>
          .ok { db with
            objectLayouts := db.objectLayouts.insert
              { layoutId := d.layoutId env
                objectId := d.objectId
                descriptorVersion := ObjectLayoutDescriptor.formatVersion
                chunking := d.chunking
                canonicalDescriptor := d.canonicalBytes
                totalSizeBytes := totalSize
                chunkCount := chunkCount
                chunkRows := chunkRows } }

def registerObjectLayoutInTransaction (env : Environment) (db : Db)
    (d : ObjectLayoutDescriptor) : Except Exc Db := do
  let stored ← orFail (db.objects.find? d.objectId)
    (.runtimeError "object must be registered before its layout")
  let objectSize ← toPostgresBigint d.object.totalSize "object total size"
  failIf (stored.totalSize ≠ objectSize)
    (.runtimeError "registered object size does not match object layout")
  let db ← foldEach d.layout.chunks db registerLayoutChunk
  let totalSize ← toPostgresBigint d.layout.totalSize "object layout total size"
  let chunkCount ← toPostgresBigint d.layout.chunks.length "object layout chunk count"
  let db ← insertObjectLayout env db d totalSize chunkCount
  verifyRegisteredObjectLayout env db d
  .ok db

def readChunkRows (expectedIndex : Nat) : List LayoutChunkRow → Except Exc (List ChunkRef)
  | [] => .ok []
  | row :: rows => do
      let index ← toPostgresBigint expectedIndex "chunk index"
      failIf (row.chunkIndex ≠ index)
        (.runtimeError "stored object layout chunk indexes are not contiguous")
      failIf (row.chunkSizeBytes = 0)
        (.runtimeError "stored object layout chunk contains invalid size metadata")
      let chunks ← readChunkRows (expectedIndex + 1) rows
      .ok (⟨row.chunkId, row.byteOffset, row.chunkSizeBytes⟩ :: chunks)

def readLayoutRow (env : Environment) (stored : ObjectLayoutRow) :
    Except Exc ObjectLayoutDescriptor := do
  failIf (stored.descriptorVersion ≠ ObjectLayoutDescriptor.formatVersion)
    (.runtimeError "stored object layout uses an unsupported descriptor version")
  let chunks ← readChunkRows 0 stored.chunkRows
  failIf (chunks.length ≠ stored.chunkCount)
    (.runtimeError "stored object layout chunk count does not match layout rows")
  let layout ← ObjectLayout.make chunks
  let descriptor ← ObjectLayoutDescriptor.make ⟨stored.objectId, stored.totalSizeBytes⟩
    stored.chunking layout
  failIf (descriptor.layoutId env ≠ stored.layoutId)
    (.runtimeError "stored object layout does not match layout ID")
  failIf (descriptor.canonicalBytes ≠ stored.canonicalDescriptor)
    (.runtimeError "stored canonical descriptor does not match object layout")
  .ok descriptor

def loadObjectLayout (env : Environment) (db : Db) (layoutId : ContentId) :
    Except Exc (Option ObjectLayoutDescriptor) :=
  match db.objectLayouts.find? layoutId with
  | none => .ok none
  | some stored =>
      match readLayoutRow env stored with
      | .error e => .error e
      | .ok descriptor => .ok (some descriptor)

/-! ### The row of a descriptor -/

def layoutChunkRows (index : Nat) : List ChunkRef → List LayoutChunkRow
  | [] => []
  | chunk :: chunks =>
      ⟨index, chunk.chunkId, chunk.offset, chunk.size⟩ :: layoutChunkRows (index + 1) chunks

def ObjectLayoutDescriptor.row (env : Environment) (d : ObjectLayoutDescriptor) :
    ObjectLayoutRow :=
  { layoutId := d.layoutId env
    objectId := d.objectId
    descriptorVersion := formatVersion
    chunking := d.chunking
    canonicalDescriptor := d.canonicalBytes
    totalSizeBytes := d.layout.totalSize
    chunkCount := d.layout.chunks.length
    chunkRows := layoutChunkRows 0 d.layout.chunks }

theorem mem_layoutChunkRows {index : Nat} {chunks : List ChunkRef} {chunkId : ContentId} :
    (∃ row ∈ layoutChunkRows index chunks, row.chunkId = chunkId) ↔
      ∃ chunk ∈ chunks, chunk.chunkId = chunkId := by
  induction chunks generalizing index with
  | nil => simp [layoutChunkRows]
  | cons chunk chunks ih => simp [layoutChunkRows, ih]

theorem readChunkRows_layoutChunkRows {index : Nat} {chunks : List ChunkRef}
    (hsize : ∀ chunk ∈ chunks, 0 < chunk.size)
    (hfits : index + chunks.length ≤ postgresBigintMax) :
    readChunkRows index (layoutChunkRows index chunks) = .ok chunks := by
  induction chunks generalizing index with
  | nil => rfl
  | cons chunk chunks ih =>
      have hindex : index ≤ postgresBigintMax := by omega
      have hpos : ¬chunk.size = 0 := Nat.pos_iff_ne_zero.mp (hsize chunk (by simp))
      have hrest := @ih (index + 1) (fun c hc => hsize c (by simp [hc])) (by
        simp only [List.length_cons] at hfits
        omega)
      simp only [layoutChunkRows, readChunkRows, toPostgresBigint_of_le hindex, ok_bind,
        failIf_of_false hpos, hrest]
      rw [failIf_of_false (by simp), ok_bind]

theorem readLayoutRow_row {env : Environment} {d : ObjectLayoutDescriptor}
    (hfits : d.layout.chunks.length ≤ postgresBigintMax) :
    readLayoutRow env (d.row env) = .ok d := by
  have hchunks : readChunkRows 0 (layoutChunkRows 0 d.layout.chunks) = .ok d.layout.chunks :=
    readChunkRows_layoutChunkRows (fun _ hc => ObjectLayout.size_pos hc) (by omega)
  have hobject : (⟨d.objectId, d.layout.totalSize⟩ : StoredObject) = d.object := by
    rw [← d.sizeMatches]
    rfl
  have hmake := d.make_self
  rw [← hobject] at hmake
  simp [readLayoutRow, ObjectLayoutDescriptor.row, failIf, hchunks, ObjectLayout.make_chunks,
    hmake]

theorem writeChunkRows_ok {index : Nat} {chunks : List ChunkRef} {rows : List LayoutChunkRow}
    (h : writeChunkRows index chunks = .ok rows) : rows = layoutChunkRows index chunks := by
  induction chunks generalizing index rows with
  | nil =>
      cases h
      rfl
  | cons chunk chunks ih =>
      simp only [writeChunkRows, bind_eq_ok, toPostgresBigint_eq_ok] at h
      obtain ⟨i, ⟨-, rfl⟩, o, ⟨-, rfl⟩, n, ⟨-, rfl⟩, rest, hrest, h⟩ := h
      cases h
      rw [layoutChunkRows, ih hrest]

theorem verifyChunkRows_ok {index : Nat} {rows : List LayoutChunkRow} {chunks : List ChunkRef}
    (h : verifyChunkRows index rows chunks = .ok ()) : rows = layoutChunkRows index chunks := by
  induction rows generalizing index chunks with
  | nil =>
      cases chunks with
      | nil => rfl
      | cons chunk chunks => simp [verifyChunkRows] at h
  | cons row rows ih =>
      cases chunks with
      | nil => simp [verifyChunkRows] at h
      | cons chunk chunks =>
          simp only [verifyChunkRows, bind_eq_ok, exists_unit, toPostgresBigint_eq_ok,
            failIf_eq_ok, Decidable.not_not] at h
          obtain ⟨i, ⟨-, rfl⟩, o, ⟨-, rfl⟩, n, ⟨-, rfl⟩, rfl, hrest⟩ := h
          rw [layoutChunkRows, ih hrest]

theorem insertObjectLayout_ok {env : Environment} {db db' : Db} {d : ObjectLayoutDescriptor}
    (h : insertObjectLayout env db d d.layout.totalSize d.layout.chunks.length = .ok db') :
    db' = { db with objectLayouts := db.objectLayouts.insert (d.row env) } := by
  unfold insertObjectLayout at h
  cases hfind : db.objectLayouts.find? (d.layoutId env) with
  | some stored =>
      simp only [hfind, Except.ok.injEq] at h
      rw [Table.insert_of_find?_some (r := d.row env) hfind, h]
  | none =>
      cases hrows : writeChunkRows 0 d.layout.chunks with
      | error e => simp [hfind, hrows] at h
      | ok rows =>
          simp only [hfind, hrows, Except.ok.injEq] at h
          rw [← h, writeChunkRows_ok hrows]
          rfl

theorem verifyRegisteredObjectLayout_ok {env : Environment} {db : Db}
    {d : ObjectLayoutDescriptor} (h : verifyRegisteredObjectLayout env db d = .ok ()) :
    db.objectLayouts.find? (d.layoutId env) = some (d.row env) := by
  simp only [verifyRegisteredObjectLayout, bind_eq_ok, exists_unit, orFail_eq_ok,
    toPostgresBigint_eq_ok, failIf_eq_ok, not_or, Decidable.not_not] at h
  obtain ⟨stored, hstored, t, ⟨-, rfl⟩, n, ⟨-, rfl⟩, ⟨h1, h2, h3, h4, h5, h6⟩, hrows⟩ := h
  have hkey : stored.layoutId = d.layoutId env := Table.key_of_find? hstored
  have hchunks := verifyChunkRows_ok hrows
  have heq : stored = d.row env := by
    cases stored
    simp only at hkey h1 h2 h3 h4 h5 h6 hchunks
    subst hkey h1 h2 h3 h4 h5 h6 hchunks
    rfl
  rw [hstored, heq]

structure LayoutRegistered (env : Environment) (db : Db) (d : ObjectLayoutDescriptor)
    (table : Table ChunkMetadata.chunkId) : Prop where
  countFits : d.layout.chunks.length ≤ postgresBigintMax
  chunks : ChunksRegistered db d.layout.chunks table
  stored : (db.objectLayouts.insert (d.row env)).find? (d.layoutId env) = some (d.row env)

theorem registerObjectLayoutInTransaction_ok {env : Environment} {db db' : Db}
    {d : ObjectLayoutDescriptor} (h : registerObjectLayoutInTransaction env db d = .ok db') :
    ∃ table, LayoutRegistered env db d table ∧
      db' = { db with chunks := table, objectLayouts := db.objectLayouts.insert (d.row env) } := by
  simp only [registerObjectLayoutInTransaction, bind_eq_ok, exists_unit, orFail_eq_ok,
    toPostgresBigint_eq_ok, failIf_eq_ok, Decidable.not_not] at h
  obtain ⟨stored, -, size, ⟨-, rfl⟩, -, mid, hchunks, t, ⟨-, rfl⟩, n, ⟨hcount, rfl⟩,
    next, hinsert, hverify, h⟩ := h
  obtain rfl := Except.ok.inj h
  obtain ⟨table, rfl, hregistered⟩ := registerLayoutChunks_ok hchunks
  obtain rfl := insertObjectLayout_ok hinsert
  exact ⟨table, ⟨hcount, hregistered, verifyRegisteredObjectLayout_ok hverify⟩, rfl⟩

/-! ## Versions -/

def readVersionRow (env : Environment) (stored : VersionRow) : Except Exc ArtifactVersion := do
  failIf (stored.descriptorVersion ≠ ArtifactVersion.formatVersion)
    (.runtimeError "stored artifact version uses an unsupported descriptor version")
  let version : ArtifactVersion :=
    { artifactId := stored.artifactId
      rootObjectId := stored.rootObjectId
      parentVersionId := stored.parentVersionId
      immutableMetadata := stored.metadata
      state := stored.state }
  failIf (version.versionId env ≠ stored.versionId)
    (.runtimeError "stored artifact version does not match version ID")
  failIf (version.canonicalBytes ≠ stored.canonicalDescriptor)
    (.runtimeError "stored canonical descriptor does not match artifact version")
  .ok version

def loadVersion (env : Environment) (db : Db) (versionId : ContentId) :
    Except Exc (Option ArtifactVersion) :=
  match db.artifactVersions.find? versionId with
  | none => .ok none
  | some stored =>
      match readVersionRow env stored with
      | .error e => .error e
      | .ok version => .ok (some version)

def artifactVersionIdentityMatches (env : Environment) (db : Db) (expected : ArtifactVersion) :
    Bool :=
  match db.artifactVersions.find? (expected.versionId env) with
  | none => false
  | some stored =>
      stored.artifactId = expected.artifactId && stored.rootObjectId = expected.rootObjectId &&
        stored.parentVersionId = expected.parentVersionId &&
        stored.descriptorVersion = ArtifactVersion.formatVersion &&
        stored.canonicalDescriptor = expected.canonicalBytes &&
        stored.metadata = expected.immutableMetadata

def versionRow (env : Environment) (now : Int) (v : ArtifactVersion) : VersionRow :=
  { versionId := v.versionId env
    artifactId := v.artifactId
    rootObjectId := v.rootObjectId
    parentVersionId := v.parentVersionId
    descriptorVersion := ArtifactVersion.formatVersion
    canonicalDescriptor := v.canonicalBytes
    metadata := v.immutableMetadata
    state := v.state
    createdAt := now }

def parentVersionMissing (db : Db) (artifactId : UuidV7) (parent : Option ContentId) : Prop :=
  ∃ p ∈ parent, ¬∃ row ∈ db.artifactVersions.find? p, row.artifactId = artifactId

instance (db : Db) (artifactId : UuidV7) (parent : Option ContentId) :
    Decidable (parentVersionMissing db artifactId parent) :=
  inferInstanceAs (Decidable (∃ p ∈ parent, ¬∃ row ∈ db.artifactVersions.find? p,
    row.artifactId = artifactId))

def insertVersionRow (db : Db) (row : VersionRow) : Except Exc Db := do
  failIf (row.parentVersionId = some row.versionId)
    (.sqlError "artifact_versions_parent_not_self_check")
  failIf (db.artifacts.find? row.artifactId = none) (.sqlError "artifact_versions_artifact_fk")
  failIf (db.objects.find? row.rootObjectId = none)
    (.sqlError "artifact_versions_root_object_fk")
  failIf (parentVersionMissing db row.artifactId row.parentVersionId)
    (.sqlError "artifact_versions_parent_fk")
  .ok { db with artifactVersions := db.artifactVersions.insert row }

end AiArtifactStore.Metadata
