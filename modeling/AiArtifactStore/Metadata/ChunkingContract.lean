import AiArtifactStore.Metadata.Histories

/-!
# The chunking contract of a session

What `finalize_upload` enforces of the chunking that an open session declares.  The
checks of the parameters are skipped for a layout with no chunk.
-/

namespace AiArtifactStore.Metadata

open AiArtifactStore.Foundation
open AiArtifactStore.Identity

def SessionChunking.NonFinalSize : SessionChunking → Nat → Prop
  | .fixedSize chunkSizeBytes, size => size = chunkSizeBytes
  | .fastCdc p, size => p.minChunkSizeBytes ≤ size ∧ size ≤ p.maxChunkSizeBytes

def SessionChunking.maxSize : SessionChunking → Nat
  | .fixedSize chunkSizeBytes => chunkSizeBytes
  | .fastCdc p => p.maxChunkSizeBytes

def SessionChunking.SameParameters (chunking : SessionChunking) (d : ObjectLayoutDescriptor) :
    Prop :=
  ∀ p, chunking = .fastCdc p → d.chunking = .fastCdc p

structure MeetsContract (session : UploadSession) (d : ObjectLayoutDescriptor) : Prop where
  strategy : d.chunkingStrategy = session.chunking.strategy
  parameters : session.chunking.SameParameters d
  nonFinal : ∀ chunk ∈ d.layout.chunks.dropLast, session.chunking.NonFinalSize chunk.size
  final : ∀ last ∈ d.layout.chunks.getLast?, 0 < last.size ∧ last.size ≤ session.chunking.maxSize

section

variable {env : Environment} {db db' : Db} {session : UploadSession} {row : SessionRow}
  {d d' : ObjectLayoutDescriptor}

theorem checkChunkSizes_ok {chunks : List ChunkRef} {nonFinalOk finalOk : Nat → Bool}
    {nonFinalError finalError : Exc} :
    checkChunkSizes chunks nonFinalOk finalOk nonFinalError finalError = .ok () ↔
      (∀ chunk ∈ chunks.dropLast, nonFinalOk chunk.size = true) ∧
        ∀ last ∈ chunks.getLast?, finalOk last.size = true := by
  simp only [checkChunkSizes, bind_eq_ok, exists_unit, forEach_eq_ok, failIf_eq_ok,
    Bool.not_eq_true, Bool.not_eq_false]
  refine and_congr Iff.rfl ?_
  cases chunks.getLast? with
  | none => simp
  | some last => simp

theorem checkSessionChunking_ok (h : checkSessionChunking session d = .ok ()) :
    d.chunkingStrategy = session.chunking.strategy ∧
      (d.layout.chunks ≠ [] → MeetsContract session d) := by
  rw [checkSessionChunking] at h
  simp only [bind_eq_ok, exists_unit, failIf_eq_ok, Decidable.not_not] at h
  obtain ⟨hstrategy, h⟩ := h
  refine ⟨hstrategy, fun hchunks => ?_⟩
  rw [if_neg hchunks] at h
  cases hchunking : session.chunking with
  | fixedSize chunkSizeBytes =>
      simp only [hchunking, checkChunkSizes_ok, decide_eq_true_eq, Bool.and_eq_true] at h
      refine ⟨hstrategy, fun p hp => ?_, fun chunk hchunk => ?_, fun last hlast => ?_⟩
      · rw [hchunking] at hp
        cases hp
      · rw [hchunking]
        exact h.1 chunk hchunk
      · rw [hchunking]
        exact h.2 last hlast
  | fastCdc p =>
      simp only [hchunking, bind_eq_ok, exists_unit, failIf_eq_ok, Decidable.not_not,
        checkChunkSizes_ok, decide_eq_true_eq, Bool.and_eq_true] at h
      obtain ⟨hparameters, hnonFinal, hfinal⟩ := h
      refine ⟨hstrategy, fun p' hp => ?_, fun chunk hchunk => ?_, fun last hlast => ?_⟩
      · rw [hchunking] at hp
        obtain rfl := SessionChunking.fastCdc.inj hp
        cases hd : d.chunking with
        | fixedSize =>
            rw [hd] at hparameters
            cases hparameters
        | fastCdc p' =>
            rw [hd] at hparameters
            rw [Option.some.inj hparameters]
      · rw [hchunking]
        exact hnonFinal chunk hchunk
      · rw [hchunking]
        exact hfinal last hlast

/-- An accepted descriptor meets the contract exactly when it has a chunk or names the
parameters of the session. -/
theorem meetsContract_iff (h : checkSessionChunking session d = .ok ()) :
    MeetsContract session d ↔ d.layout.chunks ≠ [] ∨ session.chunking.SameParameters d := by
  obtain ⟨hstrategy, hchunks⟩ := checkSessionChunking_ok h
  constructor
  · exact fun hmeets => .inr hmeets.parameters
  · rintro (hne | hparameters)
    · exact hchunks hne
    · by_cases hempty : d.layout.chunks = []
      · refine ⟨hstrategy, hparameters, fun chunk hchunk => ?_, fun last hlast => ?_⟩
        · rw [hempty] at hchunk
          cases hchunk
        · rw [hempty] at hlast
          cases hlast
      · exact hchunks hempty

theorem chunking_eq (hstrategy : d.chunkingStrategy = session.chunking.strategy)
    (hstrategy' : d'.chunkingStrategy = session.chunking.strategy)
    (hparameters : session.chunking.SameParameters d)
    (hparameters' : session.chunking.SameParameters d') : d.chunking = d'.chunking := by
  cases hchunking : session.chunking with
  | fastCdc p => rw [hparameters p hchunking, hparameters' p hchunking]
  | fixedSize chunkSizeBytes =>
      have hfixed : ∀ chunking : LayoutChunking, chunking.strategy = .fixedSize →
          chunking = .fixedSize := by
        intro chunking h
        cases chunking with
        | fixedSize => rfl
        | fastCdc p => cases h
      rw [hchunking] at hstrategy hstrategy'
      rw [hfixed d.chunking hstrategy, hfixed d'.chunking hstrategy']

theorem layoutId_eq_of_empty (h : MeetsContract session d) (h' : MeetsContract session d')
    (hobject : d.object = d'.object) (hempty : d.layout.chunks = [])
    (hempty' : d'.layout.chunks = []) : d.layoutId env = d'.layoutId env := by
  have hchunking := chunking_eq h.strategy h'.strategy h.parameters h'.parameters
  have hid : d.objectId = d'.objectId := congrArg StoredObject.objectId hobject
  have hbytes : d.canonicalBytes = d'.canonicalBytes := by
    simp only [ObjectLayoutDescriptor.canonicalBytes, ObjectLayoutDescriptor.chunkingStrategy,
      hchunking, hid, hobject, hempty, hempty']
  rw [ObjectLayoutDescriptor.layoutId, ObjectLayoutDescriptor.layoutId, hbytes]

theorem finalizeUpload_open {now : Int} {result : FinalizeUploadResult}
    (hopen : row.status = .open) (hrow : db.uploadSessions.find? row.sessionId = some row)
    (h : finalizeUpload env now db row.sessionId d = .ok (result, db')) :
    checkSessionChunking row.session d = .ok () ∧ result.layoutId = d.layoutId env := by
  rcases finalizeUpload_ok h with ⟨-, other, v, hfind, hstatus, -⟩ |
    ⟨other, createdAt, table, hid, hresult, hfinalizes, -⟩
  · obtain rfl := Option.some.inj (hrow.symm.trans hfind)
    rw [hopen] at hstatus
    cases hstatus
  · have hstored := hfinalizes.stored
    rw [hid, hrow] at hstored
    obtain rfl := Option.some.inj hstored
    have hfinalizable := hfinalizes.finalizable
    simp only [checkFinalizable, bind_eq_ok, exists_unit] at hfinalizable
    exact ⟨hfinalizable.1, by rw [hresult, finalResult]⟩

/-- What `finalize_upload` accepts for an open session meets the contract exactly when it
has a chunk or names the parameters of the session.  Then every acceptance of the object
with no chunk gives it the same layout id. -/
theorem finalizeUpload_contract_iff {now : Int} {result : FinalizeUploadResult}
    (hopen : row.status = .open) (hrow : db.uploadSessions.find? row.sessionId = some row)
    (h : finalizeUpload env now db row.sessionId d = .ok (result, db')) :
    (MeetsContract row.session d ↔
      d.layout.chunks ≠ [] ∨ row.session.chunking.SameParameters d) ∧
    ∀ other now' result' d' after, other.uploadSessions.find? row.sessionId = some row →
      finalizeUpload env now' other row.sessionId d' = .ok (result', after) →
      d.layout.chunks = [] → d'.layout.chunks = [] → d.object = d'.object →
      row.session.chunking.SameParameters d → row.session.chunking.SameParameters d' →
        result.layoutId = result'.layoutId := by
  obtain ⟨hcheck, hresult⟩ := finalizeUpload_open hopen hrow h
  refine ⟨meetsContract_iff hcheck, ?_⟩
  intro other now' result' d' after hrow' h' hempty hempty' hobject hparameters hparameters'
  obtain ⟨hcheck', hresult'⟩ := finalizeUpload_open hopen hrow' h'
  have hmeets : MeetsContract row.session d := (meetsContract_iff hcheck).mpr (.inr hparameters)
  have hmeets' : MeetsContract row.session d' := (meetsContract_iff hcheck').mpr (.inr hparameters')
  rw [hresult, hresult', layoutId_eq_of_empty hmeets hmeets' hobject hempty hempty']

end

/-! ## A session for the empty object -/

namespace Sample

def smallParameters : FastCdcParameters := ⟨64, 64, 64⟩

def largeParameters : FastCdcParameters := ⟨128, 128, 128⟩

def fastCdcSession : UploadSession :=
  { session with
    chunking := .fastCdc smallParameters
    valid := by decide +kernel }

def emptyDescriptor (parameters : FastCdcParameters)
    (h : (LayoutChunking.fastCdc parameters).validate = .ok ()) : ObjectLayoutDescriptor :=
  { object := ⟨orphanId, 0⟩
    chunking := .fastCdc parameters
    layout := ⟨[], rfl⟩
    chunkingValid := h
    sizeMatches := rfl }

def declaredDescriptor : ObjectLayoutDescriptor :=
  emptyDescriptor smallParameters (by decide +kernel)

def undeclaredDescriptor : ObjectLayoutDescriptor :=
  emptyDescriptor largeParameters (by decide +kernel)

/-- SHA-256 as far as it tells the descriptors of the empty object apart. -/
def layoutEnv : Environment :=
  { env with
    sha256 := fun bytes => if bytes = declaredDescriptor.canonicalBytes then 1#256 else 2#256 }

def fastCdcDb : Db :=
  afterOps layoutEnv Db.initial
    [.createArtifact artifact, .registerStorageNode node,
     .createUploadSession ⟨fastCdcSession, .open⟩]

end Sample

open Sample in
theorem finalizeUpload_contract_iff_sample :
    MeetsContract fastCdcSession declaredDescriptor ↔
      declaredDescriptor.layout.chunks ≠ [] ∨
        fastCdcSession.chunking.SameParameters declaredDescriptor := by
  have hrow : fastCdcDb.uploadSessions.find? fastCdcSession.sessionId =
      some ⟨fastCdcSession, .open⟩ := by decide +kernel
  have haccepted : ((finalizeUpload layoutEnv 0 fastCdcDb fastCdcSession.sessionId
      declaredDescriptor).toOption).isSome = true := by decide +kernel
  cases hresult : finalizeUpload layoutEnv 0 fastCdcDb fastCdcSession.sessionId
      declaredDescriptor with
  | error e =>
      rw [hresult] at haccepted
      cases haccepted
  | ok answer =>
      have hopen : (⟨fastCdcSession, .open⟩ : SessionRow).status = .open := rfl
      exact (finalizeUpload_contract_iff hopen hrow hresult).1

open Sample in
/-- The open session accepts the empty object under parameters that are not its own, and
gives it another layout id than under its own. -/
theorem finalizeUpload_undeclared :
    let outcome := fun d => (finalizeUpload layoutEnv 0 fastCdcDb fastCdcSession.sessionId d).map
      fun answer => answer.1.layoutId
    fastCdcDb.uploadSessions.find? fastCdcSession.sessionId = some ⟨fastCdcSession, .open⟩ ∧
      outcome undeclaredDescriptor = .ok (undeclaredDescriptor.layoutId layoutEnv) ∧
      ¬MeetsContract fastCdcSession undeclaredDescriptor ∧
      outcome declaredDescriptor = .ok (declaredDescriptor.layoutId layoutEnv) ∧
      declaredDescriptor.object = undeclaredDescriptor.object ∧
      declaredDescriptor.layoutId layoutEnv ≠ undeclaredDescriptor.layoutId layoutEnv := by
  have hother : undeclaredDescriptor.chunking ≠ .fastCdc smallParameters := by decide +kernel
  refine ⟨by decide +kernel, by decide +kernel, ?_, by decide +kernel⟩
  intro hmeets
  exact hother (hmeets.parameters smallParameters rfl)

end AiArtifactStore.Metadata
