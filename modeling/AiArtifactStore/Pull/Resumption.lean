import Mathlib.Order.Bounds.Basic
import AiArtifactStore.Pull.Content

/-!
# Resuming from a partial file

`resume_from_partial` as one function of the file's content, in 64-bit arithmetic.  It keeps the
longest prefix of the layout that the file holds and that verifies; its sums are exact on every
layout that the constructor accepts, and the engine takes the same steps.
-/

namespace AiArtifactStore.Pull

open AiArtifactStore.Client
open AiArtifactStore.Foundation
open AiArtifactStore.Identity
open AiArtifactStore.Metadata
open Relation

/-- `std::numeric_limits<off_t>::max()` -/
def offMax : Nat := 2 ^ 63 - 1

structure FileContent where
  bytes : List UInt8
  length_le : bytes.length ≤ offMax

/-! ## The function -/

def readAll (content : List UInt8) (offset size : Nat) : Except EngineExc (List UInt8) := do
  failIf (offset > offMax ∧ 0 < size) (.runtimeError "failed to read partial restore file")
  failIf ((readAt offset size content).length < size)
    (.runtimeError "partial restore read ended before expected bytes")
  .ok (readAt offset size content)

def truncateFile (content : List UInt8) (length : Nat) : Except EngineExc (List UInt8) := do
  failIf (length > offMax) (.runtimeError "partial restore truncate length exceeds platform limit")
  .ok (resize length content)

def chunkBytesMatchId (env : Environment) (bytes : List UInt8) (chunkId : String) : Bool :=
  (env.contentId bytes).hex == chunkId

structure Resumption where
  state : ResumeState
  hashed : List UInt8
  content : List UInt8
  deriving DecidableEq

def Resumption.truncate (r : Resumption) (length : Nat) : Except EngineExc Resumption := do
  let content ← truncateFile r.content length
  .ok { r with content := content }

def resumeLoop (add : Addition) (env : Environment) (partialSize index : Nat) (r : Resumption) :
    List RawChunkRef → Option (Except EngineExc Resumption)
  | [] => some (.ok r)
  | chunk :: chunks => do
      let chunkEnd ← add chunk.offset chunk.size
      if chunkEnd.toNat ≤ partialSize then
        match readAll r.content chunk.offset.toNat chunk.size.toNat with
        | .error e => some (.error e)
        | .ok bytes =>
            if chunkBytesMatchId env bytes chunk.chunkId then
              resumeLoop add env partialSize (index + 1)
                { r with
                  hashed := r.hashed ++ bytes
                  state := ⟨index + 1, r.state.chunksReusedFromPartial + 1⟩ } chunks
            else some (r.truncate chunk.offset.toNat)
      else if chunk.offset.toNat < partialSize then some (r.truncate chunk.offset.toNat)
      else some (.ok r)

def resumeFromPartial (add : Addition) (env : Environment) (content : FileContent)
    (totalSize : UInt64) (chunks : List RawChunkRef) : Option (Except EngineExc Resumption) :=
  if totalSize.toNat < content.bytes.length then
    match truncateFile content.bytes 0 with
    | .error e => some (.error e)
    | .ok emptied => resumeLoop add env 0 0 ⟨⟨0, 0⟩, [], emptied⟩ chunks
  else resumeLoop add env content.bytes.length 0 ⟨⟨0, 0⟩, [], content.bytes⟩ chunks

/-! ## Verified prefixes -/

/-- The chunks follow each other without a gap and end at the total size. -/
structure GapFree (totalSize : UInt64) (chunks : List RawChunkRef) : Prop where
  sizes : ∀ chunk ∈ chunks, chunk.size ≠ 0
  offsets : Contiguous (fun chunk => chunk.offset.toNat) (fun chunk => chunk.size.toNat) 0 chunks
  total : (chunks.map fun chunk => chunk.size.toNat).sum = totalSize.toNat

def rangeOf (content : List UInt8) (chunk : RawChunkRef) : List UInt8 :=
  readAt chunk.offset.toNat chunk.size.toNat content

def firstChunks (content : List UInt8) (chunks : List RawChunkRef) (k : Nat) : List UInt8 :=
  ((chunks.take k).map (rangeOf content)).flatten

def Verifies (env : Environment) (content : List UInt8) (chunk : RawChunkRef) : Prop :=
  chunk.offset.toNat + chunk.size.toNat ≤ content.length ∧
    (env.contentId (rangeOf content chunk)).hex = chunk.chunkId

/-- The ranges of the first `k` chunks are in the file and hash to their ids. -/
def VerifiesTo (env : Environment) (content : List UInt8) (chunks : List RawChunkRef) (k : Nat) :
    Prop :=
  k ≤ chunks.length ∧ ∀ index < k, ∀ chunk, chunks[index]? = some chunk → Verifies env content chunk

variable {env : Environment} {content : List UInt8} {chunks : List RawChunkRef} {totalSize : UInt64}
  {k : Nat} {chunk : RawChunkRef}

theorem verifiesTo_zero : VerifiesTo env content chunks 0 :=
  ⟨Nat.zero_le _, fun _ h => absurd h (Nat.not_lt_zero _)⟩

theorem VerifiesTo.succ (h : VerifiesTo env content chunks k) (hchunk : chunks[k]? = some chunk)
    (hverifies : Verifies env content chunk) : VerifiesTo env content chunks (k + 1) := by
  refine ⟨(List.getElem?_eq_some_iff.mp hchunk).1, fun index hindex other hother => ?_⟩
  rcases Nat.lt_succ_iff_lt_or_eq.mp hindex with hlt | rfl
  · exact h.2 index hlt other hother
  · obtain rfl := Option.some.inj (hchunk.symm.trans hother)
    exact hverifies

theorem VerifiesTo.isGreatest (h : VerifiesTo env content chunks k)
    (hchunk : ∀ chunk, chunks[k]? = some chunk → ¬Verifies env content chunk) :
    IsGreatest {k | VerifiesTo env content chunks k} k := by
  refine ⟨h, fun longer hlonger => Nat.le_of_not_lt fun hlt => ?_⟩
  have hk : k < chunks.length := Nat.lt_of_lt_of_le hlt hlonger.1
  exact hchunk _ (List.getElem?_eq_getElem hk)
    (hlonger.2 k hlt _ (List.getElem?_eq_getElem hk))

theorem firstChunks_succ (hchunk : chunks[k]? = some chunk) :
    firstChunks content chunks (k + 1) = firstChunks content chunks k ++ rangeOf content chunk := by
  rw [firstChunks, List.take_add_one, hchunk]
  simp [firstChunks]

namespace GapFree

variable (h : GapFree totalSize chunks)
include h

theorem firstChunks_eq (k : Nat) :
    firstChunks content chunks k =
      content.take ((chunks.take k).map fun chunk => chunk.size.toNat).sum := by
  have hsplit : Contiguous (fun chunk => chunk.offset.toNat) (fun chunk => chunk.size.toNat) 0
      (chunks.take k ++ chunks.drop k) := by
    rw [List.take_append_drop]
    exact h.offsets
  exact hsplit.left.flatten content

theorem firstChunks_at (hchunk : chunks[k]? = some chunk) :
    firstChunks content chunks k = content.take chunk.offset.toNat := by
  have hoffset := h.offsets k chunk hchunk
  simp only [Nat.zero_add] at hoffset
  rw [h.firstChunks_eq, hoffset]

theorem end_le (hchunk : chunk ∈ chunks) :
    chunk.offset.toNat + chunk.size.toNat ≤ totalSize.toNat := by
  have hend := h.offsets.end_le hchunk
  rwa [h.total, Nat.zero_add] at hend

theorem end_lt (hchunk : chunk ∈ chunks) :
    chunk.offset.toNat + chunk.size.toNat < 2 ^ 64 :=
  Nat.lt_of_le_of_lt (h.end_le hchunk) totalSize.toNat_lt

theorem offset_le (hverified : VerifiesTo env content chunks k) (hchunk : chunks[k]? = some chunk) :
    chunk.offset.toNat ≤ content.length := by
  cases k with
  | zero =>
      have hoffset := h.offsets 0 chunk hchunk
      simp only [List.take_zero, List.map_nil, List.sum_nil] at hoffset
      omega
  | succ k =>
      have hk : k < chunks.length := Nat.lt_of_succ_lt (List.getElem?_eq_some_iff.mp hchunk).1
      have hlast := List.getElem?_eq_getElem hk
      have hnext := h.offsets.next hlast hchunk
      have hend := (hverified.2 k (Nat.lt_succ_self k) _ hlast).1
      omega

end GapFree

/-! ## What is kept -/

theorem length_readAt {offset size : Nat} (h : offset + size ≤ content.length) :
    (readAt offset size content).length = size := by
  rw [readAt, List.length_take, List.length_drop]
  omega

theorem readAll_of_le {offset size : Nat} (hend : offset + size ≤ content.length)
    (hlength : content.length ≤ offMax) :
    readAll content offset size = .ok (readAt offset size content) := by
  rw [readAll, failIf_of_false (by omega), ok_bind,
    failIf_of_false (by rw [length_readAt hend]; omega), ok_bind]

theorem truncateFile_of_le {length : Nat} (hle : length ≤ content.length)
    (hlength : content.length ≤ offMax) :
    truncateFile content length = .ok (content.take length) := by
  rw [truncateFile, failIf_of_false (by omega), ok_bind, resize_of_le hle]

def kept (content : List UInt8) (chunks : List RawChunkRef) (k : Nat) : Resumption :=
  ⟨⟨k, k⟩, firstChunks content chunks k, firstChunks content chunks k⟩

/-- A cut where a chunk starts keeps the chunks before it. -/
theorem truncate_eq_kept (h : GapFree totalSize chunks) (hlength : content.length ≤ offMax)
    (hchunk : chunks[k]? = some chunk) (hle : chunk.offset.toNat ≤ content.length) :
    (⟨⟨k, k⟩, firstChunks content chunks k, content⟩ : Resumption).truncate chunk.offset.toNat =
      .ok (kept content chunks k) := by
  rw [Resumption.truncate, truncateFile_of_le hle hlength, ok_bind, kept, h.firstChunks_at hchunk]

theorem resumeLoop_eq_kept (h : GapFree totalSize chunks) (hlength : content.length ≤ offMax)
    (hle : content.length ≤ totalSize.toNat) {rest : List RawChunkRef}
    (hrest : chunks.drop k = rest) (hverified : VerifiesTo env content chunks k) :
    ∃ k', IsGreatest {k | VerifiesTo env content chunks k} k' ∧
      resumeLoop addWrapping env content.length k
        ⟨⟨k, k⟩, firstChunks content chunks k, content⟩ rest =
          some (.ok (kept content chunks k')) := by
  induction rest generalizing k with
  | nil =>
      -- every chunk verifies, so the file ends with the last one
      have hk : chunks.length ≤ k := List.drop_eq_nil_iff.mp hrest
      refine ⟨k, hverified.isGreatest fun chunk hchunk => ?_, ?_⟩
      · rw [List.getElem?_eq_none hk] at hchunk
        cases hchunk
      · have hwhole : firstChunks content chunks k = content := by
          rw [h.firstChunks_eq, List.take_of_length_le hk, h.total, List.take_of_length_le hle]
        rw [resumeLoop, kept, hwhole]
  | cons chunk rest ih =>
      have hchunk : chunks[k]? = some chunk := by
        rw [← List.head?_drop, hrest, List.head?_cons]
      have htail : chunks.drop (k + 1) = rest := by
        rw [← List.tail_drop, hrest, List.tail_cons]
      have hstart := h.offset_le hverified hchunk
      have hend : (chunk.offset + chunk.size).toNat = chunk.offset.toNat + chunk.size.toNat :=
        toNat_add_of_lt (h.end_lt (List.mem_of_getElem? hchunk))
      simp only [resumeLoop, addWrapping, Option.bind_eq_bind, Option.bind_some, hend]
      by_cases hpresent : chunk.offset.toNat + chunk.size.toNat ≤ content.length
      · rw [if_pos hpresent, readAll_of_le hpresent hlength]
        simp only [chunkBytesMatchId, beq_iff_eq]
        by_cases hid : (env.contentId (rangeOf content chunk)).hex = chunk.chunkId
        · have hnext := hverified.succ hchunk ⟨hpresent, hid⟩
          obtain ⟨k', hgreatest, hloop⟩ := ih htail hnext
          refine ⟨k', hgreatest, ?_⟩
          rw [firstChunks_succ hchunk] at hloop
          rw [← rangeOf, if_pos hid]
          exact hloop
        · refine ⟨k, hverified.isGreatest fun other hother => ?_, ?_⟩
          · obtain rfl := Option.some.inj (hchunk.symm.trans hother)
            exact fun hverifies => hid hverifies.2
          · rw [← rangeOf, if_neg hid, truncate_eq_kept h hlength hchunk hstart]
      · rw [if_neg hpresent]
        refine ⟨k, hverified.isGreatest fun other hother => ?_, ?_⟩
        · obtain rfl := Option.some.inj (hchunk.symm.trans hother)
          exact fun hverifies => hpresent hverifies.1
        · by_cases hpartial : chunk.offset.toNat < content.length
          · rw [if_pos hpartial, truncate_eq_kept h hlength hchunk hstart]
          · have hwhole : firstChunks content chunks k = content := by
              rw [h.firstChunks_at hchunk, List.take_of_length_le (Nat.le_of_not_lt hpartial)]
            rw [if_neg hpartial, kept, hwhole]

theorem resumeLoop_empty (h : GapFree totalSize chunks) (rest : List UInt8) :
    resumeLoop addWrapping env 0 0 ⟨⟨0, 0⟩, [], []⟩ chunks = some (.ok (kept rest chunks 0)) := by
  cases chunks with
  | nil => rfl
  | cons chunk chunks =>
      have hsize : chunk.size.toNat ≠ 0 := fun hzero =>
        h.sizes chunk (by simp) (UInt64.toNat_inj.mp hzero)
      have hend : (chunk.offset + chunk.size).toNat = chunk.offset.toNat + chunk.size.toNat :=
        toNat_add_of_lt (h.end_lt (by simp))
      simp only [resumeLoop, addWrapping, Option.bind_eq_bind, Option.bind_some, hend]
      rw [if_neg (by omega), if_neg (by omega)]
      rfl

/-- The largest verified prefix of a file that is not too long, else nothing. -/
def KeptCount (env : Environment) (content : List UInt8) (totalSize : UInt64)
    (chunks : List RawChunkRef) (k : Nat) : Prop :=
  if content.length ≤ totalSize.toNat then IsGreatest {k | VerifiesTo env content chunks k} k
  else k = 0

theorem resumeFromPartial_eq_kept (env : Environment) (content : FileContent)
    (h : GapFree totalSize chunks) :
    ∃ k, KeptCount env content.bytes totalSize chunks k ∧
      resumeFromPartial addWrapping env content totalSize chunks =
        some (.ok (kept content.bytes chunks k)) := by
  unfold KeptCount resumeFromPartial
  by_cases hle : content.bytes.length ≤ totalSize.toNat
  · obtain ⟨k, hgreatest, hloop⟩ :=
      resumeLoop_eq_kept h content.length_le hle (List.drop_zero ..)
        (@verifiesTo_zero env _ _)
    rw [if_neg (Nat.not_lt.mpr hle)]
    simp only [if_pos hle]
    exact ⟨k, hgreatest, hloop⟩
  · rw [if_pos (Nat.lt_of_not_le hle), truncateFile_of_le (Nat.zero_le _) content.length_le]
    simp only [if_neg hle]
    exact ⟨0, rfl, resumeLoop_empty h content.bytes⟩

/-- The file and the hasher hold the longest verified prefix, and the index and the count of
reused chunks are its length. -/
theorem resume_keeps_verified_prefix (env : Environment) (content : FileContent)
    (totalSize : UInt64) (chunks : List RawChunkRef) (h : GapFree totalSize chunks) :
    ∃ k r, KeptCount env content.bytes totalSize chunks k ∧
      resumeFromPartial addWrapping env content totalSize chunks = some (.ok r) ∧
      r.content = firstChunks content.bytes chunks k ∧
      r.state.firstDownloadIndex = k ∧ r.state.chunksReusedFromPartial = k ∧
      r.hashed = firstChunks content.bytes chunks k := by
  obtain ⟨k, hkept, hresume⟩ := resumeFromPartial_eq_kept env content h
  exact ⟨k, _, hkept, hresume, rfl, rfl, rfl, rfl⟩

namespace Sample

/-- Two chunks, of which a file with one byte of its own behind the first holds the first. -/
def partialChunks : List RawChunkRef :=
  [⟨(Metadata.Sample.env.contentId (asciiBytes ['a'])).hex, 0, 1⟩,
    ⟨(Metadata.Sample.env.contentId (asciiBytes ['b', 'c'])).hex, 1, 2⟩]

def partialContent : FileContent := ⟨asciiBytes ['a', 'x'], by decide⟩

theorem gapFree : GapFree 3 partialChunks where
  sizes := by decide
  offsets := contiguous_cons.mpr ⟨rfl, contiguous_cons.mpr ⟨rfl, contiguous_nil⟩⟩
  total := rfl

end Sample

theorem resume_keeps_verified_prefix_sample :
    ∃ k r, KeptCount Metadata.Sample.env Sample.partialContent.bytes 3 Sample.partialChunks k ∧
      resumeFromPartial addWrapping Metadata.Sample.env Sample.partialContent 3 Sample.partialChunks =
        some (.ok r) ∧
      r.content = firstChunks Sample.partialContent.bytes Sample.partialChunks k ∧
      r.state.firstDownloadIndex = k ∧ r.state.chunksReusedFromPartial = k ∧
      r.hashed = firstChunks Sample.partialContent.bytes Sample.partialChunks k :=
  resume_keeps_verified_prefix Metadata.Sample.env Sample.partialContent 3 Sample.partialChunks
    Sample.gapFree

example : resumeFromPartial addWrapping Metadata.Sample.env Sample.partialContent 3
      Sample.partialChunks =
    some (.ok (kept Sample.partialContent.bytes Sample.partialChunks 1)) := by decide +kernel

/-! ## Exact sums -/

theorem resumeLoop_exact {partialSize index : Nat} {r : Resumption}
    (h : ∀ chunk ∈ chunks, chunk.offset.toNat + chunk.size.toNat < 2 ^ 64) :
    resumeLoop addExact env partialSize index r chunks =
      resumeLoop addWrapping env partialSize index r chunks := by
  induction chunks generalizing index r with
  | nil => rfl
  | cons chunk chunks ih =>
      have hrest := fun index r => @ih index r fun other hother => h other (by simp [hother])
      rw [resumeLoop, resumeLoop, addExact_of_lt (h chunk (by simp))]
      simp only [hrest]

theorem resumeFromPartial_exact {content : FileContent}
    (h : ∀ chunk ∈ chunks, chunk.offset.toNat + chunk.size.toNat < 2 ^ 64) :
    resumeFromPartial addExact env content totalSize chunks =
      resumeFromPartial addWrapping env content totalSize chunks := by
  unfold resumeFromPartial
  simp only [resumeLoop_exact h]

/-- The file offsets of the calls of `read_all` or `write_all`, from a position of a buffer of the
size given on.  A call moves no more than it is asked to. -/
def transferOffsets (add : Addition) (offset size position : UInt64) :
    List UInt64 → Option (List UInt64)
  | [] => some []
  | moved :: calls =>
      if position < size then do
        let callOffset ← add offset position
        let position ← add position (if moved ≤ size - position then moved else size - position)
        let rest ← transferOffsets add offset size position calls
        some (callOffset :: rest)
      else some []

theorem transferOffsets_exact {offset size position : UInt64}
    (h : offset.toNat + size.toNat < 2 ^ 64) (calls : List UInt64) :
    ∃ offsets, transferOffsets addExact offset size position calls = some offsets ∧
      transferOffsets addWrapping offset size position calls = some offsets := by
  induction calls generalizing position with
  | nil => exact ⟨[], rfl, rfl⟩
  | cons moved calls ih =>
      simp only [transferOffsets]
      split
      · rename_i hlt
        have hle : position ≤ size := UInt64.le_of_lt hlt
        have hremaining : (size - position).toNat = size.toNat - position.toNat :=
          UInt64.toNat_sub_of_le _ _ hle
        rw [UInt64.le_iff_toNat_le] at hle
        have hmoved : (if moved ≤ size - position then moved else size - position).toNat ≤
            (size - position).toNat := by
          split
          · rename_i hmoved
            exact UInt64.le_iff_toNat_le.mp hmoved
          · exact Nat.le_refl _
        obtain ⟨offsets, hexact, hwrapping⟩ :=
          @ih (position + if moved ≤ size - position then moved else size - position)
        refine ⟨(offset + position) :: offsets, ?_, ?_⟩
        · rw [addExact_of_lt (by omega), addExact_of_lt (by omega)]
          simp only [addWrapping, Option.bind_eq_bind, Option.bind_some, hexact]
        · simp only [addWrapping, Option.bind_eq_bind, Option.bind_some] at hwrapping ⊢
          rw [hwrapping, Option.bind_some]
      · exact ⟨[], rfl, rfl⟩

theorem gapFree_of_make {layout : RawObjectLayout}
    (h : RawObjectLayout.make addWrapping chunks = some (.ok layout)) :
    GapFree layout.totalSize chunks := by
  have hformed := RawObjectLayout.wellFormed_of_make h
  exact ⟨hformed.sizes, hformed.offsets, (RawObjectLayout.totalSize_of_make h).symm⟩

/-! ## The engine -/

theorem readAll_eq_ok {offset size : Nat} {bytes : List UInt8}
    (h : readAll content offset size = .ok bytes) :
    bytes = readAt offset size content ∧ size ≤ (readAt offset size content).length := by
  simp only [readAll, bind_eq_ok, exists_unit, failIf_eq_ok, Nat.not_lt] at h
  obtain ⟨-, hlength, hbytes⟩ := h
  exact ⟨(Except.ok.inj hbytes).symm, hlength⟩

theorem truncate_eq_ok {r final : Resumption} {length : Nat} (h : r.truncate length = .ok final) :
    final = { r with content := resize length r.content } := by
  simp only [Resumption.truncate, truncateFile, bind_eq_ok, exists_unit, failIf_eq_ok] at h
  obtain ⟨cut, ⟨-, hcut⟩, hfinal⟩ := h
  obtain rfl := Except.ok.inj hcut
  exact (Except.ok.inj hfinal).symm

namespace PullState

variable {ctx : PullContext} {s : PullState} {file : PartialFile}

/-- The call, once the loop is left with the file and the hasher as given. -/
def resumed (ctx : PullContext) (s : PullState) (file : PartialFile) (fs : FileSystem String)
    (r : Resumption) : PullState :=
  ({ s with files := ⟨fs, r.hashed⟩ } : PullState).afterResume ctx file r.state

theorem resumed_of_files {r : Resumption} (h : s.files.hashed = r.hashed) :
    s.resumed ctx file s.files.fs r = s.afterResume ctx file r.state := by
  rw [resumed, ← h]

theorem runs_cut {r final : Resumption} {length : Nat}
    (hturn : Step ctx s (s.goto (.cutting file length r.state)))
    (hnode : s.files.fs.nodes file.inode = .file r.content) (hhashed : s.files.hashed = r.hashed)
    (hfinal : r.truncate length = .ok final) :
    ∃ fs, fs.nodes file.inode = .file final.content ∧
      Runs ctx s (s.resumed ctx file fs final) := by
  obtain rfl := truncate_eq_ok hfinal
  refine ⟨s.files.fs.ftruncate file.inode length, FileSystem.nodes_modify hnode _, ?_⟩
  refine (ReflTransGen.single hturn).tail ⟨.next, ?_⟩
  rw [resumed, ← hhashed]
  rfl

theorem runs_resumeLoop {partialSize : Nat} {r final : Resumption} {raws : List RawChunkRef}
    (hphase : s.phase = .resuming file partialSize r.state)
    (hnode : s.files.fs.nodes file.inode = .file r.content) (hhashed : s.files.hashed = r.hashed)
    (hraws : List.Forall₂ RawChunkRef.Denotes raws
      (file.chunks.drop r.state.firstDownloadIndex))
    (hsums : ∀ raw ∈ raws, raw.offset.toNat + raw.size.toNat < 2 ^ 64)
    (hloop : resumeLoop addWrapping ctx.env partialSize r.state.firstDownloadIndex r raws =
      some (.ok final)) :
    ∃ fs, fs.nodes file.inode = .file final.content ∧
      Runs ctx s (s.resumed ctx file fs final) := by
  have hturn : Step ctx s (s.resume ctx file partialSize r.state) :=
    ⟨.next, by simp only [step, next, hphase]⟩
  have hcontents : s.files.fs.contents file.inode = r.content := by
    simp only [FileSystem.contents, hnode]
  induction raws generalizing s r with
  | nil =>
      obtain rfl := Except.ok.inj (Option.some.inj hloop)
      have hnone : file.chunks[r.state.firstDownloadIndex]? = none := by
        rw [← List.head?_drop, List.forall₂_nil_left_iff.mp hraws, List.head?_nil]
      have hresume : s.resume ctx file partialSize r.state = s.afterResume ctx file r.state := by
        simp only [resume, hnone]
      refine ⟨s.files.fs, hnode, ?_⟩
      rw [resumed_of_files hhashed, ← hresume]
      exact .single hturn
  | cons raw raws ih =>
      obtain ⟨chunk, rest, hchunk, hrest, hdrop⟩ := List.forall₂_cons_left_iff.mp hraws
      have hat : file.chunks[r.state.firstDownloadIndex]? = some chunk := by
        rw [← List.head?_drop, hdrop, List.head?_cons]
      have htail : file.chunks.drop (r.state.firstDownloadIndex + 1) = rest := by
        rw [← List.tail_drop, hdrop, List.tail_cons]
      have hend : (raw.offset + raw.size).toNat = chunk.offset + chunk.size := by
        rw [toNat_add_of_lt (hsums raw (by simp)), hchunk.offset, hchunk.size]
      have hid (bytes : List UInt8) : chunkBytesMatchId ctx.env bytes raw.chunkId = true ↔
          ctx.env.contentId bytes = chunk.chunkId := by
        rw [chunkBytesMatchId, beq_iff_eq, ← ContentId.hex_of_ofHex? hchunk.chunkId]
        exact ContentId.hex_injective.eq_iff
      simp only [resumeLoop, addWrapping, Option.bind_eq_bind, Option.bind_some, hend, hchunk.offset,
        hchunk.size] at hloop
      simp only [resume, hat, hcontents] at hturn
      by_cases hpresent : chunk.offset + chunk.size ≤ partialSize
      · simp only [if_pos hpresent] at hloop hturn
        cases hread : readAll r.content chunk.offset chunk.size with
        | error e =>
            rw [hread] at hloop
            cases Option.some.inj hloop
        | ok bytes =>
            obtain ⟨rfl, hlength⟩ := readAll_eq_ok hread
            simp only [hread, hid] at hloop
            rw [if_neg (Nat.not_lt.mpr hlength)] at hturn
            by_cases hmatch : ctx.env.contentId (readAt chunk.offset chunk.size r.content) =
                chunk.chunkId
            · rw [if_pos hmatch] at hloop
              rw [if_neg (not_not.mpr hmatch)] at hturn
              rw [← htail] at hrest
              obtain ⟨fs, hfs, hruns⟩ := ih
                (r := { r with
                  state := ⟨r.state.firstDownloadIndex + 1, r.state.chunksReusedFromPartial + 1⟩
                  hashed := r.hashed ++ readAt chunk.offset chunk.size r.content })
                (s := { s with
                  files := ⟨s.files.fs, s.files.hashed ++ readAt chunk.offset chunk.size r.content⟩
                  phase := .resuming file partialSize
                    ⟨r.state.firstDownloadIndex + 1, r.state.chunksReusedFromPartial + 1⟩ })
                rfl hnode (congrArg (· ++ _) hhashed) hrest
                (fun other hother => hsums other (by simp [hother])) hloop ⟨.next, rfl⟩ hcontents
              exact ⟨fs, hfs, ReflTransGen.head hturn hruns⟩
            · rw [if_neg hmatch] at hloop
              rw [if_pos hmatch] at hturn
              exact runs_cut hturn hnode hhashed (Option.some.inj hloop)
      · simp only [if_neg hpresent] at hloop hturn
        by_cases hpartial : chunk.offset < partialSize
        · rw [if_pos hpartial] at hloop hturn
          exact runs_cut hturn hnode hhashed (Option.some.inj hloop)
        · rw [if_neg hpartial] at hloop hturn
          obtain rfl := Except.ok.inj (Option.some.inj hloop)
          refine ⟨s.files.fs, hnode, ?_⟩
          rw [resumed_of_files hhashed]
          exact .single hturn

theorem runs_resumeFromPartial {content : FileContent} {raws : List RawChunkRef}
    {totalSize : UInt64} {final : Resumption} (hphase : s.phase = .sizing file)
    (hnode : s.files.fs.nodes file.inode = .file content.bytes) (hhashed : s.files.hashed = [])
    (hraws : List.Forall₂ RawChunkRef.Denotes raws file.chunks)
    (hsize : totalSize.toNat = file.plan.layoutDescriptor.object.totalSize)
    (hsums : ∀ raw ∈ raws, raw.offset.toNat + raw.size.toNat < 2 ^ 64)
    (hresume : resumeFromPartial addWrapping ctx.env content totalSize raws = some (.ok final)) :
    ∃ fs, fs.nodes file.inode = .file final.content ∧
      Runs ctx s (s.resumed ctx file fs final) := by
  have hcontents : s.files.fs.contents file.inode = content.bytes := by
    simp only [FileSystem.contents, hnode]
  unfold resumeFromPartial at hresume
  by_cases hlong : totalSize.toNat < content.bytes.length
  · rw [if_pos hlong, truncateFile_of_le (Nat.zero_le _) content.length_le] at hresume
    have hsizing : Step ctx s (s.goto (.emptying file)) := by
      refine ⟨.next, ?_⟩
      simp only [step, next, hphase, hcontents, ← hsize]
      exact if_pos hlong
    have hemptied : resize 0 content.bytes = [] := by
      rw [resize_of_le (Nat.zero_le _), List.take_zero]
    have hemptying : Step ctx (s.goto (.emptying file))
        ((s.withFs (s.files.fs.ftruncate file.inode 0)).goto (.resuming file 0 ⟨0, 0⟩)) :=
      ⟨.next, rfl⟩
    obtain ⟨fs, hfs, hruns⟩ := runs_resumeLoop (r := ⟨⟨0, 0⟩, [], []⟩)
      (s := (s.withFs (s.files.fs.ftruncate file.inode 0)).goto (.resuming file 0 ⟨0, 0⟩)) rfl
      ((FileSystem.nodes_modify hnode (resize 0)).trans (congrArg Node.file hemptied)) hhashed
      hraws hsums hresume
    exact ⟨fs, hfs, (ReflTransGen.head hsizing (.single hemptying)).trans hruns⟩
  · rw [if_neg hlong] at hresume
    have hsizing : Step ctx s (s.goto (.resuming file content.bytes.length ⟨0, 0⟩)) := by
      refine ⟨.next, ?_⟩
      simp only [step, next, hphase, hcontents, ← hsize]
      exact if_neg hlong
    obtain ⟨fs, hfs, hruns⟩ := runs_resumeLoop (r := ⟨⟨0, 0⟩, [], content.bytes⟩)
      (s := s.goto (.resuming file content.bytes.length ⟨0, 0⟩)) rfl hnode hhashed hraws hsums
      hresume
    exact ⟨fs, hfs, ReflTransGen.head hsizing hruns⟩

theorem runs_keep_verified_prefix {content : FileContent} {raws : List RawChunkRef}
    {totalSize : UInt64} (hphase : s.phase = .sizing file)
    (hnode : s.files.fs.nodes file.inode = .file content.bytes) (hhashed : s.files.hashed = [])
    (hraws : List.Forall₂ RawChunkRef.Denotes raws file.chunks)
    (hsize : totalSize.toNat = file.plan.layoutDescriptor.object.totalSize)
    (hgapFree : GapFree totalSize raws) :
    ∃ k fs, KeptCount ctx.env content.bytes totalSize raws k ∧
      fs.nodes file.inode = .file (firstChunks content.bytes raws k) ∧
      Runs ctx s (s.resumed ctx file fs (kept content.bytes raws k)) := by
  obtain ⟨k, hkept, hresume⟩ := resumeFromPartial_eq_kept ctx.env content hgapFree
  obtain ⟨fs, hfs, hruns⟩ := runs_resumeFromPartial hphase hnode hhashed hraws hsize
    (fun _ => hgapFree.end_lt) hresume
  exact ⟨k, fs, hkept, hfs, hruns⟩

end PullState

/-- The constructor accepts exactly the well-formed chunks and computes their exact total.  On an
accepted layout of a matching object no sum of an offset and a size wraps around: not in the
constructor, not where a partial file is resumed and not where a chunk is read or written. -/
theorem layouts_exclude_wraparound (env : Environment) (chunks : List RawChunkRef) :
    ((∃ layout, RawObjectLayout.make addWrapping chunks = some (.ok layout)) ↔
      WellFormedChunks chunks) ∧
    (∀ layout, RawObjectLayout.make addWrapping chunks = some (.ok layout) →
      layout.totalSize.toNat = (chunks.map fun chunk => chunk.size.toNat).sum) ∧
    ∀ objectSize layout,
      RawObjectLayout.describe addWrapping objectSize chunks = some (.ok layout) →
      RawObjectLayout.describe addExact objectSize chunks = some (.ok layout) ∧
      (∀ content, ∃ r, resumeFromPartial addExact env content objectSize chunks = some (.ok r) ∧
        resumeFromPartial addWrapping env content objectSize chunks = some (.ok r)) ∧
      ∀ chunk ∈ chunks, ∀ calls, ∃ offsets,
        transferOffsets addExact chunk.offset chunk.size 0 calls = some offsets ∧
        transferOffsets addWrapping chunk.offset chunk.size 0 calls = some offsets := by
  refine ⟨⟨?_, ?_⟩, fun layout => RawObjectLayout.totalSize_of_make, ?_⟩
  · rintro ⟨layout, hmake⟩
    exact RawObjectLayout.wellFormed_of_make hmake
  · intro hformed
    obtain ⟨layout, hmake, -, -⟩ := RawObjectLayout.make_of_wellFormed hformed
    exact ⟨layout, hmake⟩
  · intro objectSize layout hdescribe
    obtain ⟨hmake, rfl⟩ := RawObjectLayout.make_of_describe hdescribe
    have hgapFree := gapFree_of_make hmake
    refine ⟨(RawObjectLayout.describe_exact _ _).trans hdescribe, fun content => ?_,
      fun chunk hchunk => transferOffsets_exact (hgapFree.end_lt hchunk)⟩
    obtain ⟨k, -, hresume⟩ := resumeFromPartial_eq_kept env content hgapFree
    exact ⟨_, (resumeFromPartial_exact fun _ => hgapFree.end_lt).trans hresume, hresume⟩

theorem layouts_exclude_wraparound_sample :
    ∃ r, resumeFromPartial addExact Metadata.Sample.env Sample.partialContent 3
        Sample.partialChunks = some (.ok r) ∧
      resumeFromPartial addWrapping Metadata.Sample.env Sample.partialContent 3
        Sample.partialChunks = some (.ok r) :=
  ((layouts_exclude_wraparound Metadata.Sample.env Sample.partialChunks).2.2 3
    ⟨Sample.partialChunks, 3⟩ (by decide +kernel)).2.1 Sample.partialContent

end AiArtifactStore.Pull
