import AiArtifactStore.Storage.ListedStore
import AiArtifactStore.Metadata.Histories
import Mathlib.Logic.Relation

/-!
# Puts that fail or stop

`put` one system call at a time.  Every call may fail, the temporary file may be left
behind, and the process may stop after any step.  What the store answers changes with the
rename only.
-/

namespace AiArtifactStore.Storage

open AiArtifactStore.Foundation
open AiArtifactStore.Identity
open AiArtifactStore.Metadata
open Relation

namespace ChunkTree

/-! ## The steps of a put -/

inductive PutPhase where
  | start
  | prepared (chunkId : ContentId)
  | writing (chunkId : ContentId) (suffix : List Char) (written : Nat)
  | flushed (chunkId : ContentId) (suffix : List Char)
  | closed (chunkId : ContentId) (suffix : List Char)
  | verified (chunkId : ContentId) (suffix : List Char)
  -- an exception is on its way through the destructor of the temporary file
  | unwinding (chunkId : ContentId) (suffix : List Char)
  | threw
  | returned
  deriving DecidableEq

inductive PutStep (env : Environment) (expectedChunkId : String) (data : List UInt8) :
    PutPhase × ChunkTree → PutPhase × ChunkTree → Prop
  | invalid {tree} (hid : ContentId.ofHex? expectedChunkId = none) :
      PutStep env expectedChunkId data (.start, tree) (.threw, tree)
  | present {tree chunkId bytes} (hid : ContentId.ofHex? expectedChunkId = some chunkId)
      (hstored : (storedBytes tree chunkId).isSome = true)
      (hget : get env tree expectedChunkId = .ok bytes) :
      PutStep env expectedChunkId data (.start, tree) (.returned, tree)
  | unreadable {tree chunkId} (hid : ContentId.ofHex? expectedChunkId = some chunkId)
      (hstored : (storedBytes tree chunkId).isSome = true) :
      PutStep env expectedChunkId data (.start, tree) (.threw, tree)
  | createDirectories {tree made chunkId} (hid : ContentId.ofHex? expectedChunkId = some chunkId)
      (hstored : storedBytes tree chunkId = none)
      (hmade : createDirectories tree (fanoutName chunkId) = .ok made) :
      PutStep env expectedChunkId data (.start, tree) (.prepared chunkId, made)
  | createDirectoriesFails {tree chunkId} (hid : ContentId.ofHex? expectedChunkId = some chunkId)
      (hstored : storedBytes tree chunkId = none) :
      PutStep env expectedChunkId data (.start, tree) (.threw, tree)
  | createTemporary {tree created chunkId suffix}
      (hcreated : createTemporary tree (fanoutName chunkId) (temporaryName suffix) = .ok created) :
      PutStep env expectedChunkId data (.prepared chunkId, tree) (.writing chunkId suffix 0, created)
  | createTemporaryFails {tree chunkId} :
      PutStep env expectedChunkId data (.prepared chunkId, tree) (.threw, tree)
  | write {tree chunkId suffix written more} (hmore : written < more) (hsize : more ≤ data.length) :
      PutStep env expectedChunkId data (.writing chunkId suffix written, tree)
        (.writing chunkId suffix more,
          setBytes tree (fanoutName chunkId) (temporaryName suffix) (data.take more))
  | writeFails {tree chunkId suffix written} :
      PutStep env expectedChunkId data (.writing chunkId suffix written, tree)
        (.unwinding chunkId suffix, tree)
  | flush {tree chunkId suffix} :
      PutStep env expectedChunkId data (.writing chunkId suffix data.length, tree)
        (.flushed chunkId suffix, tree)
  | flushFails {tree chunkId suffix} :
      PutStep env expectedChunkId data (.writing chunkId suffix data.length, tree)
        (.unwinding chunkId suffix, tree)
  | close {tree chunkId suffix} :
      PutStep env expectedChunkId data (.flushed chunkId suffix, tree)
        (.closed chunkId suffix, tree)
  | closeFails {tree chunkId suffix} :
      PutStep env expectedChunkId data (.flushed chunkId suffix, tree)
        (.unwinding chunkId suffix, tree)
  | verify {tree chunkId suffix} (hhash : (env.contentId data).hex = expectedChunkId) :
      PutStep env expectedChunkId data (.closed chunkId suffix, tree)
        (.verified chunkId suffix, tree)
  | mismatch {tree chunkId suffix} (hhash : (env.contentId data).hex ≠ expectedChunkId) :
      PutStep env expectedChunkId data (.closed chunkId suffix, tree)
        (.unwinding chunkId suffix, tree)
  | rename {tree renamed chunkId suffix}
      (hrenamed : renameFile tree (fanoutName chunkId) (temporaryName suffix) expectedChunkId =
        .ok renamed) :
      PutStep env expectedChunkId data (.verified chunkId suffix, tree) (.returned, renamed)
  | renameFails {tree chunkId suffix} :
      PutStep env expectedChunkId data (.verified chunkId suffix, tree)
        (.unwinding chunkId suffix, tree)
  | removeTemporary {tree chunkId suffix} :
      PutStep env expectedChunkId data (.unwinding chunkId suffix, tree)
        (.threw, removeFile tree (fanoutName chunkId) (temporaryName suffix))
  | removeTemporaryFails {tree chunkId suffix} :
      PutStep env expectedChunkId data (.unwinding chunkId suffix, tree) (.threw, tree)

/-! ## What a store answers -/

structure SameAnswers (env : Environment) (tree tree' : ChunkTree) : Prop where
  contains_eq : ∀ chunkId, contains tree chunkId = contains tree' chunkId
  get_eq : ∀ chunkId, get env tree chunkId = get env tree' chunkId
  listChunks_eq : ∀ after limit, listChunks tree after limit = listChunks tree' after limit

variable {env : Environment} {expectedChunkId : String} {data : List UInt8}
  {tree tree' before : ChunkTree} {chunkId : ContentId} {suffix : List Char} {fanout name : String}

theorem sameAnswers_of_entryOf (h : ∀ id, entryOf tree id = entryOf tree' id) :
    SameAnswers env tree tree' := by
  have hstored : ∀ id, storedBytes tree id = storedBytes tree' id := fun id => by
    rw [storedBytes, storedBytes, h]
  constructor
  · intro id
    simp only [contains, hstored]
  · intro id
    simp only [get, hstored]
  · intro after limit
    simp only [listChunks, discoveredChunks_congr h]

theorem sameAnswers_removeFile (h : isTemporaryChunkFilename name = true) :
    SameAnswers env (removeFile tree fanout name) tree := by
  refine sameAnswers_of_entryOf fun id => entryOf_removeFile_of_ne ?_
  rintro rfl
  rw [not_temporary_hex] at h
  cases h

/-! ## What the steps change -/

/-- Whether the inventory will see a chunk of the fan-out directory. -/
def seen (tree : ChunkTree) (fanout : String) : Bool := (filesOf tree fanout).all Prod.fst

/-- The directory of the chunk is there, and nothing has changed for any chunk. -/
structure Staged (before tree : ChunkTree) (chunkId : ContentId) (files : Files) : Prop where
  unchanged : ∀ id, entryOf tree id = entryOf before id
  directory : filesOf tree (fanoutName chunkId) = some (seen before (fanoutName chunkId), files)

theorem createDirectories_staged {made : ChunkTree}
    (h : createDirectories tree (fanoutName chunkId) = .ok made) :
    ∃ files, Staged tree made chunkId files := by
  unfold createDirectories at h
  split at h
  · rename_i hnone
    obtain rfl := Except.ok.inj h
    have hfiles : ∀ other, filesOf (tree.insert ⟨fanoutName chunkId, .directory .empty⟩) other =
        if fanoutName chunkId = other then some (true, .empty) else filesOf tree other := by
      intro other
      have hinsert := @Table.find?_insert_new _ _ FanoutEntry.name _ tree
        ⟨fanoutName chunkId, .directory .empty⟩ other hnone
      rw [filesOf, hinsert]
      split
      · rfl
      · rfl
    have hbefore : filesOf tree (fanoutName chunkId) = none := by rw [filesOf, hnone, Option.bind_none]
    refine ⟨.empty, fun id => ?_, ?_⟩
    · rw [entryOf, entryOf, hfiles]
      split
      · rename_i hsame
        rw [← hsame, hbefore]
        rfl
      · rfl
    · rw [hfiles, if_pos rfl, seen, hbefore]
      rfl
  · rename_i entry hentry
    split at h
    · rename_i hresolve
      obtain rfl := Except.ok.inj h
      obtain ⟨⟨listed, files⟩, hfiles⟩ := Option.isSome_iff_exists.mp hresolve
      have hfilesOf : filesOf tree (fanoutName chunkId) = some (listed, files) := by
        rw [filesOf, hentry, Option.bind_some, hfiles]
      refine ⟨files, fun _ => rfl, ?_⟩
      rw [hfilesOf, seen, hfilesOf]
      rfl
    · cases h

/-- A directory with the files that it had, but for those under a temporary name. -/
theorem Staged.modify {files : Files} {f : Files → Files} (h : Staged before tree chunkId files)
    (hf : ∀ (files : Files) id, (f files).find? (ContentId.hex id) = files.find? (ContentId.hex id)) :
    Staged before (modify tree (fanoutName chunkId) f) chunkId (f files) := by
  constructor
  · intro id
    rw [entryOf_modify_of_find? fun files => hf files id, h.unchanged]
  · rw [filesOf_modify, h.directory]
    rfl

theorem Staged.createTemporary {files : Files} {created : ChunkTree}
    (h : Staged before tree chunkId files)
    (hcreated : createTemporary tree (fanoutName chunkId) (temporaryName suffix) = .ok created) :
    ∃ files', Staged before created chunkId files' ∧
      files'.find? (temporaryName suffix) = some ⟨temporaryName suffix, .regular []⟩ := by
  unfold ChunkTree.createTemporary at hcreated
  split at hcreated
  · rename_i hfresh
    obtain rfl := Except.ok.inj hcreated
    rw [h.directory, Option.any_some, Option.isNone_iff_eq_none] at hfresh
    have hinsert : ∀ files : Files, ∀ id : ContentId,
        (files.insert ⟨temporaryName suffix, .regular []⟩).find? id.hex = files.find? id.hex := by
      intro files id
      cases hfind : files.find? (temporaryName suffix) with
      | some entry => rw [Table.insert_of_find?_some (by exact hfind)]
      | none => rw [Table.find?_insert_new hfind, if_neg (temporaryName_ne_hex suffix id)]
    exact ⟨_, h.modify hinsert, by rw [Table.find?_insert_new hfresh, if_pos rfl]⟩
  · cases hcreated

theorem Staged.write {files : Files} (h : Staged before tree chunkId files) (bytes : List UInt8) :
    ∃ files', Staged before
        (setBytes tree (fanoutName chunkId) (temporaryName suffix) bytes) chunkId files' ∧
      files'.find? (temporaryName suffix) = some ⟨temporaryName suffix, .regular bytes⟩ := by
  refine ⟨_, h.modify fun files id => find?_upsert_of_ne (temporaryName_ne_hex suffix id) _, ?_⟩
  rw [Table.find?_upsert, if_pos rfl]

structure Published (before tree : ChunkTree) (chunkId : ContentId) (data : List UInt8) : Prop where
  unchanged : ∀ id, id ≠ chunkId → entryOf tree id = entryOf before id
  stored : entryOf tree chunkId = some (seen before (fanoutName chunkId), .regular data)

theorem Staged.rename {files : Files} {renamed : ChunkTree} (h : Staged before tree chunkId files)
    (htemporary : files.find? (temporaryName suffix) = some ⟨temporaryName suffix, .regular data⟩)
    (hrenamed : renameFile tree (fanoutName chunkId) (temporaryName suffix) chunkId.hex =
      .ok renamed) : Published before renamed chunkId data := by
  simp only [renameFile, h.directory, htemporary, orFail_some, ok_bind, bind_eq_ok, exists_unit,
    failIf_eq_ok] at hrenamed
  obtain ⟨-, hrenamed⟩ := hrenamed
  obtain rfl := Except.ok.inj hrenamed
  constructor
  · intro id hne
    have hhex : chunkId.hex ≠ id.hex := fun heq => hne (ContentId.hex_injective heq).symm
    rw [← h.unchanged id]
    refine entryOf_modify_of_find? fun files => ?_
    rw [find?_upsert_of_ne hhex _, find?_without (temporaryName_ne_hex suffix id).symm]
  · rw [entryOf, filesOf_modify, h.directory, Option.map_some, Option.bind_some,
      Table.find?_upsert, if_pos rfl, Option.map_some]

theorem Published.entryOf_eq (h : Published before tree chunkId data)
    (h' : Published before tree' chunkId data) (id : ContentId) :
    entryOf tree id = entryOf tree' id := by
  by_cases hid : id = chunkId
  · rw [hid, h.stored, h'.stored]
  · rw [h.unchanged id hid, h'.unchanged id hid]

/-! ## The run -/

def Absent (before : ChunkTree) (expectedChunkId : String) (chunkId : ContentId) : Prop :=
  ContentId.ofHex? expectedChunkId = some chunkId ∧ storedBytes before chunkId = none

def Holds (before tree : ChunkTree) (expectedChunkId : String) (chunkId : ContentId)
    (suffix : List Char) (bytes : List UInt8) : Prop :=
  Absent before expectedChunkId chunkId ∧ ∃ files, Staged before tree chunkId files ∧
    files.find? (temporaryName suffix) = some ⟨temporaryName suffix, .regular bytes⟩

def PutInvariant (before : ChunkTree) (expectedChunkId : String) (data : List UInt8) :
    PutPhase × ChunkTree → Prop
  | (.start, tree) => tree = before
  | (.prepared chunkId, tree) =>
      Absent before expectedChunkId chunkId ∧ ∃ files, Staged before tree chunkId files
  | (.writing chunkId suffix written, tree) =>
      Holds before tree expectedChunkId chunkId suffix (data.take written)
  | (.flushed chunkId suffix, tree) => Holds before tree expectedChunkId chunkId suffix data
  | (.closed chunkId suffix, tree) => Holds before tree expectedChunkId chunkId suffix data
  | (.verified chunkId suffix, tree) => Holds before tree expectedChunkId chunkId suffix data
  | (.unwinding _ _, tree) => ∀ id, entryOf tree id = entryOf before id
  | (.threw, tree) => ∀ id, entryOf tree id = entryOf before id
  | (.returned, tree) =>
      (∃ chunkId, ContentId.ofHex? expectedChunkId = some chunkId ∧
        (storedBytes before chunkId).isSome = true ∧ tree = before) ∨
      ∃ chunkId, Absent before expectedChunkId chunkId ∧ Published before tree chunkId data

theorem Holds.unchanged {bytes : List UInt8}
    (h : Holds before tree expectedChunkId chunkId suffix bytes) (id : ContentId) :
    entryOf tree id = entryOf before id := by
  obtain ⟨-, files, hstaged, -⟩ := h
  exact hstaged.unchanged id

theorem putStep_invariant {s s' : PutPhase × ChunkTree} (hstep : PutStep env expectedChunkId data s s')
    (h : PutInvariant before expectedChunkId data s) :
    PutInvariant before expectedChunkId data s' := by
  cases hstep with
  | invalid | unreadable | createDirectoriesFails =>
      obtain rfl : _ = before := h
      exact fun _ => rfl
  | present hid hstored =>
      obtain rfl : _ = before := h
      exact .inl ⟨_, hid, hstored, rfl⟩
  | createDirectories hid hstored hmade =>
      obtain rfl : _ = before := h
      exact ⟨⟨hid, hstored⟩, createDirectories_staged hmade⟩
  | createTemporary hcreated =>
      obtain ⟨habsent, files, hstaged⟩ := h
      exact ⟨habsent, hstaged.createTemporary hcreated⟩
  | createTemporaryFails =>
      obtain ⟨-, files, hstaged⟩ := h
      exact hstaged.unchanged
  | write =>
      obtain ⟨habsent, files, hstaged, -⟩ := h
      exact ⟨habsent, hstaged.write _⟩
  | writeFails | flushFails | closeFails | mismatch | renameFails => exact h.unchanged
  | flush =>
      rw [PutInvariant, List.take_length] at h
      exact h
  | close | verify => exact h
  | rename hrenamed =>
      obtain ⟨habsent, files, hstaged, htemporary⟩ := h
      obtain rfl := ContentId.hex_of_ofHex? habsent.1
      exact .inr ⟨_, habsent, hstaged.rename htemporary hrenamed⟩
  | removeTemporary =>
      intro id
      rw [entryOf_removeFile_of_ne (temporaryName_ne_hex _ id).symm]
      exact h id
  | removeTemporaryFails => exact h

theorem putRun_invariant {s : PutPhase × ChunkTree}
    (h : ReflTransGen (PutStep env expectedChunkId data) (.start, before) s) :
    PutInvariant before expectedChunkId data s := by
  induction h with
  | refl => rfl
  | tail _ hstep ih => exact putStep_invariant hstep ih

theorem unchanged_of_invariant {phase : PutPhase} (hphase : phase ≠ .returned)
    (h : PutInvariant before expectedChunkId data (phase, tree)) (id : ContentId) :
    entryOf tree id = entryOf before id := by
  cases phase with
  | start =>
      obtain rfl : tree = before := h
      rfl
  | prepared chunkId =>
      obtain ⟨-, files, hstaged⟩ := h
      exact hstaged.unchanged id
  | writing chunkId suffix written => exact h.unchanged id
  | flushed chunkId suffix => exact h.unchanged id
  | closed chunkId suffix => exact h.unchanged id
  | verified chunkId suffix => exact h.unchanged id
  | unwinding chunkId suffix => exact h id
  | threw => exact h id
  | returned => exact absurd rfl hphase

theorem entryOf_of_returned {final : ChunkTree}
    (h : PutInvariant before expectedChunkId data (.returned, tree))
    (hfinal : PutInvariant before expectedChunkId data (.returned, final)) (id : ContentId) :
    entryOf tree id = entryOf final id := by
  rcases h with ⟨chunkId, hid, hstored, rfl⟩ | ⟨chunkId, ⟨hid, hstored⟩, hpublished⟩
  · rcases hfinal with ⟨-, -, -, rfl⟩ | ⟨chunkId', ⟨hid', hstored'⟩, -⟩
    · rfl
    · obtain rfl := Option.some.inj (hid.symm.trans hid')
      rw [hstored'] at hstored
      cases hstored
  · rcases hfinal with ⟨chunkId', hid', hstored', -⟩ | ⟨chunkId', ⟨hid', -⟩, hpublished'⟩
    · obtain rfl := Option.some.inj (hid.symm.trans hid')
      rw [hstored] at hstored'
      cases hstored'
    · obtain rfl := Option.some.inj (hid.symm.trans hid')
      exact hpublished.entryOf_eq hpublished' id

/-- Wherever a put fails or stops, the store answers as before the call or as after a put
that returns, and a temporary file that is left is visible in no answer. -/
theorem put_all_or_nothing {phase : PutPhase}
    (h : ReflTransGen (PutStep env expectedChunkId data) (.start, before) (phase, tree)) :
    (SameAnswers env tree before ∨ (phase = .returned ∧ ∀ final,
      ReflTransGen (PutStep env expectedChunkId data) (.start, before) (.returned, final) →
        SameAnswers env tree final)) ∧
    ∀ fanout name, isTemporaryChunkFilename name = true →
      SameAnswers env (removeFile tree fanout name) tree := by
  refine ⟨?_, fun _ _ => sameAnswers_removeFile⟩
  have hinvariant := putRun_invariant h
  by_cases hphase : phase = .returned
  · subst hphase
    refine .inr ⟨rfl, fun final hfinal => ?_⟩
    exact sameAnswers_of_entryOf (entryOf_of_returned hinvariant (putRun_invariant hfinal))
  · exact .inl (sameAnswers_of_entryOf (unchanged_of_invariant hphase hinvariant))

/-- A put of the byte `a` into the empty store that fails after its write. -/
theorem put_all_or_nothing_sample : ∃ tree,
    (SameAnswers Metadata.Sample.env tree .empty ∨ ((PutPhase.unwinding Metadata.Sample.chunkId []) =
      .returned ∧ ∀ final, ReflTransGen
        (PutStep Metadata.Sample.env Metadata.Sample.chunkId.hex [97]) (.start, .empty)
          (.returned, final) → SameAnswers Metadata.Sample.env tree final)) ∧
    ∀ fanout name, isTemporaryChunkFilename name = true →
      SameAnswers Metadata.Sample.env (removeFile tree fanout name) tree := by
  refine ⟨_, put_all_or_nothing (.trans (.single (.createDirectories (ContentId.ofHex?_hex _) rfl rfl))
    (.trans (.single (.createTemporary rfl))
      (.trans (.single (.write Nat.zero_lt_one (Nat.le_refl 1))) (.single .writeFails))))⟩

end ChunkTree

end AiArtifactStore.Storage
