import AiArtifactStore.Storage.Puts

/-!
# Walks over an inventory

A walk follows `next_after` from page to page, while chunks that it has listed are removed.
It lists every chunk of the start once.
-/

namespace AiArtifactStore.Storage

open AiArtifactStore.Foundation
open AiArtifactStore.Identity
open AiArtifactStore.Metadata
open Relation
open LocalChunkStore (chunkKey cursorKey remainingChunks_eq)

namespace ChunkTree

structure InventoryWalk where
  tree : ChunkTree
  after : Option ContentId
  listed : List StoredChunkInfo
  pages : Nat
  done : Bool

/-- Request a page, or remove a chunk that has been listed. -/
inductive WalkStep (limit : Nat) : InventoryWalk → InventoryWalk → Prop
  | page {w page} (hopen : w.done = false)
      (hpage : listChunks w.tree (w.after.map ContentId.hex) limit = .ok page) :
      WalkStep limit w
        { w with
          after := page.nextAfter
          listed := w.listed ++ page.chunks
          pages := w.pages + 1
          done := page.nextAfter.isNone }
  | remove {w info deleted left} (hlisted : info ∈ w.listed)
      (hremove : remove w.tree info.chunkId.hex = .ok (deleted, left)) :
      WalkStep limit w { w with tree := left }

def startWalk (tree : ChunkTree) : InventoryWalk := ⟨tree, none, [], 0, false⟩

structure InventoryOf (tree : ChunkTree) (listed : List StoredChunkInfo) : Prop where
  increasing : listed.Pairwise fun a b => a.chunkId < b.chunkId
  mem_iff : ∀ info, info ∈ listed ↔ ∃ bytes,
    entryOf tree info.chunkId = some (true, .regular bytes) ∧ info.sizeBytes = bytes.length
  notTemporary : ∀ info ∈ listed, isTemporaryChunkFilename info.chunkId.hex = false

variable {tree left : ChunkTree} {limit : Nat} {w w' : InventoryWalk} {chunkId : ContentId}

theorem mem_discoveredChunks {info : StoredChunkInfo} :
    info ∈ discoveredChunks tree ↔ ∃ bytes,
      entryOf tree info.chunkId = some (true, .regular bytes) ∧ info.sizeBytes = bytes.length := by
  simp only [discoveredChunks_eq, LocalChunkStore.mem_discoveredChunks, regular?_listedStore]

theorem inventoryOf_discoveredChunks (tree : ChunkTree) :
    InventoryOf tree (discoveredChunks tree) := by
  constructor
  · rw [discoveredChunks_eq]
    exact LocalChunkStore.discoveredChunks_sorted (listedStore tree)
  · exact fun info => mem_discoveredChunks
  · exact fun info _ => not_temporary_hex info.chunkId

theorem entryOf_remove {deleted : Bool} (h : remove tree chunkId.hex = .ok (deleted, left)) :
    left = tree ∨ (entryOf left chunkId = none ∧
      ∀ other, other ≠ chunkId → entryOf left other = entryOf tree other) := by
  rw [remove, validateChunkId_of_ofHex? (ContentId.ofHex?_hex chunkId), ok_bind] at h
  split at h
  · exact .inl (Prod.mk.inj (Except.ok.inj h)).2.symm
  · exact .inl (Prod.mk.inj (Except.ok.inj h)).2.symm
  · cases h
  · cases h
  · obtain ⟨-, rfl⟩ := Prod.mk.inj (Except.ok.inj h)
    refine .inr ⟨entryOf_removeFile, fun other hne => entryOf_removeFile_of_ne fun hhex => ?_⟩
    exact hne (ContentId.hex_injective hhex)

/-! ## A walk is a walk through a sorted list -/

def InventoryWalk.toWalk (w : InventoryWalk) : Paging.Walk StoredChunkInfo Nat :=
  ⟨discoveredChunks w.tree, cursorKey w.after, w.listed, w.pages, w.done⟩

theorem sorted_discoveredChunks (tree : ChunkTree) :
    Paging.Sorted chunkKey (discoveredChunks tree) := (inventoryOf_discoveredChunks tree).increasing

theorem nextAfter_eq (limit : Nat) (after : Option ContentId) (chunks : List StoredChunkInfo) :
    cursorKey (if limit < (LocalChunkStore.remainingChunks after chunks).length then
        ((LocalChunkStore.remainingChunks after chunks).take limit).getLast?.map
          StoredChunkInfo.chunkId
      else none) =
      Paging.nextCursor chunkKey limit (cursorKey after) chunks := by
  rw [Paging.nextCursor, ← remainingChunks_eq]
  split
  · rw [cursorKey, Option.map_map]
    rfl
  · rfl

/-- A page request succeeds, with the next chunks in order. -/
theorem listChunks_spec (tree : ChunkTree) (after : Option ContentId)
    (hlimit : 1 ≤ limit ∧ limit ≤ 256) :
    ∃ page, listChunks tree (after.map ContentId.hex) limit = .ok page ∧
      page.chunks =
        (Paging.beyond chunkKey (cursorKey after) (discoveredChunks tree)).take limit ∧
      cursorKey page.nextAfter =
        Paging.nextCursor chunkKey limit (cursorKey after) (discoveredChunks tree) := by
  have hvalid : ¬(limit < 1 ∨ limit > 256) := by omega
  rw [listChunks_eq, LocalChunkStore.listChunks, failIf_of_false hvalid, ok_bind,
    ← discoveredChunks_eq]
  refine ⟨_, rfl, ?_, nextAfter_eq limit after _⟩
  rw [remainingChunks_eq]

theorem isNone_cursorKey (after : Option ContentId) : (cursorKey after).isNone = after.isNone := by
  cases after <;> rfl

theorem walkStep_toWalk (hlimit : 1 ≤ limit ∧ limit ≤ 256) (h : WalkStep limit w w') :
    Paging.Step chunkKey limit w.toWalk w'.toWalk := by
  cases h with
  | page hopen hpage =>
      obtain ⟨page, hok, hchunks, hnext⟩ := listChunks_spec w.tree w.after hlimit
      obtain rfl := Except.ok.inj (hok.symm.trans hpage)
      have hstep := @Paging.Step.page _ _ _ chunkKey limit w.toWalk hopen
      simp only [InventoryWalk.toWalk] at hstep
      rw [← hnext, ← hchunks, isNone_cursorKey] at hstep
      exact hstep
  | remove hlisted hremove =>
      rename_i info deleted left
      have hmem : ∀ x, x ∈ discoveredChunks left → x ∈ discoveredChunks w.tree := by
        intro x hx
        rcases entryOf_remove hremove with rfl | ⟨hnone, hsame⟩
        · exact hx
        · rw [mem_discoveredChunks] at hx ⊢
          obtain ⟨bytes, hentry, hsize⟩ := hx
          have hne : x.chunkId ≠ info.chunkId := by
            intro heq
            rw [heq, hnone] at hentry
            cases hentry
          exact ⟨bytes, (hsame _ hne).symm.trans hentry, hsize⟩
      refine .lose (sorted_discoveredChunks left) hmem fun x hx => ?_
      rcases entryOf_remove hremove with rfl | ⟨-, hsame⟩
      · exact .inl hx
      · by_cases heq : x.chunkId = info.chunkId
        · exact .inr ⟨info, hlisted, by rw [chunkKey, chunkKey, heq]⟩
        · refine .inl ?_
          rw [InventoryWalk.toWalk] at hx
          rw [mem_discoveredChunks] at hx ⊢
          rwa [hsame _ heq]

theorem walkRun_toWalk (hlimit : 1 ≤ limit ∧ limit ≤ 256)
    (h : ReflTransGen (WalkStep limit) (startWalk tree) w) :
    ReflTransGen (Paging.Step chunkKey limit) (Paging.start (discoveredChunks tree)) w.toWalk := by
  induction h with
  | refl => exact .refl
  | tail _ hstep ih => exact ih.tail (walkStep_toWalk hlimit hstep)

/-- Whatever is removed behind a walk, it ends after finitely many pages and lists every chunk
of the start once, in order, and nothing else. -/
theorem inventory_walk_complete (hlimit : 1 ≤ limit ∧ limit ≤ 256)
    (h : ReflTransGen (WalkStep limit) (startWalk tree) w) :
    w.pages ≤ (discoveredChunks tree).length + 1 ∧
    (w.done = false → ∃ page, listChunks w.tree (w.after.map ContentId.hex) limit = .ok page) ∧
    (w.done = true → InventoryOf tree w.listed) := by
  have hinvariant := Paging.invariant_run hlimit.1 (sorted_discoveredChunks tree)
    (walkRun_toWalk hlimit h)
  refine ⟨hinvariant.pages_done, fun _ => ?_, fun hdone => ?_⟩
  · obtain ⟨page, hpage, -⟩ := listChunks_spec w.tree w.after hlimit
    exact ⟨page, hpage⟩
  · have hlisted : w.listed = discoveredChunks tree := hinvariant.finished hdone
    rw [hlisted]
    exact inventoryOf_discoveredChunks tree

/-! ## Two pages -/

namespace Sample

def fileOf (chunkId : ContentId) (bytes : List UInt8) : FanoutEntry :=
  ⟨fanoutName chunkId, .directory ⟨[⟨chunkId.hex, .regular bytes⟩], List.nodup_singleton _⟩⟩

def twoChunks : ChunkTree :=
  ⟨[fileOf Metadata.Sample.chunkId [97], fileOf Metadata.Sample.orphanId [98]], by decide +kernel⟩

/-- What is left once the chunk of the first page has been removed. -/
def oneLeft : ChunkTree :=
  removeFile twoChunks (fanoutName Metadata.Sample.orphanId) Metadata.Sample.orphanId.hex

def firstPage : StoredChunkPage :=
  ⟨[⟨Metadata.Sample.orphanId, 1⟩], some Metadata.Sample.orphanId⟩

def secondPage : StoredChunkPage := ⟨[⟨Metadata.Sample.chunkId, 1⟩], none⟩

theorem remove_first :
    remove twoChunks Metadata.Sample.orphanId.hex = .ok (true, oneLeft) := by
  have hfile : (entryOf twoChunks Metadata.Sample.orphanId).map Prod.snd = some (.regular [98]) := by
    decide +kernel
  rw [remove, validateChunkId_of_ofHex? (ContentId.ofHex?_hex _), ok_bind, hfile]
  rfl

theorem twoPages : ReflTransGen (WalkStep 1) (startWalk twoChunks)
    ⟨oneLeft, secondPage.nextAfter, firstPage.chunks ++ secondPage.chunks, 2,
      secondPage.nextAfter.isNone⟩ := by
  have hfirst : listChunks twoChunks none 1 = .ok firstPage := eq_ok_of_toOption (by decide +kernel)
  have hsecond : listChunks oneLeft (some Metadata.Sample.orphanId.hex) 1 = .ok secondPage :=
    eq_ok_of_toOption (by decide +kernel)
  have hlisted : (⟨Metadata.Sample.orphanId, 1⟩ : StoredChunkInfo) ∈ firstPage.chunks :=
    List.mem_singleton_self _
  have hpaged : WalkStep 1 (startWalk twoChunks)
      ⟨twoChunks, firstPage.nextAfter, firstPage.chunks, 1, false⟩ := .page rfl hfirst
  have hremoved : WalkStep 1 ⟨twoChunks, firstPage.nextAfter, firstPage.chunks, 1, false⟩
      ⟨oneLeft, firstPage.nextAfter, firstPage.chunks, 1, false⟩ := .remove hlisted remove_first
  have hended : WalkStep 1 ⟨oneLeft, firstPage.nextAfter, firstPage.chunks, 1, false⟩
      ⟨oneLeft, secondPage.nextAfter, firstPage.chunks ++ secondPage.chunks, 2,
        secondPage.nextAfter.isNone⟩ := .page rfl hsecond
  exact .tail (.tail (.single hpaged) hremoved) hended

end Sample

/-- The walk that loses the chunk of its first page before its second one still lists both. -/
theorem inventory_walk_complete_sample : ∃ w : InventoryWalk,
    ReflTransGen (WalkStep 1) (startWalk Sample.twoChunks) w ∧ w.done = true ∧
    w.listed.map StoredChunkInfo.chunkId = [Metadata.Sample.orphanId, Metadata.Sample.chunkId] ∧
    entryOf w.tree Metadata.Sample.orphanId = none ∧
    w.pages ≤ (discoveredChunks Sample.twoChunks).length + 1 ∧
    InventoryOf Sample.twoChunks w.listed := by
  obtain ⟨hpages, -, hinventory⟩ := inventory_walk_complete (by decide) Sample.twoPages
  exact ⟨_, Sample.twoPages, rfl, rfl, entryOf_removeFile, hpages, hinventory rfl⟩

end ChunkTree

end AiArtifactStore.Storage
