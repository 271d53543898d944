import Mathlib.Logic.Function.Basic

/-!
# Files

A file system as directory entries that name inodes, with the calls that open,
write, cut, link, rename and remove a file.  Several paths may name one inode.  A
call that fails changes nothing.
-/

namespace AiArtifactStore.Foundation

inductive Node where
  | file (bytes : List UInt8)
  | directory
  | special
  deriving DecidableEq, Repr

/-! ## Bytes of a file -/

/-- `ftruncate` -/
def resize (length : Nat) (bytes : List UInt8) : List UInt8 :=
  bytes.take length ++ List.replicate (length - bytes.length) 0

/-- `pwrite` -/
def writeAt (offset : Nat) (data bytes : List UInt8) : List UInt8 :=
  resize offset bytes ++ data ++ bytes.drop (offset + data.length)

def readAt (offset size : Nat) (bytes : List UInt8) : List UInt8 := (bytes.drop offset).take size

theorem resize_of_le {length : Nat} {bytes : List UInt8} (h : length ≤ bytes.length) :
    resize length bytes = bytes.take length := by
  rw [resize, Nat.sub_eq_zero_of_le h, List.replicate_zero, List.append_nil]

theorem writeAt_end {offset : Nat} {data bytes : List UInt8} (h : offset = bytes.length) :
    writeAt offset data bytes = bytes ++ data := by
  rw [writeAt, resize_of_le (Nat.le_of_eq h), h, List.take_length,
    List.drop_eq_nil_of_le (Nat.le_add_right _ _),
    List.append_nil]

/-! ## Entries and inodes -/

structure FileSystem (Path : Type) where
  entries : Path → Option Nat
  nodes : Nat → Node
  next : Nat
  fresh : ∀ path inode, entries path = some inode → inode < next

namespace FileSystem

variable {Path : Type}

def lookup (fs : FileSystem Path) (path : Path) : Option Node := (fs.entries path).map fs.nodes

theorem lookup_eq_some {fs : FileSystem Path} {path : Path} {inode : Nat}
    (h : fs.entries path = some inode) : fs.lookup path = some (fs.nodes inode) := by
  rw [lookup, h, Option.map_some]

def contents (fs : FileSystem Path) (inode : Nat) : List UInt8 :=
  match fs.nodes inode with
  | .file bytes => bytes
  | _ => []

def modify (fs : FileSystem Path) (inode : Nat) (f : List UInt8 → List UInt8) : FileSystem Path :=
  { fs with
    nodes := Function.update fs.nodes inode
      (match fs.nodes inode with
        | .file bytes => .file (f bytes)
        | node => node) }

def pwrite (fs : FileSystem Path) (inode offset : Nat) (data : List UInt8) : FileSystem Path :=
  fs.modify inode (writeAt offset data)

def ftruncate (fs : FileSystem Path) (inode length : Nat) : FileSystem Path :=
  fs.modify inode (resize length)

theorem nodes_modify {fs : FileSystem Path} {inode : Nat} {bytes : List UInt8}
    (h : fs.nodes inode = .file bytes) (f : List UInt8 → List UInt8) :
    (fs.modify inode f).nodes inode = .file (f bytes) := by
  simp only [modify, Function.update_self, h]

theorem lookup_modify_of_ne {fs : FileSystem Path} {inode : Nat} {path : Path}
    (h : fs.entries path ≠ some inode) (f : List UInt8 → List UInt8) :
    (fs.modify inode f).lookup path = fs.lookup path := by
  unfold lookup
  cases hentry : fs.entries path with
  | none => simp only [modify, hentry, Option.map_none]
  | some other =>
      have hne : other ≠ inode := fun heq => h (hentry.trans (congrArg some heq))
      simp only [modify, hentry, Option.map_some, Function.update_of_ne hne]

theorem lookup_modify_directory (fs : FileSystem Path) (inode : Nat)
    (f : List UInt8 → List UInt8) (path : Path) :
    (fs.modify inode f).lookup path = some .directory ↔ fs.lookup path = some .directory := by
  simp only [lookup, Option.map_eq_some_iff]
  refine exists_congr fun named => and_congr Iff.rfl ?_
  by_cases hnamed : named = inode
  · subst hnamed
    simp only [modify, Function.update_self]
    cases fs.nodes named <;> simp
  · simp only [modify, Function.update_of_ne hnamed]

/-! ## Creating -/

variable [DecidableEq Path]

/-- A new file under a path, in the place of what the path named. -/
def create (fs : FileSystem Path) (path : Path) (bytes : List UInt8) : FileSystem Path where
  entries := Function.update fs.entries path (some fs.next)
  nodes := Function.update fs.nodes fs.next (.file bytes)
  next := fs.next + 1
  fresh := by
    intro other inode h
    by_cases hpath : other = path
    · subst hpath
      rw [Function.update_self] at h
      obtain rfl := Option.some.inj h
      exact Nat.lt_succ_self _
    · rw [Function.update_of_ne hpath] at h
      exact Nat.lt_succ_of_lt (fs.fresh other inode h)

def openFile (fs : FileSystem Path) (path : Path) : Option (Nat × FileSystem Path) :=
  match fs.entries path with
  | none => some (fs.next, fs.create path [])
  | some inode =>
      match fs.nodes inode with
      | .file _ => some (inode, fs)
      | _ => none

variable {fs fs' : FileSystem Path} {path other : Path}

theorem entries_create (bytes : List UInt8) :
    (fs.create path bytes).entries path = some fs.next :=
  Function.update_self ..

theorem entries_create_of_ne (h : other ≠ path) (bytes : List UInt8) :
    (fs.create path bytes).entries other = fs.entries other :=
  Function.update_of_ne h ..

theorem nodes_create (bytes : List UInt8) :
    (fs.create path bytes).nodes fs.next = .file bytes :=
  Function.update_self ..

theorem nodes_create_of_lt {inode : Nat} (h : inode < fs.next) (bytes : List UInt8) :
    (fs.create path bytes).nodes inode = fs.nodes inode :=
  Function.update_of_ne (Nat.ne_of_lt h) ..

theorem lookup_create (bytes : List UInt8) :
    (fs.create path bytes).lookup path = some (.file bytes) := by
  rw [lookup_eq_some (entries_create bytes), nodes_create]

theorem lookup_create_of_ne (h : other ≠ path) (bytes : List UInt8) :
    (fs.create path bytes).lookup other = fs.lookup other := by
  unfold lookup
  rw [entries_create_of_ne h]
  cases hentry : fs.entries other with
  | none => rfl
  | some inode => simp only [Option.map_some, nodes_create_of_lt (fs.fresh other inode hentry)]

/-- The descriptor is open on a regular file that the path names.  Another path names it only
if both did before. -/
theorem openFile_spec {inode : Nat} (h : fs.openFile path = some (inode, fs')) :
    fs'.entries path = some inode ∧ (∃ bytes, fs'.nodes inode = .file bytes) ∧
      ∀ other, other ≠ path → fs'.lookup other = fs.lookup other ∧
        (fs'.entries other = some inode →
          fs.entries other = some inode ∧ fs.entries path = some inode) := by
  unfold openFile at h
  split at h
  · obtain ⟨rfl, rfl⟩ := Prod.mk.inj (Option.some.inj h)
    refine ⟨entries_create [], ⟨[], nodes_create []⟩, fun other hne => ?_⟩
    refine ⟨lookup_create_of_ne hne [], fun hentry => ?_⟩
    rw [entries_create_of_ne hne] at hentry
    exact absurd (fs.fresh other _ hentry) (Nat.lt_irrefl _)
  · rename_i named hpath
    split at h
    · rename_i bytes hfile
      obtain ⟨rfl, rfl⟩ := Prod.mk.inj (Option.some.inj h)
      exact ⟨hpath, ⟨bytes, hfile⟩, fun other _ => ⟨rfl, fun hentry => ⟨hentry, hpath⟩⟩⟩
    · cases h

/-! ## Names -/

def link (fs : FileSystem Path) (path newPath : Path) : Option (FileSystem Path) :=
  match h : fs.entries path with
  | none => none
  | some inode =>
      if fs.entries newPath = none then
        some { fs with
          entries := Function.update fs.entries newPath (some inode)
          fresh := by
            intro other named hother
            by_cases hpath : other = newPath
            · subst hpath
              rw [Function.update_self] at hother
              exact Option.some.inj hother ▸ fs.fresh path inode h
            · rw [Function.update_of_ne hpath] at hother
              exact fs.fresh other named hother }
      else none

def remove (fs : FileSystem Path) (path : Path) : FileSystem Path where
  entries := Function.update fs.entries path none
  nodes := fs.nodes
  next := fs.next
  fresh := by
    intro other inode h
    by_cases hpath : other = path
    · subst hpath
      rw [Function.update_self] at h
      cases h
    · rw [Function.update_of_ne hpath] at h
      exact fs.fresh other inode h

def unlink (fs : FileSystem Path) (path : Path) : Option (FileSystem Path) :=
  if fs.entries path = none then none else some (fs.remove path)

def rename (fs : FileSystem Path) (path newPath : Path) : Option (FileSystem Path) :=
  if fs.entries path = fs.entries newPath then
    if fs.entries path = none then none else some fs
  else if fs.lookup newPath = some .directory then none
  else ((fs.remove newPath).link path newPath).map fun linked => linked.remove path

theorem lookup_remove : (fs.remove path).lookup path = none := by
  simp only [lookup, remove, Function.update_self, Option.map_none]

theorem lookup_remove_of_ne (h : other ≠ path) :
    (fs.remove path).lookup other = fs.lookup other := by
  simp only [lookup, remove, Function.update_of_ne h]

theorem link_spec {newPath : Path} (h : fs.link path newPath = some fs') :
    fs.entries newPath = none ∧ fs'.nodes = fs.nodes ∧ fs'.lookup newPath = fs.lookup path ∧
      fs'.entries newPath = fs.entries path := by
  unfold link at h
  split at h
  · cases h
  · rename_i inode hpath
    split at h
    · rename_i hnew
      obtain rfl := Option.some.inj h
      refine ⟨hnew, rfl, ?_, ?_⟩
      · simp only [lookup, Function.update_self, hpath]
      · simp only [Function.update_self, hpath]
    · cases h

theorem lookup_rename {newPath : Path} (hne : newPath ≠ path)
    (h : fs.rename path newPath = some fs') : fs'.lookup newPath = fs.lookup path := by
  unfold rename at h
  split at h
  · rename_i hsame
    split at h
    · cases h
    · obtain rfl := Option.some.inj h
      rw [lookup, lookup, hsame]
  · split at h
    · cases h
    · obtain ⟨linked, hlink, rfl⟩ := Option.map_eq_some_iff.mp h
      rw [lookup_remove_of_ne hne, (link_spec hlink).2.2.1, lookup_remove_of_ne hne.symm]

end FileSystem

end AiArtifactStore.Foundation
