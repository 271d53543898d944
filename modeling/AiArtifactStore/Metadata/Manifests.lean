import AiArtifactStore.Replication.NodeOrder

/-!
# Registering and reading manifests

`verify_registered_manifest` walks the entry rows in the collation of the database along
a map in byte order; `get_manifest` puts them into a map.
-/

namespace AiArtifactStore.Metadata

open AiArtifactStore.Foundation
open AiArtifactStore.Identity

section

variable {env : Environment} {db db' : Db} {manifest : Manifest}

/-- On the roles of the manifest the collation is byte order. -/
def RolesCollate (env : Environment) (manifest : Manifest) : Prop :=
  AgreesOn (fun a b => env.textLe a b = true) (fun a b => a < b)
    { role | role ∈ manifest.entries.entries.map Prod.fst }

/-- The manifest is registered, is read back, and registering it again changes nothing. -/
def RegistersOnce (env : Environment) (db : Db) (manifest : Manifest) : Prop :=
  ∃ db', registerManifest env db manifest = .ok db' ∧
    getManifest env db' (manifest.manifestId env) = .ok (some manifest) ∧
    registerManifest env db' manifest = .ok db'

def StoredManifests (env : Environment) (db : Db) : Prop :=
  ∀ row ∈ db.manifests, ∃ manifest, row = manifestRow env manifest

theorem StoredManifests.insert {manifests : Table ManifestRow.manifestId}
    (h : ∀ row ∈ manifests, ∃ manifest, row = manifestRow env manifest) :
    ∀ row ∈ manifests.insert (manifestRow env manifest), ∃ manifest,
      row = manifestRow env manifest := by
  intro row hrow
  rcases Table.mem_insert.mp hrow with hrow | ⟨rfl, -⟩
  · exact h row hrow
  · exact ⟨_, rfl⟩

theorem storedManifests_of_reachable (h : Reachable env db) : StoredManifests env db := by
  refine reachable_invariant ?_ ?_ h
  · intro row hrow
    cases hrow
  · intro db op db' heffect hstored
    cases heffect with
    | manifestRegistered => exact StoredManifests.insert hstored
    | @gcCompleted run completed stats hcompletes =>
        obtain ⟨_, _, _, _, _, heq⟩ := completedGcDb_frame db run completed
        rw [heq]
        exact hstored
    | _ => exact hstored

/-! ## The order of the rows -/

theorem verifyManifestEntries_iff {stored expected : List (String × ContentId)} :
    verifyManifestEntries stored expected = .ok () ↔ stored = expected := by
  induction stored generalizing expected with
  | nil => cases expected <;> simp [verifyManifestEntries]
  | cons entry rest ih =>
      cases expected with
      | nil => simp [verifyManifestEntries]
      | cons head more =>
          simp only [verifyManifestEntries, bind_eq_ok, exists_unit, failIf_eq_ok,
            Decidable.not_not, ih, List.cons.injEq]

theorem orderByText_entries_iff (hlinear : LinearText env) :
    env.orderByText Prod.fst manifest.entries.entries = manifest.entries.entries ↔
      RolesCollate env manifest := by
  have hroles := manifest.entries.sorted
  have hnodup : (manifest.entries.entries.map Prod.fst).Nodup :=
    hroles.imp fun hlt => String.ne_of_lt hlt
  rw [RolesCollate, ← isChain_insertionSort_iff hlinear strictComparison_string hnodup,
    ← orderByText_map]
  constructor
  · intro hsame
    rw [hsame]
    exact hroles.isChain
  · intro hchain
    have : IsTrans String fun a b => a < b := ⟨strictComparison_string.trans⟩
    exact eq_of_perm_of_keys strictComparison_string (List.isChain_iff_pairwise.mp hchain) hroles
      (List.perm_insertionSort _ _)

/-! ## The stored row -/

theorem verifyRegisteredManifest_iff (hlinear : LinearText env)
    (hrow : db.manifests.find? (manifest.manifestId env) = some (manifestRow env manifest)) :
    verifyRegisteredManifest env db manifest = .ok () ↔
      manifest.entries.entries.length ≤ postgresBigintMax ∧ RolesCollate env manifest := by
  rw [← orderByText_entries_iff hlinear, ← verifyManifestEntries_iff]
  simp only [verifyRegisteredManifest, hrow, orFail, ok_bind, bind_eq_ok, exists_unit,
    toPostgresBigint_eq_ok, failIf_eq_ok, manifestRow]
  constructor
  · rintro ⟨count, ⟨hcount, rfl⟩, -, hverify⟩
    exact ⟨hcount, hverify⟩
  · rintro ⟨hcount, hverify⟩
    exact ⟨_, ⟨hcount, rfl⟩, by simp, hverify⟩

theorem manifestRow_of_verify (hstored : StoredManifests env db)
    (h : verifyRegisteredManifest env db manifest = .ok ()) :
    db.manifests.find? (manifest.manifestId env) = some (manifestRow env manifest) := by
  simp only [verifyRegisteredManifest, bind_eq_ok, exists_unit, orFail_eq_ok] at h
  obtain ⟨row, hfind, count, -, -, hverify⟩ := h
  obtain ⟨other, rfl⟩ := hstored row (Table.mem_of_find? hfind)
  have hperm : other.entries.entries.Perm manifest.entries.entries := by
    rw [← verifyManifestEntries_iff.mp hverify]
    exact (List.perm_insertionSort _ _).symm
  have hentries := eq_of_perm_of_keys strictComparison_string other.entries.sorted
    manifest.entries.sorted hperm
  obtain ⟨map, _⟩ := other
  obtain ⟨map', _⟩ := manifest
  obtain rfl : map = map' := OrderedMap.ext_entries hentries
  exact hfind

theorem getManifest_of_row
    (hrow : db.manifests.find? (manifest.manifestId env) = some (manifestRow env manifest)) :
    getManifest env db (manifest.manifestId env) = .ok (some manifest) := by
  have hnodup : ((env.orderByText Prod.fst manifest.entries.entries).map Prod.fst).Nodup := by
    have hperm : (env.orderByText Prod.fst manifest.entries.entries).Perm
        manifest.entries.entries := List.perm_insertionSort _ _
    exact (hperm.map Prod.fst).nodup_iff.mpr (manifest.entries.sorted.imp String.ne_of_lt)
  have hmap : OrderedMap.ofList strictTotal_string
      (env.orderByText Prod.fst manifest.entries.entries) = manifest.entries := by
    have hentries := eq_of_perm_of_keys strictComparison_string
      (OrderedMap.ofList strictTotal_string _).sorted manifest.entries.sorted
      ((OrderedMap.perm_ofList strictTotal_string hnodup).trans (List.perm_insertionSort _ _))
    exact OrderedMap.ext_entries hentries
  have hmade : makeManifest manifest.entries = .ok manifest := by
    rw [makeManifest, dif_pos manifest.rolesNonempty]
  simp only [getManifest, hrow, manifestRow, hmap, hmade, ok_bind]
  simp [failIf, Manifest.manifestId]

/-! ## Registering -/

theorem registerManifest_eq_ok :
    registerManifest env db manifest = .ok db' ↔
      (∀ entry ∈ manifest.entries.entries, ¬db.Retired entry.2) ∧
      manifest.entries.entries.length ≤ postgresBigintMax ∧
      insertManifest env db manifest manifest.entries.entries.length = .ok db' ∧
      verifyRegisteredManifest env db' manifest = .ok () := by
  simp only [registerManifest, bind_eq_ok, exists_unit, failIf_eq_ok, toPostgresBigint_eq_ok,
    not_exists, not_and, Db.isVersionRetired_iff]
  constructor
  · rintro ⟨hretired, count, ⟨hcount, rfl⟩, inserted, hinsert, hverify, hdone⟩
    obtain rfl := Except.ok.inj hdone
    exact ⟨hretired, hcount, hinsert, hverify⟩
  · rintro ⟨hretired, hcount, hinsert, hverify⟩
    exact ⟨hretired, _, ⟨hcount, rfl⟩, _, hinsert, hverify, rfl⟩

theorem registerManifest_keeps (hstored : StoredManifests env db)
    (h : registerManifest env db manifest = .ok db') :
    StoredManifests env db' ∧ ∀ row ∈ db.manifests, row ∈ db'.manifests := by
  rcases registerManifest_ok h with rfl | ⟨-, rfl⟩
  · exact ⟨hstored, fun _ => id⟩
  · exact ⟨StoredManifests.insert hstored, fun _ => Table.mem_insert_of_mem⟩

theorem insertManifest_row
    (hentries : ∀ entry ∈ manifest.entries.entries, db.artifactVersions.find? entry.2 ≠ none)
    (hsame : ∀ row ∈ db.manifests, row.manifestId = manifest.manifestId env →
      row = manifestRow env manifest) :
    ∃ db', insertManifest env db manifest manifest.entries.entries.length = .ok db' ∧
      db'.retirements = db.retirements ∧
      db'.manifests.find? (manifest.manifestId env) = some (manifestRow env manifest) := by
  unfold insertManifest
  cases hfind : db.manifests.find? (manifest.manifestId env) with
  | some row =>
      obtain rfl := hsame row (Table.mem_of_find? hfind) (Table.key_of_find? hfind)
      exact ⟨db, rfl, rfl, hfind⟩
  | none =>
      have hversions : ¬∃ entry ∈ manifest.entries.entries,
          db.artifactVersions.find? entry.2 = none := by
        rintro ⟨entry, hentry, hmissing⟩
        exact hentries entry hentry hmissing
      refine ⟨{ db with manifests := db.manifests.insert (manifestRow env manifest) }, ?_, rfl, ?_⟩
      · simp only [failIf_of_false hversions, ok_bind]
        rfl
      · have hnew := @Table.find?_insert_new _ _ _ _ db.manifests (manifestRow env manifest)
          (manifest.manifestId env) hfind
        rw [hnew]
        exact if_pos rfl

/-- Registering succeeds, is read back and is idempotent exactly if the collation is byte
order on the roles, where no other manifest has taken the id. -/
theorem registersOnce_iff (hlinear : LinearText env) (h : Reachable env db)
    (hentries : ∀ entry ∈ manifest.entries.entries,
      db.artifactVersions.find? entry.2 ≠ none ∧ ¬db.Retired entry.2) :
    RegistersOnce env db manifest ↔
      RolesCollate env manifest ∧ manifest.entries.entries.length ≤ postgresBigintMax ∧
        ∀ row ∈ db.manifests, row.manifestId = manifest.manifestId env →
          row = manifestRow env manifest := by
  constructor
  · rintro ⟨db', hregister, -, -⟩
    obtain ⟨-, -, -, hverify⟩ := registerManifest_eq_ok.mp hregister
    obtain ⟨hstored, hkept⟩ := registerManifest_keeps (storedManifests_of_reachable h) hregister
    have hrow := manifestRow_of_verify hstored hverify
    obtain ⟨hcount, hcollate⟩ := (verifyRegisteredManifest_iff hlinear hrow).mp hverify
    refine ⟨hcollate, hcount, fun row hmem hid => ?_⟩
    exact Table.key_inj (hkept row hmem) (Table.mem_of_find? hrow)
      (hid.trans (Table.key_of_find? hrow).symm)
  · rintro ⟨hcollate, hcount, hsame⟩
    obtain ⟨db', hinsert, hretirements, hrow⟩ :=
      insertManifest_row (fun entry hentry => (hentries entry hentry).1) hsame
    have hverify := (verifyRegisteredManifest_iff hlinear hrow).mpr ⟨hcount, hcollate⟩
    refine ⟨db', ?_, getManifest_of_row hrow, ?_⟩
    · exact registerManifest_eq_ok.mpr
        ⟨fun entry hentry => (hentries entry hentry).2, hcount, hinsert, hverify⟩
    · have hagain : insertManifest env db' manifest manifest.entries.entries.length = .ok db' := by
        rw [insertManifest, hrow]
      refine registerManifest_eq_ok.mpr ⟨fun entry hentry => ?_, hcount, hagain, hverify⟩
      unfold Db.Retired
      rw [hretirements]
      exact (hentries entry hentry).2

end

/-! ## Roles of mixed case -/

namespace Sample

def mixedManifest : Manifest :=
  ⟨⟨[("B", versionId), ("a", versionId)], by decide⟩, by simp⟩

def mixedEnv : Environment :=
  { Replication.Sample.foldedEnv with
    sha256 := fun bytes =>
      if bytes = mixedManifest.canonicalBytes then
        0x8c69fe6723957b580f2c852db5332f1e27e2bcf92518430ba3436bd8a6c63be6#256
      else sha256 bytes }

def mixedDb : Db := afterOps mixedEnv Db.initial pushOps

theorem mixedManifest_entries : ∀ entry ∈ mixedManifest.entries.entries,
    mixedDb.artifactVersions.find? entry.2 ≠ none ∧ ¬mixedDb.Retired entry.2 := by
  have hversion : mixedDb.artifactVersions.find? versionId ≠ none ∧
      mixedDb.isVersionRetired versionId = false := by
    decide +kernel
  have hall : ∀ entry ∈ mixedManifest.entries.entries, entry.2 = versionId := by
    simp [mixedManifest]
  intro entry hentry
  rw [hall entry hentry]
  exact ⟨hversion.1, Db.isVersionRetired_eq_false.mp hversion.2⟩

end Sample

/-- With roles `B` and `a` under a collation that folds case, nothing is registered. -/
theorem registerManifest_mixedRoles :
    LinearText Sample.mixedEnv ∧ Reachable Sample.mixedEnv Sample.mixedDb ∧
      (∀ entry ∈ Sample.mixedManifest.entries.entries,
        Sample.mixedDb.artifactVersions.find? entry.2 ≠ none ∧
          ¬Sample.mixedDb.Retired entry.2) ∧
      (serve Sample.mixedEnv Sample.mixedDb (.registerManifest Sample.mixedManifest)).1 =
        .error (.runtimeError "stored manifest does not match descriptor") ∧
      ¬RegistersOnce Sample.mixedEnv Sample.mixedDb Sample.mixedManifest := by
  have hrefused :
      (serve Sample.mixedEnv Sample.mixedDb (.registerManifest Sample.mixedManifest)).1 =
        .error (.runtimeError "stored manifest does not match descriptor") := by
    decide +kernel
  refine ⟨Replication.Sample.linearText_foldedEnv, reachable_afterOps _ _,
    Sample.mixedManifest_entries, hrefused, ?_⟩
  rintro ⟨db', hregister, -⟩
  rw [serve, transact, hregister] at hrefused
  cases hrefused

theorem registersOnce_iff_mixedRoles :
    RegistersOnce Sample.mixedEnv Sample.mixedDb Sample.mixedManifest ↔
      RolesCollate Sample.mixedEnv Sample.mixedManifest ∧
        Sample.mixedManifest.entries.entries.length ≤ postgresBigintMax ∧
        ∀ row ∈ Sample.mixedDb.manifests,
          row.manifestId = Sample.mixedManifest.manifestId Sample.mixedEnv →
            row = manifestRow Sample.mixedEnv Sample.mixedManifest :=
  registersOnce_iff Replication.Sample.linearText_foldedEnv (reachable_afterOps _ _)
    Sample.mixedManifest_entries

end AiArtifactStore.Metadata
