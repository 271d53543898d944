import AiArtifactStore.Foundation.Table

/-!
# Successive tables

What a table was and what it has become: every row is still there, changed at
most along a relation.
-/

namespace AiArtifactStore.Foundation

namespace Table

variable {κ ρ : Type} {key : ρ → κ} {advances : ρ → ρ → Prop} {t t' t'' : Table key}

/-- Every row of `t` is in `t'` under its key, as something it may have become. -/
def Succeeds (advances : ρ → ρ → Prop) (t t' : Table key) : Prop :=
  ∀ row ∈ t, ∃ row' ∈ t', key row' = key row ∧ advances row row'

theorem Succeeds.refl (hrefl : ∀ row, advances row row) : Succeeds advances t t :=
  fun row hrow => ⟨row, hrow, rfl, hrefl row⟩

theorem Succeeds.trans (htrans : ∀ a b c, advances a b → advances b c → advances a c)
    (h : Succeeds advances t t') (h' : Succeeds advances t' t'') : Succeeds advances t t'' := by
  intro row hrow
  obtain ⟨row', hrow', hkey, hadvance⟩ := h row hrow
  obtain ⟨row'', hrow'', hkey', hadvance'⟩ := h' row' hrow'
  exact ⟨row'', hrow'', hkey'.trans hkey, htrans _ _ _ hadvance hadvance'⟩

theorem Succeeds.of_mem (h : Succeeds advances t t') {row row' : ρ} (hrow : row ∈ t)
    (hrow' : row' ∈ t') (hkey : key row' = key row) : advances row row' := by
  obtain ⟨found, hfound, hsame, hadvance⟩ := h row hrow
  rwa [key_inj hrow' hfound (hkey.trans hsame.symm)]

theorem Succeeds.mapRows {f : ρ → ρ} (hkey : ∀ r, key (f r) = key r)
    (h : ∀ row, advances row (f row)) : Succeeds advances t (t.mapRows f hkey) :=
  fun row hrow => ⟨f row, mem_mapRows.mpr ⟨row, hrow, rfl⟩, hkey row, h row⟩

section

variable [DecidableEq κ]

theorem Succeeds.insert {row : ρ} (hrefl : ∀ row, advances row row) :
    Succeeds advances t (t.insert row) :=
  fun stored hstored => ⟨stored, mem_insert_of_mem hstored, rfl, hrefl stored⟩

theorem Succeeds.upsert {row : ρ} (hrefl : ∀ row, advances row row)
    (hrow : ∀ stored ∈ t, key stored = key row → advances stored row) :
    Succeeds advances t (t.upsert row) := by
  intro stored hstored
  by_cases hkey : key stored = key row
  · exact ⟨row, mem_upsert_self, hkey.symm, hrow stored hstored hkey⟩
  · exact ⟨stored, mem_upsert.mpr (.inr ⟨hstored, hkey⟩), rfl, hrefl stored⟩

end

end Table

end AiArtifactStore.Foundation
