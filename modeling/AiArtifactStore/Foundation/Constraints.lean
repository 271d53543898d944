import AiArtifactStore.Foundation.Table

/-!
# Constraints on keyed tables

Foreign keys, uniqueness and row checks over `Table`, with what each write must
establish to keep them.
-/

namespace AiArtifactStore.Foundation

namespace Table

variable {κ κ' ρ σ τ : Type} {key : ρ → κ} {key' : σ → κ'}

/-- A foreign key: every value a row refers to is in the column of the other table. -/
def References (child : Table key) (refers : ρ → List τ) (parent : Table key') (column : σ → τ) :
    Prop :=
  ∀ row ∈ child, ∀ value ∈ refers row, ∃ other ∈ parent, column other = value

def Unique (t : Table key) (column : ρ → τ) : Prop :=
  ∀ a ∈ t, ∀ b ∈ t, column a = column b → a = b

def Checked (t : Table key) (p : ρ → Prop) : Prop := ∀ row ∈ t, p row

def KeepsColumn (parent parent' : Table key') (column : σ → τ) : Prop :=
  ∀ other ∈ parent, ∃ other' ∈ parent', column other' = column other

variable {child child' : Table key} {refers : ρ → List τ} {parent parent' : Table key'}
  {column : σ → τ} {t : Table key} {p : ρ → Prop}

/-! ## Empty tables and fewer rows -/

theorem references_empty : (empty : Table key).References refers parent column :=
  fun row h => absurd h (not_mem_empty row)

theorem unique_empty {column : ρ → τ} : (empty : Table key).Unique column :=
  fun row h => absurd h (not_mem_empty row)

theorem checked_empty : (empty : Table key).Checked p :=
  fun row h => absurd h (not_mem_empty row)

theorem References.of_subset (h : child.References refers parent column)
    (hsub : ∀ row ∈ child', row ∈ child) : child'.References refers parent column :=
  fun row hrow => h row (hsub row hrow)

theorem Unique.of_subset {column : ρ → τ} {t t' : Table key} (h : t.Unique column)
    (hsub : ∀ row ∈ t', row ∈ t) : t'.Unique column :=
  fun a ha b hb => h a (hsub a ha) b (hsub b hb)

theorem Checked.of_subset {t t' : Table key} (h : t.Checked p) (hsub : ∀ row ∈ t', row ∈ t) :
    t'.Checked p :=
  fun row hrow => h row (hsub row hrow)

theorem References.filter (h : child.References refers parent column) (keep : ρ → Bool) :
    (child.filter keep).References refers parent column :=
  h.of_subset fun _ hrow => (mem_filter.mp hrow).1

theorem Checked.filter (h : t.Checked p) (keep : ρ → Bool) : (t.filter keep).Checked p :=
  h.of_subset fun _ hrow => (mem_filter.mp hrow).1

/-! ## The referenced table -/

theorem KeepsColumn.of_mem (h : ∀ other ∈ parent, other ∈ parent') :
    KeepsColumn parent parent' column :=
  fun other hother => ⟨other, h other hother, rfl⟩

theorem References.of_parent (h : child.References refers parent column)
    (hkept : ∀ row ∈ child, ∀ other ∈ parent, column other ∈ refers row →
      ∃ other' ∈ parent', column other' = column other) :
    child.References refers parent' column := by
  intro row hrow value hvalue
  obtain ⟨other, hother, rfl⟩ := h row hrow value hvalue
  exact hkept row hrow other hother hvalue

theorem References.mono (h : child.References refers parent column)
    (hkept : KeepsColumn parent parent' column) : child.References refers parent' column :=
  h.of_parent fun _ _ other hother _ => hkept other hother

/-! ## Rewritten rows -/

theorem References.mapRows {f : ρ → ρ} {hkey : ∀ r, key (f r) = key r}
    (h : child.References refers parent column)
    (hfewer : ∀ row, ∀ value ∈ refers (f row), value ∈ refers row) :
    (child.mapRows f hkey).References refers parent column := by
  intro row hrow value hvalue
  obtain ⟨before, hbefore, rfl⟩ := mem_mapRows.mp hrow
  exact h before hbefore value (hfewer before value hvalue)

/-! ## Inserts and updates -/

section

variable [DecidableEq κ']

theorem KeepsColumn.insert {row : σ} : KeepsColumn parent (parent.insert row) column :=
  .of_mem fun _ => mem_insert_of_mem

theorem KeepsColumn.upsert {row : σ}
    (h : ∀ other ∈ parent, key' other = key' row → column row = column other) :
    KeepsColumn parent (parent.upsert row) column := by
  intro other hother
  by_cases hsame : key' other = key' row
  · exact ⟨row, mem_upsert_self, h other hother hsame⟩
  · exact ⟨other, mem_upsert.mpr (.inr ⟨hother, hsame⟩), rfl⟩

end

section

variable [DecidableEq κ]

theorem References.insert {row : ρ} (h : child.References refers parent column)
    (hrow : ∀ value ∈ refers row, ∃ other ∈ parent, column other = value) :
    (child.insert row).References refers parent column := by
  intro other hother
  rcases mem_insert.mp hother with hother | ⟨rfl, -⟩
  · exact h other hother
  · exact hrow

theorem References.upsert {row : ρ} (h : child.References refers parent column)
    (hrow : ∀ value ∈ refers row, ∃ other ∈ parent, column other = value) :
    (child.upsert row).References refers parent column := by
  intro other hother
  rcases mem_upsert.mp hother with rfl | ⟨hother, -⟩
  · exact hrow
  · exact h other hother

theorem Checked.insert {row : ρ} (h : t.Checked p) (hrow : p row) : (t.insert row).Checked p := by
  intro other hother
  rcases mem_insert.mp hother with hother | ⟨rfl, -⟩
  · exact h other hother
  · exact hrow

theorem Checked.upsert {row : ρ} (h : t.Checked p) (hrow : p row) : (t.upsert row).Checked p := by
  intro other hother
  rcases mem_upsert.mp hother with rfl | ⟨hother, -⟩
  · exact hrow
  · exact h other hother

theorem Unique.insert {column : ρ → τ} {row : ρ} (h : t.Unique column)
    (hrow : ∀ other ∈ t, column other ≠ column row) : (t.insert row).Unique column := by
  intro a ha b hb hsame
  rcases mem_insert.mp ha with haold | ⟨hanew, -⟩
  · rcases mem_insert.mp hb with hbold | ⟨hbnew, -⟩
    · exact h a haold b hbold hsame
    · exact absurd (hbnew ▸ hsame) (hrow a haold)
  · rcases mem_insert.mp hb with hbold | ⟨hbnew, -⟩
    · exact absurd (hanew ▸ hsame.symm) (hrow b hbold)
    · exact hanew.trans hbnew.symm

theorem Unique.upsert {column : ρ → τ} {row : ρ} (h : t.Unique column)
    (hrow : ∀ other ∈ t, key other ≠ key row → column other ≠ column row) :
    (t.upsert row).Unique column := by
  intro a ha b hb hsame
  rcases mem_upsert.mp ha with hanew | ⟨haold, hakey⟩
  · rcases mem_upsert.mp hb with hbnew | ⟨hbold, hbkey⟩
    · exact hanew.trans hbnew.symm
    · exact absurd (hanew ▸ hsame.symm) (hrow b hbold hbkey)
  · rcases mem_upsert.mp hb with hbnew | ⟨hbold, hbkey⟩
    · exact absurd (hbnew ▸ hsame) (hrow a haold hakey)
    · exact h a haold b hbold hsame

end

end Table

end AiArtifactStore.Foundation
