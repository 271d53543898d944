import Mathlib.Data.List.Nodup

/-!
# Keyed tables

A relational table with a primary key: a list of rows whose keys are distinct.
Rows keep their insertion order.
-/

namespace AiArtifactStore.Foundation

structure Table {κ ρ : Type} (key : ρ → κ) where
  rows : List ρ
  keysNodup : (rows.map key).Nodup

namespace Table

variable {κ ρ : Type} {key : ρ → κ}

instance : Membership ρ (Table key) := ⟨fun t r => r ∈ t.rows⟩

instance [DecidableEq ρ] (r : ρ) (t : Table key) : Decidable (r ∈ t) :=
  inferInstanceAs (Decidable (r ∈ t.rows))

theorem mem_rows {t : Table key} {r : ρ} : r ∈ t.rows ↔ r ∈ t := Iff.rfl

@[ext] theorem ext_rows {s t : Table key} (h : s.rows = t.rows) : s = t := by
  cases s
  cases t
  cases h
  rfl

def empty : Table key := ⟨[], List.nodup_nil⟩

@[simp] theorem not_mem_empty (r : ρ) : r ∉ (empty : Table key) := List.not_mem_nil

theorem key_inj {t : Table key} {r s : ρ} (hr : r ∈ t) (hs : s ∈ t) (h : key r = key s) :
    r = s :=
  List.inj_on_of_nodup_map t.keysNodup hr hs h

/-! ## Lookup -/

variable [DecidableEq κ]

def find? (t : Table key) (k : κ) : Option ρ :=
  t.rows.find? (fun r => key r = k)

theorem find?_eq_some {t : Table key} {k : κ} {r : ρ} :
    t.find? k = some r ↔ r ∈ t ∧ key r = k := by
  constructor
  · intro h
    exact ⟨List.mem_of_find?_eq_some h, by simpa using List.find?_some h⟩
  · rintro ⟨hr, hk⟩
    cases h : t.rows.find? (fun s => key s = k) with
    | none =>
        have := List.find?_eq_none.mp h r hr
        simp [hk] at this
    | some s =>
        have hs : s ∈ t := List.mem_of_find?_eq_some h
        have hks : key s = k := by simpa using List.find?_some h
        rw [find?, h, key_inj hs hr (hks.trans hk.symm)]

theorem find?_eq_none {t : Table key} {k : κ} :
    t.find? k = none ↔ ∀ r ∈ t, key r ≠ k := by
  rw [find?, List.find?_eq_none]
  exact ⟨fun h r hr => by simpa using h r hr, fun h r hr => by simpa using h r hr⟩

theorem find?_of_mem {t : Table key} {r : ρ} (h : r ∈ t) : t.find? (key r) = some r :=
  find?_eq_some.mpr ⟨h, rfl⟩

theorem mem_of_find? {t : Table key} {k : κ} {r : ρ} (h : t.find? k = some r) : r ∈ t :=
  (find?_eq_some.mp h).1

theorem key_of_find? {t : Table key} {k : κ} {r : ρ} (h : t.find? k = some r) : key r = k :=
  (find?_eq_some.mp h).2

@[simp] theorem find?_empty (k : κ) : (empty : Table key).find? k = none := rfl

/-! ## Writes -/

/-- Append a row, unless its key is present (`ON CONFLICT DO NOTHING`). -/
def insert (t : Table key) (r : ρ) : Table key :=
  if h : key r ∈ t.rows.map key then t
  else ⟨t.rows ++ [r], by
    rw [List.map_append, List.map_singleton, List.nodup_append]
    refine ⟨t.keysNodup, List.nodup_singleton _, ?_⟩
    intro k hk k' hk' e
    rw [List.mem_singleton.mp hk'] at e
    exact h (e ▸ hk)⟩

/-- Replace the row with the same key, or append (`ON CONFLICT DO UPDATE`). -/
def upsert (t : Table key) (r : ρ) : Table key :=
  if key r ∈ t.rows.map key then
    ⟨t.rows.map fun s => if key s = key r then r else s, by
      have hkeys : (t.rows.map fun s => if key s = key r then r else s).map key =
          t.rows.map key := by
        rw [List.map_map]
        refine List.map_congr_left fun s _ => ?_
        by_cases hs : key s = key r <;> simp [hs]
      rw [hkeys]
      exact t.keysNodup⟩
  else t.insert r

def filter (t : Table key) (keep : ρ → Bool) : Table key :=
  ⟨t.rows.filter keep, (List.filter_sublist.map key).nodup t.keysNodup⟩

def mapRows (t : Table key) (f : ρ → ρ) (hkey : ∀ r, key (f r) = key r) : Table key :=
  ⟨t.rows.map f, by
    rw [List.map_map, show key ∘ f = key from funext hkey]
    exact t.keysNodup⟩

theorem mem_insert {t : Table key} {r s : ρ} :
    s ∈ t.insert r ↔ s ∈ t ∨ (s = r ∧ t.find? (key r) = none) := by
  have hnone : t.find? (key r) = none ↔ key r ∉ t.rows.map key := by
    rw [find?_eq_none, List.mem_map]
    exact ⟨fun h ⟨x, hx, e⟩ => h x hx e, fun h x hx e => h ⟨x, hx, e⟩⟩
  by_cases h : key r ∈ t.rows.map key
  · simp only [insert, h, ↓reduceDIte, hnone, not_true_eq_false, and_false, or_false]
  · simp only [insert, h, ↓reduceDIte, hnone, not_false_eq_true, and_true]
    change s ∈ t.rows ++ [r] ↔ _
    rw [List.mem_append, List.mem_singleton]
    exact Iff.rfl

theorem mem_insert_of_mem {t : Table key} {r s : ρ} (h : s ∈ t) : s ∈ t.insert r :=
  mem_insert.mpr (.inl h)

theorem mem_insert_new {t : Table key} {r : ρ} (h : t.find? (key r) = none) : r ∈ t.insert r :=
  mem_insert.mpr (.inr ⟨rfl, h⟩)

theorem find?_insert_fresh {t : Table key} {r : ρ} {k : κ} (h : t.find? k = none) (hk : key r = k) :
    (t.insert r).find? k = some r := by
  subst hk
  exact find?_of_mem (mem_insert_new h)

theorem find?_insert_new {t : Table key} {r : ρ} {k : κ} (h : t.find? (key r) = none) :
    (t.insert r).find? k = if key r = k then some r else t.find? k := by
  by_cases hk : key r = k
  · subst hk
    simp [find?_of_mem (mem_insert_new h)]
  · simp only [hk, ↓reduceIte]
    cases hf : t.find? k with
    | none =>
        rw [find?_eq_none] at hf ⊢
        intro s hs
        rcases mem_insert.mp hs with hs | ⟨rfl, -⟩
        · exact hf s hs
        · exact hk
    | some s =>
        obtain ⟨hs, hsk⟩ := find?_eq_some.mp hf
        exact find?_eq_some.mpr ⟨mem_insert_of_mem hs, hsk⟩

theorem insert_of_find?_some {t : Table key} {r s : ρ} (h : t.find? (key r) = some s) :
    t.insert r = t := by
  have hmem : key r ∈ t.rows.map key :=
    List.mem_map.mpr ⟨s, mem_of_find? h, key_of_find? h⟩
  simp [insert, hmem]

theorem find?_insert_mono {t : Table key} {r s : ρ} {k : κ} (h : t.find? k = some s) :
    (t.insert r).find? k = some s := by
  obtain ⟨hs, hk⟩ := find?_eq_some.mp h
  exact find?_eq_some.mpr ⟨mem_insert_of_mem hs, hk⟩

theorem mem_upsert {t : Table key} {r s : ρ} :
    s ∈ t.upsert r ↔ s = r ∨ (s ∈ t ∧ key s ≠ key r) := by
  by_cases h : key r ∈ t.rows.map key
  · simp only [upsert, h, ↓reduceIte]
    change s ∈ t.rows.map _ ↔ _
    rw [List.mem_map]
    constructor
    · rintro ⟨x, hx, e⟩
      by_cases hk : key x = key r
      · simp only [hk, ↓reduceIte] at e
        exact .inl e.symm
      · simp only [hk, ↓reduceIte] at e
        exact .inr (e ▸ ⟨hx, hk⟩)
    · rintro (rfl | ⟨hs, hk⟩)
      · obtain ⟨x, hx, hk⟩ := List.mem_map.mp h
        exact ⟨x, hx, by simp [hk]⟩
      · exact ⟨s, hs, by simp [hk]⟩
  · have hnone : t.find? (key r) = none :=
      find?_eq_none.mpr fun x hx e => h (List.mem_map.mpr ⟨x, hx, e⟩)
    simp only [upsert, h, ↓reduceIte, mem_insert, hnone, and_true]
    constructor
    · rintro (hs | rfl)
      · exact .inr ⟨hs, find?_eq_none.mp hnone s hs⟩
      · exact .inl rfl
    · rintro (rfl | ⟨hs, -⟩)
      · exact .inr rfl
      · exact .inl hs

theorem upsert_of_find?_none {t : Table key} {r : ρ} (h : t.find? (key r) = none) :
    t.upsert r = t.insert r := by
  have hmem : key r ∉ t.rows.map key := by
    rw [List.mem_map]
    rintro ⟨s, hs, hk⟩
    exact find?_eq_none.mp h s hs hk
  simp [upsert, hmem]

theorem mem_upsert_self {t : Table key} {r : ρ} : r ∈ t.upsert r := mem_upsert.mpr (.inl rfl)

theorem find?_upsert {t : Table key} {r : ρ} {k : κ} :
    (t.upsert r).find? k = if key r = k then some r else t.find? k := by
  by_cases hk : key r = k
  · subst hk
    simp [find?_of_mem mem_upsert_self]
  · simp only [hk, ↓reduceIte]
    cases hf : t.find? k with
    | none =>
        rw [find?_eq_none] at hf ⊢
        intro s hs
        rcases mem_upsert.mp hs with rfl | ⟨hs, -⟩
        · exact hk
        · exact hf s hs
    | some s =>
        obtain ⟨hs, hsk⟩ := find?_eq_some.mp hf
        exact find?_eq_some.mpr
          ⟨mem_upsert.mpr (.inr ⟨hs, fun e => hk (e.symm.trans hsk)⟩), hsk⟩

omit [DecidableEq κ] in
@[simp] theorem mem_filter {t : Table key} {keep : ρ → Bool} {r : ρ} :
    r ∈ t.filter keep ↔ r ∈ t ∧ keep r = true :=
  List.mem_filter

omit [DecidableEq κ] in
theorem mem_mapRows {t : Table key} {f : ρ → ρ} {hkey : ∀ r, key (f r) = key r} {r : ρ} :
    r ∈ t.mapRows f hkey ↔ ∃ s ∈ t, f s = r :=
  List.mem_map

theorem find?_filter {t : Table key} {keep : ρ → Bool} {k : κ} {r : ρ} :
    (t.filter keep).find? k = some r ↔ t.find? k = some r ∧ keep r = true := by
  rw [find?_eq_some, find?_eq_some, mem_filter]
  exact ⟨fun ⟨⟨h, hk⟩, e⟩ => ⟨⟨h, e⟩, hk⟩, fun ⟨⟨h, e⟩, hk⟩ => ⟨⟨h, hk⟩, e⟩⟩

theorem find?_mapRows {t : Table key} {f : ρ → ρ} {hkey : ∀ r, key (f r) = key r} {k : κ} :
    (t.mapRows f hkey).find? k = (t.find? k).map f := by
  cases h : t.find? k with
  | none =>
      rw [Option.map_none, find?_eq_none]
      intro r hr
      obtain ⟨s, hs, rfl⟩ := mem_mapRows.mp hr
      rw [hkey]
      exact find?_eq_none.mp h s hs
  | some s =>
      obtain ⟨hs, hk⟩ := find?_eq_some.mp h
      exact find?_eq_some.mpr ⟨mem_mapRows.mpr ⟨s, hs, rfl⟩, by rw [hkey, hk]⟩

omit [DecidableEq κ] in
theorem filter_eq_self {t : Table key} {keep : ρ → Bool} (h : ∀ r ∈ t, keep r = true) :
    t.filter keep = t :=
  ext_rows (List.filter_eq_self.mpr h)

omit [DecidableEq κ] in
theorem filter_congr {t : Table key} {keep keep' : ρ → Bool} (h : ∀ r ∈ t, keep r = keep' r) :
    t.filter keep = t.filter keep' :=
  ext_rows (List.filter_congr h)

omit [DecidableEq κ] in
theorem filter_filter {t : Table key} {keep keep' : ρ → Bool} :
    (t.filter keep).filter keep' = t.filter fun r => keep' r && keep r :=
  ext_rows List.filter_filter

omit [DecidableEq κ] in
theorem mapRows_eq_self {t : Table key} {f : ρ → ρ} {hkey : ∀ r, key (f r) = key r}
    (h : ∀ r ∈ t, f r = r) : t.mapRows f hkey = t :=
  ext_rows ((List.map_congr_left h).trans (List.map_id _))

/-- A rewrite that forgets how two rows with one key differ forgets which was written. -/
theorem mapRows_upsert_congr {t : Table key} {f : ρ → ρ} {hkey : ∀ r, key (f r) = key r} {r r' : ρ}
    (hk : key r = key r') (h : f r = f r') :
    (t.upsert r).mapRows f hkey = (t.upsert r').mapRows f hkey := by
  by_cases hmem : key r' ∈ t.rows.map key
  · simp only [upsert, hk, hmem, ↓reduceIte, mapRows]
    refine ext_rows ?_
    simp only [List.map_map]
    refine List.map_congr_left fun s _ => ?_
    by_cases hs : key s = key r' <;> simp [hs, h]
  · simp only [upsert, hk, hmem, ↓reduceIte, insert, ↓reduceDIte, mapRows]
    refine ext_rows ?_
    simp only [List.map_append, List.map_singleton, h]

/-! ## Rows with a condition -/

omit [DecidableEq κ] in
/-- A wider condition holds of as many rows exactly when it is no wider on them. -/
theorem countP_eq_iff {t : Table key} {p q : ρ → Bool} (h : ∀ r ∈ t, p r = true → q r = true) :
    t.rows.countP p = t.rows.countP q ↔ ∀ r ∈ t, q r = true → p r = true := by
  constructor
  · intro hcount r hr hq
    have hsub : (t.rows.filter p).Sublist (t.rows.filter q) := by
      have hfilter : (t.rows.filter q).filter p = t.rows.filter p := by
        rw [List.filter_filter]
        refine List.filter_congr fun s hs => ?_
        cases hp : p s with
        | false => rfl
        | true => simp [h s hs hp]
      rw [← hfilter]
      exact List.filter_sublist
    have hlength : (t.rows.filter p).length = (t.rows.filter q).length := by
      rw [← List.countP_eq_length_filter, ← List.countP_eq_length_filter, hcount]
    have hmem : r ∈ t.rows.filter p := by
      rw [hsub.eq_of_length hlength]
      exact List.mem_filter.mpr ⟨hr, hq⟩
    exact (List.mem_filter.mp hmem).2
  · intro hback
    exact List.countP_congr fun r hr => ⟨h r hr, hback r hr⟩

def AtMostOne (t : Table key) (p : ρ → Prop) : Prop :=
  ∀ a ∈ t, ∀ b ∈ t, p a → p b → a = b

theorem atMostOne_insert {t : Table key} {p : ρ → Prop} {r : ρ} (h : ∀ a ∈ t, ¬p a) :
    (t.insert r).AtMostOne p := by
  have hnew : ∀ a ∈ t.insert r, p a → a = r := by
    intro a ha hp
    rcases mem_insert.mp ha with ha | ⟨rfl, -⟩
    · exact absurd hp (h a ha)
    · rfl
  intro a ha b hb hpa hpb
  rw [hnew a ha hpa, hnew b hb hpb]

theorem atMostOne_upsert {t : Table key} {p : ρ → Prop} {r : ρ} (h : t.AtMostOne p)
    (hr : ¬p r) : (t.upsert r).AtMostOne p := by
  have hold : ∀ a ∈ t.upsert r, p a → a ∈ t := by
    intro a ha hp
    rcases mem_upsert.mp ha with rfl | ⟨ha, -⟩
    · exact absurd hp hr
    · exact ha
  intro a ha b hb hpa hpb
  exact h a (hold a ha hpa) b (hold b hb hpb) hpa hpb

theorem any_upsert_eq_false {t : Table key} {p : ρ → Bool} {r : ρ}
    (h : t.rows.any p = false) (hr : p r = false) : (t.upsert r).rows.any p = false := by
  rw [List.any_eq_false] at h ⊢
  intro a ha
  rcases mem_upsert.mp (mem_rows.mp ha) with rfl | ⟨ha, -⟩
  · simp [hr]
  · exact h a ha

theorem any_of_any_upsert {t : Table key} {p : ρ → Bool} {r : ρ} (hr : p r = false)
    (h : (t.upsert r).rows.any p = true) : t.rows.any p = true := by
  cases hany : t.rows.any p with
  | true => rfl
  | false => rw [any_upsert_eq_false hany hr] at h; cases h

end Table

end AiArtifactStore.Foundation
