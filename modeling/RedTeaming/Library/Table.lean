import Mathlib.Data.List.Basic
import Mathlib.Data.List.Nodup

/-!
# `RedTeaming.Library.Table`: keyed tables whose rows have distinct keys

A `Table ρ` is a list of rows with the proof that no two rows share a key. `insertAll` adds rows
with new keys and fails when a key is taken. `mapRows` rewrites every row and keeps its key, so it
is an `UPDATE` with its `WHERE` inside the function. `overwrite` puts new versions of some rows in
their place. No operation removes a row.

`find?_eq_some` reads a lookup as membership, and `mem_mapRows` and `mem_insertAll` read the rows
after a write back as the rows before it. A property of all rows is then kept by a write that
keeps it on the rewritten and the new rows.

Nothing here names a program.
-/

set_option autoImplicit false

namespace RedTeaming.Library

/-- A row type with the key that identifies a row. -/
class Keyed (ρ : Type) (κ : outParam Type) where
  key : ρ → κ

export Keyed (key)

/-- Rows with distinct keys. -/
structure Table (ρ : Type) {κ : Type} [Keyed ρ κ] where
  rows : List ρ
  nodup : (rows.map key).Nodup

namespace Table

section
variable {ρ κ : Type} [Keyed ρ κ]

/-- The table without rows. -/
def empty : Table ρ where
  rows := []
  nodup := List.nodup_nil

/-- The table with one row. -/
def single (r : ρ) : Table ρ where
  rows := [r]
  nodup := List.nodup_singleton (key r)

instance : Membership ρ (Table ρ) := ⟨fun t r => r ∈ t.rows⟩

theorem mem_rows {t : Table ρ} {r : ρ} : r ∈ t.rows ↔ r ∈ t := Iff.rfl

/-- What can be decided of each row can be decided of the table. -/
instance decidableForall {t : Table ρ} {P : ρ → Prop} [∀ r, Decidable (P r)] :
    Decidable (∀ r ∈ t, P r) := inferInstanceAs (Decidable (∀ r ∈ t.rows, P r))

@[simp] theorem not_mem_empty {r : ρ} : ¬ r ∈ (empty : Table ρ) := List.not_mem_nil

/-- Two rows of a table with one key are one row. -/
theorem eq_of_key_eq {t : Table ρ} {r r' : ρ} (hr : r ∈ t) (hr' : r' ∈ t)
    (h : key r = key r') : r = r' :=
  List.inj_on_of_nodup_map t.nodup hr hr' h

/-- Rewrite every row, keeping its key. -/
def mapRows (t : Table ρ) (f : ρ → ρ) (hf : ∀ r, key (f r) = key r) : Table ρ where
  rows := t.rows.map f
  nodup := by
    have hkeys : (t.rows.map f).map key = t.rows.map key := by
      rw [List.map_map]
      exact List.map_congr_left fun r _ => hf r
    rw [hkeys]
    exact t.nodup

/-- The rows after a rewrite are the rewritten rows. -/
theorem mem_mapRows {t : Table ρ} {f : ρ → ρ} {hf : ∀ r, key (f r) = key r} {r : ρ} :
    r ∈ t.mapRows f hf ↔ ∃ r₀ ∈ t, f r₀ = r := List.mem_map

/-- A rewrite after which no row newly satisfies `p` leaves no more rows with `p`. -/
theorem countP_mapRows_le {t : Table ρ} {f : ρ → ρ} {hf : ∀ r, key (f r) = key r} {p : ρ → Bool}
    (h : ∀ r ∈ t, p (f r) = true → p r = true) :
    (t.mapRows f hf).rows.countP p ≤ t.rows.countP p := by
  show (t.rows.map f).countP p ≤ t.rows.countP p
  rw [List.countP_map]
  exact List.countP_mono_left h

variable [DecidableEq κ]

/-- The row with a key. -/
def find? (t : Table ρ) (k : κ) : Option ρ := t.rows.find? fun r => key r == k

/-- A lookup finds the row of the table with the key. -/
theorem find?_eq_some {t : Table ρ} {k : κ} {r : ρ} :
    t.find? k = some r ↔ r ∈ t ∧ key r = k := by
  constructor
  · intro h
    have hkey := List.find?_some h
    exact ⟨List.mem_of_find?_eq_some h, by simpa using hkey⟩
  · rintro ⟨hr, rfl⟩
    have hsome : (t.find? (key r)).isSome := by
      rw [find?, List.find?_isSome]
      exact ⟨r, hr, by simp⟩
    obtain ⟨r', hr'⟩ := Option.isSome_iff_exists.mp hsome
    have hkey := List.find?_some hr'
    have hrow : r' = r := eq_of_key_eq (List.mem_of_find?_eq_some hr') hr (by simpa using hkey)
    rw [hr', hrow]

/-- Rewrite the row with a key, if there is one. -/
def modify (t : Table ρ) (k : κ) (f : ρ → ρ) (hf : ∀ r, key (f r) = key r) : Table ρ :=
  t.mapRows (fun r => if key r = k then f r else r) fun r => by
    split
    · exact hf r
    · rfl

/-- The rows after a rewrite of one row: that row rewritten, and the other rows. -/
theorem mem_modify {t : Table ρ} {k : κ} {f : ρ → ρ} {hf : ∀ r, key (f r) = key r} {r : ρ} :
    r ∈ t.modify k f hf ↔
      (∃ r₀ ∈ t, key r₀ = k ∧ f r₀ = r) ∨ r ∈ t ∧ key r ≠ k := by
  rw [modify, mem_mapRows]
  constructor
  · rintro ⟨r₀, hr₀, rfl⟩
    split
    · exact Or.inl ⟨r₀, hr₀, by assumption, rfl⟩
    · exact Or.inr ⟨hr₀, by assumption⟩
  · rintro (⟨r₀, hr₀, hk, rfl⟩ | ⟨hr, hk⟩)
    · exact ⟨r₀, hr₀, if_pos hk⟩
    · exact ⟨r, hr, if_neg hk⟩

/-- A row after a rewrite of one row is the rewritten one, or was there before. -/
theorem eq_or_mem_of_mem_modify {t : Table ρ} {f : ρ → ρ} {hf : ∀ r, key (f r) = key r} {r r' : ρ}
    (hr : r ∈ t) (hr' : r' ∈ t.modify (key r) f hf) : r' = f r ∨ r' ∈ t := by
  rcases mem_modify.mp hr' with ⟨r₀, hr₀, hkey, rfl⟩ | ⟨hold, -⟩
  · have hsame : r₀ = r := eq_of_key_eq hr₀ hr hkey
    rw [hsame]
    exact Or.inl rfl
  · exact Or.inr hold

/-- Two rewrites that agree on the row with the key are one rewrite. -/
theorem modify_congr {t : Table ρ} {k : κ} {f g : ρ → ρ} {hf : ∀ r, key (f r) = key r}
    {hg : ∀ r, key (g r) = key r} (h : ∀ r ∈ t, key r = k → f r = g r) :
    t.modify k f hf = t.modify k g hg := by
  unfold modify mapRows
  congr 1
  apply List.map_congr_left
  intro r hr
  split
  · exact h r hr (by assumption)
  · rfl

/-- A lookup after a rewrite of one row. -/
theorem find?_modify {t : Table ρ} {k : κ} {f : ρ → ρ} {hf : ∀ r, key (f r) = key r} (k' : κ) :
    (t.modify k f hf).find? k' = if k' = k then (t.find? k').map f else t.find? k' := by
  apply Option.ext
  intro r
  rw [find?_eq_some, mem_modify]
  by_cases hk : k' = k
  · subst hk
    simp only [if_true, Option.map_eq_some_iff, find?_eq_some]
    constructor
    · rintro ⟨⟨r₀, hr₀, hkey, rfl⟩ | ⟨-, hne⟩, hkey'⟩
      · exact ⟨r₀, ⟨hr₀, hkey⟩, rfl⟩
      · exact absurd hkey' hne
    · rintro ⟨r₀, ⟨hr₀, hkey⟩, rfl⟩
      exact ⟨Or.inl ⟨r₀, hr₀, hkey, rfl⟩, by rw [hf, hkey]⟩
  · rw [if_neg hk, find?_eq_some]
    constructor
    · rintro ⟨⟨r₀, -, hkey, rfl⟩ | ⟨hr, -⟩, hkey'⟩
      · exact absurd (by rw [← hkey', hf, hkey]) hk
      · exact ⟨hr, hkey'⟩
    · rintro ⟨hr, rfl⟩
      exact ⟨Or.inr ⟨hr, hk⟩, rfl⟩

/-- A rewrite of the row with one key adds at most one row with `p`. -/
theorem countP_modify_le {t : Table ρ} {k : κ} {f : ρ → ρ} {hf : ∀ r, key (f r) = key r}
    {p : ρ → Bool} : (t.modify k f hf).rows.countP p ≤ t.rows.countP p + 1 := by
  obtain ⟨rows, hnodup⟩ := t
  show (rows.map fun r => if key r = k then f r else r).countP p ≤ rows.countP p + 1
  induction rows with
  | nil => simp
  | cons a rows ih =>
    rw [List.map_cons] at hnodup
    obtain ⟨hnew, hnodup⟩ := List.nodup_cons.mp hnodup
    have hbound : (if p (f a) = true then 1 else 0) ≤ 1 := by split <;> omega
    rw [List.map_cons, List.countP_cons, List.countP_cons]
    by_cases hkey : key a = k
    · -- no other row has the key, so the rest stays as it is
      have hrest : (rows.map fun r => if key r = k then f r else r) = rows := by
        conv_rhs => rw [← List.map_id rows]
        apply List.map_congr_left
        intro r hr
        rw [if_neg, id_eq]
        intro hsame
        exact hnew (List.mem_map.mpr ⟨r, hr, hsame.trans hkey.symm⟩)
      rw [hrest, if_pos hkey]
      omega
    · rw [if_neg hkey]
      have hle := ih hnodup
      omega

/-- Replace the rows that have a new version. A version without a row is not added. -/
def overwrite (t : Table ρ) (new : List ρ) : Table ρ :=
  t.mapRows (fun r => (new.find? fun n => key n == key r).getD r) fun r => by
    cases hfind : new.find? fun n => key n == key r with
    | none => rfl
    | some n => simpa using List.find?_some hfind

/-- A row after an overwrite is a new version, or was there before and has none. -/
theorem overwrite_cases {t : Table ρ} {new : List ρ} {r : ρ} (h : r ∈ t.overwrite new) :
    r ∈ new ∨ (r ∈ t ∧ ∀ n ∈ new, key n ≠ key r) := by
  obtain ⟨r₀, hr₀, rfl⟩ := mem_mapRows.mp h
  cases hfind : new.find? fun n => key n == key r₀ with
  | none =>
    have hnone : ∀ n ∈ new, key n ≠ key r₀ := by simpa using hfind
    exact Or.inr ⟨hr₀, hnone⟩
  | some n => exact Or.inl (List.mem_of_find?_eq_some hfind)

/-- A row without a new version stays. -/
theorem mem_overwrite_of_ne {t : Table ρ} {new : List ρ} {r : ρ} (h : r ∈ t)
    (hne : ∀ n ∈ new, key n ≠ key r) : r ∈ t.overwrite new := by
  rw [overwrite, mem_mapRows]
  have hfind : (new.find? fun n => key n == key r) = none := by simpa using hne
  refine ⟨r, h, ?_⟩
  rw [hfind, Option.getD_none]

/-- An overwrite keeps the keys. -/
theorem exists_overwrite {t : Table ρ} (new : List ρ) {r : ρ} (h : r ∈ t) :
    ∃ r' ∈ t.overwrite new, key r' = key r := by
  refine ⟨_, mem_mapRows.mpr ⟨r, h, rfl⟩, ?_⟩
  cases hfind : new.find? fun n => key n == key r with
  | none => rfl
  | some n => simpa using List.find?_some hfind

/-- The rows after an overwrite: the new versions of rows of the table, and the other rows. -/
theorem mem_overwrite {t : Table ρ} {new : List ρ} (hnodup : (new.map key).Nodup) {r : ρ} :
    r ∈ t.overwrite new ↔
      (r ∈ new ∧ ∃ r₀ ∈ t, key r₀ = key r) ∨ (r ∈ t ∧ ∀ n ∈ new, key n ≠ key r) := by
  constructor
  · intro h
    rcases overwrite_cases h with hnew | hold
    · obtain ⟨r₀, hr₀, hrow⟩ := mem_mapRows.mp h
      refine Or.inl ⟨hnew, r₀, hr₀, ?_⟩
      rw [← hrow]
      cases hfind : new.find? fun n => key n == key r₀ with
      | none => rfl
      | some n =>
        have hkey : key n = key r₀ := by simpa using List.find?_some hfind
        exact hkey.symm
    · exact Or.inr hold
  · rintro (⟨hr, r₀, hr₀, hkey⟩ | ⟨hr, hnone⟩)
    · obtain ⟨r', hr', hkey'⟩ := exists_overwrite new hr₀
      rcases overwrite_cases hr' with hnew | ⟨-, hnone⟩
      · have hsame : r' = r := List.inj_on_of_nodup_map hnodup hnew hr (hkey'.trans hkey)
        rw [← hsame]
        exact hr'
      · exact absurd (hkey.symm.trans hkey'.symm) (hnone r hr)
    · exact mem_overwrite_of_ne hr hnone

/-- Add rows, unless a key would occur twice. -/
def insertAll (t : Table ρ) (new : List ρ) : Option (Table ρ) :=
  if h : ((t.rows ++ new).map key).Nodup then some ⟨t.rows ++ new, h⟩ else none

/-- The rows after an insert are the old and the new ones. -/
theorem mem_insertAll {t t' : Table ρ} {new : List ρ} (h : t.insertAll new = some t') {r : ρ} :
    r ∈ t' ↔ r ∈ t ∨ r ∈ new := by
  unfold insertAll at h
  split at h
  · cases h
    exact List.mem_append
  · cases h

/-- An inserted row has a key that no row of the table had. -/
theorem key_ne_of_insertAll {t t' : Table ρ} {new : List ρ} (h : t.insertAll new = some t')
    {r r' : ρ} (hr : r ∈ t) (hr' : r' ∈ new) : key r ≠ key r' := by
  unfold insertAll at h
  split at h
  · rename_i hnodup
    rw [List.map_append] at hnodup
    intro heq
    have hmem : key r ∈ new.map key := heq ▸ List.mem_map_of_mem hr'
    exact (List.nodup_append.mp hnodup).2.2 _ (List.mem_map_of_mem hr) _ hmem rfl
  · cases h

/-- Insert a row, or rewrite with `f` the row that has its key. -/
def upsert (t : Table ρ) (r : ρ) (f : ρ → ρ) (hf : ∀ r, key (f r) = key r) : Table ρ :=
  if h : key r ∈ t.rows.map key then t.modify (key r) f hf
  else ⟨t.rows ++ [r], by
    rw [List.map_append]
    exact List.nodup_append.mpr ⟨t.nodup, List.nodup_singleton _, fun k hk k' hk' hsame =>
      h (List.mem_singleton.mp hk' ▸ hsame ▸ hk)⟩⟩

/-- A row after an upsert is the rewritten one, the inserted one, or one with another key. -/
theorem mem_upsert {t : Table ρ} {r : ρ} {f : ρ → ρ} {hf : ∀ r, key (f r) = key r} {r' : ρ} :
    r' ∈ t.upsert r f hf ↔
      (∃ r₀ ∈ t, key r₀ = key r ∧ f r₀ = r') ∨ (r' = r ∧ ∀ r₀ ∈ t, key r₀ ≠ key r) ∨
        (r' ∈ t ∧ key r' ≠ key r) := by
  have hmem : key r ∈ t.rows.map key ↔ ∃ r₀ ∈ t, key r₀ = key r := List.mem_map
  unfold upsert
  split
  · rename_i hkey
    obtain ⟨r₁, hr₁, hsame⟩ := hmem.mp hkey
    rw [mem_modify]
    constructor
    · rintro (hnew | hold)
      · exact Or.inl hnew
      · exact Or.inr (Or.inr hold)
    · rintro (hnew | ⟨-, hnone⟩ | hold)
      · exact Or.inl hnew
      · exact absurd hsame (hnone r₁ hr₁)
      · exact Or.inr hold
  · rename_i hkey
    have hnone : ∀ r₀ ∈ t, key r₀ ≠ key r := fun r₀ hr₀ hsame => hkey (hmem.mpr ⟨r₀, hr₀, hsame⟩)
    rw [← mem_rows, List.mem_append, List.mem_singleton]
    constructor
    · rintro (hold | rfl)
      · exact Or.inr (Or.inr ⟨hold, hnone r' hold⟩)
      · exact Or.inr (Or.inl ⟨rfl, hnone⟩)
    · rintro (⟨r₀, hr₀, hsame, -⟩ | ⟨rfl, -⟩ | ⟨hold, -⟩)
      · exact absurd hsame (hnone r₀ hr₀)
      · exact Or.inr rfl
      · exact Or.inl hold

end

end Table

end RedTeaming.Library
