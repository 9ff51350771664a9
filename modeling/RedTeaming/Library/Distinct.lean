import Mathlib.Data.List.MinMax
import Mathlib.Data.List.Nodup

/-!
# `RedTeaming.Library.Distinct`: lists without repetition

`nodup_eraseDups` is for the ids of a payload, which a service deduplicates. `exists_ne_of_nodup`
is for a guard of the form "this is the only one": where it does not hold of a list without
repetition, the list has another entry. `bestOfKey` keeps one row of each key, the one of the
lowest rank.

Nothing here names a program.
-/

set_option autoImplicit false

namespace RedTeaming.Library

/-- What a partial map keeps of a list without repetition has none, as long as the labels of the
results are those of the entries. -/
theorem nodup_map_filterMap_of_mem {α β κ : Type} {f : α → Option β} {label : α → κ}
    {label' : β → κ} {l : List α} (hf : ∀ a ∈ l, ∀ b, f a = some b → label' b = label a)
    (h : (l.map label).Nodup) : ((l.filterMap f).map label').Nodup := by
  have hsub : ((l.filterMap f).map label').Sublist (l.map label) := by
    induction l with
    | nil => exact List.Sublist.refl _
    | cons a l ih =>
      rw [List.map_cons, List.nodup_cons] at h
      have htail := ih (fun a' ha' => hf a' (List.mem_cons_of_mem _ ha')) h.2
      cases hfa : f a with
      | none =>
        rw [List.filterMap_cons_none hfa, List.map_cons]
        exact htail.cons _
      | some b =>
        rw [List.filterMap_cons_some hfa, List.map_cons, List.map_cons,
          hf a List.mem_cons_self b hfa]
        exact htail.cons_cons _
  exact h.sublist hsub

/-- The labels of the results are those of the entries, for every entry. -/
theorem nodup_map_filterMap {α β κ : Type} {f : α → Option β} {label : α → κ} {label' : β → κ}
    (hf : ∀ a b, f a = some b → label' b = label a) {l : List α} (h : (l.map label).Nodup) :
    ((l.filterMap f).map label').Nodup :=
  nodup_map_filterMap_of_mem (fun a _ => hf a) h

/-- In a list with distinct labels, one entry has the label of an entry. -/
theorem filter_label_eq_singleton {α κ : Type} [DecidableEq κ] {label : α → κ} {l : List α}
    (h : (l.map label).Nodup) {a : α} (ha : a ∈ l) :
    (l.filter fun b => label b = label a) = [a] := by
  induction l with
  | nil => exact absurd ha List.not_mem_nil
  | cons b l ih =>
    rw [List.map_cons, List.nodup_cons] at h
    rcases List.mem_cons.mp ha with rfl | ha
    · have hrest : (l.filter fun b => label b = label a) = [] := by
        rw [List.filter_eq_nil_iff]
        intro c hc hlabel
        have hsame : label c = label a := by simpa using hlabel
        exact h.1 (hsame ▸ List.mem_map_of_mem hc)
      rw [List.filter_cons_of_pos (by simp), hrest]
    · have hne : ¬ label b = label a := fun hsame => h.1 (hsame ▸ List.mem_map_of_mem ha)
      rw [List.filter_cons_of_neg (by simpa using hne), ih h.2 ha]

section
variable {α : Type} [DecidableEq α]

/-- A deduplicated list has no repetition. The induction is on the length, because the tail of the
result is the deduplication of a filtered tail. -/
theorem nodup_eraseDups (l : List α) : l.eraseDups.Nodup := by
  induction hn : l.length using Nat.strongRecOn generalizing l with
  | ind n ih =>
    cases l with
    | nil => simp
    | cons a l =>
      rw [List.eraseDups_cons, List.nodup_cons, List.mem_eraseDups, List.mem_filter]
      have hle : (l.filter fun b => !b == a).length ≤ l.length := List.length_filter_le _ _
      have hlt : (l.filter fun b => !b == a).length < n := by
        rw [List.length_cons] at hn
        omega
      exact ⟨fun h => by simp at h, ih _ hlt _ rfl⟩

/-- A nonempty list without repetition that is not `[a]` has an entry other than `a`. -/
theorem exists_ne_of_nodup {l : List α} {a : α} (hnodup : l.Nodup) (hne : l ≠ [])
    (hsole : l ≠ [a]) : ∃ b ∈ l, b ≠ a := by
  match l with
  | [] => exact absurd rfl hne
  | [b] =>
    refine ⟨b, List.mem_singleton_self b, ?_⟩
    rintro rfl
    exact hsole rfl
  | b :: c :: l =>
    by_cases hb : b = a
    · -- The second entry is not the first one.
      have hcb : b ∉ c :: l := (List.nodup_cons.mp hnodup).1
      refine ⟨c, by simp, ?_⟩
      rintro rfl
      exact hcb (by simp [hb])
    · exact ⟨b, by simp, hb⟩

end

/-- A list without repetition that has no two entries has at most one. -/
theorem eq_nil_or_singleton {α : Type} {l : List α} (hnodup : l.Nodup)
    (h : ∀ a ∈ l, ∀ b ∈ l, a = b) : l = [] ∨ ∃ a, l = [a] := by
  cases l with
  | nil => exact .inl rfl
  | cons a l =>
    cases l with
    | nil => exact .inr ⟨a, rfl⟩
    | cons b l =>
      have hsame : a = b := h a List.mem_cons_self b (List.mem_cons_of_mem _ List.mem_cons_self)
      rw [List.nodup_cons, hsame] at hnodup
      exact absurd List.mem_cons_self hnodup.1

/-! ### One row of each key -/

section
variable {ρ κ ι : Type} [DecidableEq κ] [LinearOrder ι] {key : ρ → κ} {rank : ρ → ι}
  {rows : List ρ} {r r' : ρ}

/-- `NOT EXISTS (…)`: the rows that no row of their key outranks. -/
def bestOfKey (key : ρ → κ) (rank : ρ → ι) (rows : List ρ) : List ρ :=
  rows.filter fun r => !rows.any fun better =>
    decide (key better = key r) && decide (rank better < rank r)

theorem mem_bestOfKey : r ∈ bestOfKey key rank rows ↔
    r ∈ rows ∧ ∀ better ∈ rows, key better = key r → rank r ≤ rank better := by
  rw [bestOfKey, List.mem_filter]
  simp

/-- Two rows that are left differ in their keys, where the rank tells the rows apart. -/
theorem eq_of_mem_bestOfKey (hrank : ∀ a ∈ rows, ∀ b ∈ rows, rank a = rank b → a = b)
    (h : r ∈ bestOfKey key rank rows) (h' : r' ∈ bestOfKey key rank rows)
    (hkey : key r = key r') :
    r = r' := by
  rw [mem_bestOfKey] at h h'
  have hle : rank r ≤ rank r' := h.2 r' h'.1 hkey.symm
  have hge : rank r' ≤ rank r := h'.2 r h.1 hkey
  exact hrank r h.1 r' h'.1 (le_antisymm hle hge)

/-- Every key has a row that is left. -/
theorem exists_mem_bestOfKey (h : r ∈ rows) :
    ∃ best ∈ bestOfKey key rank rows, key best = key r := by
  have hown : r ∈ rows.filter fun row => decide (key row = key r) :=
    List.mem_filter.mpr ⟨h, by simp⟩
  cases hbest : List.argmin rank (rows.filter fun row => decide (key row = key r)) with
  | none =>
    rw [List.argmin_eq_none.mp hbest] at hown
    cases hown
  | some best =>
    obtain ⟨hmem, hkey⟩ := List.mem_filter.mp (List.argmin_mem hbest)
    have hkey : key best = key r := of_decide_eq_true hkey
    refine ⟨best, mem_bestOfKey.mpr ⟨hmem, fun better hbetter hsame => ?_⟩, hkey⟩
    have hcandidate : better ∈ rows.filter fun row => decide (key row = key r) :=
      List.mem_filter.mpr ⟨hbetter, decide_eq_true (hsame.trans hkey)⟩
    exact List.le_of_mem_argmin hcandidate hbest

end

end RedTeaming.Library
