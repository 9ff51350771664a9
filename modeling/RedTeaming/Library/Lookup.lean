import Mathlib.Logic.Function.Basic

/-!
# `RedTeaming.Library.Lookup`: what a pointwise update of a partial map holds

A table is a partial map `α → Option β`, and a write is `Function.update`. The lemmas read an
entry of the updated map back as either the written one or an old one. An invariant of the form
"each entry satisfies `P`" is then kept by a write of an entry that satisfies it
(`forall_update`). A list of pairs is a partial map too: `lookup_eq_none_iff` says where it is
undefined.
-/

set_option autoImplicit false

namespace RedTeaming.Library

section
variable {α β : Type} [DecidableEq α] {f : α → Option β} {a x : α} {b y : β}

/-- An entry after a write is the written one, or an old one at another key. -/
theorem update_some_eq_some :
    Function.update f a (some b) x = some y ↔ x = a ∧ b = y ∨ x ≠ a ∧ f x = some y := by
  by_cases h : x = a
  · subst h
    simp
  · simp [h]

/-- An entry after a removal is an old one at another key. -/
theorem update_none_eq_some : Function.update f a none x = some y ↔ x ≠ a ∧ f x = some y := by
  by_cases h : x = a
  · subst h
    simp
  · simp [h]

/-- A write of an entry that satisfies `P` keeps "each entry satisfies `P`". -/
theorem forall_update {P : α → β → Prop} (h : ∀ x y, f x = some y → P x y) (hb : P a b) :
    ∀ x y, Function.update f a (some b) x = some y → P x y := by
  intro x y hxy
  rcases update_some_eq_some.mp hxy with ⟨rfl, rfl⟩ | ⟨-, hxy⟩
  · exact hb
  · exact h x y hxy

/-- A list of pairs has no entry at a key exactly when no pair has the key. -/
theorem lookup_eq_none_iff {pairs : List (α × β)} :
    pairs.lookup a = none ↔ a ∉ pairs.map Prod.fst := by
  rw [List.lookup_eq_none_iff, List.mem_map]
  constructor
  · rintro h ⟨pair, hpair, rfl⟩
    have hne := h pair hpair
    simp at hne
  · intro h pair hpair
    have hne : a ≠ pair.1 := fun hsame => h ⟨pair, hpair, hsame.symm⟩
    simpa using hne

end

end RedTeaming.Library
