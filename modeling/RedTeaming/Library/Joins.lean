import Mathlib.Data.List.Basic
import Mathlib.Data.List.Nodup

/-!
# `RedTeaming.Library.Joins`: joins of lists of rows

`innerJoin` pairs the rows of two lists that a condition relates, and `leftJoin` keeps a row
without a partner too. Where the condition relates a row to one partner at most, as a foreign key
does, the left join neither drops nor repeats a row (`leftJoin_eq_map`), and the pairs of an inner
join can be counted on the other side (`countP_innerJoin`).

Nothing here names a program.
-/

set_option autoImplicit false

namespace RedTeaming.Library

section
variable {α β : Type} {on : α → β → Bool}

/-- The pairs that the condition relates. -/
def innerJoin (on : α → β → Bool) (left : List α) (right : List β) : List (α × β) :=
  left.flatMap fun a => (right.filter (on a)).map fun b => (a, b)

/-- The same, and a row without a partner with none. -/
def leftJoin (on : α → β → Bool) (left : List α) (right : List β) : List (α × Option β) :=
  left.flatMap fun a =>
    match right.filter (on a) with
    | [] => [(a, none)]
    | partners => partners.map fun b => (a, some b)

/-- A search for a property that one row has at most. -/
theorem find?_eq_some_iff {right : List β} {p : β → Bool} {b : β}
    (hone : ∀ b ∈ right, ∀ b' ∈ right, p b = true → p b' = true → b = b') :
    right.find? p = some b ↔ b ∈ right ∧ p b = true := by
  constructor
  · intro h
    exact ⟨List.mem_of_find?_eq_some h, List.find?_some h⟩
  · intro ⟨hb, hp⟩
    have hsome : (right.find? p).isSome = true := List.find?_isSome.mpr ⟨b, hb, hp⟩
    have ⟨b', hb'⟩ := Option.isSome_iff_exists.mp hsome
    rw [hb', hone b' (List.mem_of_find?_eq_some hb') b hb (List.find?_some hb') hp]

/-- Rows of a list without repetition that are pairwise equal are one row at most. -/
theorem filter_eq_toList {right : List β} (hnodup : right.Nodup) {p : β → Bool}
    (hone : ∀ b ∈ right, ∀ b' ∈ right, p b = true → p b' = true → b = b') :
    right.filter p = (right.find? p).toList := by
  induction right with
  | nil => rfl
  | cons b right ih =>
    rw [List.nodup_cons] at hnodup
    by_cases hb : p b = true
    · have hrest : right.filter p = [] := by
        rw [List.filter_eq_nil_iff]
        intro b' hb' hp
        have hsame := hone b List.mem_cons_self b' (List.mem_cons_of_mem b hb') hb hp
        exact hnodup.1 (hsame ▸ hb')
      rw [List.filter_cons_of_pos hb, List.find?_cons_of_pos hb, hrest, Option.toList_some]
    · rw [List.filter_cons_of_neg hb, List.find?_cons_of_neg hb]
      exact ih hnodup.2 fun c hc c' hc' =>
        hone c (List.mem_cons_of_mem b hc) c' (List.mem_cons_of_mem b hc')

/-- A left join on a key of the right rows: each left row once, with its partner. -/
theorem leftJoin_eq_map {left : List α} {right : List β} (hnodup : right.Nodup)
    (hone : ∀ a, ∀ b ∈ right, ∀ b' ∈ right, on a b = true → on a b' = true → b = b') :
    leftJoin on left right = left.map fun a => (a, right.find? (on a)) := by
  induction left with
  | nil => rfl
  | cons a left ih =>
    have hpartner := filter_eq_toList hnodup (hone a)
    show (match right.filter (on a) with
      | [] => [(a, none)]
      | partners => partners.map fun b => (a, some b)) ++ leftJoin on left right =
        (a, right.find? (on a)) :: left.map fun a => (a, right.find? (on a))
    rw [ih, hpartner]
    cases right.find? (on a) <;> rfl

/-- Of two conditions that exclude each other, one or the other. -/
theorem countP_or_of_disjoint {p q : β → Bool} {l : List β}
    (hdisjoint : ∀ b ∈ l, p b = true → q b = true → False) :
    l.countP (fun b => p b || q b) = l.countP p + l.countP q := by
  induction l with
  | nil => rfl
  | cons b l ih =>
    have htail := ih fun c hc => hdisjoint c (List.mem_cons_of_mem b hc)
    have hhead := hdisjoint b List.mem_cons_self
    simp only [List.countP_cons, htail]
    cases hp : p b <;> cases hq : q b
    · simp
    · simp
      omega
    · simp
      omega
    · exact (hhead hp hq).elim

/-- The pairs with a property, counted on the right: a right row has one partner in such a pair at
most. -/
theorem countP_innerJoin {left : List α} {right : List β} {P : α × β → Bool} (hnodup : left.Nodup)
    (hone : ∀ b, ∀ a ∈ left, ∀ a' ∈ left, on a b && P (a, b) → on a' b && P (a', b) → a = a') :
    (innerJoin on left right).countP P =
      right.countP fun b => left.any fun a => on a b && P (a, b) := by
  induction left with
  | nil => simp [innerJoin]
  | cons a left ih =>
    rw [List.nodup_cons] at hnodup
    have htail := ih hnodup.2 fun b c hc c' hc' =>
      hone b c (List.mem_cons_of_mem a hc) c' (List.mem_cons_of_mem a hc')
    have hcons : innerJoin on (a :: left) right =
        ((right.filter (on a)).map fun b => (a, b)) ++ innerJoin on left right := rfl
    have hown : ((right.filter (on a)).map fun b => (a, b)).countP P =
        right.countP fun b => on a b && P (a, b) := by
      rw [List.countP_map, List.countP_filter]
      exact List.countP_congr fun b _ => by simp [and_comm]
    rw [hcons, List.countP_append, hown, htail]
    simp only [List.any_cons]
    refine (countP_or_of_disjoint ?_).symm
    intro b _ hhere hthere
    obtain ⟨a', ha', hpair⟩ := List.any_eq_true.mp hthere
    have hsame := hone b a List.mem_cons_self a' (List.mem_cons_of_mem a ha') hhere hpair
    exact hnodup.1 (hsame ▸ ha')

end

end RedTeaming.Library
