import Mathlib.Logic.Function.Basic

/-!
# `RedTeaming.Library.Locks`: exclusive row locks

A lock table maps a key to the transaction that holds it. A transaction may take a key that is
free or its own, and holds what it took until it ends (`release`). So no step of a transaction
takes a lock from another one: `held_take` and `held_release`.

Nothing here names a program. The keys and the transactions are parameters.
-/

set_option autoImplicit false

namespace RedTeaming.Library

/-- The holder of each key. -/
abbrev Locks (κ τ : Type) := κ → Option τ

namespace Locks

/-- The key is free, or held by `t` itself. -/
def mayTake {κ τ : Type} [DecidableEq τ] (locks : Locks κ τ) (k : κ) (t : τ) : Bool :=
  match locks k with
  | none => true
  | some t' => t' == t

/-- The table after `t` took a key. -/
def take {κ τ : Type} [DecidableEq κ] (locks : Locks κ τ) (k : κ) (t : τ) : Locks κ τ :=
  Function.update locks k (some t)

/-- The table after `t` ended. -/
def release {κ τ : Type} [DecidableEq τ] (locks : Locks κ τ) (t : τ) : Locks κ τ :=
  fun k => if locks k = some t then none else locks k

/-- Who takes a key holds it. -/
theorem take_self {κ τ : Type} [DecidableEq κ] (locks : Locks κ τ) (k : κ) (t : τ) :
    locks.take k t k = some t := Function.update_self _ _ _

/-- Taking a key leaves the other ones. -/
theorem take_of_ne {κ τ : Type} [DecidableEq κ] {locks : Locks κ τ} {k k' : κ} {t : τ}
    (h : k' ≠ k) : locks.take k t k' = locks k' := Function.update_of_ne h _ _

/-- Taking a key takes it from nobody. -/
theorem held_take {κ τ : Type} [DecidableEq κ] [DecidableEq τ] {locks : Locks κ τ} {k k' : κ}
    {t t' : τ} (h : locks.mayTake k t = true) (hheld : locks k' = some t') :
    locks.take k t k' = some t' := by
  by_cases hk : k' = k
  · subst hk
    rw [mayTake, hheld] at h
    rw [take_self, beq_iff_eq.mp h]
  · rw [take, Function.update_of_ne hk]
    exact hheld

/-- A key that `t` may take stays one while `t` takes others. -/
theorem mayTake_take {κ τ : Type} [DecidableEq κ] [DecidableEq τ] {locks : Locks κ τ} {k k' : κ}
    {t : τ} (h : locks.mayTake k' t = true) : (locks.take k t).mayTake k' t = true := by
  by_cases hk : k' = k
  · subst hk
    rw [mayTake, take_self]
    exact beq_self_eq_true t
  · rw [mayTake, take, Function.update_of_ne hk]
    exact h

/-- The table after `t` took several keys. -/
def takeAll {κ τ : Type} [DecidableEq κ] (locks : Locks κ τ) (ks : List κ) (t : τ) : Locks κ τ :=
  ks.foldl (fun locks k => locks.take k t) locks

/-- Taking several keys takes them from nobody. -/
theorem held_takeAll {κ τ : Type} [DecidableEq κ] [DecidableEq τ]
    {locks : Locks κ τ} {ks : List κ} {k' : κ} {t t' : τ} (h : ∀ k ∈ ks, locks.mayTake k t = true)
    (hheld : locks k' = some t') :
    locks.takeAll ks t k' = some t' := by
  induction ks generalizing locks with
  | nil => exact hheld
  | cons k ks ih =>
    apply ih
    · intro k₁ hk₁
      exact mayTake_take (h k₁ (List.mem_cons_of_mem _ hk₁))
    · exact held_take (h k List.mem_cons_self) hheld

/-- Who takes several keys holds each of them. -/
theorem takeAll_self {κ τ : Type} [DecidableEq κ] [DecidableEq τ]
    {locks : Locks κ τ} {ks : List κ} {k : κ} {t : τ} (h : ∀ k ∈ ks, locks.mayTake k t = true)
    (hk : k ∈ ks) :
    locks.takeAll ks t k = some t := by
  induction ks generalizing locks with
  | nil => cases hk
  | cons k₁ ks ih =>
    have hrest : ∀ k₂ ∈ ks, (locks.take k₁ t).mayTake k₂ t = true :=
      fun k₂ hk₂ => mayTake_take (h k₂ (List.mem_cons_of_mem _ hk₂))
    rcases List.mem_cons.mp hk with rfl | hk
    · show (locks.take k t).takeAll ks t k = some t
      exact held_takeAll hrest (take_self locks k t)
    · exact ih hrest hk

/-- The end of a transaction leaves the locks of the others. -/
theorem held_release {κ τ : Type} [DecidableEq τ] {locks : Locks κ τ} {k : κ} {t t' : τ}
    (hne : t' ≠ t) (hheld : locks k = some t') : locks.release t k = some t' := by
  have hother : locks k ≠ some t := by
    rw [hheld]
    exact fun h => hne (Option.some.inj h)
  rw [release, if_neg hother, hheld]

end Locks

end RedTeaming.Library
