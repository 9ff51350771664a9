import Mathlib.Data.List.Chain
import RedTeaming.Library.Transition

/-!
# `RedTeaming.Library.Paths`: the moves of a thing along a graph

A `Move` leaves one place and enters another. `IsPath edge a ms b` says that the moves `ms` lead
from `a` to `b` along the edges. Along a graph without loops, a place that was left is left again
only after it was entered anew (`IsPath.entered_again`).

`states` lists the states that a run passes, and `isChain_states` relates every two successive
ones. `isChain_filterMap` reads a path off the states of a run, some of which may have no place.

Nothing here names a program.
-/

set_option autoImplicit false

namespace RedTeaming.Library

/-- A move from one place to another. -/
structure Move (α : Type) where
  left : α
  entered : α
deriving DecidableEq, Repr

section
variable {α : Type} {edge : α → α → Prop}

variable (edge) in
/-- The moves lead from the first place to the last one, along the edges. -/
def IsPath : α → List (Move α) → α → Prop
  | a, [], b => a = b
  | a, m :: ms, b => m.left = a ∧ edge m.left m.entered ∧ IsPath m.entered ms b

/-- Two paths, one after the other. -/
theorem isPath_append {a b : α} {ms ms' : List (Move α)} :
    IsPath edge a (ms ++ ms') b ↔ ∃ c, IsPath edge a ms c ∧ IsPath edge c ms' b := by
  induction ms generalizing a with
  | nil => simp [IsPath]
  | cons m ms ih => simp [IsPath, ih, and_assoc]

/-- A path with one more move. -/
theorem IsPath.concat {a b c : α} {ms : List (Move α)} (h : IsPath edge a ms b)
    (hedge : edge b c) : IsPath edge a (ms ++ [⟨b, c⟩]) c :=
  isPath_append.mpr ⟨b, h, rfl, hedge, rfl⟩

/-- The last move of a path enters its end. -/
theorem IsPath.exists_entered {a b : α} {ms : List (Move α)} (h : IsPath edge a ms b)
    (hne : a ≠ b) :
    ∃ m ∈ ms, m.entered = b := by
  induction ms generalizing a with
  | nil => exact absurd h hne
  | cons m ms ih =>
    by_cases hend : m.entered = b
    · exact ⟨m, List.mem_cons_self, hend⟩
    · obtain ⟨m', hm', hentered⟩ := ih h.2.2 hend
      exact ⟨m', List.mem_cons_of_mem _ hm', hentered⟩

/-- Two moves of a path leave one place only when a move between them enters it. -/
theorem IsPath.entered_again {a b : α} {before between after : List (Move α)} {m m' : Move α}
    (hirrefl : ∀ c, ¬ edge c c) (h : IsPath edge a (before ++ m :: (between ++ m' :: after)) b)
    (hsame : m.left = m'.left) : ∃ n ∈ between, n.entered = m'.left := by
  obtain ⟨_, -, -, hedge, hrest⟩ := isPath_append.mp h
  obtain ⟨c, hbetween, hleft, -⟩ := isPath_append.mp hrest
  rw [← hleft] at hbetween
  refine hbetween.exists_entered fun hloop => ?_
  rw [hloop, hsame] at hedge
  exact hirrefl _ hedge

end

section
variable {σ ℓ : Type} {step : σ → ℓ → Option σ}

/-! ### The states that a run passes -/

variable (step) in
/-- The states that the run of `ls` from `s` passes, the first one included. -/
def states : σ → List ℓ → List σ
  | s, [] => [s]
  | s, l :: ls => s :: ((step s l).map fun s' => states s' ls).getD []

/-- A run begins in its first state. -/
theorem states_eq_cons (s : σ) (ls : List ℓ) : ∃ rest, states step s ls = s :: rest := by
  cases ls with
  | nil => exact ⟨[], rfl⟩
  | cons l ls => exact ⟨_, rfl⟩

/-- What a step from an invariant state relates, every two successive states of a run are related
by. -/
theorem isChain_states {I : σ → Prop} {R : σ → σ → Prop}
    (hstep : ∀ s l s', I s → step s l = some s' → I s' ∧ R s s') {s : σ} {ls : List ℓ} (h : I s) :
    (states step s ls).IsChain R := by
  induction ls generalizing s with
  | nil => exact List.isChain_singleton s
  | cons l ls ih =>
    cases hnext : step s l with
    | none => simp [states, hnext]
    | some s' =>
      obtain ⟨hI, hR⟩ := hstep s l s' h hnext
      obtain ⟨rest, hrest⟩ := @states_eq_cons _ _ step s' ls
      have hlater := ih hI
      have heq : states step s (l :: ls) = s :: s' :: rest := by simp [states, hnext, hrest]
      rw [hrest] at hlater
      rw [heq, List.isChain_cons_cons]
      exact ⟨hR, hlater⟩

end

/-- A relation between successive things is one between the successive values that some of them
have, when whatever follows a thing with a value has one, too. -/
theorem isChain_filterMap {σ α : Type} {R : σ → σ → Prop} {Q : α → α → Prop} {f : σ → Option α}
    (h : ∀ s s' a, R s s' → f s = some a → ∃ b, f s' = some b ∧ Q a b) {l : List σ}
    (hchain : l.IsChain R) : (l.filterMap f).IsChain Q := by
  induction l with
  | nil => exact List.isChain_nil
  | cons s l ih =>
    have hlater := ih hchain.tail
    cases hs : f s with
    | none =>
      rw [List.filterMap_cons_none hs]
      exact hlater
    | some a =>
      rw [List.filterMap_cons_some hs]
      cases l with
      | nil => exact List.isChain_singleton a
      | cons s' l =>
        obtain ⟨b, hb, hab⟩ := h s s' a (List.isChain_cons_cons.mp hchain).1 hs
        rw [List.filterMap_cons_some hb] at hlater ⊢
        exact List.isChain_cons_cons.mpr ⟨hab, hlater⟩

end RedTeaming.Library
