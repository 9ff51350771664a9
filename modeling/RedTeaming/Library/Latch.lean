import Mathlib.Data.List.Induction

/-!
# `RedTeaming.Library.Latch`: a value that is set once and held until a reset

A history is a list of signals. `latch` is what is held after them: a `set` holds its value, a
`reset` holds nothing, and a `keep` changes nothing. Two facts are read off a history. A latch
that is open after a `set` was reset in between (`reset_mem_of_latch`). And what is held was set
after the last reset (`exists_of_latch`).

Nothing here names a program. The values are a parameter.
-/

set_option autoImplicit false

namespace RedTeaming.Library

section
variable {α : Type}

/-- What an event does to a latch. -/
inductive Signal (α : Type)
  | set (a : α)
  | reset
  | keep
deriving DecidableEq

/-- What is held after a signal. -/
def Signal.apply : Signal α → Option α → Option α
  | .set a, _ => some a
  | .reset, _ => none
  | .keep, held => held

/-- What is held after a history. The latch is open at the start. -/
def latch (signals : List (Signal α)) : Option α :=
  signals.foldl (fun held signal => signal.apply held) none

@[simp] theorem latch_nil : latch ([] : List (Signal α)) = none := rfl

@[simp] theorem latch_concat (signals : List (Signal α)) (signal : Signal α) :
    latch (signals ++ [signal]) = signal.apply (latch signals) := by
  simp [latch]

variable {signals before after : List (Signal α)} {a : α}

/-- Without a reset, a latch that holds something goes on to do so. -/
theorem isSome_latch_append (h : (latch before).isSome) (hno : .reset ∉ after) :
    (latch (before ++ after)).isSome := by
  induction after using List.reverseRecOn with
  | nil => simpa using h
  | append_singleton after signal ih =>
    rw [List.mem_append, List.mem_singleton, not_or] at hno
    rw [← List.append_assoc, latch_concat]
    cases signal with
    | set a => rfl
    | reset => exact absurd rfl hno.2
    | keep => exact ih hno.1

/-- A latch that is open after it was set was reset since. -/
theorem reset_mem_of_latch (h : latch (before ++ .set a :: after) = none) : .reset ∈ after := by
  by_contra hno
  have hset : (latch (before ++ [.set a])).isSome := by
    rw [latch_concat]
    rfl
  have hsome := isSome_latch_append hset hno
  rw [List.append_assoc, List.singleton_append, h] at hsome
  cases hsome

/-- What a latch holds was set, and not reset since. -/
theorem exists_of_latch (h : latch signals = some a) :
    ∃ before after, signals = before ++ .set a :: after ∧ .reset ∉ after := by
  induction signals using List.reverseRecOn with
  | nil => cases h
  | append_singleton signals signal ih =>
    rw [latch_concat] at h
    cases signal with
    | set b =>
      cases h
      exact ⟨signals, [], rfl, List.not_mem_nil⟩
    | reset => cases h
    | keep =>
      obtain ⟨before, after, rfl, hno⟩ := ih h
      refine ⟨before, after ++ [.keep], by simp, ?_⟩
      simp [hno]

end

end RedTeaming.Library
