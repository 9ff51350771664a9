import RedTeaming.Library.Lookup
import RedTeaming.Library.Transition

/-!
# `RedTeaming.Library.Records`: the open parties of a system

A map from the parties to their records: `none` when the party is not there. A step writes the
record of one party (`set`), or takes it away (`drop`). What holds of every record is kept by a
step that keeps it of the others, and grants it to the one it writes (`forall_set`,
`forall_drop`). `eq_of_run` is the frame of a whole run for a party that takes no step of it.

Nothing here names a program. The parties and the records are parameters.
-/

set_option autoImplicit false

namespace RedTeaming.Library

/-- The record of each party that is there. -/
abbrev Records (τ ρ : Type) := τ → Option ρ

namespace Records

section
variable {τ ρ : Type} [DecidableEq τ]

/-- Write the record of a party. -/
def set (records : Records τ ρ) (t : τ) (r : ρ) : Records τ ρ :=
  Function.update records t (some r)

/-- Take a party away. -/
def drop (records : Records τ ρ) (t : τ) : Records τ ρ := Function.update records t none

variable {records : Records τ ρ} {t t' : τ} {r r' : ρ}

@[simp] theorem set_self : records.set t r t = some r := Function.update_self _ _ _

/-- The other records stay. -/
theorem set_of_ne (h : t' ≠ t) : records.set t r t' = records t' := Function.update_of_ne h _ _

@[simp] theorem drop_self : records.drop t t = none := Function.update_self _ _ _

/-- The other parties stay. -/
theorem drop_of_ne (h : t' ≠ t) : records.drop t t' = records t' := Function.update_of_ne h _ _

/-- A record after one was written is that one, or was there before. -/
theorem of_set (h : records.set t r t' = some r') :
    (t' = t ∧ r' = r) ∨ (t' ≠ t ∧ records t' = some r') := by
  rcases update_some_eq_some.mp h with ⟨rfl, rfl⟩ | hold
  · exact Or.inl ⟨rfl, rfl⟩
  · exact Or.inr hold

/-- A record after a party went was there before. -/
theorem of_drop (h : records.drop t t' = some r') : t' ≠ t ∧ records t' = some r' :=
  update_none_eq_some.mp h

variable {P : τ → ρ → Prop}

/-- What holds of the written record and of the other ones holds of all. -/
theorem forall_set (hself : P t r) (hother : ∀ t' r', t' ≠ t → records t' = some r' → P t' r') :
    ∀ t' r', records.set t r t' = some r' → P t' r' := by
  intro t' r' h
  rcases of_set h with ⟨rfl, rfl⟩ | ⟨hne, h⟩
  · exact hself
  · exact hother t' r' hne h

/-- What holds of the other records holds of all when a party goes. -/
theorem forall_drop (hother : ∀ t' r', t' ≠ t → records t' = some r' → P t' r') :
    ∀ t' r', records.drop t t' = some r' → P t' r' := by
  intro t' r' h
  obtain ⟨hne, h⟩ := of_drop h
  exact hother t' r' hne h

end

/-- A party that takes no step of a run keeps its record, when each step writes only the record of
its own party. -/
theorem eq_of_run {σ ℓ τ ρ : Type} {step : σ → ℓ → Option σ} {records : σ → Records τ ρ}
    {party : ℓ → τ}
    (hframe : ∀ s l s' t, step s l = some s' → t ≠ party l → records s' t = records s t)
    {s s' : σ} {ls : List ℓ} {t : τ} (hne : ∀ l ∈ ls, t ≠ party l)
    (hrun : run step s ls = some s') : records s' t = records s t := by
  induction ls generalizing s with
  | nil =>
    cases hrun
    rfl
  | cons l ls ih =>
    obtain ⟨s₁, h₁, h₂⟩ := (run_cons_eq_some step).mp hrun
    have hrest : ∀ l' ∈ ls, t ≠ party l' := fun l' hl' => hne l' (List.mem_cons_of_mem _ hl')
    rw [ih hrest h₂]
    exact hframe s l s₁ t h₁ (hne l List.mem_cons_self)

end Records

end RedTeaming.Library
