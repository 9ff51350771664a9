import Mathlib.Data.Option.Basic

/-!
# `RedTeaming.Library.Versions`: a row with one uncommitted version

A row of a database under READ COMMITTED. Everybody reads the committed version. A transaction
that updates the row writes a new version and so takes the lock of the row: no other transaction
can update the row until this one commits or rolls back.

`Sound R r` says that the uncommitted version comes from the committed one by `R`. The lock is
what keeps it: nobody else can change the committed version in the meantime. So each commit moves
the committed version along `R` (`committed_commit`).

Nothing here names a program. The versions, the transactions and the relation are parameters.
-/

set_option autoImplicit false

namespace RedTeaming.Library

/-- The committed version of a row, and the version of the transaction that holds its lock. -/
structure Versioned (α τ : Type) where
  committed : α
  pending : Option (τ × α) := none

namespace Versioned

variable {α τ : Type}

/-- Write a version, which takes the lock. `none` is a wait for the transaction that holds it. -/
def write (r : Versioned α τ) (t : τ) (v : α) : Option (Versioned α τ) :=
  match r.pending with
  | none => some { r with pending := some (t, v) }
  | some _ => none

/-- Write a version, the first one or one more. It waits for another transaction that holds the
lock. -/
def rewrite [DecidableEq τ] (r : Versioned α τ) (t : τ) (v : α) : Option (Versioned α τ) :=
  match r.pending with
  | none => some { r with pending := some (t, v) }
  | some (t', _) => if t' = t then some { r with pending := some (t, v) } else none

/-- What a statement of `t` reads: its own version, or the committed one. -/
def view [DecidableEq τ] (r : Versioned α τ) (t : τ) : α :=
  match r.pending with
  | none => r.committed
  | some (t', v) => if t' = t then v else r.committed

/-- The row after the commit of `t`. -/
def commit [DecidableEq τ] (r : Versioned α τ) (t : τ) : Versioned α τ :=
  match r.pending with
  | none => r
  | some (t', v) => if t' = t then { committed := v } else r

/-- The row after the rollback of `t`. -/
def rollback [DecidableEq τ] (r : Versioned α τ) (t : τ) : Versioned α τ :=
  match r.pending with
  | none => r
  | some (t', _) => if t' = t then { committed := r.committed } else r

/-- The transaction holds the lock. -/
def HeldBy (r : Versioned α τ) (t : τ) : Prop := ∃ v, r.pending = some (t, v)

/-- The uncommitted version comes from the committed one by `R`. -/
def Sound (R : α → α → Prop) (r : Versioned α τ) : Prop :=
  ∀ t v, r.pending = some (t, v) → R r.committed v

/-- Only one transaction holds the lock. -/
theorem HeldBy.unique {r : Versioned α τ} {t t' : τ} (h : r.HeldBy t) (h' : r.HeldBy t') :
    t = t' := by
  obtain ⟨v, hv⟩ := h
  obtain ⟨v', hv'⟩ := h'
  rw [hv] at hv'
  cases hv'
  rfl

/-- A write needs the lock, and leaves the committed version. -/
theorem write_eq_some {r r' : Versioned α τ} {t : τ} {v : α} (h : r.write t v = some r') :
    r.pending = none ∧ r' = { r with pending := some (t, v) } := by
  unfold write at h
  cases hpending : r.pending with
  | none =>
    rw [hpending] at h
    exact ⟨rfl, (Option.some.inj h).symm⟩
  | some p =>
    rw [hpending] at h
    cases h

/-- A version is written again by nobody but the holder, and leaves the committed one. -/
theorem rewrite_eq_some [DecidableEq τ] {r r' : Versioned α τ} {t : τ} {v : α}
    (h : r.rewrite t v = some r') :
    (∀ t', r.HeldBy t' → t' = t) ∧ r' = { r with pending := some (t, v) } := by
  unfold rewrite at h
  cases hpending : r.pending with
  | none =>
    rw [hpending] at h
    refine ⟨?_, (Option.some.inj h).symm⟩
    rintro t' ⟨v', hheld⟩
    rw [hpending] at hheld
    cases hheld
  | some p =>
    obtain ⟨t₁, v₁⟩ := p
    simp only [hpending] at h
    split at h
    · rename_i hsame
      refine ⟨?_, (Option.some.inj h).symm⟩
      rintro t' ⟨v', hheld⟩
      rw [hpending] at hheld
      cases hheld
      exact hsame
    · cases h

/-- A property of the committed version and of the uncommitted one holds of what is read. -/
theorem view_of_forall [DecidableEq τ] {P : α → Prop} {r : Versioned α τ}
    (hcommitted : P r.committed) (hpending : ∀ t v, r.pending = some (t, v) → P v) (t : τ) :
    P (r.view t) := by
  unfold view
  cases heq : r.pending with
  | none => exact hcommitted
  | some p =>
    obtain ⟨t', v⟩ := p
    by_cases hsame : t' = t
    · simp only [if_pos hsame]
      exact hpending t' v heq
    · simp only [if_neg hsame]
      exact hcommitted

/-- The commit of the holder makes its version the committed one. -/
theorem commit_of_pending [DecidableEq τ] {r : Versioned α τ} {t : τ} {v : α}
    (h : r.pending = some (t, v)) : r.commit t = { committed := v } := by
  simp only [commit, h, if_true]

/-- The commit of a transaction that wrote nothing changes nothing. -/
theorem commit_of_not_held [DecidableEq τ] {r : Versioned α τ} {t : τ} (h : ¬ r.HeldBy t) :
    r.commit t = r := by
  unfold commit
  cases hpending : r.pending with
  | none => rfl
  | some p =>
    obtain ⟨t', v⟩ := p
    have hne : t' ≠ t := fun heq => h ⟨v, heq ▸ hpending⟩
    simp only [if_neg hne]

/-- A rollback leaves the committed version. -/
@[simp] theorem committed_rollback [DecidableEq τ] (r : Versioned α τ) (t : τ) :
    (r.rollback t).committed = r.committed := by
  unfold rollback
  split
  · rfl
  · split <;> rfl

/-- What is still uncommitted after a rollback was so before, and is of another transaction. -/
theorem pending_rollback [DecidableEq τ] {r : Versioned α τ} {t t' : τ} {v : α} :
    (r.rollback t).pending = some (t', v) ↔ r.pending = some (t', v) ∧ t' ≠ t := by
  unfold rollback
  cases hpending : r.pending with
  | none => simp [hpending]
  | some p =>
    obtain ⟨t₁, v₁⟩ := p
    by_cases h : t₁ = t
    · subst h
      simp only [if_true, reduceCtorEq, Option.some.injEq, Prod.mk.injEq, false_iff]
      intro h
      exact h.2 h.1.1.symm
    · simp only [if_neg h, hpending]
      constructor
      · intro h'
        cases h'
        exact ⟨rfl, h⟩
      · exact And.left

/-- A written version that `R` allows keeps the row sound. -/
theorem Sound.write {R : α → α → Prop} {r r' : Versioned α τ} {t : τ} {v : α}
    (hR : R r.committed v) (h : r.write t v = some r') : r'.Sound R := by
  obtain ⟨-, rfl⟩ := write_eq_some h
  intro t₁ v₁ hpending
  cases hpending
  exact hR

/-- A commit keeps the row sound. -/
theorem Sound.commit [DecidableEq τ] {R : α → α → Prop} {r : Versioned α τ} (h : r.Sound R)
    (t : τ) : (r.commit t).Sound R := by
  by_cases hheld : r.HeldBy t
  · obtain ⟨v, hv⟩ := hheld
    rw [commit_of_pending hv]
    intro t₁ v₁ hpending
    cases hpending
  · rw [commit_of_not_held hheld]
    exact h

/-- A rollback keeps the row sound. -/
theorem Sound.rollback [DecidableEq τ] {R : α → α → Prop} {r : Versioned α τ} (h : r.Sound R)
    (t : τ) : (r.rollback t).Sound R := by
  intro t₁ v₁ hpending
  rw [committed_rollback]
  exact h t₁ v₁ (pending_rollback.mp hpending).1

/-- A commit leaves the committed version or moves it along `R`. -/
theorem Sound.committed_commit [DecidableEq τ] {R : α → α → Prop} {r : Versioned α τ}
    (h : r.Sound R) (t : τ) :
    (r.commit t).committed = r.committed ∨ R r.committed (r.commit t).committed := by
  by_cases hheld : r.HeldBy t
  · obtain ⟨v, hv⟩ := hheld
    rw [commit_of_pending hv]
    exact .inr (h t v hv)
  · rw [commit_of_not_held hheld]
    exact .inl rfl

end Versioned

end RedTeaming.Library
