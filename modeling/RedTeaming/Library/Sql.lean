import Mathlib.Data.Option.Basic

/-!
# `RedTeaming.Library.Sql`: three-valued conditions

A condition of a query is true, false, or unknown. `Truth` is `Option Bool`, with `none` for
unknown. A comparison with a NULL operand is unknown, `AND` and `OR` follow Kleene's tables, and a
`WHERE` selects a row only when its condition is true.

`selects_and`, `selects_or`, `selects_eq`, and `selects_known` turn the selection of a row into a
proposition without NULL.

Nothing here names a program.
-/

set_option autoImplicit false

namespace RedTeaming.Library.Sql

/-- A truth value: `none` is unknown. -/
abbrev Truth := Option Bool

/-- A condition without NULL operands. -/
def known (b : Bool) : Truth := some b

/-- `a = b`: unknown when an operand is NULL. -/
def eq {α : Type} [DecidableEq α] : Option α → Option α → Truth
  | some a, some b => some (decide (a = b))
  | _, _ => none

/-- `a AND b`: false as soon as one side is false. -/
def and : Truth → Truth → Truth
  | some false, _ => some false
  | _, some false => some false
  | some true, some true => some true
  | _, _ => none

/-- `a OR b`: true as soon as one side is true. -/
def or : Truth → Truth → Truth
  | some true, _ => some true
  | _, some true => some true
  | some false, some false => some false
  | _, _ => none

/-- A `WHERE` selects the rows whose condition is true. -/
def selects (t : Truth) : Bool := t == some true

/-- A condition without NULL selects when it holds. -/
@[simp] theorem selects_known {b : Bool} : selects (known b) = b := by
  cases b <;> rfl

/-- A conjunction selects when both sides select. -/
@[simp] theorem selects_and {a b : Truth} : selects (and a b) = (selects a && selects b) := by
  rcases a with _ | _ | _ <;> rcases b with _ | _ | _ <;> rfl

/-- A disjunction selects when one side selects. -/
@[simp] theorem selects_or {a b : Truth} : selects (or a b) = (selects a || selects b) := by
  rcases a with _ | _ | _ <;> rcases b with _ | _ | _ <;> rfl

/-- A comparison selects when both operands are the same value. NULL equals nothing. -/
theorem selects_eq {α : Type} [DecidableEq α] {a b : Option α} :
    selects (eq a b) = true ↔ ∃ x, a = some x ∧ b = some x := by
  rcases a with _ | a <;> rcases b with _ | b <;> simp [selects, eq, eq_comm]

end RedTeaming.Library.Sql
