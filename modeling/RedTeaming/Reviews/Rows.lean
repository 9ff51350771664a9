import RedTeaming.Annotations.Rows
import RedTeaming.SoftDelete

/-!
# `RedTeaming.Reviews.Rows`: verdicts on submissions

The rows of `reviews` in `core/reviews/models.py`. A review is the verdict of one reviewer on one
flag. The evaluation is copied from the flag when the reviewer is assigned, and the verdict is
empty until the reviewer submits it.

The analytics read `Review`. The services of the reviews read the other columns too: those of
`Assignment`, and the group of a flag (`Submission`).
-/

set_option autoImplicit false

namespace RedTeaming.Reviews

/-- `ReviewStatus`. -/
inductive ReviewStatus
  | pending | approved | rejected
deriving DecidableEq, Repr

/-- A row of `reviews`. -/
structure Review extends BaseModel where
  messageFlagId : UUID
  evaluationId : UUID
  status : ReviewStatus := .pending
  successfulExploit : Option Bool := none
  uniqueExploit : Option Bool := none
  validSubmission : Option Bool := none
deriving DecidableEq

instance : Entity Review :=
  ⟨(·.toBaseModel), fun r b => { r with toBaseModel := b }, fun _ _ => rfl⟩

/-- A row of `reviews` with the columns that its services read. -/
structure Assignment extends Review where
  reviewerId : Auth.UserId
  assignedById : Auth.UserId
  numberPrompts : Option Nat := none
  notes : Option String := none
deriving DecidableEq

/-- A row of `message_flags` with its group, which is copied as its evaluation is. -/
structure Submission extends Annotations.MessageFlag where
  evaluationGroupId : UUID
deriving DecidableEq

instance : Entity Assignment :=
  ⟨(·.toBaseModel), fun r b => { r with toBaseModel := b }, fun _ _ => rfl⟩
instance : Entity Submission :=
  ⟨(·.toBaseModel), fun r b => { r with toBaseModel := b }, fun _ _ => rfl⟩

end RedTeaming.Reviews
