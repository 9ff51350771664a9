import RedTeaming.Auth.Roles
import RedTeaming.SoftDelete

/-!
# `RedTeaming.Annotations.Rows`: submissions

The rows of `message_flags` and `flagged_messages` in `core/annotations/models.py`. A flag is a
submission: it marks messages of one conversation. The evaluation and the scenario are copied from
the conversation when the flag is made.
-/

set_option autoImplicit false

namespace RedTeaming.Annotations

open RedTeaming.Auth

/-- `FlagStatus`: the review status of a submission. -/
inductive FlagStatus
  | pending | approved | rejected
deriving DecidableEq, Repr

/-- A row of `message_flags`. -/
structure MessageFlag extends BaseModel where
  status : FlagStatus := .pending
  createdById : UserId
  conversationId : UUID
  evaluationId : UUID
  scenarioId : Option UUID := none
  taskId : Option UUID := none
deriving DecidableEq

/-- A row of `flagged_messages`: one message that a flag selects. -/
structure FlaggedMessage where
  messageFlagId : UUID
  messageId : UUID
deriving DecidableEq

instance : Entity MessageFlag :=
  ⟨(·.toBaseModel), fun r b => { r with toBaseModel := b }, fun _ _ => rfl⟩

end RedTeaming.Annotations
