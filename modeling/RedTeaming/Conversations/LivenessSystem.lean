import RedTeaming.Conversations.Rows
import RedTeaming.Library.Locks
import RedTeaming.Library.Records
import RedTeaming.Library.Transition

/-!
# `RedTeaming.Conversations.LivenessSystem`: models, assignments and conversations come and go

The routes that assign and unassign a model, delete and restore a model, restore an assignment,
and create, delete and restore a conversation, as concurrent transactions. The services are in
`services/assignments.py`, `services/ai_models.py` and `services/conversations.py`. A step is one
database statement of one transaction, or the lock of one row by such a statement.

- A statement reads the committed rows of its moment, and what its own transaction wrote (READ
  COMMITTED).
- `SELECT ... FOR UPDATE` of one row waits for a transaction that holds it, and reads it again
  then. It does not read again what it joined.
- The bulk `UPDATE` of a cascade fixes the rows it wants when it starts, and then comes to them
  one by one, in any order. It waits for a row that another transaction holds. Then it reads the
  row again, and passes over one that is not live any more.
- An assign and a create do not lock the parent that they check. A restore locks its own row only.
- Locks are held to the end of the transaction.

A transaction can end by `abort` at any time: an error of the service, or a deadlock. The checks
of these services on other tables (who may see the evaluation, the scenario, the group, the tags)
can only end a request, so they are such an abort. The share locks of the foreign keys are left
out. They can only make a request wait.

`assignmentLog` and `conversationLog` list the rows that were made live, in the order of the
commits. No step reads them.
-/

set_option autoImplicit false

namespace RedTeaming.Conversations.Liveness

open RedTeaming.Auth
open RedTeaming.Evaluations
open RedTeaming.Library

abbrev TxnId := Nat

/-- A request. -/
inductive Request
  | assignModel (evaluationId modelId : UUID) (modelDisplayMask : Option String)
      (parameters : JsonObject)
  | unassignModel (evaluationId assignmentId : UUID) (callerId : UserId)
  | restoreAssignment (evaluationId assignmentId : UUID) (deletedCutoff : Time)
  | deleteModel (modelId : UUID) (callerId : UserId)
  | restoreModel (modelId : UUID) (deletedCutoff : Time)
  | createConversation (payload : ConversationCreate)
  | deleteConversation (evaluationId conversationId : UUID) (callerId : UserId) (canManage : Bool)
  | restoreConversation (evaluationId conversationId : UUID) (callerId : UserId)
      (canManage : Bool) (deletedCutoff : Time)

/-- What the delete of a parent wrote so far: the tombstone of the model, if it deletes one, the
tombstones of assignments, and those of conversations. `assignmentMark` and `conversationMark` are
the lengths of the logs when the two cascades started. -/
structure Removal where
  model : Option AiModel := none
  assignments : List EvaluationAiModel := []
  conversations : List Conversation := []
  assignmentMark : Nat := 0
  conversationMark : Nat := 0

/-- Where a transaction is.

- An assign goes from `begun` over `checked` to `assigned`, and a create to `created`. A restore
  of an assignment or a conversation is `checked` before it locks its row.
- A delete of a model goes from `begun` over `modelFound`, `removing` and `unassigning` to
  `cascading`. An unassign goes from `begun` over `assignmentFound` and `removing` to `cascading`.
  `wanted` is what the bulk update still wants.
- The delete of a conversation and the restores go from `begun` over the lock of their row to the
  version that they wrote. -/
inductive Phase
  | begun
  | checked
  | modelFound (row : AiModel)
  | assignmentFound (row : EvaluationAiModel)
  | conversationFound (row : Conversation)
  | assigned (row : EvaluationAiModel)
  | assignmentRestored (row : EvaluationAiModel)
  | created (row : Conversation)
  | conversationRestored (row : Conversation)
  | conversationDeleted (row : Conversation)
  | modelRestored (row : AiModel)
  | removing (removal : Removal)
  | unassigning (removal : Removal) (wanted : List UUID)
  | cascading (removal : Removal) (wanted : List UUID)

/-- An open transaction. -/
structure Txn where
  request : Request
  phase : Phase := .begun

/-- The committed rows, and the logs. -/
structure Tables where
  models : Table AiModel
  assignments : Table EvaluationAiModel
  conversations : Table Conversation
  assignmentLog : List UUID := []
  conversationLog : List UUID := []

/-- The tables, the open transactions, and the locks. -/
structure State extends Tables where
  txns : Records TxnId Txn := fun _ => none
  modelLock : Locks UUID TxnId := fun _ => none
  assignmentLock : Locks UUID TxnId := fun _ => none
  conversationLock : Locks UUID TxnId := fun _ => none

/-! ### Reads -/

/-- `get_assignment` without a caller. -/
def getAssignment (db : Tables) (evaluationId assignmentId : UUID) : Option EvaluationAiModel :=
  (findLive db.assignments assignmentId).filter fun row => row.evaluationId == evaluationId

/-- The row that `get_restorable_assignment` locks. -/
def restorableAssignment (db : Tables) (evaluationId assignmentId : UUID) (deletedCutoff : Time) :
    Option EvaluationAiModel :=
  (findRestorable db.assignments deletedCutoff none assignmentId).filter fun row =>
    row.evaluationId == evaluationId

/-- `get_restorable_assignment`: a tombstone of a live model. -/
def getRestorableAssignment (db : Tables) (evaluationId assignmentId : UUID)
    (deletedCutoff : Time) : Option EvaluationAiModel :=
  (restorableAssignment db evaluationId assignmentId deletedCutoff).filter fun row =>
    (findLive db.models row.modelId).isSome

/-- `get_restorable_conversation`: a tombstone with a live assignment. -/
def getRestorableConversation (db : Tables) (evaluationId conversationId : UUID)
    (callerId : UserId) (canManage : Bool) (deletedCutoff : Time) : Option Conversation :=
  (restorableConversation db.conversations evaluationId conversationId callerId canManage
    deletedCutoff).filter fun row => (findLive db.assignments row.evaluationAiModelId).isSome

/-- A live assignment of the model to the evaluation, other than this row. -/
def assignmentTaken (db : Tables) (row : EvaluationAiModel) : Bool :=
  (liveSelect db.assignments).any fun other =>
    other.evaluationId == row.evaluationId && other.modelId == row.modelId && key other != key row

/-- A live model has the name or the alias. -/
def modelTaken (db : Tables) (row : AiModel) : Bool :=
  (liveSelect db.models).any fun other =>
    (other.name == row.name || other.modelAlias == row.modelAlias) && key other != key row

/-- The assignments whose conversations a delete takes along: the one that it unassigned, or all
of the model, live or not. -/
def targets (db : Tables) (removal : Removal) : List UUID :=
  match removal.model with
  | none => removal.assignments.map key
  | some model =>
    ((db.assignments.overwrite removal.assignments).rows.filter fun row =>
      row.modelId == key model).map key

namespace State

/-- Write the record of a transaction. -/
def setTxn (s : State) (t : TxnId) (txn : Txn) : State := { s with txns := s.txns.set t txn }

/-- Move a transaction on. -/
def goto (s : State) (t : TxnId) (txn : Txn) (phase : Phase) : State :=
  s.setTxn t { txn with phase }

/-- Start a request. -/
def begin (s : State) (t : TxnId) (request : Request) : Option State :=
  match s.txns t with
  | none => some (s.setTxn t { request })
  | some _ => none

/-- The read that checks the parent: `get_model` of an assign, `get_assignment` of a create, and
the joins of `get_restorable_assignment` and `get_restorable_conversation`. -/
def check (s : State) (t : TxnId) (txn : Txn) : Option State :=
  match txn.phase, txn.request with
  | .begun, .assignModel _ modelId _ _ =>
    if (findLive s.models modelId).isSome then some (s.goto t txn .checked) else none
  | .begun, .createConversation payload =>
    if (getAssignment s.toTables payload.evaluationId payload.evaluationAiModelId).isSome then
      some (s.goto t txn .checked)
    else none
  | .begun, .restoreAssignment evaluationId assignmentId deletedCutoff =>
    if (getRestorableAssignment s.toTables evaluationId assignmentId deletedCutoff).isSome then
      some (s.goto t txn .checked)
    else none
  | .begun, .restoreConversation evaluationId conversationId callerId canManage deletedCutoff =>
    if (getRestorableConversation s.toTables evaluationId conversationId callerId canManage
        deletedCutoff).isSome then
      some (s.goto t txn .checked)
    else none
  | _, _ => none

/-- `get_model(for_update=True)`, and `get_restorable_model`. -/
def lockModel (s : State) (t : TxnId) (txn : Txn) : Option State :=
  match txn.phase, txn.request with
  | .begun, .deleteModel modelId _ =>
    match findLive s.models modelId with
    | some row =>
      if s.modelLock.mayTake (key row) t then
        some ({ s with modelLock := s.modelLock.take (key row) t }.goto t txn (.modelFound row))
      else none
    | none => none
  | .begun, .restoreModel modelId deletedCutoff =>
    match findRestorable s.models deletedCutoff none modelId with
    | some row =>
      if s.modelLock.mayTake (key row) t then
        some ({ s with modelLock := s.modelLock.take (key row) t }.goto t txn (.modelFound row))
      else none
    | none => none
  | _, _ => none

/-- The lock of `get_assignment(for_update=True)`, and of `get_restorable_assignment`. -/
def lockAssignment (s : State) (t : TxnId) (txn : Txn) : Option State :=
  match txn.phase, txn.request with
  | .begun, .unassignModel evaluationId assignmentId _ =>
    match getAssignment s.toTables evaluationId assignmentId with
    | some row =>
      if s.assignmentLock.mayTake (key row) t then
        some ({ s with assignmentLock := s.assignmentLock.take (key row) t }.goto t txn
          (.assignmentFound row))
      else none
    | none => none
  | .checked, .restoreAssignment evaluationId assignmentId deletedCutoff =>
    match restorableAssignment s.toTables evaluationId assignmentId deletedCutoff with
    | some row =>
      if s.assignmentLock.mayTake (key row) t then
        some ({ s with assignmentLock := s.assignmentLock.take (key row) t }.goto t txn
          (.assignmentFound row))
      else none
    | none => none
  | _, _ => none

/-- The lock of `get_conversation(for_update=True)`, and of `get_restorable_conversation`. -/
def lockConversation (s : State) (t : TxnId) (txn : Txn) : Option State :=
  match txn.phase, txn.request with
  | .begun, .deleteConversation evaluationId conversationId callerId canManage =>
    match getConversation s.conversations evaluationId conversationId callerId canManage with
    | some row =>
      if s.conversationLock.mayTake (key row) t then
        some ({ s with conversationLock := s.conversationLock.take (key row) t }.goto t txn
          (.conversationFound row))
      else none
    | none => none
  | .checked, .restoreConversation evaluationId conversationId callerId canManage deletedCutoff =>
    match restorableConversation s.conversations evaluationId conversationId callerId canManage
      deletedCutoff with
    | some row =>
      if s.conversationLock.mayTake (key row) t then
        some ({ s with conversationLock := s.conversationLock.take (key row) t }.goto t txn
          (.conversationFound row))
      else none
    | none => none
  | _, _ => none

/-- The row that `assign_model` makes. -/
def newAssignment (now : Time) (id evaluationId modelId : UUID) (modelDisplayMask : Option String)
    (parameters : JsonObject) : EvaluationAiModel where
  id
  createdAt := now
  evaluationId
  modelId
  modelDisplayMask
  parameters

/-- The insert or the update of the row of a request. -/
def write (s : State) (now : Time) (id : UUID) (t : TxnId) (txn : Txn) : Option State :=
  match txn.phase, txn.request with
  | .checked, .assignModel evaluationId modelId modelDisplayMask parameters =>
    some (s.goto t txn
      (.assigned (newAssignment now id evaluationId modelId modelDisplayMask parameters)))
  | .checked, .createConversation payload =>
    some (s.goto t txn (.created (newConversation now id payload)))
  | .modelFound row, .deleteModel _ callerId =>
    some (s.goto t txn (.removing { model := some (softDelete now callerId row) }))
  | .modelFound row, .restoreModel _ _ =>
    if modelTaken s.toTables row then none else some (s.goto t txn (.modelRestored (restore row)))
  | .assignmentFound row, .unassignModel _ _ callerId =>
    some (s.goto t txn (.removing { assignments := [softDelete now callerId row] }))
  | .assignmentFound row, .restoreAssignment _ _ _ =>
    if assignmentTaken s.toTables row then none
    else some (s.goto t txn (.assignmentRestored (restore row)))
  | .conversationFound row, .deleteConversation _ _ callerId _ =>
    some (s.goto t txn (.conversationDeleted (softDelete now callerId row)))
  | .conversationFound row, .restoreConversation _ _ _ _ _ =>
    some (s.goto t txn (.conversationRestored (restore row)))
  | _, _ => none

/-! ### The cascades -/

/-- `unassign_models_for_model` starts. It wants the live assignments of the model. -/
def startUnassign (s : State) (t : TxnId) (txn : Txn) : Option State :=
  match txn.phase with
  | .removing removal =>
    match removal.model with
    | some model =>
      some (s.goto t txn (.unassigning { removal with assignmentMark := s.assignmentLog.length }
        (((liveSelect s.assignments).filter fun row => row.modelId == key model).map key)))
    | none => none
  | _ => none

/-- `unassign_models_for_model` comes to a row. -/
def unassignNext (s : State) (id : UUID) (now : Time) (t : TxnId) (txn : Txn) : Option State :=
  match txn.phase, txn.request with
  | .unassigning removal wanted, .deleteModel modelId callerId =>
    if id ∈ wanted ∧ s.assignmentLock.mayTake id t then
      match (findLive s.assignments id).filter fun row => row.modelId == modelId with
      | some row =>
        some ({ s with assignmentLock := s.assignmentLock.take id t }.goto t txn
          (.unassigning
            { removal with assignments := softDelete now callerId row :: removal.assignments }
            (wanted.erase id)))
      | none => some (s.goto t txn (.unassigning removal (wanted.erase id)))
    else none
  | _, _ => none

/-- `soft_delete_conversations_for_model` or `soft_delete_conversations_for_assignment` starts. It
wants the live conversations of the target assignments. -/
def startCascade (s : State) (t : TxnId) (txn : Txn) : Option State :=
  match txn.phase, txn.request with
  | .removing removal, .unassignModel _ _ _ | .unassigning removal [], .deleteModel _ _ =>
    some (s.goto t txn (.cascading { removal with conversationMark := s.conversationLog.length }
      (((liveSelect s.conversations).filter fun row =>
        (targets s.toTables removal).contains row.evaluationAiModelId).map key)))
  | _, _ => none

/-- The cascade comes to a conversation. -/
def cascadeNext (s : State) (id : UUID) (now : Time) (t : TxnId) (txn : Txn) : Option State :=
  match txn.phase, txn.request with
  | .cascading removal wanted, .unassignModel _ _ callerId
  | .cascading removal wanted, .deleteModel _ callerId =>
    if id ∈ wanted ∧ s.conversationLock.mayTake id t then
      match findLive s.conversations id with
      | some row =>
        some ({ s with conversationLock := s.conversationLock.take id t }.goto t txn
          (.cascading
            { removal with conversations := softDelete now callerId row :: removal.conversations }
            (wanted.erase id)))
      | none => some (s.goto t txn (.cascading removal (wanted.erase id)))
    else none
  | _, _ => none

/-! ### The end -/

/-- End a transaction: drop its record and its locks. -/
def finish (s : State) (t : TxnId) : State :=
  { s with
      txns := s.txns.drop t
      modelLock := s.modelLock.release t
      assignmentLock := s.assignmentLock.release t
      conversationLock := s.conversationLock.release t }

/-- Commit. A live assignment of the same model to the same evaluation, a live model with the same
name, and a taken id violate an index. -/
def commit (s : State) (t : TxnId) (txn : Txn) : Option State :=
  match txn.phase with
  | .assigned row =>
    if assignmentTaken s.toTables row then none
    else (s.assignments.insertAll [row]).map fun assignments =>
      State.finish { s with assignments, assignmentLog := s.assignmentLog ++ [key row] } t
  | .assignmentRestored row =>
    if assignmentTaken s.toTables row then none
    else some (State.finish { s with
      assignments := s.assignments.overwrite [row]
      assignmentLog := s.assignmentLog ++ [key row] } t)
  | .created row =>
    (s.conversations.insertAll [row]).map fun conversations =>
      State.finish { s with conversations, conversationLog := s.conversationLog ++ [key row] } t
  | .conversationRestored row =>
    some (State.finish { s with
      conversations := s.conversations.overwrite [row]
      conversationLog := s.conversationLog ++ [key row] } t)
  | .conversationDeleted row =>
    some (State.finish { s with conversations := s.conversations.overwrite [row] } t)
  | .modelRestored row =>
    if modelTaken s.toTables row then none
    else some (State.finish { s with models := s.models.overwrite [row] } t)
  | .cascading removal [] =>
    some (State.finish { s with
      models := s.models.overwrite removal.model.toList
      assignments := s.assignments.overwrite removal.assignments
      conversations := s.conversations.overwrite removal.conversations } t)
  | _ => none

end State

/-- A label: a step of a transaction. -/
inductive Label
  | begin (t : TxnId) (request : Request)
  | check (t : TxnId)
  | lockModel (t : TxnId)
  | lockAssignment (t : TxnId)
  | lockConversation (t : TxnId)
  | write (t : TxnId) (now : Time) (id : UUID)
  | startUnassign (t : TxnId)
  | unassignNext (t : TxnId) (id : UUID) (now : Time)
  | startCascade (t : TxnId)
  | cascadeNext (t : TxnId) (id : UUID) (now : Time)
  | commit (t : TxnId)
  | abort (t : TxnId)

/-- The transaction that takes the step. -/
def Label.txn : Label → TxnId
  | .begin t _ | .check t | .lockModel t | .lockAssignment t | .lockConversation t | .write t _ _
  | .startUnassign t | .unassignNext t _ _ | .startCascade t | .cascadeNext t _ _ | .commit t
  | .abort t => t

/-- One step of the system. -/
def step (s : State) : Label → Option State
  | .begin t request => s.begin t request
  | .check t => (s.txns t).bind (s.check t)
  | .lockModel t => (s.txns t).bind (s.lockModel t)
  | .lockAssignment t => (s.txns t).bind (s.lockAssignment t)
  | .lockConversation t => (s.txns t).bind (s.lockConversation t)
  | .write t now id => (s.txns t).bind (s.write now id t)
  | .startUnassign t => (s.txns t).bind (s.startUnassign t)
  | .unassignNext t id now => (s.txns t).bind (s.unassignNext id now t)
  | .startCascade t => (s.txns t).bind (s.startCascade t)
  | .cascadeNext t id now => (s.txns t).bind (s.cascadeNext id now t)
  | .commit t => (s.txns t).bind (s.commit t)
  | .abort t => (s.txns t).map fun _ => s.finish t

end RedTeaming.Conversations.Liveness
