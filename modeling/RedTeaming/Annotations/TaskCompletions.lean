import RedTeaming.Conversations.GroupSystem
import RedTeaming.Evaluations.Reads
import RedTeaming.Library.Grouping

/-!
# `RedTeaming.Annotations.TaskCompletions`: tasks that are checked off

`core/annotations/services/task_completions.py`. A completion says that a task is done in a
conversation. Its row copies the author, the evaluation, and the group of the conversation. A live
row means done, and the unique index on the conversation and the task covers the live rows.

A step is one statement of one transaction that completes or uncompletes, at READ COMMITTED, or a
step of the conversations (`RedTeaming.Conversations.Groups`): they move, are deleted, and come
back beside it. An insert waits for a transaction that has written a live row of its key, and
reads the index then.

The permission of a route can only end a request, so it is an abort. The two statements of
`groupCompletionRollup` read one state here.
-/

set_option autoImplicit false

namespace RedTeaming.Annotations.TaskCompletions

open RedTeaming.Auth
open RedTeaming.Conversations (Conversation)
open RedTeaming.Evaluations (joinVisibleEvaluationGroup)
open RedTeaming.Library

/-- A row of `task_completions`. -/
structure TaskCompletion extends BaseModel where
  createdById : UserId
  conversationId : UUID
  taskId : UUID
  conversationGroupId : UUID
  evaluationId : UUID
  evaluationGroupId : UUID
  scenarioId : Option UUID
deriving DecidableEq

instance : Entity TaskCompletion :=
  ⟨(·.toBaseModel), fun r b => { r with toBaseModel := b }, fun _ _ => rfl⟩

abbrev TxnId := Nat

/-- What a transaction locks: a key of the unique index, or a row. -/
inductive LockKey
  | pair (conversationId taskId : UUID)
  | row (completionId : UUID)
deriving DecidableEq

/-- The key of a completion in the unique index. -/
def TaskCompletion.pair (row : TaskCompletion) : LockKey := .pair row.conversationId row.taskId

/-- `complete_task` or `uncomplete_task`. -/
inductive Request
  | complete (conversationId taskId : UUID)
  | uncomplete (conversationId taskId : UUID)

namespace Request

/-- The conversation in the path. -/
def conversationId : Request → UUID
  | complete id _ | uncomplete id _ => id

/-- The task in the path. -/
def taskId : Request → UUID
  | complete _ id | uncomplete _ id => id

end Request

/-- The next statement of a transaction. -/
inductive Phase
  | resolveConversation
  | checkTask (conversation : Conversation) (evaluationGroupId : UUID)
  | findExisting (conversation : Conversation) (evaluationGroupId : UUID)
  | insert (conversation : Conversation) (evaluationGroupId : UUID)
  | rereadWon
  | findLive
  | softDelete (row : TaskCompletion)
  | finished

/-- What a transaction has written. -/
inductive Write
  | insert (row : TaskCompletion)
  | softDelete (completionId : UUID)

/-- An open transaction, with its next statement and what it has written. -/
structure Txn where
  ctx : Evaluations.Context
  request : Request
  phase : Phase := .resolveConversation
  write : Option Write := none

/-- The committed rows, the locks, and the open transactions. The conversations have their own. -/
structure State where
  base : Evaluations.Database
  groups : Conversations.Groups.State
  completions : Table TaskCompletion
  locks : Locks LockKey TxnId
  txns : Records TxnId Txn

namespace State
variable (s : State)

/-- The committed conversations. -/
def conversations : Table Conversation := s.groups.conversations

/-- The transaction `t` is `x` now. -/
def put (t : TxnId) (x : Txn) : State := { s with txns := s.txns.set t x }

/-- The transaction goes on with another statement. -/
def goto (t : TxnId) (x : Txn) (phase : Phase) : State := s.put t { x with phase }

/-- The transaction takes a key, unless it has to wait for it. -/
def lock (t : TxnId) (k : LockKey) : Option State :=
  if s.locks.mayTake k t then some { s with locks := s.locks.take k t } else none

/-- The state after the transaction ended. -/
def close (t : TxnId) : State := { s with txns := s.txns.drop t, locks := s.locks.release t }

end State

/-! ### Reads -/

section
variable (s : State)

/-- `resolve_conversation_context`: the caller's own live conversation, with its group. -/
def resolveConversationContext (callerId : UserId)
    (conversationId : UUID) : Option (Conversation × UUID) := do
  let conversation ← (RedTeaming.findLive s.conversations conversationId).filter fun row =>
    row.userId == callerId
  let group ← joinVisibleEvaluationGroup s.base callerId false conversation.evaluationId
  return (conversation, group.id)

/-- `_assert_task_in_conversation_scenario`: the task is a live one of the scenario. -/
def taskInScenario (taskId scenarioId : UUID) : Bool :=
  (RedTeaming.findLive s.base.tasks taskId).any fun task => task.scenarioId == scenarioId

/-- `_get_owned_live_completion`: the rows that the statement returns. More than one raises. -/
def ownedLiveCompletions (conversationId taskId : UUID)
    (callerId : UserId) : List TaskCompletion :=
  (liveSelect s.completions).filter fun row =>
    row.conversationId == conversationId && row.taskId == taskId && row.createdById == callerId

/-- A live row has the key. -/
def taken (row : TaskCompletion) : Bool := (liveSelect s.completions).any fun other =>
    other.pair == row.pair

/-- `_scope`: `join_conversation_scoped` with the author. -/
def inScope (callerId : UserId) (canManage : Bool) (row : TaskCompletion) : Bool :=
  (joinVisibleEvaluationGroup s.base callerId canManage row.evaluationId).isSome &&
    (RedTeaming.findLive s.conversations row.conversationId).isSome &&
      (canManage || row.createdById == callerId)

/-- `ORDER BY created_at, id`. -/
def checkedBefore (row row' : TaskCompletion) : Bool :=
  decide (row.createdAt < row'.createdAt) || row.createdAt == row'.createdAt &&
    decide (row.id ≤ row'.id)

/-- `list_conversation_completions`. -/
def listConversationCompletions (conversationId : UUID) (callerId : UserId) (canManage : Bool) :
    List TaskCompletion :=
  ((liveSelect s.completions).filter fun row =>
    row.conversationId == conversationId && inScope s callerId canManage row).mergeSort
      checkedBefore

/-- The live conversation of the row is in the group now. The copy of the group on the row is not
read. -/
def inGroup (conversationGroupId : UUID) (row : TaskCompletion) : Bool :=
  (RedTeaming.findLive s.conversations row.conversationId).any fun conversation =>
    conversation.conversationGroupId == conversationGroupId

/-- `group_completion_rollup`: the number of conversations, and a task with the number of its
rows. -/
def groupCompletionRollup (conversationGroupId : UUID) (callerId : UserId) (canManage : Bool) :
    Nat × List (UUID × Nat) :=
  (s.conversations.rows.countP fun conversation =>
      (joinVisibleEvaluationGroup s.base callerId canManage conversation.evaluationId).isSome &&
        conversation.conversationGroupId == conversationGroupId && live conversation &&
          (canManage || conversation.userId == callerId),
    (groupBy TaskCompletion.taskId ((liveSelect s.completions).filter fun row =>
      inScope s callerId canManage row && inGroup s conversationGroupId row)).map fun group =>
        (group.1, group.2.length))

end

/-! ### The system -/

/-- The row that `complete_task` makes. -/
def Txn.newCompletion (x : Txn) (conversation : Conversation)
    (evaluationGroupId : UUID) : TaskCompletion where
  toBaseModel := x.ctx.newRow x.ctx.fresh.row
  createdById := x.ctx.callerId
  conversationId := conversation.id
  taskId := x.request.taskId
  conversationGroupId := conversation.conversationGroupId
  evaluationId := conversation.evaluationId
  evaluationGroupId
  scenarioId := some conversation.scenarioId

/-- The completions that `_get_owned_live_completion` returns to the transaction. -/
def Txn.owned (x : Txn) (s : State) : List TaskCompletion :=
  ownedLiveCompletions s x.request.conversationId x.request.taskId x.ctx.callerId

/-- The next statement of a transaction. A statement that raises has no step, nor has one that
waits, so that the abort is left. -/
def statement (s : State) (t : TxnId) (x : Txn) : Option State :=
  match x.phase with
  | .resolveConversation =>
    (resolveConversationContext s x.ctx.callerId x.request.conversationId).map fun context =>
      match x.request with
      | .complete _ _ => s.goto t x (.checkTask context.1 context.2)
      | .uncomplete _ _ => s.goto t x .findLive
  | .checkTask conversation evaluationGroupId =>
    if taskInScenario s x.request.taskId conversation.scenarioId then
      some (s.goto t x (.findExisting conversation evaluationGroupId))
    else none
  | .findExisting conversation evaluationGroupId =>
    match x.owned s with
    | [] => some (s.goto t x (.insert conversation evaluationGroupId))
    | [_] => some (s.goto t x .finished)
    | _ => none
  | .insert conversation evaluationGroupId =>
    let row := x.newCompletion conversation evaluationGroupId
    (s.lock t row.pair).map fun locked =>
      -- The savepoint is rolled back when the index refuses the row.
      if taken s row then s.goto t x .rereadWon
      else locked.put t { x with phase := .finished, write := some (.insert row) }
  | .rereadWon =>
    match x.owned s with
    | [_] => some (s.goto t x .finished)
    | _ => none
  | .findLive =>
    match x.owned s with
    | [] => some (s.goto t x .finished)
    | [row] => some (s.goto t x (.softDelete row))
    | _ => none
  | .softDelete row =>
    (s.lock t (.row row.id)).bind fun locked =>
      -- The tombstone of a row that is live still frees its key, so an insert of the key has to
      -- wait.
      (if (RedTeaming.findLive s.completions row.id).isSome then locked.lock t row.pair
        else some locked).map fun locked =>
          locked.put t { x with phase := .finished, write := some (.softDelete row.id) }
  | .finished => none

/-- The completions after a commit. -/
def commitWrite (completions : Table TaskCompletion) (ctx : Evaluations.Context) :
    Option Write → Option (Table TaskCompletion)
  | none => some completions
  | some (.insert row) => completions.insertAll [row]
  | some (.softDelete id) => some (softDeleteRow completions ctx.now ctx.callerId id)

/-- One step. `elsewhere` is a commit of the rest of the application: anything may happen to the
evaluations, the groups, the roles, and the tasks, and conversations may be added, changed, and
deleted. -/
inductive Event
  | start (t : TxnId) (ctx : Evaluations.Context) (request : Request)
  | statement (t : TxnId)
  | commit (t : TxnId)
  | abort (t : TxnId)
  | conversations (label : Conversations.Groups.Label)
  | elsewhere (base : Evaluations.Database) (rows : Table Conversation)

/-- No conversation is removed, or gets another owner or evaluation. -/
def keepsConversations (rows rows' : Table Conversation) : Bool :=
  rows.rows.all fun row => rows'.rows.any fun row' =>
    row'.id == row.id && row'.userId == row.userId && row'.evaluationId == row.evaluationId

/-- One step. -/
def step (settings : Conversations.Groups.Settings) (s : State) : Event → Option State
  | .start t ctx request => if (s.txns t).isNone then some (s.put t { ctx, request }) else none
  | .statement t => (s.txns t).bind (statement s t)
  | .commit t =>
    match s.txns t with
    | some ⟨ctx, _, .finished, write⟩ =>
      (commitWrite s.completions ctx write).map fun completions =>
      { (s.close t) with completions }
    | _ => none
  | .abort t => if (s.txns t).isSome then some (s.close t) else none
  | .conversations label =>
    (Conversations.Groups.step settings s.groups label).map fun groups => { s with groups }
  | .elsewhere base rows =>
    if keepsConversations s.conversations rows then
      some { s with base, groups := { s.groups with conversations := rows } }
    else none

end RedTeaming.Annotations.TaskCompletions
