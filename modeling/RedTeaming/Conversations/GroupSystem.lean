import RedTeaming.Conversations.Rows
import RedTeaming.Library.Locks
import RedTeaming.Library.Records
import RedTeaming.Library.Transition

/-!
# `RedTeaming.Conversations.GroupSystem`: conversations enter and leave groups

The routes that create a conversation in a group, move one to another group, restore one, and
delete a conversation or a group, as concurrent transactions. The services are in
`services/groups.py` and `services/conversations.py`. A step is one database statement of one
transaction, or the lock of one row by such a statement.

- A statement reads the committed rows of its moment, and what its own transaction wrote (READ
  COMMITTED).
- `SELECT ... FOR UPDATE` of one row waits for a transaction that holds it, and reads it again
  then.
- The bulk `UPDATE` of a group's delete fixes the rows it wants when it starts, and then comes to
  them one by one, in any order. It waits for a row that another transaction holds. Then it reads
  the row again, and passes over one that it does not want any more.
- `soft_delete_empty_groups` is one `UPDATE` in two steps. `decide` evaluates its `NOT EXISTS` on
  what the statement sees. `prune` locks the group, and reads the group again, but not the
  conversations.
- Who attaches a conversation to a group locks the group first. Locks are held to the end of the
  transaction.

A transaction can end by `abort` at any time: an error of the service, or a deadlock. The checks
of these services on other tables can only end a request, so they are such an abort. The count of
the members is taken in the step that writes, under the lock of the group.
-/

set_option autoImplicit false

namespace RedTeaming.Conversations.Groups

open RedTeaming.Auth
open RedTeaming.Library

abbrev TxnId := Nat

/-- `max_conversation_group_size` of the settings. -/
structure Settings where
  maxConversationGroupSize : Nat

/-- A request. -/
inductive Request
  | create (payload : ConversationCreate) (canManage : Bool)
  | move (evaluationId conversationId newGroupId : UUID) (callerId : UserId) (canManage : Bool)
  | restore (evaluationId conversationId : UUID) (callerId : UserId) (canManage : Bool)
      (deletedCutoff : Time)
  | delete (evaluationId conversationId : UUID) (callerId : UserId) (canManage : Bool)
  | deleteGroup (evaluationId groupId : UUID) (callerId : UserId) (canManage : Bool)

/-- The user who asks. -/
def Request.callerId : Request → UserId
  | .create payload _ => payload.userId
  | .move _ _ _ callerId _ | .restore _ _ callerId _ _ | .delete _ _ callerId _
  | .deleteGroup _ _ callerId _ => callerId

/-- Where a transaction is.

- A create goes from `begun` over `groupLocked` to `created`.
- A move goes from `begun` over `found` and `targetLocked` to `removed`, and a delete over
  `found`. From there both go to `spared`, or over `pruning` to `pruned`. `old` is the
  conversation as it was locked, and `new` as it was written.
- A restore goes from `begun` over `tombstoneFound`, `roomLocked` and `revived` to `restored`.
- The delete of a group goes from `begun` over `groupFound` and `cascading` to `groupDeleted`.
  `got` are the tombstones of its members. -/
inductive Phase
  | begun
  | groupLocked (group : ConversationGroup)
  | created (row : Conversation)
  | found (row : Conversation)
  | targetLocked (row : Conversation) (target : ConversationGroup)
  | removed (old new : Conversation)
  | spared (old new : Conversation)
  | pruning (old new : Conversation)
  | pruned (old new : Conversation) (group : ConversationGroup)
  | tombstoneFound (row : Conversation)
  | roomLocked (row : Conversation) (group : ConversationGroup)
  | revived (row : Conversation) (group : ConversationGroup)
  | restored (row : Conversation) (group : ConversationGroup)
  | groupFound (group : ConversationGroup)
  | cascading (group : ConversationGroup) (wanted : List UUID) (got : List Conversation)
  | groupDeleted (group : ConversationGroup) (got : List Conversation)

/-- An open transaction. -/
structure Txn where
  request : Request
  phase : Phase := .begun

/-- The committed rows. -/
structure Tables where
  groups : Table ConversationGroup
  conversations : Table Conversation

/-- The tables, the open transactions, and the locks. -/
structure State extends Tables where
  txns : Records TxnId Txn := fun _ => none
  groupLock : Locks UUID TxnId := fun _ => none
  conversationLock : Locks UUID TxnId := fun _ => none

/-- The group holds fewer conversations than it may. -/
def hasRoom (settings : Settings) (rows : Table Conversation) (groupId : UUID) : Bool :=
  decide ((liveMembers rows groupId).length < settings.maxConversationGroupSize)

namespace State

/-- Write the record of a transaction. -/
def setTxn (s : State) (t : TxnId) (txn : Txn) : State := { s with txns := s.txns.set t txn }

/-- Move a transaction on. -/
def goto (s : State) (t : TxnId) (txn : Txn) (phase : Phase) : State :=
  s.setTxn t { txn with phase }

/-- Start a request. -/
def begin (s : State) (t : TxnId) (request : Request) : Option State :=
  match s.txns t with
  | none => some (s.setTxn t { request })
  | some _ => none

/-- `get_conversation(for_update=True)` of a move and a delete, and
`get_restorable_conversation`. -/
def lockConversation (s : State) (t : TxnId) (txn : Txn) : Option State :=
  match txn.phase, txn.request with
  | .begun, .move evaluationId conversationId _ callerId canManage
  | .begun, .delete evaluationId conversationId callerId canManage =>
    match getConversation s.conversations evaluationId conversationId callerId canManage with
    | some row =>
      if s.conversationLock.mayTake (key row) t then
        some ({ s with conversationLock := s.conversationLock.take (key row) t }.goto t txn
          (.found row))
      else none
    | none => none
  | .begun, .restore evaluationId conversationId callerId canManage deletedCutoff =>
    match restorableConversation s.conversations evaluationId conversationId callerId canManage
      deletedCutoff with
    | some row =>
      if s.conversationLock.mayTake (key row) t then
        some ({ s with conversationLock := s.conversationLock.take (key row) t }.goto t txn
          (.tombstoneFound row))
      else none
    | none => none
  | _, _ => none

/-- The lock of a group: by `acquire_group_for_conversation` of a create and of a move to another
group, by `assert_group_has_room` of a restore, whatever the liveness, and by the delete of a
group. -/
def lockGroup (s : State) (t : TxnId) (txn : Txn) : Option State :=
  match txn.phase, txn.request with
  | .begun, .create payload canManage =>
    match getConversationGroup s.groups payload.evaluationId payload.conversationGroupId
      payload.userId canManage with
    | some group =>
      if s.groupLock.mayTake (key group) t then
        some ({ s with groupLock := s.groupLock.take (key group) t }.goto t txn
          (.groupLocked group))
      else none
    | none => none
  | .found row, .move evaluationId _ newGroupId callerId canManage =>
    if newGroupId = row.conversationGroupId then none
    else
      match getConversationGroup s.groups evaluationId newGroupId callerId canManage with
      | some group =>
        if s.groupLock.mayTake (key group) t then
          some ({ s with groupLock := s.groupLock.take (key group) t }.goto t txn
            (.targetLocked row group))
        else none
      | none => none
  | .tombstoneFound row, .restore _ _ _ _ _ =>
    match s.groups.find? row.conversationGroupId with
    | some group =>
      if s.groupLock.mayTake (key group) t then
        some ({ s with groupLock := s.groupLock.take (key group) t }.goto t txn
          (.roomLocked row group))
      else none
    | none => none
  | .begun, .deleteGroup evaluationId groupId callerId canManage =>
    match getConversationGroup s.groups evaluationId groupId callerId canManage with
    | some group =>
      if s.groupLock.mayTake (key group) t then
        some ({ s with groupLock := s.groupLock.take (key group) t }.goto t txn
          (.groupFound group))
      else none
    | none => none
  | _, _ => none

/-- The conversation of a request is written. A create, a move and a restore count the members of
the group before, and a create and a move compare the scenarios. -/
def write (settings : Settings) (s : State) (now : Time) (id : UUID) (t : TxnId) (txn : Txn) :
    Option State :=
  match txn.phase, txn.request with
  | .groupLocked group, .create payload _ =>
    if hasRoom settings s.conversations (key group) ∧ payload.scenarioId = group.scenarioId then
      some (s.goto t txn (.created (newConversation now id payload)))
    else none
  | .targetLocked row target, .move _ _ _ _ _ =>
    if hasRoom settings s.conversations (key target) ∧ target.scenarioId = row.scenarioId then
      some (s.goto t txn (.removed row { row with conversationGroupId := key target }))
    else none
  | .found row, .delete _ _ callerId _ =>
    some (s.goto t txn (.removed row (softDelete now callerId row)))
  | .roomLocked row group, .restore _ _ _ _ _ =>
    if hasRoom settings s.conversations (key group) then
      some (s.goto t txn (.revived (RedTeaming.restore row) group))
    else none
  | _, _ => none

/-- `soft_delete_empty_groups` looks for the group that the conversation left: it prunes a live
group in which it sees no live conversation. -/
def decide (s : State) (t : TxnId) (txn : Txn) : Option State :=
  match txn.phase with
  | .removed old new =>
    if (findLive s.groups old.conversationGroupId).isSome ∧
        liveMembers (s.conversations.overwrite [new]) old.conversationGroupId = [] then
      some (s.goto t txn (.pruning old new))
    else some (s.goto t txn (.spared old new))
  | _ => none

/-- `soft_delete_empty_groups` comes to the group that it decided to prune. It passes over one
that is not live any more. -/
def prune (s : State) (now : Time) (t : TxnId) (txn : Txn) : Option State :=
  match txn.phase with
  | .pruning old new =>
    if s.groupLock.mayTake old.conversationGroupId t then
      match findLive s.groups old.conversationGroupId with
      | some group =>
        some ({ s with groupLock := s.groupLock.take old.conversationGroupId t }.goto t txn
          (.pruned old new (softDelete now txn.request.callerId group)))
      | none => some (s.goto t txn (.spared old new))
    else none
  | _ => none

/-- `revive_pruned_group`: clear the tombstone of the group, if it has one. -/
def revive (s : State) (t : TxnId) (txn : Txn) : Option State :=
  match txn.phase with
  | .revived row group =>
    some (s.goto t txn (.restored row (if live group then group else RedTeaming.restore group)))
  | _ => none

/-- The `UPDATE` of `soft_delete_conversation_group` starts. It wants the live members. -/
def startCascade (s : State) (t : TxnId) (txn : Txn) : Option State :=
  match txn.phase with
  | .groupFound group =>
    some (s.goto t txn (.cascading group ((liveMembers s.conversations (key group)).map key) []))
  | _ => none

/-- The `UPDATE` comes to a member. -/
def cascadeNext (s : State) (id : UUID) (now : Time) (t : TxnId) (txn : Txn) : Option State :=
  match txn.phase with
  | .cascading group wanted got =>
    if id ∈ wanted ∧ s.conversationLock.mayTake id t then
      match (findLive s.conversations id).filter fun row => row.conversationGroupId ==
        key group with
      | some row =>
        some ({ s with conversationLock := s.conversationLock.take id t }.goto t txn
          (.cascading group (wanted.erase id) (softDelete now txn.request.callerId row :: got)))
      | none => some (s.goto t txn (.cascading group (wanted.erase id) got))
    else none
  | _ => none

/-- The group itself gets its tombstone. -/
def deleteGroup (s : State) (now : Time) (t : TxnId) (txn : Txn) : Option State :=
  match txn.phase with
  | .cascading group [] got =>
    some (s.goto t txn (.groupDeleted (softDelete now txn.request.callerId group) got))
  | _ => none

/-- End a transaction: drop its record and its locks. -/
def finish (s : State) (t : TxnId) : State :=
  { s with
      txns := s.txns.drop t
      groupLock := s.groupLock.release t
      conversationLock := s.conversationLock.release t }

/-- Commit. A taken id violates the primary key. -/
def commit (s : State) (t : TxnId) (txn : Txn) : Option State :=
  match txn.phase with
  | .created row =>
    (s.conversations.insertAll [row]).map fun conversations =>
      State.finish { s with conversations } t
  | .spared _ new =>
    some (State.finish { s with conversations := s.conversations.overwrite [new] } t)
  | .pruned _ new group =>
    some (State.finish { s with
      conversations := s.conversations.overwrite [new]
      groups := s.groups.overwrite [group] } t)
  | .restored row group =>
    some (State.finish { s with
      conversations := s.conversations.overwrite [row]
      groups := s.groups.overwrite [group] } t)
  | .groupDeleted group got =>
    some (State.finish { s with
      conversations := s.conversations.overwrite got
      groups := s.groups.overwrite [group] } t)
  | _ => none

end State

/-- A label: a step of a transaction. -/
inductive Label
  | begin (t : TxnId) (request : Request)
  | lockConversation (t : TxnId)
  | lockGroup (t : TxnId)
  | write (t : TxnId) (now : Time) (id : UUID)
  | decide (t : TxnId)
  | prune (t : TxnId) (now : Time)
  | revive (t : TxnId)
  | startCascade (t : TxnId)
  | cascadeNext (t : TxnId) (id : UUID) (now : Time)
  | deleteGroup (t : TxnId) (now : Time)
  | commit (t : TxnId)
  | abort (t : TxnId)

/-- The transaction that takes the step. -/
def Label.txn : Label → TxnId
  | .begin t _ | .lockConversation t | .lockGroup t | .write t _ _ | .decide t | .prune t _
  | .revive t | .startCascade t | .cascadeNext t _ _ | .deleteGroup t _ |
      .commit t | .abort t => t

/-- One step of the system. -/
def step (settings : Settings) (s : State) : Label → Option State
  | .begin t request => s.begin t request
  | .lockConversation t => (s.txns t).bind (s.lockConversation t)
  | .lockGroup t => (s.txns t).bind (s.lockGroup t)
  | .write t now id => (s.txns t).bind (State.write settings s now id t)
  | .decide t => (s.txns t).bind (s.decide t)
  | .prune t now => (s.txns t).bind (s.prune now t)
  | .revive t => (s.txns t).bind (s.revive t)
  | .startCascade t => (s.txns t).bind (s.startCascade t)
  | .cascadeNext t id now => (s.txns t).bind (s.cascadeNext id now t)
  | .deleteGroup t now => (s.txns t).bind (s.deleteGroup now t)
  | .commit t => (s.txns t).bind (s.commit t)
  | .abort t => (s.txns t).map fun _ => s.finish t

end RedTeaming.Conversations.Groups
