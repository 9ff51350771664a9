import RedTeaming.Evaluations.Rows

/-!
# `RedTeaming.Conversations.Rows`: conversations and their groups

The rows of `conversations` and `conversation_groups` in `core/conversations/models.py`, and the
lookups of the services by id. A conversation belongs to a group, and targets one assignment of a
model to its evaluation.
-/

set_option autoImplicit false

namespace RedTeaming.Conversations

open RedTeaming.Auth
open RedTeaming.Library

/-- A row of `conversation_groups`. -/
structure ConversationGroup extends BaseModel where
  userId : UserId
  evaluationId : UUID
  scenarioId : UUID
  name : String
deriving DecidableEq

/-- A row of `conversations`. -/
structure Conversation extends BaseModel where
  userId : UserId
  evaluationId : UUID
  evaluationAiModelId : UUID
  conversationGroupId : UUID
  scenarioId : UUID
  title : Option String := none
  tags : List (String × String) := []
  contentProtected : Bool := false
  parameters : JsonObject := []

instance : Entity ConversationGroup :=
  ⟨(·.toBaseModel), fun r b => { r with toBaseModel := b }, fun _ _ => rfl⟩
instance : Entity Conversation :=
  ⟨(·.toBaseModel), fun r b => { r with toBaseModel := b }, fun _ _ => rfl⟩

/-- What a create brings: the columns of the row. `contentProtected` is what the lookup of the
licence returned. -/
structure ConversationCreate where
  userId : UserId
  evaluationId : UUID
  evaluationAiModelId : UUID
  scenarioId : UUID
  conversationGroupId : UUID
  title : Option String := none
  tags : List (String × String) := []
  contentProtected : Bool := false
  parameters : JsonObject := []

/-- The row that `create_conversation` makes. -/
def newConversation (now : Time) (id : UUID) (payload : ConversationCreate) : Conversation where
  id
  createdAt := now
  userId := payload.userId
  evaluationId := payload.evaluationId
  evaluationAiModelId := payload.evaluationAiModelId
  scenarioId := payload.scenarioId
  conversationGroupId := payload.conversationGroupId
  title := payload.title
  tags := payload.tags
  contentProtected := payload.contentProtected
  parameters := payload.parameters

/-- `get_conversation`, but for the visibility of the parent group. -/
def getConversation (rows : Table Conversation) (evaluationId conversationId : UUID)
    (callerId : UserId) (canManage : Bool) : Option Conversation :=
  (findLive rows conversationId).filter fun row =>
    row.evaluationId == evaluationId && (canManage || row.userId == callerId)

/-- The row that `get_restorable_conversation` locks, but for the visibility of the parent
group. -/
def restorableConversation (rows : Table Conversation) (evaluationId conversationId : UUID)
    (callerId : UserId) (canManage : Bool) (deletedCutoff : Time) : Option Conversation :=
  (findRestorable rows deletedCutoff (if canManage then none else some callerId)
    conversationId).filter fun row =>
      row.evaluationId == evaluationId && (canManage || row.userId == callerId)

/-- `get_conversation_group`, but for the visibility of the parent group. -/
def getConversationGroup (rows : Table ConversationGroup) (evaluationId groupId : UUID)
    (callerId : UserId) (canManage : Bool) : Option ConversationGroup :=
  (findLive rows groupId).filter fun row =>
    row.evaluationId == evaluationId && (canManage || row.userId == callerId)

/-- The live conversations of a group. -/
def liveMembers (rows : Table Conversation) (groupId : UUID) : List Conversation :=
  (liveSelect rows).filter fun row => row.conversationGroupId == groupId

theorem mem_liveMembers {rows : Table Conversation} {groupId : UUID} {row : Conversation} :
    row ∈ liveMembers rows groupId ↔
      row ∈ rows ∧ live row = true ∧ row.conversationGroupId = groupId := by
  rw [liveMembers, List.mem_filter, mem_liveSelect, beq_iff_eq, and_assoc]

end RedTeaming.Conversations
