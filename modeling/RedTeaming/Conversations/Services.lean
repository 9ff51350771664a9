import RedTeaming.Conversations.Messages
import RedTeaming.Conversations.Rows
import RedTeaming.Evaluations.Reads
import RedTeaming.Evaluations.System

/-!
# `RedTeaming.Conversations.Services`: conversations and groups, request by request

The endpoints of `api/v1/conversations.py` and `api/v1/conversation_groups.py` that write, and the
listings of conversations, with the services that they call, as functions on the tables. The two
cascades that delete conversations are here too: `soft_delete_conversations_for_assignment` and
`soft_delete_conversations_for_model`. They run behind the unassignment and the deletion of a
model.

A `Request` is a call of one of these endpoints, or of an endpoint of the evaluation domain. One
request runs after the other. A request that raises is rolled back, so a run lists the requests
that commit.
-/

set_option autoImplicit false

namespace RedTeaming.Conversations.Services

open RedTeaming.Auth
open RedTeaming.Library
open RedTeaming.Evaluations

/-- The tables of the evaluation domain, and the conversations. -/
structure Database extends Evaluations.Database where
  conversationGroups : Table ConversationGroup
  conversations : Table Conversation

/-- `max_conversation_group_size` beside the settings of the evaluation domain. -/
structure Settings extends Evaluations.Settings where
  maxConversationGroupSize : Nat

/-- A caller, the clock, and the drawn ids. `conversation` are the ids of the conversations of a
new group, and `contentProtected` is what the lookup of the effective licence returns. -/
structure Context extends Evaluations.Context where
  conversation : Nat → UUID
  contentProtected : Bool

/-! ### Lookups -/

/-- `_scope`: the caller sees the parent group of a row of this evaluation. -/
def inScope (db : Database) (ctx : Context) (evaluationId : UUID) : Bool :=
  (joinVisibleEvaluationGroup db.toDatabase ctx.callerId ctx.canManage evaluationId).isSome

/-- `get_conversation_group` of a write. -/
def fetchConversationGroup (db : Database) (ctx : Context) (evaluationId groupId : UUID) :
    Except ApiError ConversationGroup :=
  found
    ((getConversationGroup db.conversationGroups evaluationId groupId ctx.callerId
      ctx.canManage).filter fun group => inScope db ctx group.evaluationId)
    (.notFound ("Conversation group " ++ toString groupId ++ " not found in evaluation "
      ++ toString evaluationId ++ "."))

/-- `get_conversation` of a write. -/
def fetchConversation (db : Database) (ctx : Context) (evaluationId conversationId : UUID) :
    Except ApiError Conversation :=
  found
    ((getConversation db.conversations evaluationId conversationId ctx.callerId
      ctx.canManage).filter fun row => inScope db ctx row.evaluationId)
    (.notFound ("Conversation " ++ toString conversationId ++ " not found in evaluation "
      ++ toString evaluationId ++ "."))

/-- `_join_live_assignment`: the assignment that the conversation targets is live. -/
def hasLiveAssignment (db : Database) (row : Conversation) : Bool :=
  (findLive db.assignments row.evaluationAiModelId).isSome

/-- `get_restorable_conversation`. -/
def getRestorableConversation (db : Database) (settings : Settings) (ctx : Context)
    (evaluationId conversationId : UUID) : Except ApiError Conversation :=
  found
    ((restorableConversation db.conversations evaluationId conversationId ctx.callerId
      ctx.canManage (ctx.restoreCutoff settings.toSettings)).filter fun row =>
        inScope db ctx row.evaluationId && hasLiveAssignment db row)
    (.notFound ("No restorable conversation " ++ toString conversationId
      ++ " was deleted within the restore window in evaluation " ++ toString evaluationId ++ "."))

/-- The tagging policy of a live evaluation. -/
def taggingPolicy (db : Database) (evaluationId : UUID) : Option TagPolicy :=
  (findLive db.evaluations evaluationId).map fun evaluation =>
    { enabled := evaluation.tagsEnabled
      restricted := evaluation.tagsRestricted
      allowedKeys := ((liveSelect db.tagKeys).filter fun row =>
        row.evaluationId == evaluation.id).map EvaluationTagKey.tagKey }

/-- `group_of_path_evaluation`. -/
def groupOfPathEvaluation (db : Database) (ctx : Context) (evaluationId : UUID) :
    Except ApiError (Option UUID) := do
  let evaluation ← getVisibleEvaluation db.toDatabase evaluationId ctx.callerId ctx.canManage
  return some evaluation.evaluationGroupId

/-- `group_of_path_scenario`. -/
def groupOfPathScenario (db : Database) (ctx : Context) (scenarioId : UUID) :
    Except ApiError (Option UUID) := do
  let scenario ← getScenarioById db.toDatabase scenarioId ctx.callerId ctx.canManage
  return (db.evaluations.find? scenario.evaluationId).map Evaluation.evaluationGroupId

/-- `require_conversation_permission`. -/
def requireConversationPermission (db : Database) (ctx : Context) (p : Permission)
    (evaluationId : UUID) : Except ApiError Unit :=
  requireObjectOrGlobal db.toDatabase ctx.caller p (groupOfPathEvaluation db ctx evaluationId)

/-! ### Groups -/

/-- The message of a group without room. -/
def groupFull (settings : Settings) (groupId : UUID) : ApiError :=
  .conflict ("Conversation group " ++ toString groupId ++ " already holds the maximum of "
    ++ toString settings.maxConversationGroupSize ++ " conversations.")

/-- `assert_group_has_room`: the group holds fewer live conversations than it may. -/
def assertGroupHasRoom (db : Database) (settings : Settings) (groupId : UUID) :
    Except ApiError Unit :=
  check
    (decide ((liveMembers db.conversations groupId).length < settings.maxConversationGroupSize))
    (groupFull settings groupId)

/-- `acquire_group_for_conversation`: the group that receives a conversation. -/
def acquireGroupForConversation (db : Database) (settings : Settings) (ctx : Context)
    (evaluationId groupId : UUID) : Except ApiError ConversationGroup := do
  let group ← fetchConversationGroup db ctx evaluationId groupId
  assertGroupHasRoom db settings groupId
  return group

/-- `soft_delete_empty_groups`: the named groups without a live conversation. -/
def softDeleteEmptyGroups (db : Database) (ctx : Context) (groupIds : List UUID) : Database :=
  { db with
    conversationGroups := softDeleteWhere db.conversationGroups ctx.now ctx.callerId fun group =>
      groupIds.contains (key group) && (liveMembers db.conversations (key group)).isEmpty }

/-- The group without its tombstone, if it has one. -/
def revived (group : ConversationGroup) : ConversationGroup :=
  if live group then group else restore group

theorem key_revived (group : ConversationGroup) : key (revived group) = key group := by
  unfold revived
  split
  · rfl
  · exact key_restore group

/-- `revive_pruned_group`: clear the tombstone of a group, if it has one. -/
def revivePrunedGroup (db : Database) (groupId : UUID) : Database :=
  { db with conversationGroups := db.conversationGroups.modify groupId revived key_revived }

/-- One conversation to open in a new group. -/
structure ConversationSpec where
  assignmentId : UUID
  title : Option Title := none
  parameters : JsonObject := []

/-- The payload of a group. -/
structure ConversationGroupCreate where
  name : Title
  models : List ConversationSpec

/-- The validators of the payload of a group. -/
def ConversationGroupCreate.validate (settings : Settings) (form : ConversationGroupCreate) :
    Except ApiError Unit := do
  check (decide (1 ≤ form.models.length))
    (.validationError "List should have at least 1 item after validation, not 0")
  check (decide (form.models.length ≤ settings.maxConversationGroupSize))
    (.validationError ("a conversation group may hold at most "
      ++ toString settings.maxConversationGroupSize ++ " conversations"))

/-- The row of a new group. -/
def newConversationGroup (ctx : Context) (evaluationId scenarioId : UUID) (name : String) :
    ConversationGroup where
  toBaseModel := ctx.newRow ctx.fresh.row
  userId := ctx.callerId
  evaluationId
  scenarioId
  name

/-- The conversation of a new group at an index. -/
def newMember (ctx : Context) (group : ConversationGroup) (index : Nat)
    (spec : ConversationSpec) : Conversation :=
  newConversation ctx.now (ctx.conversation index)
    { userId := ctx.callerId
      evaluationId := group.evaluationId
      evaluationAiModelId := spec.assignmentId
      scenarioId := group.scenarioId
      conversationGroupId := key group
      title := spec.title.map Subtype.val
      contentProtected := ctx.contentProtected
      parameters := spec.parameters }

/-- Create a group with its conversations. -/
def createConversationGroup (db : Database) (settings : Settings) (ctx : Context)
    (scenarioId : UUID) (form : ConversationGroupCreate) : Except ApiError Database := do
  form.validate settings
  requireObjectOrGlobal db.toDatabase ctx.caller .conversationsCreate
    (groupOfPathScenario db ctx scenarioId)
  let scenario ← getScenarioById db.toDatabase scenarioId ctx.callerId ctx.canManage
  let evaluationId := scenario.evaluationId
  let _ ← getVisibleEvaluation db.toDatabase evaluationId ctx.callerId ctx.canManage
  let _ ← getScenario db.toDatabase evaluationId scenarioId
  form.models.forM fun spec => do
    let _ ← getAssignment db.toDatabase evaluationId spec.assignmentId
  let group := newConversationGroup ctx evaluationId scenarioId form.name.val
  let conversationGroups ← flush db.conversationGroups [group]
  let conversations ← flush db.conversations (form.models.mapIdx (newMember ctx group))
  return { db with conversationGroups, conversations }

/-- Rename a group. -/
def renameConversationGroup (db : Database) (ctx : Context) (evaluationId groupId : UUID)
    (name : Title) : Except ApiError Database := do
  requireConversationPermission db ctx .conversationsUpdate evaluationId
  let group ← fetchConversationGroup db ctx evaluationId groupId
  return { db with
    conversationGroups := db.conversationGroups.modify (key group)
      (fun group => { group with name := name.val }) fun _ => rfl }

/-- Soft-delete a group and its live conversations. -/
def deleteConversationGroup (db : Database) (ctx : Context) (evaluationId groupId : UUID) :
    Except ApiError Database := do
  requireConversationPermission db ctx .conversationsDelete evaluationId
  let group ← fetchConversationGroup db ctx evaluationId groupId
  return { db with
    conversations := softDeleteWhere db.conversations ctx.now ctx.callerId fun row =>
      row.conversationGroupId == key group
    conversationGroups := softDeleteRow db.conversationGroups ctx.now ctx.callerId (key group) }

/-! ### Conversations -/

/-- The payload of a conversation. -/
structure ConversationForm where
  evaluationAiModelId : UUID
  conversationGroupId : UUID
  title : Option Title := none
  parameters : JsonObject := []
  tags : List (String × String) := []

/-- Start a conversation in a group of the scenario. -/
def createConversation (db : Database) (settings : Settings) (ctx : Context) (scenarioId : UUID)
    (form : ConversationForm) : Except ApiError Database := do
  requireObjectOrGlobal db.toDatabase ctx.caller .conversationsCreate
    (groupOfPathScenario db ctx scenarioId)
  let scenario ← getScenarioById db.toDatabase scenarioId ctx.callerId ctx.canManage
  let evaluationId := scenario.evaluationId
  let _ ← getVisibleEvaluation db.toDatabase evaluationId ctx.callerId ctx.canManage
  let _ ← getAssignment db.toDatabase evaluationId form.evaluationAiModelId
  let _ ← getScenario db.toDatabase evaluationId scenarioId
  let group ← acquireGroupForConversation db settings ctx evaluationId form.conversationGroupId
  check (scenarioId == group.scenarioId)
    (.conflict
      ("Scenario " ++ toString scenarioId ++ " is not the scenario of conversation group "
      ++ toString form.conversationGroupId
      ++ "; a group's conversations all share its scenario."))
  assertTagsAllowed (taggingPolicy db evaluationId) form.tags
  let conversation := newConversation ctx.now ctx.fresh.row
    { userId := ctx.callerId
      evaluationId
      evaluationAiModelId := form.evaluationAiModelId
      scenarioId
      conversationGroupId := form.conversationGroupId
      title := form.title.map Subtype.val
      tags := form.tags
      contentProtected := ctx.contentProtected
      parameters := form.parameters }
  let conversations ← flush db.conversations [conversation]
  return { db with conversations }

/-- The changes of a conversation. A title is omitted, cleared, or set. -/
structure ConversationUpdate where
  parameters : Option JsonObject := none
  tags : Option (List (String × String)) := none
  conversationGroupId : Option UUID := none
  title : Option (Option Title) := none

/-- The row after the changes. `newGroup` is the group of a move. -/
def ConversationUpdate.applyTo (changes : ConversationUpdate) (newGroup : Option UUID)
    (row : Conversation) : Conversation :=
  { row with
    parameters := changes.parameters.getD row.parameters
    tags := changes.tags.getD row.tags
    conversationGroupId := newGroup.getD row.conversationGroupId
    title := (changes.title.map fun title => title.map Subtype.val).getD row.title }

/-- The group that a conversation moves to: a group with room, of the same evaluation and
scenario. The own group is no move. -/
def moveTarget (db : Database) (settings : Settings) (ctx : Context) (conversation : Conversation)
    (evaluationId : UUID) (target : Option UUID) : Except ApiError (Option UUID) := do
  match target with
  | none => return none
  | some groupId =>
    if groupId = conversation.conversationGroupId then return none
    let targetGroup ← acquireGroupForConversation db settings ctx evaluationId groupId
    check (targetGroup.scenarioId == conversation.scenarioId)
      (.conflict ("Conversation group " ++ toString groupId ++ " targets a different scenario; "
        ++ "a conversation only moves between groups of its own scenario."))
    return some groupId

/-- Change a conversation. A move prunes the group that it empties. -/
def updateConversation (db : Database) (settings : Settings) (ctx : Context)
    (evaluationId conversationId : UUID) (changes : ConversationUpdate) :
    Except ApiError Database := do
  requireConversationPermission db ctx .conversationsUpdate evaluationId
  let conversation ← fetchConversation db ctx evaluationId conversationId
  let newGroup ← moveTarget db settings ctx conversation evaluationId changes.conversationGroupId
  assertTagsAllowed (taggingPolicy db conversation.evaluationId) (changes.tags.getD [])
  let changed := { db with
    conversations := db.conversations.modify (key conversation) (changes.applyTo newGroup)
      fun _ => rfl }
  return match newGroup with
    | some _ => softDeleteEmptyGroups changed ctx [conversation.conversationGroupId]
    | none => changed

/-- Soft-delete a conversation, and the group that it empties. -/
def deleteConversation (db : Database) (ctx : Context) (evaluationId conversationId : UUID) :
    Except ApiError Database := do
  requireConversationPermission db ctx .conversationsDelete evaluationId
  let conversation ← fetchConversation db ctx evaluationId conversationId
  return softDeleteEmptyGroups
    { db with
      conversations := softDeleteRow db.conversations ctx.now ctx.callerId (key conversation) }
    ctx [conversation.conversationGroupId]

/-- Restore a conversation, and its group when that has a tombstone. -/
def restoreConversation (db : Database) (settings : Settings) (ctx : Context)
    (evaluationId conversationId : UUID) : Except ApiError Database := do
  requireConversationPermission db ctx .conversationsDelete evaluationId
  let conversation ← getRestorableConversation db settings ctx evaluationId conversationId
  assertGroupHasRoom db settings conversation.conversationGroupId
  return revivePrunedGroup
    { db with conversations := restoreRow db.conversations (key conversation) }
    conversation.conversationGroupId

/-- `_scope` of a listing: the caller sees the group, and the row is the caller's own. In a group
whose role grants `conversations:read_any` every member's rows are read. The break-glass lifts the
rest. -/
def inListing (db : Database) (ctx : Context) (readAny : Bool) (row : Conversation) : Bool :=
  match joinVisibleEvaluationGroup db.toDatabase ctx.callerId ctx.canManage row.evaluationId with
  | some group =>
    ctx.canManage || row.userId == ctx.callerId ||
      (readAny && (db.groupsGranting .conversationsReadAny ctx.callerId).contains group.id)
  | none => false

/-- `list_conversations`: the page of the conversations that the caller reads. Among the
tombstones it is the ones whose assignment is live, without the rows of others. -/
def listConversations (db : Database) (settings : Settings) (ctx : Context)
    (query : ListQuery Conversation) : Page Conversation :=
  query.page
    ((listedRows settings.toSettings ctx.toContext query.deleted db.conversations).filter
      fun row => if query.deleted then inListing db ctx false row && hasLiveAssignment db row
      else inListing db ctx true row)

/-- The endpoint that lists conversations across evaluations. -/
def listConversationsEndpoint (db : Database) (settings : Settings) (ctx : Context)
    (query : ListQuery Conversation) : Except ApiError (Page Conversation) := do
  requirePermission ctx.caller .conversationsRead
  return listConversations db settings ctx query

/-- The endpoint that lists the conversations of one evaluation. -/
def listEvaluationConversations (db : Database) (settings : Settings) (ctx : Context)
    (evaluationId : UUID) (query : ListQuery Conversation) :
    Except ApiError (Page Conversation) := do
  requireConversationPermission db ctx .conversationsRead evaluationId
  let _ ← getVisibleEvaluation db.toDatabase evaluationId ctx.callerId ctx.canManage
  return listConversations db settings ctx
    { query with keep := fun row => row.evaluationId == evaluationId && query.keep row }

/-! ### Cascades -/

/-- Soft-delete the live conversations with one of the assignments, and the groups that this
empties. The groups of deleted conversations are looked at too. -/
def softDeleteConversationsWith (db : Database) (ctx : Context)
    (selects : UUID → Bool) : Database :=
  softDeleteEmptyGroups
    { db with
      conversations := softDeleteWhere db.conversations ctx.now ctx.callerId fun row =>
        selects row.evaluationAiModelId }
    ctx
    ((db.conversations.rows.filter fun row => selects row.evaluationAiModelId).map
      Conversation.conversationGroupId)

/-- `soft_delete_conversations_for_assignment`. -/
def softDeleteConversationsForAssignment (db : Database) (ctx : Context) (assignmentId : UUID) :
    Database :=
  softDeleteConversationsWith db ctx fun id => id == assignmentId

/-- `soft_delete_conversations_for_model`: with an assignment of the model, live or not. -/
def softDeleteConversationsForModel (db : Database) (ctx : Context) (modelId : UUID) : Database :=
  softDeleteConversationsWith db ctx fun id =>
    (db.assignments.rows.filter fun a => a.modelId == modelId).any fun a => key a == id

/-- What an endpoint of the evaluation domain does to the conversations. -/
def cascade (db : Database) (ctx : Context) : Evaluations.Request → Database
  | .unassignModel _ assignmentId => softDeleteConversationsForAssignment db ctx assignmentId
  | .deleteModel modelId => softDeleteConversationsForModel db ctx modelId
  | _ => db

/-! ### Requests -/

/-- A call of an endpoint. -/
inductive Request
  | registry (request : Evaluations.Request)
  | createConversationGroup (scenarioId : UUID) (form : ConversationGroupCreate)
  | renameConversationGroup (evaluationId groupId : UUID) (name : Title)
  | deleteConversationGroup (evaluationId groupId : UUID)
  | createConversation (scenarioId : UUID) (form : ConversationForm)
  | updateConversation (evaluationId conversationId : UUID) (changes : ConversationUpdate)
  | deleteConversation (evaluationId conversationId : UUID)
  | restoreConversation (evaluationId conversationId : UUID)

/-- The handler of a request. -/
def Request.handle (settings : Settings) (ctx : Context) (db : Database) :
    Request → Except ApiError Database
  | .registry request => do
    let tables ← Evaluations.perform settings.toSettings db.toDatabase
      { toContext := ctx.toContext, request }
    return cascade { db with toDatabase := tables } ctx request
  | .createConversationGroup scenarioId form =>
    Services.createConversationGroup db settings ctx scenarioId form
  | .renameConversationGroup evaluationId groupId name =>
    Services.renameConversationGroup db ctx evaluationId groupId name
  | .deleteConversationGroup evaluationId groupId =>
    Services.deleteConversationGroup db ctx evaluationId groupId
  | .createConversation scenarioId form =>
    Services.createConversation db settings ctx scenarioId form
  | .updateConversation evaluationId conversationId changes =>
    Services.updateConversation db settings ctx evaluationId conversationId changes
  | .deleteConversation evaluationId conversationId =>
    Services.deleteConversation db ctx evaluationId conversationId
  | .restoreConversation evaluationId conversationId =>
    Services.restoreConversation db settings ctx evaluationId conversationId

/-- A request with its caller, the clock, and the ids that it draws. -/
structure Label where
  context : Context
  request : Request

/-- One committed request. -/
def step (settings : Settings) (db : Database) (l : Label) : Option Database :=
  (l.request.handle settings l.context db).toOption

end RedTeaming.Conversations.Services
