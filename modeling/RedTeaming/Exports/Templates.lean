import RedTeaming.Annotations.Rows
import RedTeaming.Conversations.Replay
import RedTeaming.Exports.Rendering
import RedTeaming.Reviews.Rows

/-!
# `RedTeaming.Exports.Templates`: the columns of the export templates

The six templates of `core/exports/templates/`, with the rows that their columns read. `Template`
is the catalog of `core/exports/catalog.py`. The fetchers are not modelled: a row may hold any
texts, ids, and times. Of `extra`, a message has the two keys that the columns read.

A column is `Plain` when it has no formatter, and `Encoded` when its formatter is `json.dumps` and
its value is a list or a `dict`. `column_kinds` says that there are no other columns.
-/

set_option autoImplicit false

namespace RedTeaming.Exports.Templates

open RedTeaming.Exports.Rendering
open RedTeaming.Library

/-! ### Values of columns -/

/-- The value of a role. -/
def roleValue : Conversations.MessageRole → String
  | .user => "user"
  | .assistant => "assistant"
  | .system => "system"

/-- The value of the status of a flag. -/
def flagStatusValue : Annotations.FlagStatus → String
  | .pending => "pending"
  | .approved => "approved"
  | .rejected => "rejected"

/-- The value of the status of a review. -/
def reviewStatusValue : Reviews.ReviewStatus → String
  | .pending => "pending"
  | .approved => "approved"
  | .rejected => "rejected"

/-- A value that may be absent. -/
def optional {α : Type} (value : α → PyValue) : Option α → PyValue
  | none => .none
  | some a => value a

/-- A tag map. -/
def tagsValue (tags : Dict String String) : PyValue :=
  .dict (tags.entries.map fun entry => (entry.1, .str entry.2))

/-- A list of keys. -/
def keysValue (keys : List String) : PyValue := .list (keys.map .str)

/-- `lambda v: json.dumps(v, ensure_ascii=False)`. -/
def jsonCell : PyValue → Option Text := dumps spaced

/-- `" ".join(...)` over ids as text. -/
def joined (ids : List Text) : PyValue := .str (String.ofList ([' '].intercalate ids))

/-! ### Rows -/

/-- A message, as the columns read it. -/
structure Message where
  id : UUID
  turnId : UUID
  replacesMessageId : Option UUID
  role : Conversations.MessageRole
  status : Conversations.MessageStatus
  slot : Option String
  tags : Dict String String
  tagContext : Option (Dict String String)
  tagContextPartial : Option Bool
  createdAt : DateTime

/-- An entry of `message_dicts`. -/
structure MessageDict where
  messageId : String
  turnId : String
  role : String
  status : String
  content : String
  tags : Dict String String

/-- The `dict`. -/
def MessageDict.value (message : MessageDict) : PyValue :=
  .dict [("message_id", .str message.messageId), ("turn_id", .str message.turnId),
    ("role", .str message.role), ("status", .str message.status),
    ("content", .str message.content), ("tags", tagsValue message.tags)]

/-- The list of embedded messages. -/
def messagesValue (messages : List MessageDict) : PyValue :=
  .list (messages.map MessageDict.value)

/-- A flag, as the columns read it. -/
structure MessageFlag where
  id : UUID
  status : Annotations.FlagStatus
  redFlagged : Bool
  reason : String
  comment : Option String
  evaluationId : UUID
  conversationId : UUID
  scenarioId : Option UUID
  taskId : Option UUID
  createdById : UUID
  createdAt : DateTime
  messages : List Message

/-- `FlagRow`. -/
structure FlagRow where
  flag : MessageFlag
  evaluationTitle : Option String
  authorEmail : Option String
  scenarioName : Option String
  taskName : Option String
  messages : List MessageDict

/-- A conversation, as the columns read it. -/
structure Conversation where
  id : UUID
  evaluationId : UUID
  evaluationAiModelId : UUID
  scenarioId : UUID
  conversationGroupId : UUID
  userId : UUID
  tags : Dict String String
  createdAt : DateTime

/-- `ConversationRow`. -/
structure ConversationRow where
  conversation : Conversation
  evaluationTitle : Option String
  ownerEmail : Option String
  scenarioName : Option String
  tagsNotSent : List String

/-- A group of conversations, as the columns read it. -/
structure ConversationGroup where
  id : UUID
  name : String
  evaluationId : UUID
  scenarioId : UUID
  userId : UUID
  conversations : List Conversation
  createdAt : DateTime

/-- `ConversationGroupRow`. -/
structure ConversationGroupRow where
  group : ConversationGroup
  evaluationTitle : Option String
  ownerEmail : Option String
  scenarioName : Option String

/-- `EngagementReportRow`. -/
structure EngagementReportRow where
  redteamerEmail : Option String
  evaluationGroupId : UUID
  evaluationGroupTitle : Option String
  evaluationId : UUID
  evaluationTitle : String
  dataLicense : String
  conversationId : UUID
  startedAt : DateTime
  conversationTags : Dict String String
  tagsNotSent : List String
  messages : List MessageDict

/-- A review, as the columns read it. -/
structure Review where
  id : UUID
  evaluationId : UUID
  messageFlagId : UUID
  reviewerId : UUID
  status : Reviews.ReviewStatus
  successfulExploit : Option Bool
  uniqueExploit : Option Bool
  validSubmission : Option Bool
  notes : Option String
  createdAt : DateTime
  updatedAt : DateTime

/-- `ReviewRow`. -/
structure ReviewRow where
  review : Review
  evaluationTitle : Option String
  reviewerEmail : Option String

/-- `TranscriptRow`. -/
structure TranscriptRow where
  evaluationId : UUID
  evaluationTitle : Option String
  dataLicense : String
  conversationId : UUID
  conversationTags : Dict String String
  message : Message
  content : String
  tagsNotSent : List String

/-! ### Columns -/

/-- `_COLUMNS` of `flags.py`. -/
def flagColumns : List (Column FlagRow) := [
  { header := "Flag ID", value := fun r => .uuid r.flag.id },
  { header := "Status", value := fun r => .str (flagStatusValue r.flag.status) },
  { header := "Red-flagged", value := fun r => .bool r.flag.redFlagged },
  { header := "Reason", value := fun r => .str r.flag.reason },
  { header := "Comment", value := fun r => optional .str r.flag.comment },
  { header := "Evaluation ID", value := fun r => .uuid r.flag.evaluationId },
  { header := "Evaluation title", value := fun r => optional .str r.evaluationTitle },
  { header := "Conversation ID", value := fun r => .uuid r.flag.conversationId },
  { header := "Scenario ID", value := fun r => optional .uuid r.flag.scenarioId },
  { header := "Scenario name", value := fun r => optional .str r.scenarioName },
  { header := "Task ID", value := fun r => optional .uuid r.flag.taskId },
  { header := "Task name", value := fun r => optional .str r.taskName },
  { header := "Author ID", value := fun r => .uuid r.flag.createdById },
  { header := "Author email", value := fun r => optional .str r.authorEmail },
  { header := "Flagged message count", value := fun r => .int r.flag.messages.length },
  { header := "Flagged message IDs",
    value := fun r => joined (r.flag.messages.map fun message => uuidText message.id) },
  { header := "Flagged turn IDs",
    value := fun r =>
      joined (r.flag.messages.map fun message => uuidText message.turnId).eraseDups },
  { header := "Flagged messages", value := fun r => messagesValue r.messages,
    formatter := jsonCell },
  { header := "Created", value := fun r => .datetime r.flag.createdAt }]

/-- `_COLUMNS` of `conversations.py`. -/
def conversationColumns : List (Column ConversationRow) := [
  { header := "Conversation ID", value := fun r => .uuid r.conversation.id },
  { header := "Evaluation ID", value := fun r => .uuid r.conversation.evaluationId },
  { header := "Evaluation title", value := fun r => optional .str r.evaluationTitle },
  { header := "Model assignment ID", value := fun r => .uuid r.conversation.evaluationAiModelId },
  { header := "Scenario ID", value := fun r => .uuid r.conversation.scenarioId },
  { header := "Scenario name", value := fun r => optional .str r.scenarioName },
  { header := "Group ID", value := fun r => .uuid r.conversation.conversationGroupId },
  { header := "Owner ID", value := fun r => .uuid r.conversation.userId },
  { header := "Owner email", value := fun r => optional .str r.ownerEmail },
  { header := "Tags", value := fun r => tagsValue r.conversation.tags, formatter := jsonCell },
  { header := "Tags not sent", value := fun r => keysValue r.tagsNotSent, formatter := jsonCell },
  { header := "Created", value := fun r => .datetime r.conversation.createdAt }]

/-- `_COLUMNS` of `conversation_groups.py`. -/
def conversationGroupColumns : List (Column ConversationGroupRow) := [
  { header := "Group ID", value := fun r => .uuid r.group.id },
  { header := "Name", value := fun r => .str r.group.name },
  { header := "Evaluation ID", value := fun r => .uuid r.group.evaluationId },
  { header := "Evaluation title", value := fun r => optional .str r.evaluationTitle },
  { header := "Scenario ID", value := fun r => .uuid r.group.scenarioId },
  { header := "Scenario name", value := fun r => optional .str r.scenarioName },
  { header := "Owner ID", value := fun r => .uuid r.group.userId },
  { header := "Owner email", value := fun r => optional .str r.ownerEmail },
  { header := "Conversation count", value := fun r => .int r.group.conversations.length },
  { header := "Conversation IDs",
    value := fun r =>
      joined (r.group.conversations.map fun conversation => uuidText conversation.id) },
  { header := "Created", value := fun r => .datetime r.group.createdAt }]

/-- `_COLUMNS` of `engagement_report.py`. -/
def engagementReportColumns : List (Column EngagementReportRow) := [
  { header := "Red-teamer email", value := fun r => optional .str r.redteamerEmail },
  { header := "Evaluation group ID", value := fun r => .uuid r.evaluationGroupId },
  { header := "Evaluation group title", value := fun r => optional .str r.evaluationGroupTitle },
  { header := "Evaluation ID", value := fun r => .uuid r.evaluationId },
  { header := "Evaluation title", value := fun r => .str r.evaluationTitle },
  { header := "Data license", value := fun r => .str r.dataLicense },
  { header := "Conversation ID", value := fun r => .uuid r.conversationId },
  { header := "Started at", value := fun r => .datetime r.startedAt },
  { header := "Conversation tags", value := fun r => tagsValue r.conversationTags,
    formatter := jsonCell },
  { header := "Tags not sent", value := fun r => keysValue r.tagsNotSent, formatter := jsonCell },
  { header := "Messages", value := fun r => messagesValue r.messages, formatter := jsonCell }]

/-- `_COLUMNS` of `reviews.py`. -/
def reviewColumns : List (Column ReviewRow) := [
  { header := "Review ID", value := fun r => .uuid r.review.id },
  { header := "Evaluation ID", value := fun r => .uuid r.review.evaluationId },
  { header := "Evaluation title", value := fun r => optional .str r.evaluationTitle },
  { header := "Submission (flag) ID", value := fun r => .uuid r.review.messageFlagId },
  { header := "Reviewer ID", value := fun r => .uuid r.review.reviewerId },
  { header := "Reviewer email", value := fun r => optional .str r.reviewerEmail },
  { header := "Status", value := fun r => .str (reviewStatusValue r.review.status) },
  { header := "Successful exploit", value := fun r => optional .bool r.review.successfulExploit },
  { header := "Unique exploit", value := fun r => optional .bool r.review.uniqueExploit },
  { header := "Valid submission", value := fun r => optional .bool r.review.validSubmission },
  { header := "Notes", value := fun r => optional .str r.review.notes },
  { header := "Created", value := fun r => .datetime r.review.createdAt },
  { header := "Verdict recorded", value := fun r => .datetime r.review.updatedAt }]

/-- `_COLUMNS` of `transcript.py`. -/
def transcriptColumns : List (Column TranscriptRow) := [
  { header := "Evaluation ID", value := fun r => .uuid r.evaluationId },
  { header := "Evaluation title", value := fun r => optional .str r.evaluationTitle },
  { header := "Data license", value := fun r => .str r.dataLicense },
  { header := "Conversation ID", value := fun r => .uuid r.conversationId },
  { header := "Message ID", value := fun r => .uuid r.message.id },
  { header := "Turn ID", value := fun r => .uuid r.message.turnId },
  { header := "Replaces message ID", value := fun r =>
      optional .uuid r.message.replacesMessageId },
  { header := "Role", value := fun r => .str (roleValue r.message.role) },
  { header := "Status", value := fun r => .str r.message.status.value },
  { header := "Content", value := fun r => .str r.content },
  { header := "Slot", value := fun r => optional .str r.message.slot },
  { header := "Conversation tags", value := fun r => tagsValue r.conversationTags,
    formatter := jsonCell },
  { header := "Message tags", value := fun r => tagsValue r.message.tags, formatter := jsonCell },
  -- `recorded_tag_context(r.message) or {}`: no record counts as an empty one.
  { header := "Tag context", value := fun r => tagsValue (r.message.tagContext.getD .empty),
    formatter := jsonCell },
  { header := "Tag context partial",
    value := fun r => .bool (r.message.tagContextPartial.getD false) },
  { header := "Tags not sent", value := fun r => keysValue r.tagsNotSent, formatter := jsonCell },
  { header := "Created", value := fun r => .datetime r.message.createdAt }]

/-! ### The catalog -/

/-- The entries of `_CATALOG`. -/
inductive Template
  | flags
  | conversations
  | conversationGroups
  | engagementReport
  | reviews
  | transcript
deriving DecidableEq, Repr

/-- The key of a template. -/
def Template.key : Template → String
  | .flags => "flags"
  | .conversations => "conversations"
  | .conversationGroups => "conversation-groups"
  | .engagementReport => "engagement_report"
  | .reviews => "reviews"
  | .transcript => "transcript"

/-- The rows of a template. -/
def Template.Row : Template → Type
  | .flags => FlagRow
  | .conversations => ConversationRow
  | .conversationGroups => ConversationGroupRow
  | .engagementReport => EngagementReportRow
  | .reviews => ReviewRow
  | .transcript => TranscriptRow

/-- The columns of a template. -/
def Template.columns : (t : Template) → List (Column t.Row)
  | .flags => flagColumns
  | .conversations => conversationColumns
  | .conversationGroups => conversationGroupColumns
  | .engagementReport => engagementReportColumns
  | .reviews => reviewColumns
  | .transcript => transcriptColumns

/-- The rows carry the effective license. -/
def Template.needsEffectiveLicense : Template → Bool
  | .engagementReport | .transcript => true
  | _ => false

/-! ### What the columns are -/

section
variable {T : Type}

/-- The value is no list and no `dict`. -/
def Scalar : PyValue → Prop
  | .list _ | .dict _ => False
  | _ => True

/-- The column has the default formatter, and its values are scalars. -/
def Plain (column : Column T) : Prop :=
  column.formatter = none ∧ ∀ row, Scalar (column.value row)

/-- The column has the formatter `json.dumps`, and its values are lists or maps without ids and
times. -/
def Encoded (column : Column T) : Prop :=
  column.formatter = some jsonCell ∧
    ∀ row, ¬ Scalar (column.value row) ∧ Native (column.value row)

@[simp] theorem scalar_str (s : String) : Scalar (.str s) := trivial
@[simp] theorem scalar_bool (b : Bool) : Scalar (.bool b) := trivial
@[simp] theorem scalar_int (n : Int) : Scalar (.int n) := trivial
@[simp] theorem scalar_uuid (id : UUID) : Scalar (.uuid id) := trivial
@[simp] theorem scalar_datetime (t : DateTime) : Scalar (.datetime t) := trivial

/-- An absent value is a scalar too. -/
theorem scalar_optional {α : Type} {value : α → PyValue} (h : ∀ a, Scalar (value a))
    (a : Option α) :
    Scalar (optional value a) := by
  cases a with
  | none => trivial
  | some a => exact h a

@[simp] theorem scalar_optional_str (s : Option String) : Scalar (optional .str s) :=
  scalar_optional scalar_str s

@[simp] theorem scalar_optional_bool (b : Option Bool) : Scalar (optional .bool b) :=
  scalar_optional scalar_bool b

@[simp] theorem scalar_optional_uuid (id : Option UUID) : Scalar (optional .uuid id) :=
  scalar_optional scalar_uuid id

@[simp] theorem not_scalar_tags (tags : Dict String String) : ¬ Scalar (tagsValue tags) := id
@[simp] theorem not_scalar_keys (keys : List String) : ¬ Scalar (keysValue keys) := id
@[simp] theorem not_scalar_messages (messages : List MessageDict) :
    ¬ Scalar (messagesValue messages) := id

@[simp] theorem native_tags (tags : Dict String String) : Native (tagsValue tags) := by
  show NativeEntries (tags.entries.map fun entry => (entry.1, .str entry.2))
  -- Every tag value is a string.
  induction tags.entries with
  | nil => trivial
  | cons entry entries ih => exact ⟨trivial, ih⟩

@[simp] theorem native_keys (keys : List String) : Native (keysValue keys) := by
  show NativeItems (keys.map .str)
  induction keys with
  | nil => trivial
  | cons key keys ih => exact ⟨trivial, ih⟩

@[simp] theorem native_messages (messages : List MessageDict) :
    Native (messagesValue messages) := by
  show NativeItems (messages.map MessageDict.value)
  induction messages with
  | nil => trivial
  | cons message messages ih =>
    -- A message has strings and its tags, and no id or time.
    exact ⟨⟨trivial, trivial, trivial, trivial, trivial, native_tags message.tags, trivial⟩, ih⟩

end

/-- Every column of every template is of one of the two kinds. -/
theorem column_kinds (t : Template) : ∀ column ∈ t.columns, Plain column ∨ Encoded column := by
  cases t with
  | flags =>
    show ∀ column ∈ flagColumns, Plain column ∨ Encoded column
    simp [flagColumns, Plain, Encoded, joined]
  | conversations =>
    show ∀ column ∈ conversationColumns, Plain column ∨ Encoded column
    simp [conversationColumns, Plain, Encoded]
  | conversationGroups =>
    show ∀ column ∈ conversationGroupColumns, Plain column ∨ Encoded column
    simp [conversationGroupColumns, Plain, joined]
  | engagementReport =>
    show ∀ column ∈ engagementReportColumns, Plain column ∨ Encoded column
    simp [engagementReportColumns, Plain, Encoded]
  | reviews =>
    show ∀ column ∈ reviewColumns, Plain column ∨ Encoded column
    simp [reviewColumns, Plain]
  | transcript =>
    show ∀ column ∈ transcriptColumns, Plain column ∨ Encoded column
    simp [transcriptColumns, Plain, Encoded]

/-- The headers of a template are distinct. -/
theorem headers_nodup (t : Template) : (t.columns.map fun column => column.header).Nodup := by
  cases t <;> decide

end RedTeaming.Exports.Templates
