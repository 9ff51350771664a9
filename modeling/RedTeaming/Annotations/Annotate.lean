import RedTeaming.Analytics.Rows
import RedTeaming.Annotations.Labels
import RedTeaming.Conversations.Tags
import RedTeaming.Evaluations.Reads
import RedTeaming.Library.Locks

/-!
# `RedTeaming.Annotations.Annotate`: annotating, statement by statement

`core/annotations/services/annotations.py`, and the requests of `api/v1/annotations.py` that
write. A transaction runs one statement of its request after another, and those of other
transactions come in between. A statement reads what is committed at its time. What a transaction
has written (`Txn.label`, `Txn.write`) is committed at its end.

Two unique indexes cover the live rows: the author and the wording of a typed label, and the
message, the label, and the author of an annotation. A write takes the key of its row in such an
index (`LockKey`). A write under a key that another transaction has taken waits for the end of it,
as in the database. An insert that finds a committed row under its key fails, and the service
reads that row.

A sync runs in one step. `elsewhere` stands for what the rest of the application commits.
-/

set_option autoImplicit false

namespace RedTeaming.Annotations

open RedTeaming.Auth
open RedTeaming.Conversations (Conversation)
open RedTeaming.Conversations.Tags (sanitiseSingleLine)
open RedTeaming.Library

/-- A row of `annotations`. -/
structure Annotation extends BaseModel where
  messageId : UUID
  labelId : UUID
  createdById : UserId
  conversationId : UUID
  evaluationId : UUID
  evaluationGroupId : UUID
deriving DecidableEq

instance : Entity Annotation :=
  ⟨(·.toBaseModel), fun r b => { r with toBaseModel := b }, fun _ _ => rfl⟩

/-- The tables that an annotation hangs on. -/
structure Surroundings where
  base : Evaluations.Database
  conversations : Table Conversation
  turns : Table Analytics.Turn
  messages : Table Analytics.Message

/-- The message of an annotation, with its conversation and its group. -/
structure Anchor where
  messageId : UUID
  conversation : Conversation
  evaluationGroupId : UUID

/-- The ids that a request draws: `fresh.row` for an annotation, and `freshLabel` for a label. -/
structure Context extends Evaluations.Context where
  freshLabel : UUID

/-! ### Reads -/

/-- `resolve_annotation_message`: the anchor of a live message that the caller sees. -/
def resolveAnnotationMessage (db : Surroundings) (messageId : UUID) (callerId : UserId) :
    Except ApiError Anchor :=
  found (do
    let message ← findLive db.messages messageId
    let turn ← findLive db.turns message.turnId
    let conversation ← findLive db.conversations turn.conversationId
    let group ← Evaluations.joinVisibleEvaluationGroup db.base callerId false
      conversation.evaluationId
    return ⟨message.id, conversation, group.id⟩)
    (.notFound ("Message " ++ toString messageId ++ " not found."))

/-- `join_conversation_scoped` without the author: the annotation is in a live conversation of a
group that the caller sees. -/
def inScope (db : Surroundings) (callerId : UserId) (canManage : Bool)
    (row : Annotation) : Bool :=
  (Evaluations.joinVisibleEvaluationGroup db.base callerId canManage
    row.evaluationId).isSome && (findLive db.conversations row.conversationId).isSome

/-- `labels_used_in_conversation`: the labels of the live annotations that the caller sees
there. -/
def labelsUsedInConversation (db : Surroundings) (annotations : Table Annotation)
    (conversationId : UUID) (callerId : UserId) (canManage : Bool) : List UUID :=
  ((liveSelect annotations).filter fun row =>
    inScope db callerId canManage row && row.conversationId == conversationId).map
      Annotation.labelId

/-- The live annotations with the message, the label, and the author. -/
def liveDuplicates (annotations : Table Annotation) (messageId labelId : UUID) (author : UserId) :
    List Annotation :=
  (liveSelect annotations).filter fun row =>
    row.messageId == messageId && row.labelId == labelId && row.createdById == author

/-- `get_annotation` of a mutation. -/
def getAnnotation (db : Surroundings) (annotations : Table Annotation) (ctx : Context)
    (annotationId : UUID) : Except ApiError Annotation :=
  found
    ((findLive annotations annotationId).filter fun row =>
      inScope db ctx.callerId ctx.canManage row)
    (.notFound ("Annotation " ++ toString annotationId ++ " not found."))

/-- `assert_may_delete_annotation`. -/
def assertMayDeleteAnnotation (ctx : Context) (row : Annotation) : Except ApiError Unit :=
  check (ctx.canManage || row.createdById == ctx.callerId)
    (.forbidden "Only the annotation's author may delete it.")

/-- `get_restorable_annotation`. -/
def getRestorableAnnotation (db : Surroundings) (annotations : Table Annotation)
    (settings : Evaluations.Settings) (ctx : Context) (annotationId : UUID) :
    Except ApiError Annotation :=
  found
    ((findRestorable annotations (ctx.restoreCutoff settings) ctx.deletedBy annotationId).filter
      fun row => inScope db ctx.callerId ctx.canManage row)
    (.notFound ("No restorable annotation " ++ toString annotationId
      ++ " was deleted within the restore window."))

/-! ### Requests -/

/-- The payload of an annotation: a label, or a text that names one. -/
structure AnnotationCreate where
  messageId : UUID
  labelId : Option UUID := none
  text : Option String := none

/-- `ANNOTATION_TEXT_MAX_LENGTH`. -/
def annotationTextMaxLength : Nat := 128

/-- The validators of the payload. An invisible text counts as absent. -/
def AnnotationCreate.validate (payload : AnnotationCreate) :
    Except ApiError AnnotationCreate := do
  check (payload.text.all fun text => 1 ≤ text.length && text.length ≤ annotationTextMaxLength)
    (.validationError "String should have at least 1 and at most 128 characters")
  let text := (payload.text.map sanitiseSingleLine).filter fun text => !text.isEmpty
  check (payload.labelId.isNone != text.isNone)
    (.validationError "Provide exactly one of 'label_id' and 'text'.")
  return { payload with text }

/-- A request that writes. -/
inductive Request
  | create (payload : AnnotationCreate)
  | delete (annotationId : UUID)
  | restore (annotationId : UUID)

/-- The permission that the route of a request asks for. -/
def Request.permission : Request → Permission
  | .create _ => .annotationsCreate
  | .delete _ | .restore _ => .annotationsDelete

/-- The next statement of a transaction. -/
inductive Phase
  | resolveMessage (draft : AnnotationCreate)
  | resolveLabel (draft : AnnotationCreate) (anchor : Anchor)
  | checkOffered (anchor : Anchor) (label : AnnotationLabel)
  | findShared (anchor : Anchor) (name : String)
  | findOwn (anchor : Anchor) (name : String)
  | insertLabel (anchor : Anchor) (name : String)
  | rereadOwn (anchor : Anchor) (name : String)
  | findDuplicate (anchor : Anchor) (labelId : UUID)
  | insertRow (anchor : Anchor) (labelId : UUID)
  | rereadDuplicate (anchor : Anchor) (labelId : UUID)
  | lockLive (annotationId : UUID)
  | delete (row : Annotation)
  | lockTombstone (annotationId : UUID)
  | restore (row : Annotation)
  | finished

/-- The first statement of a request. -/
def Request.start : Request → Except ApiError Phase
  | .create payload => do
    let draft ← payload.validate
    return .resolveMessage draft
  | .delete annotationId => .ok (.lockLive annotationId)
  | .restore annotationId => .ok (.lockTombstone annotationId)

/-! ### The system -/

abbrev TxnId := Nat

/-- What a transaction locks: an author's wording, the key of a live annotation, or a row. -/
inductive LockKey
  | wording (author : UserId) (folded : String)
  | triple (messageId labelId : UUID) (author : UserId)
  | row (annotationId : UUID)
deriving DecidableEq

/-- The key of an annotation in its unique index. -/
def Annotation.triple (row : Annotation) : LockKey :=
  .triple row.messageId row.labelId row.createdById

/-- An annotation that a transaction has written: a new row, or a new version of a row. -/
inductive Write
  | insert (row : Annotation)
  | update (row : Annotation)

/-- The row that a write leaves. -/
def Write.row : Write → Annotation
  | .insert row | .update row => row

/-- An open transaction, with its next statement and what it has written. -/
structure Txn where
  ctx : Context
  phase : Phase
  label : Option AnnotationLabel := none
  write : Option Write := none

/-- The committed rows, the locks, and the open transactions. -/
structure State where
  labels : Table AnnotationLabel
  annotations : Table Annotation
  around : Surroundings
  locks : Locks LockKey TxnId
  txns : TxnId → Option Txn

/-- One step of the system. -/
inductive Event
  | start (t : TxnId) (ctx : Context) (request : Request)
  | statement (t : TxnId)
  | commit (t : TxnId)
  | abort (t : TxnId)
  | sync (now : Time) (catalogue : List CuratedAnnotationLabel)
  | elsewhere (around : Surroundings)

/-- The label that `find_or_create_user_label` makes. -/
def Txn.newLabel (x : Txn) (name : String) : AnnotationLabel where
  toBaseModel := x.ctx.newRow x.ctx.freshLabel
  createdById := some x.ctx.callerId
  name

/-- The annotation that `create_annotation` makes. -/
def Txn.newAnnotation (x : Txn) (anchor : Anchor) (labelId : UUID) : Annotation where
  toBaseModel := x.ctx.newRow x.ctx.fresh.row
  messageId := anchor.messageId
  labelId
  createdById := x.ctx.callerId
  conversationId := anchor.conversation.id
  evaluationId := anchor.conversation.evaluationId
  evaluationGroupId := anchor.evaluationGroupId

namespace State
variable (s : State)

/-- The transaction `t` is `x` now. -/
def put (t : TxnId) (x : Txn) : State := { s with txns := Function.update s.txns t (some x) }

/-- The transaction goes on with another statement. -/
def goto (t : TxnId) (x : Txn) (phase : Phase) : State := s.put t { x with phase }

/-- The transaction takes a key, unless it has to wait for it. -/
def lock (t : TxnId) (k : LockKey) : Option State :=
  if s.locks.mayTake k t then some { s with locks := s.locks.take k t } else none

/-- The state after the transaction ended. -/
def close (t : TxnId) : State :=
  { s with txns := Function.update s.txns t none, locks := s.locks.release t }

/-- A committed live row, other than `row`, has its key. -/
def occupied (row : Annotation) : Bool :=
  (liveDuplicates s.annotations row.messageId row.labelId row.createdById).any fun other =>
    other.id != row.id

end State

variable (w : Wording) (settings : Evaluations.Settings)

/-- The next statement of a transaction. A statement that raises has no step, nor has one that
waits, so that the abort is left. -/
def statement (s : State) (t : TxnId) (x : Txn) : Option State :=
  match x.phase with
  | .resolveMessage draft =>
    (resolveAnnotationMessage s.around draft.messageId x.ctx.callerId).toOption.map fun anchor =>
      s.goto t x (.resolveLabel draft anchor)
  | .resolveLabel draft anchor =>
    match draft.labelId, draft.text with
    | some labelId, _ =>
      (findLive s.labels labelId).map fun label =>
        if label.createdById.isNone || label.createdById == some x.ctx.callerId then
          s.goto t x (.findDuplicate anchor label.id)
        else s.goto t x (.checkOffered anchor label)
    | none, some text => some (s.goto t x (.findShared anchor (sanitiseSingleLine text)))
    -- "Provide exactly one of 'label_id' and 'text'."
    | none, none => none
  | .checkOffered anchor label =>
    if (labelsUsedInConversation s.around s.annotations anchor.conversation.id x.ctx.callerId
        false).contains label.id then
      some (s.goto t x (.findShared anchor (sanitiseSingleLine label.name)))
    else none
  | .findShared anchor name =>
    match sharedLabel w s.labels name with
    | some label => some (s.goto t x (.findDuplicate anchor label.id))
    | none => some (s.goto t x (.findOwn anchor name))
  | .findOwn anchor name =>
    (ownLabel w s.labels x.ctx.callerId name).toOption.map fun found =>
      match found with
      | some label => s.goto t x (.findDuplicate anchor label.id)
      | none => s.goto t x (.insertLabel anchor name)
  | .insertLabel anchor name =>
    (s.lock t (.wording x.ctx.callerId (w.lower name))).map fun locked =>
      if (ownLabels w s.labels x.ctx.callerId name).isEmpty then
        let label := x.newLabel name
        locked.put t { x with phase := .findDuplicate anchor label.id, label := some label }
      -- The savepoint is rolled back, and the label of the other insert is read.
      else s.goto t x (.rereadOwn anchor name)
  | .rereadOwn anchor name =>
    match ownLabel w s.labels x.ctx.callerId name with
    | .ok (some label) => some (s.goto t x (.findDuplicate anchor label.id))
    | .ok none | .error _ => none
  | .findDuplicate anchor labelId =>
    if (liveDuplicates s.annotations anchor.messageId labelId x.ctx.callerId).isEmpty then
      some (s.goto t x (.insertRow anchor labelId))
    else some (s.goto t x .finished)
  | .insertRow anchor labelId =>
    let row := x.newAnnotation anchor labelId
    (s.lock t row.triple).map fun locked =>
      if (liveDuplicates s.annotations anchor.messageId labelId x.ctx.callerId).isEmpty then
        locked.put t { x with phase := .finished, write := some (.insert row) }
      else s.goto t x (.rereadDuplicate anchor labelId)
  | .rereadDuplicate anchor labelId =>
    if (liveDuplicates s.annotations anchor.messageId labelId x.ctx.callerId).isEmpty then none
    else some (s.goto t x .finished)
  | .lockLive annotationId =>
    (s.lock t (.row annotationId)).bind fun locked =>
      let readable := Except.toOption <| getAnnotation s.around s.annotations x.ctx annotationId
      (readable.filter fun row =>
        Option.isSome <| Except.toOption <| assertMayDeleteAnnotation x.ctx row).map fun row =>
          locked.goto t x (.delete row)
  | .delete row =>
    (s.lock t row.triple).map fun locked =>
      locked.put t
        { x with phase := .finished,
                 write := some (.update (softDelete x.ctx.now x.ctx.callerId row)) }
  | .lockTombstone annotationId =>
    (s.lock t (.row annotationId)).bind fun locked =>
      let restorable := Except.toOption <|
        getRestorableAnnotation s.around s.annotations settings x.ctx annotationId
      restorable.map fun row => locked.goto t x (.restore row)
  | .restore row =>
    (s.lock t row.triple).bind fun locked =>
      -- "An identical annotation already exists."
      if s.occupied row then none
      else some (locked.put t
        { x with phase := .finished, write := some (.update (restore row)) })
  | .finished => none

/-- The labels after a commit. -/
def commitLabel (labels : Table AnnotationLabel) : Option AnnotationLabel →
    Option (Table AnnotationLabel)
  | none => some labels
  | some label => labels.insertAll [label]

/-- The annotations after a commit. -/
def commitWrite (annotations : Table Annotation) : Option Write → Option (Table Annotation)
  | none => some annotations
  | some (.insert row) => annotations.insertAll [row]
  | some (.update row) => some (annotations.overwrite [row])

/-- One step. -/
def step (s : State) : Event → Option State
  | .start t ctx request =>
    if s.txns t = none then
      (do
        requirePermission ctx.caller request.permission
        request.start).toOption.map fun phase => s.put t { ctx, phase }
    else none
  | .statement t => (s.txns t).bind (statement w settings s t)
  | .commit t =>
    match s.txns t with
    | some ⟨_, .finished, label, write⟩ =>
      (commitLabel s.labels label).bind fun labels =>
        (commitWrite s.annotations write).map fun annotations =>
          { (s.close t) with labels, annotations }
    | _ => none
  | .abort t => if (s.txns t).isSome then some (s.close t) else none
  | .sync now catalogue =>
    (syncAnnotationLabels w now s.labels catalogue).toOption.map fun labels => { s with labels }
  | .elsewhere around => some { s with around }

end RedTeaming.Annotations
