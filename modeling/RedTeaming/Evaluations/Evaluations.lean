import RedTeaming.Evaluations.Groups

/-!
# `RedTeaming.Evaluations.Evaluations`: evaluations, model assignments, and scenarios

The writes of `core/evaluations/services/evaluations.py`, `assignments.py`, and `scenarios.py`,
with the endpoints that call them, and the two copies: `duplicate_evaluation` and
`duplicate_evaluation_group`.

Each write of an evaluation, or of a row under it, passes `authorizeEvaluationMutation`. Two of
the gates are separate calls that a path makes for itself. `assertGroupAcceptsEvaluations` reads
the status of the group, in the create and in the copy of an evaluation. The subset gate of
`RedTeaming.Evaluations.GroupModels` is made by the assign endpoint.

The deletion of the conversations that chose an assignment is not modelled. It writes tables that
nothing here reads.
-/

set_option autoImplicit false

namespace RedTeaming.Evaluations

open RedTeaming.Auth
open RedTeaming.Library

/-- `_assert_group_accepts_evaluations`: the group is approved or published. -/
def assertGroupAcceptsEvaluations (groupId : UUID) (groupStatus : PublicationStatus) :
    Except ApiError Unit :=
  check (groupStatusesAcceptingEvaluations.contains groupStatus)
    (.conflict ("Evaluation group " ++ toString groupId ++ " is '" ++ groupStatus.value
      ++ "'; evaluations can be added only to an approved or published group."))

/-- The message of an evaluation that is missing. -/
def evaluationNotFound (evaluationId : UUID) : ApiError :=
  .notFound ("Evaluation " ++ toString evaluationId ++ " not found.")

/-- `authorize_evaluation_mutation`: the live group of an evaluation that the caller may write,
with its status. `allowDeleted` admits a tombstoned evaluation, for a restore. -/
def authorizeEvaluationMutation (db : Database) (ctx : Context) (evaluationId : UUID)
    (p : Permission) (allowDeleted : Bool) : Except ApiError (UUID × PublicationStatus) := do
  let evaluation := (db.evaluations.find? evaluationId).filter fun e => allowDeleted || live e
  match evaluation.bind fun e => findLive db.groups e.evaluationGroupId with
  | none => throw (evaluationNotFound evaluationId)
  | some group =>
    assertGroupWriteAccess db group.id ctx.callerId ctx.canManage p
      ("Evaluation " ++ toString evaluationId ++ " not found.")
    return (group.id, group.status)

/-- `get_evaluation` without a caller: one live evaluation by id. -/
def getEvaluation (db : Database) (evaluationId : UUID) : Except ApiError Evaluation :=
  match findLive db.evaluations evaluationId with
  | some evaluation => .ok evaluation
  | none => .error (evaluationNotFound evaluationId)

/-- The payload of an evaluation. -/
structure EvaluationCreate where
  title : Title
  description : Option String := none
  evaluationGroupId : UUID
  coverImage : Option String := none
  maskModelsEnabled : Bool := true
  tagsEnabled : Bool := true
  tagsRestricted : Bool := false
  dataLicenseId : Option UUID := none

/-- The row of a create. -/
def EvaluationCreate.row (form : EvaluationCreate) (ctx : Context) : Evaluation where
  toBaseModel := ctx.newRow ctx.fresh.row
  title := form.title.val
  description := form.description
  maskModelsEnabled := form.maskModelsEnabled
  tagsEnabled := form.tagsEnabled
  tagsRestricted := form.tagsRestricted
  coverImage := form.coverImage
  dataLicenseId := form.dataLicenseId
  createdById := ctx.callerId
  evaluationGroupId := form.evaluationGroupId

/-- Create an evaluation in a group that accepts evaluations. -/
def createEvaluation (db : Database) (ctx : Context) (form : EvaluationCreate) :
    Except ApiError Database := do
  match findLive db.groups form.evaluationGroupId with
  | none => throw (groupNotFound form.evaluationGroupId)
  | some group =>
    assertGroupWriteAccess db group.id ctx.callerId ctx.canManage .evaluationsCreate
      ("Evaluation group " ++ toString form.evaluationGroupId ++ " not found.")
    assertGroupAcceptsEvaluations group.id group.status
    validateLicense? db (some form.dataLicenseId)
    let evaluations ← flush db.evaluations [form.row ctx]
    return { db with evaluations }

/-- Soft-delete an evaluation. Only its own row gets a tombstone. -/
def deleteEvaluation (db : Database) (ctx : Context) (evaluationId : UUID) :
    Except ApiError Database := do
  let _ ← authorizeEvaluationMutation db ctx evaluationId .evaluationsDelete false
  let evaluation ← getEvaluation db evaluationId
  return { db with
    evaluations := softDeleteRow db.evaluations ctx.now ctx.callerId evaluation.id }

/-- Who restores: the deleter of the row, or anybody with the break-glass. -/
def Context.deletedBy (ctx : Context) : Option UserId :=
  if ctx.canManage then none else some ctx.callerId

/-- `get_restorable_evaluation`: the tombstone that this caller may restore, under a live
group. -/
def getRestorableEvaluation (db : Database) (settings : Settings) (ctx : Context)
    (evaluationId : UUID) : Except ApiError Evaluation :=
  match (findRestorable db.evaluations (ctx.restoreCutoff settings) ctx.deletedBy
      evaluationId).filter fun e => (findLive db.groups e.evaluationGroupId).isSome with
  | some evaluation => .ok evaluation
  | none => .error (.notFound ("No restorable evaluation " ++ toString evaluationId
      ++ " was deleted within the restore window."))

/-- Restore an evaluation, with the subtree that its delete left in place. -/
def restoreEvaluation (db : Database) (settings : Settings) (ctx : Context)
    (evaluationId : UUID) : Except ApiError Database := do
  let _ ← authorizeEvaluationMutation db ctx evaluationId .evaluationsDelete true
  let evaluation ← getRestorableEvaluation db settings ctx evaluationId
  return { db with evaluations := restoreRow db.evaluations evaluation.id }

/-! ### Model assignments -/

/-- `get_model`: one live model by id. -/
def getModel (db : Database) (modelId : UUID) : Except ApiError AiModel :=
  match findLive db.models modelId with
  | some model => .ok model
  | none => .error (.notFound ("Model " ++ toString modelId ++ " not found."))

/-- The payload of an assignment. -/
structure EvaluationAiModelAssign where
  modelId : UUID
  modelDisplayMask : Option String := none
  parameters : JsonObject := []

/-- The message of a model that is assigned already. -/
def alreadyAssigned : ApiError := .conflict "Model is already assigned to this evaluation."

/-- `assign_model`: assign a live model to a live evaluation. The index on live rows admits one
assignment of a model to an evaluation. -/
def assignModel (db : Database) (ctx : Context) (evaluationId : UUID)
    (form : EvaluationAiModelAssign) : Except ApiError Database := do
  let evaluation ← getEvaluation db evaluationId
  let model ← getModel db form.modelId
  check (!((db.liveAssignments evaluation.id).any fun a => a.modelId == model.id)) alreadyAssigned
  match db.assignments.insertAll
      [{ toBaseModel := ctx.newRow ctx.fresh.row, modelId := model.id
         evaluationId := evaluation.id, modelDisplayMask := form.modelDisplayMask
         parameters := form.parameters }] with
  | some assignments => return { db with assignments }
  | none => throw alreadyAssigned

/-- The assign endpoint: the write gate, the subset gate, and the assignment. -/
def assignModelEndpoint (db : Database) (ctx : Context) (evaluationId : UUID)
    (form : EvaluationAiModelAssign) : Except ApiError Database := do
  let (groupId, _) ← authorizeEvaluationMutation db ctx evaluationId .evaluationsUpdate false
  assertModelAssignableToGroup db groupId form.modelId
  assignModel db ctx evaluationId form

/-- `get_assignment`: one live assignment of the evaluation. -/
def getAssignment (db : Database) (evaluationId assignmentId : UUID) :
    Except ApiError EvaluationAiModel :=
  match (findLive db.assignments assignmentId).filter fun a => a.evaluationId == evaluationId with
  | some a => .ok a
  | none => .error (.notFound ("Assignment " ++ toString assignmentId
      ++ " not found in evaluation " ++ toString evaluationId ++ "."))

/-- Unassign a model. -/
def unassignModel (db : Database) (ctx : Context) (evaluationId assignmentId : UUID) :
    Except ApiError Database := do
  let _ ← authorizeEvaluationMutation db ctx evaluationId .evaluationsUpdate false
  let a ← getAssignment db evaluationId assignmentId
  return { db with assignments := softDeleteRow db.assignments ctx.now ctx.callerId a.id }

/-- `get_restorable_assignment`: a tombstoned assignment of the evaluation, of a live model. -/
def getRestorableAssignment (db : Database) (settings : Settings) (ctx : Context)
    (evaluationId assignmentId : UUID) : Except ApiError EvaluationAiModel :=
  match (findRestorable db.assignments (ctx.restoreCutoff settings) none assignmentId).filter
      fun a => a.evaluationId == evaluationId && (findLive db.models a.modelId).isSome with
  | some a => .ok a
  | none => .error (.notFound ("No restorable assignment " ++ toString assignmentId
      ++ " was unassigned from evaluation " ++ toString evaluationId
      ++ " within the restore window."))

/-- Re-instate an assignment. -/
def restoreAssignment (db : Database) (settings : Settings) (ctx : Context)
    (evaluationId assignmentId : UUID) : Except ApiError Database := do
  let _ ← authorizeEvaluationMutation db ctx evaluationId .evaluationsUpdate false
  let a ← getRestorableAssignment db settings ctx evaluationId assignmentId
  check (!((db.liveAssignments a.evaluationId).any fun other => other.modelId == a.modelId))
    (.conflict ("This model is already assigned to the evaluation; remove the newer assignment "
      ++ "first."))
  return { db with assignments := restoreRow db.assignments a.id }

/-! ### Scenarios -/

/-- `_next_position`: after the last live scenario of the evaluation. -/
def nextPosition (db : Database) (evaluationId : UUID) : Nat :=
  (((liveSelect db.scenarios).filter fun s => s.evaluationId == evaluationId).map fun s =>
    s.position + 1).foldr max 0

/-- The payload of a scenario. -/
structure ScenarioCreate where
  name : String
  description : String
  requiredReviews : Nat := 1

/-- Append a scenario to an evaluation. -/
def createScenario (db : Database) (ctx : Context) (evaluationId : UUID) (form : ScenarioCreate) :
    Except ApiError Database := do
  let _ ← authorizeEvaluationMutation db ctx evaluationId .evaluationsUpdate false
  let evaluation ← getEvaluation db evaluationId
  let scenarios ← flush db.scenarios
    [{ toBaseModel := ctx.newRow ctx.fresh.row, name := form.name
       description := form.description, evaluationId := evaluation.id
       position := nextPosition db evaluation.id, requiredReviews := form.requiredReviews }]
  return { db with scenarios }

/-- Soft-delete a scenario of an evaluation. -/
def deleteScenario (db : Database) (ctx : Context) (evaluationId scenarioId : UUID) :
    Except ApiError Database := do
  let _ ← authorizeEvaluationMutation db ctx evaluationId .evaluationsUpdate false
  match (findLive db.scenarios scenarioId).filter fun s => s.evaluationId == evaluationId with
  | some scenario =>
    return { db with
      scenarios := softDeleteRow db.scenarios ctx.now ctx.callerId scenario.id }
  | none => throw (.notFound ("Scenario " ++ toString scenarioId ++ " not found in evaluation "
      ++ toString evaluationId ++ "."))

/-- Restore a scenario at the end of its evaluation. -/
def restoreScenario (db : Database) (settings : Settings) (ctx : Context)
    (evaluationId scenarioId : UUID) : Except ApiError Database := do
  let _ ← authorizeEvaluationMutation db ctx evaluationId .evaluationsUpdate false
  match (findRestorable db.scenarios (ctx.restoreCutoff settings) ctx.deletedBy
      scenarioId).filter fun s => s.evaluationId == evaluationId with
  | some scenario =>
    let evaluation ← getEvaluation db scenario.evaluationId
    let position := nextPosition db evaluation.id
    return { db with
      scenarios := db.scenarios.modify scenario.id (fun s => restore { s with position })
        fun _ => rfl }
  | none => throw (.notFound ("No restorable scenario " ++ toString scenarioId
      ++ " was deleted from evaluation " ++ toString evaluationId
      ++ " within the restore window."))

/-! ### Copies -/

/-- The model of a row to copy is not a tombstone. A row that names no model passes, as in the
source. -/
def modelNotDeleted (db : Database) (modelId : UUID) : Bool :=
  (db.models.find? modelId).all fun model => live model

section
variable (db : Database) (ctx : Context)

/-- The copy of an evaluation in a group. -/
def copyEvaluation (id groupId : UUID) (source : Evaluation) : Evaluation :=
  { source with
      toBaseModel := ctx.newRow id
      createdById := ctx.callerId
      evaluationGroupId := groupId }

/-- The copies of the assignments of an evaluation, for the evaluation `id`. -/
def copyAssignments (id sourceId : UUID) : List EvaluationAiModel :=
  ((db.liveAssignments sourceId).filter fun a => modelNotDeleted db a.modelId).map fun a =>
    { a with toBaseModel := ctx.newRow (ctx.fresh.assignment a.id), evaluationId := id }

/-- The live tag keys of an evaluation, copied for the evaluation `id`. -/
def copyTagKeys (id sourceId : UUID) : List EvaluationTagKey :=
  ((liveSelect db.tagKeys).filter fun k => k.evaluationId == sourceId).map fun k =>
    { k with toBaseModel := ctx.newRow (ctx.fresh.tagKey k.id), evaluationId := id }

/-- The live scenarios of an evaluation. -/
def sourceScenarios (sourceId : UUID) : List Scenario :=
  (liveSelect db.scenarios).filter fun s => s.evaluationId == sourceId

/-- The scenarios of an evaluation, copied for the evaluation `id`. They keep their positions. -/
def copyScenarios (id sourceId : UUID) : List Scenario :=
  (sourceScenarios db sourceId).map fun s =>
    { s with toBaseModel := ctx.newRow (ctx.fresh.scenario s.id), evaluationId := id }

/-- The tasks of the scenarios of an evaluation, copied. -/
def copyTasks (sourceId : UUID) : List Task :=
  (sourceScenarios db sourceId).flatMap fun s =>
    ((liveSelect db.tasks).filter fun t => t.scenarioId == s.id).map fun t =>
      { t with
          toBaseModel := ctx.newRow (ctx.fresh.task t.id)
          scenarioId := ctx.fresh.scenario s.id }

end

/-- Copy an evaluation inside its own group. -/
def duplicateEvaluation (db : Database) (ctx : Context) (sourceEvaluationId : UUID)
    (includeChildren : Bool) : Except ApiError Database := do
  let (_, groupStatus) ←
    authorizeEvaluationMutation db ctx sourceEvaluationId .evaluationsCreate false
  let source ← getEvaluation db sourceEvaluationId
  assertGroupAcceptsEvaluations source.evaluationGroupId groupStatus
  let id := ctx.fresh.row
  let evaluations ← flush db.evaluations [copyEvaluation ctx id source.evaluationGroupId source]
  let tagKeys ← flush db.tagKeys (copyTagKeys db ctx id source.id)
  if includeChildren then
    let assignments ← flush db.assignments (copyAssignments db ctx id source.id)
    let scenarios ← flush db.scenarios (copyScenarios db ctx id source.id)
    let tasks ← flush db.tasks (copyTasks db ctx source.id)
    return { db with evaluations, tagKeys, assignments, scenarios, tasks }
  return { db with evaluations, tagKeys }

/-- The draft copy of a group. An organization that is gone is dropped. -/
def copyGroup (db : Database) (ctx : Context) (source : EvaluationGroup) : EvaluationGroup :=
  { source with
      toBaseModel := ctx.newRow ctx.fresh.row
      createdById := ctx.callerId
      status := .draft
      rejectionReason := none
      organizationId :=
        source.organizationId.filter fun o => (findLive db.organizations o).isSome }

/-- The subset of a group, copied for the group `id`. -/
def copyAllowedModels (db : Database) (ctx : Context) (id sourceId : UUID) :
    List EvaluationGroupAiModel :=
  ((db.subsetRows sourceId).filter fun row => modelNotDeleted db row.modelId).map fun row =>
    { row with
        toBaseModel := ctx.newRow (ctx.fresh.allowedModel row.id)
        evaluationGroupId := id }

/-- Copy a group into a fresh draft of the caller, with its evaluations when asked. -/
def duplicateEvaluationGroup (db : Database) (ctx : Context) (sourceGroupId : UUID)
    (includeChildren : Bool) : Except ApiError Database := do
  let source ← writableGroup db ctx sourceGroupId
  let id := ctx.fresh.row
  let copy ← persistNewGroup db ctx (copyGroup db ctx source)
  let allowedModels ← flush db.allowedModels (copyAllowedModels db ctx id source.id)
  let copy := { copy with allowedModels }
  if includeChildren then
    let sources := db.liveEvaluations source.id
    let newId (e : Evaluation) : UUID := ctx.fresh.evaluation e.id
    let evaluations ← flush db.evaluations
      (sources.map fun e => copyEvaluation ctx (newId e) id e)
    let tagKeys ← flush db.tagKeys (sources.flatMap fun e => copyTagKeys db ctx (newId e) e.id)
    let assignments ← flush db.assignments
      (sources.flatMap fun e => copyAssignments db ctx (newId e) e.id)
    let scenarios ← flush db.scenarios
      (sources.flatMap fun e => copyScenarios db ctx (newId e) e.id)
    let tasks ← flush db.tasks (sources.flatMap fun e => copyTasks db ctx e.id)
    return { copy with evaluations, tagKeys, assignments, scenarios, tasks }
  return copy

end RedTeaming.Evaluations
