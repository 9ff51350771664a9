import RedTeaming.AiGateway.InferenceParams
import RedTeaming.AiGateway.Models
import RedTeaming.Evaluations.Reads

/-!
# `RedTeaming.Evaluations.ModelViews`: the models of an evaluation, as a reader sees them

`EvaluationAiModelView` of `core/evaluations/schemas.py`, the listing of
`services/assignments.py`, and the models of an evaluation's response. An evaluation that masks
its models shows the display mask of an assignment as the name, and searches and orders by it.

`registry` are the rows of `ai_models` with all their columns. The case folding and the order of
strings are those of the database, so they are parameters (`Collation`), and so is the column
`updated_at` of the assignments. The licence of a response is left out.

`fromAssignment_masked` says what a masked view reads of a model: nothing that `hideIdentity`
blanks.
-/

set_option autoImplicit false

namespace RedTeaming.Evaluations

open RedTeaming.AiGateway (Modality ProviderVendor maskInferenceParams mergeInferenceParams)
open RedTeaming.Auth
open RedTeaming.Library

/-! ### The view -/

/-- One assigned model, as a read of an evaluation shows it. -/
structure EvaluationAiModelView where
  assignmentId : UUID
  name : Option String := none
  provider : Option ProviderVendor := none
  providerModelId : Option String := none
  warmupEnabled : Bool := false
  inputModalities : List Modality := [.text]
  advancedParamsDisabled : Bool := false
  webAccess : Bool := false
  effectiveParameters : JsonObject := []
  deletedAt : Option Time := none
  deletedById : Option UUID := none

/-- The parameters that conversations inherit under an assignment. A model that opts out of the
cascade passes none on. -/
def inheritedParameters (assignment : EvaluationAiModel)
    (model : AiGateway.AiModel) : JsonObject :=
  if model.advancedParamsDisabled then []
  else mergeInferenceParams [some model.parameters, some assignment.parameters]

/-- `from_assignment`. -/
def EvaluationAiModelView.fromAssignment (masked : Bool) (assignment : EvaluationAiModel)
    (model : AiGateway.AiModel) : EvaluationAiModelView :=
  if masked then
    { assignmentId := assignment.id
      name := assignment.modelDisplayMask
      warmupEnabled := model.warmupEnabled
      inputModalities := model.inputModalities
      advancedParamsDisabled := model.advancedParamsDisabled
      webAccess := model.webAccess
      effectiveParameters := maskInferenceParams (inheritedParameters assignment model)
      deletedAt := assignment.deletedAt
      deletedById := assignment.deletedById }
  else
    { assignmentId := assignment.id
      name := some model.name
      provider := some model.provider
      providerModelId := some model.providerModelId
      warmupEnabled := model.warmupEnabled
      inputModalities := model.inputModalities
      advancedParamsDisabled := model.advancedParamsDisabled
      webAccess := model.webAccess
      effectiveParameters := inheritedParameters assignment model
      deletedAt := assignment.deletedAt
      deletedById := assignment.deletedById }

/-- The model without its identity: what an operator writes that can name it. -/
def hideIdentity (model : AiGateway.AiModel) : AiGateway.AiModel :=
  { model with
      name := ""
      description := none
      modelAlias := ""
      provider := .generic
      providerModelId := ""
      endpointName := none
      inferenceEndpoint := none
      iconFile := none
      labels := []
      extras := []
      parameters := maskInferenceParams model.parameters }

/-- A masked view reads nothing of the identity. -/
theorem fromAssignment_masked (assignment : EvaluationAiModel) (model : AiGateway.AiModel) :
    EvaluationAiModelView.fromAssignment true assignment model =
      EvaluationAiModelView.fromAssignment true assignment (hideIdentity model) := by
  have hparams : maskInferenceParams (inheritedParameters assignment model) =
      maskInferenceParams (inheritedParameters assignment (hideIdentity model)) := by
    have hdisabled : (hideIdentity model).advancedParamsDisabled =
        model.advancedParamsDisabled := rfl
    unfold inheritedParameters
    rw [hdisabled]
    split
    · rfl
    · exact AiGateway.maskInferenceParams_merge _ _
  unfold EvaluationAiModelView.fromAssignment
  rw [hparams]
  rfl

/-! ### The listing -/

/-- How the database folds the case of strings, and orders them. -/
structure Collation where
  lower : String → String
  le : String → String → Bool

/-- The columns that the listing orders by. -/
inductive OrderColumn
  | name | createdAt | updatedAt | deletedAt
deriving DecidableEq

/-- The query of a listing. -/
structure ModelsQuery where
  search : Option String := none
  deleted : Bool := false
  orderBy : OrderColumn := .name
  descending : Bool := false
  limit : Nat
  offset : Nat

/-- An assignment joined to its model. -/
abbrev AssignedModel := EvaluationAiModel × AiGateway.AiModel

/-- `_name_column`. -/
def nameColumn (masked : Bool) (row : AssignedModel) : Option String :=
  if masked then row.1.modelDisplayMask else some row.2.name

/-- `_apply_model_search`: the name contains the text, in any case. NULL contains nothing. -/
def matchesSearch (c : Collation) (masked : Bool) (search : Option String)
    (row : AssignedModel) : Bool :=
  search.all fun text =>
    (nameColumn masked row).any fun name =>
      decide ((c.lower text).toList <:+: (c.lower name).toList)

/-- `ORDER BY column NULLS LAST`, one way or the other. -/
def nullsLast {α : Type} (le : α → α → Bool) (descending : Bool) : Option α → Option α → Bool
  | some a, some b => if descending then le b a else le a b
  | _, none => true
  | none, some _ => false

/-- `ORDER BY column NULLS LAST, id`. -/
def byColumnThenId {α : Type} (le : α → α → Bool) (descending : Bool)
    (column : AssignedModel → Option α) (a b : AssignedModel) : Bool :=
  nullsLast le descending (column a) (column b) &&
    (!nullsLast le descending (column b) (column a) || decide (a.1.id ≤ b.1.id))

/-- `_apply_models_order_by`. -/
def modelsLe (c : Collation) (updatedAt : UUID → Time) (masked : Bool) (query : ModelsQuery) :
    AssignedModel → AssignedModel → Bool :=
  let timeLe : Time → Time → Bool := fun a b => decide (a ≤ b)
  match query.orderBy with
  | .name => byColumnThenId c.le query.descending (nameColumn masked)
  | .createdAt => byColumnThenId timeLe query.descending fun row => some row.1.createdAt
  | .updatedAt => byColumnThenId timeLe query.descending fun row => some (updatedAt row.1.id)
  | .deletedAt => byColumnThenId timeLe query.descending fun row => row.1.deletedAt

section
variable (c : Collation) (updatedAt : UUID → Time) (db : Database)
  (registry : Table AiGateway.AiModel) (settings : Settings) (ctx : Context)

/-- The assignments of the evaluation with their live models: the live ones, or the tombstones in
the restore window. -/
def assignedModels (evaluationId : UUID) (deleted : Bool) : List AssignedModel :=
  let base :=
    if deleted then deletedSelect db.assignments (ctx.restoreCutoff settings) none
    else liveSelect db.assignments
  (base.filter fun a => a.evaluationId == evaluationId).filterMap fun a =>
    (findLive registry a.modelId).map fun model => (a, model)

/-- `list_evaluation_models`: the page, and whether the evaluation masks its models. -/
def listEvaluationModels (evaluationId : UUID) (query : ModelsQuery) :
    Except ApiError (Page AssignedModel × Bool) := do
  let evaluation ← getVisibleEvaluation db evaluationId ctx.callerId false
  let masked := evaluation.maskModelsEnabled
  let rows := assignedModels db registry settings ctx evaluationId query.deleted
  let page := ListQuery.page
    { keep := matchesSearch c masked query.search
      le := modelsLe c updatedAt masked query
      limit := query.limit
      offset := query.offset } rows
  return (page, masked)

/-- The deleted view takes what a restore takes: the permission, and write access to the group. -/
def assertMayListUnassigned (evaluationId : UUID) (deleted : Bool) : Except ApiError Unit := do
  check (!deleted || decide (.evaluationsUpdate ∈ ctx.caller.permissions))
    (.forbidden "Listing unassigned models requires the 'evaluations:update' permission.")
  if deleted then
    let _ ← authorizeEvaluationMutation db ctx evaluationId .evaluationsUpdate false

/-- The endpoint that lists the models of an evaluation. -/
def listEvaluationModelsEndpoint (evaluationId : UUID) (query : ModelsQuery) :
    Except ApiError (Page EvaluationAiModelView) := do
  requirePermission ctx.caller .evaluationsRead
  assertMayListUnassigned db ctx evaluationId query.deleted
  let (page, masked) ← listEvaluationModels c updatedAt db registry settings ctx
      evaluationId query
  return ⟨page.items.map fun row => .fromAssignment masked row.1 row.2, page.total⟩

end

/-! ### The response of one evaluation -/

/-- The response of an evaluation, without its licence. -/
structure EvaluationResponse where
  evaluation : Evaluation
  models : List EvaluationAiModelView

/-- `from_model`: the live assignments, each with its model. The model is loaded whether live or
not. -/
def EvaluationResponse.fromModel (db : Database) (registry : Table AiGateway.AiModel)
    (evaluation : Evaluation) : EvaluationResponse where
  evaluation
  models := (db.liveAssignments evaluation.id).filterMap fun a =>
    (registry.find? a.modelId).map (.fromAssignment evaluation.maskModelsEnabled a)

/-- The endpoint that reads one evaluation. -/
def getEvaluationEndpoint (db : Database) (registry : Table AiGateway.AiModel) (ctx : Context)
    (evaluationId : UUID) : Except ApiError EvaluationResponse := do
  requirePermission ctx.caller .evaluationsRead
  let evaluation ← getVisibleEvaluation db evaluationId ctx.callerId ctx.canManage
  return .fromModel db registry evaluation

end RedTeaming.Evaluations
