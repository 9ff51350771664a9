import RedTeaming.Analytics.Metrics
import RedTeaming.Evaluations.MetricsAccess
import RedTeaming.Evaluations.ModelViews

/-!
# `RedTeaming.Analytics.Masking`: masking shows nothing of a model's identity

Two databases that differ only in what names their models look the same to a reader of a masked
evaluation. `masking_noninterference` says so of the listing of the models, of the views in a
response, of the dashboard of the evaluation, and of that of a group with such an evaluation. The
last two are for a caller without the permission that lifts the mask.

The listing searches, orders, counts, and cuts pages. `ListQuery.map_page` carries all of that
over at once, since under masking the query reads the assignments only. The gates do not read the
registry.
-/

set_option autoImplicit false

namespace RedTeaming.Analytics

open RedTeaming.Auth
open RedTeaming.Evaluations
open RedTeaming.Library

/-- All tables: those of the metrics, and the others that the gates and the listing read. -/
structure Deployment extends Database where
  userOrganization : UserId → Option UUID
  organizations : Table Organization
  licenses : Table DataLicense
  groups : Table EvaluationGroup
  allowedModels : Table EvaluationGroupAiModel
  tagKeys : Table EvaluationTagKey
  assignmentUpdatedAt : UUID → Time

/-- The columns of the registry that the evaluation domain has. -/
def registryNames (models : Table AiGateway.AiModel) : Table Evaluations.AiModel where
  rows := models.rows.map fun model =>
    { toBaseModel := model.toBaseModel, name := model.name, modelAlias := model.modelAlias }
  nodup := by
    rw [List.map_map]
    exact models.nodup

namespace Deployment
variable (d : Deployment)

/-- The tables of the evaluation domain. -/
def base : Evaluations.Database where
  auth := d.auth
  roleAssignments := d.roleAssignments
  userOrganization := d.userOrganization
  organizations := d.organizations
  licenses := d.licenses
  models := registryNames d.models
  groups := d.groups
  allowedModels := d.allowedModels
  evaluations := d.evaluations
  assignments := d.assignments
  tagKeys := d.tagKeys
  scenarios := d.scenarios
  tasks := d.tasks

/-- The same tables with another registry. -/
def withModels (models : Table AiGateway.AiModel) : Deployment :=
  { d with toDatabase := { d.toDatabase with models } }

/-- The endpoint that lists the models of an evaluation. -/
def listModels (c : Collation) (settings : Evaluations.Settings) (ctx : Context)
    (evaluationId : UUID) (query : ModelsQuery) : Except ApiError (Page EvaluationAiModelView) :=
  listEvaluationModelsEndpoint c d.assignmentUpdatedAt d.base d.models settings ctx
    evaluationId query

/-- The endpoint of the dashboard of one evaluation. -/
def getEvaluationMetricsEndpoint (caller : SessionUser) (evaluationId : UUID) (today : Date) :
    Except ApiError EvaluationMetricsResponse := do
  let view ← requireEvaluationMetrics d.base caller evaluationId
  evaluationMetrics d.toDatabase view.evaluation view.context.group view.viewerId
    view.maskModelNames today

/-- The endpoint of the dashboard of a group. -/
def getEvaluationGroupMetricsEndpoint (caller : SessionUser) (groupId : UUID) (today : Date) :
    Except ApiError EvaluationGroupMetricsResponse := do
  let view ← requireGroupMetricsAccess d.base caller groupId
  evaluationGroupMetrics d.toDatabase view.context.group view.viewerId view.fullModelAccess today

/-- The caller does not hold `evaluation_groups:view_metrics` on the group. -/
def WithoutViewMetrics (caller : SessionUser) (groupId : UUID) : Prop :=
  (resolveObjectAccess d.base caller groupId).has .evaluationGroupsViewMetrics = false

/-- The evaluation is live, and masks its models. -/
structure Masked (evaluation : Evaluation) : Prop where
  mem : findLive d.evaluations evaluation.id = some evaluation
  masked : evaluation.maskModelsEnabled = true

end Deployment

/-- Two registries have the same models, up to what names them. -/
def SameButIdentity (models models' : Table AiGateway.AiModel) : Prop :=
  ∀ modelId, (models.find? modelId).map hideIdentity = (models'.find? modelId).map hideIdentity

/-- A reader of a masked evaluation sees the same in the two databases. -/
structure LooksTheSame (d d' : Deployment) : Prop where
  listing : ∀ c settings ctx evaluation query, d.Masked evaluation →
    d.listModels c settings ctx evaluation.id query =
      d'.listModels c settings ctx evaluation.id query
  views : ∀ evaluation, evaluation.maskModelsEnabled = true →
    EvaluationResponse.fromModel d.base d.models evaluation =
      EvaluationResponse.fromModel d'.base d'.models evaluation
  exploits : ∀ evaluationId viewer,
    exploitsByModel d.toDatabase evaluationId
      (liveAssignments d.toDatabase evaluationId) viewer true =
      exploitsByModel d'.toDatabase evaluationId
        (liveAssignments d'.toDatabase evaluationId) viewer true
  tokens : ∀ evaluationId viewer,
    tokensByModel d.toDatabase evaluationId
      (liveAssignments d.toDatabase evaluationId) viewer true =
      tokensByModel d'.toDatabase evaluationId
        (liveAssignments d'.toDatabase evaluationId) viewer true
  evaluation : ∀ caller evaluation today, d.Masked evaluation →
    d.WithoutViewMetrics caller evaluation.evaluationGroupId →
      d.getEvaluationMetricsEndpoint caller evaluation.id today =
        d'.getEvaluationMetricsEndpoint caller evaluation.id today
  group : ∀ caller evaluation today, d.Masked evaluation →
    d.WithoutViewMetrics caller evaluation.evaluationGroupId →
      d.getEvaluationGroupMetricsEndpoint caller evaluation.evaluationGroupId today =
        d'.getEvaluationGroupMetricsEndpoint caller evaluation.evaluationGroupId today

section
variable {d : Deployment} {models models' : Table AiGateway.AiModel} {evaluation : Evaluation}
  {caller : SessionUser} {evaluationId : UUID}

/-! ### Models and their views -/

/-- The live model with an id, up to what names it. -/
theorem SameButIdentity.findLive (h : SameButIdentity models models') (modelId : UUID) :
    (findLive models modelId).map hideIdentity = (findLive models' modelId).map hideIdentity := by
  have hlive : ∀ model : Option AiGateway.AiModel,
      (model.filter fun m => live m).map hideIdentity =
        (model.map hideIdentity).filter fun m => live m := by
    intro model
    cases model with
    | none => rfl
    | some m =>
      have hsame : live (hideIdentity m) = live m := rfl
      cases hm : live m <;> simp [Option.filter, hsame, hm]
  unfold RedTeaming.findLive
  rw [hlive, hlive, h modelId]

/-- The masked view of a model with an id, whichever of the two databases it is from. -/
theorem map_fromAssignment_masked {model model' : Option AiGateway.AiModel}
    (h : model.map hideIdentity = model'.map hideIdentity) (a : EvaluationAiModel) :
    model.map (EvaluationAiModelView.fromAssignment true a) =
      model'.map (EvaluationAiModelView.fromAssignment true a) := by
  have hview : EvaluationAiModelView.fromAssignment true a =
      EvaluationAiModelView.fromAssignment true a ∘ hideIdentity :=
    funext fun m => fromAssignment_masked a m
  rw [hview, ← Option.map_map, ← Option.map_map, h]

/-- The views in a response. -/
theorem fromModel_withModels (h : SameButIdentity d.models models')
    (hmasked : evaluation.maskModelsEnabled = true) :
    EvaluationResponse.fromModel d.base d.models evaluation =
      EvaluationResponse.fromModel (d.withModels models').base (d.withModels models').models
        evaluation := by
  unfold EvaluationResponse.fromModel
  rw [hmasked]
  congr 1
  apply List.filterMap_congr
  intro a _
  exact map_fromAssignment_masked (h a.modelId) a

/-! ### The listing -/

/-- An assigned model without what names it. -/
def hideRow (row : AssignedModel) : AssignedModel := (row.1, hideIdentity row.2)

/-- The rows of the listing are the same up to what names their models. -/
theorem map_assignedModels (h : SameButIdentity d.models models')
    (settings : Evaluations.Settings) (ctx : Context) (evaluationId : UUID) (deleted : Bool) :
    (assignedModels d.base d.models settings ctx evaluationId deleted).map hideRow =
      (assignedModels (d.withModels models').base models' settings ctx evaluationId deleted).map
        hideRow := by
  unfold assignedModels
  rw [List.map_filterMap, List.map_filterMap]
  apply List.filterMap_congr
  intro a _
  have hrow : ∀ model : Option AiGateway.AiModel,
      (model.map fun m => (a, m)).map hideRow = (model.map hideIdentity).map fun m => (a, m) := by
    intro model
    rw [Option.map_map, Option.map_map]
    rfl
  rw [hrow, hrow, h.findLive a.modelId]

/-- Under masking, the comparison of the listing reads the assignments only. -/
theorem modelsLe_hideRow (c : Collation) (updatedAt : UUID → Time) (query : ModelsQuery)
    (a b : AssignedModel) :
    modelsLe c updatedAt true query (hideRow a) (hideRow b) =
      modelsLe c updatedAt true query a b := by
  unfold modelsLe
  cases query.orderBy <;> rfl

/-- The query of the listing, under masking. -/
def maskedQuery (c : Collation) (updatedAt : UUID → Time) (query : ModelsQuery) :
    ListQuery AssignedModel where
  keep := matchesSearch c true query.search
  le := modelsLe c updatedAt true query
  limit := query.limit
  offset := query.offset

/-- The masked page of the listing. -/
theorem map_maskedQuery (h : SameButIdentity d.models models') (c : Collation)
    (settings : Evaluations.Settings)
    (ctx : Context) (query : ModelsQuery) (evaluationId : UUID) :
    ((maskedQuery c d.assignmentUpdatedAt query).page
        (assignedModels d.base d.models settings ctx evaluationId query.deleted)).map
          (fun row => EvaluationAiModelView.fromAssignment true row.1 row.2) =
      ((maskedQuery c d.assignmentUpdatedAt query).page
        (assignedModels (d.withModels models').base models' settings ctx evaluationId
          query.deleted)).map fun row =>
            EvaluationAiModelView.fromAssignment true row.1 row.2 := by
  have hview : ∀ page : Page AssignedModel,
      page.map (fun row => EvaluationAiModelView.fromAssignment true row.1 row.2) =
        (page.map hideRow).map fun row =>
          EvaluationAiModelView.fromAssignment true row.1 row.2 := by
    intro page
    simp only [Page.map, List.map_map]
    congr 1
    apply List.map_congr_left
    intro row _
    exact fromAssignment_masked row.1 row.2
  -- Neither the search nor the order reads what `hideRow` blanks.
  have hpage : ∀ rows : List AssignedModel,
      ((maskedQuery c d.assignmentUpdatedAt query).page rows).map hideRow =
        (maskedQuery c d.assignmentUpdatedAt query).page (rows.map hideRow) :=
    fun rows => ListQuery.map_page hideRow (fun _ => rfl) (modelsLe_hideRow c _ query)
  rw [hview, hpage, map_assignedModels h, ← hpage, ← hview]

/-- The listing of a masked evaluation. -/
theorem listModels_withModels (h : SameButIdentity d.models models') (c : Collation)
    (settings : Evaluations.Settings) (ctx : Context) (query : ModelsQuery)
    (hmasked : d.Masked evaluation) :
    d.listModels c settings ctx evaluation.id query =
      (d.withModels models').listModels c settings ctx evaluation.id query := by
  have hsame := map_maskedQuery h c settings ctx query evaluation.id
  unfold Deployment.listModels listEvaluationModelsEndpoint listEvaluationModels
  apply bind_congr
  intro _
  apply bind_congr
  intro _
  have hgate : getVisibleEvaluation (d.withModels models').base evaluation.id ctx.callerId false =
      getVisibleEvaluation d.base evaluation.id ctx.callerId false := rfl
  rw [hgate]
  cases hvisible : getVisibleEvaluation d.base evaluation.id ctx.callerId false with
  | error e => rfl
  | ok row =>
    have hrow : row = evaluation := by
      have hfilter := Option.filter_eq_some_iff.mp (found_eq_ok.mp hvisible)
      exact Option.some.inj (hfilter.1.symm.trans hmasked.mem)
    have hmask : row.maskModelsEnabled = true := hrow ▸ hmasked.masked
    simp only [bind, pure, Except.bind, Except.pure, hmask]
    exact congrArg Except.ok hsame

/-! ### The dashboards -/

/-- A live assignment without the alias of its model. -/
def LiveAssignment.hideAlias (a : LiveAssignment) : LiveAssignment := { a with modelAlias := "" }

/-- The live assignments are the same up to the aliases. -/
theorem map_liveAssignments (h : SameButIdentity d.models models') (evaluationId : UUID) :
    (liveAssignments d.toDatabase evaluationId).map LiveAssignment.hideAlias =
      (liveAssignments (d.withModels models').toDatabase evaluationId).map
        LiveAssignment.hideAlias := by
  unfold liveAssignments
  rw [List.map_filterMap, List.map_filterMap]
  apply List.filterMap_congr
  intro a _
  by_cases ha : a.evaluationId = evaluationId
  · have hrow : ∀ model : Option AiGateway.AiModel,
        (model.map fun m => LiveAssignment.mk a.id m.modelAlias a.modelDisplayMask).map
            LiveAssignment.hideAlias =
          (model.map hideIdentity).map fun _ => ⟨a.id, "", a.modelDisplayMask⟩ := by
      intro model
      rw [Option.map_map, Option.map_map]
      rfl
    rw [if_pos ha, if_pos ha, hrow, hrow]
    exact congrArg _ (h a.modelId)
  · rw [if_neg ha, if_neg ha]

/-- Rows made of the assignments under masking read no alias. -/
theorem map_masked_assignments {ρ : Type} (f : LiveAssignment → ρ) (hf : ∀ a, f a = f a.hideAlias)
    (h : SameButIdentity d.models models') (evaluationId : UUID) :
    (liveAssignments d.toDatabase evaluationId).map f =
      (liveAssignments (d.withModels models').toDatabase evaluationId).map f := by
  have hhide : f = f ∘ LiveAssignment.hideAlias := funext hf
  rw [hhide, ← List.map_map, ← List.map_map, map_liveAssignments h]

/-- The exploits of each masked model. -/
theorem exploitsByModel_withModels (h : SameButIdentity d.models models') (evaluationId : UUID)
    (viewer : Option UserId) :
    exploitsByModel d.toDatabase evaluationId
      (liveAssignments d.toDatabase evaluationId) viewer true =
      exploitsByModel (d.withModels models').toDatabase evaluationId
        (liveAssignments (d.withModels models').toDatabase evaluationId) viewer true := by
  unfold exploitsByModel
  dsimp only
  rw [map_masked_assignments _ (fun _ => rfl) h]
  rfl

/-- The spend of each masked model. -/
theorem tokensByModel_withModels (h : SameButIdentity d.models models') (evaluationId : UUID)
    (viewer : Option UserId) :
    tokensByModel d.toDatabase evaluationId
      (liveAssignments d.toDatabase evaluationId) viewer true =
      tokensByModel (d.withModels models').toDatabase evaluationId
        (liveAssignments (d.withModels models').toDatabase evaluationId) viewer true := by
  unfold tokensByModel
  apply bind_congr
  intro rows
  dsimp only
  rw [map_masked_assignments _ (fun _ => rfl) h]

/-- The dashboard of an evaluation, with the names masked. -/
theorem evaluationMetrics_withModels (h : SameButIdentity d.models models')
    (group : EvaluationGroup) (viewer : Option UserId) (today : Date) :
    evaluationMetrics d.toDatabase evaluation group viewer true today =
      evaluationMetrics (d.withModels models').toDatabase evaluation group viewer true today := by
  unfold evaluationMetrics
  dsimp only
  rw [exploitsByModel_withModels h, tokensByModel_withModels h]
  rfl

/-- What the gate of a dashboard loads of the group. -/
theorem groupContext_of_resolve {groupId : UUID} {context : GroupContext}
    (hcontext : resolveGroupContext d.base caller groupId = .ok context) :
    context.group.id = groupId ∧ context.access = resolveObjectAccess d.base caller groupId := by
  obtain ⟨group, hgroup, hcontext⟩ := bind_eq_ok.mp hcontext
  cases hcontext
  unfold getEvaluationGroup at hgroup
  split at hgroup
  · rename_i row hrow
    cases hgroup
    have hid := (findLive_eq_some.mp (Option.filter_eq_some_iff.mp hrow).1).2.1
    exact ⟨hid, congrArg (resolveObjectAccess d.base caller) hid⟩
  · cases hgroup

/-- The gate of the dashboard of a masked evaluation masks the names. -/
theorem maskModelNames_of_gate {view : EvaluationMetricsView} (hmasked : d.Masked evaluation)
    (hwithout : d.WithoutViewMetrics caller evaluation.evaluationGroupId)
    (hview : requireEvaluationMetrics d.base caller evaluation.id = .ok view) :
    view.evaluation = evaluation ∧ view.maskModelNames = true := by
  simp only [requireEvaluationMetrics, bind_eq_ok, found_eq_ok] at hview
  obtain ⟨_, _, row, hrow, context, hcontext, _, _, hview⟩ := hview
  have hevaluation : row = evaluation := Option.some.inj (hrow.symm.trans hmasked.mem)
  subst hevaluation
  have haccess := (groupContext_of_resolve hcontext).2
  split at hview
  · cases hview
    refine ⟨rfl, ?_⟩
    show (row.maskModelsEnabled && !context.access.has .evaluationGroupsViewMetrics) = true
    rw [hmasked.masked, haccess, hwithout]
    rfl
  · cases hview

/-- The endpoint of the dashboard of a masked evaluation. -/
theorem getEvaluationMetrics_withModels (h : SameButIdentity d.models models') (today : Date)
    (hmasked : d.Masked evaluation)
    (hwithout : d.WithoutViewMetrics caller evaluation.evaluationGroupId) :
    d.getEvaluationMetricsEndpoint caller evaluation.id today =
      (d.withModels models').getEvaluationMetricsEndpoint caller evaluation.id today := by
  have hgate : requireEvaluationMetrics (d.withModels models').base caller evaluation.id =
      requireEvaluationMetrics d.base caller evaluation.id := rfl
  unfold Deployment.getEvaluationMetricsEndpoint
  rw [hgate]
  cases hview : requireEvaluationMetrics d.base caller evaluation.id with
  | error e => rfl
  | ok view =>
    show evaluationMetrics d.toDatabase view.evaluation view.context.group view.viewerId
        view.maskModelNames today =
      evaluationMetrics (d.withModels models').toDatabase view.evaluation view.context.group
        view.viewerId view.maskModelNames today
    rw [(maskModelNames_of_gate hmasked hwithout hview).2]
    exact evaluationMetrics_withModels h _ _ _

/-- The dashboard of a group with a masked evaluation withholds the spend by model, and reads the
registry nowhere else. -/
theorem evaluationGroupMetrics_withModels (models' : Table AiGateway.AiModel)
    (group : EvaluationGroup) (viewer : Option UserId) (today : Date)
    (hwithheld : (groupEvaluations d.toDatabase group.id).any (fun e => e.maskModelsEnabled) =
      true) :
    evaluationGroupMetrics d.toDatabase group viewer false today =
      evaluationGroupMetrics (d.withModels models').toDatabase group viewer false today := by
  have hsame : groupEvaluations (d.withModels models').toDatabase group.id =
      groupEvaluations d.toDatabase group.id := rfl
  unfold evaluationGroupMetrics
  dsimp only
  rw [hsame, hwithheld]
  rfl

/-- The endpoint of the dashboard of a group with a masked evaluation. -/
theorem getEvaluationGroupMetrics_withModels (models' : Table AiGateway.AiModel) (today : Date)
    (hmasked : d.Masked evaluation)
    (hwithout : d.WithoutViewMetrics caller evaluation.evaluationGroupId) :
    d.getEvaluationGroupMetricsEndpoint caller evaluation.evaluationGroupId today =
      (d.withModels models').getEvaluationGroupMetricsEndpoint caller evaluation.evaluationGroupId
        today := by
  have hgate : requireGroupMetricsAccess (d.withModels models').base caller
      evaluation.evaluationGroupId =
        requireGroupMetricsAccess d.base caller evaluation.evaluationGroupId := rfl
  unfold Deployment.getEvaluationGroupMetricsEndpoint
  rw [hgate]
  cases hview : requireGroupMetricsAccess d.base caller evaluation.evaluationGroupId with
  | error e => rfl
  | ok view =>
    show evaluationGroupMetrics d.toDatabase view.context.group view.viewerId view.fullModelAccess
        today =
      evaluationGroupMetrics (d.withModels models').toDatabase view.context.group view.viewerId
        view.fullModelAccess today
    simp only [requireGroupMetricsAccess, bind_eq_ok] at hview
    obtain ⟨_, _, context, hcontext, _, _, hview⟩ := hview
    obtain ⟨hid, haccess⟩ := groupContext_of_resolve hcontext
    split at hview
    · cases hview
      show evaluationGroupMetrics d.toDatabase context.group _
          (context.access.has .evaluationGroupsViewMetrics) today = _
      rw [haccess, hwithout]
      apply evaluationGroupMetrics_withModels
      have hmem : evaluation ∈ groupEvaluations d.toDatabase context.group.id := by
        unfold groupEvaluations
        rw [mem_orderBy, List.mem_filter, hid]
        have hlive := findLive_eq_some.mp hmasked.mem
        exact ⟨mem_liveSelect.mpr ⟨hlive.1, hlive.2.2⟩, decide_eq_true rfl⟩
      exact List.any_eq_true.mpr ⟨evaluation, hmem, hmasked.masked⟩
    · cases hview

/-- Masking shows nothing of what names the models. -/
theorem masking_noninterference (d : Deployment) (models' : Table AiGateway.AiModel)
    (h : SameButIdentity d.models models') : LooksTheSame d (d.withModels models') where
  listing := fun c settings ctx _ query hmasked =>
    listModels_withModels h c settings ctx query hmasked
  views := fun _ hmasked => fromModel_withModels h hmasked
  exploits := exploitsByModel_withModels h
  tokens := tokensByModel_withModels h
  evaluation := fun _ _ today hmasked hwithout =>
    getEvaluationMetrics_withModels h today hmasked hwithout
  group := fun _ _ today hmasked hwithout =>
    getEvaluationGroupMetrics_withModels models' today hmasked hwithout

end

/-! ### A survey of one model -/

/-- A registry with one model. -/
def oneModel (name : String) (provider : AiGateway.ProviderVendor) : Table AiGateway.AiModel where
  rows := [{ id := 20, createdAt := 0, name, modelAlias := name, provider,
             providerModelId := name }]
  nodup := List.nodup_singleton _

/-- An evaluation that masks its models. -/
def surveyEvaluation : Evaluation where
  id := 31
  createdAt := 0
  title := "Survey"
  createdById := 1
  evaluationGroupId := 30

/-- A public group with the evaluation, and one model assigned to it. -/
def survey : Deployment where
  auth := Evaluations.deployed.auth
  roleAssignments := []
  models := oneModel "Sonnet" .anthropic
  evaluations := ⟨[surveyEvaluation], by decide⟩
  assignments :=
    ⟨[{ id := 32, createdAt := 0, modelId := 20, evaluationId := 31
        modelDisplayMask := some "Model A" }], by decide⟩
  scenarios := .empty
  tasks := .empty
  conversations := .empty
  turns := .empty
  messages := .empty
  flags := .empty
  flaggedMessages := []
  reviews := .empty
  userOrganization := Evaluations.deployed.userOrganization
  organizations := Evaluations.deployed.organizations
  licenses := .empty
  groups :=
    ⟨[{ id := 30, createdAt := 0, createdById := 1, status := .published, accessLevel := .public
        startDate := some 0 }], by decide⟩
  allowedModels := .empty
  tagKeys := .empty
  assignmentUpdatedAt := fun _ => 0

/-- Two models under one id. -/
theorem sameButIdentity_oneModel (name name' : String)
    (provider provider' : AiGateway.ProviderVendor) :
    SameButIdentity (oneModel name provider) (oneModel name' provider') := by
  intro modelId
  by_cases hid : (20 : UUID) = modelId
  · subst hid
    rfl
  · have hnone : ∀ (n : String) (p : AiGateway.ProviderVendor),
        (oneModel n p).find? modelId = none := by
      intro n p
      apply List.find?_eq_none.mpr
      intro model hmodel hkey
      rw [List.mem_singleton.mp hmodel] at hkey
      exact hid (eq_of_beq hkey)
    rw [hnone, hnone]

/-- The survey looks the same when its model becomes another vendor's. -/
theorem masking_noninterference_survey :
    survey.Masked surveyEvaluation ∧
      LooksTheSame survey (survey.withModels (oneModel "Command" .cohere)) :=
  ⟨⟨rfl, rfl⟩, masking_noninterference survey (oneModel "Command" .cohere)
    (sameButIdentity_oneModel "Sonnet" "Command" .anthropic .cohere)⟩

end RedTeaming.Analytics
