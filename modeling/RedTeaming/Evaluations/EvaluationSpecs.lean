import RedTeaming.Evaluations.GroupSpecs
import RedTeaming.Evaluations.Registry

/-!
# `RedTeaming.Evaluations.EvaluationSpecs`: what the handlers of evaluations do

One `_spec` lemma for each handler of `RedTeaming.Evaluations.Evaluations` and
`RedTeaming.Evaluations.Registry`. It says which tables the handler writes, as an update of the
database before it, and what its guards have checked.
-/

set_option autoImplicit false

namespace RedTeaming.Evaluations

open RedTeaming.Auth
open RedTeaming.Library

section
variable {db db' : Database} {settings : Settings} {ctx : Context}
  {evaluationId assignmentId : UUID}

/-! ### The gates -/

/-- The write gate finds the evaluation, and its live group. -/
theorem authorizeEvaluationMutation_spec {p : Permission} {allowDeleted : Bool}
    {x : UUID × PublicationStatus}
    (h : authorizeEvaluationMutation db ctx evaluationId p allowDeleted = .ok x) :
    ∃ e ∈ db.evaluations, ∃ g ∈ db.groups, key e = evaluationId ∧ key g = e.evaluationGroupId ∧
      (allowDeleted = true ∨ live e = true) ∧ x = (g.id, g.status) := by
  simp only [authorizeEvaluationMutation] at h
  split at h
  · cases h
  · rename_i group hgroup
    obtain ⟨-, -, h⟩ := bind_eq_ok.mp h
    cases h
    obtain ⟨e, he, hfind⟩ := Option.bind_eq_some_iff.mp hgroup
    obtain ⟨he, hadmitted⟩ := Option.filter_eq_some_iff.mp he
    obtain ⟨hmem, hkey⟩ := Table.find?_eq_some.mp he
    obtain ⟨hg, hgroupKey, -⟩ := findLive_eq_some.mp hfind
    exact ⟨e, hmem, group, hg, hkey, hgroupKey, by simpa using hadmitted, rfl⟩

/-- The lookup of an evaluation finds a live one. -/
theorem getEvaluation_eq_ok {e : Evaluation} :
    getEvaluation db evaluationId = .ok e ↔ findLive db.evaluations evaluationId = some e := by
  unfold getEvaluation
  cases findLive db.evaluations evaluationId <;> simp

/-- The lookup of a model finds a live one. -/
theorem getModel_eq_ok {modelId : UUID} {model : AiModel} :
    getModel db modelId = .ok model ↔ findLive db.models modelId = some model := by
  unfold getModel
  cases findLive db.models modelId <;> simp

/-- The gate on the status passes for the accepting states. -/
theorem assertGroupAcceptsEvaluations_eq_ok {groupId : UUID} {status : PublicationStatus}
    {u : Unit} :
    assertGroupAcceptsEvaluations groupId status = .ok u ↔
      status ∈ groupStatusesAcceptingEvaluations := by
  rw [assertGroupAcceptsEvaluations, check_eq_ok, List.contains_iff_mem]

/-! ### Evaluations -/

/-- A create inserts one evaluation, in a group that accepts evaluations. -/
theorem createEvaluation_spec {form : EvaluationCreate}
    (h : createEvaluation db ctx form = .ok db') :
    ∃ g ∈ db.groups, key g = form.evaluationGroupId ∧
      g.status ∈ groupStatusesAcceptingEvaluations ∧
      ∃ evaluations, flush db.evaluations [form.row ctx] = .ok evaluations ∧
        db' = { db with evaluations } := by
  simp only [createEvaluation] at h
  split at h
  · cases h
  · rename_i g hg
    simp only [bind_eq_ok] at h
    obtain ⟨-, -, _, haccepts, -, -, evaluations, hflush, h⟩ := h
    cases h
    obtain ⟨hmem, hkey, -⟩ := findLive_eq_some.mp hg
    exact ⟨g, hmem, hkey, assertGroupAcceptsEvaluations_eq_ok.mp haccepts, evaluations, hflush,
      rfl⟩

/-- A delete puts a tombstone on one evaluation. -/
theorem deleteEvaluation_spec (h : deleteEvaluation db ctx evaluationId = .ok db') :
    db' = { db with
      evaluations := softDeleteRow db.evaluations ctx.now ctx.callerId evaluationId } := by
  simp only [deleteEvaluation, bind_eq_ok, getEvaluation_eq_ok] at h
  obtain ⟨-, -, e, he, h⟩ := h
  have hid : e.id = evaluationId := (findLive_eq_some.mp he).2.1
  rw [hid] at h
  cases h
  rfl

/-- A restore clears the tombstone of one evaluation, whatever the status of its group. -/
theorem restoreEvaluation_spec (h : restoreEvaluation db settings ctx evaluationId = .ok db') :
    ∃ e ∈ db.evaluations, key e = evaluationId ∧ live e = false ∧
      (∃ g ∈ db.groups, key g = e.evaluationGroupId) ∧
      db' = { db with evaluations := restoreRow db.evaluations evaluationId } := by
  simp only [restoreEvaluation, bind_eq_ok] at h
  obtain ⟨-, -, e, he, h⟩ := h
  simp only [getRestorableEvaluation] at he
  split at he
  · rename_i found hfound
    cases he
    obtain ⟨hfind, hgroup⟩ := Option.filter_eq_some_iff.mp hfound
    obtain ⟨g, hg⟩ := Option.isSome_iff_exists.mp hgroup
    obtain ⟨hgmem, hgkey, -⟩ := findLive_eq_some.mp hg
    obtain ⟨hmem, hkey, -⟩ := findRestorable_eq_some.mp hfind
    have hid : e.id = evaluationId := hkey
    rw [hid] at h
    cases h
    exact ⟨e, hmem, hkey, not_live_of_findRestorable hfind, ⟨g, hgmem, hgkey⟩, rfl⟩
  · cases he

/-! ### Assignments -/

/-- The assign endpoint inserts one assignment, of a model in the subset of the group. -/
theorem assignModelEndpoint_spec {form : EvaluationAiModelAssign}
    (h : assignModelEndpoint db ctx evaluationId form = .ok db') :
    ∃ e ∈ db.evaluations, key e = evaluationId ∧ db.Allowed e.evaluationGroupId form.modelId ∧
      ∃ a : EvaluationAiModel, a.evaluationId = evaluationId ∧ a.modelId = form.modelId ∧
        ∃ assignments, db.assignments.insertAll [a] = some assignments ∧
          db' = { db with assignments } := by
  simp only [assignModelEndpoint, bind_eq_ok] at h
  obtain ⟨x, hx, _, hallowed, h⟩ := h
  obtain ⟨e, he, g, -, hkey, hgroup, -, rfl⟩ := authorizeEvaluationMutation_spec hx
  have hgid : g.id = e.evaluationGroupId := hgroup
  simp only [hgid] at hallowed
  simp only [assignModel, bind_eq_ok, getEvaluation_eq_ok, getModel_eq_ok] at h
  obtain ⟨e', he', model, hmodel, -, -, h⟩ := h
  split at h
  · rename_i assignments hinsert
    cases h
    exact ⟨e, he, hkey, assertModelAssignableToGroup_eq_ok.mp hallowed, _,
      (findLive_eq_some.mp he').2.1, (findLive_eq_some.mp hmodel).2.1, assignments, hinsert, rfl⟩
  · cases h

/-- An unassign puts a tombstone on one assignment. -/
theorem unassignModel_spec (h : unassignModel db ctx evaluationId assignmentId = .ok db') :
    db' = { db with
      assignments := softDeleteRow db.assignments ctx.now ctx.callerId assignmentId } := by
  simp only [unassignModel, bind_eq_ok] at h
  obtain ⟨-, -, a, ha, h⟩ := h
  simp only [getAssignment] at ha
  split at ha
  · rename_i found hfound
    cases ha
    have hid : a.id = assignmentId :=
      (findLive_eq_some.mp (Option.filter_eq_some_iff.mp hfound).1).2.1
    rw [hid] at h
    cases h
    rfl
  · cases ha

/-- A restore clears the tombstone of one assignment of a live evaluation, whatever the subset. -/
theorem restoreAssignment_spec
    (h : restoreAssignment db settings ctx evaluationId assignmentId = .ok db') :
    ∃ e ∈ db.evaluations, key e = evaluationId ∧ live e = true ∧
      ∃ a ∈ db.assignments, key a = assignmentId ∧ a.evaluationId = evaluationId ∧
        db' = { db with assignments := restoreRow db.assignments assignmentId } := by
  simp only [restoreAssignment, bind_eq_ok] at h
  obtain ⟨x, hx, a, ha, -, -, h⟩ := h
  obtain ⟨e, he, -, -, hkey, -, hlive, -⟩ := authorizeEvaluationMutation_spec hx
  simp only [getRestorableAssignment] at ha
  split at ha
  · rename_i found hfound
    cases ha
    obtain ⟨hfind, hcond⟩ := Option.filter_eq_some_iff.mp hfound
    obtain ⟨hmem, hakey, -⟩ := findRestorable_eq_some.mp hfind
    have hid : a.id = assignmentId := hakey
    have hevaluation : a.evaluationId = evaluationId := by
      simpa using (Bool.and_eq_true_iff.mp hcond).1
    rw [hid] at h
    cases h
    exact ⟨e, he, hkey, by simpa using hlive, a, hmem, hakey, hevaluation, rfl⟩
  · cases ha

/-! ### Scenarios -/

theorem createScenario_spec {form : ScenarioCreate}
    (h : createScenario db ctx evaluationId form = .ok db') :
    ∃ scenarios, db' = { db with scenarios } := by
  simp only [createScenario, bind_eq_ok] at h
  obtain ⟨-, -, -, -, scenarios, -, h⟩ := h
  cases h
  exact ⟨scenarios, rfl⟩

theorem deleteScenario_spec {scenarioId : UUID}
    (h : deleteScenario db ctx evaluationId scenarioId = .ok db') :
    ∃ scenarios, db' = { db with scenarios } := by
  simp only [deleteScenario, bind_eq_ok] at h
  obtain ⟨-, -, h⟩ := h
  split at h
  · cases h
    exact ⟨_, rfl⟩
  · cases h

theorem restoreScenario_spec {scenarioId : UUID}
    (h : restoreScenario db settings ctx evaluationId scenarioId = .ok db') :
    ∃ scenarios, db' = { db with scenarios } := by
  simp only [restoreScenario, bind_eq_ok] at h
  obtain ⟨-, -, h⟩ := h
  split at h
  · obtain ⟨_, -, h⟩ := bind_eq_ok.mp h
    cases h
    exact ⟨_, rfl⟩
  · cases h

/-! ### Copies -/

/-- An assignment after a copy is an old one, or a live one of the source evaluation for the copy
`id`. -/
def CopiedAssignment (db : Database) (id sourceId : UUID) (a : EvaluationAiModel) : Prop :=
  a.evaluationId = id ∧ ∃ a₀ ∈ db.assignments, live a₀ = true ∧ a₀.evaluationId = sourceId ∧
    a₀.modelId = a.modelId ∧ modelNotDeleted db a.modelId = true

/-- What the copies of assignments are. -/
theorem copiedAssignment_of_mem {id sourceId : UUID} {a : EvaluationAiModel}
    (h : a ∈ copyAssignments db ctx id sourceId) : CopiedAssignment db id sourceId a := by
  obtain ⟨a₀, ha₀, rfl⟩ := List.mem_map.mp h
  obtain ⟨hsource, hmodel⟩ := List.mem_filter.mp ha₀
  obtain ⟨hmem, hlive, hevaluation⟩ := Database.mem_liveAssignments.mp hsource
  exact ⟨rfl, a₀, hmem, hlive, hevaluation, rfl, hmodel⟩

/-- The tables above the evaluations are as they were. -/
structure SameGroups (db db' : Database) : Prop where
  groups : db'.groups = db.groups
  organizations : db'.organizations = db.organizations
  allowedModels : db'.allowedModels = db.allowedModels

/-- A copy of an evaluation is one new evaluation in the group of its source, which accepts
evaluations. Its assignments are copies of the source's. -/
theorem duplicateEvaluation_spec {includeChildren : Bool}
    (h : duplicateEvaluation db ctx evaluationId includeChildren = .ok db') :
    ∃ source ∈ db.evaluations, key source = evaluationId ∧ live source = true ∧
      (∃ g ∈ db.groups, key g = source.evaluationGroupId ∧
        g.status ∈ groupStatusesAcceptingEvaluations) ∧
      flush db.evaluations
        [copyEvaluation ctx ctx.fresh.row source.evaluationGroupId source] = .ok db'.evaluations ∧
      (db'.assignments = db.assignments ∨ ∃ new, flush db.assignments new = .ok db'.assignments ∧
        ∀ a ∈ new, CopiedAssignment db ctx.fresh.row evaluationId a) ∧
      SameGroups db db' := by
  simp only [duplicateEvaluation, bind_eq_ok, getEvaluation_eq_ok] at h
  obtain ⟨x, hx, source, hsource, _, haccepts, evaluations, hevaluations, tagKeys, -, h⟩ := h
  obtain ⟨e, he, g, hg, hkey, hgkey, -, rfl⟩ := authorizeEvaluationMutation_spec hx
  obtain ⟨hmem, hsourceKey, hlive⟩ := findLive_eq_some.mp hsource
  -- The gate and the lookup read the same row.
  have hsame : e = source := Table.eq_of_key_eq he hmem (hkey.trans hsourceKey.symm)
  subst hsame
  have hid : e.id = evaluationId := hsourceKey
  refine ⟨e, hmem, hkey, hlive, ⟨g, hg, hgkey, assertGroupAcceptsEvaluations_eq_ok.mp haccepts⟩,
    ?_⟩
  split at h
  · simp only [bind_eq_ok] at h
    obtain ⟨assignments, hassignments, scenarios, -, tasks, -, h⟩ := h
    cases h
    refine ⟨hevaluations, Or.inr ⟨_, hassignments, fun a ha => ?_⟩, rfl, rfl, rfl⟩
    rw [hid] at ha
    exact copiedAssignment_of_mem ha
  · cases h
    exact ⟨hevaluations, Or.inl rfl, rfl, rfl, rfl⟩

/-- A copy of a group is a new draft, with the subset of its source. Its evaluations are copies of
the source's live ones, under new ids, and so are their assignments. -/
theorem duplicateEvaluationGroup_spec {groupId : UUID} {includeChildren : Bool}
    (h : duplicateEvaluationGroup db ctx groupId includeChildren = .ok db') :
    ∃ source ∈ db.groups,
      flush db.groups [copyGroup db ctx source] = .ok db'.groups ∧
      db'.organizations = db.organizations ∧
      flush db.allowedModels (copyAllowedModels db ctx ctx.fresh.row source.id) =
        .ok db'.allowedModels ∧
      (db'.evaluations = db.evaluations ∧ db'.assignments = db.assignments ∨
        flush db.evaluations ((db.liveEvaluations source.id).map fun e =>
            copyEvaluation ctx (ctx.fresh.evaluation e.id) ctx.fresh.row e) =
          .ok db'.evaluations ∧
        flush db.assignments ((db.liveEvaluations source.id).flatMap fun e =>
            copyAssignments db ctx (ctx.fresh.evaluation e.id) e.id) = .ok db'.assignments) := by
  simp only [duplicateEvaluationGroup, bind_eq_ok] at h
  obtain ⟨source, hsource, copy, hcopy, allowedModels, hallowed, h⟩ := h
  obtain ⟨groups, roleAssignments, hgroups, rfl⟩ := persistNewGroup_spec hcopy
  have hmem := mem_of_findLive (findLive_of_writableGroup hsource)
  refine ⟨source, hmem, ?_⟩
  split at h
  · simp only [bind_eq_ok] at h
    obtain ⟨evaluations, hevaluations, tagKeys, -, assignments, hassignments, scenarios, -, tasks,
      -, h⟩ := h
    cases h
    exact ⟨hgroups, rfl, hallowed, Or.inr ⟨hevaluations, hassignments⟩⟩
  · cases h
    exact ⟨hgroups, rfl, hallowed, Or.inl ⟨rfl, rfl⟩⟩

/-! ### Organizations and models -/

theorem createOrganization_spec {name : String} {description : Option String}
    (h : createOrganization db ctx name description = .ok db') :
    ∃ row organizations, flush db.organizations [row] = .ok organizations ∧
      db' = { db with organizations } := by
  simp only [createOrganization, bind_eq_ok] at h
  obtain ⟨-, -, organizations, hflush, h⟩ := h
  cases h
  exact ⟨_, organizations, hflush, rfl⟩

theorem updateOrganization_spec {organizationId : UUID} {changes : OrganizationUpdate}
    (h : updateOrganization db organizationId changes = .ok db') :
    ∃ id, db' = { db with
      organizations := db.organizations.modify id changes.applyTo fun _ => rfl } := by
  simp only [updateOrganization, bind_eq_ok] at h
  obtain ⟨o, -, -, -, h⟩ := h
  cases h
  exact ⟨o.id, rfl⟩

/-- A deleted organization is referenced by no live group. -/
theorem softDeleteOrganization_spec {organizationId : UUID}
    (h : softDeleteOrganization db ctx organizationId = .ok db') :
    ∃ id, referencingGroups db id = [] ∧ db' = { db with
      organizations := softDeleteRow db.organizations ctx.now ctx.callerId id } := by
  simp only [softDeleteOrganization, bind_eq_ok, check_eq_ok, List.isEmpty_iff] at h
  obtain ⟨o, -, -, hfree, h⟩ := h
  cases h
  exact ⟨o.id, hfree, rfl⟩

theorem restoreOrganization_spec {organizationId : UUID}
    (h : restoreOrganization db settings ctx organizationId = .ok db') :
    ∃ id, db' = { db with organizations := restoreRow db.organizations id } := by
  simp only [restoreOrganization] at h
  split at h
  · cases h
  · rename_i o ho
    obtain ⟨-, -, h⟩ := bind_eq_ok.mp h
    cases h
    exact ⟨o.id, rfl⟩

theorem assignMember_spec {organizationId : UUID} {userId : UserId}
    (h : assignMember db organizationId userId = .ok db') :
    ∃ userOrganization, db' = { db with userOrganization } := by
  simp only [assignMember, bind_eq_ok] at h
  obtain ⟨o, -, -, -, h⟩ := h
  cases h
  exact ⟨_, rfl⟩

theorem removeOrganizationMember_spec {organizationId : UUID} {userId : UserId}
    (h : removeOrganizationMember db organizationId userId = .ok db') :
    ∃ userOrganization, db' = { db with userOrganization } := by
  simp only [removeOrganizationMember, bind_eq_ok] at h
  obtain ⟨o, -, -, -, -, -, h⟩ := h
  cases h
  exact ⟨_, rfl⟩

/-- A model delete drops the live assignments and the live subset rows of one model. -/
theorem deleteModel_spec {modelId : UUID} (h : deleteModel db ctx modelId = .ok db') :
    ∃ m models, db' = { db with
      models
      assignments := softDeleteWhere db.assignments ctx.now ctx.callerId fun a => a.modelId == m
      allowedModels :=
        softDeleteWhere db.allowedModels ctx.now ctx.callerId fun row => row.modelId == m } := by
  simp only [deleteModel, bind_eq_ok] at h
  obtain ⟨m, -, h⟩ := h
  cases h
  exact ⟨m.id, _, rfl⟩

theorem restoreModel_spec {modelId : UUID} (h : restoreModel db settings ctx modelId = .ok db') :
    ∃ models, db' = { db with models } := by
  simp only [restoreModel] at h
  split at h
  · cases h
  · simp only [bind_eq_ok] at h
    obtain ⟨-, -, -, -, h⟩ := h
    cases h
    exact ⟨_, rfl⟩

end

end RedTeaming.Evaluations
