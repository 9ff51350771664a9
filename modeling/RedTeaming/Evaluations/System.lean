import RedTeaming.Evaluations.Registry
import RedTeaming.Library.Transition

/-!
# `RedTeaming.Evaluations.System`: the requests of the evaluation domain, one after another

A `Request` is one call of an endpoint of this domain. `perform` runs its handler on the tables,
with the permission that its route asks for. A request that raises is rolled back, so a run lists
the requests that commit, and `step` is undefined on the others.

`identity` stands for what the account, role, and membership services commit between two requests.
It may leave any directory, any object-role rows, and any users' organizations. A property of
every run then holds whatever those services do.
-/

set_option autoImplicit false

namespace RedTeaming.Evaluations

open RedTeaming.Auth
open RedTeaming.Library

/-- A call of an endpoint. -/
inductive Request
  | createGroup (form : EvaluationGroupCreate)
  | createDraft (form : EvaluationGroupDraftCreate)
  | duplicateGroup (sourceGroupId : UUID) (includeChildren : Bool)
  | updateGroup (groupId : UUID) (changes : EvaluationGroupUpdate)
  | submit (groupId : UUID)
  | approve (groupId : UUID)
  | requestChanges (groupId : UUID)
  | reject (groupId : UUID) (rejectionReason : NonEmptyString)
  | publish (groupId : UUID)
  | finish (groupId : UUID)
  | createEvaluation (form : EvaluationCreate)
  | duplicateEvaluation (sourceEvaluationId : UUID) (includeChildren : Bool)
  | deleteEvaluation (evaluationId : UUID)
  | restoreEvaluation (evaluationId : UUID)
  | assignModel (evaluationId : UUID) (form : EvaluationAiModelAssign)
  | unassignModel (evaluationId assignmentId : UUID)
  | restoreAssignment (evaluationId assignmentId : UUID)
  | createScenario (evaluationId : UUID) (form : ScenarioCreate)
  | deleteScenario (evaluationId scenarioId : UUID)
  | restoreScenario (evaluationId scenarioId : UUID)
  | deleteModel (modelId : UUID)
  | restoreModel (modelId : UUID)
  | createOrganization (name : String) (description : Option String)
  | updateOrganization (organizationId : UUID) (changes : OrganizationUpdate)
  | deleteOrganization (organizationId : UUID)
  | restoreOrganization (organizationId : UUID)
  | assignMember (organizationId : UUID) (userId : UserId)
  | removeMember (organizationId : UUID) (userId : UserId)
  | identity (auth : Directory) (roleAssignments : List Auth.Assignment)
      (userOrganization : UserId → Option UUID)

/-- The permission that the route of a request asks for. -/
def Request.permission : Request → Option Permission
  | .createGroup _ | .createDraft _ | .duplicateGroup .. => some .evaluationGroupsCreate
  | .updateGroup .. | .submit _ | .approve _ | .publish _ | .finish _ =>
    some .evaluationGroupsUpdate
  | .requestChanges _ | .reject .. => some .evaluationGroupsManage
  | .createEvaluation _ | .duplicateEvaluation .. => some .evaluationsCreate
  | .deleteEvaluation _ | .restoreEvaluation _ => some .evaluationsDelete
  | .assignModel .. | .unassignModel .. | .restoreAssignment .. => some .evaluationsUpdate
  | .createScenario .. | .deleteScenario .. | .restoreScenario .. => some .evaluationsUpdate
  | .deleteModel _ | .restoreModel _ => some .modelsDelete
  | .createOrganization .. => some .organizationsCreate
  | .updateOrganization .. => some .organizationsUpdate
  | .deleteOrganization _ | .restoreOrganization _ => some .organizationsDelete
  | .assignMember .. | .removeMember .. => some .organizationsManageMembers
  | .identity .. => none

/-- The gate of the route. -/
def Request.authorize (request : Request) (caller : SessionUser) : Except ApiError Unit :=
  match request.permission with
  | some p => requirePermission caller p
  | none => .ok ()

/-- The handler of a request. -/
def Request.handle (settings : Settings) (ctx : Context) (db : Database) :
    Request → Except ApiError Database
  | .createGroup form => createEvaluationGroup db settings ctx form
  | .createDraft form => createEvaluationGroupDraft db settings ctx form
  | .duplicateGroup sourceGroupId includeChildren =>
    duplicateEvaluationGroup db ctx sourceGroupId includeChildren
  | .updateGroup groupId changes => updateEvaluationGroup db settings ctx groupId changes
  | .submit groupId => Prod.fst <$> submitEvaluationGroup db ctx groupId
  | .approve groupId => Prod.fst <$> approveEvaluationGroup db ctx groupId
  | .requestChanges groupId => Prod.fst <$> requestChangesForEvaluationGroup db ctx groupId
  | .reject groupId reason => Prod.fst <$> rejectEvaluationGroup db ctx groupId reason
  | .publish groupId => Prod.fst <$> publishEvaluationGroup db ctx groupId
  | .finish groupId => Prod.fst <$> finishEvaluationGroup db ctx groupId
  | .createEvaluation form => Evaluations.createEvaluation db ctx form
  | .duplicateEvaluation sourceEvaluationId includeChildren =>
    Evaluations.duplicateEvaluation db ctx sourceEvaluationId includeChildren
  | .deleteEvaluation evaluationId => Evaluations.deleteEvaluation db ctx evaluationId
  | .restoreEvaluation evaluationId =>
    Evaluations.restoreEvaluation db settings ctx evaluationId
  | .assignModel evaluationId form => assignModelEndpoint db ctx evaluationId form
  | .unassignModel evaluationId assignmentId =>
    Evaluations.unassignModel db ctx evaluationId assignmentId
  | .restoreAssignment evaluationId assignmentId =>
    Evaluations.restoreAssignment db settings ctx evaluationId assignmentId
  | .createScenario evaluationId form => Evaluations.createScenario db ctx evaluationId form
  | .deleteScenario evaluationId scenarioId =>
    Evaluations.deleteScenario db ctx evaluationId scenarioId
  | .restoreScenario evaluationId scenarioId =>
    Evaluations.restoreScenario db settings ctx evaluationId scenarioId
  | .deleteModel modelId => Evaluations.deleteModel db ctx modelId
  | .restoreModel modelId => Evaluations.restoreModel db settings ctx modelId
  | .createOrganization name description =>
    Evaluations.createOrganization db ctx name description
  | .updateOrganization organizationId changes =>
    Evaluations.updateOrganization db organizationId changes
  | .deleteOrganization organizationId => softDeleteOrganization db ctx organizationId
  | .restoreOrganization organizationId =>
    Evaluations.restoreOrganization db settings ctx organizationId
  | .assignMember organizationId userId => Evaluations.assignMember db organizationId userId
  | .removeMember organizationId userId => removeOrganizationMember db organizationId userId
  | .identity auth roleAssignments userOrganization =>
    .ok { db with auth, roleAssignments, userOrganization }

/-- A request with its caller, the clock, and the ids that it draws. -/
structure Label extends Context where
  request : Request

/-- The handler of a request behind the gate of its route. -/
def perform (settings : Settings) (db : Database) (l : Label) : Except ApiError Database := do
  l.request.authorize l.caller
  l.request.handle settings l.toContext db

/-- One committed request. -/
def step (settings : Settings) (db : Database) (l : Label) : Option Database :=
  (perform settings db l).toOption

/-- A committed request ran its handler. -/
theorem handle_of_step {settings : Settings} {db db' : Database} {l : Label}
    (h : step settings db l = some db') :
    l.request.handle settings l.toContext db = .ok db' := by
  unfold step at h
  cases hperform : perform settings db l with
  | error e =>
    rw [hperform] at h
    cases h
  | ok db₁ =>
    rw [hperform] at h
    cases h
    obtain ⟨-, -, hhandle⟩ := bind_eq_ok.mp hperform
    exact hhandle

/-- The tables of this domain hold no row yet. The organizations, models, licences, and accounts
are arbitrary. -/
structure NoGroups (db : Database) : Prop where
  groups : db.groups.rows = []
  allowedModels : db.allowedModels.rows = []
  evaluations : db.evaluations.rows = []
  assignments : db.assignments.rows = []

/-! ### Requests of a deployment -/

theorem noGroups_deployed : NoGroups deployed := ⟨rfl, rfl, rfl, rfl⟩

/-- A restore window of thirty days. -/
def thirtyDays : Settings where
  restoreWindowDays := 30
  noLicenseId := 1

/-- A request of the admin. The copied rows and the subset rows get ids after `row`. -/
def Label.byRoot (row : UUID) (request : Request) : Label where
  caller := Accounts.rootSession
  now := 1000
  fresh :=
    { row
      allowedModel := (row + ·)
      evaluation := (row + ·)
      assignment := (row + ·)
      tagKey := (row + ·)
      scenario := (row + ·)
      task := (row + ·) }
  request

/-- A public group that may use both models. -/
def challenge : EvaluationGroupCreate where
  title := ⟨"Challenge", by decide⟩
  description := ⟨"Break it", by decide⟩
  accessLevel := .public
  startDate := 0
  allowedModelIds := ⟨[20, 21], by decide⟩

/-- An evaluation of that group. -/
def trial : EvaluationCreate where
  title := ⟨"Trial", by decide⟩
  evaluationGroupId := 30

/-- The group 30 is created and approved, and gets the evaluation 31. -/
def opening : List Label :=
  [.byRoot 30 (.createGroup challenge), .byRoot 31 (.approve 30),
    .byRoot 31 (.createEvaluation trial)]

end RedTeaming.Evaluations
