import RedTeaming.Auth.ObjectRoles
import RedTeaming.Library.Json
import RedTeaming.SoftDelete

/-!
# `RedTeaming.Evaluations.Rows`: the tables of the evaluation domain

The rows of `core/evaluations/models.py`, and the columns of organizations, licences, and models
that the services of `core/evaluations` read. A `Database` also holds the tables of the auth
domain, because the object roles decide who may see and write a group.

A group owns evaluations and an allowed-model subset. An evaluation owns scenarios, tag keys, and
model assignments, and a scenario owns tasks.
-/

set_option autoImplicit false

namespace RedTeaming.Evaluations

open RedTeaming.Auth
open RedTeaming.Library

/-- A calendar day, counted from the epoch. -/
abbrev Date := Int

/-- Review and publish lifecycle of a group. -/
inductive PublicationStatus
  | draft | pendingApproval | changesRequested | approved | notApproved | published | inactive
deriving DecidableEq, Repr

/-- The status string. -/
def PublicationStatus.value : PublicationStatus → String
  | .draft => "draft"
  | .pendingApproval => "pending_approval"
  | .changesRequested => "changes_requested"
  | .approved => "approved"
  | .notApproved => "not_approved"
  | .published => "published"
  | .inactive => "inactive"

/-- The states that accept new evaluations. -/
def groupStatusesAcceptingEvaluations : List PublicationStatus := [.approved, .published]

/-- Who may reach a group. -/
inductive EvaluationGroupAccessLevel
  | «public» | organization | invitationOnly
deriving DecidableEq, Repr

/-- Who may read the metrics of a group. -/
inductive MetricsAccessLevel
  | inheritGroupAccess | allMembers | membersPersonalMetrics | ownerOnly
deriving DecidableEq, Repr

/-- A row of `organizations`. -/
structure Organization extends BaseModel where
  name : String
  description : Option String := none
deriving DecidableEq

/-- The id of a row of `data_licenses`. -/
structure DataLicense extends BaseModel
deriving DecidableEq

/-- The columns of `ai_models` that are unique among live rows. -/
structure AiModel extends BaseModel where
  name : String
  modelAlias : String
deriving DecidableEq

/-- A row of `evaluation_groups`. -/
structure EvaluationGroup extends BaseModel where
  title : Option String := none
  description : Option String := none
  createdById : UserId
  status : PublicationStatus := .draft
  rejectionReason : Option String := none
  accessLevel : EvaluationGroupAccessLevel := .invitationOnly
  metricsAccessDuring : MetricsAccessLevel := .membersPersonalMetrics
  metricsAccessAfter : MetricsAccessLevel := .membersPersonalMetrics
  organizationId : Option UUID := none
  startDate : Option Date := none
  endDate : Option Date := none
  dataLicenseId : Option UUID := none
deriving DecidableEq

/-- A row of `evaluation_group_ai_models`: a model that the group's evaluations may use. -/
structure EvaluationGroupAiModel extends BaseModel where
  evaluationGroupId : UUID
  modelId : UUID
deriving DecidableEq

/-- A row of `evaluations`. -/
structure Evaluation extends BaseModel where
  title : String
  description : Option String := none
  maskModelsEnabled : Bool := true
  tagsEnabled : Bool := true
  tagsRestricted : Bool := false
  coverImage : Option String := none
  dataLicenseId : Option UUID := none
  createdById : UserId
  evaluationGroupId : UUID
deriving DecidableEq

/-- A row of `evaluation_ai_models`: the assignment of a model to an evaluation. -/
structure EvaluationAiModel extends BaseModel where
  modelId : UUID
  evaluationId : UUID
  modelDisplayMask : Option String := none
  parameters : JsonObject := []

/-- A row of `evaluation_tag_keys`. -/
structure EvaluationTagKey extends BaseModel where
  evaluationId : UUID
  tagKey : String
deriving DecidableEq

/-- A row of `scenarios`. -/
structure Scenario extends BaseModel where
  name : String
  description : String
  evaluationId : UUID
  position : Nat
  requiredReviews : Nat := 1
deriving DecidableEq

/-- A row of `tasks`. -/
structure Task extends BaseModel where
  name : String
  description : String
  scenarioId : UUID
deriving DecidableEq

instance : Entity Organization :=
  ⟨(·.toBaseModel), fun r b => { r with toBaseModel := b }, fun _ _ => rfl⟩
instance : Entity DataLicense :=
  ⟨(·.toBaseModel), fun r b => { r with toBaseModel := b }, fun _ _ => rfl⟩
instance : Entity AiModel :=
  ⟨(·.toBaseModel), fun r b => { r with toBaseModel := b }, fun _ _ => rfl⟩
instance : Entity EvaluationGroup :=
  ⟨(·.toBaseModel), fun r b => { r with toBaseModel := b }, fun _ _ => rfl⟩
instance : Entity EvaluationGroupAiModel :=
  ⟨(·.toBaseModel), fun r b => { r with toBaseModel := b }, fun _ _ => rfl⟩
instance : Entity Evaluation :=
  ⟨(·.toBaseModel), fun r b => { r with toBaseModel := b }, fun _ _ => rfl⟩
instance : Entity EvaluationAiModel :=
  ⟨(·.toBaseModel), fun r b => { r with toBaseModel := b }, fun _ _ => rfl⟩
instance : Entity EvaluationTagKey :=
  ⟨(·.toBaseModel), fun r b => { r with toBaseModel := b }, fun _ _ => rfl⟩
instance : Entity Scenario :=
  ⟨(·.toBaseModel), fun r b => { r with toBaseModel := b }, fun _ _ => rfl⟩
instance : Entity Task :=
  ⟨(·.toBaseModel), fun r b => { r with toBaseModel := b }, fun _ _ => rfl⟩

/-- The tables. `userOrganization` is the column `users.organization_id`. -/
structure Database where
  auth : Directory
  roleAssignments : List Auth.Assignment
  userOrganization : UserId → Option UUID
  organizations : Table Organization
  licenses : Table DataLicense
  models : Table AiModel
  groups : Table EvaluationGroup
  allowedModels : Table EvaluationGroupAiModel
  evaluations : Table Evaluation
  assignments : Table EvaluationAiModel
  tagKeys : Table EvaluationTagKey
  scenarios : Table Scenario
  tasks : Table Task

end RedTeaming.Evaluations
