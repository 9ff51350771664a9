import RedTeaming.Evaluations.GroupModels

/-!
# `RedTeaming.Evaluations.Groups`: creating, editing, and publishing groups

`core/evaluations/services/evaluation_groups.py` and `publication.py`, without the copies, which
are in `RedTeaming.Evaluations.Evaluations`. `collectSubmitBlockers` lists what keeps a group out
of review. A full create checks the same rules, and a draft skips them. `updateEvaluationGroup`
edits a group in any status. It checks the date order and the organization rule on the merged row.

A payload type holds what its schema admits: a `Title` is not empty, and `none` of an
`Option (Option α)` is a field that the caller did not send, `some none` an explicit `null`.

The notifications of the moderation verdicts and the audit rows are not modelled. They are written
to tables that nothing here reads.
-/

set_option autoImplicit false

namespace RedTeaming.Evaluations

open RedTeaming.Auth
open RedTeaming.Library

/-- A string that is not empty. -/
abbrev NonEmptyString := { s : String // s ≠ "" }

/-- A title: 1 to 255 characters. -/
abbrev Title := { s : String // s ≠ "" ∧ s.length ≤ 255 }

/-- Ids, at least one. -/
abbrev NonEmptyIds := { ids : List UUID // ids ≠ [] }

/-- `dates_out_of_order`: the end is set, and not strictly after the start. -/
def datesOutOfOrder (startDate : Date) : Option Date → Bool
  | some endDate => decide (endDate ≤ startDate)
  | none => false

/-- `_validate_group_org`: `organization` access names an organization, and a named one is
live. -/
def validateGroupOrg (db : Database) (accessLevel : EvaluationGroupAccessLevel)
    (organizationId : Option UUID) : Except ApiError Unit := do
  check (!(accessLevel == .organization && organizationId.isNone))
    (.badRequest "organization_id is required when access_level is 'organization'.")
  match organizationId with
  | some o =>
    check (findLive db.organizations o).isSome
      (.badRequest
        ("organization_id " ++ toString o ++ " does not reference a live organization."))
  | none => return

/-- Forbid assigning a group to an organization that the caller does not belong to. -/
def assertCallerMayAssignOrg (db : Database) (ctx : Context) (organizationId : UUID) :
    Except ApiError Unit :=
  check (ctx.canManage || db.callerLiveOrganization ctx.callerId == some organizationId)
    (.forbidden "You may only assign a group to your own organization.")

/-- `assertCallerMayAssignOrg` for a field that may be NULL. -/
def assertMayAssignOrg? (db : Database) (ctx : Context) :
    Option UUID → Except ApiError Unit
  | some o => assertCallerMayAssignOrg db ctx o
  | none => .ok ()

/-! ### What keeps a group from its next step -/

/-- `_missing_scenario_blocker`: the live evaluations without a live scenario, by title. -/
def missingScenarioBlocker (db : Database) (groupId : UUID) : Option String :=
  let titles := ((db.liveEvaluations groupId).filter fun e =>
    !((liveSelect db.scenarios).any fun s => s.evaluationId == e.id)).map Evaluation.title
  if titles.isEmpty then none
  else some ("Every evaluation needs at least one scenario; add one to: "
    ++ ", ".intercalate titles.mergeSort ++ ".")

/-- The labels of the required fields that a group lacks. -/
def missingFields (group : EvaluationGroup) : List String :=
  (if (group.title.getD "").isEmpty then ["title"] else [])
    ++ (if (group.description.getD "").isEmpty then ["description"] else [])
    ++ (if group.startDate.isNone then ["start date"] else [])

/-- The date gaps of a group. -/
def dateBlockers (today : Date) (group : EvaluationGroup) : List String :=
  match group.startDate with
  | some start =>
    (if start < today then ["The start date must not be before today."] else [])
      ++ (if datesOutOfOrder start group.endDate then
        ["The end date must be after the start date."] else [])
  | none => []

/-- The message of an error. -/
def organizationBlocker (db : Database) (group : EvaluationGroup) : List String :=
  match validateGroupOrg db group.accessLevel group.organizationId with
  | .error (.badRequest detail) => [detail]
  | _ => []

/-- `collect_submit_blockers`: everything that keeps a draft out of review. -/
def collectSubmitBlockers (db : Database) (today : Date) (group : EvaluationGroup) :
    List String :=
  (if (missingFields group).isEmpty then []
    else ["Fill in the required fields: " ++ ", ".intercalate (missingFields group) ++ "."])
  ++ dateBlockers today group
  ++ organizationBlocker db group
  ++ (if (db.subsetRows group.id).isEmpty then ["Assign at least one allowed model."] else [])
  ++ (missingScenarioBlocker db group.id).toList

/-- `collect_publish_blockers`: everything that keeps an approved group unpublished. -/
def collectPublishBlockers (db : Database) (group : EvaluationGroup) : List String :=
  (if (db.liveEvaluations group.id).isEmpty then
    ["Add at least one evaluation to the group."] else [])
  ++ (missingScenarioBlocker db group.id).toList

/-- `collect_publication_blockers`: what the next step of a group would refuse. -/
def collectPublicationBlockers (db : Database) (today : Date) (group : EvaluationGroup) :
    List String :=
  match group.status with
  | .draft | .changesRequested => collectSubmitBlockers db today group
  | .approved => collectPublishBlockers db group
  | .pendingApproval | .notApproved | .published | .inactive => []

/-- Refuse to submit a group with any completeness gap. -/
def assertGroupSubmittable (db : Database) (today : Date) (group : EvaluationGroup) :
    Except ApiError Unit :=
  let blockers := collectSubmitBlockers db today group
  check blockers.isEmpty
    (.badRequest ("Cannot submit an incomplete group: " ++ " ".intercalate blockers))

/-- Refuse to publish a group with any content gap. -/
def assertGroupPublishable (db : Database) (group : EvaluationGroup) : Except ApiError Unit :=
  let blockers := collectPublishBlockers db group
  check blockers.isEmpty
    (.badRequest ("Cannot publish an incomplete group: " ++ " ".intercalate blockers))

/-! ### Licences -/

/-- `default_license_for_access`: the licence that a create derives when the payload omits it. -/
def defaultLicenseForAccess (settings : Settings) : EvaluationGroupAccessLevel → Option UUID
  | .invitationOnly => some settings.noLicenseId
  | .public | .organization => none

/-- `validate_license_ref`: the id names a live licence. -/
def validateLicenseRef (db : Database) (licenseId : UUID) : Except ApiError Unit :=
  check (findLive db.licenses licenseId).isSome
    (.badRequest ("Unknown data license id '" ++ toString licenseId ++ "'."))

/-- `validate_license_ref` of a field that may be omitted or NULL. -/
def validateLicense? (db : Database) : Option (Option UUID) → Except ApiError Unit
  | some (some licenseId) => validateLicenseRef db licenseId
  | _ => .ok ()

/-- `assert_curated_license_synced`: a licence that the server derived is there. -/
def assertCuratedLicenseSynced (db : Database) (licenseId : UUID) : Except ApiError Unit :=
  check (findLive db.licenses licenseId).isSome (.runtimeError
    ("Curated license " ++ toString licenseId ++ " is missing; run synclicenses."))

/-- `assert_curated_license_synced` of a licence that may not be derived. -/
def assertDerivedLicense (db : Database) : Option UUID → Except ApiError Unit
  | some licenseId => assertCuratedLicenseSynced db licenseId
  | none => .ok ()

/-- `_resolve_new_group_license`: the licence that a create stores. -/
def resolveNewGroupLicense (db : Database) (settings : Settings)
    (dataLicenseId : Option (Option UUID)) (accessLevel : EvaluationGroupAccessLevel) :
    Except ApiError (Option UUID) := do
  match dataLicenseId with
  | none =>
    let derived := defaultLicenseForAccess settings accessLevel
    assertDerivedLicense db derived
    return derived
  | some licenseId =>
    validateLicense? db (some licenseId)
    return licenseId

/-! ### Creating a group -/

/-- Grant the creator the in-group `owner` role. -/
def grantOwner (db : Database) (groupId : UUID) (callerId : UserId) :
    Except ApiError (List Auth.Assignment) :=
  match db.auth.roleByName SystemRole.owner.value with
  | some (owner, _) =>
    match grantRoles db.roleAssignments groupId callerId [owner] with
    | some rows => .ok rows
    | none => .error (.runtimeError "duplicate key value violates unique constraint")
  | none => .error (.runtimeError ("Canonical role " ++ quoted SystemRole.owner.value
      ++ " not found — system roles are not synced."))

/-- `_persist_new_group`: insert a group and make the creator its owner. -/
def persistNewGroup (db : Database) (ctx : Context) (group : EvaluationGroup) :
    Except ApiError Database := do
  let groups ← flush db.groups [group]
  let roleAssignments ← grantOwner db group.id ctx.callerId
  return { db with groups, roleAssignments }

/-- The payload of a create. -/
structure EvaluationGroupCreate where
  title : Title
  description : NonEmptyString
  accessLevel : EvaluationGroupAccessLevel
  metricsAccessDuring : MetricsAccessLevel := .membersPersonalMetrics
  metricsAccessAfter : MetricsAccessLevel := .membersPersonalMetrics
  organizationId : Option UUID := none
  startDate : Date
  endDate : Option Date := none
  dataLicenseId : Option (Option UUID) := none
  allowedModelIds : NonEmptyIds

/-- The row of a create. The endpoint submits the new group for review. -/
def EvaluationGroupCreate.row (form : EvaluationGroupCreate) (ctx : Context)
    (dataLicenseId : Option UUID) : EvaluationGroup where
  toBaseModel := ctx.newRow ctx.fresh.row
  title := some form.title.val
  description := some form.description.val
  createdById := ctx.callerId
  status := .pendingApproval
  accessLevel := form.accessLevel
  metricsAccessDuring := form.metricsAccessDuring
  metricsAccessAfter := form.metricsAccessAfter
  organizationId := form.organizationId
  startDate := some form.startDate
  endDate := form.endDate
  dataLicenseId

/-- Create a complete group in review. -/
def createEvaluationGroup (db : Database) (settings : Settings) (ctx : Context)
    (form : EvaluationGroupCreate) : Except ApiError Database := do
  check (!decide (form.startDate < ctx.today))
    (.badRequest "start_date must not be before today.")
  check (!datesOutOfOrder form.startDate form.endDate)
    (.badRequest "end_date must be after start_date.")
  validateGroupOrg db form.accessLevel form.organizationId
  assertMayAssignOrg? db ctx form.organizationId
  let dataLicenseId ← resolveNewGroupLicense db settings form.dataLicenseId form.accessLevel
  let db ← persistNewGroup db ctx (form.row ctx dataLicenseId)
  syncGroupModels db ctx ctx.fresh.row form.allowedModelIds.val

/-- The payload of a draft. Only the title is required. -/
structure EvaluationGroupDraftCreate where
  title : Title
  description : Option NonEmptyString := none
  accessLevel : EvaluationGroupAccessLevel := .invitationOnly
  metricsAccessDuring : MetricsAccessLevel := .membersPersonalMetrics
  metricsAccessAfter : MetricsAccessLevel := .membersPersonalMetrics
  organizationId : Option UUID := none
  startDate : Option Date := none
  endDate : Option Date := none
  dataLicenseId : Option (Option UUID) := none
  allowedModelIds : List UUID := []

/-- The row of a draft. -/
def EvaluationGroupDraftCreate.row (form : EvaluationGroupDraftCreate) (ctx : Context)
    (dataLicenseId : Option UUID) : EvaluationGroup where
  toBaseModel := ctx.newRow ctx.fresh.row
  title := some form.title.val
  description := form.description.map Subtype.val
  createdById := ctx.callerId
  status := .draft
  accessLevel := form.accessLevel
  metricsAccessDuring := form.metricsAccessDuring
  metricsAccessAfter := form.metricsAccessAfter
  organizationId := form.organizationId
  startDate := form.startDate
  endDate := form.endDate
  dataLicenseId

/-- Two dates, when both are set, are in order. -/
def datesInOrder : Option Date → Option Date → Bool
  | some startDate, endDate => !datesOutOfOrder startDate endDate
  | none, _ => true

/-- Save a partial draft. The completeness checks are skipped, and the tenant check is not. -/
def createEvaluationGroupDraft (db : Database) (settings : Settings) (ctx : Context)
    (form : EvaluationGroupDraftCreate) : Except ApiError Database := do
  check (datesInOrder form.startDate form.endDate)
    (.badRequest "end_date must be after start_date.")
  assertMayAssignOrg? db ctx form.organizationId
  let dataLicenseId ← resolveNewGroupLicense db settings form.dataLicenseId form.accessLevel
  let db ← persistNewGroup db ctx (form.row ctx dataLicenseId)
  syncGroupModels db ctx ctx.fresh.row form.allowedModelIds

/-! ### Editing a group -/

/-- The payload of a patch. `title`, `accessLevel`, the metrics levels, and `allowedModelIds` have
no explicit `null`. -/
structure EvaluationGroupUpdate where
  title : Option Title := none
  description : Option (Option NonEmptyString) := none
  accessLevel : Option EvaluationGroupAccessLevel := none
  metricsAccessDuring : Option MetricsAccessLevel := none
  metricsAccessAfter : Option MetricsAccessLevel := none
  organizationId : Option (Option UUID) := none
  startDate : Option (Option Date) := none
  endDate : Option (Option Date) := none
  dataLicenseId : Option (Option UUID) := none
  allowedModelIds : Option NonEmptyIds := none

namespace EvaluationGroupUpdate
variable (changes : EvaluationGroupUpdate)

/-- The row after the fields that were sent are written. -/
def applyTo (group : EvaluationGroup) : EvaluationGroup :=
  { group with
      title := (changes.title.map fun title => some title.val).getD group.title
      description :=
        (changes.description.map fun d => d.map Subtype.val).getD group.description
      accessLevel := changes.accessLevel.getD group.accessLevel
      metricsAccessDuring := changes.metricsAccessDuring.getD group.metricsAccessDuring
      metricsAccessAfter := changes.metricsAccessAfter.getD group.metricsAccessAfter
      organizationId := changes.organizationId.getD group.organizationId
      startDate := changes.startDate.getD group.startDate
      endDate := changes.endDate.getD group.endDate
      dataLicenseId := changes.dataLicenseId.getD group.dataLicenseId }

/-- The licence that an access-level change derives for a group without one. -/
def derivedLicense (settings : Settings) (group : EvaluationGroup) : Option UUID :=
  let after := changes.applyTo group
  if after.accessLevel ≠ group.accessLevel ∧ after.dataLicenseId = none ∧
      changes.dataLicenseId = none then
    defaultLicenseForAccess settings after.accessLevel
  else none

/-- The row that a patch writes. -/
def row (settings : Settings) (group : EvaluationGroup) : EvaluationGroup :=
  { changes.applyTo group with
      dataLicenseId := (changes.derivedLicense settings group).or
        (changes.applyTo group).dataLicenseId }

end EvaluationGroupUpdate

/-- The subset replacement of a patch, when it sends one. -/
def syncModels? (db : Database) (ctx : Context) (groupId : UUID) :
    Option NonEmptyIds → Except ApiError Database
  | some modelIds => syncGroupModels db ctx groupId modelIds.val
  | none => .ok db

/-- Load a group that the caller may write. -/
def writableGroup (db : Database) (ctx : Context) (groupId : UUID) :
    Except ApiError EvaluationGroup := do
  let group ← getEvaluationGroup db groupId ctx.callerId ctx.canManage
  assertGroupWriteAccess db group.id ctx.callerId ctx.canManage .evaluationGroupsUpdate
    ("Evaluation group " ++ toString group.id ++ " not found.")
  return group

/-- Apply a patch to a group, in any status. -/
def updateEvaluationGroup (db : Database) (settings : Settings) (ctx : Context) (groupId : UUID)
    (changes : EvaluationGroupUpdate) : Except ApiError Database := do
  let group ← writableGroup db ctx groupId
  validateLicense? db changes.dataLicenseId
  assertDerivedLicense db (changes.derivedLicense settings group)
  let updated := changes.row settings group
  let db ← syncModels? db ctx group.id changes.allowedModelIds
  check (datesInOrder updated.startDate updated.endDate)
    (.badRequest "end_date must be after start_date.")
  validateGroupOrg db updated.accessLevel updated.organizationId
  if updated.organizationId ≠ group.organizationId then
    assertMayAssignOrg? db ctx updated.organizationId
  return { db with groups := db.groups.modify group.id (changes.row settings) fun _ => rfl }

/-! ### Publication transitions -/

/-- `_PUBLICATION_TRANSITIONS`: the states that follow a state. -/
def publicationTransitions : PublicationStatus → List PublicationStatus
  | .draft => [.pendingApproval]
  | .changesRequested => [.pendingApproval]
  | .pendingApproval => [.approved, .notApproved, .changesRequested]
  | .approved => [.published]
  | .published => [.inactive]
  | .notApproved | .inactive => []

/-- The table has an edge from the group's status to the target. -/
def assertTransition (group : EvaluationGroup) (target : PublicationStatus) :
    Except ApiError Unit :=
  check ((publicationTransitions group.status).contains target)
    (.conflict ("Cannot move evaluation group " ++ toString group.id ++ " from '"
      ++ group.status.value ++ "' to '" ++ target.value ++ "'."))

/-- Write the status, and the rejection reason that goes with it. -/
def setStatus (db : Database) (groupId : UUID) (status : PublicationStatus)
    (reason : Option String → Option String) : Database :=
  { db with
      groups := db.groups.modify groupId
        (fun g => { g with status, rejectionReason := reason g.rejectionReason }) fun _ => rfl }

/-- Submit a draft for review. The result has the status that the group left. -/
def submitEvaluationGroup (db : Database) (ctx : Context) (groupId : UUID) :
    Except ApiError (Database × PublicationStatus) := do
  let group ← writableGroup db ctx groupId
  assertTransition group .pendingApproval
  assertGroupSubmittable db ctx.today group
  return (setStatus db group.id .pendingApproval id, group.status)

/-- Publish an approved group. -/
def publishEvaluationGroup (db : Database) (ctx : Context) (groupId : UUID) :
    Except ApiError (Database × PublicationStatus) := do
  let group ← writableGroup db ctx groupId
  assertTransition group .published
  assertGroupPublishable db group
  return (setStatus db group.id .published id, group.status)

/-- Finish a published group. -/
def finishEvaluationGroup (db : Database) (ctx : Context) (groupId : UUID) :
    Except ApiError (Database × PublicationStatus) := do
  let group ← writableGroup db ctx groupId
  assertTransition group .inactive
  return (setStatus db group.id .inactive id, group.status)

/-- Approve a group in review. -/
def approveEvaluationGroup (db : Database) (ctx : Context) (groupId : UUID) :
    Except ApiError (Database × PublicationStatus) := do
  let group ← writableGroup db ctx groupId
  assertTransition group .approved
  return (setStatus db group.id .approved fun _ => none, group.status)

/-- Bounce a group in review back for edits. The route takes the break-glass permission. -/
def requestChangesForEvaluationGroup (db : Database) (ctx : Context) (groupId : UUID) :
    Except ApiError (Database × PublicationStatus) := do
  let group ← getEvaluationGroup db groupId ctx.callerId true
  assertTransition group .changesRequested
  return (setStatus db group.id .changesRequested fun _ => none, group.status)

/-- Reject a group in review. -/
def rejectEvaluationGroup (db : Database) (ctx : Context) (groupId : UUID)
    (rejectionReason : NonEmptyString) : Except ApiError (Database × PublicationStatus) := do
  let group ← getEvaluationGroup db groupId ctx.callerId true
  assertTransition group .notApproved
  return (setStatus db group.id .notApproved fun _ => some rejectionReason.val, group.status)

end RedTeaming.Evaluations
