import RedTeaming.Evaluations.Evaluations
import RedTeaming.Library.Listing

/-!
# `RedTeaming.Evaluations.Reads`: the reads of the evaluation domain

The lookups and the listings of `core/evaluations/services/evaluations.py` and `scenarios.py` that
carry the visibility of the parent group, and the gate `require_object_or_global` of the routes
that accept a global permission or a role on the group. The endpoints that restore an evaluation
or a scenario stand beside the listings of what was deleted.

All of them join the row to its live evaluation and to the live group of that, and ask
`group_visible_to` of a caller without the break-glass.
-/

set_option autoImplicit false

namespace RedTeaming.Evaluations

open RedTeaming.Auth
open RedTeaming.Library

/-- `_scope_to_groups`: the live group of an evaluation, when the caller sees it. -/
def scopeToGroups (db : Database) (callerId : UserId) (canManage : Bool)
    (evaluation : Evaluation) : Option EvaluationGroup :=
  (findLive db.groups evaluation.evaluationGroupId).filter fun group =>
    canManage || Sql.selects (db.groupVisibleTo callerId group)

/-- `join_visible_evaluation_group`: the group of a live evaluation, in the same way. -/
def joinVisibleEvaluationGroup (db : Database) (callerId : UserId) (canManage : Bool)
    (evaluationId : UUID) : Option EvaluationGroup :=
  (findLive db.evaluations evaluationId).bind (scopeToGroups db callerId canManage)

/-- `get_evaluation` with a caller: one live evaluation that the caller may see. -/
def getVisibleEvaluation (db : Database) (evaluationId : UUID) (callerId : UserId)
    (canManage : Bool) : Except ApiError Evaluation :=
  found
    ((findLive db.evaluations evaluationId).filter fun evaluation =>
      (scopeToGroups db callerId canManage evaluation).isSome)
    (evaluationNotFound evaluationId)

/-- `get_scenario` without a caller: the live scenario of the evaluation. -/
def getScenario (db : Database) (evaluationId scenarioId : UUID) : Except ApiError Scenario :=
  found ((findLive db.scenarios scenarioId).filter fun row => row.evaluationId == evaluationId)
    (.notFound ("Scenario " ++ toString scenarioId ++ " not found in evaluation "
      ++ toString evaluationId ++ "."))

/-- `get_scenario_by_id`: one live scenario that the caller may see. -/
def getScenarioById (db : Database) (scenarioId : UUID) (callerId : UserId) (canManage : Bool) :
    Except ApiError Scenario :=
  found
    ((findLive db.scenarios scenarioId).filter fun row =>
      (joinVisibleEvaluationGroup db callerId canManage row.evaluationId).isSome)
    (.notFound ("Scenario " ++ toString scenarioId ++ " not found."))

/-- `assert_object_permission`: a role of the caller on the group grants `p`. A request that names
no group is refused. -/
def assertObjectPermission (db : Database) (caller : SessionUser) (objectId : Option ObjectId)
    (p : Permission) : Except ApiError Unit :=
  check (objectId.any fun o => decide (p ∈ (resolveObjectAccess db caller o).permissions))
    (.forbidden ("Caller lacks the " ++ quoted p.value ++ " permission."))

/-- `require_object_or_global`: the gate of a route that accepts the global permission, or a role
on the group that the lookup finds. -/
def requireObjectOrGlobal (db : Database) (caller : SessionUser) (p : Permission)
    (lookup : Except ApiError (Option ObjectId)) : Except ApiError Unit := do
  if p ∈ caller.permissions then return
  assertObjectPermission db caller (← lookup) p

/-! ### Listings, and restores -/

/-- `assert_may_list_deleted`: the deleted view takes the permission that restores. -/
def assertMayListDeleted (deleted : Bool) (caller : SessionUser) (p : Permission)
    (entity : String) : Except ApiError Unit :=
  check (!deleted || decide (p ∈ caller.permissions))
    (.forbidden ("Listing deleted " ++ entity ++ " requires the " ++ quoted p.value
      ++ " permission."))

/-- The rows that a listing starts from: the live ones, or the tombstones that the caller may
restore. -/
def listedRows {ρ : Type} [Entity ρ] (settings : Settings) (ctx : Context) (deleted : Bool)
    (rows : Table ρ) : List ρ :=
  if deleted then deletedSelect rows (ctx.restoreCutoff settings) ctx.deletedBy
    else liveSelect rows

/-- The endpoint that lists evaluations. -/
def listEvaluations (db : Database) (settings : Settings) (ctx : Context)
    (query : ListQuery Evaluation) : Except ApiError (Page Evaluation) := do
  requirePermission ctx.caller .evaluationsRead
  assertMayListDeleted query.deleted ctx.caller .evaluationsDelete "evaluations"
  return query.page
    ((listedRows settings ctx query.deleted db.evaluations).filter fun evaluation =>
    (scopeToGroups db ctx.callerId ctx.canManage evaluation).isSome)

/-- The endpoint that restores an evaluation. It reads the evaluation again for its response. -/
def restoreEvaluationEndpoint (db : Database) (settings : Settings) (ctx : Context)
    (evaluationId : UUID) : Except ApiError Database := do
  requirePermission ctx.caller .evaluationsDelete
  let db ← restoreEvaluation db settings ctx evaluationId
  let _ ← getVisibleEvaluation db evaluationId ctx.callerId ctx.canManage
  return db

/-- `list_scenarios`: the page of the scenarios that the caller sees. -/
def listScenarios (db : Database) (settings : Settings) (ctx : Context)
    (query : ListQuery Scenario) : Page Scenario :=
  query.page ((listedRows settings ctx query.deleted db.scenarios).filter fun scenario =>
    (joinVisibleEvaluationGroup db ctx.callerId ctx.canManage scenario.evaluationId).isSome)

/-- The endpoint that lists scenarios across evaluations. -/
def listScenariosEndpoint (db : Database) (settings : Settings) (ctx : Context)
    (query : ListQuery Scenario) : Except ApiError (Page Scenario) := do
  requirePermission ctx.caller .evaluationsRead
  assertMayListDeleted query.deleted ctx.caller .evaluationsUpdate "scenarios"
  return listScenarios db settings ctx query

/-- The endpoint that lists the scenarios of one evaluation. The deleted view passes the write
gate of the group. -/
def listEvaluationScenarios (db : Database) (settings : Settings) (ctx : Context)
    (evaluationId : UUID) (query : ListQuery Scenario) : Except ApiError (Page Scenario) := do
  requirePermission ctx.caller .evaluationsRead
  assertMayListDeleted query.deleted ctx.caller .evaluationsUpdate "scenarios"
  let _ ← getVisibleEvaluation db evaluationId ctx.callerId ctx.canManage
  if query.deleted then
    let _ ← authorizeEvaluationMutation db ctx evaluationId .evaluationsUpdate false
  return listScenarios db settings ctx
    { query with keep := fun scenario => scenario.evaluationId == evaluationId &&
                   query.keep scenario }

/-- The endpoint that restores a scenario. -/
def restoreScenarioEndpoint (db : Database) (settings : Settings) (ctx : Context)
    (evaluationId scenarioId : UUID) : Except ApiError Database := do
  requirePermission ctx.caller .evaluationsUpdate
  restoreScenario db settings ctx evaluationId scenarioId

end RedTeaming.Evaluations
