import RedTeaming.Evaluations.Evaluations
import RedTeaming.Evaluations.GroupSpecs
import RedTeaming.Membership.MemberRoles

/-!
# `RedTeaming.Evaluations.MetricsAccess`: who reads the metrics of a group

The gates of the two dashboards in `core/evaluations/dependencies.py`, and the read of one group,
which tells the caller's permissions on it. `resolveMetricsScope` decides for both. A client asks
for the dashboard when `evaluation_groups:view_metrics` is among the permissions that the read
returns.

The read finds the group by the query `groupVisibleTo`, and the gate by the check
`groupIsVisible`. A caller whose roles on the group are all deleted is a member for the query
only. `view_metrics_key_iff` says that the key is wrong for such a caller, when nothing else shows
the group and its level lets in whoever sees it, and right in every other case.
-/

set_option autoImplicit false

namespace RedTeaming.Evaluations

open RedTeaming.Auth
open RedTeaming.Library
open RedTeaming.Membership (OnlyTombstones)

/-- What a dashboard shows: everything, or the caller's own contributions. -/
inductive MetricsScope
  | full | personal
deriving DecidableEq, Repr

/-- The level in force. `metrics_access_after` applies to a finished group. -/
def EvaluationGroup.metricsLevel (group : EvaluationGroup) : MetricsAccessLevel :=
  if group.status = .inactive then group.metricsAccessAfter else group.metricsAccessDuring

/-- `resolve_metrics_scope`: what the caller may read under the level of the group. -/
def resolveMetricsScope (group : EvaluationGroup) (access : ObjectAccessContext) :
    Option MetricsScope :=
  if access.has .evaluationGroupsViewMetrics then some .full
  else
    match group.metricsLevel with
    | .inheritGroupAccess => some .full
    | .allMembers => if access.isMember then some .full else none
    | .membersPersonalMetrics =>
      if access.isMember && access.has .evaluationGroupsViewPersonalMetrics then some .personal
      else none
    | .ownerOnly => none

/-! ### The gates -/

/-- A group whose dashboard the caller may read. `viewerId` is the caller when the scope is
personal. -/
structure GroupMetricsView where
  context : GroupContext
  viewerId : Option UserId
  fullModelAccess : Bool

/-- The viewer that a scope filters by. -/
def MetricsScope.viewer (scope : MetricsScope) (caller : SessionUser) : Option UserId :=
  match scope with
  | .full => none
  | .personal => some caller.id

/-- `require_group_metrics_access`: the gate of the group dashboard. -/
def requireGroupMetricsAccess (db : Database) (caller : SessionUser) (groupId : UUID) :
    Except ApiError GroupMetricsView := do
  requirePermission caller .evaluationGroupsRead
  let context ← resolveGroupContext db caller groupId
  check (groupIsVisible context caller) (groupNotFound groupId)
  match resolveMetricsScope context.group context.access with
  | some scope =>
    return { context, viewerId := scope.viewer caller
             fullModelAccess := context.access.has .evaluationGroupsViewMetrics }
  | none => throw (.forbidden "Caller lacks metrics access for this group.")

/-- An evaluation whose dashboard the caller may read. -/
structure EvaluationMetricsView where
  evaluation : Evaluation
  context : GroupContext
  viewerId : Option UserId
  maskModelNames : Bool

/-- `require_evaluation_metrics`: the gate of the dashboard of one evaluation. -/
def requireEvaluationMetrics (db : Database) (caller : SessionUser) (evaluationId : UUID) :
    Except ApiError EvaluationMetricsView := do
  requirePermission caller .evaluationGroupsRead
  let evaluation ← found (findLive db.evaluations evaluationId) (evaluationNotFound evaluationId)
  let context ← resolveGroupContext db caller evaluation.evaluationGroupId
  check (groupIsVisible context caller) (evaluationNotFound evaluationId)
  match resolveMetricsScope context.group context.access with
  | some scope =>
    return { evaluation, context, viewerId := scope.viewer caller
             maskModelNames := evaluation.maskModelsEnabled &&
               !context.access.has .evaluationGroupsViewMetrics }
  | none => throw (.forbidden "Caller lacks metrics access for this evaluation.")

/-! ### The read of one group -/

/-- `effective_object_permissions`: what the caller may do on the object. The break-glass gives
what any system role on the object gives. -/
def effectiveObjectPermissions (access : ObjectAccessContext) : Finset Permission :=
  if access.hasSuper then
    insert .evaluationGroupsManage
      (objectAssignableSystemRoles.toFinset.biUnion SystemRole.permissions)
  else access.permissions

/-- The strings of some permissions, sorted. -/
def sortedValues (permissions : Finset Permission) : List String :=
  ((Permission.all.filter fun p => decide (p ∈ permissions)).map Permission.value).mergeSort

/-- `resolve_group_user_permissions`: the caller's permissions on the group. The key of the
dashboards is added when the level of the group lets the caller read any metrics. -/
def resolveGroupUserPermissions (db : Database) (caller : SessionUser) (group : EvaluationGroup) :
    List String :=
  let access := resolveObjectAccess db caller group.id
  let permissions := effectiveObjectPermissions access
  sortedValues <|
    if (resolveMetricsScope group access).isSome then
      insert .evaluationGroupsViewMetrics permissions
    else permissions

/-- The subset of a group with the models, by name. -/
def subsetModels (db : Database) (groupId : UUID) : List (EvaluationGroupAiModel × AiModel) :=
  ((db.subsetRows groupId).filterMap fun row =>
    (db.models.find? row.modelId).map fun model => (row, model)).mergeSort
      fun x y => decide (x.2.name ≤ y.2.name)

/-- The response of the read of one group, without its evaluations and licences. -/
structure EvaluationGroupDetailResponse where
  group : EvaluationGroup
  userPermissions : List String
  allowedModels : Option (List (EvaluationGroupAiModel × AiModel))
  publicationBlockers : List String

/-- The endpoint that reads one group. A caller without `models:read` gets no subset. -/
def getEvaluationGroupEndpoint (db : Database) (today : Date) (caller : SessionUser)
    (groupId : UUID) : Except ApiError EvaluationGroupDetailResponse := do
  requirePermission caller .evaluationGroupsRead
  let group ← getEvaluationGroup db groupId caller.id (callerCanManageGroups caller)
  let userPermissions := resolveGroupUserPermissions db caller group
  let modelsReadable := decide (.modelsRead ∈ caller.permissions) ||
    userPermissions.contains Permission.modelsRead.value
  return { group, userPermissions
           allowedModels := if modelsReadable then some (subsetModels db group.id) else none
           publicationBlockers := collectPublicationBlockers db today group }

/-! ### The key of the dashboards -/

/-- Whenever the read of the group succeeds, the key is among the permissions exactly when the
gate of the group dashboard lets the caller in. -/
def KeyTellsTruth (db : Database) (today : Date) (caller : SessionUser) (groupId : UUID) : Prop :=
  ∀ detail, getEvaluationGroupEndpoint db today caller groupId = .ok detail →
    (Permission.evaluationGroupsViewMetrics.value ∈ detail.userPermissions ↔
      ∃ view, requireGroupMetricsAccess db caller groupId = .ok view)

/-- The access level of the group shows it to the caller. -/
def OpenTo (db : Database) (callerId : UserId) (group : EvaluationGroup) : Prop :=
  (group.accessLevel = .public ∧ group.status ≠ .draft) ∨
    (group.accessLevel = .organization ∧
      ∃ o, group.organizationId = some o ∧ db.callerLiveOrganization callerId = some o)

/-- The caller may read groups, and has assignments on this one, all to deleted roles. Nothing
else shows the group, and the level in force lets in whoever sees it. -/
structure Stranded (db : Database) (caller : SessionUser) (group : EvaluationGroup) : Prop where
  reads : .evaluationGroupsRead ∈ caller.permissions
  noBreakGlass : callerCanManageGroups caller = false
  onlyTombstones : OnlyTombstones db.auth db.roleAssignments group.id caller.id
  closed : ¬ OpenTo db caller.id group
  inherits : group.metricsLevel = .inheritGroupAccess

section
variable {db : Database} {today : Date} {caller : SessionUser} {group : EvaluationGroup}
  {groupId : UUID}

/-- The strings are those of the permissions. -/
theorem value_mem_sortedValues {permissions : Finset Permission} {p : Permission} :
    p.value ∈ sortedValues permissions ↔ p ∈ permissions := by
  simp only [sortedValues, List.mem_mergeSort, List.mem_map, List.mem_filter, decide_eq_true_eq]
  constructor
  · rintro ⟨q, ⟨-, hq⟩, hvalue⟩
    have hsame := Permission.ofValue?_value q
    rw [hvalue, Permission.ofValue?_value p] at hsame
    cases hsame
    exact hq
  · intro hp
    exact ⟨p, ⟨Permission.mem_all p, hp⟩, rfl⟩

/-- A caller who holds the key by a role, or by the break-glass, reads everything. -/
theorem resolveMetricsScope_of_has {access : ObjectAccessContext}
    (h : access.has .evaluationGroupsViewMetrics = true) :
    resolveMetricsScope group access = some .full := by
  rw [resolveMetricsScope, if_pos h]

/-- The key is among the permissions when the level of the group lets the caller read any
metrics. -/
theorem key_mem_iff :
    Permission.evaluationGroupsViewMetrics.value ∈ resolveGroupUserPermissions db caller group ↔
      (resolveMetricsScope group (resolveObjectAccess db caller group.id)).isSome = true := by
  unfold resolveGroupUserPermissions
  dsimp only
  rw [value_mem_sortedValues]
  split
  · rename_i hscope
    simp [hscope]
  · rename_i hscope
    -- Without a scope, the caller has neither the break-glass nor a role with the key.
    have hnot :
        ¬ (resolveObjectAccess db caller group.id).has .evaluationGroupsViewMetrics = true := by
      intro hhas
      rw [resolveMetricsScope_of_has hhas] at hscope
      exact hscope rfl
    simp only [ObjectAccessContext.has, Bool.or_eq_true, decide_eq_true_eq, not_or,
      Bool.not_eq_true] at hnot
    simp only [effectiveObjectPermissions, hnot.1, Bool.false_eq_true, if_false,
      hscope, iff_false]
    exact hnot.2

/-- Whom the gate lets in: a caller who may read groups and sees this one, with a scope. -/
theorem requireGroupMetricsAccess_eq_ok :
    (∃ view, requireGroupMetricsAccess db caller groupId = .ok view) ↔
      .evaluationGroupsRead ∈ caller.permissions ∧ ∃ group,
        findLive db.groups groupId = some group ∧
        groupIsVisible (groupContext db caller group) caller = true ∧
        (resolveMetricsScope group (resolveObjectAccess db caller group.id)).isSome = true := by
  simp only [requireGroupMetricsAccess, requirePermission, resolveGroupContext,
    getEvaluationGroup, bind_eq_ok, check_eq_ok, decide_eq_true_eq]
  constructor
  · rintro ⟨view, -, hread, context, ⟨group, hgroup, hcontext⟩, -, hvisible, hscope⟩
    cases hcontext
    split at hgroup
    · rename_i row hrow
      cases hgroup
      refine ⟨hread, group, (Option.filter_eq_some_iff.mp hrow).1, hvisible, ?_⟩
      split at hscope
      · rename_i scope hsome
        exact Option.isSome_iff_exists.mpr ⟨scope, hsome⟩
      · cases hscope
    · cases hgroup
  · rintro ⟨hread, group, hgroup, hvisible, hscope⟩
    obtain ⟨scope, hscope⟩ := Option.isSome_iff_exists.mp hscope
    have hsome : resolveMetricsScope (groupContext db caller group).group
        (groupContext db caller group).access = some scope := hscope
    let view : GroupMetricsView :=
      ⟨groupContext db caller group, scope.viewer caller,
        (groupContext db caller group).access.has .evaluationGroupsViewMetrics⟩
    refine ⟨view, (), hread, groupContext db caller group, ⟨group, ?_, rfl⟩, (), hvisible, ?_⟩
    · rw [hgroup]
      rfl
    · rw [hsome]
      rfl

/-- What the read returns, and when. -/
theorem getEvaluationGroupEndpoint_eq_ok {detail : EvaluationGroupDetailResponse} :
    getEvaluationGroupEndpoint db today caller groupId = .ok detail →
      .evaluationGroupsRead ∈ caller.permissions ∧
        getEvaluationGroup db groupId caller.id (callerCanManageGroups caller) =
          .ok detail.group ∧
        detail.userPermissions = resolveGroupUserPermissions db caller detail.group := by
  simp only [getEvaluationGroupEndpoint, requirePermission, bind_eq_ok, check_eq_ok,
    decide_eq_true_eq]
  rintro ⟨-, hread, group, hgroup, hdetail⟩
  cases hdetail
  exact ⟨hread, hgroup, rfl⟩

/-- The query takes the caller for a member, and the check does not. -/
theorem onlyTombstones_iff {o : ObjectId} :
    OnlyTombstones db.auth db.roleAssignments o caller.id ↔
      o ∈ db.memberGroupIds caller.id ∧ (resolveObjectAccess db caller o).isMember = false := by
  have hmember : (resolveObjectAccess db caller o).isMember = false ↔
      heldRoles db.auth db.roleAssignments o caller.id = [] := by
    simp [resolveObjectAccess, List.isEmpty_iff]
  have hids : o ∈ db.memberGroupIds caller.id ↔
      Auth.liveAssignments db.roleAssignments o caller.id ≠ [] := by
    rw [Database.mem_memberGroupIds, ne_eq, List.eq_nil_iff_forall_not_mem, not_forall]
    simp only [not_not, Auth.liveAssignments, List.mem_filter, Bool.and_eq_true, beq_iff_eq]
    exact exists_congr fun a => by tauto
  rw [hmember, hids, RedTeaming.Membership.heldRoles_eq_nil_iff]
  rfl

/-- A caller without the break-glass who sees the group by its access level, or as a member by a
live role, passes the check. -/
theorem groupIsVisible_iff_openTo (hmanage : callerCanManageGroups caller = false) :
    groupIsVisible (groupContext db caller group) caller = true ↔
      (resolveObjectAccess db caller group.id).isMember = true ∨ OpenTo db caller.id group :=
  groupIsVisible_iff hmanage

/-- A caller without the break-glass finds the group by its access level, or by an assignment. -/
theorem getEvaluationGroup_eq_ok (hmanage : callerCanManageGroups caller = false) :
    getEvaluationGroup db groupId caller.id (callerCanManageGroups caller) = .ok group ↔
      findLive db.groups groupId = some group ∧
        (group.id ∈ db.memberGroupIds caller.id ∨ OpenTo db caller.id group) := by
  have hfound :
      getEvaluationGroup db groupId caller.id (callerCanManageGroups caller) = .ok group ↔
      ((findLive db.groups groupId).filter fun row =>
        Sql.selects (db.groupVisibleTo caller.id row)) = some group := by
    simp only [getEvaluationGroup, hmanage, Bool.false_or]
    split
    · rename_i row hrow
      rw [hrow, Except.ok.injEq, Option.some.injEq]
    · rename_i hrow
      rw [hrow]
      exact ⟨nofun, nofun⟩
  rw [hfound, Option.filter_eq_some_iff, selects_groupVisibleTo]
  unfold OpenTo
  tauto

/-- A caller whose roles on the group are all deleted, and who has no break-glass, holds nothing
there. -/
theorem has_eq_false {p : Permission} (hmanage : callerCanManageGroups caller = false)
    (h : OnlyTombstones db.auth db.roleAssignments group.id caller.id) :
    (resolveObjectAccess db caller group.id).has p = false := by
  have hheld : heldRoles db.auth db.roleAssignments group.id caller.id = [] :=
    RedTeaming.Membership.heldRoles_eq_nil_iff.mpr h.2
  simp [ObjectAccessContext.has, resolveObjectAccess, hmanage, objectPermissions, hheld,
    effectivePermissions]

/-- The level alone lets such a caller in. -/
theorem scope_of_onlyTombstones (hmanage : callerCanManageGroups caller = false)
    (h : OnlyTombstones db.auth db.roleAssignments group.id caller.id) :
    (resolveMetricsScope group (resolveObjectAccess db caller group.id)).isSome = true ↔
      group.metricsLevel = .inheritGroupAccess := by
  have hmember := (onlyTombstones_iff.mp h).2
  unfold resolveMetricsScope
  rw [has_eq_false hmanage h, hmember]
  cases group.metricsLevel <;> simp

/-- A stranded caller gets the key, and the gate answers that there is no such group. -/
theorem not_keyTellsTruth_of_stranded (hfind : findLive db.groups groupId = some group)
    (h : Stranded db caller group) : ¬ KeyTellsTruth db today caller groupId := by
  obtain ⟨hmember, hnone⟩ := onlyTombstones_iff.mp h.onlyTombstones
  have hscope := (scope_of_onlyTombstones h.noBreakGlass h.onlyTombstones).mpr h.inherits
  have hget := (@getEvaluationGroup_eq_ok db caller group groupId h.noBreakGlass).mpr
    ⟨hfind, .inl hmember⟩
  intro htruth
  obtain ⟨detail, hdetail⟩ : ∃ detail,
      getEvaluationGroupEndpoint db today caller groupId = .ok detail := by
    simp only [getEvaluationGroupEndpoint, requirePermission, bind_eq_ok, check_eq_ok,
      decide_eq_true_eq]
    exact ⟨_, (), h.reads, group, hget, rfl⟩
  obtain ⟨-, hgroup, hpermissions⟩ := getEvaluationGroupEndpoint_eq_ok hdetail
  have hsame : detail.group = group := by
    rw [hget] at hgroup
    exact (Except.ok.inj hgroup).symm
  have hkey : Permission.evaluationGroupsViewMetrics.value ∈ detail.userPermissions := by
    rw [hpermissions, hsame]
    exact key_mem_iff.mpr hscope
  obtain ⟨-, row, hrow, hvisible, -⟩ := requireGroupMetricsAccess_eq_ok.mp
    ((htruth detail hdetail).mp hkey)
  rw [hfind] at hrow
  cases hrow
  rcases (groupIsVisible_iff_openTo h.noBreakGlass).mp hvisible with hlive | hopen
  · rw [hnone] at hlive
    cases hlive
  · exact h.closed hopen

/-- The key tells the truth to everybody else. -/
theorem keyTellsTruth_of_not_stranded
    (h : ∀ group, findLive db.groups groupId = some group → ¬ Stranded db caller group) :
    KeyTellsTruth db today caller groupId := by
  intro detail hdetail
  obtain ⟨hread, hgroup, hpermissions⟩ := getEvaluationGroupEndpoint_eq_ok hdetail
  have hfind := findLive_of_getEvaluationGroup hgroup
  rw [hpermissions, key_mem_iff, requireGroupMetricsAccess_eq_ok]
  constructor
  · intro hscope
    refine ⟨hread, detail.group, hfind, ?_, hscope⟩
    cases hmanage : callerCanManageGroups caller with
    | true => simp [groupIsVisible, hmanage]
    | false =>
      rw [groupIsVisible_iff_openTo hmanage]
      obtain ⟨-, hmember | hopen⟩ := (getEvaluationGroup_eq_ok hmanage).mp hgroup
      · cases hlive : (resolveObjectAccess db caller detail.group.id).isMember with
        | true => exact .inl rfl
        | false =>
          -- A member by deleted roles only. The scope is there, so the level lets the caller in.
          have htombstones := onlyTombstones_iff.mpr ⟨hmember, hlive⟩
          by_contra hnot
          exact h detail.group hfind
            { reads := hread
              noBreakGlass := hmanage
              onlyTombstones := htombstones
              closed := fun hopen => hnot (.inr hopen)
              inherits := (scope_of_onlyTombstones hmanage htombstones).mp hscope }
      · exact .inr hopen
  · rintro ⟨-, row, hrow, -, hscope⟩
    rw [hfind] at hrow
    cases hrow
    exact hscope

/-- **The metrics key.** The key tells the truth exactly when the caller is not stranded on the
group. -/
theorem view_metrics_key_iff :
    KeyTellsTruth db today caller groupId ↔
      ∀ group, findLive db.groups groupId = some group → ¬ Stranded db caller group := by
  constructor
  · intro htruth group hfind hstranded
    exact not_keyTellsTruth_of_stranded hfind hstranded htruth
  · exact keyTellsTruth_of_not_stranded

end

/-! ### A stranded reviewer -/

open RedTeaming.Membership
    (seminar inviteReviewer deleteReviewerRole bobInvitable bobInvitable_spec)

/-- A published group by invitation, whose level lets in whoever sees it. -/
def seminarGroup : EvaluationGroup where
  id := seminar
  createdAt := 0
  title := some "Seminar"
  createdById := 1
  status := .published
  metricsAccessDuring := .inheritGroupAccess
  startDate := some 0

/-- The group, with the accounts of `s`. -/
def seminarDatabase (s : Accounts) : Database :=
  { deployed with
      auth := s.db
      roleAssignments := s.assignments
      groups := ⟨[seminarGroup], by decide⟩ }

/-- The session of Bob, an `annotator` of the platform. -/
def bobSession : SessionUser where
  id := 2
  provider := "local"
  permissions := SystemRole.annotator.permissions
  authTime := some 1000
  issuedAt := some 1000

/-- The key is not always right. Bob's one role on the group was deleted while Bob was deleted. -/
theorem key_shown_to_stranded_reviewer : ∃ s,
    run (Membership.step Accounts.plainEnv) Accounts.deployed
      (inviteReviewer ++ deleteReviewerRole) =
        some s ∧
      ¬ KeyTellsTruth (seminarDatabase s) 0 bobSession seminar := by
  have hany : (run (Membership.step Accounts.plainEnv) Accounts.deployed
      (inviteReviewer ++ deleteReviewerRole)).any (bobInvitable false) = true := by decide +kernel
  obtain ⟨s, hrun, hs⟩ := exists_run_of_any hany
  obtain ⟨-, -, -, htombstones⟩ := bobInvitable_spec hs
  have hstranded : Stranded (seminarDatabase s) bobSession seminarGroup :=
    { reads := by decide
      noBreakGlass := by decide
      onlyTombstones := htombstones.mpr rfl
      closed := by
        rintro (⟨hlevel, -⟩ | ⟨hlevel, -⟩)
        · cases hlevel
        · cases hlevel
      inherits := rfl }
  exact ⟨s, hrun, @not_keyTellsTruth_of_stranded _ 0 _ _ seminar rfl hstranded⟩

end RedTeaming.Evaluations
