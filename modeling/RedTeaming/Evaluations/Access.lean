import RedTeaming.Auth.Accounts
import RedTeaming.Evaluations.Rows
import RedTeaming.Library.Sql

/-!
# `RedTeaming.Evaluations.Access`: who sees a group, and what a role on it grants

The read-visibility rule of `core/evaluations/access.py` in its two forms, the object-scope access
of `core/auth/object_roles/service.py`, and the write gate `assert_group_write_access` of
`services/evaluation_groups.py`.

`groupVisibleTo` is the condition of a query, with the three-valued logic of SQL.
`groupIsVisible` is the check in Python on a loaded row. They differ in one place: the query takes
any live assignment as membership, and the check takes a live assignment of a live role.
-/

set_option autoImplicit false

namespace RedTeaming.Evaluations

open RedTeaming.Auth
open RedTeaming.Library

/-- The caller carries the break-glass permission in the token. -/
def callerCanManageGroups (caller : SessionUser) : Bool :=
  decide (.evaluationGroupsManage ∈ caller.permissions)

namespace Database
variable (db : Database)

/-- `caller_live_organization_select`: the caller's organization, when both rows are live. -/
def callerLiveOrganization (callerId : UserId) : Option UUID := do
  let _ ← db.auth.liveUser callerId
  let organization ← findLive db.organizations (← db.userOrganization callerId)
  return organization.id

/-- The groups with a live assignment of the caller. The query reads no role row. -/
def memberGroupIds (callerId : UserId) : List ObjectId :=
  (db.roleAssignments.filter fun a => a.user == callerId && a.live).map Assignment.object

/-- `group_visible_to`: the visibility rule as a condition of a query on `evaluation_groups`. -/
def groupVisibleTo (callerId : UserId) (group : EvaluationGroup) : Sql.Truth :=
  Sql.or
    (Sql.or
      (Sql.and (Sql.known (group.accessLevel == .public)) (Sql.known (group.status != .draft)))
      (Sql.known ((db.memberGroupIds callerId).contains group.id)))
    (Sql.and (Sql.known (group.accessLevel == .organization))
      (Sql.eq group.organizationId (db.callerLiveOrganization callerId)))

/-- `groups_granting`: the groups on which a live, active role of the caller grants `p`. -/
def groupsGranting (p : Permission) (callerId : UserId) : List ObjectId :=
  db.roleAssignments.filterMap fun a =>
    match db.auth.role a.role with
    | some role =>
      if a.user = callerId ∧ a.live ∧ role.deleted = false ∧ role.isActive ∧ p ∈ role.permissions
      then some a.object else none
    | none => none

end Database

/-- A caller's resolved authorization on one object. -/
structure ObjectAccessContext where
  objectId : ObjectId
  permissions : Finset Permission
  isMember : Bool
  hasSuper : Bool

/-- The caller effectively holds `p` on the object. -/
def ObjectAccessContext.has (access : ObjectAccessContext) (p : Permission) : Bool :=
  access.hasSuper || decide (p ∈ access.permissions)

/-- `resolve_object_access`: inactive roles grant nothing, and still count as membership. -/
def resolveObjectAccess (db : Database) (caller : SessionUser) (objectId : ObjectId) :
    ObjectAccessContext where
  objectId
  permissions := objectPermissions db.auth db.roleAssignments objectId caller.id
  isMember := !(heldRoles db.auth db.roleAssignments objectId caller.id).isEmpty
  hasSuper := callerCanManageGroups caller

/-- A group, its organization, and the caller's access to it. -/
structure GroupContext where
  group : EvaluationGroup
  organization : Option Organization
  access : ObjectAccessContext
  callerOrgId : Option UUID

/-- The context of a loaded row. The caller's organization is read for an `organization` group
only. -/
def groupContext (db : Database) (caller : SessionUser) (group : EvaluationGroup) :
    GroupContext where
  group
  organization := group.organizationId.bind db.organizations.find?
  access := resolveObjectAccess db caller group.id
  callerOrgId :=
    if group.accessLevel = .organization then db.callerLiveOrganization caller.id else none

/-- `group_is_visible`: the visibility rule on a loaded row, with the break-glass. -/
def groupIsVisible (context : GroupContext) (caller : SessionUser) : Bool :=
  if callerCanManageGroups caller then true
  else if context.access.isMember then true
  else
    match context.group.accessLevel with
    | .public => context.group.status != .draft
    | .organization =>
      match context.organization.filter fun row => live row, context.callerOrgId with
      | some liveOrg, some callerOrgId => liveOrg.id == callerOrgId
      | _, _ => false
    | .invitationOnly => false

/-- The message of a group that the caller cannot see. -/
def groupNotFound (groupId : UUID) : ApiError :=
  .notFound ("Evaluation group " ++ toString groupId ++ " not found.")

/-- `get_evaluation_group`: one live group by id that the caller may see. -/
def getEvaluationGroup (db : Database) (groupId : UUID) (callerId : UserId) (canManage : Bool) :
    Except ApiError EvaluationGroup :=
  match (findLive db.groups groupId).filter fun group =>
      canManage || Sql.selects (db.groupVisibleTo callerId group) with
  | some group => .ok group
  | none => .error (groupNotFound groupId)

/-- `resolve_group_context`: load a group whatever its visibility, with the caller's access. -/
def resolveGroupContext (db : Database) (caller : SessionUser) (groupId : UUID) :
    Except ApiError GroupContext := do
  let group ← getEvaluationGroup db groupId caller.id true
  return groupContext db caller group

/-- `assert_group_write_access`: a role on the group grants `p`, or the caller can manage. A
caller who sees the group is refused with 403, another one with 404. -/
def assertGroupWriteAccess (db : Database) (groupId : UUID) (callerId : UserId)
    (canManage : Bool) (p : Permission) (missingMessage : String) : Except ApiError Unit := do
  if canManage then return
  if p ∈ objectPermissions db.auth db.roleAssignments groupId callerId then return
  match (findLive db.groups groupId).filter fun group =>
      Sql.selects (db.groupVisibleTo callerId group) with
  | some _ => throw (.forbidden
      ("Caller lacks the " ++ quoted p.value ++ " permission for this group."))
  | none => throw (.notFound missingMessage)

/-! ### The two forms of the rule -/

section
variable {db : Database} {caller : SessionUser} {callerId : UserId} {group : EvaluationGroup}

/-- The caller's live organization is the live row that the user row names. -/
theorem Database.callerLiveOrganization_eq_some {o : UUID} :
    db.callerLiveOrganization callerId = some o ↔
      (db.auth.liveUser callerId).isSome ∧ db.userOrganization callerId = some o ∧
        ∃ row ∈ db.organizations, row.id = o ∧ live row = true := by
  simp only [Database.callerLiveOrganization, Option.bind_eq_bind, Option.bind_eq_some_iff,
    Option.pure_def, Option.some.injEq, Option.isSome_iff_exists]
  constructor
  · rintro ⟨row, hrow, o', ho', organization, hfind, rfl⟩
    obtain ⟨hmem, hkey, hlive⟩ := findLive_eq_some.mp hfind
    have hid : organization.id = o' := hkey
    exact ⟨⟨row, hrow⟩, by rw [ho', hid], organization, hmem, rfl, hlive⟩
  · rintro ⟨⟨row, hrow⟩, ho, organization, hmem, hid, hlive⟩
    exact ⟨row, hrow, o, ho, organization, findLive_eq_some.mpr ⟨hmem, hid, hlive⟩, hid⟩

/-- A group is in the membership subquery when the caller has a live assignment on it. -/
theorem Database.mem_memberGroupIds {o : ObjectId} :
    o ∈ db.memberGroupIds callerId ↔
      ∃ a ∈ db.roleAssignments, a.user = callerId ∧ a.live = true ∧ a.object = o := by
  simp only [Database.memberGroupIds, List.mem_map, List.mem_filter, Bool.and_eq_true, beq_iff_eq,
    and_assoc]

/-- What the query lists. -/
theorem selects_groupVisibleTo :
    Sql.selects (db.groupVisibleTo callerId group) = true ↔
      (group.accessLevel = .public ∧ group.status ≠ .draft) ∨
      group.id ∈ db.memberGroupIds callerId ∨
      (group.accessLevel = .organization ∧
        ∃ o, group.organizationId = some o ∧ db.callerLiveOrganization callerId = some o) := by
  simp [Database.groupVisibleTo, Sql.selects_eq, or_assoc]

/-- The caller is a member when a live assignment of the caller names a live role. -/
theorem isMember_iff {o : ObjectId} :
    (resolveObjectAccess db caller o).isMember = true ↔
      ∃ a ∈ db.roleAssignments, a.live = true ∧ a.object = o ∧ a.user = caller.id ∧
        (db.auth.liveRole a.role).isSome := by
  simp only [resolveObjectAccess, Bool.not_eq_true', List.isEmpty_eq_false_iff_exists_mem,
    heldRoles, liveAssignments, List.mem_filterMap, List.mem_filter, Bool.and_eq_true, beq_iff_eq,
    Option.map_eq_some_iff, Option.isSome_iff_exists]
  constructor
  · rintro ⟨-, a, ⟨ha, ⟨hlive, hobject⟩, huser⟩, role, hrole, -⟩
    exact ⟨a, ha, hlive, hobject, huser, role, hrole⟩
  · rintro ⟨a, ha, hlive, hobject, huser, role, hrole⟩
    exact ⟨_, a, ⟨ha, ⟨hlive, hobject⟩, huser⟩, role, hrole, rfl⟩

/-- What the check admits, for a caller without the break-glass. -/
theorem groupIsVisible_iff (hmanage : callerCanManageGroups caller = false) :
    groupIsVisible (groupContext db caller group) caller = true ↔
      (resolveObjectAccess db caller group.id).isMember = true ∨
      (group.accessLevel = .public ∧ group.status ≠ .draft) ∨
      (group.accessLevel = .organization ∧
        ∃ o, group.organizationId = some o ∧ db.callerLiveOrganization caller.id = some o) := by
  have hmember : (groupContext db caller group).access =
      resolveObjectAccess db caller group.id := rfl
  simp only [groupIsVisible, hmanage, Bool.false_eq_true, if_false, hmember]
  cases hm : (resolveObjectAccess db caller group.id).isMember with
  | true => simp
  | false =>
    cases hlevel : group.accessLevel with
    | «public» => simp [groupContext, hlevel]
    | invitationOnly => simp [groupContext, hlevel]
    | organization =>
      simp only [groupContext, hlevel, if_true, Bool.false_eq_true, if_false, false_or,
        reduceCtorEq, false_and, true_and]
      constructor
      · intro h
        split at h
        · rename_i liveOrg callerOrgId hrow hcaller
          obtain ⟨hbind, -⟩ := Option.filter_eq_some_iff.mp hrow
          obtain ⟨o, ho, hfind⟩ := Option.bind_eq_some_iff.mp hbind
          have hid : liveOrg.id = o := (Table.find?_eq_some.mp hfind).2
          have hsame : liveOrg.id = callerOrgId := by simpa using h
          exact ⟨o, ho, by rw [hcaller, ← hsame, hid]⟩
        · cases h
      · rintro ⟨o, ho, hcaller⟩
        obtain ⟨-, -, row, hmem, hid, hlive⟩ :=
          Database.callerLiveOrganization_eq_some.mp hcaller
        have hfind : db.organizations.find? o = some row := Table.find?_eq_some.mpr ⟨hmem, hid⟩
        have hfilter : (some row).filter (fun row => live row) = some row :=
          Option.filter_eq_some_iff.mpr ⟨rfl, hlive⟩
        rw [ho, Option.bind_some, hfind, hfilter, hcaller]
        simp [hid]

/-- A permission is effective on an object when a live, active role that a live assignment of the
user names grants it. -/
theorem mem_objectPermissions {p : Permission} {o : ObjectId} :
    p ∈ objectPermissions db.auth db.roleAssignments o callerId ↔
      ∃ a ∈ db.roleAssignments, a.live = true ∧ a.object = o ∧ a.user = callerId ∧
        ∃ role, db.auth.liveRole a.role = some role ∧ p ∈ role.grants := by
  simp only [objectPermissions, mem_effectivePermissions, heldRoles, liveAssignments,
    List.mem_map, List.mem_filterMap, List.mem_filter, Bool.and_eq_true, beq_iff_eq,
    Option.map_eq_some_iff]
  constructor
  · rintro ⟨role, ⟨x, ⟨a, ⟨ha, ⟨hlive, hobject⟩, huser⟩, role', hrole, rfl⟩, rfl⟩, hp⟩
    exact ⟨a, ha, hlive, hobject, huser, role', hrole, hp⟩
  · rintro ⟨a, ha, hlive, hobject, huser, role, hrole, hp⟩
    exact ⟨role, ⟨_, ⟨a, ⟨ha, ⟨hlive, hobject⟩, huser⟩, role, hrole, rfl⟩, rfl⟩, hp⟩

/-- What `groups_granting` selects. -/
theorem mem_groupsGranting {p : Permission} {o : ObjectId} :
    o ∈ db.groupsGranting p callerId ↔
      ∃ a ∈ db.roleAssignments, a.live = true ∧ a.object = o ∧ a.user = callerId ∧
        ∃ role, db.auth.liveRole a.role = some role ∧ p ∈ role.grants := by
  simp only [Database.groupsGranting, List.mem_filterMap]
  constructor
  · rintro ⟨a, ha, h⟩
    split at h
    · rename_i role hrole
      split at h
      · rename_i hcond
        obtain ⟨huser, hlive, hdeleted, hactive, hp⟩ := hcond
        cases h
        exact ⟨a, ha, hlive, rfl, huser, role, Directory.liveRole_eq_some.mpr ⟨hrole, hdeleted⟩,
          Role.mem_grants.mpr ⟨hdeleted, hactive, hp⟩⟩
      · cases h
    · cases h
  · rintro ⟨a, ha, hlive, rfl, huser, role, hrole, hp⟩
    obtain ⟨hrow, hdeleted⟩ := Directory.liveRole_eq_some.mp hrole
    obtain ⟨-, hactive, hmem⟩ := Role.mem_grants.mp hp
    exact ⟨a, ha, by simp [hrow, huser, hlive, hdeleted, hactive, hmem]⟩

end

/-! ### A deployment -/

/-- A deployment before its first group: one organization, 7, with the one account as its member,
and the models 20 and 21. -/
def deployed : Database where
  auth := Accounts.deployed.db
  roleAssignments := []
  userOrganization u := if u = 1 then some 7 else none
  organizations := ⟨[{ id := 7, createdAt := 0, name := "Acme" }], by decide⟩
  licenses := .empty
  models :=
    ⟨[{ id := 20, createdAt := 0, name := "Sonnet", modelAlias := "sonnet" },
      { id := 21, createdAt := 0, name := "Haiku", modelAlias := "haiku" }], by decide⟩
  groups := .empty
  allowedModels := .empty
  evaluations := .empty
  assignments := .empty
  tagKeys := .empty
  scenarios := .empty
  tasks := .empty

end RedTeaming.Evaluations
