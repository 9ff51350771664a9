import RedTeaming.Evaluations.Access

/-!
# `RedTeaming.Evaluations.Visibility`: the query and the check agree

`visibility_agrees` compares the two forms of the read-visibility rule for a caller without the
break-glass. A group that the check admits is listed. The converse needs the roles behind the
caller's assignments: a live assignment of a tombstoned role is membership in the query only. When
every live assignment of the caller names a live role, the two forms are equal.

The third part compares the two forms of object authority. `groups_granting` selects a group
exactly when the resolved access of the caller to it has the permission.
-/

set_option autoImplicit false

namespace RedTeaming.Evaluations

open RedTeaming.Auth
open RedTeaming.Library

section
variable {db : Database} {caller : SessionUser}

/-- A member by the check is a member by the query. -/
theorem mem_memberGroupIds_of_isMember {o : ObjectId}
    (h : (resolveObjectAccess db caller o).isMember = true) :
    o ∈ db.memberGroupIds caller.id := by
  obtain ⟨a, ha, hlive, hobject, huser, -⟩ := isMember_iff.mp h
  exact Database.mem_memberGroupIds.mpr ⟨a, ha, huser, hlive, hobject⟩

/-- The two forms of membership agree when each live assignment of the caller names a live
role. -/
theorem isMember_iff_mem_memberGroupIds
    (hroles : ∀ a ∈ db.roleAssignments, a.user = caller.id → a.live = true →
      (db.auth.liveRole a.role).isSome = true) {o : ObjectId} :
    (resolveObjectAccess db caller o).isMember = true ↔ o ∈ db.memberGroupIds caller.id := by
  constructor
  · exact mem_memberGroupIds_of_isMember
  · intro h
    obtain ⟨a, ha, huser, hlive, hobject⟩ := Database.mem_memberGroupIds.mp h
    exact isMember_iff.mpr ⟨a, ha, hlive, hobject, huser, hroles a ha huser hlive⟩

/-- The query lists what the check admits. -/
theorem listed_of_admitted (hmanage : callerCanManageGroups caller = false)
    {group : EvaluationGroup}
    (h : groupIsVisible (groupContext db caller group) caller = true) :
    Sql.selects (db.groupVisibleTo caller.id group) = true := by
  rw [selects_groupVisibleTo]
  rcases (groupIsVisible_iff hmanage).mp h with hmember | hpublic | horganization
  · exact Or.inr (Or.inl (mem_memberGroupIds_of_isMember hmember))
  · exact Or.inl hpublic
  · exact Or.inr (Or.inr horganization)

/-- The query and the check are equal when each live assignment of the caller names a live
role. -/
theorem admitted_eq_listed (hmanage : callerCanManageGroups caller = false)
    (hroles : ∀ a ∈ db.roleAssignments, a.user = caller.id → a.live = true →
      (db.auth.liveRole a.role).isSome = true) (group : EvaluationGroup) :
    groupIsVisible (groupContext db caller group) caller =
      Sql.selects (db.groupVisibleTo caller.id group) := by
  rw [Bool.eq_iff_iff, groupIsVisible_iff hmanage, selects_groupVisibleTo,
    isMember_iff_mem_memberGroupIds hroles]
  exact or_left_comm

/-- `groups_granting` selects the groups on which the resolved access has the permission. -/
theorem mem_groupsGranting_iff_resolved (p : Permission) (o : ObjectId) :
    o ∈ db.groupsGranting p caller.id ↔ p ∈ (resolveObjectAccess db caller o).permissions := by
  show _ ↔ p ∈ objectPermissions db.auth db.roleAssignments o caller.id
  rw [mem_groupsGranting, mem_objectPermissions]

/-- For a caller without the break-glass, the query lists every group that the check admits, and
the two are equal when each live assignment of the caller names a live role. For each permission,
`groups_granting` selects the groups on which the resolved access has it. -/
theorem visibility_agrees (db : Database) (caller : SessionUser)
    (hmanage : .evaluationGroupsManage ∉ caller.permissions) :
    (∀ group, groupIsVisible (groupContext db caller group) caller = true →
      Sql.selects (db.groupVisibleTo caller.id group) = true) ∧
    ((∀ a ∈ db.roleAssignments, a.user = caller.id → a.live = true →
        (db.auth.liveRole a.role).isSome = true) →
      ∀ group, groupIsVisible (groupContext db caller group) caller =
        Sql.selects (db.groupVisibleTo caller.id group)) ∧
    ∀ p o, o ∈ db.groupsGranting p caller.id ↔
      p ∈ (resolveObjectAccess db caller o).permissions := by
  have hfalse : callerCanManageGroups caller = false := decide_eq_false hmanage
  exact ⟨fun _ h => listed_of_admitted hfalse h, admitted_eq_listed hfalse,
    mem_groupsGranting_iff_resolved⟩

end

/-- A session that may read groups and nothing else. -/
def readerSession : SessionUser where
  id := 1
  provider := "local"
  permissions := {.evaluationGroupsRead}
  authTime := none
  issuedAt := none

/-- A group of the organization 7, in review. -/
def organizationGroup : EvaluationGroup where
  id := 50
  createdAt := 0
  createdById := 2
  status := .pendingApproval
  accessLevel := .organization
  organizationId := some 7

/-- The deployment with the reader as a viewer of another group. -/
def withViewer : Database :=
  { deployed with
      roleAssignments := [{ object := 51, user := 1, role := Accounts.systemRoleId .viewer }] }

/-- The reader sees the group of the own organization in both forms of the rule. The one
assignment of the reader names a live role. -/
theorem visibility_agrees_of_organizationGroup :
    groupIsVisible (groupContext withViewer readerSession organizationGroup) readerSession =
      true ∧ Sql.selects (withViewer.groupVisibleTo 1 organizationGroup) = true := by
  have hlisted : Sql.selects (withViewer.groupVisibleTo 1 organizationGroup) = true := by decide
  obtain ⟨-, hequal, -⟩ :=
    visibility_agrees withViewer readerSession (by decide)
  have hsame := hequal (by decide) organizationGroup
  exact ⟨hsame.trans hlisted, hlisted⟩

end RedTeaming.Evaluations
