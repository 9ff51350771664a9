import RedTeaming.Auth.Escalation
import RedTeaming.Auth.RequestWrites
import RedTeaming.Evaluations.Rows

/-!
# `RedTeaming.Membership.System`: accounts, roles, and group members together

The member endpoints of `api/v1/evaluation_group_members.py`, the self-join of
`core/evaluations/services/membership.py`, and the deploy step `sync_system_roles`, beside the
requests of `RedTeaming.Auth.Accounts`. They read and write the same tables. The system runs one
request after another.

The row of a group is not part of this state. What a request reads of it comes with the request.
-/

set_option autoImplicit false

namespace RedTeaming.Membership

open RedTeaming.Auth
open RedTeaming.Evaluations (EvaluationGroup)
open RedTeaming.Library

/-- `get_participant_default_role`: the live, active role that a self-join grants. -/
def getParticipantDefaultRole (db : Directory) : Except ApiError (RoleId × Role) :=
  match db.findRole fun row => row.isParticipantDefault && row.isActive with
  | some found => .ok found
  | none => .error (.runtimeError ("No active participant default role found — run "
      ++ "`make syncroles` and check the is_participant_default flag."))

/-- A request on the members of a group. A join carries the row of the group, and whether the
caller sees it. -/
inductive MemberRequest
  | addMember (caller : SessionUser) (o : ObjectId) (u : UserId) (roleIds : RoleIds)
  | setMemberRoles (caller : SessionUser) (o : ObjectId) (u : UserId) (roleIds : RoleIds)
  | removeMember (caller : SessionUser) (o : ObjectId) (u : UserId)
  | join (caller : SessionUser) (group : EvaluationGroup) (visible : Bool)

section
variable (s : Accounts)

/-- `ManageMembersDep`: the gate of the member endpoints. -/
def requireManageMembers (caller : SessionUser) (o : ObjectId) : Except ApiError Unit :=
  check (mayManageMembers s.db s.assignments caller o) (.forbidden ("Caller lacks the "
    ++ quoted Permission.evaluationGroupsManageMembers.value ++ " permission for this group."))

/-- `POST /evaluation-groups/{id}/members`. -/
def addGroupMember (caller : SessionUser) (o : ObjectId) (u : UserId) (roleIds : RoleIds) :
    Except ApiError Accounts := do
  requireManageMembers s caller o
  let _ ← getUser s.db u
  let roles ← resolveObjectRoles s.db roleIds.1
  let assignments ← addMember s.assignments o u (roles.map Prod.fst)
  return { s with assignments }

/-- `PATCH /evaluation-groups/{id}/members/{user_id}`. -/
def updateGroupMember (caller : SessionUser) (o : ObjectId) (u : UserId) (roleIds : RoleIds) :
    Except ApiError Accounts := do
  requireManageMembers s caller o
  let _ ← getUser s.db u
  let roles ← resolveObjectRoles s.db roleIds.1
  let assignments ← setMemberRoles s.db s.now s.assignments o u (roles.map Prod.fst)
  return { s with assignments }

/-- `DELETE /evaluation-groups/{id}/members/{user_id}`. The user may be a tombstone. -/
def removeGroupMember (caller : SessionUser) (o : ObjectId) (u : UserId) :
    Except ApiError Accounts := do
  requireManageMembers s caller o
  let assignments ← removeMember s.db s.now s.assignments o u
  return { s with assignments }

/-- `POST /evaluation-groups/{id}/join`. -/
def joinEvaluationGroup (caller : SessionUser) (group : EvaluationGroup) (visible : Bool) :
    Except ApiError Accounts := do
  requirePermission caller .evaluationGroupsRead
  check visible (.notFound ("Evaluation group " ++ toString group.id ++ " not found."))
  check (group.accessLevel != .invitationOnly)
    (.forbidden "Invitation-only groups cannot be joined directly.")
  check (group.status == .published) (.conflict "Only published groups can be joined.")
  let _ ← getUser s.db caller.id
  let (r, _) ← getParticipantDefaultRole s.db
  let assignments ← addMember s.assignments group.id caller.id [r]
  return { s with assignments }

/-- What a member request does. -/
def perform : MemberRequest → Except ApiError Accounts
  | .addMember caller o u roleIds => addGroupMember s caller o u roleIds
  | .setMemberRoles caller o u roleIds => updateGroupMember s caller o u roleIds
  | .removeMember caller o u => removeGroupMember s caller o u
  | .join caller group visible => joinEvaluationGroup s caller group visible

/-- The ids that a sync draws are new, and differ. -/
def unusedRoles (fresh : SystemRole → RoleId) : Bool :=
  (SystemRole.all.map fresh).Nodup && SystemRole.all.all fun q => (s.db.role (fresh q)).isNone

end

/-- A label: a request of the accounts system, a member request, or a sync of the system roles
with the ids it would give to new rows. -/
inductive Label
  | account (l : Accounts.Label)
  | member (q : MemberRequest)
  | sync (fresh : SystemRole → RoleId)

/-- One transaction. A request that raises leaves the tables as they were. -/
def step (env : Env) (s : Accounts) : Label → Option Accounts
  | .account l => s.step env l
  | .member q => some ((perform s q).toOption.getD s)
  | .sync fresh =>
    if unusedRoles s fresh then some { s with db := syncSystemRoles fresh s.db } else none

/-- A step is an account request that succeeds, a member request that succeeds, a sync, or one
that leaves the state as it was. -/
theorem step_cases {env : Env} {s s' : Accounts} {l : Label} (h : step env s l = some s') :
    (∃ l', l = .account l' ∧ s.unused env l'.fresh = true ∧
        s.perform env l'.fresh l'.request = .ok s') ∨
      (∃ q, l = .member q ∧ perform s q = .ok s') ∨
      (∃ fresh, l = .sync fresh ∧ s' = { s with db := syncSystemRoles fresh s.db }) ∨
      s' = s := by
  cases l with
  | account l =>
    obtain ⟨hunused, hperform | rfl⟩ := Accounts.step_cases h
    · exact Or.inl ⟨l, rfl, hunused, hperform⟩
    · exact Or.inr (Or.inr (Or.inr rfl))
  | member q =>
    simp only [step, Option.some.injEq] at h
    cases hperform : perform s q with
    | error e =>
      rw [hperform] at h
      exact Or.inr (Or.inr (Or.inr h.symm))
    | ok s'' =>
      rw [hperform] at h
      cases h
      exact Or.inr (Or.inl ⟨q, rfl, hperform⟩)
  | sync fresh =>
    simp only [step] at h
    split at h
    · cases h
      exact Or.inr (Or.inr (Or.inl ⟨fresh, rfl, rfl⟩))
    · cases h

/-! ### The synced platform -/

/-- Syncing the roles of `qs` into a table that has those of `done` gives the rows of both. The
induction is on `qs`: no row has the name of the next role, so the sync inserts one. -/
theorem role_foldl_syncRole {fresh : SystemRole → RoleId} (hinjective : Function.Injective fresh)
    (qs done : List SystemRole) (hnodup : (done ++ qs).Nodup) {db : Directory}
    (h : ∀ r role, db.role r = some role ↔ ∃ q ∈ done, r = fresh q ∧ role = systemRoleRow q)
    (r : RoleId) (role : Role) :
    (qs.foldl (syncRole fresh) db).role r = some role ↔
      ∃ q ∈ done ++ qs, r = fresh q ∧ role = systemRoleRow q := by
  induction qs generalizing db done with
  | nil =>
    rw [List.append_nil]
    exact h r role
  | cons q qs ih =>
    have hq : q ∉ done := fun hmem =>
      List.disjoint_of_nodup_append hnodup hmem List.mem_cons_self
    have hinsert : syncRole fresh db q = db.setRole (fresh q) (systemRoleRow q) := by
      unfold syncRole
      cases hfind : db.roleByName q.value with
      | none => rfl
      | some found =>
        obtain ⟨hrole, hname⟩ := Directory.liveRole_of_findRole hfind
        obtain ⟨q', hq', -, hrow⟩ := (h _ _).mp (Directory.liveRole_eq_some.mp hrole).1
        rw [hrow, beq_iff_eq] at hname
        have heq : q' = q := SystemRole.eq_of_value_eq hname
        rw [heq] at hq'
        exact absurd hq' hq
    have hnext : (done ++ [q]) ++ qs = done ++ q :: qs := by simp
    rw [List.foldl_cons, hinsert, ← hnext]
    refine ih (done ++ [q]) (by rw [hnext]; exact hnodup) ?_
    intro r role
    rw [Directory.setRole_role, update_some_eq_some, h]
    constructor
    · rintro (⟨rfl, rfl⟩ | ⟨-, q', hq', hr⟩)
      · exact ⟨q, by simp, rfl, rfl⟩
      · exact ⟨q', List.mem_append_left _ hq', hr⟩
    · rintro ⟨q', hq', hr, hrole⟩
      rcases List.mem_append.mp hq' with hdone | hlast
      · refine Or.inr ⟨?_, q', hdone, hr, hrole⟩
        intro heq
        rw [hr] at heq
        rw [hinjective heq] at hdone
        exact hq hdone
      · obtain rfl := List.mem_singleton.mp hlast
        exact Or.inl ⟨hr, hrole.symm⟩

/-- The first sync leaves one row for each system role. -/
theorem role_syncSystemRoles {fresh : SystemRole → RoleId} (hinjective : Function.Injective fresh)
    {db : Directory} (hnone : ∀ r, db.role r = none) (r : RoleId) (role : Role) :
    (syncSystemRoles fresh db).role r = some role ↔
      ∃ q, r = fresh q ∧ role = systemRoleRow q := by
  have hempty : ∀ r role, db.role r = some role ↔
      ∃ q ∈ ([] : List SystemRole), r = fresh q ∧ role = systemRoleRow q := by
    intro r role
    simp [hnone r]
  rw [syncSystemRoles, role_foldl_syncRole hinjective _ [] (by decide) hempty, List.nil_append]
  exact ⟨fun ⟨q, _, h⟩ => ⟨q, h⟩, fun ⟨q, h⟩ => ⟨q, q.mem_all, h⟩⟩

/-- A platform after its first sync, with its users and members as the database keys let them be.
The role table has just the synced rows, and each live user has a role. -/
structure SyncedPlatform (s : Accounts) : Prop where
  synced : s.Synced
  /-- `user_roles` has one row for a user and a role, and the role exists. -/
  userRoles : ∀ u row, s.db.user u = some row →
    row.roleIds.Nodup ∧ ∀ r ∈ row.roleIds, (s.db.role r).isSome
  users : ∀ u row, s.db.liveUser u = some row → row.roleIds ≠ []
  /-- `object_role_assignments` has one live row for an object, a user, and a role. -/
  assignments : ∀ o u, ((liveAssignments s.assignments o u).map Assignment.role).Nodup
  /-- The user and the role of an assignment exist. -/
  foreign : ∀ a ∈ s.assignments, (s.db.user a.user).isSome ∧ (s.db.role a.role).isSome

/-- Each role of the synced table is live and active. -/
theorem SyncedPlatform.activeRole {s : Accounts} (h : SyncedPlatform s) {r : RoleId}
    (hr : (s.db.role r).isSome) : s.db.activeRole r = true := by
  obtain ⟨fresh, db, hinjective, hnone, hdb⟩ := h.synced
  obtain ⟨role, hrole⟩ := Option.isSome_iff_exists.mp hr
  rw [hdb, role_syncSystemRoles hinjective hnone] at hrole
  obtain ⟨q, rfl, rfl⟩ := hrole
  refine Directory.activeRole_eq_true.mpr ⟨systemRoleRow q, ?_, rfl⟩
  rw [Directory.liveRole_eq_some, hdb, role_syncSystemRoles hinjective hnone]
  exact ⟨⟨q, rfl, rfl⟩, rfl⟩

end RedTeaming.Membership
