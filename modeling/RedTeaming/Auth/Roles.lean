import RedTeaming.ApiError
import RedTeaming.Auth.Permissions

/-!
# `RedTeaming.Auth.Roles`: role rows and the guards of their edits

The row-level part of `core/auth/services/roles.py`. A function takes the loaded row, and what
its guards count in other tables as numbers, and gives the row that the service flushes. The
transactions around them, and the session revocation that a loss asks for, are in
`RedTeaming.Auth.SessionSystem`. The writes of the table are in `RedTeaming.Auth.RoleStore`.

`Role.grants` is what a role adds to a token: its permissions while it is live and active.
`effectivePermissions` is the union over the loaded roles of a user.

The specification lemmas say what a successful edit does: `updateRole_spec`,
`setRoleActive_spec`, `deleteRole_spec`.
-/

set_option autoImplicit false

namespace RedTeaming.Auth

abbrev RoleId := Nat
abbrev UserId := Nat

/-- A row of `roles`. -/
structure Role where
  name : String
  displayName : Option String := none
  description : Option String := none
  permissions : Finset Permission
  isSystem : Bool := false
  isActive : Bool := true
  isDefault : Bool := false
  isParticipantDefault : Bool := false
  isObjectAssignable : Bool := false
  deletedAt : Option Nat := none
deriving DecidableEq

/-- The row is a tombstone. -/
def Role.deleted (role : Role) : Bool := role.deletedAt.isSome

/-- What a role adds to a token: nothing once it is tombstoned or inactive. -/
def Role.grants (role : Role) : Finset Permission :=
  if !role.deleted && role.isActive then role.permissions else ∅

/-- A role grants its permissions while it is live and active. -/
theorem Role.mem_grants {role : Role} {p : Permission} :
    p ∈ role.grants ↔ role.deleted = false ∧ role.isActive = true ∧ p ∈ role.permissions := by
  unfold Role.grants
  cases role.deleted <;> cases role.isActive <;> simp

/-- The union of the permissions of the live, active roles. -/
def effectivePermissions (roles : List Role) : Finset Permission :=
  roles.foldr (fun role acc => role.grants ∪ acc) ∅

/-- A permission is effective when one of the roles grants it. -/
theorem mem_effectivePermissions {roles : List Role} {p : Permission} :
    p ∈ effectivePermissions roles ↔ ∃ role ∈ roles, p ∈ role.grants := by
  induction roles with
  | nil => simp [effectivePermissions]
  | cons role roles ih =>
    simp only [effectivePermissions, List.foldr_cons, Finset.mem_union, List.mem_cons,
      exists_eq_or_imp] at ih ⊢
    rw [ih]

/-- The permissions that a list of strings names. -/
def toPermissions (permissions : List String) : Finset Permission :=
  (permissions.filterMap Permission.ofValue?).toFinset

/-- Reject unknown or non-delegable permission strings for a custom role. -/
def validateCustomPermissions (permissions : List String) : Except ApiError Unit := do
  let unknown := permissions.dedup.filter fun s => (Permission.ofValue? s).isNone
  check unknown.isEmpty
    (.badRequest ("Unknown permission(s): " ++ ", ".intercalate unknown.mergeSort ++ "."))
  let nonDelegable := nonDelegablePermissions.filter fun p => permissions.contains p.value
  check nonDelegable.isEmpty
    (.badRequest ("Permission(s) cannot be granted to a custom role: "
      ++ ", ".intercalate (nonDelegable.map Permission.value).mergeSort ++ "."))

/-- Reject a role that in-group assignment would refuse. -/
def assertGrantableInGroup (role : Role) : Except ApiError Unit := do
  check role.isObjectAssignable
    (.conflict ("Role " ++ quoted role.name ++ " is not assignable in an evaluation group."))
  check (decide (requiredPermission ∈ role.permissions))
    (.conflict ("Role " ++ quoted role.name ++ " must grant " ++ quoted requiredPermission.value
      ++ " to be assignable in an evaluation group."))

/-- The fields of a role edit. The outer `none` is a field that the caller did not send. -/
structure RoleEdits where
  displayName : Option String := none
  description : Option (Option String) := none
  permissions : Option (List String) := none
  isObjectAssignable : Option Bool := none
deriving DecidableEq

/-- Block un-flagging a role that a member still holds on an object. -/
def assertNoGroupHolders (groupHolders : Nat) (role : Role) : Except ApiError Unit :=
  check (groupHolders == 0)
    (.conflict ("Cannot make role " ++ quoted role.name ++ " unassignable in groups: it is still "
      ++ "held by " ++ toString groupHolders ++ " group member(s); remove it from them first."))

/-- The row after the field edits of `update_role`. -/
def RoleEdits.applyTo (e : RoleEdits) (role : Role) : Role :=
  { role with
      permissions := (e.permissions.map toPermissions).getD role.permissions
      displayName := e.displayName.or role.displayName
      description := e.description.getD role.description
      isObjectAssignable := e.isObjectAssignable.getD role.isObjectAssignable }

/-- The permissions that an edit removes. -/
def RoleEdits.removed (e : RoleEdits) (role : Role) : Finset Permission :=
  match e.permissions with
  | some permissions => role.permissions \ toPermissions permissions
  | none => ∅

/-- The permission list of an edit, when it has one, is valid for a custom role. -/
def RoleEdits.validate (e : RoleEdits) : Except ApiError Unit :=
  match e.permissions with
  | some permissions => validateCustomPermissions permissions
  | none => .ok ()

/-- The guards of clearing `is_object_assignable`. -/
def assertCanUnassign (groupHolders : Nat) (role : Role) (e : RoleEdits) : Except ApiError Unit :=
  if e.isObjectAssignable = some false ∧ role.isObjectAssignable then do
    check (!role.isParticipantDefault)
      (.conflict ("Role " ++ quoted role.name ++ " is the group self-join default; assign a new "
        ++ "participant default before making it unassignable in groups."))
    assertNoGroupHolders groupHolders role
  else .ok ()

/-- An object-assignable role must stay grantable in a group. `update_role` checks the row after
the edits, not only the flag. -/
def assertStillGrantable (role : Role) : Except ApiError Unit :=
  if role.isObjectAssignable then assertGrantableInGroup role else .ok ()

/-- Edit a custom role. The result is the row to flush. `groupHolders` counts the live members
that hold the role on an object. -/
def updateRole (groupHolders : Nat) (role : Role) (e : RoleEdits) : Except ApiError Role := do
  check (!role.isSystem)
    (.badRequest ("System role " ++ quoted role.name
      ++ " is code-managed; only its activation and default flags are editable."))
  e.validate
  assertCanUnassign groupHolders role e
  assertStillGrantable (e.applyTo role)
  return e.applyTo role

/-- Reject deactivating a protected system role or a current default. -/
def assertDeactivatable (role : Role) : Except ApiError Unit := do
  check
    (!(role.isSystem && (nonDeactivatableSystemRoles.map SystemRole.value).contains role.name))
    (.conflict ("System role " ++ quoted role.name ++ " cannot be deactivated."))
  check (!role.isDefault)
    (.conflict ("The default role " ++ quoted role.name
      ++ " cannot be deactivated; assign a new default first."))
  check (!role.isParticipantDefault)
    (.conflict ("The participant default role " ++ quoted role.name
      ++ " cannot be deactivated; assign a new participant default first."))

/-- Block `action` when `role` is some principal's only active role. `users` and `members`
count the users and the group members it would strand. -/
def assertRoleNotSole (users members : Nat) (role : Role) (action : String) :
    Except ApiError Unit :=
  let parts := (if users = 0 then [] else [toString users ++ " user(s)"])
    ++ (if members = 0 then [] else [toString members ++ " group member(s)"])
  check parts.isEmpty
    (.conflict ("Cannot " ++ action ++ " role " ++ quoted role.name
      ++ ": it is the only active role for " ++ " and ".intercalate parts
      ++ "; reassign them first."))

/-- Activate or deactivate a role. A write of the flag it already has changes nothing. -/
def setRoleActive (users members : Nat) (role : Role) (isActive : Bool) :
    Except ApiError Role := do
  if role.isActive = isActive then return role
  if !isActive then
    assertDeactivatable role
    assertRoleNotSole users members role "deactivate"
  return { role with isActive }

/-- Soft-delete a custom role. -/
def deleteRole (now users members : Nat) (role : Role) : Except ApiError Role := do
  check (!role.isSystem)
    (.badRequest ("System role " ++ quoted role.name ++ " cannot be deleted."))
  check (!role.isDefault)
    (.conflict ("The default role " ++ quoted role.name
      ++ " cannot be deleted; assign a new default first."))
  check (!role.isParticipantDefault)
    (.conflict ("The participant default role " ++ quoted role.name
      ++ " cannot be deleted; assign a new participant default first."))
  assertRoleNotSole users members role "delete"
  return { role with deletedAt := some now }

/-- A validated permission list names real permissions, none of them non-delegable. -/
theorem validateCustomPermissions_spec {permissions : List String} {u : Unit}
    (h : validateCustomPermissions permissions = .ok u) :
    ∀ p ∈ toPermissions permissions, p ∉ nonDelegablePermissions := by
  simp only [validateCustomPermissions, bind_eq_ok, check_eq_ok, List.isEmpty_iff,
    List.filter_eq_nil_iff] at h
  obtain ⟨-, -, h⟩ := h
  intro p hp hnd
  simp only [toPermissions, List.mem_toFinset, List.mem_filterMap] at hp
  obtain ⟨s, hs, hsp⟩ := hp
  have hval : p.value = s := by
    have := List.find?_some hsp
    simpa using this
  refine h p hnd ?_
  simpa [hval] using hs

/-- A successful edit is of a custom role and gives the edited row. Its new permissions, if
any, are delegable. -/
theorem updateRole_spec {groupHolders : Nat} {role role' : Role} {e : RoleEdits}
    (h : updateRole groupHolders role e = .ok role') :
    role.isSystem = false ∧ role' = e.applyTo role ∧
      ∀ permissions, e.permissions = some permissions →
        ∀ p ∈ toPermissions permissions, p ∉ nonDelegablePermissions := by
  simp only [updateRole, bind_eq_ok, check_eq_ok] at h
  obtain ⟨-, hsys, u, hval, -, -, -, -, h⟩ := h
  refine ⟨by simpa using hsys, by cases h; rfl, fun permissions hp => ?_⟩
  simp only [RoleEdits.validate, hp] at hval
  exact validateCustomPermissions_spec hval

/-- A successful flag write gives the row with the flag. A role that it switches off is no
protected system role and no default. -/
theorem setRoleActive_spec {users members : Nat} {role role' : Role} {isActive : Bool}
    (h : setRoleActive users members role isActive = .ok role') :
    role' = { role with isActive } ∧
      (role.isActive = true → isActive = false →
        assertDeactivatable role = .ok ()) := by
  simp only [setRoleActive] at h
  split at h
  · rename_i hsame
    cases h
    exact ⟨by rw [← hsame], fun h₁ h₂ => by simp [h₁, h₂] at hsame⟩
  · cases isActive with
    | true =>
      cases h
      exact ⟨rfl, fun _ h => nomatch h⟩
    | false =>
      simp only [Bool.not_false, if_true, bind_eq_ok] at h
      obtain ⟨_, hguard, -, -, h⟩ := h
      cases h
      exact ⟨rfl, fun _ _ => hguard⟩

/-- A deactivatable role is no default and no protected system role. -/
theorem assertDeactivatable_eq_ok {role : Role} {u : Unit} :
    assertDeactivatable role = .ok u ↔
      ¬ (role.isSystem ∧ role.name ∈ nonDeactivatableSystemRoles.map SystemRole.value) ∧
        role.isDefault = false ∧ role.isParticipantDefault = false := by
  by_cases h : role.name ∈ nonDeactivatableSystemRoles.map SystemRole.value <;>
    simp [assertDeactivatable, bind_eq_ok, h, -List.mem_map]

/-- A successful delete is of a custom role that is no default, and tombstones the row. -/
theorem deleteRole_spec {now users members : Nat} {role role' : Role}
    (h : deleteRole now users members role = .ok role') :
    role.isSystem = false ∧ role.isDefault = false ∧ role.isParticipantDefault = false ∧
      role' = { role with deletedAt := some now } := by
  simp only [deleteRole, bind_eq_ok, check_eq_ok] at h
  obtain ⟨-, hsys, -, hdef, -, hpart, -, -, h⟩ := h
  cases h
  exact ⟨by simpa using hsys, by simpa using hdef, by simpa using hpart, rfl⟩

end RedTeaming.Auth
