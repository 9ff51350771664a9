import RedTeaming.Auth.Users

/-!
# `RedTeaming.Auth.ObjectRoles`: in-group role assignments

The write side of `core/auth/object_roles/service.py` over the rows of
`object_role_assignments`, and the counts that the role guards read. One object type exists, the
evaluation group, so a row carries the object's id only. A tombstoned row is never revived: a new
grant inserts a new row.

Each function takes the rows as one transaction reads them. `grantRoles` refuses what the unique
index on live rows refuses.
-/

set_option autoImplicit false

namespace RedTeaming.Auth

abbrev ObjectId := Nat

/-- A row of `object_role_assignments`. -/
structure Assignment where
  object : ObjectId
  user : UserId
  role : RoleId
  deletedAt : Option Nat := none
deriving DecidableEq

/-- The row is not a tombstone. -/
def Assignment.live (a : Assignment) : Bool := a.deletedAt.isNone

/-- The tombstone that `soft_delete` leaves. -/
def Assignment.softDelete (now : Nat) (a : Assignment) : Assignment :=
  { a with deletedAt := some now }

/-- The user's live rows on an object, one per role. -/
def liveAssignments (rows : List Assignment) (o : ObjectId) (u : UserId) : List Assignment :=
  rows.filter fun a => a.live && a.object == o && a.user == u

/-- The live roles that a user holds on an object. -/
def heldRoles (db : Directory) (rows : List Assignment) (o : ObjectId) (u : UserId) :
    List (RoleId × Role) :=
  (liveAssignments rows o u).filterMap fun a => (db.liveRole a.role).map fun role =>
    (a.role, role)

/-- The permissions that a user's active roles on an object grant. -/
def objectPermissions (db : Directory) (rows : List Assignment) (o : ObjectId) (u : UserId) :
    Finset Permission :=
  effectivePermissions ((heldRoles db rows o u).map Prod.snd)

/-- The caller may manage the members of a group: by a role on it, or by the break-glass
permission in the token. -/
def mayManageMembers (db : Directory) (rows : List Assignment) (caller : SessionUser)
    (o : ObjectId) : Bool :=
  decide (.evaluationGroupsManage ∈ caller.permissions) ||
    decide (.evaluationGroupsManageMembers ∈ objectPermissions db rows o caller.id)

/-- Those of some role ids that the API projection hides: inactive or tombstoned. -/
def hiddenRoles (db : Directory) (ids : List RoleId) : List RoleId :=
  ids.filter fun r =>
    match db.role r with
    | some role => !role.isActive || role.deleted
    | none => false

/-- The id of the live role that must keep a holder. -/
def protectedRoleId (db : Directory) : Option RoleId :=
  (db.roleByName protectedRole.value).map Prod.fst

/-- A live user other than `u` holds `r` on the object. -/
def liveProtectedHolderExists (db : Directory) (rows : List Assignment) (o : ObjectId)
    (r : RoleId) (u : UserId) : Bool :=
  rows.any fun a =>
    a.live && a.object == o && a.role == r && a.user != u && (db.liveUser a.user).isSome

/-- Forbid dropping the protected role from its sole live holder. -/
def assertProtectedRoleSurvives (db : Directory) (rows : List Assignment) (o : ObjectId)
    (u : UserId) (dropped : List Assignment) : Except ApiError Unit :=
  match protectedRoleId db with
  | some r =>
    check (!(dropped.any fun a => a.role == r) || liveProtectedHolderExists db rows o r u)
      (.conflict ("Cannot remove the last " ++ quoted protectedRole.value
        ++ "; assign another holder first."))
  | none => .ok ()

/-- The objects on which a user is the only live holder of the protected role. -/
def objectsSolelyHeldBy (db : Directory) (rows : List Assignment) (u : UserId) :
    List ObjectId :=
  match protectedRoleId db with
  | some r =>
    let held := (rows.filter fun a => a.live && a.role == r && a.user == u).map Assignment.object
    held.dedup.filter fun o => !liveProtectedHolderExists db rows o r u
  | none => []

/-- The live memberships that hold a role. -/
def countMembersHolding (db : Directory) (rows : List Assignment) (r : RoleId) : Nat :=
  (rows.filter fun a => a.live && a.role == r && (db.liveUser a.user).isSome).length

/-- The live, active roles among a user's rows on an object. -/
def activeObjectRoles (db : Directory) (rows : List Assignment) (o : ObjectId) (u : UserId) :
    List RoleId :=
  ((liveAssignments rows o u).map Assignment.role).filter db.activeRole

/-- The live memberships whose only live, active role is `r`. -/
def countMembersSolelyHolding (db : Directory) (rows : List Assignment) (r : RoleId) : Nat :=
  (rows.filter fun a =>
    a.live && a.role == r && (db.liveUser a.user).isSome &&
      activeObjectRoles db rows a.object a.user == [r]).length

/-- Insert one row per role. The unique index covers the live rows of an object, a user, and a
role. -/
def grantRoles (rows : List Assignment) (o : ObjectId) (u : UserId) (roles : List RoleId) :
    Option (List Assignment) :=
  if roles.Nodup ∧ ∀ r ∈ roles, ∀ a ∈ liveAssignments rows o u, a.role ≠ r then
    some (rows ++ roles.map fun r => { object := o, user := u, role := r })
  else none

/-- Assign roles to a user who has none on the object. -/
def addMember (rows : List Assignment) (o : ObjectId) (u : UserId) (roles : List RoleId) :
    Except ApiError (List Assignment) := do
  check (liveAssignments rows o u).isEmpty (.conflict "User already has a role on this object.")
  match grantRoles rows o u roles with
  | some rows => return rows
  | none => throw (.conflict "User already has a role on this object.")

/-- Replace the user's roles on the object. Roles that the projection hides are retained. -/
def setMemberRoles (db : Directory) (now : Nat) (rows : List Assignment) (o : ObjectId)
    (u : UserId) (roles : List RoleId) : Except ApiError (List Assignment) := do
  let current := liveAssignments rows o u
  check (!current.isEmpty) (.notFound "User has no role on this object.")
  let currentIds := current.map Assignment.role
  let hidden := hiddenRoles db (currentIds.filter fun r => !roles.contains r)
  let target := roles ++ hidden
  let dropped := current.filter fun a => !target.contains a.role
  assertProtectedRoleSurvives db rows o u dropped
  let kept := rows.map fun a => if a ∈ dropped then a.softDelete now else a
  match grantRoles kept o u (roles.filter fun r => !currentIds.contains r) with
  | some rows => return rows
  | none => throw (.runtimeError "duplicate key value violates unique constraint")

/-- Soft-delete every live role that the user holds on the object. -/
def removeMember (db : Directory) (now : Nat) (rows : List Assignment) (o : ObjectId)
    (u : UserId) : Except ApiError (List Assignment) := do
  let current := liveAssignments rows o u
  check (!current.isEmpty) (.notFound "User has no role on this object.")
  assertProtectedRoleSurvives db rows o u current
  return rows.map fun a => if a ∈ current then a.softDelete now else a

/-- Resolve ids to live, active roles that an evaluation group admits. -/
def resolveObjectRoles (db : Directory) (roleIds : List RoleId) :
    Except ApiError (List (RoleId × Role)) := do
  let roles ← getRolesByIds db roleIds
  let invalid := roles.filter fun x => !x.2.isObjectAssignable
  check invalid.isEmpty
    (.badRequest ("Role(s) not assignable for this object: "
      ++ ", ".intercalate (invalid.map fun x => x.2.name).mergeSort ++ "."))
  let lacking := roles.filter fun x => decide (requiredPermission ∉ x.2.permissions)
  check lacking.isEmpty
    (.badRequest ("Role(s) must grant " ++ quoted requiredPermission.value
      ++ " to be assignable here: "
      ++ ", ".intercalate (lacking.map fun x => x.2.name).mergeSort ++ "."))
  return roles

end RedTeaming.Auth
