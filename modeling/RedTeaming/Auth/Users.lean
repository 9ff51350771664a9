import Mathlib.Data.Finset.SDiff
import Mathlib.Logic.Function.Basic
import RedTeaming.Auth.Roles

/-!
# `RedTeaming.Auth.Users`: user rows, the directory, and the elevation guards

The rows of `users` with their `user_roles` links, and the part of
`core/auth/services/users.py` that reads and writes them. A `Directory` is the content of the two
tables `users` and `roles`. It is a pair of partial maps, with lists of the ids so that a query
over all rows can be evaluated.

The elevation guards compare the roles that a request touches with the permissions in the
caller's token. `assertCanAssignRoles` gates assignments. `blockedElevatedRoles` gates the
operations that act on a whole account: delete, restore, status change, and invitation resend or
revoke. `manageAdmin_of_assign` and `manageAdmin_of_unblocked` say what a caller that passes
holds.
-/

set_option autoImplicit false

namespace RedTeaming.Auth

/-- Lifecycle state of an account. -/
inductive UserStatus
  | active | pending | invited | inactive
deriving DecidableEq, Repr

/-- The status string. -/
def UserStatus.value : UserStatus → String
  | .active => "active"
  | .pending => "pending"
  | .invited => "invited"
  | .inactive => "inactive"

/-- `email.rpartition("@")[2]`: what follows the last `@`. -/
def afterLastAt (email : String) : String :=
  String.ofList (email.toList.reverse.takeWhile (· ≠ '@')).reverse

/-- A row of `users` with its `user_roles` links. `password` is the stored hash, `none` for a
passwordless account. `passwordCleared` and `emailVerified` say that `password_cleared_at` and
`email_verified_at` are set. -/
structure User where
  email : String
  password : Option String := none
  passwordCleared : Bool := false
  emailVerified : Bool := false
  firstName : Option String := none
  lastName : Option String := none
  acceptedTerms : Option Nat := none
  consentEmails : Bool := false
  status : UserStatus
  roleIds : List RoleId
  deletedAt : Option Nat := none
deriving DecidableEq

/-- The row is a tombstone. -/
def User.deleted (row : User) : Bool := row.deletedAt.isSome

/-- The identity that a verified token materializes. -/
structure SessionUser where
  id : UserId
  provider : String
  permissions : Finset Permission
  authTime : Option Nat
  issuedAt : Option Nat
deriving DecidableEq

/-- The rows of `users`, `roles`, and `user_roles`. -/
structure Directory where
  user : UserId → Option User
  role : RoleId → Option Role
  userIds : List UserId
  roleIds : List RoleId
  mem_userIds : ∀ u, (user u).isSome → u ∈ userIds
  mem_roleIds : ∀ r, (role r).isSome → r ∈ roleIds

namespace Directory

/-- Where there is no user, no id has to be listed. -/
theorem mem_of_no_user (u : UserId) (h : (none : Option User).isSome = true) :
    u ∈ ([] : List UserId) :=
  absurd h Bool.false_ne_true

/-- Where there is no role, no id has to be listed. -/
theorem mem_of_no_role (r : RoleId) (h : (none : Option Role).isSome = true) :
    r ∈ ([] : List RoleId) :=
  absurd h Bool.false_ne_true

variable (db : Directory)

/-- `User.live_select()` by id. -/
def liveUser (u : UserId) : Option User := (db.user u).filter fun row => !row.deleted

/-- `Role.live_select()` by id. -/
def liveRole (r : RoleId) : Option Role := (db.role r).filter fun row => !row.deleted

/-- The roles that `with_live(Role)` loads for a user row. -/
def liveRoles (row : User) : List Role := row.roleIds.filterMap db.liveRole

/-- The role with an id is live and active. -/
def activeRole (r : RoleId) : Bool :=
  match db.liveRole r with
  | some role => role.isActive
  | none => false

/-- The permissions that a user's live, active roles grant now. -/
def effective (u : UserId) : Finset Permission :=
  match db.user u with
  | some row => effectivePermissions (db.liveRoles row)
  | none => ∅

/-- A user row, live or not, has a role. -/
def Holds (u : UserId) (r : RoleId) : Prop := ∃ row, db.user u = some row ∧ r ∈ row.roleIds

/-- The live users that hold a role. -/
def holders (r : RoleId) : List UserId :=
  db.userIds.filter fun u =>
    match db.liveUser u with
    | some row => row.roleIds.contains r
    | none => false

/-- The live user with an e-mail. -/
def userByEmail (email : String) : Option (UserId × User) :=
  db.userIds.findSome? fun u =>
    match db.liveUser u with
    | some row => if row.email = email then some (u, row) else none
    | none => none

/-- The live role that a predicate selects. -/
def findRole (p : Role → Bool) : Option (RoleId × Role) :=
  db.roleIds.findSome? fun r =>
    match db.liveRole r with
    | some row => if p row then some (r, row) else none
    | none => none

/-- The live role with a name. -/
def roleByName (name : String) : Option (RoleId × Role) := db.findRole fun row => row.name == name

/-- The rows after the users of a list became INACTIVE. -/
def deactivate (us : List UserId) : Directory where
  user u := (db.user u).map fun row => if u ∈ us then { row with status := .inactive } else row
  role := db.role
  userIds := db.userIds
  roleIds := db.roleIds
  mem_userIds u h := db.mem_userIds u (by simpa using h)
  mem_roleIds := db.mem_roleIds

/-- The ids after a write cover the rows after it. -/
theorem mem_insert_of_update {α : Type} {f : Nat → Option α} {ids : List Nat}
    (h : ∀ i, (f i).isSome → i ∈ ids) {j : Nat} {row : α} (i : Nat)
    (hi : (Function.update f j (some row) i).isSome) : i ∈ ids.insert j := by
  by_cases hij : i = j
  · exact List.mem_insert_iff.mpr (Or.inl hij)
  · rw [Function.update_of_ne hij] at hi
    exact List.mem_insert_iff.mpr (Or.inr (h i hi))

/-- The rows after a write of a role row. -/
def setRole (r : RoleId) (row : Role) : Directory where
  user := db.user
  role := Function.update db.role r (some row)
  userIds := db.userIds
  roleIds := db.roleIds.insert r
  mem_userIds := db.mem_userIds
  mem_roleIds := mem_insert_of_update db.mem_roleIds

/-- The rows after a write of a user row. -/
def setUser (u : UserId) (row : User) : Directory where
  user := Function.update db.user u (some row)
  role := db.role
  userIds := db.userIds.insert u
  roleIds := db.roleIds
  mem_userIds := mem_insert_of_update db.mem_userIds
  mem_roleIds := db.mem_roleIds

@[simp] theorem setUser_user (u : UserId) (row : User) :
    (db.setUser u row).user = Function.update db.user u (some row) := rfl

@[simp] theorem setUser_role (u : UserId) (row : User) : (db.setUser u row).role = db.role := rfl

@[simp] theorem setRole_user (r : RoleId) (row : Role) : (db.setRole r row).user = db.user := rfl

@[simp] theorem setRole_role (r : RoleId) (row : Role) :
    (db.setRole r row).role = Function.update db.role r (some row) := rfl

variable {db}

/-- A live row is a row without a tombstone. -/
theorem liveUser_eq_some {u : UserId} {row : User} :
    db.liveUser u = some row ↔ db.user u = some row ∧ row.deleted = false := by
  rw [liveUser, Option.filter_eq_some_iff, Bool.not_eq_true']

/-- A live role is a role without a tombstone. -/
theorem liveRole_eq_some {r : RoleId} {row : Role} :
    db.liveRole r = some row ↔ db.role r = some row ∧ row.deleted = false := by
  rw [liveRole, Option.filter_eq_some_iff, Bool.not_eq_true']

/-- A permission is effective when a role of the user, live and active, grants it. -/
theorem mem_effective {u : UserId} {p : Permission} :
    p ∈ db.effective u ↔ ∃ row, db.user u = some row ∧ ∃ r ∈ row.roleIds, ∃ role,
      db.role r = some role ∧ p ∈ role.grants := by
  unfold effective
  cases hrow : db.user u with
  | none => simp
  | some row =>
    simp only [mem_effectivePermissions, liveRoles, List.mem_filterMap, liveRole_eq_some,
      Option.some.injEq, exists_eq_left']
    constructor
    · rintro ⟨role, ⟨r, hr, hrole, -⟩, hp⟩
      exact ⟨r, hr, role, hrole, hp⟩
    · rintro ⟨r, hr, role, hrole, hp⟩
      exact ⟨role, ⟨r, hr, hrole, (Role.mem_grants.mp hp).1⟩, hp⟩

/-- A live user with the role is one of its holders. -/
theorem mem_holders {r : RoleId} {u : UserId} {row : User} (hrow : db.user u = some row)
    (hlive : row.deleted = false) (hmem : r ∈ row.roleIds) : u ∈ db.holders r := by
  have hu : u ∈ db.userIds := db.mem_userIds u (by rw [hrow]; rfl)
  have hfind : db.liveUser u = some row := liveUser_eq_some.mpr ⟨hrow, hlive⟩
  simp [holders, hfind, hmem, hu]

/-- The lookup of a role finds a live row that the predicate selects. -/
theorem liveRole_of_findRole {p : Role → Bool} {r : RoleId} {row : Role}
    (h : db.findRole p = some (r, row)) : db.liveRole r = some row ∧ p row = true := by
  obtain ⟨r', -, hr⟩ := List.exists_of_findSome?_eq_some h
  split at hr
  · rename_i row' hrow
    split at hr
    · rename_i hp
      cases hr
      exact ⟨hrow, hp⟩
    · cases hr
  · cases hr

/-- No live row is selected by a predicate that finds none. -/
theorem not_of_findRole_eq_none {p : Role → Bool} (h : db.findRole p = none) {r : RoleId}
    {row : Role} (hrow : db.liveRole r = some row) : p row = false := by
  have hr : r ∈ db.roleIds := db.mem_roleIds r (by rw [(liveRole_eq_some.mp hrow).1]; rfl)
  have hnone := List.findSome?_eq_none_iff.mp h r hr
  rw [hrow] at hnone
  cases hp : p row with
  | false => rfl
  | true => simp [hp] at hnone

/-- The lookup by e-mail finds a live row. -/
theorem liveUser_of_userByEmail {email : String} {u : UserId} {row : User}
    (h : db.userByEmail email = some (u, row)) :
    db.liveUser u = some row ∧ row.email = email := by
  obtain ⟨v, -, hv⟩ := List.exists_of_findSome?_eq_some h
  split at hv
  · rename_i row' hrow
    split at hv
    · rename_i hemail
      cases hv
      exact ⟨hrow, hemail⟩
    · cases hv
  · cases hv

end Directory

/-- `get_user`: one live user by id. -/
def getUser (db : Directory) (u : UserId) : Except ApiError User :=
  match db.liveUser u with
  | some row => .ok row
  | none => .error (.notFound ("User " ++ toString u ++ " not found."))

theorem getUser_eq_ok {db : Directory} {u : UserId} {row : User} :
    getUser db u = .ok row ↔ db.liveUser u = some row := by
  unfold getUser
  cases db.liveUser u <;> simp

/-! ### Elevated roles -/

/-- The elevated roles among the names of some roles. -/
def elevatedAmong (roles : List Role) : List SystemRole :=
  SystemRole.all.filter fun r =>
    (elevatedRolePermissions r).isSome && roles.any fun role => role.name == r.value

/-- The caller has the permission that an elevated role asks for. -/
def mayManage (caller : SessionUser) (r : SystemRole) : Bool :=
  match elevatedRolePermissions r with
  | some p => decide (p ∈ caller.permissions)
  | none => true

/-- The elevated roles that a user holds and the caller cannot manage. -/
def blockedElevatedRoles (caller : SessionUser) (roles : List Role) : List SystemRole :=
  (elevatedAmong roles).filter fun r => !mayManage caller r

/-- The names of some roles, sorted, for a message. -/
def roleNames (roles : List SystemRole) : String :=
  ", ".intercalate (roles.map SystemRole.value).mergeSort

/-- Reject the change unless the caller may change every elevated role it touches. `roles` is the
full set after the change, and `currentRoles` the one before. -/
def assertCanAssignRoles (caller : SessionUser) (roles currentRoles : List Role) :
    Except ApiError Unit := do
  let assigning := blockedElevatedRoles caller roles
  check assigning.isEmpty
    (.forbidden ("Caller cannot assign role(s): " ++ roleNames assigning ++ "."))
  let revoking := (blockedElevatedRoles caller currentRoles).filter fun r =>
    !(elevatedAmong roles).contains r
  check revoking.isEmpty
    (.forbidden ("Caller cannot revoke role(s): " ++ roleNames revoking ++ "."))

/-- Reject an operation on an account whose elevated roles the caller cannot manage. `what` is
the operation in the message. -/
def assertUnblocked (what : String) (caller : SessionUser) (roles : List Role) :
    Except ApiError Unit :=
  let blocked := blockedElevatedRoles caller roles
  check blocked.isEmpty (.forbidden
    ("Caller cannot " ++ what ++ " a user holding role(s): " ++ roleNames blocked ++ "."))

/-- The delete guard. -/
def assertCanDeleteUser : SessionUser → List Role → Except ApiError Unit :=
  assertUnblocked "delete"

/-- The restore guard. -/
def assertCanRestoreUser : SessionUser → List Role → Except ApiError Unit :=
  assertUnblocked "restore"

/-- The guard of an invitation resend or revoke. -/
def assertCanManageInvitation : SessionUser → List Role → Except ApiError Unit :=
  assertUnblocked "manage the invitation of"

/-- The guard of a status change. -/
def assertCanManageStatus : SessionUser → List Role → Except ApiError Unit :=
  assertUnblocked "change the status of"

/-- A caller that no elevated role blocks has `users:manage_admin` once one is held. -/
theorem manageAdmin_of_unblocked {caller : SessionUser} {roles : List Role}
    (h : blockedElevatedRoles caller roles = []) {role : Role} (hrole : role ∈ roles)
    {r : SystemRole} (hr : r ∈ nonDeactivatableSystemRoles) (hname : role.name = r.value) :
    .usersManageAdmin ∈ caller.permissions := by
  have helev : elevatedRolePermissions r = some .usersManageAdmin := by
    rw [elevatedRolePermissions_eq, if_pos hr]
  have hmem : r ∈ elevatedAmong roles := by
    simp only [elevatedAmong, List.mem_filter, Bool.and_eq_true, List.any_eq_true, beq_iff_eq]
    exact ⟨r.mem_all, by rw [helev]; rfl, role, hrole, hname⟩
  have hmay := List.filter_eq_nil_iff.mp h r hmem
  simpa [mayManage, helev] using hmay

/-- A caller that may assign an elevated role has `users:manage_admin`. -/
theorem manageAdmin_of_assign {caller : SessionUser} {roles currentRoles : List Role} {x : Unit}
    (h : assertCanAssignRoles caller roles currentRoles = .ok x) {role : Role}
    (hrole : role ∈ roles) {r : SystemRole} (hr : r ∈ nonDeactivatableSystemRoles)
    (hname : role.name = r.value) : .usersManageAdmin ∈ caller.permissions := by
  simp only [assertCanAssignRoles, bind_eq_ok, check_eq_ok, List.isEmpty_iff] at h
  obtain ⟨-, h, -⟩ := h
  exact manageAdmin_of_unblocked h hrole hr hname

/-- An operation that is not blocked. -/
theorem blocked_eq_nil_of_assert {what : String} {caller : SessionUser} {roles : List Role}
    {x : Unit} (h : assertUnblocked what caller roles = .ok x) :
    blockedElevatedRoles caller roles = [] := by
  simpa [assertUnblocked] using h

/-! ### Role assignment -/

/-- Resolve ids to live, active roles. -/
def getRolesByIds (db : Directory) (roleIds : List RoleId) :
    Except ApiError (List (RoleId × Role)) := do
  let ids := roleIds.eraseDups
  let missing := ids.filter fun r => (db.liveRole r).isNone
  check missing.isEmpty
    (.badRequest ("Unknown role(s): " ++ ", ".intercalate (missing.map toString) ++ "."))
  let found := ids.filterMap fun r => (db.liveRole r).map fun role => (r, role)
  let inactive := found.filter fun x => !x.2.isActive
  check inactive.isEmpty
    (.badRequest ("Cannot assign inactive role(s): "
      ++ ", ".intercalate (inactive.map fun x => x.2.name).mergeSort ++ "."))
  return found

/-- Resolve ids to roles that the caller may assign. -/
def resolveAssignableRoles (db : Directory) (caller : SessionUser) (roleIds : List RoleId)
    (currentRoles : List Role) : Except ApiError (List (RoleId × Role)) := do
  let roles ← getRolesByIds db roleIds
  assertCanAssignRoles caller (roles.map Prod.snd) currentRoles
  return roles

/-- The default role of a new account. A directory without one is a broken deployment. -/
def getDefaultRole (db : Directory) : Except ApiError (RoleId × Role) :=
  match db.findRole fun row => row.isDefault && row.isActive with
  | some found => .ok found
  | none => .error (.runtimeError
      "No active default role found — run `make syncroles` and check the is_default flag.")

/-- A resolved role is the live role of its id. -/
theorem getRolesByIds_spec {db : Directory} {roleIds : List RoleId}
    {roles : List (RoleId × Role)} (h : getRolesByIds db roleIds = .ok roles) :
    ∀ x ∈ roles, db.role x.1 = some x.2 := by
  simp only [getRolesByIds, bind_eq_ok, check_eq_ok] at h
  obtain ⟨-, -, -, -, h⟩ := h
  cases h
  intro x hx
  obtain ⟨r, -, hr⟩ := List.mem_filterMap.mp hx
  obtain ⟨role, hrole, rfl⟩ := Option.map_eq_some_iff.mp hr
  exact (Directory.liveRole_eq_some.mp hrole).1

/-- Roles that a caller may assign are the roles of their ids, and an elevated one among them
takes `users:manage_admin`. -/
theorem resolveAssignableRoles_spec {db : Directory} {caller : SessionUser}
    {roleIds : List RoleId} {currentRoles : List Role} {roles : List (RoleId × Role)}
    (h : resolveAssignableRoles db caller roleIds currentRoles = .ok roles) :
    ∀ x ∈ roles, db.role x.1 = some x.2 ∧
      ∀ r ∈ nonDeactivatableSystemRoles, x.2.name = r.value →
        .usersManageAdmin ∈ caller.permissions := by
  simp only [resolveAssignableRoles, bind_eq_ok] at h
  obtain ⟨found, hfound, _, hassert, h⟩ := h
  cases h
  intro x hx
  refine ⟨getRolesByIds_spec hfound x hx, fun r hr hname => ?_⟩
  exact manageAdmin_of_assign hassert (List.mem_map_of_mem hx) hr hname

/-- The default role is a live, active role with the flag. -/
theorem getDefaultRole_spec {db : Directory} {x : RoleId × Role}
    (h : getDefaultRole db = .ok x) :
    db.liveRole x.1 = some x.2 ∧ x.2.isDefault = true ∧ x.2.isActive = true := by
  unfold getDefaultRole at h
  split at h
  · rename_i found hfound
    cases h
    obtain ⟨hlive, hflags⟩ := Directory.liveRole_of_findRole hfound
    exact ⟨hlive, by simpa using hflags⟩
  · cases h

end RedTeaming.Auth
