import RedTeaming.Auth.ObjectRoles
import RedTeaming.Library.Lookup

/-!
# `RedTeaming.Auth.RoleStore`: the role table and its endpoints

The part of `core/auth/services/roles.py` and `api/v1/roles.py` that reads and writes the table:
create, patch, delete, restore, the two default flags, and the sync of the system roles. The
row-level guards come from `RedTeaming.Auth.Roles`. A patch applies its fields in order: field
edits, activation, new-user default, participant default. Each part reads the row that the part
before it flushed.

`RoleChange` lists what one write does to a row, and `RoleWrites` is a sequence of such writes.
`RoleWrites.createRole`, `RoleWrites.patchRole`, `RoleWrites.removeRole`, and
`RoleWrites.restoreRole` say that each endpoint is such a sequence. A property of rows that every
`RoleChange` keeps is then a property of every reachable table.
-/

set_option autoImplicit false

namespace RedTeaming.Auth

/-- `get_role`: one live role by id. -/
def getRole (db : Directory) (r : RoleId) : Except ApiError Role :=
  match db.liveRole r with
  | some role => .ok role
  | none => .error (.notFound ("Role " ++ toString r ++ " does not exist."))

theorem getRole_eq_ok {db : Directory} {r : RoleId} {role : Role} :
    getRole db r = .ok role ↔ db.liveRole r = some role := by
  unfold getRole
  cases db.liveRole r <;> simp

/-- The live users whose only live, active role is `r`. -/
def countUsersSolelyHolding (db : Directory) (r : RoleId) : Nat :=
  (db.userIds.filter fun u =>
    match db.liveUser u with
    | some row => row.roleIds.filter db.activeRole == [r]
    | none => false).length

/-- The payload of a role creation. -/
structure RoleCreate where
  name : String
  displayName : String
  description : Option String := none
  permissions : List String
deriving DecidableEq

/-- Reject a name that is reserved or taken by a live role. -/
def assertNameAvailable (db : Directory) (name : String) : Except ApiError Unit := do
  check (!reservedRoleNames.contains name)
    (.conflict ("Role name " ++ quoted name ++ " is reserved for a system role."))
  check (db.roleByName name).isNone
    (.conflict ("A role named " ++ quoted name ++ " already exists."))

/-- The row of a new custom role: active, and neither canonical nor a default. -/
def RoleCreate.row (form : RoleCreate) : Role :=
  { name := form.name
    displayName := some form.displayName
    description := form.description
    permissions := toPermissions form.permissions }

/-- Create a custom role under a fresh id. -/
def createRole (db : Directory) (r : RoleId) (form : RoleCreate) : Except ApiError Directory := do
  validateCustomPermissions form.permissions
  assertNameAvailable db form.name
  return db.setRole r form.row

/-- Reject making a privileged system role a default. -/
def assertCanBeDefault (role : Role) : Except ApiError Unit :=
  check
    (!(role.isSystem && (nonDeactivatableSystemRoles.map SystemRole.value).contains role.name))
    (.conflict ("Role " ++ quoted role.name ++ " cannot be made a default role."))

/-- A flag of a role that at most one live role has. -/
structure DefaultFlag where
  get : Role → Bool
  set : Bool → Role → Role

/-- The flag of the new-user default. -/
def DefaultFlag.newUser : DefaultFlag where
  get := Role.isDefault
  set b role := { role with isDefault := b }

/-- The flag of the group self-join default. -/
def DefaultFlag.participant : DefaultFlag where
  get := Role.isParticipantDefault
  set b role := { role with isParticipantDefault := b }

/-- Clear the flag of its current holder, if any. -/
def clearFlag (db : Directory) (flag : DefaultFlag) : Directory :=
  match db.findRole flag.get with
  | some (r, current) => db.setRole r (flag.set false current)
  | none => db

/-- Move the flag to `role`, the row of `r`. A role that has it stays as it is. -/
def moveFlag (db : Directory) (flag : DefaultFlag) (r : RoleId) (role : Role) : Directory :=
  if flag.get role then db else (clearFlag db flag).setRole r (flag.set true role)

/-- Make a role the sole new-user default. -/
def setDefaultRole (db : Directory) (r : RoleId) : Except ApiError Directory := do
  let role ← getRole db r
  assertCanBeDefault role
  check role.isActive (.conflict ("Cannot make inactive role " ++ quoted role.name
    ++ " the default; activate it first."))
  return moveFlag db .newUser r role

/-- Make a role the sole self-join default. Self-join grants it as an in-group role, so it must
be grantable in a group. -/
def setParticipantDefaultRole (db : Directory) (r : RoleId) : Except ApiError Directory := do
  let role ← getRole db r
  assertCanBeDefault role
  check role.isActive (.conflict ("Cannot make inactive role " ++ quoted role.name
    ++ " the participant default; activate it first."))
  assertGrantableInGroup role
  return moveFlag db .participant r role

/-- The payload of a role patch. `none` is a field that the caller did not send. -/
structure RoleUpdate extends RoleEdits where
  isActive : Option Bool := none
  isDefault : Option Bool := none
  isParticipantDefault : Option Bool := none
deriving DecidableEq

/-- The field edits of a patch, when it sends any. -/
def patchFields (db : Directory) (rows : List Assignment) (r : RoleId) (e : RoleEdits) :
    Except ApiError Directory := do
  let role ← getRole db r
  if e = {} then return db
  let role ← updateRole (countMembersHolding db rows r) role e
  return db.setRole r role

/-- The activation of a patch. -/
def patchActive (db : Directory) (rows : List Assignment) (r : RoleId) (isActive : Option Bool) :
    Except ApiError Directory :=
  match isActive with
  | none => .ok db
  | some isActive => do
    let role ← getRole db r
    let role ← setRoleActive (countUsersSolelyHolding db r) (countMembersSolelyHolding db rows r)
      role isActive
    return db.setRole r role

/-- Reject clearing a default flag. `what` is the default in the message. -/
def assertFlagStays (flag : DefaultFlag) (what : String) (role : Role) : Except ApiError Unit :=
  check (!flag.get role) (.conflict ("Cannot clear the " ++ what
    ++ " flag directly; make another role the " ++ what ++ " instead."))

/-- The new-user default of a patch. -/
def patchDefault (db : Directory) (r : RoleId) : Option Bool → Except ApiError Directory
  | none => .ok db
  | some true => setDefaultRole db r
  | some false => do
    assertFlagStays .newUser "default" (← getRole db r)
    return db

/-- The participant default of a patch. -/
def patchParticipantDefault (db : Directory) (r : RoleId) :
    Option Bool → Except ApiError Directory
  | none => .ok db
  | some true => setParticipantDefaultRole db r
  | some false => do
    assertFlagStays .participant "participant default" (← getRole db r)
    return db

/-- `PATCH /roles/{id}`. -/
def patchRole (db : Directory) (rows : List Assignment) (r : RoleId) (payload : RoleUpdate) :
    Except ApiError Directory := do
  let db ← patchFields db rows r payload.toRoleEdits
  let db ← patchActive db rows r payload.isActive
  let db ← patchDefault db r payload.isDefault
  patchParticipantDefault db r payload.isParticipantDefault

/-- `DELETE /roles/{id}`. -/
def removeRole (db : Directory) (now : Nat) (rows : List Assignment) (r : RoleId) :
    Except ApiError Directory := do
  let role ← getRole db r
  let role ← deleteRole now (countUsersSolelyHolding db r) (countMembersSolelyHolding db rows r)
    role
  return db.setRole r role

/-- A tombstone inside the restore window: `deleted_at >= now - window`. -/
def restorable (now window : Nat) (deletedAt : Option Nat) : Bool :=
  match deletedAt with
  | some t => decide (now - window ≤ t)
  | none => false

/-- Reviving a role would break a unique index on the live rows. -/
def roleClash (db : Directory) (role : Role) : Bool :=
  (db.roleByName role.name).isSome ||
    role.isDefault && (db.findRole Role.isDefault).isSome ||
    role.isParticipantDefault && (db.findRole Role.isParticipantDefault).isSome

/-- `POST /roles/{id}/restore`. -/
def restoreRole (db : Directory) (now window : Nat) (r : RoleId) :
    Except ApiError Directory := do
  match (db.role r).filter fun role => restorable now window role.deletedAt with
  | none => throw (.notFound ("No restorable role " ++ toString r
      ++ " was deleted within the restore window."))
  | some role =>
    check (!role.isSystem) (.badRequest ("System role " ++ quoted role.name
      ++ " cannot be restored; it is code-managed."))
    check (!roleClash db role) (.conflict ("A role named " ++ quoted role.name
      ++ " already exists."))
    return db.setRole r { role with deletedAt := none }

/-! ### The sync of the system roles -/

/-- The row that the sync creates for a system role. -/
def systemRoleRow (r : SystemRole) : Role :=
  { name := r.value
    displayName := some r.displayName
    description := some r.description
    permissions := r.permissions
    isSystem := true
    isDefault := decide (r = defaultParticipantRole)
    isParticipantDefault := decide (r = defaultParticipantRole)
    isObjectAssignable := objectAssignableSystemRoles.contains r }

/-- Upsert one system role. A live row keeps its activation and default flags. -/
def syncRole (fresh : SystemRole → RoleId) (db : Directory) (r : SystemRole) : Directory :=
  match db.roleByName r.value with
  | none => db.setRole (fresh r) (systemRoleRow r)
  | some (id, role) => db.setRole id
      { role with
          displayName := some r.displayName
          description := some r.description
          permissions := r.permissions
          isSystem := true
          isObjectAssignable := objectAssignableSystemRoles.contains r }

/-- Upsert the canonical roles. `fresh` gives the ids of the rows it creates. -/
def syncSystemRoles (fresh : SystemRole → RoleId) (db : Directory) : Directory :=
  SystemRole.all.foldl (syncRole fresh) db

/-! ### What a request writes -/

/-- What one write does to the row of a role. The first argument is the row before it. -/
inductive RoleChange : Option Role → Role → Prop
  | create (form : RoleCreate) (hperm : validateCustomPermissions form.permissions = .ok ())
      (hname : form.name ∉ reservedRoleNames) : RoleChange none form.row
  | edit {groupHolders : Nat} {role role' : Role} {e : RoleEdits}
      (h : updateRole groupHolders role e = .ok role') : RoleChange (some role) role'
  | activate {users members : Nat} {role role' : Role} {isActive : Bool}
      (h : setRoleActive users members role isActive = .ok role') : RoleChange (some role) role'
  | clearDefault (role : Role) : RoleChange (some role) (DefaultFlag.newUser.set false role)
  | clearParticipant (role : Role) :
      RoleChange (some role) (DefaultFlag.participant.set false role)
  | markDefault {role : Role} (h : assertCanBeDefault role = .ok ())
      (hactive : role.isActive = true) :
      RoleChange (some role) (DefaultFlag.newUser.set true role)
  | markParticipant {role : Role} (h : assertCanBeDefault role = .ok ())
      (hactive : role.isActive = true) (hgrantable : assertGrantableInGroup role = .ok ()) :
      RoleChange (some role) (DefaultFlag.participant.set true role)
  | delete {now users members : Nat} {role role' : Role}
      (h : deleteRole now users members role = .ok role') : RoleChange (some role) role'
  | restore {role : Role} (hsys : role.isSystem = false) :
      RoleChange (some role) { role with deletedAt := none }

/-- A sequence of role writes. -/
inductive RoleWrites (db : Directory) : Directory → Prop
  | refl : RoleWrites db db
  | write {db' : Directory} {r : RoleId} {role' : Role} (h : RoleWrites db db')
      (hchange : RoleChange (db'.role r) role') : RoleWrites db (db'.setRole r role')

namespace RoleWrites
variable {db db' db'' : Directory}

theorem trans (h : RoleWrites db db') (h' : RoleWrites db' db'') : RoleWrites db db'' := by
  induction h' with
  | refl => exact h
  | write _ hchange ih => exact ih.write hchange

/-- A write of the row that was read. -/
theorem single {r : RoleId} {role role' : Role} (hrole : db.liveRole r = some role)
    (hchange : RoleChange (some role) role') : RoleWrites db (db.setRole r role') := by
  refine .write .refl ?_
  rw [(Directory.liveRole_eq_some.mp hrole).1]
  exact hchange

/-- The user rows stay. -/
theorem user_eq (h : RoleWrites db db') : db'.user = db.user := by
  induction h with
  | refl => rfl
  | write _ _ ih => exact ih

/-- A property of rows that each change keeps holds after the writes. -/
theorem forall_role {P : Role → Prop}
    (hchange : ∀ old new, RoleChange old new → (∀ role, old = some role → P role) → P new)
    (h : RoleWrites db db') (hP : ∀ r role, db.role r = some role → P role) :
    ∀ r role, db'.role r = some role → P role := by
  induction h with
  | refl => exact hP
  | @write db' r₀ role₀ _ hc ih =>
    intro r role hr
    rw [Directory.setRole_role, Library.update_some_eq_some] at hr
    rcases hr with ⟨rfl, rfl⟩ | ⟨-, hr⟩
    · exact hchange _ _ hc (ih r)
    · exact ih r role hr

theorem createRole {r : RoleId} {form : RoleCreate} (hfresh : db.role r = none)
    (h : Auth.createRole db r form = .ok db') : RoleWrites db db' := by
  simp only [Auth.createRole, bind_eq_ok] at h
  obtain ⟨_, hperm, _, hname, h⟩ := h
  cases h
  refine .write .refl ?_
  rw [hfresh]
  refine .create form hperm ?_
  simp only [assertNameAvailable, bind_eq_ok, check_eq_ok] at hname
  simpa using hname.choose_spec.1

theorem moveFlag {flag : DefaultFlag} {r : RoleId} {role : Role}
    (hrole : db.liveRole r = some role)
    (hclear : ∀ role, RoleChange (some role) (flag.set false role))
    (hset : RoleChange (some role) (flag.set true role)) :
    RoleWrites db (moveFlag db flag r role) := by
  unfold Auth.moveFlag
  split
  · exact .refl
  · rename_i hflag
    unfold clearFlag
    cases hfind : db.findRole flag.get with
    | none => exact .single hrole hset
    | some found =>
      obtain ⟨c, current⟩ := found
      obtain ⟨hcurrent, hget⟩ := Directory.liveRole_of_findRole hfind
      -- The role that loses the flag is not the one that gets it.
      have hne : r ≠ c := by
        rintro rfl
        rw [hrole] at hcurrent
        cases hcurrent
        exact hflag hget
      refine .write (.single hcurrent (hclear current)) ?_
      rw [Directory.setRole_role, Function.update_of_ne hne,
        (Directory.liveRole_eq_some.mp hrole).1]
      exact hset

theorem setDefaultRole {r : RoleId} (h : Auth.setDefaultRole db r = .ok db') :
    RoleWrites db db' := by
  simp only [Auth.setDefaultRole, bind_eq_ok, getRole_eq_ok, check_eq_ok] at h
  obtain ⟨role, hrole, _, hcan, _, hactive, h⟩ := h
  cases h
  exact moveFlag hrole .clearDefault (.markDefault hcan hactive)

theorem setParticipantDefaultRole {r : RoleId}
    (h : Auth.setParticipantDefaultRole db r = .ok db') : RoleWrites db db' := by
  simp only [Auth.setParticipantDefaultRole, bind_eq_ok, getRole_eq_ok, check_eq_ok] at h
  obtain ⟨role, hrole, _, hcan, _, hactive, _, hgrantable, h⟩ := h
  cases h
  exact moveFlag hrole .clearParticipant (.markParticipant hcan hactive hgrantable)

theorem patchFields {rows : List Assignment} {r : RoleId} {e : RoleEdits}
    (h : Auth.patchFields db rows r e = .ok db') : RoleWrites db db' := by
  simp only [Auth.patchFields, bind_eq_ok, getRole_eq_ok] at h
  obtain ⟨role, hrole, h⟩ := h
  split at h
  · cases h
    exact .refl
  · simp only [bind_eq_ok] at h
    obtain ⟨role', hupdate, h⟩ := h
    cases h
    exact .single hrole (.edit hupdate)

theorem patchActive {rows : List Assignment} {r : RoleId} {isActive : Option Bool}
    (h : Auth.patchActive db rows r isActive = .ok db') : RoleWrites db db' := by
  cases isActive with
  | none =>
    cases h
    exact .refl
  | some isActive =>
    simp only [Auth.patchActive, bind_eq_ok, getRole_eq_ok] at h
    obtain ⟨role, hrole, role', hset, h⟩ := h
    cases h
    exact .single hrole (.activate hset)

theorem patchDefault {r : RoleId} {isDefault : Option Bool}
    (h : Auth.patchDefault db r isDefault = .ok db') : RoleWrites db db' := by
  match isDefault with
  | none =>
    cases h
    exact .refl
  | some true => exact setDefaultRole h
  | some false =>
    simp only [Auth.patchDefault, bind_eq_ok] at h
    obtain ⟨_, -, _, -, h⟩ := h
    cases h
    exact .refl

theorem patchParticipantDefault {r : RoleId} {isDefault : Option Bool}
    (h : Auth.patchParticipantDefault db r isDefault = .ok db') : RoleWrites db db' := by
  match isDefault with
  | none =>
    cases h
    exact .refl
  | some true => exact setParticipantDefaultRole h
  | some false =>
    simp only [Auth.patchParticipantDefault, bind_eq_ok] at h
    obtain ⟨_, -, _, -, h⟩ := h
    cases h
    exact .refl

theorem patchRole {rows : List Assignment} {r : RoleId} {payload : RoleUpdate}
    (h : Auth.patchRole db rows r payload = .ok db') : RoleWrites db db' := by
  simp only [Auth.patchRole, bind_eq_ok] at h
  obtain ⟨_, hfields, _, hactive, _, hdefault, hparticipant⟩ := h
  exact (((patchFields hfields).trans (patchActive hactive)).trans (patchDefault hdefault)).trans
    (patchParticipantDefault hparticipant)

theorem removeRole {now : Nat} {rows : List Assignment} {r : RoleId}
    (h : Auth.removeRole db now rows r = .ok db') : RoleWrites db db' := by
  simp only [Auth.removeRole, bind_eq_ok, getRole_eq_ok] at h
  obtain ⟨role, hrole, role', hdelete, h⟩ := h
  cases h
  exact .single hrole (.delete hdelete)

theorem restoreRole {now window : Nat} {r : RoleId}
    (h : Auth.restoreRole db now window r = .ok db') : RoleWrites db db' := by
  unfold Auth.restoreRole at h
  split at h
  · cases h
  · rename_i role hrole
    simp only [bind_eq_ok, check_eq_ok] at h
    obtain ⟨_, hsys, _, -, h⟩ := h
    cases h
    refine .write .refl ?_
    rw [(Option.filter_eq_some_iff.mp hrole).1]
    exact .restore (by simpa using hsys)

end RoleWrites

end RedTeaming.Auth
