import RedTeaming.Auth.AccountEffects
import RedTeaming.Library.Transition

/-!
# `RedTeaming.Auth.Escalation`: no privilege escalation

A user escalates in a step that gives it a non-delegable permission, or the global `admin` or
`owner` role. `no_escalation` says that, from the synced system roles, only a caller with
`users:manage_admin` takes such a step.

The invariant is about role rows alone (`RoleOk`). A system role carries exactly the permissions
of its spec, is live, and, when it is `admin` or `owner`, is active and no default. A custom role
has no reserved name and no non-delegable permission. Every change of a row keeps it
(`RoleOk.of_change`). Under the invariant a non-delegable permission is the same as the `admin`
role (`mem_livePermissions_iff`), so a gain is always a gain of one of the two roles. What is left
is to read off, from `Effect`, who can be given them (`holds_cases`).
-/

set_option autoImplicit false

namespace RedTeaming.Auth

open RedTeaming.Library

/-- The slugs of two system roles differ. -/
theorem SystemRole.eq_of_value_eq {q r : SystemRole} (h : q.value = r.value) : q = r := by
  have hq := SystemRole.ofValue?_value q
  rw [h, SystemRole.ofValue?_value r] at hq
  exact (Option.some.inj hq).symm

/-- The slug of a system role is reserved. -/
theorem SystemRole.value_mem_reserved (q : SystemRole) : q.value ∈ reservedRoleNames :=
  List.mem_map_of_mem q.mem_all

/-- `admin` carries every non-delegable permission. -/
theorem mem_admin_of_nonDelegable {p : Permission} (h : p ∈ nonDelegablePermissions) :
    p ∈ SystemRole.admin.permissions := by
  simp only [nonDelegablePermissions, List.mem_cons, List.not_mem_nil, or_false] at h
  rcases h with rfl | rfl | rfl <;> decide

/-- What holds of each role row from the first sync on. -/
structure RoleOk (role : Role) : Prop where
  system : role.isSystem = true → ∃ q : SystemRole, role.name = q.value ∧
    role.permissions = q.permissions ∧ role.deletedAt = none ∧
    (q ∈ nonDeactivatableSystemRoles → role.isActive = true ∧ role.isDefault = false)
  custom : role.isSystem = false → role.name ∉ reservedRoleNames ∧
    ∀ p ∈ role.permissions, p ∉ nonDelegablePermissions

/-- Each row of the role table is as the sync and the guards leave it. -/
def RolesOk (db : Directory) : Prop := ∀ r role, db.role r = some role → RoleOk role

namespace RoleOk
variable {role : Role}

/-- The row of a reserved name is the one of its system role. -/
theorem of_name (h : RoleOk role) {q : SystemRole} (hname : role.name = q.value) :
    role.isSystem = true ∧ role.permissions = q.permissions ∧ role.deletedAt = none ∧
      (q ∈ nonDeactivatableSystemRoles → role.isActive = true ∧ role.isDefault = false) := by
  cases hsys : role.isSystem with
  | false =>
    refine absurd ?_ (h.custom hsys).1
    rw [hname]
    exact q.value_mem_reserved
  | true =>
    obtain ⟨q', hname', hperm, hlive, hprotected⟩ := h.system hsys
    obtain rfl := SystemRole.eq_of_value_eq (hname.symm.trans hname')
    exact ⟨rfl, hperm, hlive, hprotected⟩

/-- A role with a non-delegable permission is `admin`. -/
theorem name_eq_admin (h : RoleOk role) {p : Permission} (hp : p ∈ role.permissions)
    (hnd : p ∈ nonDelegablePermissions) : role.name = SystemRole.admin.value := by
  cases hsys : role.isSystem with
  | false => exact absurd hnd ((h.custom hsys).2 p hp)
  | true =>
    obtain ⟨q, hname, hperm, -, -⟩ := h.system hsys
    rw [hperm] at hp
    rw [hname, eq_admin_of_nonDelegable hp hnd]

/-- The row that the sync creates. -/
theorem systemRoleRow (q : SystemRole) : RoleOk (systemRoleRow q) where
  system _ := by
    refine ⟨q, rfl, rfl, rfl, ?_⟩
    intro hq
    refine ⟨rfl, ?_⟩
    cases q with
    | admin => rfl
    | owner => rfl
    | redTeamer => exact absurd hq (by decide)
    | annotator => exact absurd hq (by decide)
    | viewer => exact absurd hq (by decide)
  custom h := nomatch h

/-- A guard that spares the protected system roles. -/
theorem not_protected_of_guard {q : SystemRole} (hname : role.name = q.value)
    (hq : q ∈ nonDeactivatableSystemRoles) :
    role.name ∈ nonDeactivatableSystemRoles.map SystemRole.value := by
  rw [hname]
  exact List.mem_map_of_mem hq

/-- Every change of a row keeps the invariant of rows. -/
theorem of_change {old : Option Role} {new : Role} (hchange : RoleChange old new)
    (h : ∀ role, old = some role → RoleOk role) : RoleOk new := by
  cases hchange with
  | create form hperm hname =>
    exact ⟨fun hsys => (nomatch hsys), fun _ => ⟨hname, validateCustomPermissions_spec hperm⟩⟩
  | @edit _ role _ e hedit =>
    obtain ⟨hsys, rfl, hnew⟩ := updateRole_spec hedit
    have hrole := (h role rfl).custom hsys
    refine ⟨fun hsys' => ?_, fun _ => ⟨hrole.1, ?_⟩⟩
    · rw [show (e.applyTo role).isSystem = role.isSystem from rfl, hsys] at hsys'
      cases hsys'
    · intro p hp
      cases hpermissions : e.permissions with
      | none =>
        rw [RoleEdits.applyTo, hpermissions] at hp
        exact hrole.2 p hp
      | some permissions =>
        rw [RoleEdits.applyTo, hpermissions] at hp
        exact hnew permissions hpermissions p hp
  | @activate _ _ role _ isActive hset =>
    obtain ⟨rfl, hguard⟩ := setRoleActive_spec hset
    refine ⟨fun hsys => ?_, (h role rfl).custom⟩
    obtain ⟨q, hname, hperm, hlive, hprotected⟩ := (h role rfl).system hsys
    refine ⟨q, hname, hperm, hlive, fun hq => ⟨?_, (hprotected hq).2⟩⟩
    -- Only a switch-off could break the row, and its guard spares the protected roles.
    cases isActive with
    | true => rfl
    | false =>
      have hdeactivatable := hguard (hprotected hq).1 rfl
      rw [assertDeactivatable_eq_ok] at hdeactivatable
      exact absurd ⟨hsys, not_protected_of_guard hname hq⟩ hdeactivatable.1
  | clearDefault role =>
    refine ⟨fun hsys => ?_, (h role rfl).custom⟩
    obtain ⟨q, hname, hperm, hlive, hprotected⟩ := (h role rfl).system hsys
    exact ⟨q, hname, hperm, hlive, fun hq => ⟨(hprotected hq).1, rfl⟩⟩
  | clearParticipant role => exact ⟨(h role rfl).system, (h role rfl).custom⟩
  | @markDefault role hcan hactive =>
    refine ⟨fun hsys => ?_, (h role rfl).custom⟩
    obtain ⟨q, hname, hperm, hlive, -⟩ := (h role rfl).system hsys
    refine ⟨q, hname, hperm, hlive, fun hq => absurd hcan ?_⟩
    have hmem := not_protected_of_guard hname hq
    have hsys' : role.isSystem = true := hsys
    simp [assertCanBeDefault, check, hsys', hmem, -List.mem_map]
  | @markParticipant role _ _ _ => exact ⟨(h role rfl).system, (h role rfl).custom⟩
  | @delete _ _ _ role _ hdelete =>
    obtain ⟨hsys, -, -, rfl⟩ := deleteRole_spec hdelete
    refine ⟨fun hsys' => ?_, (h role rfl).custom⟩
    rw [show ({ role with deletedAt := _ } : Role).isSystem = role.isSystem from rfl,
      hsys] at hsys'
    cases hsys'
  | @restore role hsys =>
    refine ⟨fun hsys' => ?_, (h role rfl).custom⟩
    rw [show ({ role with deletedAt := _ } : Role).isSystem = role.isSystem from rfl,
      hsys] at hsys'
    cases hsys'

end RoleOk

namespace RolesOk
variable {db db' : Directory}

theorem setRole (h : RolesOk db) {r : RoleId} {role : Role} (hrole : RoleOk role) :
    RolesOk (db.setRole r role) :=
  forall_update h hrole

theorem setUser (h : RolesOk db) (u : UserId) (row : User) : RolesOk (db.setUser u row) := h

theorem of_writes (h : RolesOk db) (hwrites : RoleWrites db db') : RolesOk db' :=
  hwrites.forall_role (fun _ _ => RoleOk.of_change) h

/-- The sync of one system role. -/
theorem syncRole (h : RolesOk db) (fresh : SystemRole → RoleId) (q : SystemRole) :
    RolesOk (syncRole fresh db q) := by
  unfold Auth.syncRole
  split
  · exact h.setRole (.systemRoleRow q)
  · rename_i id role hfind
    obtain ⟨hlive, hname⟩ := Directory.liveRole_of_findRole hfind
    have hrole := h id role (Directory.liveRole_eq_some.mp hlive).1
    obtain ⟨-, -, hdeleted, hprotected⟩ := hrole.of_name (beq_iff_eq.mp hname)
    refine h.setRole ⟨fun _ => ?_, fun hsys => (nomatch hsys)⟩
    exact ⟨q, beq_iff_eq.mp hname, rfl, hdeleted, hprotected⟩

/-- The sync of all system roles. -/
theorem syncSystemRoles (h : RolesOk db) (fresh : SystemRole → RoleId) :
    RolesOk (syncSystemRoles fresh db) := by
  unfold Auth.syncSystemRoles
  generalize SystemRole.all = qs
  induction qs generalizing db with
  | nil => exact h
  | cons q qs ih => exact ih (h.syncRole fresh q)

end RolesOk

/-! ### Who holds what -/

/-- The effective global permissions of a live user, and none of any other. -/
def livePermissions (db : Directory) (u : UserId) : Finset Permission :=
  match db.liveUser u with
  | some row => effectivePermissions (db.liveRoles row)
  | none => ∅

/-- A live user holds the global role with the slug of a system role. -/
def HoldsRole (db : Directory) (u : UserId) (q : SystemRole) : Prop :=
  ∃ row, db.liveUser u = some row ∧ ∃ r ∈ row.roleIds, ∃ role, db.liveRole r = some role ∧
    role.name = q.value

/-- A permission of a live user is one of a live, active role it holds. -/
theorem mem_livePermissions {db : Directory} {u : UserId} {p : Permission} :
    p ∈ livePermissions db u ↔ ∃ row, db.liveUser u = some row ∧ ∃ r ∈ row.roleIds, ∃ role,
      db.liveRole r = some role ∧ role.isActive = true ∧ p ∈ role.permissions := by
  unfold livePermissions
  cases hrow : db.liveUser u with
  | none => simp
  | some row =>
    simp only [mem_effectivePermissions, Directory.liveRoles, List.mem_filterMap,
      Option.some.injEq, exists_eq_left', Role.mem_grants]
    constructor
    · rintro ⟨role, ⟨r, hr, hrole⟩, -, hactive, hp⟩
      exact ⟨r, hr, role, hrole, hactive, hp⟩
    · rintro ⟨r, hr, role, hrole, hactive, hp⟩
      exact ⟨role, ⟨r, hr, hrole⟩, (Directory.liveRole_eq_some.mp hrole).2, hactive, hp⟩

/-- A live user has a non-delegable permission exactly when it holds `admin`. -/
theorem mem_livePermissions_iff {db : Directory} (h : RolesOk db) {u : UserId} {p : Permission}
    (hnd : p ∈ nonDelegablePermissions) : p ∈ livePermissions db u ↔ HoldsRole db u .admin := by
  rw [mem_livePermissions]
  constructor
  · rintro ⟨row, hrow, r, hr, role, hrole, -, hp⟩
    have hok := h r role (Directory.liveRole_eq_some.mp hrole).1
    exact ⟨row, hrow, r, hr, role, hrole, hok.name_eq_admin hp hnd⟩
  · rintro ⟨row, hrow, r, hr, role, hrole, hname⟩
    have hok := h r role (Directory.liveRole_eq_some.mp hrole).1
    obtain ⟨-, hperm, -, hprotected⟩ := hok.of_name hname
    refine ⟨row, hrow, r, hr, role, hrole, (hprotected (by decide)).1, ?_⟩
    rw [hperm]
    exact mem_admin_of_nonDelegable hnd

/-- A user gains a non-delegable permission, or the `admin` or `owner` role. -/
def Escalates (db db' : Directory) : Prop :=
  ∃ u, (∃ p ∈ nonDelegablePermissions, p ∈ livePermissions db' u ∧ p ∉ livePermissions db u) ∨
    ∃ q, (q = .admin ∨ q = .owner) ∧ HoldsRole db' u q ∧ ¬ HoldsRole db u q

/-! ### Role writes give nobody a protected role -/

/-- A change that leaves a system role is one of a system role with the same name. -/
theorem RoleChange.isSystem {old : Option Role} {new : Role} (h : RoleChange old new)
    (hsys : new.isSystem = true) :
    ∃ role, old = some role ∧ role.isSystem = true ∧ role.name = new.name := by
  cases h with
  | create form hperm hname => cases hsys
  | @edit _ role _ e hedit =>
    obtain ⟨hcustom, rfl, -⟩ := updateRole_spec hedit
    rw [show (e.applyTo role).isSystem = role.isSystem from rfl, hcustom] at hsys
    cases hsys
  | @activate _ _ role _ isActive hset =>
    obtain ⟨rfl, -⟩ := setRoleActive_spec hset
    exact ⟨role, rfl, hsys, rfl⟩
  | clearDefault role => exact ⟨role, rfl, hsys, rfl⟩
  | clearParticipant role => exact ⟨role, rfl, hsys, rfl⟩
  | @markDefault role _ _ => exact ⟨role, rfl, hsys, rfl⟩
  | @markParticipant role _ _ _ => exact ⟨role, rfl, hsys, rfl⟩
  | @delete _ _ _ role _ hdelete =>
    obtain ⟨-, -, -, rfl⟩ := deleteRole_spec hdelete
    exact ⟨role, rfl, hsys, rfl⟩
  | @restore role _ => exact ⟨role, rfl, hsys, rfl⟩

/-- A system role after some writes was one before them, under the same name. -/
theorem RoleWrites.isSystem {db db' : Directory} (h : RoleWrites db db') {r : RoleId}
    {role' : Role} (hrole : db'.role r = some role') (hsys : role'.isSystem = true) :
    ∃ role, db.role r = some role ∧ role.isSystem = true ∧ role.name = role'.name := by
  induction h generalizing role' with
  | refl => exact ⟨role', hrole, hsys, rfl⟩
  | @write db₁ r₁ role₁ _ hchange ih =>
    rw [Directory.setRole_role, update_some_eq_some] at hrole
    rcases hrole with ⟨rfl, rfl⟩ | ⟨-, hrole⟩
    · obtain ⟨role₂, hrole₂, hsys₂, hname₂⟩ := hchange.isSystem hsys
      obtain ⟨role, hrole, hsys', hname⟩ := ih hrole₂ hsys₂
      exact ⟨role, hrole, hsys', hname.trans hname₂⟩
    · exact ih hrole hsys

/-- Who holds a system role after some role writes held it before them. -/
theorem RoleWrites.holdsRole {db db' : Directory} (h : RoleWrites db db') (hok : RolesOk db)
    {u : UserId} {q : SystemRole} (hholds : HoldsRole db' u q) : HoldsRole db u q := by
  obtain ⟨row, hrow, r, hr, role', hrole', hname⟩ := hholds
  rw [Directory.liveRole_eq_some] at hrole'
  have hsys := ((hok.of_writes h r role' hrole'.1).of_name hname).1
  obtain ⟨role, hrole, -, hname'⟩ := h.isSystem hrole'.1 hsys
  have hlive := ((hok r role hrole).of_name (hname'.trans hname)).2.2.1
  rw [Directory.liveUser, h.user_eq] at hrow
  refine ⟨row, hrow, r, hr, role, Directory.liveRole_eq_some.mpr ⟨hrole, ?_⟩, hname'.trans hname⟩
  rw [Role.deleted, hlive]
  rfl

namespace Accounts

/-- The caller of a request may manage admins. -/
def ByAdminManager (q : Request) : Prop :=
  ∃ caller, q.caller? = some caller ∧ .usersManageAdmin ∈ caller.permissions

/-- A step escalates a user only for a caller who may manage admins. -/
def NoEscalation (env : Env) (s : Accounts) (l : Label) : Prop :=
  ∀ s', s.step env l = some s' → Escalates s.db s'.db → ByAdminManager l.request

/-- The role table as the first sync leaves it. The users are arbitrary. -/
def Synced (s : Accounts) : Prop :=
  ∃ fresh db, Function.Injective fresh ∧ (∀ r, db.role r = none) ∧
    s.db = syncSystemRoles fresh db

theorem Synced.rolesOk {s : Accounts} (h : Synced s) : RolesOk s.db := by
  obtain ⟨fresh, db, -, hnone, hdb⟩ := h
  rw [hdb]
  refine RolesOk.syncSystemRoles ?_ fresh
  intro r role hrole
  rw [hnone r] at hrole
  cases hrole

section
variable {env : Env} {s s' : Accounts}

/-- A write of a user row lets that user alone hold other roles. -/
theorem holdsRole_setUser {db : Directory} {u v : UserId} {new : User} {q : SystemRole}
    (h : HoldsRole (db.setUser v new) u q) :
    HoldsRole db u q ∨ u = v ∧ new.deletedAt = none ∧ ∃ r ∈ new.roleIds, ∃ role,
      db.liveRole r = some role ∧ role.name = q.value := by
  obtain ⟨row, hrow, hroles⟩ := h
  rw [Directory.liveUser_eq_some, Directory.setUser_user, update_some_eq_some] at hrow
  obtain ⟨⟨rfl, rfl⟩ | ⟨-, hrow⟩, hlive⟩ := hrow
  · refine Or.inr ⟨rfl, ?_, hroles⟩
    simpa [User.deleted] using hlive
  · exact Or.inl ⟨row, Directory.liveUser_eq_some.mpr ⟨hrow, hlive⟩, hroles⟩

/-- A live row that keeps its roles gains none. -/
theorem holdsRole_of_roleIds_eq {u v : UserId} {old new : User} {q : SystemRole}
    (hold : s.db.liveUser v = some old) (hroles : new.roleIds = old.roleIds)
    (h : HoldsRole (s.db.setUser v new) u q) : HoldsRole s.db u q := by
  rcases holdsRole_setUser h with h | ⟨rfl, -, hnew⟩
  · exact h
  · rw [hroles] at hnew
    exact ⟨old, hold, hnew⟩

/-- A protected role among assignable ones takes a caller who may manage admins, unless the row
had it. -/
theorem manageAdmin_of_assignable {caller : SessionUser} {old roleIds : List RoleId}
    (h : s.Assignable caller old roleIds) {r : RoleId} (hr : r ∈ roleIds) {role : Role}
    (hrole : s.db.liveRole r = some role) {q : SystemRole}
    (hq : q ∈ nonDeactivatableSystemRoles) (hname : role.name = q.value) :
    .usersManageAdmin ∈ caller.permissions ∨ r ∈ old := by
  rcases h r hr with ⟨role', hrole', helevated⟩ | hold
  · rw [(Directory.liveRole_eq_some.mp hrole).1] at hrole'
    cases hrole'
    exact Or.inl (helevated q hq hname)
  · exact Or.inr hold

/-- Who holds a protected role after a request held it before, or was given it by a caller who
may manage admins. -/
theorem holds_cases {fresh : Fresh} {q : Request} {db' : Directory}
    (heffect : Effect env s fresh q db') (hok : RolesOk s.db) {u : UserId} {role : SystemRole}
    (hprotected : role ∈ nonDeactivatableSystemRoles) (h : HoldsRole db' u role) :
    HoldsRole s.db u role ∨ ByAdminManager q := by
  cases heffect with
  | none => exact Or.inl h
  | provision _ hlive hstatus hrole =>
    rcases holdsRole_setUser h with h | ⟨-, -, r, hr, row, hrow, hname⟩
    · exact Or.inl h
    · -- The default role is no protected one.
      obtain ⟨r', row', hids, hrow', hdefault⟩ := hrole
      rw [hids, List.mem_singleton] at hr
      subst hr
      rw [hrow] at hrow'
      cases hrow'
      have hno :=
        ((hok r row (Directory.liveRole_eq_some.mp hrow).1).of_name hname).2.2.2 hprotected
      rw [hno.2] at hdefault
      cases hdefault
  | @invite inviter _ _ _ hlive hstatus hroles =>
    rcases holdsRole_setUser h with h | ⟨-, -, r, hr, row, hrow, hname⟩
    · exact Or.inl h
    · rcases manageAdmin_of_assignable hroles hr hrow hprotected hname with hmanage | hold
      · exact Or.inr ⟨inviter, rfl, hmanage⟩
      · cases hold
  | onboard _ hold hwaiting hstatus hroles hdeleted =>
    exact Or.inl (holdsRole_of_roleIds_eq hold hroles h)
  | verify hfind hpending hold hstatus hroles hdeleted =>
    exact Or.inl (holdsRole_of_roleIds_eq hold hroles h)
  | credential _ hold hstatus hroles hdeleted =>
    exact Or.inl (holdsRole_of_roleIds_eq hold hroles h)
  | status hcaller hself hold hunblocked hstatus hroles hdeleted =>
    exact Or.inl (holdsRole_of_roleIds_eq hold hroles h)
  | @update caller _ _ old _ hold hstatus hroles hdeleted =>
    rcases holdsRole_setUser h with h | ⟨rfl, -, r, hr, row, hrow, hname⟩
    · exact Or.inl h
    · rcases manageAdmin_of_assignable hroles hr hrow hprotected hname with hmanage | hmem
      · exact Or.inr ⟨caller, rfl, hmanage⟩
      · exact Or.inl ⟨old, hold, r, hmem, row, hrow, hname⟩
  | delete hold hstatus hdeleted =>
    rcases holdsRole_setUser h with h | ⟨-, hlive, -⟩
    · exact Or.inl h
    · rw [hdeleted] at hlive
      cases hlive
  | @restore caller _ old _ hold hunblocked hstatus hroles =>
    rcases holdsRole_setUser h with h | ⟨rfl, -, r, hr, row, hrow, hname⟩
    · exact Or.inl h
    · rw [hroles] at hr
      have hheld : row ∈ s.db.liveRoles old := List.mem_filterMap.mpr ⟨r, hr, hrow⟩
      exact Or.inr ⟨caller, rfl, manageAdmin_of_unblocked hunblocked hheld hprotected hname⟩
  | roles _ hwrites => exact Or.inl (hwrites.holdsRole hok h)

/-- A request keeps the invariant of role rows. -/
theorem rolesOk_of_effect {fresh : Fresh} {q : Request} {db' : Directory}
    (heffect : Effect env s fresh q db') (hok : RolesOk s.db) : RolesOk db' := by
  cases heffect with
  | none => exact hok
  | roles _ hwrites => exact hok.of_writes hwrites
  | provision | invite | onboard | verify | credential | status | update | delete | restore =>
    exact hok.setUser _ _

/-- A step keeps the invariant of role rows. -/
theorem rolesOk_step {l : Label} (hok : RolesOk s.db) (h : s.step env l = some s') :
    RolesOk s'.db := by
  obtain ⟨hunused, hperform | rfl⟩ := step_cases h
  · exact rolesOk_of_effect (perform_effect hunused hperform) hok
  · exact hok

/-- A step from a state that meets the invariant escalates only for a caller who may manage
admins. -/
theorem noEscalation_of_rolesOk {l : Label} (hok : RolesOk s.db) : NoEscalation env s l := by
  rintro s' hstep ⟨u, hgain⟩
  have hgained : ∃ q ∈ nonDeactivatableSystemRoles, HoldsRole s'.db u q ∧
      ¬ HoldsRole s.db u q := by
    rcases hgain with ⟨p, hnd, hp, hnp⟩ | ⟨q, hq, hholds, hnot⟩
    · rw [mem_livePermissions_iff (rolesOk_step hok hstep) hnd] at hp
      rw [mem_livePermissions_iff hok hnd] at hnp
      exact ⟨.admin, by decide, hp, hnp⟩
    · refine ⟨q, ?_, hholds, hnot⟩
      rcases hq with rfl | rfl <;> decide
  obtain ⟨q, hprotected, hholds, hnot⟩ := hgained
  obtain ⟨hunused, hperform | rfl⟩ := step_cases hstep
  · exact (holds_cases (perform_effect hunused hperform) hok hprotected hholds).resolve_left hnot
  · exact absurd hholds hnot

/-- From the synced system roles, every step of every run escalates a user only for a caller whose
session has `users:manage_admin`. -/
theorem no_escalation (env : Env) {s : Accounts} (hsynced : Synced s) (ls : List Label) :
    Along (step env) (NoEscalation env) s ls :=
  along_of_invariant (fun _ _ _ => rolesOk_step) (fun _ _ => noEscalation_of_rolesOk)
    hsynced.rolesOk

end

theorem deployed_synced : Synced deployed := by
  refine ⟨systemRoleId, unsynced, ?_, fun _ => rfl, rfl⟩
  intro q r
  cases q <;> cases r <;> decide

/-- The admin invites an account as an admin. -/
def inviteAdmin : Label where
  request := .inviteToPlatform rootSession "ada@example.com" ⟨[1], by decide⟩
  fresh := { user := 2, role := 6, token := "link" }

/-- The invited account holds `admin`, and its inviter may manage admins. -/
theorem no_escalation_of_inviteAdmin :
    (run (step plainEnv) deployed [inviteAdmin]).any
        (fun s => (s.db.liveUser 2).any fun row => row.roleIds == [1]) = true ∧
      Along (step plainEnv) (NoEscalation plainEnv) deployed [inviteAdmin] :=
  ⟨by decide, no_escalation plainEnv deployed_synced [inviteAdmin]⟩

end Accounts

end RedTeaming.Auth
