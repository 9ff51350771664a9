import Mathlib.Logic.Relation
import RedTeaming.Auth.RequestWrites
import RedTeaming.Membership.System

/-!
# `RedTeaming.Membership.RoleActivity`: every live user holds a live, active role

`ActivityStep` is what one write of the role table does to the roles that are live and active. It
keeps them all, or it takes one of them away, and then the sole-role guard has counted no user and
no group member that this would strand. A request on the role table is a sequence of such steps
(`activitySteps`). A sync keeps the active roles (`activityStep_sync`).

`UsersOk` is the invariant of the global roles. A role write keeps it because of the guard
(`UsersOk.activityStep`). A user write keeps it because new roles are active, and because
`restoreUser` looks at the roles again (`UsersOk.userWrite`). `active_role_held` is the result.
-/

set_option autoImplicit false

namespace RedTeaming.Membership

open RedTeaming.Auth
open RedTeaming.Library

/-! ### Writes of the role table -/

/-- What one write of the role table does to the live, active roles. -/
inductive ActivityStep (rows : List Assignment) (db db' : Directory) : Prop
  /-- Each active role stays one. -/
  | keeps (husers : db'.user = db.user)
      (h : ∀ r, db.activeRole r = true → db'.activeRole r = true)
  /-- One role is lost. It is no live user's, and no live member's, only active role. -/
  | loses (r : RoleId) (husers : db'.user = db.user)
      (h : ∀ r', r' ≠ r → db.activeRole r' = true → db'.activeRole r' = true)
      (hsole : countUsersSolelyHolding db r = 0)
      (hmembers : countMembersSolelyHolding db rows r = 0)

section
variable {rows : List Assignment} {db db' : Directory} {r : RoleId}

/-- The activity of a role after a write of a row. -/
theorem activeRole_setRole_of_ne {r' : RoleId} {role : Role} (h : r' ≠ r) :
    (db.setRole r role).activeRole r' = db.activeRole r' := by
  simp only [Directory.activeRole, Directory.liveRole, Directory.setRole_role,
    Function.update_of_ne h]

/-- The written row is active when it is live and has the flag. -/
theorem activeRole_setRole_self {role : Role} :
    (db.setRole r role).activeRole r = true ↔ role.deleted = false ∧ role.isActive = true := by
  rw [Directory.activeRole_eq_true]
  constructor
  · rintro ⟨role', hrole, hactive⟩
    obtain ⟨hrow, hlive⟩ := Directory.liveRole_eq_some.mp hrole
    rw [Directory.setRole_role, Function.update_self] at hrow
    cases hrow
    exact ⟨hlive, hactive⟩
  · rintro ⟨hlive, hactive⟩
    refine ⟨role, Directory.liveRole_eq_some.mpr ⟨?_, hlive⟩, hactive⟩
    rw [Directory.setRole_role, Function.update_self]

/-- A write that leaves the row active if it was keeps the active roles. -/
theorem ActivityStep.write {role : Role}
    (h : db.activeRole r = true → role.deleted = false ∧ role.isActive = true) :
    ActivityStep rows db (db.setRole r role) := by
  refine .keeps rfl fun r' hr' => ?_
  by_cases hne : r' = r
  · subst hne
    exact activeRole_setRole_self.mpr (h hr')
  · rw [activeRole_setRole_of_ne hne]
    exact hr'

/-- A write of a live row that keeps its activation. -/
theorem ActivityStep.edit {old new : Role} (hold : db.liveRole r = some old)
    (hdeleted : new.deletedAt = old.deletedAt) (hactive : new.isActive = old.isActive) :
    ActivityStep rows db (db.setRole r new) := by
  refine .write fun hr => ?_
  obtain ⟨role, hrole, hflag⟩ := Directory.activeRole_eq_true.mp hr
  rw [hold] at hrole
  cases hrole
  have hlive := (Directory.liveRole_eq_some.mp hold).2
  exact ⟨by rw [Role.deleted, hdeleted]; exact hlive, hactive.trans hflag⟩

/-- The sole-role guard passes when it counts nobody. -/
theorem assertRoleNotSole_eq_ok {users members : Nat} {role : Role} {action : String} {x : Unit} :
    assertRoleNotSole users members role action = .ok x ↔ users = 0 ∧ members = 0 := by
  by_cases husers : users = 0 <;> by_cases hmembers : members = 0 <;>
    simp [assertRoleNotSole, husers, hmembers]

/-- A write of a row after its guard counted nobody. -/
theorem ActivityStep.guarded {role : Role} (hsole : countUsersSolelyHolding db r = 0)
    (hmembers : countMembersSolelyHolding db rows r = 0) :
    ActivityStep rows db (db.setRole r role) := by
  refine .loses r rfl (fun r' hne hr' => ?_) hsole hmembers
  rw [activeRole_setRole_of_ne hne]
  exact hr'

theorem activityStep_createRole {form : RoleCreate} (hfresh : db.role r = none)
    (h : createRole db r form = .ok db') : ActivityStep rows db db' := by
  simp only [createRole, bind_eq_ok] at h
  obtain ⟨_, -, _, -, h⟩ := h
  cases h
  refine .write fun hr => ?_
  obtain ⟨role, hrole, -⟩ := Directory.activeRole_eq_true.mp hr
  have hrow := (Directory.liveRole_eq_some.mp hrole).1
  rw [hfresh] at hrow
  cases hrow

theorem activityStep_patchFields {e : RoleEdits} (h : patchFields db rows r e = .ok db') :
    ActivityStep rows db db' := by
  simp only [patchFields, bind_eq_ok, getRole_eq_ok] at h
  obtain ⟨role, hrole, h⟩ := h
  split at h
  · cases h
    exact .keeps rfl fun _ hr => hr
  · simp only [bind_eq_ok] at h
    obtain ⟨role', hupdate, h⟩ := h
    cases h
    obtain ⟨-, rfl, -⟩ := updateRole_spec hupdate
    exact .edit hrole rfl rfl

/-- A switch-off has passed the guard. -/
theorem guard_of_setRoleActive {users members : Nat} {role role' : Role}
    (h : setRoleActive users members role false = .ok role') (hactive : role.isActive = true) :
    users = 0 ∧ members = 0 := by
  simp only [setRoleActive, hactive, Bool.true_eq_false, if_false, Bool.not_false, if_true,
    bind_eq_ok] at h
  obtain ⟨_, -, _, hsole, -⟩ := h
  exact assertRoleNotSole_eq_ok.mp hsole

theorem activityStep_patchActive {isActive : Option Bool}
    (h : patchActive db rows r isActive = .ok db') : ActivityStep rows db db' := by
  match isActive with
  | none =>
    cases h
    exact .keeps rfl fun _ hr => hr
  | some isActive =>
    simp only [patchActive, bind_eq_ok, getRole_eq_ok] at h
    obtain ⟨role, hrole, role', hset, h⟩ := h
    cases h
    obtain ⟨rfl, -⟩ := setRoleActive_spec hset
    have hlive := (Directory.liveRole_eq_some.mp hrole).2
    by_cases hoff : role.isActive = true ∧ isActive = false
    · obtain ⟨hactive, rfl⟩ := hoff
      obtain ⟨hsole, hmembers⟩ := guard_of_setRoleActive hset hactive
      exact .guarded hsole hmembers
    · -- The role is switched on, or it was off.
      refine .write fun hr => ⟨hlive, ?_⟩
      obtain ⟨role'', hrole'', hflag⟩ := Directory.activeRole_eq_true.mp hr
      rw [hrole] at hrole''
      cases hrole''
      cases isActive with
      | true => rfl
      | false => exact absurd ⟨hflag, rfl⟩ hoff

/-- The move of a default flag keeps activations. -/
theorem activitySteps_moveFlag {flag : DefaultFlag} {role : Role}
    (hdeleted : ∀ b role, (flag.set b role).deletedAt = role.deletedAt)
    (hactive : ∀ b role, (flag.set b role).isActive = role.isActive)
    (hrole : db.liveRole r = some role) :
    Relation.ReflTransGen (ActivityStep rows) db (moveFlag db flag r role) := by
  unfold moveFlag
  split
  · exact .refl
  · rename_i hflag
    unfold clearFlag
    cases hfind : db.findRole flag.get with
    | none => exact .single (.edit hrole (hdeleted _ _) (hactive _ _))
    | some found =>
      obtain ⟨c, current⟩ := found
      obtain ⟨hcurrent, hget⟩ := Directory.liveRole_of_findRole hfind
      -- The role that loses the flag is not the one that gets it.
      have hne : r ≠ c := by
        rintro rfl
        rw [hrole] at hcurrent
        cases hcurrent
        exact hflag hget
      have hrole' : (db.setRole c (flag.set false current)).liveRole r = some role := by
        rw [Directory.liveRole, Directory.setRole_role, Function.update_of_ne hne]
        exact hrole
      have hclear : ActivityStep rows db (db.setRole c (flag.set false current)) :=
        .edit hcurrent (hdeleted _ _) (hactive _ _)
      exact .tail (.single hclear) (.edit hrole' (hdeleted _ _) (hactive _ _))

theorem activitySteps_patchDefault {isDefault : Option Bool}
    (h : patchDefault db r isDefault = .ok db') :
    Relation.ReflTransGen (ActivityStep rows) db db' := by
  match isDefault with
  | none =>
    cases h
    exact .refl
  | some true =>
    simp only [patchDefault, setDefaultRole, bind_eq_ok, getRole_eq_ok] at h
    obtain ⟨role, hrole, _, -, _, -, h⟩ := h
    cases h
    exact activitySteps_moveFlag (fun _ _ => rfl) (fun _ _ => rfl) hrole
  | some false =>
    simp only [patchDefault, bind_eq_ok] at h
    obtain ⟨_, -, _, -, h⟩ := h
    cases h
    exact .refl

theorem activitySteps_patchParticipantDefault {isDefault : Option Bool}
    (h : patchParticipantDefault db r isDefault = .ok db') :
    Relation.ReflTransGen (ActivityStep rows) db db' := by
  match isDefault with
  | none =>
    cases h
    exact .refl
  | some true =>
    simp only [patchParticipantDefault, setParticipantDefaultRole, bind_eq_ok,
      getRole_eq_ok] at h
    obtain ⟨role, hrole, _, -, _, -, _, -, h⟩ := h
    cases h
    exact activitySteps_moveFlag (fun _ _ => rfl) (fun _ _ => rfl) hrole
  | some false =>
    simp only [patchParticipantDefault, bind_eq_ok] at h
    obtain ⟨_, -, _, -, h⟩ := h
    cases h
    exact .refl

theorem activityStep_removeRole {now : Nat} (h : removeRole db now rows r = .ok db') :
    ActivityStep rows db db' := by
  simp only [removeRole, deleteRole, bind_eq_ok] at h
  obtain ⟨role, -, role', ⟨_, -, _, -, _, -, _, hsole, -⟩, h⟩ := h
  cases h
  obtain ⟨husers, hmembers⟩ := assertRoleNotSole_eq_ok.mp hsole
  exact .guarded husers hmembers

theorem activityStep_restoreRole {now window : Nat} (h : restoreRole db now window r = .ok db') :
    ActivityStep rows db db' := by
  unfold restoreRole at h
  split at h
  · cases h
  · rename_i role hrole
    obtain ⟨hrow, hrestorable⟩ := Option.filter_eq_some_iff.mp hrole
    simp only [bind_eq_ok] at h
    obtain ⟨_, -, _, -, h⟩ := h
    cases h
    refine .write fun hr => ?_
    -- The row was a tombstone, so the role was not active.
    obtain ⟨role', hrole', -⟩ := Directory.activeRole_eq_true.mp hr
    obtain ⟨hrow', hlive⟩ := Directory.liveRole_eq_some.mp hrole'
    rw [hrow] at hrow'
    cases hrow'
    have hnone : role.deletedAt = none := by simpa [Role.deleted] using hlive
    simp [restorable, hnone] at hrestorable

/-- A sync of one system role keeps activations. A row that it creates is active. -/
theorem activityStep_syncRole (fresh : SystemRole → RoleId) (q : SystemRole) :
    ActivityStep rows db (syncRole fresh db q) := by
  unfold syncRole
  cases hfind : db.roleByName q.value with
  | none => exact .write fun _ => ⟨rfl, rfl⟩
  | some found =>
    obtain ⟨hrole, -⟩ := Directory.liveRole_of_findRole hfind
    exact .edit hrole rfl rfl

theorem activitySteps_sync (fresh : SystemRole → RoleId) :
    Relation.ReflTransGen (ActivityStep rows) db (syncSystemRoles fresh db) := by
  unfold syncSystemRoles
  generalize SystemRole.all = qs
  induction qs generalizing db with
  | nil => exact .refl
  | cons q qs ih => exact .head (activityStep_syncRole fresh q) ih

/-- A request on the role table is a sequence of activity steps. -/
theorem activitySteps {env : Env} {s : Accounts} (h : s.RoleTableWrite env db') :
    Relation.ReflTransGen (ActivityStep s.assignments) s.db db' := by
  cases h with
  | create hfresh h => exact .single (activityStep_createRole hfresh h)
  | patch h =>
    simp only [patchRole, bind_eq_ok] at h
    obtain ⟨db₁, hfields, db₂, hactive, db₃, hdefault, hparticipant⟩ := h
    have hedited := (Relation.ReflTransGen.single (activityStep_patchFields hfields)).tail
      (activityStep_patchActive hactive)
    exact (hedited.trans (activitySteps_patchDefault hdefault)).trans
      (activitySteps_patchParticipantDefault hparticipant)
  | remove h => exact .single (activityStep_removeRole h)
  | restore h => exact .single (activityStep_restoreRole h)

/-! ### Global roles -/

/-- The invariant of the global roles: a user has each role once, and a live user has a role that
is live and active. -/
structure UsersOk (db : Directory) : Prop where
  unique : ∀ u row, db.user u = some row → row.roleIds.Nodup
  active : ∀ u row, db.liveUser u = some row → ∃ r ∈ row.roleIds, db.activeRole r = true

/-- Where the guard counts nobody, no live user has the role as its only active one. -/
theorem filter_ne_of_countUsers (h : countUsersSolelyHolding db r = 0) {u : UserId} {row : User}
    (hrow : db.liveUser u = some row) : row.roleIds.filter db.activeRole ≠ [r] := by
  intro hsole
  have hu : u ∈ db.userIds := by
    apply db.mem_userIds
    rw [(Directory.liveUser_eq_some.mp hrow).1]
    rfl
  have hnone := List.filter_eq_nil_iff.mp (List.length_eq_zero_iff.mp h) u hu
  simp [hrow, hsole] at hnone

/-- A role write keeps the invariant. Who loses a role has another one. -/
theorem UsersOk.activityStep (hok : UsersOk db) (h : ActivityStep rows db db') : UsersOk db' := by
  have hliveUser (husers : db'.user = db.user) (u : UserId) : db'.liveUser u = db.liveUser u := by
    rw [Directory.liveUser, husers, Directory.liveUser]
  cases h with
  | keeps husers hkeeps =>
    refine ⟨fun u row hrow => hok.unique u row (by rw [← husers]; exact hrow), ?_⟩
    intro u row hrow
    rw [hliveUser husers] at hrow
    obtain ⟨r, hr, hactive⟩ := hok.active u row hrow
    exact ⟨r, hr, hkeeps r hactive⟩
  | loses r husers hkeeps hsole hmembers =>
    refine ⟨fun u row hrow => hok.unique u row (by rw [← husers]; exact hrow), ?_⟩
    intro u row hrow
    rw [hliveUser husers] at hrow
    obtain ⟨r₁, hr₁, hactive₁⟩ := hok.active u row hrow
    have hnodup := hok.unique u row (Directory.liveUser_eq_some.mp hrow).1
    have hne : row.roleIds.filter db.activeRole ≠ [] :=
      List.ne_nil_of_mem (List.mem_filter.mpr ⟨hr₁, hactive₁⟩)
    obtain ⟨r₂, hr₂, hother⟩ :=
      exists_ne_of_nodup (hnodup.filter _) hne (filter_ne_of_countUsers hsole hrow)
    obtain ⟨hmem, hactive₂⟩ := List.mem_filter.mp hr₂
    exact ⟨r₂, hmem, hkeeps r₂ hother hactive₂⟩

/-- A sequence of role writes keeps the invariant. -/
theorem UsersOk.activitySteps (hok : UsersOk db)
    (h : Relation.ReflTransGen (ActivityStep rows) db db') : UsersOk db' := by
  induction h with
  | refl => exact hok
  | tail _ hstep ih => exact ih.activityStep hstep

/-- A write of a row with good roles keeps the invariant. -/
theorem UsersOk.setUser (hok : UsersOk db) {u : UserId} {new : User} (hnodup : new.roleIds.Nodup)
    (hactive : new.deleted = false → ∃ r ∈ new.roleIds, db.activeRole r = true) :
    UsersOk (db.setUser u new) := by
  constructor
  · intro v row hrow
    rw [Directory.setUser_user, update_some_eq_some] at hrow
    rcases hrow with ⟨-, rfl⟩ | ⟨-, hrow⟩
    · exact hnodup
    · exact hok.unique v row hrow
  · intro v row hrow
    rw [Directory.liveUser_eq_some, Directory.setUser_user, update_some_eq_some] at hrow
    rcases hrow with ⟨⟨-, rfl⟩ | ⟨-, hrow⟩, hlive⟩
    · exact hactive hlive
    · exact hok.active v row (Directory.liveUser_eq_some.mpr ⟨hrow, hlive⟩)

/-- What a request does to a user row keeps the invariant. -/
theorem UsersOk.userWrite {env : Env} {s : Accounts} {q : Request} {u : UserId} {new : User}
    (hok : UsersOk s.db) (h : s.UserWrite env q u new) : UsersOk (s.db.setUser u new) := by
  cases h with
  | kept hold hroles =>
    have hnodup := hok.unique _ _ (Directory.liveUser_eq_some.mp hold).1
    refine hok.setUser (by rw [hroles]; exact hnodup) fun _ => ?_
    rw [hroles]
    exact hok.active _ _ hold
  | created hnone hroles => exact hok.setUser hroles.nodup fun _ => hroles.active
  | updated hold hroles =>
    have hgranted := hroles (hok.unique _ _ (Directory.liveUser_eq_some.mp hold).1)
    exact hok.setUser hgranted.nodup fun _ => hgranted.active
  | restored hq hold hroles hactive =>
    -- The role may have been lost while the row was a tombstone. The restore has looked again.
    refine hok.setUser (by rw [hroles]; exact hok.unique _ _ hold) fun _ => ?_
    rw [hroles]
    exact hactive

theorem UsersOk.requestWrites {env : Env} {s s' : Accounts} {q : Request} (hok : UsersOk s.db)
    (h : s.RequestWrites env q s') : UsersOk s'.db := by
  cases h with
  | untouched hdb hrows =>
    rw [hdb]
    exact hok
  | user hwrite hdb hrows =>
    rw [hdb]
    exact hok.userWrite hwrite
  | roles hwrite hrows => exact hok.activitySteps (RedTeaming.Membership.activitySteps hwrite)
  | member hroles hdb hrow hassign =>
    rw [hdb]
    exact hok
  | newMember hroles hwrite hdb hassign =>
    rw [hdb]
    exact hok.userWrite hwrite

/-- A member request writes assignments only. -/
theorem perform_db {s s' : Accounts} {q : MemberRequest} (h : perform s q = .ok s') :
    s'.db = s.db := by
  cases q with
  | addMember caller o u roleIds =>
    simp only [perform, addGroupMember, bind_eq_ok] at h
    obtain ⟨_, -, _, -, _, -, _, -, h⟩ := h
    cases h
    rfl
  | setMemberRoles caller o u roleIds =>
    simp only [perform, updateGroupMember, bind_eq_ok] at h
    obtain ⟨_, -, _, -, _, -, _, -, h⟩ := h
    cases h
    rfl
  | removeMember caller o u =>
    simp only [perform, removeGroupMember, bind_eq_ok] at h
    obtain ⟨_, -, _, -, h⟩ := h
    cases h
    rfl
  | join caller group visible =>
    simp only [perform, joinEvaluationGroup, bind_eq_ok] at h
    obtain ⟨_, -, _, -, _, -, _, -, _, -, _, -, _, -, h⟩ := h
    cases h
    rfl

/-- Each step keeps the invariant. -/
theorem UsersOk.step {env : Env} {s s' : Accounts} {l : Label} (hok : UsersOk s.db)
    (h : step env s l = some s') : UsersOk s'.db := by
  rcases step_cases h with ⟨l', rfl, hunused, hperform⟩ | ⟨q, rfl, hperform⟩ |
    ⟨fresh, rfl, rfl⟩ | rfl
  · exact hok.requestWrites (Accounts.perform_writes hunused hperform)
  · rw [perform_db hperform]
    exact hok
  · have hsync : Relation.ReflTransGen (ActivityStep s.assignments) s.db
        (syncSystemRoles fresh s.db) := activitySteps_sync fresh
    exact hok.activitySteps hsync
  · exact hok

theorem SyncedPlatform.usersOk {s : Accounts} (h : SyncedPlatform s) : UsersOk s.db := by
  refine ⟨fun u row hrow => (h.userRoles u row hrow).1, fun u row hrow => ?_⟩
  obtain ⟨r, hr⟩ := List.exists_mem_of_ne_nil _ (h.users u row hrow)
  have hrole := (h.userRoles u row (Directory.liveUser_eq_some.mp hrow).1).2 r hr
  exact ⟨r, hr, h.activeRole hrole⟩

/-- From a synced platform, every live user holds a live, active role in every state that a run
reaches. -/
theorem active_role_held (env : Env) {s₀ s : Accounts} {ls : List Label}
    (hstart : SyncedPlatform s₀) (hrun : run (step env) s₀ ls = some s) :
    ∀ u row, s.db.liveUser u = some row →
      ∃ r ∈ row.roleIds, ∃ role, s.db.liveRole r = some role ∧ role.isActive = true := by
  have hstep : ∀ s l s', UsersOk s.db → step env s l = some s' → UsersOk s'.db :=
    fun _ _ _ hok h => hok.step h
  have hok := run_invariant (I := fun s => UsersOk s.db) hstep hstart.usersOk hrun
  intro u row hrow
  obtain ⟨r, hr, hactive⟩ := hok.active u row hrow
  exact ⟨r, hr, Directory.activeRole_eq_true.mp hactive⟩

end

/-! ### A run -/

/-- Role writes leave the user rows. -/
theorem user_eq_of_activitySteps {rows : List Assignment} {db db' : Directory}
    (h : Relation.ReflTransGen (ActivityStep rows) db db') : db'.user = db.user := by
  induction h with
  | refl => rfl
  | tail _ hstep ih =>
    cases hstep with
    | keeps husers _ => rw [husers, ih]
    | loses _ husers _ _ _ => rw [husers, ih]

/-- The deployment is a synced platform. Its one user is the admin. -/
theorem deployed_platform : SyncedPlatform Accounts.deployed := by
  have husers : Accounts.deployed.db.user = Accounts.unsynced.user := by
    have hsync : Relation.ReflTransGen (ActivityStep []) Accounts.unsynced Accounts.deployed.db :=
      activitySteps_sync Accounts.systemRoleId
    exact user_eq_of_activitySteps hsync
  have hrow (u : UserId) (row : User) (h : Accounts.deployed.db.user u = some row) :
      row.roleIds = [1] := by
    rw [husers] at h
    simp only [Accounts.unsynced, Option.ite_none_right_eq_some, Option.some.injEq] at h
    rw [← h.2]
  refine ⟨Accounts.deployed_synced, ?_, ?_, fun _ _ => List.nodup_nil, nofun⟩
  · intro u row h
    rw [hrow u row h]
    exact ⟨by decide, by decide⟩
  · intro u row h
    rw [hrow u row (Directory.liveUser_eq_some.mp h).1]
    exact List.cons_ne_nil 1 []

/-- A label of the admin's console, with unused ids. -/
def byRoot (request : Request) : Label :=
  .account { request, fresh := { user := 9, role := 9, token := "unused" } }

/-- Bob is invited with a custom role only. -/
def inviteAuditor : List Label :=
  [.account
    { request := .createRole Accounts.rootSession
        { name := "auditor", displayName := "Auditor", permissions := ["audit:read"] }
      fresh := { user := 9, role := 6, token := "unused" } },
    .account
    { request := .inviteToPlatform Accounts.rootSession "bob@example.com" (RoleIds.single 6)
      fresh := { user := 2, role := 9, token := "link" } }]

/-- The admin deactivates the role while Bob is deleted, and again tries to restore Bob before and
after the role is back. -/
def deactivateAuditor : List Label :=
  [byRoot (.updateRole Accounts.rootSession 6 { isActive := some false }),
    byRoot (.deleteUser Accounts.rootSession 2),
    byRoot (.updateRole Accounts.rootSession 6 { isActive := some false }),
    byRoot (.restoreUser Accounts.rootSession 2),
    byRoot (.updateRole Accounts.rootSession 6 { isActive := some true }),
    byRoot (.restoreUser Accounts.rootSession 2)]

/-- Bob comes back with an active role. -/
theorem active_role_held_deactivateAuditor :
    ∃ s, run (step Accounts.plainEnv) Accounts.deployed (inviteAuditor ++ deactivateAuditor) =
        some s ∧
      (s.db.liveUser 2).any (fun row => row.roleIds == [6]) = true ∧
      ∀ u row, s.db.liveUser u = some row →
        ∃ r ∈ row.roleIds, ∃ role, s.db.liveRole r = some role ∧ role.isActive = true := by
  have hany : (run (step Accounts.plainEnv) Accounts.deployed
      (inviteAuditor ++ deactivateAuditor)).any
        (fun s => (s.db.liveUser 2).any fun row => row.roleIds == [6]) = true := by
    decide +kernel
  obtain ⟨s, hrun, hbob⟩ := exists_run_of_any hany
  exact ⟨s, hrun, hbob, active_role_held Accounts.plainEnv deployed_platform hrun⟩

end RedTeaming.Membership
