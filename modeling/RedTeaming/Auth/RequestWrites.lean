import RedTeaming.Auth.Accounts
import RedTeaming.Library.Distinct

/-!
# `RedTeaming.Auth.RequestWrites`: what a request does to the holders of roles

`RequestWrites` lists what a successful request leaves of users, roles, and group assignments, as
far as the roles that somebody holds depend on it. A request writes at most one user row
(`UserWrite`), or the role table (`RoleTableWrite`), or the assignments of one user on one group.
New roles are always live and active: they come from `getRolesByIds` or are the default role.
A restored user has a live, active role, because `restoreUser` checks that.
-/

set_option autoImplicit false

namespace RedTeaming.Auth

open RedTeaming.Library

/-- A role with an id is active when its row is live and has the flag. -/
theorem Directory.activeRole_eq_true {db : Directory} {r : RoleId} :
    db.activeRole r = true ↔ ∃ role, db.liveRole r = some role ∧ role.isActive = true := by
  unfold Directory.activeRole
  cases db.liveRole r <;> simp

/-- Resolved roles are live and active, come once each, and are some when ids are given. -/
theorem getRolesByIds_active {db : Directory} {roleIds : List RoleId}
    {roles : List (RoleId × Role)} (h : getRolesByIds db roleIds = .ok roles) :
    (∀ x ∈ roles, db.activeRole x.1 = true) ∧ (roles.map Prod.fst).Nodup ∧
      (roleIds ≠ [] → roles ≠ []) := by
  simp only [getRolesByIds, bind_eq_ok, check_eq_ok, List.isEmpty_iff,
    List.filter_eq_nil_iff] at h
  obtain ⟨_, hknown, _, hactive, h⟩ := h
  cases h
  -- The resolved ids are the deduplicated ids of the payload.
  have hids : (roleIds.eraseDups.filterMap fun r => (db.liveRole r).map fun role =>
      (r, role)).map Prod.fst = roleIds.eraseDups.filter fun r => (db.liveRole r).isSome := by
    rw [List.map_filterMap, ← List.filterMap_eq_filter]
    refine List.filterMap_congr fun r _ => ?_
    cases hrole : db.liveRole r <;> simp [Option.guard, hrole]
  refine ⟨?_, ?_, ?_⟩
  · intro x hx
    have hflag : x.2.isActive = true := by simpa using hactive x hx
    obtain ⟨r, -, hr⟩ := List.mem_filterMap.mp hx
    obtain ⟨role, hrole, rfl⟩ := Option.map_eq_some_iff.mp hr
    exact Directory.activeRole_eq_true.mpr ⟨role, hrole, hflag⟩
  · rw [hids]
    exact (nodup_eraseDups roleIds).filter _
  · intro hne hnil
    obtain ⟨r, hr⟩ := List.exists_mem_of_ne_nil roleIds hne
    have hr' : r ∈ roleIds.eraseDups := List.mem_eraseDups.mpr hr
    have hlive : (db.liveRole r).isSome = true := by
      cases hrole : db.liveRole r with
      | none => exact absurd (by rw [hrole]; rfl) (hknown r hr')
      | some role => rfl
    rw [hnil, List.map_nil] at hids
    exact List.ne_nil_of_mem (List.mem_filter.mpr ⟨hr', hlive⟩) hids.symm

/-- Some ids are held once each, and one of them is of a live, active role. -/
structure Granted (db : Directory) (roleIds : List RoleId) : Prop where
  nodup : roleIds.Nodup
  active : ∃ r ∈ roleIds, db.activeRole r = true

/-- The roles that a payload of ids resolves to. -/
theorem granted_of_getRolesByIds {db : Directory} {ids : RoleIds} {roles : List (RoleId × Role)}
    (h : getRolesByIds db ids.1 = .ok roles) : Granted db (roles.map Prod.fst) := by
  obtain ⟨hactive, hnodup, hne⟩ := getRolesByIds_active h
  refine ⟨hnodup, ?_⟩
  obtain ⟨x, hx⟩ := List.exists_mem_of_ne_nil roles (hne ids.2)
  exact ⟨x.1, List.mem_map_of_mem hx, hactive x hx⟩

/-- The roles that a caller may assign. -/
theorem granted_of_resolveAssignableRoles {db : Directory} {caller : SessionUser} {ids : RoleIds}
    {current : List Role} {roles : List (RoleId × Role)}
    (h : resolveAssignableRoles db caller ids.1 current = .ok roles) :
    Granted db (roles.map Prod.fst) := by
  simp only [resolveAssignableRoles, bind_eq_ok] at h
  obtain ⟨found, hfound, _, -, h⟩ := h
  cases h
  exact granted_of_getRolesByIds hfound

/-- The roles that a group admits. -/
theorem granted_of_resolveObjectRoles {db : Directory} {ids : RoleIds}
    {roles : List (RoleId × Role)} (h : resolveObjectRoles db ids.1 = .ok roles) :
    Granted db (roles.map Prod.fst) := by
  simp only [resolveObjectRoles, bind_eq_ok] at h
  obtain ⟨found, hfound, _, -, _, -, h⟩ := h
  cases h
  exact granted_of_getRolesByIds hfound

/-- A live, active role alone. -/
theorem granted_singleton {db : Directory} {r : RoleId} {role : Role}
    (hrole : db.liveRole r = some role) (hactive : role.isActive = true) : Granted db [r] where
  nodup := List.nodup_singleton r
  active := ⟨r, List.mem_singleton_self r,
    Directory.activeRole_eq_true.mpr ⟨role, hrole, hactive⟩⟩

namespace Accounts

/-- What a request does to the row of a user. -/
inductive UserWrite (env : Env) (s : Accounts) (q : Request) (u : UserId) (new : User) : Prop
  /-- A live row keeps its roles. -/
  | kept {old : User} (hold : s.db.liveUser u = some old) (hroles : new.roleIds = old.roleIds)
  /-- A new account. -/
  | created (hnone : s.db.user u = none) (hroles : Granted s.db new.roleIds)
  /-- The roles of a live row are set. -/
  | updated {old : User} (hold : s.db.liveUser u = some old)
      (hroles : old.roleIds.Nodup → Granted s.db new.roleIds)
  /-- A tombstone becomes a live row with the roles it had. One of them is live and active. -/
  | restored {caller : SessionUser} {old : User} (hq : q = .restoreUser caller u)
      (hold : s.db.user u = some old) (hroles : new.roleIds = old.roleIds)
      (hactive : ∃ r ∈ old.roleIds, s.db.activeRole r = true)

/-- The requests on the role table. -/
inductive RoleTableWrite (env : Env) (s : Accounts) : Directory → Prop
  | create {r : RoleId} {form : RoleCreate} {db' : Directory} (hfresh : s.db.role r = none)
      (h : createRole s.db r form = .ok db') : RoleTableWrite env s db'
  | patch {r : RoleId} {payload : RoleUpdate} {db' : Directory}
      (h : patchRole s.db s.assignments r payload = .ok db') : RoleTableWrite env s db'
  | remove {r : RoleId} {db' : Directory} (h : removeRole s.db s.now s.assignments r = .ok db') :
      RoleTableWrite env s db'
  | restore {r : RoleId} {db' : Directory}
      (h : restoreRole s.db s.now (env.restoreWindowDays * day) r = .ok db') :
      RoleTableWrite env s db'

/-- What a request leaves of users, roles, and assignments. -/
inductive RequestWrites (env : Env) (s : Accounts) (q : Request) (s' : Accounts) : Prop
  | untouched (hdb : s'.db = s.db) (hrows : s'.assignments = s.assignments)
  | user {u : UserId} {new : User} (h : UserWrite env s q u new)
      (hdb : s'.db = s.db.setUser u new) (hrows : s'.assignments = s.assignments)
  | roles (h : RoleTableWrite env s s'.db) (hrows : s'.assignments = s.assignments)
  /-- The roles of an account on a group are set. -/
  | member {o : ObjectId} {u : UserId} {row : User} {roles : List RoleId}
      (hroles : Granted s.db roles) (hdb : s'.db = s.db) (hrow : s.db.liveUser u = some row)
      (h : s.assignRoles s.db s.assignments o u roles = .ok s'.assignments)
  /-- An account is created, with roles on a group. -/
  | newMember {o : ObjectId} {u : UserId} {new : User} {roles : List RoleId}
      (hroles : Granted s.db roles) (h : UserWrite env s q u new)
      (hdb : s'.db = s.db.setUser u new)
      (hassign : s.assignRoles s'.db s.assignments o u roles =
        .ok s'.assignments)

section
variable {env : Env} {s s' : Accounts} {fresh : Fresh}

/-- A live row is written, and keeps its roles. -/
theorem RequestWrites.kept {q : Request} {u : UserId} {old new : User}
    (hold : s.db.liveUser u = some old) (hdb : s'.db = s.db.setUser u new)
    (hrows : s'.assignments = s.assignments) (hroles : new.roleIds = old.roleIds) :
    RequestWrites env s q s' := .user (.kept hold hroles) hdb hrows

/-- A tombstone with a live, active role becomes a live row. -/
theorem RequestWrites.restored {caller : SessionUser} {u : UserId} {old new : User}
    (hold : s.db.user u = some old) (hdb : s'.db = s.db.setUser u new)
    (hrows : s'.assignments = s.assignments) (hroles : new.roleIds = old.roleIds)
    (hactive : ∃ r ∈ old.roleIds, s.db.activeRole r = true) :
    RequestWrites env s (.restoreUser caller u) s' :=
  .user (.restored rfl hold hroles hactive) hdb hrows

/-- The default role of a new account. -/
theorem granted_of_getDefaultRole {x : RoleId × Role} (h : getDefaultRole s.db = .ok x) :
    Granted s.db [x.1] := by
  obtain ⟨hrole, -, hactive⟩ := getDefaultRole_spec h
  exact granted_singleton hrole hactive

theorem writes_register {email : String} {form : SignupForm}
    (hnone : s.db.user fresh.user = none) (h : s.register env fresh email form = .ok s') :
    RequestWrites env s (.register email form) s' := by
  simp only [register, bind_eq_ok] at h
  obtain ⟨_, -, document, -, _, -, h⟩ := h
  split at h
  · simp only [bind_eq_ok] at h
    obtain ⟨x, hdefault, h⟩ := h
    cases h
    exact .user (.created hnone (granted_of_getDefaultRole hdefault)) rfl rfl
  · rename_i u row hfind
    cases h
    unfold registerExisting
    split
    · exact .untouched rfl rfl
    · split
      · split <;> exact .untouched rfl rfl
      · exact .untouched rfl rfl
    · exact .untouched rfl rfl
    · exact .untouched rfl rfl

theorem writes_resendVerification (env : Env) (s : Accounts) (fresh : Fresh) (email : String)
    (q : Request) : RequestWrites env s q (s.resendVerification env fresh email) := by
  unfold resendVerification
  split
  · exact .untouched rfl rfl
  · split <;> exact .untouched rfl rfl

theorem writes_verifyEmail {raw : String} {q : Request} (h : s.verifyEmail env raw = .ok s') :
    RequestWrites env s q s' := by
  simp only [verifyEmail, bind_eq_ok] at h
  obtain ⟨t, -, h⟩ := h
  split at h
  · cases h
  · rename_i row hrow
    cases h
    exact .kept hrow rfl rfl rfl

theorem writes_inviteToPlatform {inviter : SessionUser} {email : String} {ids : RoleIds}
    {q : Request} (hnone : s.db.user fresh.user = none)
    (h : s.inviteToPlatform env fresh inviter email ids = .ok s') : RequestWrites env s q s' := by
  simp only [inviteToPlatform, bind_eq_ok] at h
  obtain ⟨_, -, roles, hroles, h⟩ := h
  split at h
  · simp only [bind_eq_ok] at h
    obtain ⟨_, -, h⟩ := h
    cases h
    exact .untouched rfl rfl
  · cases h
    exact .user (.created hnone (granted_of_resolveAssignableRoles hroles)) rfl rfl

theorem writes_resendInvitation {caller : SessionUser} {u : UserId} {q : Request}
    (h : s.resendInvitation env fresh caller u = .ok s') : RequestWrites env s q s' := by
  simp only [resendInvitation, bind_eq_ok] at h
  obtain ⟨_, -, row, -, _, -, _, -, h⟩ := h
  cases h
  exact .untouched rfl rfl

theorem writes_revokePlatformInvitation {caller : SessionUser} {u : UserId} {q : Request}
    (h : s.revokePlatformInvitation caller u = .ok s') : RequestWrites env s q s' := by
  simp only [revokePlatformInvitation, bind_eq_ok] at h
  obtain ⟨_, -, row, -, _, -, _, -, h⟩ := h
  cases h
  exact .untouched rfl rfl

/-- The invitation of an account that is not onboarded yet assigns its roles on the group. -/
theorem inviteOnboarding_spec {s₁ : Accounts} {inviter : SessionUser} {o : ObjectId} {u : UserId}
    {roles : List RoleId} (h : s₁.inviteOnboarding env fresh inviter o u roles = .ok s') :
    s'.db = s₁.db ∧
      s₁.assignRoles s₁.db s₁.assignments o u roles = .ok s'.assignments := by
  simp only [inviteOnboarding, bind_eq_ok] at h
  obtain ⟨assignments, hassign, h⟩ := h
  cases h
  exact ⟨rfl, hassign⟩

theorem writes_inviteToGroup {inviter : SessionUser} {o : ObjectId} {email : String}
    {ids : RoleIds} {q : Request} (hnone : s.db.user fresh.user = none)
    (h : s.inviteToGroup env fresh inviter o email ids = .ok s') : RequestWrites env s q s' := by
  simp only [inviteToGroup, bind_eq_ok] at h
  obtain ⟨_, -, roles, hroles, h⟩ := h
  have hgranted := granted_of_resolveObjectRoles hroles
  split at h
  · rename_i u row hfind
    have hrow := (Directory.liveUser_of_userByEmail hfind).1
    split at h
    · cases h
    · simp only [bind_eq_ok] at h
      obtain ⟨assignments, hassign, h⟩ := h
      cases h
      exact .member hgranted rfl hrow hassign
    · obtain ⟨hdb, hassign⟩ := inviteOnboarding_spec h
      exact .member hgranted hdb hrow hassign
    · obtain ⟨hdb, hassign⟩ := inviteOnboarding_spec h
      exact .member hgranted hdb hrow hassign
  · simp only [bind_eq_ok] at h
    obtain ⟨x, hdefault, h⟩ := h
    obtain ⟨hdb, hassign⟩ := inviteOnboarding_spec h
    have hcreated : UserWrite env s q fresh.user
        { email, status := .invited, roleIds := [x.1] } :=
      .created hnone (granted_of_getDefaultRole hdefault)
    refine .newMember (o := o) hgranted hcreated hdb ?_
    rw [hdb]
    exact hassign

theorem writes_acceptInvitation {raw : String} {form : SignupForm} {q : Request}
    (h : s.acceptInvitation env raw form = .ok s') : RequestWrites env s q s' := by
  simp only [acceptInvitation, bind_eq_ok] at h
  obtain ⟨document, -, h⟩ := h
  split at h
  · cases h
  · split at h
    · cases h
    · rename_i i hfind _ row hrow
      simp only [bind_eq_ok] at h
      obtain ⟨_, -, _, -, _, -, h⟩ := h
      cases h
      exact .kept hrow rfl rfl rfl

/-- A login that activates an account keeps its roles. -/
theorem writes_activate {provider subject : String} {u : UserId} {row : User} {verified : Bool}
    {q : Request} (hrow : s.db.liveUser u = some row)
    (h : (do return (← s.activate u row verified).linkIdentity provider subject u) = .ok s') :
    RequestWrites env s q s' := by
  simp only [activate, bind_eq_ok] at h
  obtain ⟨s₁, ⟨_, -, h₁⟩, h⟩ := h
  cases h₁
  cases h
  exact .kept hrow rfl rfl rfl

theorem writes_resolveUser {provider subject email : String} {verified : Bool}
    {claims : String → Option Claim} {q : Request} (hnone : s.db.user fresh.user = none)
    (h : s.resolveUser fresh provider subject email verified claims = .ok s') :
    RequestWrites env s q s' := by
  unfold resolveUser at h
  split at h
  · split at h
    · cases h
    · simp only [bind_eq_ok] at h
      obtain ⟨_, -, h⟩ := h
      cases h
      exact .untouched rfl rfl
  · split at h
    · rename_i u row hfind
      have hrow := (Directory.liveUser_of_userByEmail hfind).1
      unfold loginByEmail at h
      split at h
      · cases h
        exact .untouched rfl rfl
      · cases h
      · exact writes_activate hrow h
      · exact writes_activate hrow h
    · simp only [bind_eq_ok] at h
      obtain ⟨_, -, x, hdefault, h⟩ := h
      cases h
      exact .user (.created hnone (granted_of_getDefaultRole hdefault)) rfl rfl

theorem writes_finalizeLogin {provider : String} {claims : String → Option Claim} {q : Request}
    (hnone : s.db.user fresh.user = none)
    (h : s.finalizeLogin env fresh provider claims = .ok s') : RequestWrites env s q s' := by
  unfold finalizeLogin at h
  split at h
  · simp only [bind_eq_ok] at h
    obtain ⟨_, -, _, -, _, -, _, -, h⟩ := h
    exact writes_resolveUser hnone h
  · cases h

theorem writes_requestPasswordReset (env : Env) (s : Accounts) (fresh : Fresh) (email : String)
    (q : Request) : RequestWrites env s q (s.requestPasswordReset env fresh email) := by
  unfold requestPasswordReset
  split
  · exact .untouched rfl rfl
  · split <;> exact .untouched rfl rfl

theorem writes_sendPasswordReset {caller : SessionUser} {u : UserId} {q : Request}
    (h : s.sendPasswordReset env fresh caller u = .ok s') : RequestWrites env s q s' := by
  simp only [sendPasswordReset, bind_eq_ok] at h
  obtain ⟨_, -, row, -, _, -, _, -, h⟩ := h
  cases h
  exact .untouched rfl rfl

theorem writes_confirmPasswordReset {raw password : String} {q : Request}
    (h : s.confirmPasswordReset env raw password = .ok s') : RequestWrites env s q s' := by
  simp only [confirmPasswordReset, bind_eq_ok] at h
  obtain ⟨t, -, h⟩ := h
  split at h
  · cases h
  · rename_i row hrow
    simp only [bind_eq_ok] at h
    obtain ⟨_, -, _, -, h⟩ := h
    cases h
    exact .kept hrow rfl rfl rfl

/-- A status change keeps the roles. -/
theorem changeUserStatus_roleIds {row row' : User} {status : SettableUserStatus}
    (h : changeUserStatus row status = .ok row') : row'.roleIds = row.roleIds := by
  unfold changeUserStatus at h
  split at h
  · cases h
    rfl
  · simp only [bind_eq_ok] at h
    obtain ⟨_, -, h⟩ := h
    cases h
    rfl

theorem writes_changeStatus {caller : SessionUser} {u : UserId} {status : SettableUserStatus}
    {q : Request} (h : s.changeStatus caller u status = .ok s') : RequestWrites env s q s' := by
  simp only [changeStatus, bind_eq_ok, getUser_eq_ok] at h
  obtain ⟨_, -, row, hrow, _, -, _, -, row', hstatus, h⟩ := h
  cases h
  exact .kept hrow rfl rfl (changeUserStatus_roleIds hstatus)

/-- An update that sets roles names at least one, live and active. The kept roles are others. -/
theorem granted_of_updatedRoleIds {caller : SessionUser} {row : User} {ids : RoleIds}
    {roleIds : List RoleId} (h : s.updatedRoleIds caller row (some ids) = .ok roleIds)
    (hnodup : row.roleIds.Nodup) : Granted s.db roleIds := by
  simp only [updatedRoleIds, bind_eq_ok] at h
  obtain ⟨roles, hroles, h⟩ := h
  cases h
  have hgranted := granted_of_resolveAssignableRoles hroles
  constructor
  · refine List.nodup_append.mpr ⟨hgranted.nodup, (hnodup.filter _).filter _, ?_⟩
    rintro r hr r' hr' rfl
    have hother := (List.mem_filter.mp (List.mem_of_mem_filter hr')).2
    simp only [Bool.not_eq_true', List.contains_eq_mem, decide_eq_false_iff_not] at hother
    exact hother hr
  · obtain ⟨r, hr, hactive⟩ := hgranted.active
    exact ⟨r, List.mem_append_left _ hr, hactive⟩

theorem writes_updateUser {caller : SessionUser} {u : UserId} {changes : UserUpdate}
    {q : Request} (h : s.updateUser caller u changes = .ok s') : RequestWrites env s q s' := by
  simp only [updateUser, bind_eq_ok, getUser_eq_ok] at h
  obtain ⟨_, -, row, hrow, roleIds, hroles, h⟩ := h
  cases h
  cases hids : changes.roleIds with
  | none =>
    rw [hids] at hroles
    cases hroles
    exact .kept hrow rfl rfl rfl
  | some ids =>
    rw [hids] at hroles
    exact .user (.updated hrow (granted_of_updatedRoleIds hroles)) rfl rfl

theorem writes_deleteUser {caller : SessionUser} {u : UserId} {q : Request}
    (h : s.deleteUser caller u = .ok s') : RequestWrites env s q s' := by
  simp only [deleteUser, bind_eq_ok, getUser_eq_ok] at h
  obtain ⟨_, -, row, hrow, _, -, _, -, _, -, h⟩ := h
  cases h
  exact .kept hrow rfl rfl rfl

/-- A row with a live, active role among its loaded roles. -/
theorem exists_activeRole_of_any {db : Directory} {row : User}
    (h : (db.liveRoles row).any Role.isActive = true) :
    ∃ r ∈ row.roleIds, db.activeRole r = true := by
  obtain ⟨role, hrole, hactive⟩ := List.any_eq_true.mp h
  obtain ⟨r, hr, hlive⟩ := List.mem_filterMap.mp hrole
  exact ⟨r, hr, Directory.activeRole_eq_true.mpr ⟨role, hlive, hactive⟩⟩

theorem writes_restoreUser {caller : SessionUser} {u : UserId}
    (h : s.restoreUser env caller u = .ok s') :
    RequestWrites env s (.restoreUser caller u) s' := by
  simp only [restoreUser, bind_eq_ok] at h
  obtain ⟨_, -, h⟩ := h
  split at h
  · cases h
  · rename_i row hrow
    simp only [bind_eq_ok, check_eq_ok] at h
    obtain ⟨_, -, _, hactive, _, -, h⟩ := h
    cases h
    exact .restored (Option.filter_eq_some_iff.mp hrow).1 rfl rfl rfl
      (exists_activeRole_of_any hactive)

theorem writes_roleRequest {caller : SessionUser} {write : Except ApiError Directory}
    {q : Request} (hwrite : ∀ db', write = .ok db' → RoleTableWrite env s db')
    (h : s.roleRequest caller write = .ok s') : RequestWrites env s q s' := by
  simp only [roleRequest, bind_eq_ok] at h
  obtain ⟨_, -, db', hdb, h⟩ := h
  cases h
  exact .roles (hwrite db' hdb) rfl

/-- Every successful request is one of these writes. -/
theorem perform_writes {q : Request} (hunused : s.unused env fresh = true)
    (h : s.perform env fresh q = .ok s') : RequestWrites env s q s' := by
  have hnone : s.db.user fresh.user = none ∧ s.db.role fresh.role = none := by
    simp only [unused, Bool.and_eq_true, Option.isNone_iff_eq_none] at hunused
    exact ⟨hunused.1.1.1.1, hunused.1.1.1.2⟩
  cases q with
  | tick seconds =>
    cases h
    exact .untouched rfl rfl
  | configure platform terms =>
    cases h
    exact .untouched rfl rfl
  | register email form => exact writes_register hnone.1 h
  | resendVerification email =>
    cases h
    exact writes_resendVerification env s fresh email _
  | verifyEmail raw => exact writes_verifyEmail h
  | inviteToPlatform inviter email ids => exact writes_inviteToPlatform hnone.1 h
  | resendInvitation caller u => exact writes_resendInvitation h
  | revokeInvitation caller u => exact writes_revokePlatformInvitation h
  | inviteToGroup inviter o email ids => exact writes_inviteToGroup hnone.1 h
  | acceptInvitation raw form => exact writes_acceptInvitation h
  | oidcLogin provider claims => exact writes_finalizeLogin hnone.1 h
  | requestPasswordReset email =>
    cases h
    exact writes_requestPasswordReset env s fresh email _
  | sendPasswordReset caller u => exact writes_sendPasswordReset h
  | confirmPasswordReset raw password => exact writes_confirmPasswordReset h
  | changeStatus caller u status => exact writes_changeStatus h
  | updateUser caller u changes => exact writes_updateUser h
  | deleteUser caller u => exact writes_deleteUser h
  | restoreUser caller u => exact writes_restoreUser h
  | createRole caller form => exact writes_roleRequest (fun _ => .create hnone.2) h
  | updateRole caller r payload => exact writes_roleRequest (fun _ => .patch) h
  | deleteRole caller r => exact writes_roleRequest (fun _ => .remove) h
  | restoreRole caller r => exact writes_roleRequest (fun _ => .restore) h

end

end Accounts

end RedTeaming.Auth
