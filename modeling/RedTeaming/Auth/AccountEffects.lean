import RedTeaming.Auth.Accounts

/-!
# `RedTeaming.Auth.AccountEffects`: what a request writes to users and roles

`Effect` lists, request by request, what a successful transaction does to the rows of `users` and
`roles`, with the guards that let it. Most requests write one user row. The requests on the role
table are a sequence of role writes (`RoleWrites`). `perform_effect` says that nothing else
happens. An invariant over the accounts is then a case analysis of `Effect`, and needs no
unfolding of the services.
-/

set_option autoImplicit false

namespace RedTeaming.Auth

namespace Accounts

/-- A row with the default role only. -/
def HasDefaultRole (s : Accounts) (row : User) : Prop :=
  ∃ r role, row.roleIds = [r] ∧ s.db.liveRole r = some role ∧ role.isDefault = true

/-- Each role of the list is one that the caller may assign, or one of the row that grants
nothing. -/
def Assignable (s : Accounts) (caller : SessionUser) (old : List RoleId) (roleIds : List RoleId) :
    Prop :=
  ∀ r ∈ roleIds,
    (∃ role, s.db.role r = some role ∧ ∀ q ∈ nonDeactivatableSystemRoles, role.name = q.value →
      .usersManageAdmin ∈ caller.permissions) ∨ r ∈ old

/-- What a successful request does to the rows of `users` and `roles`. -/
inductive Effect (env : Env) (s : Accounts) (fresh : Fresh) : Request → Directory → Prop
  /-- No row changes. -/
  | none (q : Request) : Effect env s fresh q s.db
  /-- A new account with the default role, by registration, a provider, or a group invitation. -/
  | provision (q : Request) {row : User} (hlive : row.deletedAt = none)
      (hstatus : row.status ≠ .inactive) (hrole : s.HasDefaultRole row) :
      Effect env s fresh q (s.db.setUser fresh.user row)
  /-- A new account with the roles that its inviter chose. -/
  | invite {inviter : SessionUser} {email : String} {ids : RoleIds} {row : User}
      (hlive : row.deletedAt = none) (hstatus : row.status = .invited)
      (hroles : s.Assignable inviter [] row.roleIds) :
      Effect env s fresh (.inviteToPlatform inviter email ids) (s.db.setUser fresh.user row)
  /-- An account that was waiting for its onboarding becomes ACTIVE. -/
  | onboard (q : Request) {u : UserId} {old new : User} (hold : s.db.liveUser u = some old)
      (hwaiting : old.status = .invited ∨ old.status = .pending) (hstatus : new.status = .active)
      (hroles : new.roleIds = old.roleIds) (hdeleted : new.deletedAt = old.deletedAt) :
      Effect env s fresh q (s.db.setUser u new)
  /-- A verification link activates the account it was issued for. -/
  | verify {raw : String} {t : LinkToken} {old new : User}
      (hfind : findToken s.verifications (env.hashToken raw) = some t)
      (hpending : t.effective s.now = .pending)
      (hold : s.db.liveUser t.user = some old) (hstatus : new.status = .active)
      (hroles : new.roleIds = old.roleIds) (hdeleted : new.deletedAt = old.deletedAt) :
      Effect env s fresh (.verifyEmail raw) (s.db.setUser t.user new)
  /-- A password reset writes the password of an account. -/
  | credential (q : Request) {u : UserId} {old new : User} (hold : s.db.liveUser u = some old)
      (hstatus : new.status = old.status) (hroles : new.roleIds = old.roleIds)
      (hdeleted : new.deletedAt = old.deletedAt) : Effect env s fresh q (s.db.setUser u new)
  /-- An admin sets the status of another account. -/
  | status {caller : SessionUser} {u : UserId} {status : SettableUserStatus} {old new : User}
      (hcaller : .usersUpdate ∈ caller.permissions) (hself : caller.id ≠ u)
      (hold : s.db.liveUser u = some old)
      (hunblocked : blockedElevatedRoles caller (s.db.liveRoles old) = [])
      (hstatus : new.status = status.toStatus) (hroles : new.roleIds = old.roleIds)
      (hdeleted : new.deletedAt = old.deletedAt) :
      Effect env s fresh (.changeStatus caller u status) (s.db.setUser u new)
  /-- An admin sets the names and roles of an account. -/
  | update {caller : SessionUser} {u : UserId} {changes : UserUpdate} {old new : User}
      (hold : s.db.liveUser u = some old) (hstatus : new.status = old.status)
      (hroles : s.Assignable caller old.roleIds new.roleIds)
      (hdeleted : new.deletedAt = old.deletedAt) :
      Effect env s fresh (.updateUser caller u changes) (s.db.setUser u new)
  /-- An account becomes a tombstone. -/
  | delete {caller : SessionUser} {u : UserId} {old new : User}
      (hold : s.db.liveUser u = some old) (hstatus : new.status = old.status)
      (hdeleted : new.deletedAt = some s.now) :
      Effect env s fresh (.deleteUser caller u) (s.db.setUser u new)
  /-- A tombstone becomes an account again, with the status and the roles it had. -/
  | restore {caller : SessionUser} {u : UserId} {old new : User}
      (hold : s.db.user u = some old)
      (hunblocked : blockedElevatedRoles caller (s.db.liveRoles old) = [])
      (hstatus : new.status = old.status) (hroles : new.roleIds = old.roleIds) :
      Effect env s fresh (.restoreUser caller u) (s.db.setUser u new)
  /-- Writes of the role table. -/
  | roles (q : Request) {db' : Directory} (h : RoleWrites s.db db') : Effect env s fresh q db'

section
variable {env : Env} {s s' : Accounts} {fresh : Fresh}

@[simp] theorem setUser_db (s : Accounts) (u : UserId) (row : User) :
    (s.setUser u row).db = s.db.setUser u row := rfl

@[simp] theorem issueVerification_db (env : Env) (s : Accounts) (u : UserId) (raw : String) :
    (s.issueVerification env u raw).db = s.db := rfl

@[simp] theorem issueInvitation_db (env : Env) (s : Accounts) (u : UserId) (raw : String)
    (invitedBy : Option UserId) (scope : Option ObjectId) :
    (s.issueInvitation env u raw invitedBy scope).db = s.db := rfl

@[simp] theorem revokeVerifications_db (s : Accounts) (u : UserId) :
    (s.revokeVerifications u).db = s.db := rfl

@[simp] theorem revokeInvitations_db (s : Accounts) (u : UserId) (scope : Option ObjectId) :
    (s.revokeInvitations u scope).db = s.db := rfl

@[simp] theorem acceptInvitations_db (s : Accounts) (u : UserId) :
    (s.acceptInvitations u).db = s.db := rfl

@[simp] theorem reissuePlatformInvitation_db (env : Env) (s : Accounts) (u : UserId)
    (raw : String) (inviter : Option UserId) :
    (s.reissuePlatformInvitation env u raw inviter).db = s.db := rfl

@[simp] theorem issuePasswordReset_db (env : Env) (s : Accounts) (u : UserId) (raw : String) :
    (s.issuePasswordReset env u raw).db = s.db := rfl

@[simp] theorem linkIdentity_db (s : Accounts) (provider subject : String) (u : UserId) :
    (s.linkIdentity provider subject u).db = s.db := rfl

/-- The default role of a new account. -/
theorem hasDefaultRole_of_getDefaultRole {x : RoleId × Role} {row : User}
    (h : getDefaultRole s.db = .ok x) (hrow : row.roleIds = [x.1]) : s.HasDefaultRole row :=
  ⟨x.1, x.2, hrow, (getDefaultRole_spec h).1, (getDefaultRole_spec h).2.1⟩

/-- A registration leaves the row of an existing account as it is. -/
theorem registerExisting_db (env : Env) (s : Accounts) (u : UserId) (row : User) (raw : String) :
    (s.registerExisting env u row raw).db = s.db := by
  unfold registerExisting
  split
  · rfl
  · split
    · split <;> rfl
    · rfl
  · rfl
  · rfl

theorem effect_register {email : String} {form : SignupForm}
    (h : s.register env fresh email form = .ok s') :
    Effect env s fresh (.register email form) s'.db := by
  simp only [register, bind_eq_ok, check_eq_ok] at h
  obtain ⟨_, -, document, -, _, -, h⟩ := h
  split at h
  · simp only [bind_eq_ok] at h
    obtain ⟨x, hdefault, h⟩ := h
    cases h
    refine .provision _ ?_ ?_ (hasDefaultRole_of_getDefaultRole hdefault ?_)
    · rfl
    · intro hinactive
      cases hinactive
    · rfl
  · cases h
    rw [registerExisting_db]
    exact .none _

theorem effect_resendVerification (env : Env) (s : Accounts) (fresh : Fresh) (email : String) :
    (s.resendVerification env fresh email).db = s.db := by
  unfold resendVerification
  split
  · rfl
  · split <;> rfl

theorem effect_verifyEmail {raw : String} (h : s.verifyEmail env raw = .ok s') :
    Effect env s fresh (.verifyEmail raw) s'.db := by
  simp only [verifyEmail, bind_eq_ok] at h
  obtain ⟨t, ht, h⟩ := h
  obtain ⟨hfind, hpending⟩ := resolveToken_spec ht
  split at h
  · cases h
  · rename_i row hrow
    cases h
    exact .verify hfind hpending hrow rfl rfl rfl

theorem effect_inviteToPlatform {inviter : SessionUser} {email : String} {ids : RoleIds}
    (h : s.inviteToPlatform env fresh inviter email ids = .ok s') :
    Effect env s fresh (.inviteToPlatform inviter email ids) s'.db := by
  simp only [inviteToPlatform, bind_eq_ok] at h
  obtain ⟨_, -, roles, hroles, h⟩ := h
  split at h
  · simp only [bind_eq_ok] at h
    obtain ⟨_, -, h⟩ := h
    cases h
    exact .none _
  · cases h
    refine .invite ?_ ?_ ?_
    · rfl
    · rfl
    · intro r hr
      obtain ⟨x, hx, rfl⟩ := List.mem_map.mp hr
      obtain ⟨hrole, helevated⟩ := resolveAssignableRoles_spec hroles x hx
      exact Or.inl ⟨x.2, hrole, helevated⟩

theorem effect_resendInvitation {caller : SessionUser} {u : UserId}
    (h : s.resendInvitation env fresh caller u = .ok s') : s'.db = s.db := by
  simp only [resendInvitation, bind_eq_ok] at h
  obtain ⟨_, -, row, -, _, -, _, -, h⟩ := h
  cases h
  rfl

theorem effect_revokePlatformInvitation {caller : SessionUser} {u : UserId}
    (h : s.revokePlatformInvitation caller u = .ok s') : s'.db = s.db := by
  simp only [revokePlatformInvitation, bind_eq_ok] at h
  obtain ⟨_, -, row, -, _, -, _, -, h⟩ := h
  cases h
  rfl

theorem inviteOnboarding_db {inviter : SessionUser} {o : ObjectId} {u : UserId}
    {roles : List RoleId} (h : s.inviteOnboarding env fresh inviter o u roles = .ok s') :
    s'.db = s.db := by
  simp only [inviteOnboarding, bind_eq_ok] at h
  obtain ⟨assignments, -, h⟩ := h
  cases h
  rfl

theorem effect_inviteToGroup {inviter : SessionUser} {o : ObjectId} {email : String}
    {ids : RoleIds} (h : s.inviteToGroup env fresh inviter o email ids = .ok s') :
    Effect env s fresh (.inviteToGroup inviter o email ids) s'.db := by
  simp only [inviteToGroup, bind_eq_ok] at h
  obtain ⟨_, -, roles, -, h⟩ := h
  split at h
  · split at h
    · cases h
    · simp only [bind_eq_ok] at h
      obtain ⟨assignments, -, h⟩ := h
      cases h
      exact .none _
    · rw [inviteOnboarding_db h]
      exact .none _
    · rw [inviteOnboarding_db h]
      exact .none _
  · simp only [bind_eq_ok] at h
    obtain ⟨x, hdefault, h⟩ := h
    rw [inviteOnboarding_db h]
    refine .provision _ ?_ ?_ (hasDefaultRole_of_getDefaultRole hdefault ?_)
    · rfl
    · intro hinactive
      cases hinactive
    · rfl

theorem effect_acceptInvitation {raw : String} {form : SignupForm}
    (h : s.acceptInvitation env raw form = .ok s') :
    Effect env s fresh (.acceptInvitation raw form) s'.db := by
  simp only [acceptInvitation, bind_eq_ok] at h
  obtain ⟨document, -, h⟩ := h
  split at h
  · cases h
  · split at h
    · cases h
    · rename_i i hfind row hrow
      simp only [bind_eq_ok, check_eq_ok, Bool.or_eq_true, beq_iff_eq] at h
      obtain ⟨_, -, _, hwaiting, _, -, h⟩ := h
      cases h
      exact .onboard _ hrow hwaiting rfl rfl rfl

/-- An activation by a provider onboards the account. -/
theorem effect_activate (q : Request) {provider subject : String} {u : UserId} {row : User}
    {verified : Bool} (hrow : s.db.liveUser u = some row)
    (hwaiting : row.status = .invited ∨ row.status = .pending)
    (h : (do return (← s.activate u row verified).linkIdentity provider subject u) = .ok s') :
    Effect env s fresh q s'.db := by
  simp only [activate, bind_eq_ok] at h
  obtain ⟨s₁, ⟨_, -, h₁⟩, h⟩ := h
  cases h₁
  cases h
  exact .onboard q hrow hwaiting rfl rfl rfl

theorem effect_resolveUser (q : Request) {provider subject email : String} {verified : Bool}
    {claims : String → Option Claim}
    (h : s.resolveUser fresh provider subject email verified claims = .ok s') :
    Effect env s fresh q s'.db := by
  unfold resolveUser at h
  split at h
  · split at h
    · cases h
    · simp only [bind_eq_ok] at h
      obtain ⟨_, -, h⟩ := h
      cases h
      exact .none _
  · split at h
    · rename_i u row hfind
      obtain ⟨hrow, -⟩ := Directory.liveUser_of_userByEmail hfind
      unfold loginByEmail at h
      split at h
      · cases h
        exact .none _
      · cases h
      · rename_i hpending
        exact effect_activate q hrow (Or.inr hpending) h
      · rename_i hinvited
        exact effect_activate q hrow (Or.inl hinvited) h
    · simp only [bind_eq_ok] at h
      obtain ⟨_, -, x, hdefault, h⟩ := h
      cases h
      refine .provision _ ?_ ?_ (hasDefaultRole_of_getDefaultRole hdefault ?_)
      · rfl
      · intro hinactive
        cases hinactive
      · rfl

theorem effect_finalizeLogin {provider : String} {claims : String → Option Claim}
    (h : s.finalizeLogin env fresh provider claims = .ok s') :
    Effect env s fresh (.oidcLogin provider claims) s'.db := by
  unfold finalizeLogin at h
  split at h
  · simp only [bind_eq_ok] at h
    obtain ⟨_, -, _, -, _, -, _, -, h⟩ := h
    exact effect_resolveUser _ h
  · cases h

theorem effect_requestPasswordReset (env : Env) (s : Accounts) (fresh : Fresh) (email : String) :
    (s.requestPasswordReset env fresh email).db = s.db := by
  unfold requestPasswordReset
  split
  · rfl
  · split <;> rfl

theorem effect_sendPasswordReset {caller : SessionUser} {u : UserId}
    (h : s.sendPasswordReset env fresh caller u = .ok s') : s'.db = s.db := by
  simp only [sendPasswordReset, bind_eq_ok] at h
  obtain ⟨_, -, row, -, _, -, _, -, h⟩ := h
  cases h
  rfl

theorem effect_confirmPasswordReset {raw password : String}
    (h : s.confirmPasswordReset env raw password = .ok s') :
    Effect env s fresh (.confirmPasswordReset raw password) s'.db := by
  simp only [confirmPasswordReset, bind_eq_ok] at h
  obtain ⟨t, -, h⟩ := h
  split at h
  · cases h
  · rename_i row hrow
    simp only [bind_eq_ok] at h
    obtain ⟨_, -, _, -, h⟩ := h
    cases h
    exact .credential _ hrow rfl rfl rfl

/-- A status change writes the status, and nothing else. -/
theorem changeUserStatus_spec {row row' : User} {status : SettableUserStatus}
    (h : changeUserStatus row status = .ok row') :
    row'.status = status.toStatus ∧ row'.roleIds = row.roleIds ∧
      row'.deletedAt = row.deletedAt := by
  unfold changeUserStatus at h
  split at h
  · rename_i hsame
    cases h
    exact ⟨hsame, rfl, rfl⟩
  · simp only [bind_eq_ok] at h
    obtain ⟨_, -, h⟩ := h
    cases h
    exact ⟨rfl, rfl, rfl⟩

theorem effect_changeStatus {caller : SessionUser} {u : UserId} {status : SettableUserStatus}
    (h : s.changeStatus caller u status = .ok s') :
    Effect env s fresh (.changeStatus caller u status) s'.db := by
  simp only [changeStatus, requirePermission, bind_eq_ok, check_eq_ok, getUser_eq_ok,
    decide_eq_true_eq, bne_iff_ne] at h
  obtain ⟨_, hcaller, row, hrow, _, hself, _, hassert, row', hstatus, h⟩ := h
  cases h
  obtain ⟨hs, hr, hd⟩ := changeUserStatus_spec hstatus
  exact .status hcaller hself hrow (blocked_eq_nil_of_assert hassert) hs hr hd

/-- The roles after an update are assignable, or were there before. -/
theorem assignable_of_updatedRoleIds {caller : SessionUser} {row : User}
    {ids : Option RoleIds} {roleIds : List RoleId}
    (h : s.updatedRoleIds caller row ids = .ok roleIds) :
    s.Assignable caller row.roleIds roleIds := by
  unfold updatedRoleIds at h
  split at h
  · cases h
    exact fun r hr => Or.inr hr
  · simp only [bind_eq_ok] at h
    obtain ⟨roles, hroles, h⟩ := h
    cases h
    intro r hr
    rcases List.mem_append.mp hr with hr | hr
    · obtain ⟨x, hx, rfl⟩ := List.mem_map.mp hr
      obtain ⟨hrole, helevated⟩ := resolveAssignableRoles_spec hroles x hx
      exact Or.inl ⟨x.2, hrole, helevated⟩
    · -- A kept role is one of the old ones.
      have hold := List.mem_of_mem_filter (List.mem_of_mem_filter hr)
      exact Or.inr hold

theorem effect_updateUser {caller : SessionUser} {u : UserId} {changes : UserUpdate}
    (h : s.updateUser caller u changes = .ok s') :
    Effect env s fresh (.updateUser caller u changes) s'.db := by
  simp only [updateUser, bind_eq_ok, getUser_eq_ok] at h
  obtain ⟨_, -, row, hrow, roleIds, hroles, h⟩ := h
  cases h
  exact .update hrow rfl (assignable_of_updatedRoleIds hroles) rfl

theorem effect_deleteUser {caller : SessionUser} {u : UserId}
    (h : s.deleteUser caller u = .ok s') : Effect env s fresh (.deleteUser caller u) s'.db := by
  simp only [deleteUser, bind_eq_ok, getUser_eq_ok] at h
  obtain ⟨_, -, row, hrow, _, -, _, -, _, -, h⟩ := h
  cases h
  exact .delete hrow rfl rfl

theorem effect_restoreUser {caller : SessionUser} {u : UserId}
    (h : s.restoreUser env caller u = .ok s') :
    Effect env s fresh (.restoreUser caller u) s'.db := by
  simp only [restoreUser, bind_eq_ok] at h
  obtain ⟨_, -, h⟩ := h
  split at h
  · cases h
  · rename_i row hrow
    simp only [bind_eq_ok] at h
    obtain ⟨_, hassert, _, -, _, -, h⟩ := h
    cases h
    exact .restore (Option.filter_eq_some_iff.mp hrow).1
      (blocked_eq_nil_of_assert hassert) rfl rfl

/-- A request on the role table writes role rows. -/
theorem effect_roleRequest (q : Request) {caller : SessionUser}
    {write : Except ApiError Directory} (hwrite : ∀ db', write = .ok db' → RoleWrites s.db db')
    (h : s.roleRequest caller write = .ok s') : Effect env s fresh q s'.db := by
  simp only [roleRequest, bind_eq_ok] at h
  obtain ⟨_, -, db', hdb, h⟩ := h
  cases h
  exact .roles q (hwrite db' hdb)

/-- Every successful request has its effect. -/
theorem perform_effect {q : Request} (hunused : s.unused env fresh = true)
    (h : s.perform env fresh q = .ok s') : Effect env s fresh q s'.db := by
  cases q with
  | tick seconds =>
    cases h
    exact .none _
  | configure platform terms =>
    cases h
    exact .none _
  | register email form => exact effect_register h
  | resendVerification email =>
    cases h
    rw [effect_resendVerification]
    exact .none _
  | verifyEmail raw => exact effect_verifyEmail h
  | inviteToPlatform inviter email ids => exact effect_inviteToPlatform h
  | resendInvitation caller u =>
    rw [effect_resendInvitation h]
    exact .none _
  | revokeInvitation caller u =>
    rw [effect_revokePlatformInvitation h]
    exact .none _
  | inviteToGroup inviter o email ids => exact effect_inviteToGroup h
  | acceptInvitation raw form => exact effect_acceptInvitation h
  | oidcLogin provider claims => exact effect_finalizeLogin h
  | requestPasswordReset email =>
    cases h
    rw [effect_requestPasswordReset]
    exact .none _
  | sendPasswordReset caller u =>
    rw [effect_sendPasswordReset h]
    exact .none _
  | confirmPasswordReset raw password => exact effect_confirmPasswordReset h
  | changeStatus caller u status => exact effect_changeStatus h
  | updateUser caller u changes => exact effect_updateUser h
  | deleteUser caller u => exact effect_deleteUser h
  | restoreUser caller u => exact effect_restoreUser h
  | createRole caller form =>
    have hfresh : s.db.role fresh.role = none := by
      simp only [unused, Bool.and_eq_true, Option.isNone_iff_eq_none] at hunused
      exact hunused.1.1.1.2
    exact effect_roleRequest _ (fun _ => RoleWrites.createRole hfresh) h
  | updateRole caller r payload => exact effect_roleRequest _ (fun _ => RoleWrites.patchRole) h
  | deleteRole caller r => exact effect_roleRequest _ (fun _ => RoleWrites.removeRole) h
  | restoreRole caller r => exact effect_roleRequest _ (fun _ => RoleWrites.restoreRole) h

end

end Accounts

end RedTeaming.Auth
