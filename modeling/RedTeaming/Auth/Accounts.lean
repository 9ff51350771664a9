import RedTeaming.Auth.Links
import RedTeaming.Auth.RoleStore

/-!
# `RedTeaming.Auth.Accounts`: the life cycle of accounts

The requests that write accounts, invitations, roles, and the links that onboard an account:
`registration.py`, `invitations.py`, `oidc.py`, `password_resets.py`, `users.py`, and
`group_invitations.py`, each with the gate of its endpoint. `Accounts` is what they read and
write. A request runs as one transaction, so it is a function to `Except ApiError Accounts`, and
an error rolls everything back.

Four services write the status ACTIVE. `acceptInvitation` and `activate` (a login through an
identity provider) look at the status of the account first, and so does `changeStatus`.
`verifyEmail` does not.

Mails, audit rows, and the revocation of sessions are not part of this state. A label carries
what the request draws at random: the ids of rows it inserts and the raw token of a link.
-/

set_option autoImplicit false

namespace RedTeaming.Auth

/-- The admin-tunable password rules. -/
structure PasswordPolicy where
  minLength : Nat := 8
  requireUppercase : Bool := false
  requireDigit : Bool := false
  requireSymbol : Bool := false
deriving DecidableEq

/-- The platform settings that the account requests read. -/
structure PlatformSettings where
  inviteOnly : Bool := false
  emailVerificationTtlHours : Nat := 24
  passwordPolicy : PasswordPolicy := {}
  passwordResetCooldownSeconds : Nat := 60
  passwordResetMaxPerDay : Nat := 5
deriving DecidableEq

/-- What a deployment fixes: the environment settings, and the functions that the services take
from libraries. `strip` and `lower` are the string methods, `hashToken` is SHA-256, and
`hashPassword` is argon2. `validatePassword` is the content rules of a new password. -/
structure Env where
  hashToken : String → String
  hashPassword : String → String
  validatePassword : PasswordPolicy → String → List (Option String) → Except ApiError Unit
  strip : String → String
  lower : String → String
  trustsUnverifiedEmail : String → Bool
  oidcAllowedDomains : List String := []
  invitationTtlHours : Nat := 168
  passwordResetTtlHours : Nat := 1
  restoreWindowDays : Nat := 30

/-- A row of `provider_identities`. -/
structure ProviderIdentity where
  provider : String
  subject : String
  user : UserId
  deletedAt : Option Nat := none
deriving DecidableEq

/-- The tables that the account requests read and write, the current terms version, and the clock
in seconds. -/
structure Accounts where
  db : Directory
  assignments : List Assignment := []
  verifications : List LinkToken := []
  resets : List LinkToken := []
  invitations : List Invitation := []
  identities : List ProviderIdentity := []
  platform : PlatformSettings := {}
  terms : Option Nat := none
  now : Nat := 0

/-- What a request draws at random: ids for new rows, and a raw token. -/
structure Fresh where
  user : UserId
  role : RoleId
  token : String
deriving DecidableEq

/-- The form of a signup or of an invitation's acceptance. -/
structure SignupForm where
  password : String
  firstName : Option String := none
  lastName : Option String := none
  consentTerms : Bool := false
  consentEmails : Bool := false
  termsId : Option Nat := none
deriving DecidableEq

/-- A claim of an identity provider. `other` is a value that is no string and no boolean, with
its `str`. -/
inductive Claim
  | str (s : String)
  | bool (b : Bool)
  | other (text : String)
deriving DecidableEq

/-- The statuses that an admin can set. -/
inductive SettableUserStatus
  | active | inactive
deriving DecidableEq, Repr

/-- The status as a `UserStatus`. -/
def SettableUserStatus.toStatus : SettableUserStatus → UserStatus
  | .active => .active
  | .inactive => .inactive

/-- The role ids of a payload, at least one. -/
abbrev RoleIds := { ids : List RoleId // ids ≠ [] }

/-- One role id. -/
def RoleIds.single (id : RoleId) : RoleIds := ⟨[id], List.cons_ne_nil id []⟩

/-- The payload of a user patch. `none` is a field that the caller did not send. -/
structure UserUpdate where
  firstName : Option (Option String) := none
  lastName : Option (Option String) := none
  roleIds : Option RoleIds := none
deriving DecidableEq

/-- A claim as `!r` prints it. -/
def Claim.repr : Claim → String
  | .str s => quoted s
  | .bool b => if b then "True" else "False"
  | .other text => text

/-- `require_permission`: the gate of an endpoint. -/
def requirePermission (caller : SessionUser) (p : Permission) : Except ApiError Unit :=
  check (decide (p ∈ caller.permissions))
    (.forbidden ("Caller lacks the " ++ quoted p.value ++ " permission."))

namespace Accounts
variable (env : Env) (s : Accounts)

/-- Seconds in an hour. -/
def hour : Nat := 3600

/-- Seconds in a day. -/
def day : Nat := 24 * hour

/-- Write a user row. -/
def setUser (u : UserId) (row : User) : Accounts := { s with db := s.db.setUser u row }

/-! ### Issuing links -/

/-- Insert a verification token. -/
def issueVerification (u : UserId) (raw : String) : Accounts :=
  { s with verifications :=
      .issue s.now (s.platform.emailVerificationTtlHours * hour) u (env.hashToken raw)
        :: s.verifications }

/-- Insert an invitation. -/
def issueInvitation (u : UserId) (raw : String) (invitedBy : Option UserId)
    (scope : Option ObjectId) : Accounts :=
  { s with invitations :=
      { token := .issue s.now (env.invitationTtlHours * hour) u (env.hashToken raw)
        invitedBy, scope } :: s.invitations }

/-- Revoke the user's pending verifications. -/
def revokeVerifications (u : UserId) : Accounts :=
  { s with verifications := revokePending s.now u s.verifications }

/-- Revoke the user's pending invitations in one scope. -/
def revokeInvitations (u : UserId) (scope : Option ObjectId) : Accounts :=
  { s with invitations := revokePendingInvitations s.now u scope s.invitations }

/-- Sweep the user's live invitations to ACCEPTED. -/
def acceptInvitations (u : UserId) : Accounts :=
  { s with invitations := acceptPendingInvitations s.now u s.invitations }

/-- Re-issue a platform invitation. The account stays INVITED and keeps its roles. -/
def reissuePlatformInvitation (u : UserId) (raw : String) (inviter : Option UserId) : Accounts :=
  (s.revokeInvitations u none).issueInvitation env u raw inviter none

/-- Revoke the user's pending reset tokens and insert a fresh one. -/
def issuePasswordReset (u : UserId) (raw : String) : Accounts :=
  { s with resets :=
      .issue s.now (env.passwordResetTtlHours * hour) u (env.hashToken raw)
        :: revokePending s.now u s.resets }

/-! ### Registration -/

/-- The terms version that a form's consent may be recorded against, if one is published. -/
def resolveSignupConsent (form : SignupForm) : Except ApiError (Option Nat) :=
  match s.terms with
  | none => .ok none
  | some current => do
    check form.consentTerms (.badRequest "The terms of service must be accepted.")
    check (form.termsId == some current)
      (.conflict "Those terms are no longer the current version.")
    return some current

/-- Stamp the consent of a form onto a row. -/
def recordSignupConsent (document : Option Nat) (form : SignupForm) (row : User) : User :=
  { row with consentEmails := form.consentEmails, acceptedTerms := document.or row.acceptedTerms }

/-- The row of a self-signup. -/
def signupRow (email : String) (form : SignupForm) (document : Option Nat) (r : RoleId) : User :=
  recordSignupConsent document form
    { email
      password := some (env.hashPassword form.password)
      firstName := form.firstName
      lastName := form.lastName
      status := .pending
      roleIds := [r] }

/-- What a registration does to an existing account. A revoked invitation stays revoked. -/
def registerExisting (u : UserId) (row : User) (raw : String) : Accounts :=
  match row.status with
  | .pending => (s.revokeVerifications u).issueVerification env u raw
  | .invited =>
    match latestInvitation s.invitations u with
    | some i =>
      if i.token.status = .revoked then s else s.reissuePlatformInvitation env u raw none
    | none => s.reissuePlatformInvitation env u raw none
  | .active => s
  | .inactive => s

/-- `POST /auth/register`. -/
def register (fresh : Fresh) (email : String) (form : SignupForm) : Except ApiError Accounts := do
  check (!s.platform.inviteOnly)
    (.forbidden "Self-registration is disabled; the platform is invite-only.")
  let document ← s.resolveSignupConsent form
  env.validatePassword s.platform.passwordPolicy form.password
    [some email, form.firstName, form.lastName]
  match s.db.userByEmail email with
  | none => do
    let (r, _) ← getDefaultRole s.db
    return (s.setUser fresh.user (signupRow env email form document r)).issueVerification env
      fresh.user fresh.token
  | some (u, row) => return s.registerExisting env u row fresh.token

/-- Re-issue the verification link of a self-signup that is still pending. -/
def resendVerification (fresh : Fresh) (email : String) : Accounts :=
  match s.db.userByEmail email with
  | none => s
  | some (u, row) =>
    if row.status = .pending then (s.revokeVerifications u).issueVerification env u fresh.token
    else s

/-- Consume a verification token and activate its user, whatever the status of the account. -/
def verifyEmail (raw : String) : Except ApiError Accounts := do
  let t ← resolveToken s.now s.verifications (env.hashToken raw) "Verification token not found."
    "Verification" "verified"
  match s.db.liveUser t.user with
  | none => throw (.gone "Verification user is no longer available.")
  | some row =>
    return ({ s.setUser t.user { row with status := .active, emailVerified := true } with
        verifications := consumeToken s.verifications (env.hashToken raw) }).acceptInvitations
      t.user

/-! ### Invitations -/

/-- The live roles of a user are exactly the requested ones. -/
def rolesMatch (db : Directory) (row : User) (roleIds : List RoleId) : Bool :=
  let current := row.roleIds.filter fun r => (db.liveRole r).isSome
  current.all roleIds.contains && roleIds.all current.contains

/-- The states of an existing account that a platform invitation refuses. -/
def assertInvitable (row : User) (roleIds : List RoleId) : Except ApiError Unit :=
  match row.status with
  | .active => .error (.conflict "User already active.")
  | .pending => .error (.conflict "User registration in progress.")
  | .inactive =>
    .error (.conflict "User is deactivated. Reactivate via PATCH /users/{id} first.")
  | .invited => check (rolesMatch s.db row roleIds)
    (.conflict ("User has different role assignment. Use PATCH /users/{id} to change roles, "
      ++ "then reissue invitation."))

/-- Issue, or re-issue, a platform invitation. -/
def inviteToPlatform (fresh : Fresh) (inviter : SessionUser) (email : String)
    (roleIds : RoleIds) : Except ApiError Accounts := do
  requirePermission inviter .usersInvite
  let roles ← resolveAssignableRoles s.db inviter roleIds.1 []
  let ids := roles.map Prod.fst
  match s.db.userByEmail email with
  | some (u, row) => do
    s.assertInvitable row ids
    return (s.revokeInvitations u none).issueInvitation env u fresh.token (some inviter.id) none
  | none =>
    return (s.setUser fresh.user { email, status := .invited, roleIds := ids }).issueInvitation
      env fresh.user fresh.token (some inviter.id) none

/-- `POST /users/{id}/invitation/resend`. -/
def resendInvitation (fresh : Fresh) (caller : SessionUser) (u : UserId) :
    Except ApiError Accounts := do
  requirePermission caller .usersInvite
  let row ← getUser s.db u
  assertCanManageInvitation caller (s.db.liveRoles row)
  check (row.status == .invited) (.conflict ("User is " ++ row.status.value
    ++ "; only an invited account has an invitation to resend."))
  return s.reissuePlatformInvitation env u fresh.token (some caller.id)

/-- `DELETE /users/{id}/invitation`. -/
def revokePlatformInvitation (caller : SessionUser) (u : UserId) : Except ApiError Accounts := do
  requirePermission caller .usersInvite
  let row ← getUser s.db u
  assertCanManageInvitation caller (s.db.liveRoles row)
  check (s.invitations.any (Invitation.pendingIn u none))
    (.notFound "User has no pending invitation.")
  return s.revokeInvitations u none

/-- Give a user exactly the roles on the group. -/
def assignRoles (db : Directory) (rows : List Assignment) (o : ObjectId) (u : UserId)
    (roles : List RoleId) : Except ApiError (List Assignment) :=
  if (heldRoles db rows o u).isEmpty then addMember rows o u roles
  else setMemberRoles db s.now rows o u roles

/-- `invite_to_group` for an account that is not onboarded yet: roles on the group, inert until
then, and a group invitation. -/
def inviteOnboarding (fresh : Fresh) (inviter : SessionUser) (o : ObjectId) (u : UserId)
    (roles : List RoleId) : Except ApiError Accounts := do
  let assignments ← s.assignRoles s.db s.assignments o u roles
  return ({ s with assignments }.revokeInvitations u (some o)).issueInvitation env u fresh.token
    (some inviter.id) (some o)

/-- `POST /evaluation-groups/{id}/invitations`, one row. -/
def inviteToGroup (fresh : Fresh) (inviter : SessionUser) (o : ObjectId) (email : String)
    (roleIds : RoleIds) : Except ApiError Accounts := do
  check (mayManageMembers s.db s.assignments inviter o) (.forbidden ("Caller lacks the "
    ++ quoted Permission.evaluationGroupsManageMembers.value ++ " permission for this group."))
  let roles ← resolveObjectRoles s.db roleIds.1
  let ids := roles.map Prod.fst
  match s.db.userByEmail email with
  | some (u, row) =>
    match row.status with
    | .inactive =>
      throw (.conflict "User is deactivated. Reactivate via PATCH /users/{id} first.")
    | .active => do
      let assignments ← s.assignRoles s.db s.assignments o u ids
      return { s with assignments }
    | .pending => s.inviteOnboarding env fresh inviter o u ids
    | .invited => s.inviteOnboarding env fresh inviter o u ids
  | none => do
    let (r, _) ← getDefaultRole s.db
    (s.setUser fresh.user { email, status := .invited, roleIds := [r] }).inviteOnboarding
      env fresh inviter o fresh.user ids

/-- The row after an invitation was accepted. -/
def acceptedRow (form : SignupForm) (document : Option Nat) (row : User) : User :=
  recordSignupConsent document form
    { row with
        password := some (env.hashPassword form.password)
        status := .active
        emailVerified := true
        firstName := form.firstName.or row.firstName
        lastName := form.lastName.or row.lastName }

/-- Set the password, activate the user, and mark the invitation accepted. Only an account that
is still onboarding may accept. -/
def acceptInvitation (raw : String) (form : SignupForm) : Except ApiError Accounts := do
  let document ← s.resolveSignupConsent form
  match findInvitation s.invitations (env.hashToken raw) with
  | none => throw (.notFound "Invitation not found.")
  | some i =>
    match s.db.liveUser i.token.user with
    | none => throw (.gone "Invitation user is no longer available.")
    | some row => do
      check (i.token.effective s.now == .pending)
        (.gone ("Invitation is " ++ (i.token.effective s.now).value "accepted" ++ "."))
      check (row.status == .invited || row.status == .pending)
        (.gone "Account is no longer awaiting onboarding.")
      env.validatePassword s.platform.passwordPolicy form.password
        [some row.email, form.firstName, form.lastName]
      return ({ s.setUser i.token.user (acceptedRow env form document row) with
          invitations := consumeInvitation s.invitations (env.hashToken raw) }).acceptInvitations
        i.token.user

/-! ### Login through an identity provider -/

/-- An optional string claim, dropped when it has another type. -/
def optionalStrClaim (claims : String → Option Claim) (key : String) : Option String :=
  match claims key with
  | some (.str v) => some v
  | _ => none

/-- The `email_verified` claim. Some providers send it as text. -/
def emailVerifiedClaim (claims : String → Option Claim) : Bool :=
  match claims "email_verified" with
  | some (.bool b) => b
  | some (.str v) => env.lower (env.strip v) == "true"
  | some (.other text) => env.lower (env.strip text) == "true"
  | none => false

/-- The e-mail's domain, and Google's `hd` when sent, are allowed. -/
def domainAllowed (email : String) (claims : String → Option Claim) : Bool :=
  email.contains '@' && env.oidcAllowedDomains.contains (afterLastAt email) &&
    match claims "hd" with
    | none => true
    | some (.str hd) => env.oidcAllowedDomains.contains (env.lower (env.strip hd))
    | some _ => false

/-- The detail of a refused domain. -/
def domainDetail (email : String) (claims : String → Option Claim) : String :=
  match claims "hd" with
  | none => "email domain " ++ quoted (afterLastAt email) ++ " is not in OIDC_ALLOWED_DOMAINS"
  | some hd => "email domain " ++ quoted (afterLastAt email) ++ " / hd " ++ hd.repr
      ++ " are not both in OIDC_ALLOWED_DOMAINS"

/-- The live identity of a provider's subject. -/
def getIdentity (provider subject : String) : Option ProviderIdentity :=
  s.identities.find? fun i => i.deletedAt.isNone && i.provider == provider && i.subject == subject

/-- A login refused because of the account's state. -/
def inactiveAccount (u : UserId) (status : UserStatus) : ApiError :=
  .loginRefused "account_inactive" ("account " ++ toString u ++ " is " ++ status.value)

/-- An INVITED account is not activated behind an invitation that was revoked or has expired. -/
def assertStillInvited (u : UserId) (row : User) : Except ApiError Unit :=
  match latestInvitation s.invitations u with
  | some i =>
    check (row.status != .invited || i.token.effective s.now == .pending)
      (.loginRefused "account_inactive"
        ("account " ++ toString u ++ "'s invitation is no longer pending"))
  | none => .ok ()

/-- The row after a provider vouched for the account. A password from before goes. -/
def activatedRow (emailVerified : Bool) (row : User) : User :=
  { row with
      status := .active
      password := none
      passwordCleared := row.passwordCleared || row.password.isSome
      emailVerified := row.emailVerified || emailVerified }

/-- Promote a PENDING or INVITED account that the provider vouched for. -/
def activate (u : UserId) (row : User) (emailVerified : Bool) : Except ApiError Accounts := do
  s.assertStillInvited u row
  return (s.setUser u (activatedRow emailVerified row)).acceptInvitations u

/-- Link the provider's subject to an account. -/
def linkIdentity (provider subject : String) (u : UserId) : Accounts :=
  { s with identities := { provider, subject, user := u } :: s.identities }

/-- Log in to the account that owns the e-mail: activate one that is still onboarding, and refuse
any other that is not ACTIVE. -/
def loginByEmail (provider subject : String) (u : UserId) (row : User) (emailVerified : Bool) :
    Except ApiError Accounts :=
  match row.status with
  | .active => .ok (s.linkIdentity provider subject u)
  | .inactive => .error (inactiveAccount u row.status)
  | .pending => return (← s.activate u row emailVerified).linkIdentity provider subject u
  | .invited => return (← s.activate u row emailVerified).linkIdentity provider subject u

/-- The account of a first login through a provider. -/
def provisionedRow (email : String) (claims : String → Option Claim) (emailVerified : Bool)
    (r : RoleId) : User :=
  { email
    firstName := optionalStrClaim claims "given_name"
    lastName := optionalStrClaim claims "family_name"
    emailVerified
    status := .active
    roleIds := [r] }

/-- Find, or provision, the account behind an identity. -/
def resolveUser (fresh : Fresh) (provider subject email : String) (emailVerified : Bool)
    (claims : String → Option Claim) : Except ApiError Accounts :=
  match s.getIdentity provider subject with
  | some identity =>
    match s.db.liveUser identity.user with
    | none => .error (.loginRefused "account_inactive" "account behind identity no longer exists")
    | some row => do
      check (row.status == .active) (inactiveAccount identity.user row.status)
      return s
  | none =>
    match s.db.userByEmail email with
    | some (u, row) => s.loginByEmail provider subject u row emailVerified
    | none => do
      check (!s.platform.inviteOnly) (.loginRefused "invite_only"
        "self-serve provisioning is disabled; the platform is invite-only")
      let (r, _) ← getDefaultRole s.db
      return (s.setUser fresh.user (provisionedRow email claims emailVerified r)).linkIdentity
        provider subject fresh.user

/-- `finalize_login`: the account behind the claims of an id token. -/
def finalizeLogin (fresh : Fresh) (provider : String) (claims : String → Option Claim) :
    Except ApiError Accounts :=
  let missing := ApiError.loginRefused "invalid_claims"
    "id_token is missing required claim 'sub' or 'email'"
  match optionalStrClaim claims "sub", optionalStrClaim claims "email" with
  | some subject, some claimed => do
    check (subject != "") missing
    let email := env.lower (env.strip claimed)
    check (email != "") missing
    let emailVerified := emailVerifiedClaim env claims
    let restricted := !env.oidcAllowedDomains.isEmpty
    check (emailVerified || !restricted && env.trustsUnverifiedEmail provider)
      (.loginRefused "email_unverified"
        ("id_token email is not verified by provider " ++ provider))
    check (!restricted || domainAllowed env email claims)
      (.loginRefused "domain_not_allowed" (domainDetail email claims))
    s.resolveUser fresh provider subject email emailVerified claims
  | _, _ => .error missing

/-! ### Password resets -/

/-- An account cannot be sent a self-service reset link. -/
def ineligible (row : User) : Bool :=
  row.status != .active || row.password.isNone && !row.passwordCleared

/-- An account may not be sent another link yet: the daily cap, or the cooldown. -/
def throttled (u : UserId) : Bool :=
  let window := s.resets.filter fun t => t.user == u && decide (s.now < t.createdAt + day)
  decide (s.platform.passwordResetMaxPerDay ≤ window.length) ||
    window.any fun t => decide (s.now < t.createdAt + s.platform.passwordResetCooldownSeconds)

/-- Issue a reset token for an eligible account. Any other outcome is silent. -/
def requestPasswordReset (fresh : Fresh) (email : String) : Accounts :=
  match s.db.userByEmail email with
  | none => s
  | some (u, row) =>
    if ineligible row || s.throttled u then s else s.issuePasswordReset env u fresh.token

/-- `POST /users/{id}/password-reset`. -/
def sendPasswordReset (fresh : Fresh) (caller : SessionUser) (u : UserId) :
    Except ApiError Accounts := do
  requirePermission caller .usersUpdate
  let row ← getUser s.db u
  check (row.status == .active) (.conflict ("User is " ++ row.status.value
    ++ "; only an active account can be sent a password reset."))
  check row.password.isSome (.conflict
    "User has no password to reset; the account signs in through an identity provider.")
  return s.issuePasswordReset env u fresh.token

/-- Write the new password and mark the token used. Only an ACTIVE account may. -/
def confirmPasswordReset (raw password : String) : Except ApiError Accounts := do
  let t ← resolveToken s.now s.resets (env.hashToken raw) "Password reset token not found."
    "Password reset token" "used"
  match s.db.liveUser t.user with
  | none => throw (.gone "Password reset is no longer available for this account.")
  | some row => do
    check (row.status == .active)
      (.gone "Password reset is no longer available for this account.")
    env.validatePassword s.platform.passwordPolicy password
      [some row.email, row.firstName, row.lastName]
    return { s.setUser t.user { row with password := some (env.hashPassword password) } with
      resets := consumeToken s.resets (env.hashToken raw) }

/-! ### Administration of users -/

/-- Switch an account between ACTIVE and INACTIVE. -/
def changeUserStatus (row : User) (status : SettableUserStatus) : Except ApiError User := do
  if row.status = status.toStatus then return row
  check (row.status == .active || row.status == .inactive)
    (.conflict ("User is " ++ row.status.value
      ++ "; only an active or inactive account can be activated or deactivated."))
  return { row with status := status.toStatus }

/-- `POST /users/{id}/status`. -/
def changeStatus (caller : SessionUser) (u : UserId) (status : SettableUserStatus) :
    Except ApiError Accounts := do
  requirePermission caller .usersUpdate
  let row ← getUser s.db u
  check (caller.id != u) (.forbidden "Cannot change your own account status.")
  assertCanManageStatus caller (s.db.liveRoles row)
  let row ← changeUserStatus row status
  return s.setUser u row

/-- The roles that a full-set update keeps although it does not name them: the projection hides
them, so the caller never saw them. -/
def keptRoles (row : User) (assigned : List RoleId) : List RoleId :=
  hiddenRoles s.db (row.roleIds.filter fun r => !assigned.contains r)

/-- The role ids of a row after an update. -/
def updatedRoleIds (caller : SessionUser) (row : User) (roleIds : Option RoleIds) :
    Except ApiError (List RoleId) :=
  match roleIds with
  | none => .ok row.roleIds
  | some ids => do
    let roles ← resolveAssignableRoles s.db caller ids.1 (s.db.liveRoles row)
    return roles.map Prod.fst ++ s.keptRoles row (roles.map Prod.fst)

/-- `PATCH /users/{id}`. -/
def updateUser (caller : SessionUser) (u : UserId) (changes : UserUpdate) :
    Except ApiError Accounts := do
  requirePermission caller .usersUpdate
  let row ← getUser s.db u
  let roleIds ← s.updatedRoleIds caller row changes.roleIds
  return s.setUser u
    { row with
        roleIds
        firstName := changes.firstName.getD row.firstName
        lastName := changes.lastName.getD row.lastName }

/-- The identities after a user was deleted: the link of a live one goes with its user. -/
def dropIdentities (u : UserId) : List ProviderIdentity :=
  s.identities.map fun i =>
    if i.user = u ∧ i.deletedAt = none then { i with deletedAt := some s.now } else i

/-- `DELETE /users/{id}`. -/
def deleteUser (caller : SessionUser) (u : UserId) : Except ApiError Accounts := do
  requirePermission caller .usersDelete
  let row ← getUser s.db u
  check (caller.id != u) (.forbidden "Cannot delete your own account.")
  assertCanDeleteUser caller (s.db.liveRoles row)
  let orphaned := objectsSolelyHeldBy s.db s.assignments u
  check orphaned.isEmpty (.conflict ("User is the sole " ++ protectedRole.value ++ " of "
    ++ toString orphaned.length ++ " object(s); reassign before deleting them."))
  return { s.setUser u { row with deletedAt := some s.now } with
    identities := s.dropIdentities u }

/-- `POST /users/{id}/restore`. The status and the roles are as the delete left them. -/
def restoreUser (caller : SessionUser) (u : UserId) : Except ApiError Accounts := do
  requirePermission caller .usersDelete
  match (s.db.user u).filter fun row =>
      restorable s.now (env.restoreWindowDays * day) row.deletedAt with
  | none => throw (.notFound ("No restorable user " ++ toString u
      ++ " was deleted within the restore window."))
  | some row => do
    assertCanRestoreUser caller (s.db.liveRoles row)
    check ((s.db.liveRoles row).any Role.isActive) (.conflict ("Cannot restore "
      ++ quoted row.email ++ ": none of its roles is live and active. "
      ++ "Restore or reactivate one first."))
    check (s.db.userByEmail row.email).isNone
      (.conflict ("A user with email " ++ quoted row.email ++ " already exists."))
    return s.setUser u { row with deletedAt := none }

/-- A request on the role table, behind its gate. -/
def roleRequest (caller : SessionUser) (write : Except ApiError Directory) :
    Except ApiError Accounts := do
  requirePermission caller .rolesManage
  let db ← write
  return { s with db }

end Accounts

/-! ### The system -/

/-- A request to the platform. `tick` is the passing of time, and `configure` an operator's change
of the platform settings or a publication of terms. -/
inductive Request
  | tick (seconds : Nat)
  | configure (platform : PlatformSettings) (terms : Option Nat)
  | register (email : String) (form : SignupForm)
  | resendVerification (email : String)
  | verifyEmail (raw : String)
  | inviteToPlatform (inviter : SessionUser) (email : String) (roleIds : RoleIds)
  | resendInvitation (caller : SessionUser) (u : UserId)
  | revokeInvitation (caller : SessionUser) (u : UserId)
  | inviteToGroup (inviter : SessionUser) (o : ObjectId) (email : String) (roleIds : RoleIds)
  | acceptInvitation (raw : String) (form : SignupForm)
  | oidcLogin (provider : String) (claims : String → Option Claim)
  | requestPasswordReset (email : String)
  | sendPasswordReset (caller : SessionUser) (u : UserId)
  | confirmPasswordReset (raw password : String)
  | changeStatus (caller : SessionUser) (u : UserId) (status : SettableUserStatus)
  | updateUser (caller : SessionUser) (u : UserId) (changes : UserUpdate)
  | deleteUser (caller : SessionUser) (u : UserId)
  | restoreUser (caller : SessionUser) (u : UserId)
  | createRole (caller : SessionUser) (form : RoleCreate)
  | updateRole (caller : SessionUser) (r : RoleId) (payload : RoleUpdate)
  | deleteRole (caller : SessionUser) (r : RoleId)
  | restoreRole (caller : SessionUser) (r : RoleId)

/-- The authenticated caller of a request, if it has one. -/
def Request.caller? : Request → Option SessionUser
  | .inviteToPlatform inviter _ _ => some inviter
  | .resendInvitation caller _ => some caller
  | .revokeInvitation caller _ => some caller
  | .inviteToGroup inviter _ _ _ => some inviter
  | .sendPasswordReset caller _ => some caller
  | .changeStatus caller _ _ => some caller
  | .updateUser caller _ _ => some caller
  | .deleteUser caller _ => some caller
  | .restoreUser caller _ => some caller
  | .createRole caller _ => some caller
  | .updateRole caller _ _ => some caller
  | .deleteRole caller _ => some caller
  | .restoreRole caller _ => some caller
  | _ => none

namespace Accounts
variable (env : Env) (s : Accounts)

/-- What a request does. -/
def perform (fresh : Fresh) : Request → Except ApiError Accounts
  | .tick seconds => .ok { s with now := s.now + seconds }
  | .configure platform terms => .ok { s with platform, terms }
  | .register email form => s.register env fresh email form
  | .resendVerification email => .ok (s.resendVerification env fresh email)
  | .verifyEmail raw => s.verifyEmail env raw
  | .inviteToPlatform inviter email roleIds => s.inviteToPlatform env fresh inviter email roleIds
  | .resendInvitation caller u => s.resendInvitation env fresh caller u
  | .revokeInvitation caller u => s.revokePlatformInvitation caller u
  | .inviteToGroup inviter o email roleIds => s.inviteToGroup env fresh inviter o email roleIds
  | .acceptInvitation raw form => s.acceptInvitation env raw form
  | .oidcLogin provider claims => s.finalizeLogin env fresh provider claims
  | .requestPasswordReset email => .ok (s.requestPasswordReset env fresh email)
  | .sendPasswordReset caller u => s.sendPasswordReset env fresh caller u
  | .confirmPasswordReset raw password => s.confirmPasswordReset env raw password
  | .changeStatus caller u status => s.changeStatus caller u status
  | .updateUser caller u changes => s.updateUser caller u changes
  | .deleteUser caller u => s.deleteUser caller u
  | .restoreUser caller u => s.restoreUser env caller u
  | .createRole caller form => s.roleRequest caller (createRole s.db fresh.role form)
  | .updateRole caller r payload =>
    s.roleRequest caller (patchRole s.db s.assignments r payload)
  | .deleteRole caller r => s.roleRequest caller (removeRole s.db s.now s.assignments r)
  | .restoreRole caller r =>
    s.roleRequest caller (restoreRole s.db s.now (env.restoreWindowDays * day) r)

/-- The ids and the token are not in use. The unique indexes refuse a row that repeats one. -/
def unused (fresh : Fresh) : Bool :=
  let hash := env.hashToken fresh.token
  (s.db.user fresh.user).isNone && (s.db.role fresh.role).isNone &&
    (findToken s.verifications hash).isNone && (findToken s.resets hash).isNone &&
    (findInvitation s.invitations hash).isNone

/-- A label: a request with what it draws. -/
structure Label where
  request : Request
  fresh : Fresh

/-- One transaction. A request that raises leaves the tables as they were. -/
def step (l : Label) : Option Accounts :=
  if s.unused env l.fresh then some ((s.perform env l.fresh l.request).toOption.getD s) else none

/-- A step is a request that succeeds, or one that leaves the state as it was. -/
theorem step_cases {env : Env} {s s' : Accounts} {l : Label} (h : s.step env l = some s') :
    s.unused env l.fresh = true ∧
      (s.perform env l.fresh l.request = .ok s' ∨ s' = s) := by
  unfold step at h
  split at h
  · rename_i hunused
    refine ⟨hunused, ?_⟩
    cases hperform : s.perform env l.fresh l.request with
    | error e =>
      rw [hperform] at h
      cases h
      exact Or.inr rfl
    | ok s'' =>
      rw [hperform] at h
      cases h
      exact Or.inl rfl
  · cases h

/-! ### A deployment -/

/-- An environment that hashes to the text itself and admits every password. -/
def plainEnv : Env where
  hashToken raw := raw
  hashPassword password := password
  validatePassword _ _ _ := .ok ()
  strip text := text
  lower text := text
  trustsUnverifiedEmail _ := false

/-- The tables before the first sync: user 1, with the role 1. -/
def unsynced : Directory where
  user u :=
    if u = 1 then some { email := "root@example.com", status := .active, roleIds := [1] }
      else none
  role _ := none
  userIds := [1]
  roleIds := []
  mem_userIds := by simp
  mem_roleIds := by simp

/-- The ids of the system roles: 1 to 5. -/
def systemRoleId (r : SystemRole) : RoleId := SystemRole.all.idxOf r + 1

/-- A deployment after the first sync, with one account, an admin. -/
def deployed : Accounts where
  db := syncSystemRoles systemRoleId unsynced
  now := 1000

/-- The session of the admin. -/
def rootSession : SessionUser where
  id := 1
  provider := "local"
  permissions := SystemRole.admin.permissions
  authTime := some 1000
  issuedAt := some 1000

end Accounts

end RedTeaming.Auth
