import RedTeaming.Auth.ObjectRoles

/-!
# `RedTeaming.Auth.Links`: one-time links

The tokens behind the links that the platform mails: e-mail verifications, password resets, and
invitations. The tables have the same life cycle (`core/auth/services/tokens.py`). A row stores
the hash of a raw token, starts PENDING, and ends consumed, revoked, or expired. Expiry is lazy:
no write marks it, and `effective` projects it onto the status at reading time.

Re-issuing revokes what is pending and inserts a fresh row. For invitations this happens in one
scope: the platform, or one evaluation group.
-/

set_option autoImplicit false

namespace RedTeaming.Auth

/-- The status of a link. `used` stands for `verified`, `used`, or `accepted`, by the table. -/
inductive LinkStatus
  | pending | used | expired | revoked
deriving DecidableEq, Repr

/-- The status string. `used` is the word of the table for a consumed link. -/
def LinkStatus.value (used : String) : LinkStatus → String
  | .pending => "pending"
  | .used => used
  | .expired => "expired"
  | .revoked => "revoked"

/-- A row of `email_verifications` or `password_reset_tokens`. No code tombstones one. -/
structure LinkToken where
  user : UserId
  tokenHash : String
  createdAt : Nat
  expiresAt : Nat
  revokedAt : Option Nat := none
  status : LinkStatus := .pending
deriving DecidableEq

namespace LinkToken
variable (t : LinkToken)

/-- `project_expired`: an overdue PENDING token reads as EXPIRED. -/
def effective (now : Nat) : LinkStatus :=
  if t.status = .pending ∧ t.expiresAt ≤ now then .expired else t.status

/-- The row after a revocation. -/
def revoke (now : Nat) : LinkToken := { t with status := .revoked, revokedAt := some now }

/-- The row after the link was used. -/
def consume : LinkToken := { t with status := .used }

/-- A fresh row. -/
def issue (now ttl : Nat) (u : UserId) (tokenHash : String) : LinkToken :=
  { user := u, tokenHash, createdAt := now, expiresAt := now + ttl }

/-- A link is effective-pending when it is unused, unrevoked, and not past its expiry. -/
theorem effective_eq_pending {t : LinkToken} {now : Nat} :
    t.effective now = .pending ↔ t.status = .pending ∧ now < t.expiresAt := by
  unfold effective
  split
  · rename_i h
    have := h.2
    constructor
    · intro h
      cases h
    · rintro ⟨-, hlt⟩
      omega
  · rename_i h
    constructor
    · intro hp
      exact ⟨hp, by_contra fun hlt => h ⟨hp, by omega⟩⟩
    · exact fun hp => hp.1

end LinkToken

/-- Revoke the user's PENDING tokens. -/
def revokePending (now : Nat) (u : UserId) (rows : List LinkToken) : List LinkToken :=
  rows.map fun t => if t.user = u ∧ t.status = .pending then t.revoke now else t

/-- The row of a token, by its hash. The unique index makes it the only one. -/
def findToken (rows : List LinkToken) (tokenHash : String) : Option LinkToken :=
  rows.find? fun t => t.tokenHash == tokenHash

/-- The table after a token was used. -/
def consumeToken (rows : List LinkToken) (tokenHash : String) : List LinkToken :=
  rows.map fun t => if t.tokenHash = tokenHash then t.consume else t

/-- Look up a token that can still be used. `what` names the table in the messages, and `used` is
its word for a consumed link. -/
def resolveToken (now : Nat) (rows : List LinkToken) (tokenHash missing what used : String) :
    Except ApiError LinkToken :=
  match findToken rows tokenHash with
  | none => .error (.notFound missing)
  | some t => do
    check (t.effective now == .pending)
      (.gone (what ++ " is " ++ (t.effective now).value used ++ "."))
    return t

/-- A token that resolves is in the table and effective-pending. -/
theorem resolveToken_spec {now : Nat} {rows : List LinkToken}
    {tokenHash missing what used : String} {t : LinkToken}
    (h : resolveToken now rows tokenHash missing what used = .ok t) :
    findToken rows tokenHash = some t ∧ t.effective now = .pending := by
  unfold resolveToken at h
  split at h
  · cases h
  · rename_i t' hfind
    simp only [bind_eq_ok, check_eq_ok, beq_iff_eq] at h
    obtain ⟨_, hpending, h⟩ := h
    cases h
    exact ⟨hfind, hpending⟩

/-! ### Invitations -/

/-- A row of `invitations`. `scope` is the evaluation group of a group invitation, and `none` for
a platform invitation. -/
structure Invitation where
  token : LinkToken
  invitedBy : Option UserId := none
  scope : Option ObjectId := none
deriving DecidableEq

/-- The invitation is a PENDING one of the user, in the scope. -/
def Invitation.pendingIn (u : UserId) (scope : Option ObjectId) (i : Invitation) : Bool :=
  i.token.user == u && i.token.status == .pending && i.scope == scope

/-- Revoke the user's PENDING invitations in one scope. -/
def revokePendingInvitations (now : Nat) (u : UserId) (scope : Option ObjectId)
    (rows : List Invitation) : List Invitation :=
  rows.map fun i => if i.pendingIn u scope then { i with token := i.token.revoke now } else i

/-- Sweep the user's effective-pending invitations, of every scope, to ACCEPTED. -/
def acceptPendingInvitations (now : Nat) (u : UserId) (rows : List Invitation) :
    List Invitation :=
  rows.map fun i =>
    if i.token.user = u ∧ i.token.effective now = .pending
      then { i with token := i.token.consume }
    else i

/-- `order_by` of `User.invitations`: newest first, and among rows of one instant an unrevoked
one first. -/
def Invitation.before (i j : Invitation) : Bool :=
  if i.token.createdAt ≠ j.token.createdAt then decide (j.token.createdAt < i.token.createdAt)
  else
    match i.token.revokedAt, j.token.revokedAt with
    | none, some _ => true
    | some _, none => false
    | some a, some b => decide (a < b) || a == b && decide (j.token.expiresAt ≤ i.token.expiresAt)
    | none, none => decide (j.token.expiresAt ≤ i.token.expiresAt)

/-- The first of some invitations in that order. -/
def firstInvitation : List Invitation → Option Invitation
  | [] => none
  | i :: rows =>
    match firstInvitation rows with
    | none => some i
    | some j => if i.before j then some i else some j

/-- `user.invitations[0]`: the latest platform invitation of a user. -/
def latestInvitation (rows : List Invitation) (u : UserId) : Option Invitation :=
  firstInvitation (rows.filter fun i => i.token.user == u && i.scope == none)

/-- The invitation of a token, by its hash. -/
def findInvitation (rows : List Invitation) (tokenHash : String) : Option Invitation :=
  rows.find? fun i => i.token.tokenHash == tokenHash

/-- The table after an invitation was accepted. -/
def consumeInvitation (rows : List Invitation) (tokenHash : String) : List Invitation :=
  rows.map fun i =>
    if i.token.tokenHash = tokenHash then { i with token := i.token.consume } else i

end RedTeaming.Auth
