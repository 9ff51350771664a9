import RedTeaming.Auth.Accounts
import RedTeaming.Library.Locks
import RedTeaming.Library.Transition

/-!
# `RedTeaming.Auth.ResetSystem`: concurrent password resets

The requests that write `password_reset_tokens` run as concurrent transactions: the self-service
`request_password_reset`, the admin's single and bulk sends, and `confirm_password_reset`. A step
is one database statement of one transaction, or the lock of one row by such a statement.

- A statement reads the committed rows of its moment (READ COMMITTED). No statement of these
  transactions selects a row that its own transaction wrote.
- `SELECT ... FOR UPDATE` fixes the rows it wants when it starts, and then locks them one by one.
  It waits for a row that another transaction holds. Then it reads the row again, and passes over
  one that it does not want any more.
- An `UPDATE` of a user locks the row against other updates and against `FOR UPDATE`. An insert of
  a token locks the row of its user against `FOR UPDATE` only, for the foreign key.
- Locks are held to the end of the transaction.

Only the self-service request locks the row of its user. A transaction can end by `abort` at any
time: an error of the service, a violated index, or a deadlock. A row of a bulk send that fails
ends its savepoint, not the transaction. `identity` is what the other services commit to the users
and to the platform settings, at any time.
-/

set_option autoImplicit false

namespace RedTeaming.Auth.Resets

open RedTeaming.Library

abbrev RowId := Nat
abbrev TxnId := Nat

/-- A request. The rows of a bulk send name each user once. -/
inductive Request
  | requestReset (email : String)
  | send (caller : SessionUser) (u : UserId)
  | sendBulk (caller : SessionUser) (rows : { rows : List UserId // rows.Nodup }) (dryRun : Bool)
  | confirm (raw password : String)

/-- The gate of the route. -/
def Request.authorize : Request → Except ApiError Unit
  | .send caller _ | .sendBulk caller _ _ => requirePermission caller .usersUpdate
  | .requestReset _ | .confirm _ _ => .ok ()

/-- The rows of a send. -/
def Request.targets : Request → List UserId
  | .send _ u => [u]
  | .sendBulk _ rows _ => rows.val
  | .requestReset _ | .confirm _ _ => []

/-- The request is the self-service one. -/
def Request.selfService : Request → Bool
  | .requestReset _ => true
  | _ => false

/-- The request rolls back at its end. -/
def Request.dryRun : Request → Bool
  | .sendBulk _ _ dryRun => dryRun
  | _ => false

/-- Where a transaction is. A self-service request goes from `begun` over `located` and `locked`
to `loaded`, a send from `ready` to `loaded` for each of its rows. `locking u seen wanted got` is
the `FOR UPDATE` of `_revoke_pending_resets`: it still wants the rows `wanted`, and holds the rows
`got`. `seen` is the number of rows that were committed when it started. -/
inductive Phase
  | begun
  | located (u : UserId)
  | locked (u : UserId)
  | loaded (u : UserId)
  | locking (u : UserId) (seen : Nat) (wanted got : List RowId)
  | revoked (u : UserId) (seen : Nat)
  | found (i : RowId)
  | held (i : RowId)
  | checked (i : RowId) (u : UserId)
  | ready

/-- An inserted token, with what the revocation before it could see. -/
structure Minted where
  token : LinkToken
  seen : Nat

/-- A used token, with the user and the hash of the new password. -/
structure Used where
  row : RowId
  user : UserId
  password : String

/-- An open transaction. `todo` are the rows of a send that are still to do. The other fields are
its writes: the rows it revoked, with the time, the tokens it inserted, and the token it used. -/
structure Txn where
  request : Request
  startedAt : Nat
  phase : Phase
  todo : List UserId := []
  revokes : List (RowId × Nat) := []
  minted : List Minted := []
  used : Option Used := none

/-- The committed rows, the open transactions, and the locks. `userLock` is held by a
`FOR UPDATE`, `userWrite` by an `UPDATE`. `passwordsSet` lists the tokens of the confirmations
that committed, and `begun` the transactions begun so far. -/
structure State where
  db : Directory
  platform : PlatformSettings := {}
  rows : List LinkToken := []
  passwordsSet : List RowId := []
  txns : TxnId → Option Txn := fun _ => none
  begun : List TxnId := []
  tokenLock : Locks RowId TxnId := fun _ => none
  userLock : Locks UserId TxnId := fun _ => none
  userWrite : Locks UserId TxnId := fun _ => none
  now : Nat := 0

/-- The row is a PENDING one of the user. -/
def isPending (u : UserId) (row : LinkToken) : Bool := row.user == u && row.status == .pending

/-- The ids of the rows that `_revoke_pending_resets` selects. -/
def selectPending (rows : List LinkToken) (u : UserId) : List RowId :=
  (List.range rows.length).filter fun i => (rows[i]?).any (isPending u)

/-- `assert_password_reset_allowed`: an admin may send a link to an ACTIVE account with a
password. -/
def assertPasswordResetAllowed (row : User) : Except ApiError Unit := do
  check (row.status == .active) (.conflict ("User is " ++ row.status.value
    ++ "; only an active account can be sent a password reset."))
  check row.password.isSome (.conflict
    "User has no password to reset; the account signs in through an identity provider.")

/-- The account may confirm a reset: it is live and ACTIVE. -/
def assertResetAvailable (db : Directory) (u : UserId) : Except ApiError User :=
  match (db.liveUser u).filter fun row => row.status == .active with
  | some row => .ok row
  | none => .error (.gone "Password reset is no longer available for this account.")

namespace State

/-- Write the record of a transaction. -/
def setTxn (s : State) (t : TxnId) (txn : Txn) : State :=
  { s with txns := Function.update s.txns t (some txn) }

@[simp] theorem setTxn_txns_self (s : State) (t : TxnId) (txn : Txn) :
    (s.setTxn t txn).txns t = some txn := Function.update_self _ _ _

/-- The records of the other transactions stay. -/
@[simp] theorem setTxn_txns_of_ne {s : State} {t t' : TxnId} {txn : Txn} (h : t' ≠ t) :
    (s.setTxn t txn).txns t' = s.txns t' := Function.update_of_ne h _ _

/-- Start a request behind the gate of its route. -/
def begin (s : State) (t : TxnId) (request : Request) : Option State :=
  match s.txns t, request.authorize with
  | none, .ok _ =>
    let phase := match request with
      | .requestReset _ | .confirm _ _ => Phase.begun
      | .send _ _ | .sendBulk _ _ _ => Phase.ready
    some ({ s with begun := t :: s.begun }.setTxn t
      { request, startedAt := s.now, phase, todo := request.targets })
  | _, _ => none

/-! ### The self-service request -/

/-- `get_user_by_email`, and the check before the lock. An unknown or ineligible account ends the
request in silence. -/
def locate (s : State) (t : TxnId) (txn : Txn) : Option State :=
  match txn.phase, txn.request with
  | .begun, .requestReset email =>
    match s.db.userByEmail email with
    | some (u, row) =>
      some (s.setTxn t
        { txn with phase := if Accounts.ineligible row then .ready else .located u })
    | none => some (s.setTxn t { txn with phase := .ready })
  | _, _ => none

/-- An open transaction other than `t` has inserted a token of the user. -/
def keyShared (s : State) (u : UserId) (t : TxnId) : Bool :=
  s.begun.any fun t' => t' != t &&
    (s.txns t').any fun txn => txn.minted.any fun m => m.token.user == u

/-- `get_user(for_update=True)`, and the check under the lock. -/
def lockUser (s : State) (t : TxnId) (txn : Txn) : Option State :=
  match txn.phase with
  | .located u =>
    match s.db.liveUser u with
    | some row =>
      if s.userLock.mayTake u t && s.userWrite.mayTake u t && !s.keyShared u t then
        some ({ s with userLock := s.userLock.take u t }.setTxn t
          { txn with phase := if Accounts.ineligible row then .ready else .locked u })
      else none
    | none => some (s.setTxn t { txn with phase := .ready })
  | _ => none

/-- `_throttle_reason`. The clock of the database is the start of the transaction. -/
def throttled (s : State) (txn : Txn) (u : UserId) : Bool :=
  Accounts.throttled
    { db := s.db, platform := s.platform, resets := s.rows, now := txn.startedAt } u

/-- Ask whether the account may be sent another link. -/
def throttle (s : State) (t : TxnId) (txn : Txn) : Option State :=
  match txn.phase with
  | .locked u =>
    some (s.setTxn t { txn with phase := if s.throttled txn u then .ready else .loaded u })
  | _ => none

/-! ### The sends -/

/-- `get_user` and `assert_password_reset_allowed` for the next row. A row that fails ends a
single send with an error, and is skipped by a bulk send. -/
def loadUser (s : State) (t : TxnId) (txn : Txn) : Option State :=
  match txn.phase, txn.todo with
  | .ready, u :: todo =>
    match getUser s.db u >>= assertPasswordResetAllowed, txn.request with
    | .ok _, _ => some (s.setTxn t { txn with phase := .loaded u, todo })
    | .error _, .sendBulk _ _ _ => some (s.setTxn t { txn with todo })
    | .error _, _ => none
  | _, _ => none

/-! ### `issue_password_reset` -/

/-- Start the `FOR UPDATE` over the user's PENDING tokens. -/
def beginRevoke (s : State) (t : TxnId) (txn : Txn) : Option State :=
  match txn.phase with
  | .loaded u =>
    let phase := .locking u s.rows.length (selectPending s.rows u) []
    some (s.setTxn t { txn with phase })
  | _ => none

/-- Lock the next token, wait for it, or pass over one that is not PENDING any more. -/
def lockToken (s : State) (t : TxnId) (txn : Txn) : Option State :=
  match txn.phase with
  | .locking u seen (i :: wanted) got =>
    if s.tokenLock.mayTake i t then
      if (s.rows[i]?).any (isPending u) then
        some ({ s with tokenLock := s.tokenLock.take i t }.setTxn t
          { txn with phase := .locking u seen wanted (i :: got) })
      else some (s.setTxn t { txn with phase := .locking u seen wanted got })
    else none
  | _ => none

/-- Mark the locked tokens REVOKED. -/
def revoke (s : State) (t : TxnId) (txn : Txn) : Option State :=
  match txn.phase with
  | .locking u seen [] got =>
    some (s.setTxn t
      { txn with phase := .revoked u seen, revokes := txn.revokes ++
                   got.map fun i => (i, s.now) })
  | _ => none

/-- The hash is that of a committed token or of an open insert. -/
def hashTaken (s : State) (tokenHash : String) : Bool :=
  s.rows.any (fun row => row.tokenHash == tokenHash) ||
    s.begun.any fun t => (s.txns t).any fun txn =>
      txn.minted.any fun m => m.token.tokenHash == tokenHash

/-- Insert the fresh token. It waits for a `FOR UPDATE` of its user. -/
def mint (env : Env) (raw : String) (s : State) (t : TxnId) (txn : Txn) : Option State :=
  match txn.phase with
  | .revoked u seen =>
    let token : LinkToken :=
      { user := u, tokenHash := env.hashToken raw, createdAt := txn.startedAt
        expiresAt := s.now + env.passwordResetTtlHours * Accounts.hour }
    if s.userLock.mayTake u t && !s.hashTaken token.tokenHash then
      some (s.setTxn t { txn with phase := .ready, minted := txn.minted ++ [⟨token, seen⟩] })
    else none
  | _ => none

/-! ### The confirmation -/

/-- Start the `FOR UPDATE` over the token with the hash. -/
def findReset (env : Env) (s : State) (t : TxnId) (txn : Txn) : Option State :=
  match txn.phase, txn.request with
  | .begun, .confirm raw _ =>
    match s.rows.findIdx? fun row => row.tokenHash == env.hashToken raw with
    | some i => some (s.setTxn t { txn with phase := .found i })
    | none => none
  | _, _ => none

/-- Lock the token, or wait for it. -/
def lockReset (s : State) (t : TxnId) (txn : Txn) : Option State :=
  match txn.phase with
  | .found i =>
    if s.tokenLock.mayTake i t then
      some ({ s with tokenLock := s.tokenLock.take i t }.setTxn t { txn with phase := .held i })
    else none
  | _ => none

/-- The checks under the lock: the token is effective-pending, its user is there, and the password
follows the policy. -/
def checkReset (env : Env) (s : State) (t : TxnId) (txn : Txn) : Option State :=
  match txn.phase, txn.request with
  | .held i, .confirm _ password => do
    let row ← s.rows[i]?
    guard (row.effective s.now = .pending)
    let user ← (assertResetAvailable s.db row.user).toOption
    (env.validatePassword s.platform.passwordPolicy password
      [some user.email, user.firstName, user.lastName]).toOption
    return s.setTxn t { txn with phase := .checked i row.user }
  | _, _ => none

/-- Write the password, and mark the token USED. -/
def useReset (env : Env) (s : State) (t : TxnId) (txn : Txn) : Option State :=
  match txn.phase, txn.request with
  | .checked i u, .confirm _ password =>
    if s.userLock.mayTake u t && s.userWrite.mayTake u t then
      some ({ s with userWrite := s.userWrite.take u t }.setTxn t
        { txn with phase := .ready, used := some ⟨i, u, env.hashPassword password⟩ })
    else none
  | _, _ => none

/-! ### The end of a transaction -/

/-- A committed row after the writes of a transaction. -/
def writtenRow (txn : Txn) (i : RowId) (row : LinkToken) : LinkToken :=
  if txn.used.any fun used => used.row == i then row.consume
  else
    match txn.revokes.lookup i with
    | some at_ => row.revoke at_
    | none => row

/-- The committed rows after the writes of a transaction. -/
def written (s : State) (txn : Txn) : List LinkToken :=
  s.rows.mapIdx (writtenRow txn) ++ txn.minted.map Minted.token

/-- The users after the writes of a transaction. Only the password column is written. -/
def writtenUsers (s : State) (txn : Txn) : Directory :=
  match txn.used with
  | some used =>
    match s.db.user used.user with
    | some row => s.db.setUser used.user { row with password := some used.password }
    | none => s.db
  | none => s.db

/-- End a transaction: drop its record and its locks. -/
def finish (s : State) (t : TxnId) : State :=
  { s with
      txns := Function.update s.txns t none
      tokenLock := s.tokenLock.release t
      userLock := s.userLock.release t
      userWrite := s.userWrite.release t }

/-- Commit. A dry run rolls back instead. -/
def commit (s : State) (t : TxnId) (txn : Txn) : Option State :=
  match txn.phase, txn.todo with
  | .ready, [] =>
    if txn.request.dryRun then some (s.finish t)
    else
      some ({ s with
        db := s.writtenUsers txn
        rows := s.written txn
        passwordsSet := (txn.used.map Used.row).toList ++ s.passwordsSet }.finish t)
  | _, _ => none

end State

/-- A label: a step of a transaction, a commit of another service, or the passing of a second. -/
inductive Label
  | tick
  | identity (db : Directory) (platform : PlatformSettings)
  | begin (t : TxnId) (request : Request)
  | locate (t : TxnId)
  | lockUser (t : TxnId)
  | throttle (t : TxnId)
  | loadUser (t : TxnId)
  | beginRevoke (t : TxnId)
  | lockToken (t : TxnId)
  | revoke (t : TxnId)
  | mint (t : TxnId) (raw : String)
  | findReset (t : TxnId)
  | lockReset (t : TxnId)
  | checkReset (t : TxnId)
  | useReset (t : TxnId)
  | commit (t : TxnId)
  | abort (t : TxnId)

/-- One step of the system. -/
def step (env : Env) (s : State) : Label → Option State
  | .tick => some { s with now := s.now + 1 }
  | .identity db platform => some { s with db, platform }
  | .begin t request => s.begin t request
  | .locate t => (s.txns t).bind (s.locate t)
  | .lockUser t => (s.txns t).bind (s.lockUser t)
  | .throttle t => (s.txns t).bind (s.throttle t)
  | .loadUser t => (s.txns t).bind (s.loadUser t)
  | .beginRevoke t => (s.txns t).bind (s.beginRevoke t)
  | .lockToken t => (s.txns t).bind (s.lockToken t)
  | .revoke t => (s.txns t).bind (s.revoke t)
  | .mint t raw => (s.txns t).bind (State.mint env raw s t)
  | .findReset t => (s.txns t).bind (State.findReset env s t)
  | .lockReset t => (s.txns t).bind (s.lockReset t)
  | .checkReset t => (s.txns t).bind (State.checkReset env s t)
  | .useReset t => (s.txns t).bind (State.useReset env s t)
  | .commit t => (s.txns t).bind (s.commit t)
  | .abort t => (s.txns t).map fun _ => s.finish t

end RedTeaming.Auth.Resets
