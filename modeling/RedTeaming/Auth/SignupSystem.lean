import RedTeaming.Auth.Accounts
import RedTeaming.Library.Locks
import RedTeaming.Library.Records
import RedTeaming.Library.Transition

/-!
# `RedTeaming.Auth.SignupSystem`: concurrent self-signups

The requests that write `email_verifications` run as concurrent transactions: `register_user`,
`resend_verification`, and `verify_email`. A step is one database statement of one transaction, or
the lock of one row by such a statement.

- A statement reads the committed rows of its moment (READ COMMITTED). No statement of these
  transactions selects a token that its own transaction wrote.
- `SELECT ... FOR UPDATE` fixes the rows it wants when it starts, and then locks them one by one.
  It waits for a row that another transaction holds. Then it reads the row again, and passes over
  one that it does not want any more.
- The insert of a user locks the new row. An insert with a taken e-mail violates the index, and
  waits for an open insert of the same e-mail.
- Locks are held to the end of the transaction.

The INVITED arm of `register_user` issues an invitation. It writes no verification, so here it
ends behind the lock of its account. The invitations that `verify_email` accepts are left out as
well. A transaction can end by `abort` at any time: an error of the service or of the mail, or a
deadlock. `identity` is what the other services commit to the users, the settings, and the terms,
at any time.
-/

set_option autoImplicit false

namespace RedTeaming.Auth.Signups

open RedTeaming.Library

abbrev RowId := Nat
abbrev TxnId := Nat

/-- A request. Its routes have no gate. -/
inductive Request
  | register (email : String) (form : SignupForm)
  | resend (email : String)
  | verify (raw : String)

/-- Where a transaction is. A registration goes from `begun` over `admitted` to `located`, or to
`registering` and `inserting` when there is no account. `locking u wanted got` is the `FOR UPDATE`
of `_revoke_pending_verifications`: it still wants the rows `wanted`, and holds the rows `got`. -/
inductive Phase
  | begun
  | admitted (document : Option Nat)
  | registering (document : Option Nat)
  | inserting (document : Option Nat) (r : RoleId)
  | located (u : UserId) (status : UserStatus)
  | loaded (u : UserId)
  | locking (u : UserId) (wanted got : List RowId)
  | revoked (u : UserId)
  | issuing (u : UserId) (ttlHours : Nat)
  | found (i : RowId)
  | held (i : RowId)
  | checked (i : RowId) (u : UserId)
  | ready

/-- An open transaction. `ttlHours` is the lifetime that a registration read with the settings.
The other fields are its writes: the user it inserted, the rows it revoked, with the time, the
token it inserted, and the token it used, with its user. -/
structure Txn where
  request : Request
  phase : Phase := .begun
  ttlHours : Nat := 0
  created : Option (UserId × User) := none
  revokes : List (RowId × Nat) := []
  minted : Option LinkToken := none
  used : Option (RowId × UserId) := none

/-- The committed rows, the open transactions, and the locks. `verified` lists the tokens of the
verifications that committed, and `begun` the transactions begun so far. -/
structure State where
  db : Directory
  platform : PlatformSettings := {}
  terms : Option Nat := none
  rows : List LinkToken := []
  verified : List RowId := []
  txns : Records TxnId Txn := fun _ => none
  begun : List TxnId := []
  tokenLock : Locks RowId TxnId := fun _ => none
  userLock : Locks UserId TxnId := fun _ => none
  now : Nat := 0

/-- The row is a PENDING one of the user. -/
def isPending (u : UserId) (row : LinkToken) : Bool := row.user == u && row.status == .pending

/-- The ids of the rows that `_revoke_pending_verifications` selects. -/
def selectPending (rows : List LinkToken) (u : UserId) : List RowId :=
  (List.range rows.length).filter fun i => (rows[i]?).any (isPending u)

namespace State

/-- Write the record of a transaction. -/
def setTxn (s : State) (t : TxnId) (txn : Txn) : State := { s with txns := s.txns.set t txn }

/-- Start a request. -/
def begin (s : State) (t : TxnId) (request : Request) : Option State :=
  match s.txns t with
  | none => some ({ s with begun := t :: s.begun }.setTxn t { request })
  | some _ => none

/-! ### `register_user` -/

/-- The guards before the lookup: the mode, the consent, and the password. -/
def checkGuards (env : Env) (s : State) (t : TxnId) (txn : Txn) : Option State :=
  match txn.phase, txn.request with
  | .begun, .register email form => do
    guard !s.platform.inviteOnly
    let tables : Accounts := { db := s.db, platform := s.platform, terms := s.terms }
    let document ← (tables.resolveSignupConsent form).toOption
    (env.validatePassword s.platform.passwordPolicy form.password
      [some email, form.firstName, form.lastName]).toOption
    return s.setTxn t
      { txn with phase := .admitted document, ttlHours := s.platform.emailVerificationTtlHours }
  | _, _ => none

/-- `get_user_by_email`, for a registration and for a resend. Only a PENDING or an INVITED account
goes on in a registration, and only a PENDING one in a resend. -/
def locate (s : State) (t : TxnId) (txn : Txn) : Option State :=
  match txn.phase, txn.request with
  | .admitted document, .register email _ =>
    match s.db.userByEmail email with
    | none => some (s.setTxn t { txn with phase := .registering document })
    | some (u, row) =>
      let goesOn := row.status == .pending || row.status == .invited
      some (s.setTxn t { txn with phase := if goesOn then .located u row.status else .ready })
  | .begun, .resend email =>
    match s.db.userByEmail email with
    | none => some (s.setTxn t { txn with phase := .ready })
    | some (u, row) =>
      let goesOn := row.status == .pending
      some (s.setTxn t { txn with phase := if goesOn then .located u row.status else .ready })
  | _, _ => none

/-- `get_default_role`, for a new account. -/
def defaultRole (s : State) (t : TxnId) (txn : Txn) : Option State :=
  match txn.phase with
  | .registering document => do
    let (r, _) ← (getDefaultRole s.db).toOption
    return s.setTxn t { txn with phase := .inserting document r }
  | _ => none

/-- An open transaction other than `t` has inserted a user with the e-mail. -/
def emailInserted (s : State) (email : String) (t : TxnId) : Bool :=
  s.begun.any fun t' => t' != t &&
    (s.txns t').any fun txn => txn.created.any fun created => created.2.email == email

/-- The id is one that no user, no token, and no open insert has. -/
def freshUser (s : State) (u : UserId) : Bool :=
  (s.db.user u).isNone && (s.userLock u).isNone && s.rows.all fun row => row.user != u

/-- Insert the user. A taken e-mail ends the registration in silence. -/
def create (env : Env) (u : UserId) (s : State) (t : TxnId) (txn : Txn) : Option State :=
  match txn.phase, txn.request with
  | .inserting document r, .register email form =>
    if (s.db.userByEmail email).isSome then some (s.setTxn t { txn with phase := .ready })
    else if s.emailInserted email t || !s.freshUser u then none
    else
      let row := Accounts.signupRow env email form document r
      some ({ s with userLock := s.userLock.take u t }.setTxn t
        { txn with phase := .revoked u, created := some (u, row) })
  | _, _ => none

/-- `get_user(for_update=True)`, and the check of the status under the lock. An account that
vanished ends a resend in silence, and a registration with an error. -/
def lockUser (s : State) (t : TxnId) (txn : Txn) : Option State :=
  match txn.phase with
  | .located u status =>
    match s.db.liveUser u, txn.request with
    | some row, _ =>
      if s.userLock.mayTake u t then
        let goesOn := row.status == status && status == .pending
        some ({ s with userLock := s.userLock.take u t }.setTxn t
          { txn with phase := if goesOn then .loaded u else .ready })
      else none
    | none, .resend _ => some (s.setTxn t { txn with phase := .ready })
    | none, _ => none
  | _ => none

/-! ### `_revoke_pending_verifications` and `_issue_verification` -/

/-- Start the `FOR UPDATE` over the user's PENDING tokens. -/
def beginRevoke (s : State) (t : TxnId) (txn : Txn) : Option State :=
  match txn.phase with
  | .loaded u => some (s.setTxn t { txn with phase := .locking u (selectPending s.rows u) [] })
  | _ => none

/-- Lock the next token, wait for it, or pass over one that is not PENDING any more. -/
def lockToken (s : State) (t : TxnId) (txn : Txn) : Option State :=
  match txn.phase with
  | .locking u (i :: wanted) got =>
    if s.tokenLock.mayTake i t then
      if (s.rows[i]?).any (isPending u) then
        some ({ s with tokenLock := s.tokenLock.take i t }.setTxn t
          { txn with phase := .locking u wanted (i :: got) })
      else some (s.setTxn t { txn with phase := .locking u wanted got })
    else none
  | _ => none

/-- Mark the locked tokens REVOKED. -/
def revoke (s : State) (t : TxnId) (txn : Txn) : Option State :=
  match txn.phase with
  | .locking u [] got =>
    some (s.setTxn t
      { txn with phase := .revoked u, revokes := txn.revokes ++ got.map fun i => (i, s.now) })
  | _ => none

/-- The lifetime of the link. A registration has read it, and a resend reads it now. -/
def readTtl (s : State) (t : TxnId) (txn : Txn) : Option State :=
  match txn.phase, txn.request with
  | .revoked u, .resend _ =>
    some (s.setTxn t { txn with phase := .issuing u s.platform.emailVerificationTtlHours })
  | .revoked u, _ => some (s.setTxn t { txn with phase := .issuing u txn.ttlHours })
  | _, _ => none

/-- The hash is that of a committed token or of an open insert. -/
def hashTaken (s : State) (tokenHash : String) : Bool :=
  s.rows.any (fun row => row.tokenHash == tokenHash) ||
    s.begun.any fun t => (s.txns t).any fun txn =>
      txn.minted.any fun token => token.tokenHash == tokenHash

/-- Insert the fresh token. -/
def mint (env : Env) (raw : String) (s : State) (t : TxnId) (txn : Txn) : Option State :=
  match txn.phase with
  | .issuing u ttlHours =>
    if s.hashTaken (env.hashToken raw) then none
    else
      let token := LinkToken.issue s.now (ttlHours * Accounts.hour) u (env.hashToken raw)
      some (s.setTxn t { txn with phase := .ready, minted := some token })
  | _ => none

/-! ### `verify_email` -/

/-- Start the `FOR UPDATE` over the token with the hash. -/
def findVerification (env : Env) (s : State) (t : TxnId) (txn : Txn) : Option State :=
  match txn.phase, txn.request with
  | .begun, .verify raw =>
    match s.rows.findIdx? fun row => row.tokenHash == env.hashToken raw with
    | some i => some (s.setTxn t { txn with phase := .found i })
    | none => none
  | _, _ => none

/-- Lock the token, or wait for it. -/
def lockVerification (s : State) (t : TxnId) (txn : Txn) : Option State :=
  match txn.phase with
  | .found i =>
    if s.tokenLock.mayTake i t then
      some ({ s with tokenLock := s.tokenLock.take i t }.setTxn t { txn with phase := .held i })
    else none
  | _ => none

/-- The check under the lock: the token is effective-pending. -/
def checkVerification (s : State) (t : TxnId) (txn : Txn) : Option State :=
  match txn.phase with
  | .held i =>
    match s.rows[i]? with
    | some row =>
      if row.effective s.now = .pending then
        some (s.setTxn t { txn with phase := .checked i row.user })
      else none
    | none => none
  | _ => none

/-- `get_user(for_update=True)`, then activate the account and mark the token VERIFIED. Whatever
the status of the account. -/
def activate (s : State) (t : TxnId) (txn : Txn) : Option State :=
  match txn.phase with
  | .checked i u =>
    if (s.db.liveUser u).isSome && s.userLock.mayTake u t then
      some ({ s with userLock := s.userLock.take u t }.setTxn t
        { txn with phase := .ready, used := some (i, u) })
    else none
  | _ => none

/-! ### The end of a transaction -/

/-- A committed row after the writes of a transaction. -/
def writtenRow (txn : Txn) (i : RowId) (row : LinkToken) : LinkToken :=
  if txn.used.any fun used => used.1 == i then row.consume
  else
    match txn.revokes.lookup i with
    | some at_ => row.revoke at_
    | none => row

/-- The committed rows after the writes of a transaction. -/
def written (s : State) (txn : Txn) : List LinkToken :=
  s.rows.mapIdx (writtenRow txn) ++ txn.minted.toList

/-- The users after the writes of a transaction: a new one, or one that is ACTIVE and verified. -/
def writtenUsers (s : State) (txn : Txn) : Directory :=
  match txn.created, txn.used with
  | some (u, row), _ => s.db.setUser u row
  | none, some (_, u) =>
    match s.db.user u with
    | some row => s.db.setUser u { row with status := .active, emailVerified := true }
    | none => s.db
  | none, none => s.db

/-- End a transaction: drop its record and its locks. -/
def finish (s : State) (t : TxnId) : State :=
  { s with
      txns := s.txns.drop t
      tokenLock := s.tokenLock.release t
      userLock := s.userLock.release t }

/-- Commit. -/
def commit (s : State) (t : TxnId) (txn : Txn) : Option State :=
  match txn.phase with
  | .ready =>
    some ({ s with
      db := s.writtenUsers txn
      rows := s.written txn
      verified := (txn.used.map Prod.fst).toList ++ s.verified }.finish t)
  | _ => none

end State

/-- A label: a step of a transaction, a commit of another service, or the passing of a second. -/
inductive Label
  | tick
  | identity (db : Directory) (platform : PlatformSettings) (terms : Option Nat)
  | begin (t : TxnId) (request : Request)
  | checkGuards (t : TxnId)
  | locate (t : TxnId)
  | defaultRole (t : TxnId)
  | create (t : TxnId) (u : UserId)
  | lockUser (t : TxnId)
  | beginRevoke (t : TxnId)
  | lockToken (t : TxnId)
  | revoke (t : TxnId)
  | readTtl (t : TxnId)
  | mint (t : TxnId) (raw : String)
  | findVerification (t : TxnId)
  | lockVerification (t : TxnId)
  | checkVerification (t : TxnId)
  | activate (t : TxnId)
  | commit (t : TxnId)
  | abort (t : TxnId)

/-- One step of the system. -/
def step (env : Env) (s : State) : Label → Option State
  | .tick => some { s with now := s.now + 1 }
  | .identity db platform terms => some { s with db, platform, terms }
  | .begin t request => s.begin t request
  | .checkGuards t => (s.txns t).bind (State.checkGuards env s t)
  | .locate t => (s.txns t).bind (s.locate t)
  | .defaultRole t => (s.txns t).bind (s.defaultRole t)
  | .create t u => (s.txns t).bind (State.create env u s t)
  | .lockUser t => (s.txns t).bind (s.lockUser t)
  | .beginRevoke t => (s.txns t).bind (s.beginRevoke t)
  | .lockToken t => (s.txns t).bind (s.lockToken t)
  | .revoke t => (s.txns t).bind (s.revoke t)
  | .readTtl t => (s.txns t).bind (s.readTtl t)
  | .mint t raw => (s.txns t).bind (State.mint env raw s t)
  | .findVerification t => (s.txns t).bind (State.findVerification env s t)
  | .lockVerification t => (s.txns t).bind (s.lockVerification t)
  | .checkVerification t => (s.txns t).bind (s.checkVerification t)
  | .activate t => (s.txns t).bind (s.activate t)
  | .commit t => (s.txns t).bind (s.commit t)
  | .abort t => (s.txns t).map fun _ => s.finish t

end RedTeaming.Auth.Signups
