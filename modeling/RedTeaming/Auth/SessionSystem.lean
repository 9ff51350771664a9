import RedTeaming.Auth.Tokens
import RedTeaming.Library.Lookup
import RedTeaming.Library.Transition

/-!
# `RedTeaming.Auth.SessionSystem`: sign-ins and requests that take access away, interleaved

The state holds the clock (in milliseconds), the Redis markers, the committed user and role
rows, the tokens that have been issued, the sign-in calls in progress, and the requests in
progress. A label is one step of one of them, so a list of labels is an interleaving.

A call is a login or a refresh. Its steps are those of `refresh_session` and
`authenticate_credentials`: verify the token, ask `is_revoked`, check the session ceiling, select
the user row, select the live roles (a second statement), mint the access token, mint the
refresh token. Each mint reads the clock. The access token counts as issued at its mint, which
is earlier than the response.

A request is one transaction: a force-logout, a change of status to INACTIVE, a role edit, or a
role delete. `Request.actions` lists what it does, in the order of its endpoint. The bulk
endpoints have several users. Each loss writes the row (uncommitted), selects the holders, and
runs `revoke_user_sessions` for each, which reads the clock and then writes the marker. A
request that a guard refuses has no step but `abort`, which rolls it back. `abort` also models a
commit that fails.

Statements read committed rows, and a transaction's own writes. `get_role(for_update=True)`
takes the row lock of the role, and the `UPDATE` of a deactivation takes the one of the user.
Both wait, so the step is not enabled while another transaction holds the lock.

`read` and `landed` record the clock readings and the marker writes of `revoke_user_sessions`,
and `committed` the commits. The code has no such logs. A call keeps what was in them when it
took a step, which is how a condition on a run says "before".
-/

set_option autoImplicit false

namespace RedTeaming.Auth.Sessions

open RedTeaming.Library

abbrev CallId := Nat
abbrev RequestId := Nat

/-- One part of a request's work. -/
inductive Action
  | logout (user : UserId)
  | deactivate (user : UserId)
  | edit (edits : RoleEdits)
  | setActive (isActive : Bool)
  | delete
deriving DecidableEq

/-- The requests that write a revocation marker. `forceLogout` stands for each caller of
`revoke_user_sessions` that takes no access away in the database. -/
inductive Request
  | forceLogout (users : List UserId)
  | changeStatus (users : List UserId)
  | patchRole (role : RoleId) (edits : Option RoleEdits) (isActive : Option Bool)
  | deleteRole (role : RoleId)

namespace Request

/-- What the endpoint does, in order. -/
def actions : Request → List Action
  | forceLogout users => users.map .logout
  | changeStatus users => users.map .deactivate
  | patchRole _ edits isActive =>
    (edits.map Action.edit).toList ++ (isActive.map Action.setActive).toList
  | deleteRole _ => [.delete]

/-- The role that the endpoint locks. -/
def role? : Request → Option RoleId
  | patchRole role _ _ => some role
  | deleteRole role => some role
  | _ => none

end Request

/-- Where a request stands. `marking todo` still has to revoke the sessions of `todo`, and is
ready for its next action when that is empty. `writing` has read the clock and has not written
the marker. -/
inductive Phase
  | selecting
  | marking (todo : List UserId)
  | writing (user : UserId) (second : Nat) (todo : List UserId)
  | committed
  | aborted
deriving DecidableEq

/-- A request in progress: the actions still to do and those done, the users it set INACTIVE,
and the role row as it was locked and as the transaction sees it. -/
structure Txn where
  request : Request
  todo : List Action
  performed : List Action
  phase : Phase
  deactivated : List UserId
  before : Option Role
  role : Option Role

/-- The transaction has neither committed nor aborted. -/
def Txn.Running (txn : Txn) : Prop := txn.phase ≠ .committed ∧ txn.phase ≠ .aborted

/-- The stage of a request after a role edit: a loss selects the holders. -/
def Txn.afterEdit (txn : Txn) (role : Role) (loss : Bool) : Txn :=
  { txn with role := some role, phase := if loss then .selecting else .marking [] }

/-- A clock reading of `revoke_user_sessions`. -/
structure Reading where
  request : RequestId
  user : UserId
  second : Nat
deriving DecidableEq

/-- Where a call came from: a login, or a refresh whose `is_revoked` check ran when the markers
of `checkedAfter` had been written. -/
inductive Origin
  | login (password : String)
  | refresh (checkedAfter : List Reading)

/-- What a call will mint for. -/
structure Grant where
  user : UserId
  provider : String
  authTime : Option Nat
  origin : Origin

/-- Where a sign-in call stands. `seenUser` and `seenRoles` are the requests that had committed
when the call selected the user row and the roles. -/
inductive Call
  | verified (identity : SessionUser)
  | checked (identity : SessionUser) (checkedAfter : List Reading)
  | admitted (grant : Grant)
  | userLoaded (grant : Grant) (row : User) (seenUser : List RequestId)
  | ready (grant : Grant) (permissions : Finset Permission) (seenUser seenRoles : List RequestId)
  | accessMinted (grant : Grant) (permissions : Finset Permission)
  | failed (error : ApiError)

/-- An issued token, with the `auth_time` of its rotation chain. An access token does not carry
the claim. -/
structure Issued where
  token : Token
  chain : Option Nat

/-- The state of the system. -/
structure State where
  clock : Nat
  redis : Redis
  db : Directory
  issued : List Issued
  calls : CallId → Option Call
  txns : RequestId → Option Txn
  roleLock : RoleId → Option RequestId
  userLock : UserId → Option RequestId
  read : List Reading
  landed : List Reading
  committed : List RequestId

/-- One step of the system. The counts of `act` are what the sole-role and group-holder guards
read from other tables. -/
inductive Label
  | tick (milliseconds : Nat)
  | login (c : CallId) (user : UserId) (password : String)
  | verify (c : CallId) (token : Token)
  | checkRevoked (c : CallId)
  | checkLifetime (c : CallId)
  | loadUser (c : CallId)
  | loadRoles (c : CallId)
  | mintAccess (c : CallId)
  | mintRefresh (c : CallId)
  | begin (q : RequestId) (request : Request)
  | act (q : RequestId) (groupHolders users members : Nat)
  | skip (q : RequestId)
  | selectHolders (q : RequestId)
  | readClock (q : RequestId)
  | setMarker (q : RequestId)
  | commit (q : RequestId)
  | abort (q : RequestId)

/-- The uniform refusal of the refresh exchange. -/
def invalidRefresh : ApiError := .unauthorized "Invalid or expired refresh token."

/-- The uniform refusal of the login. -/
def invalidCredentials : ApiError := .unauthorized "Invalid email or password."

namespace State

/-- The current second, `int(time.time())`. -/
def now (s : State) : Nat := s.clock / 1000

/-- The state with a call at a new stage. -/
def setCall (s : State) (c : CallId) (call : Call) : State :=
  { s with calls := Function.update s.calls c (some call) }

/-- The state with a request at a new stage. -/
def setTxn (s : State) (q : RequestId) (txn : Txn) : State :=
  { s with txns := Function.update s.txns q (some txn) }

variable (settings : Settings)

/-- Time passes. -/
def tick (s : State) (milliseconds : Nat) : State := { s with clock := s.clock + milliseconds }

/-- A login begins, for the account that its e-mail names. -/
def login (s : State) (c : CallId) (user : UserId) (password : String) : Option State :=
  match s.calls c with
  | none => some (s.setCall c (.admitted ⟨user, "local", none, .login password⟩))
  | some _ => none

/-- A refresh begins: the presented token, one that was issued, is verified. -/
def verify (s : State) (c : CallId) (token : Token) : Option State :=
  match s.calls c with
  | none =>
    if s.issued.any (fun i => decide (i.token = token)) then
      match decodeRefreshJwt s.now token with
      | some identity => some (s.setCall c (.verified identity))
      | none => some (s.setCall c (.failed invalidRefresh))
    else none
  | some _ => none

/-- The refresh asks `is_revoked`. -/
def checkRevoked (s : State) (c : CallId) : Option State :=
  match s.calls c with
  | some (.verified identity) =>
    match isRevoked (.marker (s.redis.get s.clock identity.id)) identity.issuedAt false with
    | .ok false => some (s.setCall c (.checked identity s.landed))
    | .ok true => some (s.setCall c (.failed invalidRefresh))
    | .error e => some (s.setCall c (.failed e))
  | _ => none

/-- The refresh checks the absolute ceiling. A token without `auth_time` starts now. -/
def checkLifetime (s : State) (c : CallId) : Option State :=
  match s.calls c with
  | some (.checked identity checkedAfter) =>
    let authTime := identity.authTime.getD s.now
    if exceedsAbsoluteLifetime settings s.now authTime then
      some (s.setCall c (.failed invalidRefresh))
    else
      some (s.setCall c
        (.admitted ⟨identity.id, identity.provider, some authTime, .refresh checkedAfter⟩))
  | _ => none

/-- What a call answers when its account is refused. -/
def refusal : Origin → ApiError
  | .login _ => invalidCredentials
  | .refresh _ => invalidRefresh

/-- The call selects the live user row. -/
def loadUser (s : State) (c : CallId) : Option State :=
  match s.calls c with
  | some (.admitted grant) =>
    match s.db.liveUser grant.user with
    | some row => some (s.setCall c (.userLoaded grant row s.committed))
    | none => some (s.setCall c (.failed (refusal grant.origin)))
  | _ => none

/-- The checks of a call on the loaded account. -/
def admits (grant : Grant) (row : User) : Bool :=
  match grant.origin with
  | .login password => admitsLogin settings row password
  | .refresh _ => admitsRefresh settings row grant.provider

/-- The call selects the roles, then checks the account. -/
def loadRoles (s : State) (c : CallId) : Option State :=
  match s.calls c with
  | some (.userLoaded grant row seenUser) =>
    if admits settings grant row then
      some (s.setCall c
        (.ready grant (effectivePermissions (s.db.liveRoles row)) seenUser s.committed))
    else some (s.setCall c (.failed (refusal grant.origin)))
  | _ => none

/-- The access token of `mint_token_pair`. Its chain is the one of the presented token. A login
starts a chain. -/
def mintAccess (s : State) (c : CallId) : Option State :=
  match s.calls c with
  | some (.ready grant permissions _ _) =>
    let token := encodeSessionJwt settings s.now grant.user grant.provider permissions
    some { s.setCall c (.accessMinted grant permissions) with
      issued := ⟨token, some (grant.authTime.getD s.now)⟩ :: s.issued }
  | _ => none

/-- The refresh token of `mint_token_pair`. The call is over. -/
def mintRefresh (s : State) (c : CallId) : Option State :=
  match s.calls c with
  | some (.accessMinted grant permissions) =>
    let token :=
      encodeRefreshJwt settings s.now grant.user grant.provider permissions grant.authTime
    some { s with
      calls := Function.update s.calls c none
      issued := ⟨token, token.authTime⟩ :: s.issued }
  | _ => none

/-- A request begins. A role request selects its live role `FOR UPDATE`. -/
def begin (s : State) (q : RequestId) (request : Request) : Option State :=
  match s.txns q, request.role? with
  | none, none =>
    some (s.setTxn q ⟨request, request.actions, [], .marking [], [], none, none⟩)
  | none, some r =>
    match s.db.liveRole r, s.roleLock r with
    | some row, none =>
      some { s.setTxn q ⟨request, request.actions, [], .marking [], [], some row, some row⟩ with
        roleLock := Function.update s.roleLock r (some q) }
    | _, _ => none
  | some _, _ => none

/-- `change_user_status` to INACTIVE: a no-op on an INACTIVE account, a write on an ACTIVE one,
a refusal while the account is onboarding. -/
def deactivateUser (s : State) (q : RequestId) (txn : Txn) (u : UserId) : Option State :=
  match s.db.liveUser u with
  | some row =>
    if row.status = .inactive ∨ u ∈ txn.deactivated then
      some (s.setTxn q { txn with phase := .marking [u] })
    else if row.status = .active ∧ s.userLock u = none then
      some { s.setTxn q
          { txn with phase := .marking [u], deactivated := u :: txn.deactivated } with
        userLock := Function.update s.userLock u (some q) }
    else none
  | none => none

/-- A role edit of the service, on the row that the transaction sees. -/
def editRole (now groupHolders users members : Nat) (role : Role) :
    Action → Option (Role × Bool)
  | .edit e =>
    match updateRole groupHolders role e with
    | .ok role' => some (role', decide (e.removed role ≠ ∅))
    | .error _ => none
  | .setActive isActive =>
    match setRoleActive users members role isActive with
    | .ok role' => some (role', role.isActive && !isActive)
    | .error _ => none
  | .delete =>
    match deleteRole now users members role with
    | .ok role' => some (role', true)
    | .error _ => none
  | _ => none

/-- One action of a request. It is not enabled when a guard of the action raises. -/
def perform (s : State) (q : RequestId) (txn : Txn) (action : Action)
    (groupHolders users members : Nat) : Option State :=
  match action with
  | .logout u =>
    match s.db.liveUser u with
    | some _ => some (s.setTxn q { txn with phase := .marking [u] })
    | none => none
  | .deactivate u => s.deactivateUser q txn u
  | edit =>
    match txn.role with
    | some role =>
      match editRole s.now groupHolders users members role edit with
      | some (role', loss) => some (s.setTxn q (txn.afterEdit role' loss))
      | none => none
    | none => none

/-- The request turns to its next action. -/
def act (s : State) (q : RequestId) (groupHolders users members : Nat) : Option State :=
  match s.txns q with
  | some txn =>
    match txn.phase, txn.todo with
    | .marking [], action :: todo =>
      s.perform q { txn with todo, performed := action :: txn.performed } action
        groupHolders users members
    | _, _ => none
  | none => none

/-- A bulk request leaves out a row that failed. -/
def skip (s : State) (q : RequestId) : Option State :=
  match s.txns q with
  | some txn =>
    match txn.phase, txn.request.role?, txn.todo with
    | .marking [], none, _ :: todo => some (s.setTxn q { txn with todo })
    | _, _, _ => none
  | none => none

/-- `_revoke_role_holders_sessions` selects the holders. -/
def selectHolders (s : State) (q : RequestId) : Option State :=
  match s.txns q with
  | some txn =>
    match txn.phase, txn.request.role? with
    | .selecting, some r => some (s.setTxn q { txn with phase := .marking (s.db.holders r) })
    | _, _ => none
  | none => none

/-- `revoke_user_sessions` reads the clock. -/
def readClock (s : State) (q : RequestId) : Option State :=
  match s.txns q with
  | some txn =>
    match txn.phase with
    | .marking (u :: todo) =>
      some { s.setTxn q { txn with phase := .writing u s.now todo } with
        read := ⟨q, u, s.now⟩ :: s.read }
    | _ => none
  | none => none

/-- The marker of `revoke_user_sessions` lands. -/
def setMarker (s : State) (q : RequestId) : Option State :=
  match s.txns q with
  | some txn =>
    match txn.phase with
    | .writing u second todo =>
      some { s.setTxn q { txn with phase := .marking todo } with
        redis := s.redis.set s.clock u second settings.refreshAbsoluteMaxLifetimeSeconds
        landed := ⟨q, u, second⟩ :: s.landed }
    | _ => none
  | none => none

/-- The locks that a request held are free. -/
def unlock (s : State) (q : RequestId) : State :=
  { s with
      roleLock := fun r => if s.roleLock r = some q then none else s.roleLock r
      userLock := fun u => if s.userLock u = some q then none else s.userLock u }

/-- The committed rows after the writes of a transaction. -/
def written (db : Directory) (txn : Txn) : Directory :=
  match txn.request.role?, txn.role with
  | some r, some row => (db.deactivate txn.deactivated).setRole r row
  | _, _ => db.deactivate txn.deactivated

/-- The request commits once all its actions are done. -/
def commit (s : State) (q : RequestId) : Option State :=
  match s.txns q with
  | some txn =>
    match txn.phase, txn.todo with
    | .marking [], [] =>
      some { (s.setTxn q { txn with phase := .committed }).unlock q with
        db := written s.db txn
        committed := q :: s.committed }
    | _, _ => none
  | none => none

/-- The request rolls back. The markers it wrote stay. -/
def abort (s : State) (q : RequestId) : Option State :=
  match s.txns q with
  | some txn =>
    match txn.phase with
    | .committed => none
    | .aborted => none
    | _ => some ((s.setTxn q { txn with phase := .aborted }).unlock q)
  | none => none

end State

/-- One step of the system. `none` when the label is not enabled. -/
def step (settings : Settings) (s : State) : Label → Option State
  | .tick milliseconds => some (s.tick milliseconds)
  | .login c user password => s.login c user password
  | .verify c token => s.verify c token
  | .checkRevoked c => s.checkRevoked c
  | .checkLifetime c => s.checkLifetime settings c
  | .loadUser c => s.loadUser c
  | .loadRoles c => s.loadRoles settings c
  | .mintAccess c => s.mintAccess settings c
  | .mintRefresh c => s.mintRefresh settings c
  | .begin q request => s.begin q request
  | .act q groupHolders users members => s.act q groupHolders users members
  | .skip q => s.skip q
  | .selectHolders q => s.selectHolders q
  | .readClock q => s.readClock q
  | .setMarker q => s.setMarker settings q
  | .commit q => s.commit q
  | .abort q => s.abort q

/-! ### What one step does -/

section
variable {settings : Settings} {s s' : State} {c : CallId} {q : RequestId}

namespace State

@[simp] theorem setCall_calls (s : State) (c : CallId) (call : Call) :
    (s.setCall c call).calls = Function.update s.calls c (some call) := rfl

@[simp] theorem setTxn_txns (s : State) (q : RequestId) (txn : Txn) :
    (s.setTxn q txn).txns = Function.update s.txns q (some txn) := rfl

/-- A login that begins is admitted to the account lookup. -/
theorem login_cases {user : UserId} {password : String} (h : s.login c user password = some s') :
    s' = s.setCall c (.admitted ⟨user, "local", none, .login password⟩) := by
  unfold login at h
  split at h
  · exact (Option.some.inj h).symm
  · cases h

/-- A refresh begins with an issued token that decodes, or it fails. -/
theorem verify_cases {token : Token} (h : s.verify c token = some s') :
    (∃ i ∈ s.issued, ∃ identity, i.token = token ∧ decodeRefreshJwt s.now token = some identity ∧
      s' = s.setCall c (.verified identity)) ∨
    ∃ e, s' = s.setCall c (.failed e) := by
  unfold verify at h
  split at h
  · split at h
    · rename_i hany
      obtain ⟨i, hi, hit⟩ := List.any_eq_true.mp hany
      split at h
      · rename_i identity hdec
        exact Or.inl ⟨i, hi, identity, by simpa using hit, hdec, (Option.some.inj h).symm⟩
      · exact Or.inr ⟨_, (Option.some.inj h).symm⟩
    · cases h
  · cases h

/-- A refresh goes on when `is_revoked` answers false, and fails otherwise. -/
theorem checkRevoked_cases (h : s.checkRevoked c = some s') :
    ∃ identity, s.calls c = some (.verified identity) ∧
      ((isRevoked (.marker (s.redis.get s.clock identity.id)) identity.issuedAt
        false = .ok false ∧ s' = s.setCall c (.checked identity s.landed)) ∨
      ∃ e, s' = s.setCall c (.failed e)) := by
  unfold checkRevoked at h
  split at h
  · rename_i identity hcall
    refine ⟨identity, hcall, ?_⟩
    split at h
    · rename_i hok
      exact Or.inl ⟨hok, (Option.some.inj h).symm⟩
    · exact Or.inr ⟨_, (Option.some.inj h).symm⟩
    · exact Or.inr ⟨_, (Option.some.inj h).symm⟩
  · cases h

/-- A refresh within the ceiling carries its `auth_time` on, or starts it now. -/
theorem checkLifetime_cases (h : s.checkLifetime settings c = some s') :
    ∃ identity checkedAfter, s.calls c = some (.checked identity checkedAfter) ∧
      (s' = s.setCall c (.admitted ⟨identity.id, identity.provider,
          some (identity.authTime.getD s.now), .refresh checkedAfter⟩) ∨
        ∃ e, s' = s.setCall c (.failed e)) := by
  unfold checkLifetime at h
  split at h
  · rename_i identity checkedAfter hcall
    refine ⟨identity, checkedAfter, hcall, ?_⟩
    simp only at h
    split at h
    · exact Or.inr ⟨_, (Option.some.inj h).symm⟩
    · exact Or.inl (Option.some.inj h).symm
  · cases h

/-- A call loads the live user row as committed now, or fails. -/
theorem loadUser_cases (h : s.loadUser c = some s') :
    ∃ grant, s.calls c = some (.admitted grant) ∧
      ((∃ row, s.db.liveUser grant.user = some row ∧
        s' = s.setCall c (.userLoaded grant row s.committed)) ∨
      ∃ e, s' = s.setCall c (.failed e)) := by
  unfold loadUser at h
  split at h
  · rename_i grant hcall
    refine ⟨grant, hcall, ?_⟩
    split at h
    · rename_i row hrow
      exact Or.inl ⟨row, hrow, (Option.some.inj h).symm⟩
    · exact Or.inr ⟨_, (Option.some.inj h).symm⟩
  · cases h

/-- A call that may mint has loaded an ACTIVE account, and the roles as committed now. -/
theorem loadRoles_cases (h : s.loadRoles settings c = some s') :
    ∃ grant row seenUser, s.calls c = some (.userLoaded grant row seenUser) ∧
      ((row.status = .active ∧
        s' = s.setCall c
          (.ready grant (effectivePermissions (s.db.liveRoles row)) seenUser s.committed)) ∨
      ∃ e, s' = s.setCall c (.failed e)) := by
  unfold loadRoles at h
  split at h
  · rename_i grant row seenUser hcall
    refine ⟨grant, row, seenUser, hcall, ?_⟩
    split at h
    · rename_i hadmits
      refine Or.inl ⟨?_, (Option.some.inj h).symm⟩
      unfold admits at hadmits
      split at hadmits
      · simp only [admitsLogin, Bool.and_eq_true, decide_eq_true_eq] at hadmits
        exact hadmits.1.2
      · simp only [admitsRefresh, Bool.and_eq_true, decide_eq_true_eq] at hadmits
        exact hadmits.1
    · exact Or.inr ⟨_, (Option.some.inj h).symm⟩
  · cases h

/-- The access token is minted now, for the permissions that the call loaded. -/
theorem mintAccess_cases (h : s.mintAccess settings c = some s') :
    ∃ grant permissions seenUser seenRoles,
      s.calls c = some (.ready grant permissions seenUser seenRoles) ∧
      s' = { s.setCall c (.accessMinted grant permissions) with
        issued := ⟨encodeSessionJwt settings s.now grant.user grant.provider permissions,
          some (grant.authTime.getD s.now)⟩ :: s.issued } := by
  unfold mintAccess at h
  split at h
  · exact ⟨_, _, _, _, ‹_›, (Option.some.inj h).symm⟩
  · cases h

/-- The refresh token is minted now, and the call is over. -/
theorem mintRefresh_cases (h : s.mintRefresh settings c = some s') :
    ∃ grant permissions, s.calls c = some (.accessMinted grant permissions) ∧
      s' = { s with
        calls := Function.update s.calls c none
        issued := ⟨encodeRefreshJwt settings s.now grant.user grant.provider permissions
          grant.authTime, some (grant.authTime.getD s.now)⟩ :: s.issued } := by
  unfold mintRefresh at h
  split at h
  · exact ⟨_, _, ‹_›, (Option.some.inj h).symm⟩
  · cases h

/-- A request begins without work done. A role request holds the lock of its live role. -/
theorem begin_cases {request : Request} (h : s.begin q request = some s') :
    s.txns q = none ∧
    ((request.role? = none ∧
      s' = s.setTxn q ⟨request, request.actions, [], .marking [], [], none, none⟩) ∨
    ∃ r row, request.role? = some r ∧ s.db.liveRole r = some row ∧ s.roleLock r = none ∧
      s' = { s.setTxn q
          ⟨request, request.actions, [], .marking [], [], some row, some row⟩ with
        roleLock := Function.update s.roleLock r (some q) }) := by
  unfold begin at h
  split at h
  · exact ⟨‹_›, Or.inl ⟨‹_›, (Option.some.inj h).symm⟩⟩
  · rename_i r hq hr
    split at h
    · exact ⟨hq, Or.inr ⟨r, _, hr, ‹_›, ‹_›, (Option.some.inj h).symm⟩⟩
    · cases h
  · cases h

/-- An action is the next one of a request that is ready for it. -/
theorem act_cases {groupHolders users members : Nat}
    (h : s.act q groupHolders users members = some s') :
    ∃ txn action todo, s.txns q = some txn ∧ txn.phase = .marking [] ∧
      txn.todo = action :: todo ∧
      s.perform q { txn with todo, performed := action :: txn.performed } action
        groupHolders users members = some s' := by
  unfold act at h
  split at h
  · rename_i txn htxn
    split at h
    · exact ⟨txn, _, _, htxn, ‹_›, ‹_›, h⟩
    · cases h
  · cases h

/-- A bulk request leaves its next row out. -/
theorem skip_cases (h : s.skip q = some s') :
    ∃ txn action todo, s.txns q = some txn ∧ txn.phase = .marking [] ∧ txn.request.role? = none ∧
      txn.todo = action :: todo ∧ s' = s.setTxn q { txn with todo } := by
  unfold skip at h
  split at h
  · rename_i txn htxn
    split at h
    · exact ⟨txn, _, _, htxn, ‹_›, ‹_›, ‹_›, (Option.some.inj h).symm⟩
    · cases h
  · cases h

/-- The holders are those of the role that the request locked. -/
theorem selectHolders_cases (h : s.selectHolders q = some s') :
    ∃ txn r, s.txns q = some txn ∧ txn.phase = .selecting ∧ txn.request.role? = some r ∧
      s' = s.setTxn q { txn with phase := .marking (s.db.holders r) } := by
  unfold selectHolders at h
  split at h
  · rename_i txn htxn
    split at h
    · exact ⟨txn, _, htxn, ‹_›, ‹_›, (Option.some.inj h).symm⟩
    · cases h
  · cases h

/-- A marker takes the current second. -/
theorem readClock_cases (h : s.readClock q = some s') :
    ∃ txn u todo, s.txns q = some txn ∧ txn.phase = .marking (u :: todo) ∧
      s' = { s.setTxn q { txn with phase := .writing u s.now todo } with
        read := ⟨q, u, s.now⟩ :: s.read } := by
  unfold readClock at h
  split at h
  · rename_i txn htxn
    split at h
    · exact ⟨txn, _, _, htxn, ‹_›, (Option.some.inj h).symm⟩
    · cases h
  · cases h

/-- A marker lands with the second that was read. -/
theorem setMarker_cases (h : s.setMarker settings q = some s') :
    ∃ txn u second todo, s.txns q = some txn ∧ txn.phase = .writing u second todo ∧
      s' = { s.setTxn q { txn with phase := .marking todo } with
        redis := s.redis.set s.clock u second settings.refreshAbsoluteMaxLifetimeSeconds
        landed := ⟨q, u, second⟩ :: s.landed } := by
  unfold setMarker at h
  split at h
  · rename_i txn htxn
    split at h
    · exact ⟨txn, _, _, _, htxn, ‹_›, (Option.some.inj h).symm⟩
    · cases h
  · cases h

/-- A commit publishes the writes of a request whose actions are done. -/
theorem commit_cases (h : s.commit q = some s') :
    ∃ txn, s.txns q = some txn ∧ txn.phase = .marking [] ∧ txn.todo = [] ∧
      s' = { (s.setTxn q { txn with phase := .committed }).unlock q with
        db := written s.db txn
        committed := q :: s.committed } := by
  unfold commit at h
  split at h
  · rename_i txn htxn
    split at h
    · exact ⟨txn, htxn, ‹_›, ‹_›, (Option.some.inj h).symm⟩
    · cases h
  · cases h

/-- A rollback keeps the rows and the markers. -/
theorem abort_cases (h : s.abort q = some s') :
    ∃ txn, s.txns q = some txn ∧ txn.Running ∧
      s' = (s.setTxn q { txn with phase := .aborted }).unlock q := by
  unfold abort at h
  split at h
  · rename_i txn htxn
    split at h
    · cases h
    · cases h
    · exact ⟨txn, htxn, ⟨‹_›, ‹_›⟩, (Option.some.inj h).symm⟩
  · cases h

/-- What an action changes: the stage of its request. A deactivation can also take the lock of
the user row. -/
theorem perform_cases {txn : Txn} {action : Action} {groupHolders users members : Nat}
    (h : s.perform q txn action groupHolders users members = some s') :
    (∃ u row, (action = .logout u ∨
        action = .deactivate u ∧ (row.status = .inactive ∨ u ∈ txn.deactivated)) ∧
      s.db.liveUser u = some row ∧ s' = s.setTxn q { txn with phase := .marking [u] }) ∨
    (∃ u row, action = .deactivate u ∧ s.db.liveUser u = some row ∧
      s' = { s.setTxn q
          { txn with phase := .marking [u], deactivated := u :: txn.deactivated } with
        userLock := Function.update s.userLock u (some q) }) ∨
    ∃ role role' loss, txn.role = some role ∧
      editRole s.now groupHolders users members role action = some (role', loss) ∧
      s' = s.setTxn q (txn.afterEdit role' loss) := by
  unfold perform at h
  split at h
  · rename_i u
    split at h
    · exact Or.inl ⟨u, _, Or.inl rfl, ‹_›, (Option.some.inj h).symm⟩
    · cases h
  · rename_i u
    unfold deactivateUser at h
    split at h
    · rename_i row hrow
      split at h
      · exact Or.inl ⟨u, row, Or.inr ⟨rfl, ‹_›⟩, hrow, (Option.some.inj h).symm⟩
      · split at h
        · exact Or.inr (Or.inl ⟨u, row, rfl, hrow, (Option.some.inj h).symm⟩)
        · cases h
    · cases h
  · split at h
    · rename_i role hrole
      split at h
      · exact Or.inr (Or.inr ⟨role, _, _, hrole, ‹_›, (Option.some.inj h).symm⟩)
      · cases h
    · cases h

end State

end

end RedTeaming.Auth.Sessions
