import RedTeaming.Auth.Revocation

/-!
# `RedTeaming.Auth.AccessLoss`: a committed loss of access and the tokens minted around it

A request that takes access away writes the revocation markers before it commits. A sign-in that
selects its rows before the commit, and mints in a later second than the marker, issues a token
with the lost access that no marker covers. `Prompt` is the condition on a run that excludes it:
an access token is minted no later than the second of each marker that was read, for its user, by
a request that had not committed when the sign-in selected its rows.

`lost_access_at_commit` is the result for the runs that meet it. After a request has committed, no
accepted access token belongs to a user it deactivated, or carries a permission that it took from
a role of the holder and that no live active role of the holder grants. `access_survives` is a run
that does not meet it.

The holders that a role request revokes are the live ones. So `Prompt` also asks that a
tombstoned holder has no unexpired access token when the holders are selected. A user delete
revokes nothing, and a token minted before it lives on until it expires.

`LossInv` is the invariant. Its parts are about one request (`TxnOk`), one issued token
(`TokenOk`), and one call (`CallFresh`).
-/

set_option autoImplicit false

namespace RedTeaming.Auth.Sessions

open RedTeaming.Library

/-- The request takes access away in the database. -/
def Request.TakesAway : Request → Prop
  | .forceLogout _ => False
  | _ => True

/-- The rows that a call selected do not show the work of the request: it had not committed then.
A change of status is in the user row, and a role edit is in the roles. -/
def Request.UnseenBy (request : Request) (q : RequestId) (seenUser seenRoles : List RequestId) :
    Prop :=
  match request with
  | .forceLogout _ => False
  | .changeStatus _ => q ∉ seenUser
  | .patchRole _ _ _ => q ∉ seenRoles
  | .deleteRole _ => q ∉ seenRoles

/-- What the role of a request stopped granting. -/
def Txn.lost (txn : Txn) : Finset Permission :=
  match txn.before, txn.role with
  | some before, some role => before.grants \ role.grants
  | _, _ => ∅

/-- The sessions of the user are still to be revoked in this phase. -/
def Phase.Pending : Phase → UserId → Prop
  | .marking todo, u => u ∈ todo
  | .writing v _ todo, u => u = v ∨ u ∈ todo
  | _, _ => False

section
variable {settings : Settings} {s s' : State}

/-- A request that has committed. -/
def Committed (s : State) (q : RequestId) (txn : Txn) : Prop :=
  s.txns q = some txn ∧ txn.phase = .committed

/-- A marker of the request for the user has landed. -/
def Marked (s : State) (q : RequestId) (u : UserId) : Prop :=
  ∃ rd ∈ s.landed, rd.request = q ∧ rd.user = u

/-- A landed marker of its user covers the token. -/
def Covered (s : State) (token : Token) : Prop :=
  ∃ rd ∈ s.landed, rd.user = token.sub ∧ token.iat ≤ rd.second

/-- The unexpired access tokens of tombstoned holders are gone when the holders are selected. -/
def TombstonesExpired (s : State) (q : RequestId) : Prop :=
  ∀ txn r, s.txns q = some txn → txn.request.role? = some r →
    ∀ u row, s.db.user u = some row → r ∈ row.roleIds → row.deleted = true →
      ∀ i ∈ s.issued, i.token.typ = .access → i.token.sub = u → i.token.exp ≤ s.now

/-- The call mints its access token no later than the second of each marker for its user that
was read by a request, not aborted, whose work the call's rows do not show. -/
def MintsPromptly (s : State) (c : CallId) : Prop :=
  ∀ grant permissions seenUser seenRoles,
    s.calls c = some (.ready grant permissions seenUser seenRoles) →
      ∀ rd ∈ s.read, rd.user = grant.user →
        ∀ txn, s.txns rd.request = some txn → txn.phase ≠ .aborted →
          txn.request.UnseenBy rd.request seenUser seenRoles → s.now ≤ rd.second

/-- The condition on a step under which a loss takes effect at the commit. -/
def Prompt (s : State) : Label → Prop
  | .setMarker q => MarkerAdvances s q
  | .selectHolders q => TombstonesExpired s q
  | .mintAccess c => MintsPromptly s c
  | _ => True

/-! ### The rows after a commit -/

/-- Only the status of a user row changes. -/
theorem written_user (db : Directory) (txn : Txn) (u : UserId) :
    (State.written db txn).user u = (db.user u).map fun row =>
      if u ∈ txn.deactivated then { row with status := .inactive } else row := by
  unfold State.written
  split <;> rfl

/-- The row of a user, with its roles and tombstone, stays through a commit. -/
theorem written_user_eq_some {db : Directory} {txn : Txn} {u : UserId} {row : User}
    (h : (State.written db txn).user u = some row) :
    ∃ old, db.user u = some old ∧ row.roleIds = old.roleIds ∧ row.deleted = old.deleted ∧
      (old.status = .inactive → row.status = .inactive) ∧
      (u ∈ txn.deactivated → row.status = .inactive) := by
  rw [written_user, Option.map_eq_some_iff] at h
  obtain ⟨old, hold, rfl⟩ := h
  refine ⟨old, hold, ?_⟩
  by_cases hu : u ∈ txn.deactivated <;> simp [hu, User.deleted]

/-- A user row goes into a commit. -/
theorem exists_written_user {db : Directory} {u : UserId} {old : User} (txn : Txn)
    (h : db.user u = some old) :
    ∃ row, (State.written db txn).user u = some row ∧ row.roleIds = old.roleIds ∧
      row.deleted = old.deleted := by
  rw [written_user, h]
  refine ⟨_, rfl, ?_⟩
  by_cases hu : u ∈ txn.deactivated <;> simp [hu, User.deleted]

/-- A commit keeps an effective permission, unless its role stopped granting it. -/
theorem effective_written {db : Directory} {txn : Txn}
    (hbefore : ∀ r, txn.request.role? = some r → ∃ before role, txn.before = some before ∧
      txn.role = some role ∧ db.role r = some before) {u : UserId} {p : Permission}
    (hp : p ∈ db.effective u) :
    p ∈ (State.written db txn).effective u ∨
      ∃ r, txn.request.role? = some r ∧ db.Holds u r ∧ p ∈ txn.lost := by
  obtain ⟨old, hold, r, hr, role, hrole, hgrants⟩ := Directory.mem_effective.mp hp
  obtain ⟨row, hrow, hids, -⟩ := exists_written_user txn hold
  by_cases hreq : txn.request.role? = some r
  · obtain ⟨before, role', hbef, hafter, hdb⟩ := hbefore r hreq
    obtain rfl : before = role := Option.some.inj (hdb.symm.trans hrole)
    by_cases hkeep : p ∈ role'.grants
    · refine Or.inl (Directory.mem_effective.mpr ⟨row, hrow, r, hids ▸ hr, role', ?_, hkeep⟩)
      simp [State.written, hreq, hafter, Directory.setRole]
    · refine Or.inr ⟨r, hreq, ⟨old, hold, hr⟩, ?_⟩
      simp only [Txn.lost, hbef, hafter, Finset.mem_sdiff]
      exact ⟨hgrants, hkeep⟩
  · refine Or.inl (Directory.mem_effective.mpr ⟨row, hrow, r, hids ▸ hr, role, ?_, hgrants⟩)
    unfold State.written
    split
    · rename_i r' role' hr' hrole'
      have hne : r ≠ r' := fun h => hreq (h ▸ hr')
      simp [Directory.setRole, Directory.deactivate, hne, hrole]
    · exact hrole

/-! ### The invariant -/

/-- What holds of a request. `covering` is the step that its markers take: each user it
deactivates, and each live holder of a role that it takes from, is marked or is about to be. -/
structure TxnOk (s : State) (q : RequestId) (txn : Txn) : Prop where
  actions : ∀ a, a ∈ txn.todo ∨ a ∈ txn.performed → a ∈ txn.request.actions
  locked : txn.Running → ∀ r, txn.request.role? = some r → s.roleLock r = some q ∧
    ∃ before role, txn.before = some before ∧ txn.role = some role ∧ s.db.role r = some before
  unlocked : txn.request.role? = none → txn.role = none
  inactive : txn.phase ≠ .aborted → ∀ u, .deactivate u ∈ txn.performed →
    ∃ row, s.db.user u = some row ∧
      (row.status = .inactive ∨ txn.Running ∧ u ∈ txn.deactivated)
  marked : txn.phase ≠ .aborted → ∀ u, .deactivate u ∈ txn.performed →
    txn.phase.Pending u ∨ Marked s q u
  covering : txn.phase ≠ .aborted → txn.phase = .selecting ∨ ∀ p ∈ txn.lost,
    ∀ r, txn.request.role? = some r → ∀ u row, s.db.user u = some row → r ∈ row.roleIds →
      if row.deleted then ∀ i ∈ s.issued, i.token.typ = .access → i.token.sub = u →
        i.token.exp ≤ s.now
      else txn.phase.Pending u ∨ Marked s q u
  fresh : txn.Running → txn.request.TakesAway → ∀ rd ∈ s.read, rd.request = q →
    ∀ i ∈ s.issued, i.token.typ = .access → i.token.sub = rd.user → i.token.iat ≤ rd.second

/-- What holds of an issued access token: a marker covers it once its user is deactivated, and
once its user lost a permission it is covered, or expired, or carries no more than the user's
roles grant. -/
structure TokenOk (s : State) (token : Token) : Prop where
  inactive : ∀ q txn, Committed s q txn → .deactivate token.sub ∈ txn.performed →
    Covered s token
  lost : ∀ q txn r, Committed s q txn → txn.request.role? = some r → txn.lost.Nonempty →
    s.db.Holds token.sub r →
      Covered s token ∨ token.exp ≤ s.now ∨ token.permissions ⊆ s.db.effective token.sub

/-- The rows that a call for the user selected: a live row with these roles. -/
def LiveRow (s : State) (u : UserId) : Prop :=
  ∃ row, s.db.user u = some row ∧ row.deleted = false

/-- What holds of a call: its rows are current, up to the requests that committed since. -/
def CallFresh (s : State) : Call → Prop
  | .userLoaded grant row seenUser =>
    (∃ now, s.db.user grant.user = some now ∧ now.deleted = false ∧ now.roleIds = row.roleIds) ∧
      seenUser ⊆ s.committed ∧
      ∀ q ∈ seenUser, ∀ txn, s.txns q = some txn → .deactivate grant.user ∈ txn.performed →
        row.status = .inactive
  | .ready grant permissions seenUser seenRoles =>
    (∃ now, s.db.user grant.user = some now ∧ now.deleted = false) ∧
      seenUser ⊆ s.committed ∧ seenRoles ⊆ s.committed ∧
      (∀ q ∈ seenUser, ∀ txn, s.txns q = some txn → .deactivate grant.user ∉ txn.performed) ∧
      (permissions ⊆ s.db.effective grant.user ∨
        ∃ q txn r, Committed s q txn ∧ q ∉ seenRoles ∧ txn.request.role? = some r ∧
          Marked s q grant.user)
  | _ => True

/-- The invariant of the requests, the access tokens, and the calls. -/
structure LossInv (settings : Settings) (s : State) : Prop where
  inv : Inv settings s
  committed : ∀ q, q ∈ s.committed ↔ ∃ txn, Committed s q txn
  readers : ∀ rd ∈ s.read, s.txns rd.request ≠ none
  txns : ∀ q txn, s.txns q = some txn → TxnOk s q txn
  tokens : ∀ i ∈ s.issued, i.token.typ = .access → TokenOk s i.token
  calls : ∀ c call, s.calls c = some call → CallFresh s call

theorem Start.lossInv (h : Start settings s) : LossInv settings s where
  inv := h.inv
  committed q := by simp [h.committed, Committed, h.txns]
  readers rd hrd := by simp [h.read] at hrd
  txns q txn htxn := by simp [h.txns] at htxn
  tokens i _ _ := ⟨fun q txn hc => by simp [Committed, h.txns] at hc,
    fun q txn r hc => by simp [Committed, h.txns] at hc⟩
  calls c call hcall := by simp [h.calls] at hcall

/-- A call step keeps what is known of the requests and the tokens. -/
theorem LossInv.setCall {c : CallId} {call : Call} (h : LossInv settings s)
    (hcall : CallFresh s call) : LossInv settings (s.setCall c call) where
  inv := h.inv.quiet (.setCall s c call)
  committed := h.committed
  readers := h.readers
  txns q txn htxn :=
    let ok := h.txns q txn htxn
    ⟨ok.actions, ok.locked, ok.unlocked, ok.inactive, ok.marked, ok.covering, ok.fresh⟩
  tokens i hi htyp :=
    let ok := h.tokens i hi htyp
    ⟨ok.inactive, ok.lost⟩
  calls := forall_update (fun c call hc => by cases call <;> exact h.calls c _ hc)
    (by cases call <;> exact hcall)

/-- A step that moves one request, which neither was committed nor is now. -/
structure TxnStep (s s' : State) (q : RequestId) (txn' : Txn) : Prop where
  txns : s'.txns = Function.update s.txns q (some txn')
  before : ∀ txn, s.txns q = some txn → txn.phase ≠ .committed
  after : txn'.phase ≠ .committed
  db : s'.db = s.db
  issued : s'.issued = s.issued
  calls : s'.calls = s.calls
  committed : s'.committed = s.committed
  clock : s'.clock = s.clock
  landed : ∀ rd ∈ s.landed, rd ∈ s'.landed
  roleLock : ∀ r q', q' ≠ q → s.roleLock r = some q' → s'.roleLock r = some q'
  read : ∀ rd ∈ s'.read, rd.request ≠ q → rd ∈ s.read

namespace TxnStep
variable {q : RequestId} {txn' : Txn}

theorem now (ht : TxnStep s s' q txn') : s'.now = s.now := by
  simp only [State.now, ht.clock]

/-- The committed requests are the same. -/
theorem committed_iff (ht : TxnStep s s' q txn') (q' : RequestId) (txn : Txn) :
    Committed s' q' txn ↔ Committed s q' txn := by
  unfold Committed
  rw [ht.txns, update_some_eq_some]
  constructor
  · rintro ⟨⟨rfl, rfl⟩ | ⟨-, htxn⟩, hphase⟩
    · exact absurd hphase ht.after
    · exact ⟨htxn, hphase⟩
  · rintro ⟨htxn, hphase⟩
    refine ⟨Or.inr ⟨?_, htxn⟩, hphase⟩
    rintro rfl
    exact ht.before txn htxn hphase

theorem marked (ht : TxnStep s s' q txn') {q' : RequestId} {u : UserId} (h : Marked s q' u) :
    Marked s' q' u := by
  obtain ⟨rd, hrd, h⟩ := h
  exact ⟨rd, ht.landed rd hrd, h⟩

theorem covered (ht : TxnStep s s' q txn') {token : Token} (h : Covered s token) :
    Covered s' token := by
  obtain ⟨rd, hrd, h⟩ := h
  exact ⟨rd, ht.landed rd hrd, h⟩

/-- What is known of another request stays. -/
theorem other (ht : TxnStep s s' q txn') {q' : RequestId} {txn : Txn} (hq : q' ≠ q)
    (h : TxnOk s q' txn) : TxnOk s' q' txn where
  actions := h.actions
  locked hrun r hr := by
    obtain ⟨hlock, hrow⟩ := h.locked hrun r hr
    exact ⟨ht.roleLock r q' hq hlock, ht.db ▸ hrow⟩
  unlocked := h.unlocked
  inactive hphase u hu := ht.db ▸ h.inactive hphase u hu
  marked hphase u hu := (h.marked hphase u hu).imp id ht.marked
  covering hphase := by
    refine (h.covering hphase).imp id fun hcov p hp r hr u row hrow hmem => ?_
    rw [ht.db] at hrow
    have := hcov p hp r hr u row hrow hmem
    split
    · rename_i hdel
      rw [if_pos hdel] at this
      rwa [ht.issued, ht.now]
    · rename_i hdel
      rw [if_neg hdel] at this
      exact this.imp id ht.marked
  fresh hrun htakes rd hrd hreq := by
    rw [ht.issued]
    exact h.fresh hrun htakes rd (ht.read rd hrd (hreq ▸ hq)) hreq

end TxnStep

/-- A request that moves keeps the invariant when it keeps what is known of it. -/
theorem LossInv.txnStep {q : RequestId} {txn' : Txn} (h : LossInv settings s)
    (hinv : Inv settings s') (ht : TxnStep s s' q txn') (hok : TxnOk s' q txn') :
    LossInv settings s' where
  inv := hinv
  committed q' := by
    rw [ht.committed, h.committed]
    exact exists_congr fun txn => (ht.committed_iff q' txn).symm
  readers rd hrd := by
    rw [ht.txns]
    by_cases hq : rd.request = q
    · simp [hq]
    · rw [Function.update_of_ne hq]
      exact h.readers rd (ht.read rd hrd hq)
  txns q' txn htxn := by
    rw [ht.txns, update_some_eq_some] at htxn
    rcases htxn with ⟨rfl, rfl⟩ | ⟨hq, htxn⟩
    · exact hok
    · exact ht.other hq (h.txns q' txn htxn)
  tokens i hi htyp := by
    rw [ht.issued] at hi
    have htok := h.tokens i hi htyp
    refine ⟨fun q' txn hc hmem => ?_, fun q' txn r hc hr hlost hholds => ?_⟩
    · exact ht.covered (htok.inactive q' txn ((ht.committed_iff q' txn).mp hc) hmem)
    · rw [ht.db] at hholds ⊢
      rw [ht.now]
      exact (htok.lost q' txn r ((ht.committed_iff q' txn).mp hc) hr hlost hholds).imp
        ht.covered id
  calls c call hcall := by
    rw [ht.calls] at hcall
    have hfresh := h.calls c call hcall
    -- The requests that a call saw had committed, so none of them is the one that moves.
    have hseen : ∀ {seen : List RequestId}, seen ⊆ s.committed → ∀ q' ∈ seen, ∀ txn,
        s'.txns q' = some txn → s.txns q' = some txn := by
      intro seen hsub q' hq' txn htxn
      rw [ht.txns, update_some_eq_some] at htxn
      rcases htxn with ⟨rfl, rfl⟩ | ⟨-, htxn⟩
      · obtain ⟨txn₀, htxn₀, hphase⟩ := (h.committed q').mp (hsub hq')
        exact absurd hphase (ht.before txn₀ htxn₀)
      · exact htxn
    cases call with
    | userLoaded grant row seenUser =>
      obtain ⟨hrow, hsub, hstatus⟩ := hfresh
      refine ⟨ht.db ▸ hrow, ht.committed ▸ hsub, fun q' hq' txn htxn => ?_⟩
      exact hstatus q' hq' txn (hseen hsub q' hq' txn htxn)
    | ready grant permissions seenUser seenRoles =>
      obtain ⟨hrow, hsubU, hsubR, hnot, hperm⟩ := hfresh
      refine ⟨ht.db ▸ hrow, ht.committed ▸ hsubU, ht.committed ▸ hsubR, fun q' hq' txn htxn =>
        hnot q' hq' txn (hseen hsubU q' hq' txn htxn), ?_⟩
      rw [ht.db]
      refine hperm.imp id ?_
      rintro ⟨q', txn, r, hc, hunseen, hr, hmark⟩
      exact ⟨q', txn, r, (ht.committed_iff q' txn).mpr hc, hunseen, hr, ht.marked hmark⟩
    | _ => trivial

/-! ### The steps of a request -/

/-- A request that only takes its row locks or moves to another phase is a request step. -/
theorem TxnStep.of_setTxn {q : RequestId} {txn' : Txn} {roleLock : RoleId → Option RequestId}
    {userLock : UserId → Option RequestId}
    (hbefore : ∀ txn, s.txns q = some txn → txn.phase ≠ .committed)
    (hafter : txn'.phase ≠ .committed)
    (hlock : ∀ r q', q' ≠ q → s.roleLock r = some q' → roleLock r = some q') :
    TxnStep s { s.setTxn q txn' with roleLock, userLock } q txn' where
  txns := rfl
  before := hbefore
  after := hafter
  db := rfl
  issued := rfl
  calls := rfl
  committed := rfl
  clock := rfl
  landed _ := id
  roleLock := hlock
  read _ hrd _ := hrd

/-- A request in a phase other than `committed` is not committed. -/
theorem not_committed {q : RequestId} {txn : Txn} {phase : Phase} (htxn : s.txns q = some txn)
    (hphase : txn.phase = phase) (hne : phase ≠ .committed) :
    ∀ txn', s.txns q = some txn' → txn'.phase ≠ .committed := by
  intro txn' htxn'
  rw [htxn, Option.some.injEq] at htxn'
  subst htxn'
  rw [hphase]
  exact hne

theorem LossInv.begin {q : RequestId} {request : Request} (h : LossInv settings s)
    (hinv : Inv settings s') (hstep : s.begin q request = some s') : LossInv settings s' := by
  obtain ⟨hnone, hcases⟩ := State.begin_cases hstep
  have hbefore : ∀ txn, s.txns q = some txn → txn.phase ≠ .committed := by
    intro txn htxn
    rw [hnone] at htxn
    cases htxn
  have hreaders : ∀ rd ∈ s.read, rd.request ≠ q := fun rd hrd hq =>
    h.readers rd hrd (hq ▸ hnone)
  rcases hcases with ⟨hrole, rfl⟩ | ⟨r, row, hrole, hrow, hfree, rfl⟩
  · -- The request edits no role, and knows nothing yet.
    refine h.txnStep hinv (.of_setTxn hbefore (fun h => (nomatch h)) fun _ _ _ => id) ?_
    refine ⟨fun a ha => by simpa using ha, fun _ r hr => ?_, fun _ => rfl, fun _ u hu => ?_,
      fun _ u hu => ?_, fun _ => Or.inr fun p hp => ?_, fun _ _ rd hrd hq => ?_⟩
    · rw [hrole] at hr
      cases hr
    · cases hu
    · cases hu
    · simp [Txn.lost] at hp
    · exact absurd hq (hreaders rd hrd)
  · -- The request locks the role that it edits. The locks of the others stay.
    have hlock : ∀ r' q', q' ≠ q → s.roleLock r' = some q' →
        Function.update s.roleLock r (some q) r' = some q' := by
      intro r' q' _ hheld
      have hne : r' ≠ r := by
        rintro rfl
        rw [hfree] at hheld
        cases hheld
      rwa [Function.update_of_ne hne]
    refine h.txnStep hinv (.of_setTxn hbefore (fun h => (nomatch h)) hlock) ?_
    refine ⟨fun a ha => by simpa using ha, fun _ r' hr' => ?_, fun hnone => ?_, fun _ u hu => ?_,
      fun _ u hu => ?_, fun _ => Or.inr fun p hp => ?_, fun _ _ rd hrd hq => ?_⟩
    · obtain rfl : r = r' := Option.some.inj (hrole.symm.trans hr')
      refine ⟨Function.update_self _ _ _, row, row, rfl, rfl, ?_⟩
      exact (Directory.liveRole_eq_some.mp hrow).1
    · exact absurd hnone (by simp [hrole])
    · cases hu
    · cases hu
    · simp [Txn.lost] at hp
    · exact absurd hq (hreaders rd hrd)

/-- A role edit that is no loss keeps what the role grants. -/
theorem grants_subset_of_editRole {now groupHolders users members : Nat} {role role' : Role}
    {action : Action} (h : State.editRole now groupHolders users members role action
      = some (role', false)) : role.grants ⊆ role'.grants := by
  unfold State.editRole at h
  split at h
  · rename_i e
    split at h
    · rename_i hok
      obtain ⟨-, rfl, -⟩ := updateRole_spec hok
      simp only [Option.some.injEq, Prod.mk.injEq, decide_eq_false_iff_not, not_not] at h
      obtain ⟨rfl, hremoved⟩ := h
      -- An edit without a loss removes no permission.
      have hsub : role.permissions ⊆ (e.applyTo role).permissions := by
        unfold RoleEdits.removed at hremoved
        unfold RoleEdits.applyTo
        cases hperm : e.permissions with
        | none => exact subset_rfl
        | some permissions =>
          rw [hperm] at hremoved
          exact Finset.sdiff_eq_empty_iff_subset.mp hremoved
      have hactive : (e.applyTo role).grants
          = if !role.deleted && role.isActive then (e.applyTo role).permissions else ∅ := rfl
      rw [hactive, Role.grants]
      split
      · exact hsub
      · exact Finset.empty_subset _
    · cases h
  · rename_i isActive
    split at h
    · rename_i hok
      obtain ⟨rfl, -⟩ := setRoleActive_spec hok
      simp only [Option.some.injEq, Prod.mk.injEq, Bool.and_eq_false_iff,
        Bool.not_eq_false'] at h
      obtain ⟨rfl, hactive⟩ := h
      -- A role that was inactive granted nothing, and one that is activated loses nothing.
      intro p hp
      obtain ⟨hlive, hrow, hmem⟩ := Role.mem_grants.mp hp
      rcases hactive with hinactive | rfl
      · exact absurd hrow (by simp [hinactive])
      · exact Role.mem_grants.mpr ⟨hlive, rfl, hmem⟩
    · cases h
  · split at h
    · simp at h
    · cases h
  · cases h

/-- The actions of a role edit are no deactivations. -/
theorem ne_deactivate_of_editRole {now groupHolders users members : Nat} {role : Role}
    {action : Action} {result : Role × Bool}
    (h : State.editRole now groupHolders users members role action = some result) (u : UserId) :
    action ≠ .deactivate u := by
  rintro rfl
  cases h

/-- What a request that is ready for its next action has marked. -/
theorem TxnOk.marked_of_ready {q : RequestId} {txn : Txn} (h : TxnOk s q txn)
    (hphase : txn.phase = .marking []) {u : UserId} (hu : .deactivate u ∈ txn.performed) :
    Marked s q u := by
  refine (h.marked (by simp [hphase]) u hu).resolve_left ?_
  simp [hphase, Phase.Pending]

/-- What a request that is ready for its next action has revoked for a loss. -/
theorem TxnOk.covering_of_ready {q : RequestId} {txn : Txn} (h : TxnOk s q txn)
    (hphase : txn.phase = .marking []) {p : Permission} (hp : p ∈ txn.lost) {r : RoleId}
    (hr : txn.request.role? = some r) {u : UserId} {row : User} (hrow : s.db.user u = some row)
    (hmem : r ∈ row.roleIds) :
    if row.deleted then ∀ i ∈ s.issued, i.token.typ = .access → i.token.sub = u →
      i.token.exp ≤ s.now else Marked s q u := by
  have hcov := ((h.covering (by simp [hphase])).resolve_left (by simp [hphase])) p hp r hr u row
    hrow hmem
  split
  · rename_i hdel
    rwa [if_pos hdel] at hcov
  · rename_i hdel
    rw [if_neg hdel] at hcov
    exact hcov.resolve_left (by simp [hphase, Phase.Pending])

/-- What is known of a request depends on these parts of the state only. -/
theorem TxnOk.congr {q : RequestId} {txn : Txn} (h : TxnOk s q txn)
    (hlock : s'.roleLock = s.roleLock) (hdb : s'.db = s.db) (hissued : s'.issued = s.issued)
    (hread : s'.read = s.read) (hlanded : s'.landed = s.landed) (hclock : s'.clock = s.clock) :
    TxnOk s' q txn := by
  cases s
  cases s'
  subst hlock hdb hissued hread hlanded hclock
  exact ⟨h.actions, h.locked, h.unlocked, h.inactive, h.marked, h.covering, h.fresh⟩

/-- The next action of a request keeps what is known of it: a deactivation is written, and its
user is about to be marked. A loss is about to select the holders. -/
theorem TxnOk.next {q : RequestId} {txn txn' : Txn} {action : Action} {todo : List Action}
    (h : TxnOk s q txn) (hphase : txn.phase = .marking []) (htodo : txn.todo = action :: todo)
    (hrequest : txn'.request = txn.request) (htodo' : txn'.todo = todo)
    (hperformed : txn'.performed = action :: txn.performed) (hbefore : txn'.before = txn.before)
    (hrole : txn'.role.isSome = txn.role.isSome) (hrun : txn'.Running)
    (hwritten : ∀ u ∈ txn.deactivated, u ∈ txn'.deactivated)
    (haction : ∀ u, action = .deactivate u → txn'.phase.Pending u ∧ ∃ row,
      s.db.user u = some row ∧ (row.status = .inactive ∨ u ∈ txn'.deactivated))
    (hlost : txn'.phase = .selecting ∨ txn'.lost ⊆ txn.lost) : TxnOk s q txn' where
  actions a ha := by
    rw [hrequest]
    rw [htodo', hperformed] at ha
    rcases ha with ha | ha
    · exact h.actions a (Or.inl (htodo ▸ List.mem_cons_of_mem _ ha))
    · -- The actions that are done are those of the request, in their order.
      rcases List.mem_cons.mp ha with rfl | ha
      · exact h.actions _ (Or.inl (htodo ▸ List.mem_cons_self))
      · exact h.actions a (Or.inr ha)
  locked _ r hr := by
    have hrun₀ : txn.Running := by simp [Txn.Running, hphase]
    obtain ⟨hlock, before, role, hb, hr', hdb⟩ := h.locked hrun₀ r (hrequest ▸ hr)
    obtain ⟨role', hrole'⟩ := Option.isSome_iff_exists.mp (hrole.trans (by simp [hr']))
    exact ⟨hlock, before, role', hbefore.trans hb, hrole', hdb⟩
  unlocked hr := by
    rw [hrequest] at hr
    rw [h.unlocked hr] at hrole
    simpa using hrole
  inactive _ u hu := by
    rw [hperformed] at hu
    rcases List.mem_cons.mp hu with hu | hu
    · -- A user whom the action itself deactivates, and then those of before.
      obtain ⟨-, row, hrow, hst⟩ := haction u hu.symm
      exact ⟨row, hrow, hst.imp id fun hst => ⟨hrun, hst⟩⟩
    · obtain ⟨row, hrow, hst⟩ := h.inactive (by simp [hphase]) u hu
      exact ⟨row, hrow, hst.imp id fun hst => ⟨hrun, hwritten u hst.2⟩⟩
  marked _ u hu := by
    rw [hperformed] at hu
    rcases List.mem_cons.mp hu with hu | hu
    · exact Or.inl (haction u hu.symm).1
    · exact Or.inr (h.marked_of_ready hphase hu)
  covering _ := by
    -- Without a selection ahead, nothing new is lost, and what was lost is covered.
    refine hlost.imp id fun hsub p hp r hr u row hrow hmem => ?_
    have hcov := h.covering_of_ready hphase (hsub hp) (hrequest ▸ hr) hrow hmem
    split
    · rename_i hdel
      rwa [if_pos hdel] at hcov
    · rename_i hdel
      rw [if_neg hdel] at hcov
      exact Or.inr hcov
  fresh _ htakes := h.fresh (by simp [Txn.Running, hphase]) (hrequest ▸ htakes)

theorem LossInv.act {q : RequestId} {groupHolders users members : Nat} (h : LossInv settings s)
    (hinv : Inv settings s') (hstep : s.act q groupHolders users members = some s') :
    LossInv settings s' := by
  obtain ⟨txn, action, todo, htxn, hphase, htodo, hperform⟩ := State.act_cases hstep
  have hok := h.txns q txn htxn
  have hbefore := not_committed htxn hphase (fun h => (nomatch h))
  rcases State.perform_cases hperform with
    ⟨u, row, haction, hrow, rfl⟩ | ⟨u, row, rfl, hrow, rfl⟩ |
      ⟨role, role', loss, hrole, hedit, rfl⟩
  · -- A logout, or a deactivation that has nothing to write.
    refine h.txnStep hinv (.of_setTxn hbefore (fun h => (nomatch h)) fun _ _ _ => id)
      (.congr (.next hok hphase htodo rfl rfl rfl rfl rfl (by simp [Txn.Running])
        (fun _ => id) (fun v hv => ?_) (Or.inr subset_rfl)) rfl rfl rfl rfl rfl rfl)
    subst hv
    obtain haction | ⟨hu, hinactive⟩ := haction
    · cases haction
    · cases hu
      exact ⟨List.mem_singleton.mpr rfl, row, (Directory.liveUser_eq_some.mp hrow).1, hinactive⟩
  · -- A deactivation.
    refine h.txnStep hinv (.of_setTxn hbefore (fun h => (nomatch h)) fun _ _ _ => id)
      (.congr (.next hok hphase htodo rfl rfl rfl rfl rfl (by simp [Txn.Running])
        (fun _ => List.mem_cons_of_mem _) (fun v hv => ?_) (Or.inr subset_rfl))
        rfl rfl rfl rfl rfl rfl)
    cases hv
    exact ⟨List.mem_singleton.mpr rfl, row, (Directory.liveUser_eq_some.mp hrow).1,
      Or.inr List.mem_cons_self⟩
  · -- A role edit.
    have hrole : txn.role = some role := hrole
    have hne : ∀ phase : Phase, phase = (if loss then .selecting else .marking []) →
        phase ≠ .committed ∧ phase ≠ .aborted := by
      rintro phase rfl
      cases loss <;> exact ⟨fun h => (nomatch h), fun h => (nomatch h)⟩
    refine h.txnStep hinv (.of_setTxn hbefore (hne _ rfl).1 fun _ _ _ => id)
      (.congr (.next hok hphase htodo rfl rfl rfl rfl (by simp [Txn.afterEdit, hrole]) (hne _ rfl)
        (fun _ => id) (fun v hv => absurd hv (ne_deactivate_of_editRole hedit v)) ?_)
        rfl rfl rfl rfl rfl rfl)
    cases loss with
    | true => exact Or.inl rfl
    | false =>
      refine Or.inr ?_
      have hsub := grants_subset_of_editRole hedit
      unfold Txn.lost Txn.afterEdit
      simp only [hrole]
      split
      · rename_i before role'' hb hr
        simp only [Option.some.injEq] at hr
        subst hr
        simp only [hb]
        exact Finset.sdiff_subset_sdiff subset_rfl hsub
      · exact Finset.empty_subset _

theorem LossInv.skip {q : RequestId} (h : LossInv settings s) (hinv : Inv settings s')
    (hstep : s.skip q = some s') : LossInv settings s' := by
  obtain ⟨txn, action, todo, htxn, hphase, hrole, htodo, rfl⟩ := State.skip_cases hstep
  have hok := h.txns q txn htxn
  refine h.txnStep hinv (.of_setTxn (not_committed htxn hphase fun h => (nomatch h))
    (by simp [hphase]) fun _ _ _ => id)
    ⟨fun a ha => hok.actions a (ha.imp (fun ha => htodo ▸ List.mem_cons_of_mem _ ha) id),
      hok.locked, hok.unlocked, hok.inactive, hok.marked, hok.covering, hok.fresh⟩

/-- A role request deactivates no user. -/
theorem TxnOk.not_deactivate_of_role {q : RequestId} {txn : Txn} (h : TxnOk s q txn) {r : RoleId}
    (hr : txn.request.role? = some r) (u : UserId) : .deactivate u ∉ txn.performed := by
  intro hu
  have hact := h.actions _ (Or.inr hu)
  cases hreq : txn.request with
  | forceLogout users => simp [hreq, Request.role?] at hr
  | changeStatus users => simp [hreq, Request.role?] at hr
  | patchRole role edits isActive =>
    rw [hreq] at hact
    simp [Request.actions] at hact
  | deleteRole role =>
    rw [hreq] at hact
    simp [Request.actions] at hact

theorem LossInv.selectHolders {q : RequestId} (h : LossInv settings s) (hinv : Inv settings s')
    (htomb : TombstonesExpired s q) (hstep : s.selectHolders q = some s') :
    LossInv settings s' := by
  obtain ⟨txn, r, htxn, hphase, hrole, rfl⟩ := State.selectHolders_cases hstep
  have hok := h.txns q txn htxn
  have hrun : txn.Running := by simp [Txn.Running, hphase]
  refine h.txnStep hinv (.of_setTxn (not_committed htxn hphase fun h => (nomatch h))
    (fun h => (nomatch h)) fun _ _ _ => id)
    ⟨hok.actions, fun _ => hok.locked hrun, hok.unlocked, fun _ u hu => ?_, fun _ u hu => ?_,
      fun _ => Or.inr fun p hp r' hr' u row hrow hmem => ?_, fun _ => hok.fresh hrun⟩
  · exact absurd hu (hok.not_deactivate_of_role hrole u)
  · exact absurd hu (hok.not_deactivate_of_role hrole u)
  · obtain rfl : r = r' := Option.some.inj (hrole.symm.trans hr')
    split
    · rename_i hdel
      exact htomb txn r htxn hrole u row hrow hmem hdel
    · rename_i hlive
      exact Or.inl (Directory.mem_holders hrow (by simpa using hlive) hmem)

/-- A request that goes from one phase of its marking to another keeps what is known of it, when
each user that was pending is pending or marked, and the clock readings of the request are at
or after the tokens. -/
theorem TxnOk.mark {q : RequestId} {txn : Txn} {phase : Phase} (h : TxnOk s q txn)
    (hrun : txn.Running) (hrun' : ({ txn with phase } : Txn).Running)
    (hsel : txn.phase ≠ .selecting) (hlock : s'.roleLock = s.roleLock) (hdb : s'.db = s.db)
    (hissued : s'.issued = s.issued) (hclock : s'.clock = s.clock)
    (hlanded : ∀ rd ∈ s.landed, rd ∈ s'.landed)
    (hpending : ∀ u, txn.phase.Pending u → phase.Pending u ∨ Marked s' q u)
    (hread : ∀ rd ∈ s'.read, rd.request = q → rd ∈ s.read ∨
      ∀ i ∈ s.issued, i.token.iat ≤ rd.second) : TxnOk s' q { txn with phase } where
  actions := h.actions
  locked _ := by
    rw [hlock, hdb]
    exact h.locked hrun
  unlocked := h.unlocked
  inactive _ u hu := by
    rw [hdb]
    obtain ⟨row, hrow, hst⟩ := h.inactive hrun.2 u hu
    exact ⟨row, hrow, hst.imp id fun hst => ⟨hrun', hst.2⟩⟩
  marked _ u hu := by
    -- A user that was pending is pending still, or has a marker that has landed.
    rcases h.marked hrun.2 u hu with hp | ⟨rd, hrd, hm⟩
    · exact hpending u hp
    · exact Or.inr ⟨rd, hlanded rd hrd, hm⟩
  covering _ := by
    refine Or.inr fun p hp r hr u row hrow hmem => ?_
    rw [hdb] at hrow
    have hcov := ((h.covering hrun.2).resolve_left hsel) p hp r hr u row hrow hmem
    split
    · rename_i hdel
      rw [if_pos hdel] at hcov
      simpa only [hissued, State.now, hclock] using hcov
    · rename_i hdel
      rw [if_neg hdel] at hcov
      -- The holders of a loss were covered before the step, and stay so.
      rcases hcov with hpend | ⟨rd, hrd, hm⟩
      · exact hpending u hpend
      · exact Or.inr ⟨rd, hlanded rd hrd, hm⟩
  fresh _ htakes rd hrd hq i hi htyp hu := by
    rw [hissued] at hi
    rcases hread rd hrd hq with hrd | hle
    · exact h.fresh hrun htakes rd hrd hq i hi htyp hu
    · exact hle i hi

theorem LossInv.readClock {q : RequestId} (h : LossInv settings s) (hinv : Inv settings s')
    (hstep : s.readClock q = some s') : LossInv settings s' := by
  obtain ⟨txn, u, todo, htxn, hphase, rfl⟩ := State.readClock_cases hstep
  refine h.txnStep hinv ⟨rfl, not_committed htxn hphase fun h => (nomatch h), fun h =>
    (nomatch h), rfl, rfl, rfl, rfl, rfl, fun _ => id, fun _ _ _ => id, fun rd hrd hq => ?_⟩
    ((h.txns q txn htxn).mark (by simp [Txn.Running, hphase]) (by simp [Txn.Running])
      (by simp [hphase]) rfl rfl rfl rfl
      (fun _ => id) (fun v hv => Or.inl ?_) fun rd hrd _ => ?_)
  · rcases List.mem_cons.mp hrd with rfl | hrd
    · exact absurd rfl hq
    · exact hrd
  · rw [hphase] at hv
    exact List.mem_cons.mp hv
  · rcases List.mem_cons.mp hrd with rfl | hrd
    · exact Or.inr h.inv.iat_le
    · exact Or.inl hrd

theorem LossInv.setMarker {q : RequestId} (h : LossInv settings s) (hinv : Inv settings s')
    (hstep : s.setMarker settings q = some s') : LossInv settings s' := by
  obtain ⟨txn, u, second, todo, htxn, hphase, rfl⟩ := State.setMarker_cases hstep
  refine h.txnStep hinv ⟨rfl, not_committed htxn hphase fun h => (nomatch h), fun h =>
    (nomatch h), rfl, rfl, rfl, rfl, rfl, fun _ => List.mem_cons_of_mem _, fun _ _ _ => id,
    fun _ hrd _ => hrd⟩
    ((h.txns q txn htxn).mark (by simp [Txn.Running, hphase]) (by simp [Txn.Running])
      (by simp [hphase]) rfl rfl rfl rfl
      (fun _ => List.mem_cons_of_mem _) (fun v hv => ?_) fun rd hrd _ => Or.inl hrd)
  rw [hphase] at hv
  rcases hv with rfl | hv
  · exact Or.inr ⟨_, List.mem_cons_self, rfl, rfl⟩
  · exact Or.inl hv

/-- The locks of the other requests stay. -/
theorem unlock_roleLock {q q' : RequestId} {r : RoleId} (hq : q' ≠ q)
    (h : s.roleLock r = some q') : (s.unlock q).roleLock r = some q' := by
  show (if s.roleLock r = some q then none else s.roleLock r) = some q'
  rw [h, if_neg fun heq => hq (Option.some.inj heq)]

theorem LossInv.abort {q : RequestId} (h : LossInv settings s) (hinv : Inv settings s')
    (hstep : s.abort q = some s') : LossInv settings s' := by
  obtain ⟨txn, htxn, hrun, rfl⟩ := State.abort_cases hstep
  have hok := h.txns q txn htxn
  refine h.txnStep hinv ⟨rfl, not_committed htxn rfl hrun.1, fun h => (nomatch h), rfl,
    rfl, rfl, rfl, rfl, fun _ => id, fun r q' hq hlock => unlock_roleLock hq hlock,
    fun _ hrd _ => hrd⟩
    ⟨hok.actions, fun hrun' => absurd rfl hrun'.2, hok.unlocked, fun hne => absurd rfl hne,
      fun hne => absurd rfl hne, fun hne => absurd rfl hne, fun hrun' => absurd rfl hrun'.2⟩

/-! ### The commit -/

/-- When a request that takes from a role is ready to commit, a landed marker of it covers each
access token of a live holder, and those of a tombstoned holder have expired. -/
theorem TxnOk.token_of_lost {q : RequestId} {txn : Txn} (h : TxnOk s q txn)
    (hphase : txn.phase = .marking []) (hlanded : ∀ rd ∈ s.landed, rd ∈ s.read) {p : Permission}
    (hp : p ∈ txn.lost) {r : RoleId} (hr : txn.request.role? = some r) {i : Issued}
    (hi : i ∈ s.issued) (htyp : i.token.typ = .access) (hholds : s.db.Holds i.token.sub r) :
    Covered s i.token ∨ i.token.exp ≤ s.now := by
  obtain ⟨row, hrow, hmem⟩ := hholds
  have hcov := h.covering_of_ready hphase hp hr hrow hmem
  split at hcov
  · exact Or.inr (hcov i hi htyp rfl)
  · obtain ⟨rd, hrd, hq, hu⟩ := hcov
    have htakes : txn.request.TakesAway := by
      cases hreq : txn.request with
      | forceLogout users => simp [hreq, Request.role?] at hr
      | _ => trivial
    refine Or.inl ⟨rd, hrd, hu, ?_⟩
    exact h.fresh (by simp [Txn.Running, hphase]) htakes rd (hlanded rd hrd) hq i hi htyp hu.symm

/-- What the commit of `q` makes committed. -/
theorem committed_commit {q q' : RequestId} {txn txn' : Txn} {db : Directory}
    {committed : List RequestId} :
    Committed
      { (s.setTxn q { txn with phase := .committed }).unlock q with db, committed } q' txn'
      ↔ q' = q ∧ { txn with phase := .committed } = txn' ∨ q' ≠ q ∧ Committed s q' txn' := by
  show Function.update s.txns q _ q' = some txn' ∧ _ ↔ _
  rw [update_some_eq_some]
  constructor
  · rintro ⟨⟨rfl, rfl⟩ | ⟨hq, htxn⟩, hphase⟩
    · exact Or.inl ⟨rfl, rfl⟩
    · exact Or.inr ⟨hq, htxn, hphase⟩
  · rintro (⟨rfl, rfl⟩ | ⟨hq, htxn, hphase⟩)
    · exact ⟨Or.inl ⟨rfl, rfl⟩, rfl⟩
    · exact ⟨Or.inr ⟨hq, htxn⟩, hphase⟩

/-- The request that commits keeps what is known of it. -/
theorem TxnOk.commit {q : RequestId} {txn : Txn} (h : TxnOk s q txn)
    (hphase : txn.phase = .marking []) (hissued : s'.issued = s.issued)
    (hclock : s'.clock = s.clock) (hlanded : s'.landed = s.landed)
    (hdb : s'.db = State.written s.db txn) :
    TxnOk s' q { txn with phase := .committed } where
  actions := h.actions
  locked hrun := absurd rfl hrun.1
  unlocked := h.unlocked
  inactive _ u hu := by
    -- The commit writes the deactivations that the request has made.
    obtain ⟨old, hold, hst⟩ := h.inactive (by simp [hphase]) u hu
    obtain ⟨row, hrow, -⟩ := exists_written_user txn hold
    refine ⟨row, hdb ▸ hrow, Or.inl ?_⟩
    obtain ⟨old', hold', -, -, hkeep, hwrite⟩ := written_user_eq_some hrow
    obtain rfl : old = old' := Option.some.inj (hold.symm.trans hold')
    exact hst.elim hkeep fun hst => hwrite hst.2
  marked _ u hu := by
    obtain ⟨rd, hrd, hm⟩ := h.marked_of_ready hphase hu
    exact Or.inr ⟨rd, hlanded ▸ hrd, hm⟩
  covering _ := by
    refine Or.inr fun p hp r hr u row hrow hmem => ?_
    rw [hdb] at hrow
    -- The commit leaves the roles of a user and the tombstone, so the cover stays.
    obtain ⟨old, hold, hids, hdel, -⟩ := written_user_eq_some hrow
    have hcov := h.covering_of_ready hphase hp hr hold (hids ▸ hmem)
    rw [hdel]
    split
    · rename_i hdel
      rw [if_pos hdel] at hcov
      simpa only [hissued, State.now, hclock] using hcov
    · rename_i hdel
      rw [if_neg hdel] at hcov
      obtain ⟨rd, hrd, hm⟩ := hcov
      exact Or.inr ⟨rd, hlanded ▸ hrd, hm⟩
  fresh hrun := absurd rfl hrun.1

/-- A request keeps what is known of it when another one commits. -/
theorem TxnOk.commit_other {q q' : RequestId} {txn txn' : Txn} (h : TxnOk s q' txn')
    (hq : q' ≠ q) (hok : TxnOk s q txn) (hphase : txn.phase = .marking [])
    (hissued : s'.issued = s.issued) (hclock : s'.clock = s.clock)
    (hlanded : s'.landed = s.landed) (hread : s'.read = s.read)
    (hlock : s'.roleLock = (s.unlock q).roleLock) (hdb : s'.db = State.written s.db txn) :
    TxnOk s' q' txn' where
  actions := h.actions
  locked hrun r hr := by
    obtain ⟨hheld, before, role, hb, hrole, hrow⟩ := h.locked hrun r hr
    refine ⟨hlock ▸ unlock_roleLock hq hheld, before, role, hb, hrole, ?_⟩
    -- The role that commits is another one: its lock is held by `q`.
    rw [hdb]
    unfold State.written
    split
    · rename_i r' row' hr' hrow'
      have hne : r ≠ r' := by
        rintro rfl
        have := (hok.locked (by simp [Txn.Running, hphase]) r hr').1
        rw [hheld] at this
        exact hq (Option.some.inj this)
      simpa [Directory.setRole, Directory.deactivate, hne] using hrow
    · exact hrow
  unlocked := h.unlocked
  inactive hne u hu := by
    obtain ⟨old, hold, hst⟩ := h.inactive hne u hu
    obtain ⟨row, hrow, -⟩ := exists_written_user txn hold
    obtain ⟨old', hold', -, -, hkeep, -⟩ := written_user_eq_some hrow
    obtain rfl : old = old' := Option.some.inj (hold.symm.trans hold')
    exact ⟨row, hdb ▸ hrow, hst.imp hkeep id⟩
  marked hne u hu := by
    refine (h.marked hne u hu).imp id ?_
    rintro ⟨rd, hrd, hm⟩
    exact ⟨rd, hlanded ▸ hrd, hm⟩
  covering hne := by
    refine (h.covering hne).imp id fun hcov p hp r hr u row hrow hmem => ?_
    rw [hdb] at hrow
    obtain ⟨old, hold, hids, hdel, -⟩ := written_user_eq_some hrow
    have hcov := hcov p hp r hr u old hold (hids ▸ hmem)
    rw [hdel]
    split
    · rename_i hdel
      rw [if_pos hdel] at hcov
      simpa only [hissued, State.now, hclock] using hcov
    · rename_i hdel
      rw [if_neg hdel] at hcov
      refine hcov.imp id ?_
      rintro ⟨rd, hrd, hm⟩
      exact ⟨rd, hlanded ▸ hrd, hm⟩
  fresh := by
    rw [hread, hissued]
    exact h.fresh

theorem LossInv.commit {q : RequestId} (h : LossInv settings s) (hinv : Inv settings s')
    (hstep : s.commit q = some s') : LossInv settings s' := by
  obtain ⟨txn, htxn, hphase, htodo, rfl⟩ := State.commit_cases hstep
  have hok := h.txns q txn htxn
  have hrun : txn.Running := by simp [Txn.Running, hphase]
  have hopen : q ∉ s.committed := by
    rw [h.committed]
    rintro ⟨txn', htxn', hcom⟩
    exact not_committed htxn hphase (fun h => (nomatch h)) txn' htxn' hcom
  have heff : ∀ {u : UserId} {p : Permission}, p ∈ s.db.effective u →
      p ∈ (State.written s.db txn).effective u ∨
        ∃ r, txn.request.role? = some r ∧ s.db.Holds u r ∧ p ∈ txn.lost := fun hp =>
    effective_written (fun r hr => (hok.locked hrun r hr).2) hp
  refine ⟨hinv, fun q' => ?_, fun rd hrd => ?_, fun q' txn' htxn' =>
    ?_, fun i hi htyp => ⟨?_, ?_⟩, fun c call hcall => ?_⟩
  · rw [List.mem_cons, h.committed]
    by_cases hq : q' = q
    · subst hq
      exact ⟨fun _ => ⟨_, committed_commit.mpr (Or.inl ⟨rfl, rfl⟩)⟩, fun _ => Or.inl rfl⟩
    · constructor
      · rintro (hq' | ⟨txn', hc⟩)
        · exact absurd hq' hq
        · exact ⟨txn', committed_commit.mpr (Or.inr ⟨hq, hc⟩)⟩
      · rintro ⟨txn', hc⟩
        rcases committed_commit.mp hc with ⟨hq', -⟩ | ⟨-, hc⟩
        · exact absurd hq' hq
        · exact Or.inr ⟨txn', hc⟩
  · show Function.update s.txns q _ rd.request ≠ none
    by_cases hq : rd.request = q
    · simp [hq]
    · rw [Function.update_of_ne hq]
      exact h.readers rd hrd
  · rcases update_some_eq_some.mp htxn' with ⟨rfl, rfl⟩ | ⟨hq, htxn'⟩
    · exact hok.commit hphase rfl rfl rfl rfl
    · exact (h.txns q' txn' htxn').commit_other hq hok hphase rfl rfl rfl rfl rfl rfl
  · -- Each token of a user that the request deactivated is covered by its marker.
    intro q' txn' hc hu
    rcases committed_commit.mp hc with ⟨rfl, rfl⟩ | ⟨-, hc⟩
    · obtain ⟨rd, hrd, hq, hsub⟩ := hok.marked_of_ready hphase hu
      have htakes : txn.request.TakesAway := by
        cases hreq : txn.request with
        | forceLogout users =>
          have := hok.actions _ (Or.inr hu)
          simp [hreq, Request.actions] at this
        | _ => trivial
      exact ⟨rd, hrd, hsub, hok.fresh hrun htakes rd (h.inv.landed_read rd hrd) hq i hi htyp
        hsub.symm⟩
    · exact (h.tokens i hi htyp).inactive q' txn' hc hu
  · intro q' txn' r hc hr hlost hholds
    have hheld : s.db.Holds i.token.sub r := by
      obtain ⟨row, hrow, hmem⟩ := hholds
      obtain ⟨old, hold, hids, -⟩ := written_user_eq_some hrow
      exact ⟨old, hold, hids ▸ hmem⟩
    rcases committed_commit.mp hc with ⟨rfl, rfl⟩ | ⟨-, hc⟩
    · obtain ⟨p, hp⟩ := hlost
      exact (hok.token_of_lost hphase h.inv.landed_read hp hr hi htyp hheld).imp id Or.inl
    · rcases (h.tokens i hi htyp).lost q' txn' r hc hr hlost hheld with hcov | hexp | hsub
      · exact Or.inl hcov
      · exact Or.inr (Or.inl hexp)
      · -- What the token carries is still effective, or this commit takes it away.
        by_cases hkept : i.token.permissions ⊆ (State.written s.db txn).effective i.token.sub
        · exact Or.inr (Or.inr hkept)
        · obtain ⟨p, hp, hgone⟩ := Finset.not_subset.mp hkept
          obtain ⟨r', hr', hholds', hlost'⟩ := (heff (hsub hp)).resolve_left hgone
          exact (hok.token_of_lost hphase h.inv.landed_read hlost' hr' hi htyp hholds').imp id
            Or.inl
  · have hfresh := h.calls c call hcall
    have hseen : ∀ {seen : List RequestId}, seen ⊆ s.committed → ∀ q' ∈ seen, ∀ txn',
        Function.update s.txns q (some { txn with phase := .committed }) q' = some txn' →
          s.txns q' = some txn' := by
      intro seen hsub q' hq' txn' htxn'
      rcases update_some_eq_some.mp htxn' with ⟨rfl, rfl⟩ | ⟨-, htxn'⟩
      · exact absurd (hsub hq') hopen
      · exact htxn'
    cases call with
    | userLoaded grant row seenUser =>
      obtain ⟨⟨now, hnow, hlive, hids⟩, hsub, hstatus⟩ := hfresh
      obtain ⟨now', hnow', hids', hdel'⟩ := exists_written_user txn hnow
      exact ⟨⟨now', hnow', hdel'.trans hlive, hids'.trans hids⟩,
        fun q' hq' => List.mem_cons_of_mem _ (hsub hq'),
        fun q' hq' txn' htxn' => hstatus q' hq' txn' (hseen hsub q' hq' txn' htxn')⟩
    | ready grant permissions seenUser seenRoles =>
      obtain ⟨⟨now, hnow, hlive⟩, hsubU, hsubR, hnot, hperm⟩ := hfresh
      obtain ⟨now', hnow', -, hdel'⟩ := exists_written_user txn hnow
      refine ⟨⟨now', hnow', hdel'.trans hlive⟩, fun q' hq' => List.mem_cons_of_mem _ (hsubU hq'),
        fun q' hq' => List.mem_cons_of_mem _ (hsubR hq'),
        fun q' hq' txn' htxn' => hnot q' hq' txn' (hseen hsubU q' hq' txn' htxn'), ?_⟩
      rcases hperm with hperm | ⟨q', txn', r, hc, hunseen, hr, hmark⟩
      · by_cases hkept : permissions ⊆ (State.written s.db txn).effective grant.user
        · exact Or.inl hkept
        · obtain ⟨p, hp, hgone⟩ := Finset.not_subset.mp hkept
          obtain ⟨r, hr, ⟨row, hrow, hmem⟩, hlost⟩ := (heff (hperm hp)).resolve_left hgone
          obtain rfl : now = row := Option.some.inj (hnow.symm.trans hrow)
          have hmark := hok.covering_of_ready hphase hlost hr hrow hmem
          rw [if_neg (by simp [hlive])] at hmark
          exact Or.inr ⟨q, _, r, committed_commit.mpr (Or.inl ⟨rfl, rfl⟩),
            fun hq => hopen (hsubR hq), hr, hmark⟩
      · refine Or.inr ⟨q', txn', r, committed_commit.mpr (Or.inr ⟨?_, hc⟩), hunseen, hr, hmark⟩
        rintro rfl
        exact hopen ((h.committed q').mpr ⟨txn', hc⟩)
    | _ => trivial

/-! ### The steps of a call -/

/-- A token that a call mints promptly is covered by the markers of each request whose work the
call's rows do not show. -/
theorem covered_of_mint {c : CallId} {grant : Grant} {permissions : Finset Permission}
    {seenUser seenRoles : List RequestId} (h : LossInv settings s) (hprompt : MintsPromptly s c)
    (hcall : s.calls c = some (.ready grant permissions seenUser seenRoles)) {q : RequestId}
    {txn : Txn} (htxn : s.txns q = some txn) (hne : txn.phase ≠ .aborted)
    (hunseen : txn.request.UnseenBy q seenUser seenRoles) (hmark : Marked s q grant.user) :
    ∃ rd ∈ s.landed, rd.user = grant.user ∧ s.now ≤ rd.second := by
  obtain ⟨rd, hrd, rfl, hu⟩ := hmark
  exact ⟨rd, hrd, hu, hprompt grant permissions seenUser seenRoles hcall rd
    (h.inv.landed_read rd hrd) hu txn htxn hne hunseen⟩

/-- A role request is unseen by a call that did not see it when it selected the roles. -/
theorem Request.unseenBy_of_role {request : Request} {q : RequestId}
    {seenUser seenRoles : List RequestId} {r : RoleId} (hr : request.role? = some r)
    (hq : q ∉ seenRoles) : request.UnseenBy q seenUser seenRoles := by
  cases request with
  | forceLogout users => cases hr
  | changeStatus users => cases hr
  | patchRole role edits isActive => exact hq
  | deleteRole role => exact hq

/-- A request that deactivates a user is unseen by a call that did not see it when it selected
the user row. -/
theorem TxnOk.unseenBy_of_deactivate {q : RequestId} {txn : Txn} (h : TxnOk s q txn)
    {seenUser seenRoles : List RequestId} {u : UserId} (hu : .deactivate u ∈ txn.performed)
    (hq : q ∉ seenUser) : txn.request.UnseenBy q seenUser seenRoles := by
  cases hreq : txn.request with
  | changeStatus users => exact hq
  | forceLogout users =>
    have := h.actions _ (Or.inr hu)
    simp [hreq, Request.actions] at this
  | patchRole role edits isActive =>
    exact absurd hu (h.not_deactivate_of_role (r := role) (by simp [hreq, Request.role?]) u)
  | deleteRole role =>
    exact absurd hu (h.not_deactivate_of_role (r := role) (by simp [hreq, Request.role?]) u)

/-- What a call mints promptly is as it should be. -/
theorem LossInv.tokenOk_mint {c : CallId} {grant : Grant} {permissions : Finset Permission}
    {seenUser seenRoles : List RequestId} (h : LossInv settings s) (hprompt : MintsPromptly s c)
    (hcall : s.calls c = some (.ready grant permissions seenUser seenRoles)) :
    TokenOk s (encodeSessionJwt settings s.now grant.user grant.provider permissions) := by
  obtain ⟨-, hsubU, -, hnot, hperm⟩ := h.calls c _ hcall
  refine ⟨fun q txn hc hu => ?_, fun q txn r _ _ _ _ => ?_⟩
  · have hok := h.txns q txn hc.1
    have hunseen : q ∉ seenUser := fun hq => hnot q hq txn hc.1 hu
    have hmark : Marked s q grant.user :=
      (hok.marked (by simp [hc.2]) _ hu).resolve_left (by simp [hc.2, Phase.Pending])
    exact covered_of_mint h hprompt hcall hc.1 (by simp [hc.2])
      (hok.unseenBy_of_deactivate hu hunseen) hmark
  · rcases hperm with hperm | ⟨q', txn', r', hc', hunseen, hr', hmark⟩
    · exact Or.inr (Or.inr hperm)
    · exact Or.inl (covered_of_mint h hprompt hcall hc'.1 (by simp [hc'.2])
        (Request.unseenBy_of_role hr' hunseen) hmark)

/-- An issued token keeps what is known of a request, when it is minted at or before the second
of each marker that the running request has read, and its user is live. -/
theorem TxnOk.issue {q : RequestId} {txn : Txn} {i : Issued} (h : TxnOk s q txn)
    (hlock : s'.roleLock = s.roleLock) (hdb : s'.db = s.db) (hissued : s'.issued = i :: s.issued)
    (hread : s'.read = s.read) (hlanded : s'.landed = s.landed) (hclock : s'.clock = s.clock)
    (hlive : i.token.typ = .access → ∃ row, s.db.user i.token.sub = some row ∧
      row.deleted = false)
    (hprompt : i.token.typ = .access → txn.Running → txn.request.TakesAway → ∀ rd ∈ s.read,
      rd.request = q → i.token.sub = rd.user → i.token.iat ≤ rd.second) : TxnOk s' q txn where
  actions := h.actions
  locked := by simpa only [hlock, hdb] using h.locked
  unlocked := h.unlocked
  inactive := by simpa only [hdb] using h.inactive
  marked := by simpa only [Marked, hlanded] using h.marked
  covering hne := by
    refine (h.covering hne).imp id fun hcov p hp r hr u row hrow hmem => ?_
    rw [hdb] at hrow
    have hcov := hcov p hp r hr u row hrow hmem
    split
    · rename_i hdel
      rw [if_pos hdel] at hcov
      rw [hissued]
      refine List.forall_mem_cons.mpr
        ⟨fun htyp hu => ?_, by simpa only [State.now, hclock] using hcov⟩
      obtain ⟨row', hrow', hlive⟩ := hlive htyp
      rw [hu, hrow, Option.some.injEq] at hrow'
      subst hrow'
      rw [hdel] at hlive
      cases hlive
    · rename_i hdel
      rw [if_neg hdel] at hcov
      simpa only [Marked, hlanded] using hcov
  fresh hrun htakes rd hrd hq := by
    rw [hread] at hrd
    rw [hissued]
    exact List.forall_mem_cons.mpr ⟨fun htyp hu => hprompt htyp hrun htakes rd hrd hq hu,
      h.fresh hrun htakes rd hrd hq⟩

theorem LossInv.mintAccess {c : CallId} (h : LossInv settings s) (hinv : Inv settings s')
    (hprompt : MintsPromptly s c) (hstep : s.mintAccess settings c = some s') :
    LossInv settings s' := by
  obtain ⟨grant, permissions, seenUser, seenRoles, hcall, rfl⟩ := State.mintAccess_cases hstep
  obtain ⟨hlive, hsubU, hsubR, -, -⟩ := h.calls c _ hcall
  refine ⟨hinv, h.committed, h.readers, fun q txn htxn => ?_, ?_, ?_⟩
  · refine (h.txns q txn htxn).issue rfl rfl rfl rfl rfl rfl (fun _ => hlive)
      fun _ hrun htakes rd hrd hq hu => ?_
    -- A running request had not committed when the call selected its rows.
    have hopen : q ∉ s.committed := by
      rw [h.committed]
      rintro ⟨txn', htxn', hcom⟩
      obtain rfl : txn = txn' := Option.some.inj (htxn.symm.trans htxn')
      exact hrun.1 hcom
    subst hq
    refine hprompt grant permissions seenUser seenRoles hcall rd hrd hu.symm txn htxn hrun.2 ?_
    cases hreq : txn.request with
    | forceLogout users => simp [hreq, Request.TakesAway] at htakes
    | changeStatus users => exact fun hmem => hopen (hsubU hmem)
    | patchRole role edits isActive => exact fun hmem => hopen (hsubR hmem)
    | deleteRole role => exact fun hmem => hopen (hsubR hmem)
  · refine List.forall_mem_cons.mpr ⟨fun _ => ?_, fun i hi htyp => ?_⟩
    · have := h.tokenOk_mint hprompt hcall
      exact ⟨this.inactive, this.lost⟩
    · have := h.tokens i hi htyp
      exact ⟨this.inactive, this.lost⟩
  · exact forall_update (fun c call hc => by cases call <;> exact h.calls c _ hc) trivial

theorem LossInv.mintRefresh {c : CallId} (h : LossInv settings s) (hinv : Inv settings s')
    (hstep : s.mintRefresh settings c = some s') : LossInv settings s' := by
  obtain ⟨grant, permissions, hcall, rfl⟩ := State.mintRefresh_cases hstep
  refine ⟨hinv, h.committed, h.readers, fun q txn htxn => ?_, ?_, fun c' call hc => ?_⟩
  · exact (h.txns q txn htxn).issue rfl rfl rfl rfl rfl rfl (fun htyp => (nomatch htyp))
      fun htyp => (nomatch htyp)
  · refine List.forall_mem_cons.mpr ⟨fun htyp => (nomatch htyp), fun i hi htyp => ?_⟩
    have := h.tokens i hi htyp
    exact ⟨this.inactive, this.lost⟩
  · have := h.calls c' call (update_none_eq_some.mp hc).2
    cases call <;> exact this

theorem LossInv.tick (h : LossInv settings s) (milliseconds : Nat) :
    LossInv settings (s.tick milliseconds) := by
  have hnow := now_le_tick s milliseconds
  refine ⟨h.inv.tick milliseconds, h.committed, h.readers, fun q txn htxn => ?_,
    fun i hi htyp => ?_, fun c call hc => ?_⟩
  · have hok := h.txns q txn htxn
    refine ⟨hok.actions, hok.locked, hok.unlocked, hok.inactive, hok.marked, fun hne =>
      ?_, hok.fresh⟩
    refine (hok.covering hne).imp id fun hcov p hp r hr u row hrow hmem => ?_
    have hcov := hcov p hp r hr u row hrow hmem
    split
    · rename_i hdel
      rw [if_pos hdel] at hcov
      exact fun i hi htyp hu => (hcov i hi htyp hu).trans hnow
    · rename_i hdel
      rwa [if_neg hdel] at hcov
  · have htok := h.tokens i hi htyp
    refine ⟨htok.inactive, fun q txn r hc hr hlost hholds => ?_⟩
    exact (htok.lost q txn r hc hr hlost hholds).imp id (Or.imp (·.trans hnow) id)
  · have := h.calls c call hc
    cases call <;> exact this

theorem LossInv.loadUser {c : CallId} (h : LossInv settings s) (hstep : s.loadUser c = some s') :
    LossInv settings s' := by
  obtain ⟨grant, -, ⟨row, hrow, rfl⟩ | ⟨_, rfl⟩⟩ := State.loadUser_cases hstep
  · obtain ⟨hrow, hlive⟩ := Option.filter_eq_some_iff.mp hrow
    refine h.setCall ⟨⟨row, hrow, by simpa using hlive, rfl⟩, fun _ => id,
      fun q hq txn htxn hu => ?_⟩
    -- A request that had committed shows in the row.
    obtain ⟨txn', htxn', hcom⟩ := (h.committed q).mp hq
    obtain rfl : txn = txn' := Option.some.inj (htxn.symm.trans htxn')
    obtain ⟨row', hrow', hst⟩ := (h.txns q txn htxn).inactive (by simp [hcom]) _ hu
    obtain rfl : row = row' := Option.some.inj (hrow.symm.trans hrow')
    exact hst.resolve_right fun hst => hst.1.1 hcom
  · exact h.setCall trivial

theorem LossInv.loadRoles {c : CallId} (h : LossInv settings s)
    (hstep : s.loadRoles settings c = some s') : LossInv settings s' := by
  obtain ⟨grant, row, seenUser, hcall, ⟨hactive, rfl⟩ | ⟨_, rfl⟩⟩ := State.loadRoles_cases hstep
  · obtain ⟨⟨now, hnow, hlive, hids⟩, hsub, hstatus⟩ := h.calls c _ hcall
    refine h.setCall ⟨⟨now, hnow, hlive⟩, hsub, fun _ => id, fun q hq txn htxn hu => ?_,
      Or.inl ?_⟩
    · rw [hstatus q hq txn htxn hu] at hactive
      cases hactive
    · have : s.db.liveRoles row = s.db.liveRoles now := by
        simp only [Directory.liveRoles, hids]
      simp only [Directory.effective, hnow, this, subset_rfl]
  · exact h.setCall trivial

/-- Each prompt step keeps the invariant. -/
theorem LossInv.step {l : Label} (h : LossInv settings s) (hprompt : Prompt s l)
    (hstep : Sessions.step settings s l = some s') : LossInv settings s' := by
  have hinv : Inv settings s' := by
    refine h.inv.step (fun q hq => ?_) hstep
    subst hq
    exact hprompt
  cases l with
  | tick milliseconds =>
    cases hstep
    exact h.tick milliseconds
  | login c user password =>
    rw [State.login_cases hstep]
    exact h.setCall trivial
  | verify c token =>
    rcases State.verify_cases hstep with ⟨_, _, _, _, _, rfl⟩ | ⟨_, rfl⟩ <;>
      exact h.setCall trivial
  | checkRevoked c =>
    obtain ⟨_, _, ⟨_, rfl⟩ | ⟨_, rfl⟩⟩ := State.checkRevoked_cases hstep <;>
      exact h.setCall trivial
  | checkLifetime c =>
    obtain ⟨_, _, _, rfl | ⟨_, rfl⟩⟩ := State.checkLifetime_cases hstep <;>
      exact h.setCall trivial
  | loadUser c => exact h.loadUser hstep
  | loadRoles c => exact h.loadRoles hstep
  | mintAccess c => exact h.mintAccess hinv hprompt hstep
  | mintRefresh c => exact h.mintRefresh hinv hstep
  | begin q request => exact h.begin hinv hstep
  | act q groupHolders users members => exact h.act hinv hstep
  | skip q => exact h.skip hinv hstep
  | selectHolders q => exact h.selectHolders hinv hprompt hstep
  | readClock q => exact h.readClock hinv hstep
  | setMarker q => exact h.setMarker hinv hstep
  | commit q => exact h.commit hinv hstep
  | abort q => exact h.abort hinv hstep

/-- A covered token is not accepted. -/
theorem LossInv.not_accepts_of_covered (h : LossInv settings s)
    (httl : settings.sessionTtlSeconds ≤ settings.refreshAbsoluteMaxLifetimeSeconds)
    {i : Issued} (hi : i ∈ s.issued) (hcov : Covered s i.token) :
    accepts s.redis s.clock i.token ≠ true := by
  obtain ⟨rd, hrd, hu, hiat⟩ := hcov
  intro hacc
  exact h.inv.not_passes httl hrd hi hu.symm hiat (passesChecks_iff.mp hacc).2

/-- A loss of access takes effect at the commit, in every run whose steps are prompt. Once a
request has committed, an accepted access token is of no user that it deactivated. A permission
that its role stopped granting is in an accepted access token of a holder only while the holder's
live, active roles grant it. -/
theorem lost_access_at_commit
    (httl : settings.sessionTtlSeconds ≤ settings.refreshAbsoluteMaxLifetimeSeconds)
    {s₀ : State} {ls : List Label} (hstart : Start settings s₀)
    (hprompt : Along (Sessions.step settings) Prompt s₀ ls)
    (hrun : run (Sessions.step settings) s₀ ls = some s) :
    ∀ q txn, Committed s q txn → ∀ i ∈ s.issued, accepts s.redis s.clock i.token = true →
      .deactivate i.token.sub ∉ txn.performed ∧
      ∀ r, txn.request.role? = some r → s.db.Holds i.token.sub r →
        ∀ p ∈ i.token.permissions, p ∈ txn.lost → p ∈ s.db.effective i.token.sub := by
  have h : LossInv settings s :=
    run_invariant_along (fun _ _ _ h hprompt => h.step hprompt) hstart.lossInv hprompt hrun
  intro q txn hc i hi hacc
  obtain ⟨htyp, hunexpired, -⟩ := passesChecks_iff.mp hacc
  have htok := h.tokens i hi htyp
  refine ⟨fun hu => ?_, fun r hr hholds p hp hlost => ?_⟩
  · exact h.not_accepts_of_covered httl hi (htok.inactive q txn hc hu) hacc
  · rcases htok.lost q txn r hc hr ⟨p, hlost⟩ hholds with hcov | hexp | hsub
    · exact absurd hacc (h.not_accepts_of_covered httl hi hcov)
    · exact absurd hunexpired (not_lt.mpr hexp)
    · exact hsub hp

end

/-- A login of user 1. -/
def loginAda : List Label :=
  [.login 0 1 "tulip", .loadUser 0, .loadRoles 0, .mintAccess 0, .mintRefresh 0]

/-- A deactivation of user 1, up to its commit. -/
def deactivateAda : List Label :=
  [.begin 0 (.changeStatus [1]), .act 0 0 0 0, .readClock 0, .setMarker 0]

/-- After a login and then a deactivation, the login's access token is not accepted. -/
theorem lost_access_at_commit_of_login :
    ∃ s, run (step defaultSettings) adaSignedIn (loginAda ++ deactivateAda ++ [.commit 0])
        = some s ∧ s.committed = [0] ∧ s.issued.length = 3 ∧
      ∀ q txn, Committed s q txn → ∀ i ∈ s.issued, accepts s.redis s.clock i.token = true →
        .deactivate i.token.sub ∉ txn.performed ∧
        ∀ r, txn.request.role? = some r → s.db.Holds i.token.sub r →
          ∀ p ∈ i.token.permissions, p ∈ txn.lost → p ∈ s.db.effective i.token.sub := by
  have hprompt : Along (step defaultSettings) Prompt adaSignedIn
      (loginAda ++ deactivateAda ++ [.commit 0]) := by
    refine ⟨trivial, fun s₁ h₁ => ⟨trivial, fun s₂ h₂ => ⟨trivial, fun s₃ h₃ => ?_⟩⟩⟩
    cases h₁; cases h₂; cases h₃
    refine ⟨fun _ _ _ _ _ _ hr => (nomatch hr), fun s₄ h₄ => ⟨trivial, fun s₅ h₅ => ?_⟩⟩
    refine ⟨trivial, fun s₆ h₆ => ⟨trivial, fun s₇ h₇ => ⟨trivial, fun s₈ h₈ => ?_⟩⟩⟩
    cases h₄; cases h₅; cases h₆; cases h₇; cases h₈
    exact ⟨fun _ _ _ _ _ _ _ hm => (nomatch hm), fun _ _ => ⟨trivial, fun _ _ => trivial⟩⟩
  obtain ⟨s, hrun, hs⟩ := exists_run_of_any (by decide :
    (run (step defaultSettings) adaSignedIn (loginAda ++ deactivateAda ++ [.commit 0])).any
      (fun s => decide (s.committed = [0]) && decide (s.issued.length = 3)) = true)
  simp only [Bool.and_eq_true, decide_eq_true_eq] at hs
  exact ⟨s, hrun, hs.1, hs.2, lost_access_at_commit (by decide) adaSignedIn_start hprompt hrun⟩

/-- A loss of access does not take effect at the commit in every run. The marker of a
deactivation has landed, one second passes, a login selects the row that is still ACTIVE and
mints, and the deactivation commits. The access token is accepted. -/
theorem access_survives :
    ¬ ∀ (settings : Settings) (s₀ s : State) (ls : List Label), Start settings s₀ →
      run (step settings) s₀ ls = some s →
      ∀ q txn, Committed s q txn → ∀ i ∈ s.issued, accepts s.redis s.clock i.token = true →
        .deactivate i.token.sub ∉ txn.performed ∧
        ∀ r, txn.request.role? = some r → s.db.Holds i.token.sub r →
          ∀ p ∈ i.token.permissions, p ∈ txn.lost → p ∈ s.db.effective i.token.sub := by
  intro hall
  obtain ⟨s, hrun, hs⟩ := exists_run_of_any (by decide :
    (run (step defaultSettings) adaSignedIn
      (deactivateAda ++ [.tick 1000] ++ loginAda ++ [.commit 0])).any (fun s =>
        (s.txns 0).any (fun txn => decide (txn.phase = .committed) &&
          decide (.deactivate 1 ∈ txn.performed)) &&
        s.issued.any fun i => decide (i.token.sub = 1) && accepts s.redis s.clock i.token) = true)
  simp only [Bool.and_eq_true, List.any_eq_true, decide_eq_true_eq] at hs
  obtain ⟨htxn, i, hi, hsub, hacc⟩ := hs
  cases hq : s.txns 0 with
  | none => simp [hq] at htxn
  | some txn =>
    simp only [hq, Option.any_some, Bool.and_eq_true, decide_eq_true_eq] at htxn
    have := hall defaultSettings adaSignedIn s _ adaSignedIn_start hrun 0 txn ⟨hq, htxn.1⟩ i hi
      hacc
    exact this.1 (hsub ▸ htxn.2)

end RedTeaming.Auth.Sessions
