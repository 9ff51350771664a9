import RedTeaming.Auth.ResetSystem

/-!
# `RedTeaming.Auth.Resets`: one live reset link, but for overlapping sends

A transaction that issues a link revokes the PENDING tokens of the user that its `FOR UPDATE`
finds, and inserts its own. What it cannot find is a token that another one commits after the
statement started. A self-service request holds the row of the user from before that statement to
its commit, and no insert of a token for the user gets past that lock. So it misses none
(`TxnOk.minted`, `Inv`). An admin's send does not lock the user. Two sends, or a send and a
self-service request, may each miss the token of the other one (`Crosses`).

`one_live_link` says that a user has one live link when no send commits beside a token that it
missed, and that no token sets a password twice, whatever the order. `two_live_links` is the run
of two sends that leaves two.
-/

set_option autoImplicit false

namespace RedTeaming.Auth.Resets

open RedTeaming.Library

/-- At most one committed token of a user is effective-pending. -/
def OneLiveLink (s : State) : Prop :=
  ∀ (i j : RowId) (a b : LinkToken), s.rows[i]? = some a → s.rows[j]? = some b → a.user = b.user →
    a.effective s.now = .pending → b.effective s.now = .pending → i = j

/-- No transaction is open. -/
def Quiescent (s : State) : Prop := ∀ t ∈ s.begun, s.txns t = none

/-- The step commits an admin's send beside a live token of the same user that was committed after
the send had started to revoke. -/
def Crosses (s : State) : Label → Prop
  | .commit t => ∃ txn ∈ s.txns t, txn.request.selfService = false ∧
      txn.request.dryRun = false ∧ ∃ m ∈ txn.minted, m.token.effective s.now = .pending ∧
        ∃ row ∈ s.rows.drop m.seen, row.user = m.token.user ∧ row.effective s.now = .pending
  | _ => False

instance (s : State) (l : Label) : Decidable (Crosses s l) := by
  cases l <;> unfold Crosses <;> infer_instance

/-- No transaction is open, and no token was issued yet. -/
structure Start (s : State) : Prop where
  rows : s.rows = []
  passwordsSet : s.passwordsSet = []
  txns : ∀ t, s.txns t = none

/-! ### What holds of an open transaction -/

/-- The rows that a transaction has marked REVOKED. -/
def Txn.revoked (txn : Txn) : List RowId := txn.revokes.map Prod.fst

/-- The user whose turn it is. -/
def Phase.user? : Phase → Option UserId
  | .located u | .locked u | .loaded u | .locking u _ _ _ | .revoked u _ => some u
  | _ => none

/-- The users of a transaction: those done, the one whose turn it is, and those to do. -/
def Txn.users (txn : Txn) : List UserId :=
  (txn.minted.map fun m => m.token.user) ++ txn.phase.user?.toList ++ txn.todo

section
variable (s : State) (t : TxnId)

/-- The transaction holds the token, which is PENDING. -/
def Holds (i : RowId) : Prop :=
  s.tokenLock i = some t ∧ ∃ row : LinkToken, s.rows[i]? = some row ∧ row.status = .pending

/-- Each PENDING token of the user among the first `seen` ones is one of `ids`. -/
def Covered (u : UserId) (seen : Nat) (ids : List RowId) : Prop :=
  ∀ i (row : LinkToken), i < seen → s.rows[i]? = some row → isPending u row = true → i ∈ ids

/-- `seen` rows were committed at an earlier time. A self-service request holds the user, and no
token of the user was committed since. -/
def Saw (request : Request) (u : UserId) (seen : Nat) : Prop :=
  seen ≤ s.rows.length ∧ (request.selfService = true → s.userLock u = some t ∧
    ∀ i (row : LinkToken), seen ≤ i → s.rows[i]? = some row → row.user ≠ u)

/-- What a transaction knows where it is. -/
def PhaseOk (txn : Txn) : Prop :=
  match txn.phase with
  | .begun => txn.todo = [] ∧ txn.minted = []
  | .locked u => s.userLock u = some t
  | .loaded u => txn.request.selfService = true → s.userLock u = some t
  | .locking u seen wanted got => Saw s t txn.request u seen ∧ (∀ i ∈ got, Holds s t i) ∧
      Covered s u seen (wanted ++ got)
  | .revoked u seen => Saw s t txn.request u seen ∧ Covered s u seen txn.revoked
  | .held i => s.tokenLock i = some t
  | .checked i _ => Holds s t i
  | .located _ | .found _ | .ready => True

/-- What holds of an open transaction. -/
structure TxnOk (txn : Txn) : Prop where
  phase : PhaseOk s t txn
  /-- It has each user once. -/
  users : txn.users.Nodup
  /-- It holds what it revokes and what it uses. -/
  revokes : ∀ i ∈ txn.revoked, Holds s t i
  used : ∀ used ∈ txn.used, Holds s t used.row
  /-- What was PENDING when it revoked is revoked. -/
  minted : ∀ m ∈ txn.minted, Saw s t txn.request m.token.user m.seen ∧
    Covered s m.token.user m.seen txn.revoked
  /-- A self-service request has one user. -/
  todo : txn.request.selfService = true → txn.todo = []

end

/-- Only the holder of a user has inserted a token of the user. -/
def Exclusive (s : State) : Prop :=
  ∀ u t t' txn, s.userLock u = some t → t' ≠ t → s.txns t' = some txn →
    ∀ m ∈ txn.minted, m.token.user ≠ u

/-- What holds in every reachable state. -/
structure Inv (s : State) : Prop where
  txn : ∀ t txn, s.txns t = some txn → TxnOk s t txn
  begun : ∀ t txn, s.txns t = some txn → t ∈ s.begun
  exclusive : Exclusive s
  /-- Each token that set a password is USED, and set one password. -/
  passwordsSet : s.passwordsSet.Nodup
  used : ∀ i ∈ s.passwordsSet, ∃ row : LinkToken, s.rows[i]? = some row ∧ row.status = .used

/-! ### Frames -/

/-- What a step leaves to a transaction: its locks, and the rows as far as it relies on them. -/
structure Keeps (s s' : State) (t : TxnId) : Prop where
  tokenLock : ∀ i, s.tokenLock i = some t → s'.tokenLock i = some t
  userLock : ∀ u, s.userLock u = some t → s'.userLock u = some t
  /-- A row that it holds stays as it is. -/
  held : ∀ i (row : LinkToken), s.tokenLock i = some t → s.rows[i]? = some row →
    s'.rows[i]? = some row
  length : s.rows.length ≤ s'.rows.length
  /-- No row becomes PENDING. -/
  pending : ∀ i (row : LinkToken), i < s.rows.length → s'.rows[i]? = some row →
    row.status = .pending → s.rows[i]? = some row
  user : ∀ i (row : LinkToken), i < s.rows.length → s'.rows[i]? = some row →
    ∃ row₀ : LinkToken, s.rows[i]? = some row₀ ∧ row₀.user = row.user
  /-- A new row is not one of a user that it holds. -/
  fresh : ∀ i (row : LinkToken) u, s.rows.length ≤ i → s'.rows[i]? = some row →
    s.userLock u = some t → row.user ≠ u

section
variable {s s' : State} {t : TxnId} {txn : Txn}

/-- A step that writes no row. -/
theorem Keeps.of_rows (hrows : s'.rows = s.rows)
    (htokens : ∀ i, s.tokenLock i = some t → s'.tokenLock i = some t)
    (husers : ∀ u, s.userLock u = some t → s'.userLock u = some t) : Keeps s s' t where
  tokenLock := htokens
  userLock := husers
  held i row _ h := by rwa [hrows]
  length := by rw [hrows]
  pending i row _ h _ := by rwa [hrows] at h
  user i row _ h := ⟨row, by rwa [hrows] at h, rfl⟩
  fresh i row u hi h _ := by
    rw [hrows, List.getElem?_eq_none hi] at h
    cases h

theorem Holds.keep {i : RowId} (h : Holds s t i) (hk : Keeps s s' t) : Holds s' t i := by
  obtain ⟨hlock, row, hrow, hpending⟩ := h
  exact ⟨hk.tokenLock i hlock, row, hk.held i row hlock hrow, hpending⟩

theorem status_of_isPending {u : UserId} {row : LinkToken} (h : isPending u row = true) :
    row.status = .pending := by
  simp only [isPending, Bool.and_eq_true, beq_iff_eq] at h
  exact h.2

theorem Covered.keep {u : UserId} {seen : Nat} {ids : List RowId} (h : Covered s u seen ids)
    (hseen : seen ≤ s.rows.length) (hk : Keeps s s' t) : Covered s' u seen ids := by
  intro i row hi hrow hpending
  have hold : i < s.rows.length := by omega
  exact h i row hi (hk.pending i row hold hrow (status_of_isPending hpending)) hpending

theorem Saw.keep {request : Request} {u : UserId} {seen : Nat} (h : Saw s t request u seen)
    (hk : Keeps s s' t) : Saw s' t request u seen := by
  refine ⟨h.1.trans hk.length, fun hself => ?_⟩
  obtain ⟨hlock, hnone⟩ := h.2 hself
  refine ⟨hk.userLock u hlock, fun i row hi hrow => ?_⟩
  by_cases hold : i < s.rows.length
  · obtain ⟨row₀, hrow₀, huser⟩ := hk.user i row hold hrow
    rw [← huser]
    exact hnone i row₀ hi hrow₀
  · exact hk.fresh i row u (by omega) hrow hlock

theorem PhaseOk.keep (h : PhaseOk s t txn) (hk : Keeps s s' t) : PhaseOk s' t txn := by
  unfold PhaseOk at h ⊢
  split at h
  · exact h
  · exact hk.userLock _ h
  · exact fun hself => hk.userLock _ (h hself)
  · obtain ⟨hsaw, hgot, hcovered⟩ := h
    exact ⟨hsaw.keep hk, fun i hi => (hgot i hi).keep hk, hcovered.keep hsaw.1 hk⟩
  · obtain ⟨hsaw, hcovered⟩ := h
    exact ⟨hsaw.keep hk, hcovered.keep hsaw.1 hk⟩
  · exact hk.tokenLock _ h
  · exact Holds.keep h hk
  · trivial
  · trivial
  · trivial

/-- What holds of a transaction holds of it after a step that keeps what it relies on. -/
theorem TxnOk.keep (h : TxnOk s t txn) (hk : Keeps s s' t) : TxnOk s' t txn where
  phase := h.phase.keep hk
  users := h.users
  revokes i hi := (h.revokes i hi).keep hk
  used used hused := (h.used used hused).keep hk
  minted m hm := by
    obtain ⟨hsaw, hcovered⟩ := h.minted m hm
    exact ⟨hsaw.keep hk, hcovered.keep hsaw.1 hk⟩
  todo := h.todo

end

/-! ### Steps that write no row -/

/-- What a step before the end of a transaction leaves as it is: the rows, the records of the
transactions up to its own, and the locks that are held. -/
structure Quiet (s s₁ : State) : Prop where
  rows : s₁.rows = s.rows
  txns : s₁.txns = s.txns
  passwordsSet : s₁.passwordsSet = s.passwordsSet
  begun : ∀ t ∈ s.begun, t ∈ s₁.begun
  tokenLock : ∀ i t, s.tokenLock i = some t → s₁.tokenLock i = some t
  userLock : ∀ u t, s.userLock u = some t → s₁.userLock u = some t

theorem Quiet.refl (s : State) : Quiet s s :=
  ⟨rfl, rfl, rfl, fun _ h => h, fun _ _ h => h, fun _ _ h => h⟩

/-- A token is locked. -/
theorem Quiet.takeToken {s : State} {t : TxnId} {i : RowId} (h : s.tokenLock.mayTake i t = true) :
    Quiet s { s with tokenLock := s.tokenLock.take i t } :=
  ⟨rfl, rfl, rfl, fun _ h => h, fun _ _ hheld => Locks.held_take h hheld, fun _ _ h => h⟩

/-- A user is locked. -/
theorem Quiet.takeUser {s : State} {t : TxnId} {u : UserId} (h : s.userLock.mayTake u t = true) :
    Quiet s { s with userLock := s.userLock.take u t } :=
  ⟨rfl, rfl, rfl, fun _ h => h, fun _ _ h => h, fun _ _ hheld => Locks.held_take h hheld⟩

section
variable {s s₁ : State} {t : TxnId} {txn txn' : Txn} {env : Env}

/-- The records after one was written. -/
theorem setTxn_txns {s : State} {t t' : TxnId} {txn txn' : Txn}
    (h : (s.setTxn t txn').txns t' = some txn) :
    (t' = t ∧ txn = txn') ∨ (t' ≠ t ∧ s.txns t' = some txn) := by
  by_cases ht : t' = t
  · subst ht
    rw [State.setTxn_txns_self] at h
    exact Or.inl ⟨rfl, (Option.some.inj h).symm⟩
  · rw [State.setTxn_txns_of_ne ht] at h
    exact Or.inr ⟨ht, h⟩

theorem Quiet.keeps (hq : Quiet s s₁) (t : TxnId) : Keeps s s₁ t :=
  .of_rows hq.rows (fun i => hq.tokenLock i t) (fun u => hq.userLock u t)

/-- A record is written after a quiet step. -/
theorem Inv.setTxn (h : Inv s) (hq : Quiet s s₁) (ht : t ∈ s₁.begun) (hok : TxnOk s₁ t txn')
    (hexclusive : Exclusive (s₁.setTxn t txn')) : Inv (s₁.setTxn t txn') where
  txn t₁ txn₁ h₁ := by
    have hframe : Keeps s₁ (s₁.setTxn t txn') t₁ := .of_rows rfl (fun _ h => h) (fun _ h => h)
    rcases setTxn_txns h₁ with ⟨rfl, rfl⟩ | ⟨-, h₁⟩
    · exact hok.keep hframe
    · rw [hq.txns] at h₁
      exact ((h.txn t₁ txn₁ h₁).keep (hq.keeps t₁)).keep hframe
  begun t₁ txn₁ h₁ := by
    rcases setTxn_txns h₁ with ⟨rfl, rfl⟩ | ⟨-, h₁⟩
    · exact ht
    · rw [hq.txns] at h₁
      exact hq.begun t₁ (h.begun t₁ txn₁ h₁)
  exclusive := hexclusive
  passwordsSet := by
    show s₁.passwordsSet.Nodup
    rw [hq.passwordsSet]
    exact h.passwordsSet
  used i hi := by
    have hi : i ∈ s₁.passwordsSet := hi
    rw [hq.passwordsSet] at hi
    show ∃ row : LinkToken, s₁.rows[i]? = some row ∧ _
    rw [hq.rows]
    exact h.used i hi

/-- A step that locks no user and inserts no token. -/
theorem Exclusive.setTxn (h : Exclusive s) (ht : s.txns t = some txn)
    (htxns : s₁.txns = s.txns) (husers : s₁.userLock = s.userLock)
    (hminted : txn'.minted = txn.minted) : Exclusive (s₁.setTxn t txn') := by
  intro u t₁ t₂ txn₂ hlock hne h₂
  have hbefore : s.userLock u = some t₁ := by
    rw [← husers]
    exact hlock
  rcases setTxn_txns h₂ with ⟨rfl, rfl⟩ | ⟨-, h₂⟩
  · rw [hminted]
    exact h u t₁ t₂ txn hbefore hne ht
  · rw [htxns] at h₂
    exact h u t₁ t₂ txn₂ hbefore hne h₂

/-- A step that only moves the record on, or locks a token. -/
theorem Inv.move (h : Inv s) (ht : s.txns t = some txn) (hq : Quiet s s₁)
    (husers : s₁.userLock = s.userLock) (hok : TxnOk s₁ t txn')
    (hminted : txn'.minted = txn.minted) : Inv (s₁.setTxn t txn') :=
  h.setTxn hq (hq.begun t (h.begun t txn ht)) hok
    (h.exclusive.setTxn ht hq.txns husers hminted)

/-- A new phase, for the same users. -/
theorem TxnOk.setPhase {phase : Phase} {todo : List UserId} (h : TxnOk s t txn)
    (hphase : PhaseOk s t { txn with phase, todo })
    (husers : ({ txn with phase, todo } : Txn).users.Nodup)
    (htodo : txn.request.selfService = true → todo = []) :
    TxnOk s t { txn with phase, todo } where
  phase := hphase
  users := husers
  revokes := h.revokes
  used := h.used
  minted := h.minted
  todo := htodo

theorem inv_begin {request : Request} {s' : State} (h : Inv s)
    (hstep : s.begin t request = some s') : Inv s' := by
  unfold State.begin at hstep
  split at hstep
  · rename_i hnone _
    cases hstep
    have hq : Quiet s { s with begun := t :: s.begun } :=
      ⟨rfl, rfl, rfl, fun _ h => List.mem_cons_of_mem _ h, fun _ _ h => h, fun _ _ h => h⟩
    refine h.setTxn hq List.mem_cons_self ?_ ?_
    · refine
        { phase := ?_, users := ?_, revokes := nofun, used := nofun, minted := nofun, todo := ?_ }
      · cases request <;> simp [PhaseOk, Request.targets]
      · cases request with
        | sendBulk caller rows dryRun =>
          simpa [Txn.users, Phase.user?, Request.targets] using rows.property
        | _ => simp [Txn.users, Phase.user?, Request.targets]
      · cases request <;> simp [Request.selfService, Request.targets]
    · intro u t₁ t₂ txn₂ hlock hne h₂
      rcases setTxn_txns h₂ with ⟨rfl, rfl⟩ | ⟨-, h₂⟩
      · exact nofun
      · exact h.exclusive u t₁ t₂ txn₂ hlock hne h₂
  · cases hstep

/-- `locate` finds the account, or ends. -/
theorem inv_locate {s' : State} (h : Inv s) (ht : s.txns t = some txn)
    (hstep : s.locate t txn = some s') : Inv s' := by
  have hok := h.txn t txn ht
  have hphase := hok.phase
  unfold State.locate at hstep
  split at hstep
  · rename_i email hbegun hrequest
    simp only [PhaseOk, hbegun] at hphase
    obtain ⟨htodo, hminted⟩ := hphase
    split at hstep
    · rename_i u row huser
      cases hstep
      refine h.move ht (.refl s) rfl (hok.setPhase ?_ ?_ hok.todo) rfl
      · split <;> trivial
      · split <;> simp [Txn.users, Phase.user?, htodo, hminted]
    · cases hstep
      refine h.move ht (.refl s) rfl (hok.setPhase trivial ?_ hok.todo) rfl
      simp [Txn.users, Phase.user?, htodo, hminted]
  · cases hstep

/-- A phase without a user has fewer users. -/
theorem TxnOk.users_ready {u : UserId} (h : TxnOk s t txn) (hu : txn.phase.user? = some u) :
    ({ txn with phase := .ready } : Txn).users.Nodup := by
  have husers := h.users
  rw [Txn.users, hu] at husers
  exact husers.sublist (by simp [Txn.users, Phase.user?])

/-- A phase with the same user has the same users. -/
theorem TxnOk.users_same {phase : Phase} (h : TxnOk s t txn)
    (hu : txn.phase.user? = phase.user?) : ({ txn with phase } : Txn).users.Nodup := by
  have husers := h.users
  rw [Txn.users, hu] at husers
  exact husers

/-- No open transaction but `t` has inserted a token of the user. -/
theorem not_keyShared {u : UserId} (h : Inv s) (hfree : s.keyShared u t = false) {t' : TxnId}
    {txn' : Txn} (hne : t' ≠ t) (ht' : s.txns t' = some txn') :
    ∀ m ∈ txn'.minted, m.token.user ≠ u := by
  intro m hm huser
  have hbegun := h.begun t' txn' ht'
  have hthis := List.any_eq_false.mp hfree t' hbegun
  apply hthis
  simp only [ht', Option.any_some, Bool.and_eq_true, bne_iff_ne, List.any_eq_true, beq_iff_eq]
  exact ⟨hne, m, hm, huser⟩

/-- `lockUser` waits for every insert of a token of the user. -/
theorem inv_lockUser {s' : State} (h : Inv s) (ht : s.txns t = some txn)
    (hstep : s.lockUser t txn = some s') : Inv s' := by
  have hok := h.txn t txn ht
  unfold State.lockUser at hstep
  split at hstep
  · rename_i u hlocated
    have hu : txn.phase.user? = some u := by rw [hlocated]; rfl
    split at hstep
    · split at hstep
      · rename_i row huser hfree
        cases hstep
        simp only [Bool.and_eq_true, Bool.not_eq_true'] at hfree
        obtain ⟨⟨hmay, -⟩, hshared⟩ := hfree
        have hq := Quiet.takeUser hmay
        have hok' := hok.keep (hq.keeps t)
        refine h.setTxn hq (h.begun t txn ht) (hok'.setPhase ?_ ?_ hok.todo) ?_
        · split
          · trivial
          · exact Locks.take_self _ _ _
        · split
          · exact hok'.users_ready hu
          · exact hok'.users_same hu
        · intro u₁ t₁ t₂ txn₂ hlock hne h₂
          by_cases hsame : u₁ = u
          · -- The new holder is `t`, and nobody else has inserted a token of the user.
            subst hsame
            have ht₁ : t₁ = t :=
              Option.some.inj (hlock.symm.trans (Locks.take_self s.userLock u₁ t))
            subst ht₁
            rw [State.setTxn_txns_of_ne hne] at h₂
            exact not_keyShared h hshared hne h₂
          · have hbefore : s.userLock.take u t u₁ = some t₁ := hlock
            rw [Locks.take_of_ne hsame] at hbefore
            rcases setTxn_txns h₂ with ⟨rfl, rfl⟩ | ⟨-, h₂⟩
            · exact h.exclusive u₁ t₁ t₂ txn hbefore hne ht
            · exact h.exclusive u₁ t₁ t₂ txn₂ hbefore hne h₂
      · cases hstep
    · cases hstep
      exact h.move ht (.refl s) rfl (hok.setPhase trivial (hok.users_ready hu) hok.todo) rfl
  · cases hstep

theorem inv_throttle {s' : State} (h : Inv s) (ht : s.txns t = some txn)
    (hstep : s.throttle t txn = some s') : Inv s' := by
  have hok := h.txn t txn ht
  have hphase := hok.phase
  unfold State.throttle at hstep
  split at hstep
  · rename_i u hlocked
    simp only [PhaseOk, hlocked] at hphase
    have hu : txn.phase.user? = some u := by rw [hlocked]; rfl
    cases hstep
    refine h.move ht (.refl s) rfl (hok.setPhase ?_ ?_ hok.todo) rfl
    · split
      · trivial
      · exact fun _ => hphase
    · split
      · exact hok.users_ready hu
      · exact hok.users_same hu
  · cases hstep

/-- `loadUser` takes the next user of a send. -/
theorem inv_loadUser {s' : State} (h : Inv s) (ht : s.txns t = some txn)
    (hstep : s.loadUser t txn = some s') : Inv s' := by
  have hok := h.txn t txn ht
  unfold State.loadUser at hstep
  split at hstep
  · rename_i u todo hready htodo
    have hself : txn.request.selfService = false := by
      by_contra hself
      have hnone := hok.todo (by simpa using hself)
      rw [htodo] at hnone
      cases hnone
    have hno (hyes : txn.request.selfService = true) : todo = [] := by
      rw [hself] at hyes
      cases hyes
    have husers := hok.users
    rw [Txn.users, hready, htodo] at husers
    split at hstep
    · cases hstep
      refine h.move ht (.refl s) rfl (hok.setPhase ?_ ?_ hno) rfl
      · intro hyes
        rw [hself] at hyes
        cases hyes
      · simpa [Txn.users, Phase.user?] using husers
    · cases hstep
      refine h.move ht (.refl s) rfl (hok.setPhase ?_ ?_ hno) rfl
      · simp [PhaseOk, hready]
      · refine husers.sublist ?_
        simp [Txn.users, hready, Phase.user?]
    · cases hstep
  · cases hstep

/-- The `FOR UPDATE` starts with the PENDING tokens of the user. -/
theorem mem_selectPending {rows : List LinkToken} {u : UserId} {i : RowId} {row : LinkToken}
    (hrow : rows[i]? = some row) (hpending : isPending u row = true) :
    i ∈ selectPending rows u := by
  have hlt : i < rows.length := (List.getElem?_eq_some_iff.mp hrow).1
  rw [selectPending, List.mem_filter, List.mem_range]
  exact ⟨hlt, by simp [hrow, hpending]⟩

theorem inv_beginRevoke {s' : State} (h : Inv s) (ht : s.txns t = some txn)
    (hstep : s.beginRevoke t txn = some s') : Inv s' := by
  have hok := h.txn t txn ht
  have hphase := hok.phase
  unfold State.beginRevoke at hstep
  split at hstep
  · rename_i u hloaded
    simp only [PhaseOk, hloaded] at hphase
    have hu : txn.phase.user? = some u := by rw [hloaded]; rfl
    cases hstep
    refine h.move ht (.refl s) rfl (hok.setPhase ?_ (hok.users_same hu) hok.todo) rfl
    refine ⟨⟨le_refl _, fun hself => ⟨hphase hself, fun i row hi hrow => ?_⟩⟩, nofun, ?_⟩
    · -- There is no later row yet.
      rw [List.getElem?_eq_none hi] at hrow
      cases hrow
    · intro i row hi hrow hpending
      rw [List.append_nil]
      exact mem_selectPending hrow hpending
  · cases hstep

theorem inv_lockToken {s' : State} (h : Inv s) (ht : s.txns t = some txn)
    (hstep : s.lockToken t txn = some s') : Inv s' := by
  have hok := h.txn t txn ht
  have hphase := hok.phase
  unfold State.lockToken at hstep
  split at hstep
  · rename_i u seen i wanted got hlocking
    simp only [PhaseOk, hlocking] at hphase
    obtain ⟨hsaw, hgot, hcovered⟩ := hphase
    have hu : txn.phase.user? = some u := by rw [hlocking]; rfl
    split at hstep
    · rename_i hmay
      have hq := Quiet.takeToken hmay
      split at hstep
      · rename_i hpending
        cases hstep
        have hk := hq.keeps t
        refine h.move ht hq rfl ((hok.keep hk).setPhase ?_ ((hok.keep hk).users_same hu) hok.todo)
          rfl
        refine ⟨hsaw.keep hk, ?_, ?_⟩
        · intro j hj
          rcases List.mem_cons.mp hj with rfl | hj
          · obtain ⟨row, hrow, hpending⟩ := (Option.any_eq_true _ _).mp hpending
            exact ⟨Locks.take_self _ _ _, row, hrow, status_of_isPending hpending⟩
          · exact (hgot j hj).keep hk
        · intro j row hj hrow hpending
          have hmem := hcovered j row hj hrow hpending
          simpa [or_left_comm] using hmem
      · rename_i hpassed
        cases hstep
        refine h.move ht (.refl s) rfl (hok.setPhase ?_ (hok.users_same hu) hok.todo) rfl
        refine ⟨hsaw, hgot, fun j row hj hrow hpending => ?_⟩
        rcases List.mem_cons.mp (hcovered j row hj hrow hpending) with rfl | hmem
        · -- A row that is passed over is not PENDING.
          rw [hrow] at hpassed
          exact absurd hpending hpassed
        · exact hmem
    · cases hstep
  · cases hstep

theorem inv_revoke {s' : State} (h : Inv s) (ht : s.txns t = some txn)
    (hstep : s.revoke t txn = some s') : Inv s' := by
  have hok := h.txn t txn ht
  have hphase := hok.phase
  unfold State.revoke at hstep
  split at hstep
  · rename_i u seen got hlocking
    simp only [PhaseOk, hlocking, List.nil_append] at hphase
    obtain ⟨hsaw, hgot, hcovered⟩ := hphase
    have hu : txn.phase.user? = some u := by rw [hlocking]; rfl
    cases hstep
    have hrevoked (i : RowId) : i ∈ (txn.revokes ++ got.map fun i => (i, s.now)).map Prod.fst ↔
        i ∈ txn.revoked ∨ i ∈ got := by
      simp [Txn.revoked]
    refine h.move ht (.refl s) rfl ?_ rfl
    refine
      { phase := ⟨hsaw, fun i row hi hrow hpending => ?_⟩, users := hok.users_same hu
        revokes := fun i hi => ?_, used := hok.used, minted := fun m hm =>
          ⟨(hok.minted m hm).1, ?_⟩
        todo := hok.todo }
    · exact (hrevoked i).mpr (Or.inr (hcovered i row hi hrow hpending))
    · rcases (hrevoked i).mp hi with hold | hnew
      · exact hok.revokes i hold
      · exact hgot i hnew
    · intro i row hi hrow hpending
      exact (hrevoked i).mpr (Or.inl ((hok.minted m hm).2 i row hi hrow hpending))
  · cases hstep

theorem inv_mint {raw : String} {s' : State} (h : Inv s) (ht : s.txns t = some txn)
    (hstep : State.mint env raw s t txn = some s') : Inv s' := by
  have hok := h.txn t txn ht
  have hphase := hok.phase
  unfold State.mint at hstep
  split at hstep
  · rename_i u seen hrevoked
    simp only [PhaseOk, hrevoked] at hphase
    have husers := hok.users
    rw [Txn.users, hrevoked] at husers
    dsimp only at hstep
    split at hstep
    · rename_i hfree
      cases hstep
      simp only [Bool.and_eq_true] at hfree
      obtain ⟨hmay, -⟩ := hfree
      refine h.setTxn (.refl s) (h.begun t txn ht) ?_ ?_
      · refine
          { phase := trivial, users := ?_, revokes := hok.revokes, used := hok.used
            minted := fun m hm => ?_, todo := hok.todo }
        · simpa [Txn.users, Phase.user?] using husers
        · rcases List.mem_append.mp hm with hold | hnew
          · exact hok.minted m hold
          · rw [List.mem_singleton] at hnew
            subst hnew
            exact hphase
      · intro u₁ t₁ t₂ txn₂ hlock hne h₂ m hm
        rcases setTxn_txns h₂ with ⟨rfl, rfl⟩ | ⟨-, h₂⟩
        · rcases List.mem_append.mp hm with hold | hnew
          · exact h.exclusive u₁ t₁ t₂ txn hlock hne ht m hold
          · -- An insert waits for the holder of the user.
            rw [List.mem_singleton] at hnew
            subst hnew
            rintro rfl
            have hheld : s.userLock u = some t₁ := hlock
            rw [Locks.mayTake, hheld] at hmay
            exact hne (beq_iff_eq.mp hmay).symm
        · exact h.exclusive u₁ t₁ t₂ txn₂ hlock hne h₂ m hm
    · cases hstep
  · cases hstep

theorem inv_findReset {s' : State} (h : Inv s) (ht : s.txns t = some txn)
    (hstep : State.findReset env s t txn = some s') : Inv s' := by
  have hok := h.txn t txn ht
  have hphase := hok.phase
  unfold State.findReset at hstep
  split at hstep
  · rename_i raw password hbegun hrequest
    simp only [PhaseOk, hbegun] at hphase
    obtain ⟨htodo, hminted⟩ := hphase
    split at hstep
    · cases hstep
      refine h.move ht (.refl s) rfl (hok.setPhase trivial ?_ hok.todo) rfl
      simp [Txn.users, Phase.user?, htodo, hminted]
    · cases hstep
  · cases hstep

theorem inv_lockReset {s' : State} (h : Inv s) (ht : s.txns t = some txn)
    (hstep : s.lockReset t txn = some s') : Inv s' := by
  have hok := h.txn t txn ht
  unfold State.lockReset at hstep
  split at hstep
  · rename_i i hfound
    have hu : txn.phase.user? = none := by rw [hfound]; rfl
    split at hstep
    · rename_i hmay
      cases hstep
      have hq := Quiet.takeToken hmay
      have hok' := hok.keep (hq.keeps t)
      exact h.move ht hq rfl
        (hok'.setPhase (Locks.take_self _ _ _) (hok'.users_same hu) hok.todo) rfl
    · cases hstep
  · cases hstep

/-- The token that passes the checks is PENDING, and locked. -/
theorem inv_checkReset {s' : State} (h : Inv s) (ht : s.txns t = some txn)
    (hstep : State.checkReset env s t txn = some s') : Inv s' := by
  have hok := h.txn t txn ht
  have hphase := hok.phase
  unfold State.checkReset at hstep
  split at hstep
  · rename_i i raw password hheld hrequest
    simp only [PhaseOk, hheld] at hphase
    have hu : txn.phase.user? = none := by rw [hheld]; rfl
    simp only [Option.bind_eq_bind, Option.bind_eq_some_iff, Option.guard_eq_some'] at hstep
    obtain ⟨row, hrow, -, hpending, user, -, -, -, hstep⟩ := hstep
    cases hstep
    have hholds : Holds s t i :=
      ⟨hphase, row, hrow, (LinkToken.effective_eq_pending.mp hpending).1⟩
    exact h.move ht (.refl s) rfl (hok.setPhase hholds (hok.users_same hu) hok.todo) rfl
  · cases hstep

theorem inv_useReset {s' : State} (h : Inv s) (ht : s.txns t = some txn)
    (hstep : State.useReset env s t txn = some s') : Inv s' := by
  have hok := h.txn t txn ht
  have hphase := hok.phase
  unfold State.useReset at hstep
  split at hstep
  · rename_i i u raw password hchecked hrequest
    simp only [PhaseOk, hchecked] at hphase
    have hu : txn.phase.user? = none := by rw [hchecked]; rfl
    split at hstep
    · rename_i hfree
      cases hstep
      have hq : Quiet s { s with userWrite := s.userWrite.take u t } :=
        ⟨rfl, rfl, rfl, fun _ h => h, fun _ _ h => h, fun _ _ h => h⟩
      have hok' := hok.keep (hq.keeps t)
      refine h.move ht hq rfl ?_ rfl
      refine
        { phase := trivial, users := hok.users_same hu, revokes := hok'.revokes
          used := fun used hused => ?_, minted := hok'.minted, todo := hok.todo }
      cases hused
      exact Holds.keep hphase (hq.keeps t)
    · cases hstep
  · cases hstep

end

/-! ### The end of a transaction -/

section
variable {s s' : State} {t : TxnId} {txn : Txn} {env : Env}

theorem getElem?_written_of_lt {i : RowId} (hi : i < s.rows.length) :
    (s.written txn)[i]? = (s.rows[i]?).map (State.writtenRow txn i) := by
  rw [State.written, List.getElem?_append_left (by simpa using hi), List.getElem?_mapIdx]

/-- A row after the old ones is an inserted token. -/
theorem getElem?_written_of_le {i : RowId} (hi : s.rows.length ≤ i) :
    (s.written txn)[i]? = (txn.minted[i - s.rows.length]?).map Minted.token := by
  rw [State.written, List.getElem?_append_right (by simpa using hi), List.getElem?_map]
  simp

theorem lookup_eq_none {i : RowId} {revokes : List (RowId × Nat)}
    (h : i ∉ revokes.map Prod.fst) : revokes.lookup i = none := by
  rw [List.lookup_eq_none_iff]
  intro pair hpair
  have hne : pair.1 ≠ i := fun hsame => h (hsame ▸ List.mem_map_of_mem hpair)
  simpa using hne.symm

/-- A row that the transaction neither revoked nor used stays. -/
theorem writtenRow_eq {i : RowId} {row : LinkToken} (hrevoked : i ∉ txn.revoked)
    (hused : ∀ used ∈ txn.used, used.row ≠ i) : State.writtenRow txn i row = row := by
  have hnone : (txn.used.any fun used => used.row == i) = false := by
    cases hsome : txn.used with
    | none => rfl
    | some used => simpa using hused used hsome
  rw [State.writtenRow, if_neg (by simp [hnone]), lookup_eq_none hrevoked]

/-- A row that is still PENDING was not touched. -/
theorem writtenRow_pending {i : RowId} {row : LinkToken}
    (h : (State.writtenRow txn i row).status = .pending) :
    i ∉ txn.revoked ∧ State.writtenRow txn i row = row := by
  unfold State.writtenRow at h ⊢
  split at h
  · cases h
  · split at h
    · cases h
    · rename_i hused _ hrevoked
      rw [if_neg hused]
      refine ⟨fun hmem => ?_, rfl⟩
      obtain ⟨pair, hpair, hsame⟩ := List.mem_map.mp hmem
      rw [List.lookup_eq_none_iff] at hrevoked
      have hne := hrevoked pair hpair
      rw [hsame] at hne
      simp at hne

theorem writtenRow_user {i : RowId} {row : LinkToken} :
    (State.writtenRow txn i row).user = row.user := by
  unfold State.writtenRow
  split
  · rfl
  · split <;> rfl

/-- A commit leaves to the others what they rely on: they hold other tokens, and it has inserted
none of a user that they hold. -/
theorem keeps_commit {db : Directory} {passwordsSet : List RowId} (h : Inv s)
    (ht : s.txns t = some txn) {t' : TxnId} (hne : t' ≠ t) :
    Keeps s ({ s with db, rows := s.written txn, passwordsSet }.finish t) t' := by
  have hok := h.txn t txn ht
  have hother (i : RowId) (hlock : s.tokenLock i = some t') : i ∉ txn.revoked ∧
      ∀ used ∈ txn.used, used.row ≠ i := by
    constructor
    · intro hi
      have hown := (hok.revokes i hi).1
      exact hne (Option.some.inj (hlock.symm.trans hown))
    · rintro used hused rfl
      have hown := (hok.used used hused).1
      exact hne (Option.some.inj (hlock.symm.trans hown))
  refine
    { tokenLock := fun i hlock => Locks.held_release hne hlock
      userLock := fun u hlock => Locks.held_release hne hlock
      held := fun i row hlock hrow => ?_, length := ?_,
      pending := fun i row hi hrow hpending => ?_
      user := fun i row hi hrow => ?_, fresh := fun i row u hi hrow hlock => ?_ }
  · have hi : i < s.rows.length := (List.getElem?_eq_some_iff.mp hrow).1
    obtain ⟨hrevoked, hused⟩ := hother i hlock
    show (s.written txn)[i]? = some row
    rw [getElem?_written_of_lt hi, hrow, Option.map_some, writtenRow_eq hrevoked hused]
  · show s.rows.length ≤ (s.written txn).length
    simp [State.written]
  · have hrow : (s.written txn)[i]? = some row := hrow
    rw [getElem?_written_of_lt hi] at hrow
    obtain ⟨row₀, hrow₀, rfl⟩ := Option.map_eq_some_iff.mp hrow
    rw [(writtenRow_pending hpending).2]
    exact hrow₀
  · have hrow : (s.written txn)[i]? = some row := hrow
    rw [getElem?_written_of_lt hi] at hrow
    obtain ⟨row₀, hrow₀, rfl⟩ := Option.map_eq_some_iff.mp hrow
    exact ⟨row₀, hrow₀, writtenRow_user.symm⟩
  · have hrow : (s.written txn)[i]? = some row := hrow
    rw [getElem?_written_of_le hi] at hrow
    obtain ⟨m, hm, rfl⟩ := Option.map_eq_some_iff.mp hrow
    exact h.exclusive u t' t txn hlock hne.symm ht m (List.mem_of_getElem? hm)

/-- The end of a transaction without writes. -/
theorem keeps_finish {t' : TxnId} (hne : t' ≠ t) : Keeps s (s.finish t) t' :=
  .of_rows rfl (fun _ hlock => Locks.held_release hne hlock)
    (fun _ hlock => Locks.held_release hne hlock)

/-- The records after a transaction ended. -/
theorem finish_txns {t' : TxnId} {txn' : Txn} (h : (s.finish t).txns t' = some txn') :
    t' ≠ t ∧ s.txns t' = some txn' := by
  by_cases ht : t' = t
  · subst ht
    have hnone : (s.finish t').txns t' = none := Function.update_self _ _ _
    rw [hnone] at h
    cases h
  · have hsame : (s.finish t).txns t' = s.txns t' := Function.update_of_ne ht _ _
    exact ⟨ht, hsame ▸ h⟩

/-- Who holds a user after a transaction ended held it before. -/
theorem userLock_of_finish {u : UserId} {t' : TxnId}
    (h : (s.finish t).userLock u = some t') : s.userLock u = some t' := by
  have hrelease : s.userLock.release t u = some t' := h
  unfold Locks.release at hrelease
  split at hrelease
  · cases hrelease
  · exact hrelease

/-- A transaction ends, with or without writes. -/
theorem Inv.finish {s₁ : State} (h : Inv s) (htxns : s₁.txns = s.txns)
    (hbegun : s₁.begun = s.begun) (husers : s₁.userLock = s.userLock)
    (hkeeps : ∀ t', t' ≠ t → Keeps s (s₁.finish t) t') (hnodup : s₁.passwordsSet.Nodup)
    (hused : ∀ i ∈ s₁.passwordsSet, ∃ row : LinkToken, s₁.rows[i]? = some row ∧
      row.status = .used) : Inv (s₁.finish t) where
  txn t' txn' h' := by
    obtain ⟨hne, h'⟩ := finish_txns h'
    rw [htxns] at h'
    exact (h.txn t' txn' h').keep (hkeeps t' hne)
  begun t' txn' h' := by
    obtain ⟨-, h'⟩ := finish_txns h'
    rw [htxns] at h'
    show t' ∈ s₁.begun
    rw [hbegun]
    exact h.begun t' txn' h'
  exclusive u t₁ t₂ txn₂ hlock hne h₂ := by
    have hbefore := userLock_of_finish hlock
    obtain ⟨-, h₂⟩ := finish_txns h₂
    rw [husers] at hbefore
    rw [htxns] at h₂
    exact h.exclusive u t₁ t₂ txn₂ hbefore hne h₂
  passwordsSet := hnodup
  used := hused

theorem inv_abort (h : Inv s) : Inv (s.finish t) :=
  h.finish rfl rfl rfl (fun _ hne => keeps_finish hne) h.passwordsSet h.used

/-- A USED row is held by nobody who would write it. -/
theorem writtenRow_used {i : RowId} {row : LinkToken} (hok : TxnOk s t txn)
    (hrow : s.rows[i]? = some row) (hused : row.status = .used) :
    State.writtenRow txn i row = row := by
  have hnot (hholds : Holds s t i) : False := by
    obtain ⟨-, row', hrow', hpending⟩ := hholds
    rw [hrow] at hrow'
    cases hrow'
    rw [hused] at hpending
    cases hpending
  refine writtenRow_eq (fun hi => hnot (hok.revokes i hi)) ?_
  rintro used hmem rfl
  exact hnot (hok.used used hmem)

/-- The confirmed token is a new one on the list, and USED. -/
theorem used_commit (h : Inv s) (ht : s.txns t = some txn) :
    ((txn.used.map Used.row).toList ++ s.passwordsSet).Nodup ∧
      ∀ i ∈ (txn.used.map Used.row).toList ++ s.passwordsSet,
        ∃ row : LinkToken, (s.written txn)[i]? = some row ∧ row.status = .used := by
  have hok := h.txn t txn ht
  have hold (i : RowId) (hi : i ∈ s.passwordsSet) :
      ∃ row : LinkToken, (s.written txn)[i]? = some row ∧ row.status = .used := by
    obtain ⟨row, hrow, hused⟩ := h.used i hi
    have hlt : i < s.rows.length := (List.getElem?_eq_some_iff.mp hrow).1
    refine ⟨row, ?_, hused⟩
    rw [getElem?_written_of_lt hlt, hrow, Option.map_some, writtenRow_used hok hrow hused]
  cases hsome : txn.used with
  | none => exact ⟨h.passwordsSet, hold⟩
  | some used =>
    obtain ⟨-, row, hrow, hpending⟩ := hok.used used hsome
    have hlt : used.row < s.rows.length := (List.getElem?_eq_some_iff.mp hrow).1
    constructor
    · refine List.nodup_cons.mpr ⟨fun hmem => ?_, h.passwordsSet⟩
      obtain ⟨row', hrow', hused⟩ := h.used used.row hmem
      rw [hrow] at hrow'
      cases hrow'
      rw [hused] at hpending
      cases hpending
    · intro i hi
      rcases List.mem_cons.mp hi with rfl | hi
      · refine ⟨row.consume, ?_, rfl⟩
        rw [getElem?_written_of_lt hlt, hrow, Option.map_some, State.writtenRow, hsome, if_pos]
        exact beq_self_eq_true used.row
      · exact hold i hi

theorem inv_commit (h : Inv s) (ht : s.txns t = some txn) (hstep : s.commit t txn = some s') :
    Inv s' := by
  unfold State.commit at hstep
  split at hstep
  · split at hstep
    · cases hstep
      exact inv_abort h
    · cases hstep
      obtain ⟨hnodup, hused⟩ := used_commit h ht
      exact h.finish rfl rfl rfl (fun _ hne => keeps_commit h ht hne) hnodup hused
  · cases hstep

/-- Every step keeps what holds in the reachable states. -/
theorem inv_step {l : Label} (h : Inv s) (hstep : step env s l = some s') : Inv s' := by
  cases l with
  | tick =>
    cases hstep
    exact ⟨fun t txn ht => (h.txn t txn ht).keep (.of_rows rfl (fun _ h => h) (fun _ h => h)),
      h.begun, h.exclusive, h.passwordsSet, h.used⟩
  | identity db platform =>
    cases hstep
    exact ⟨fun t txn ht => (h.txn t txn ht).keep (.of_rows rfl (fun _ h => h) (fun _ h => h)),
      h.begun, h.exclusive, h.passwordsSet, h.used⟩
  | begin t request => exact inv_begin h hstep
  | locate t =>
    obtain ⟨txn, ht, hstep⟩ := Option.bind_eq_some_iff.mp hstep
    exact inv_locate h ht hstep
  | lockUser t =>
    obtain ⟨txn, ht, hstep⟩ := Option.bind_eq_some_iff.mp hstep
    exact inv_lockUser h ht hstep
  | throttle t =>
    obtain ⟨txn, ht, hstep⟩ := Option.bind_eq_some_iff.mp hstep
    exact inv_throttle h ht hstep
  | loadUser t =>
    obtain ⟨txn, ht, hstep⟩ := Option.bind_eq_some_iff.mp hstep
    exact inv_loadUser h ht hstep
  | beginRevoke t =>
    obtain ⟨txn, ht, hstep⟩ := Option.bind_eq_some_iff.mp hstep
    exact inv_beginRevoke h ht hstep
  | lockToken t =>
    obtain ⟨txn, ht, hstep⟩ := Option.bind_eq_some_iff.mp hstep
    exact inv_lockToken h ht hstep
  | revoke t =>
    obtain ⟨txn, ht, hstep⟩ := Option.bind_eq_some_iff.mp hstep
    exact inv_revoke h ht hstep
  | mint t raw =>
    obtain ⟨txn, ht, hstep⟩ := Option.bind_eq_some_iff.mp hstep
    exact inv_mint h ht hstep
  | findReset t =>
    obtain ⟨txn, ht, hstep⟩ := Option.bind_eq_some_iff.mp hstep
    exact inv_findReset h ht hstep
  | lockReset t =>
    obtain ⟨txn, ht, hstep⟩ := Option.bind_eq_some_iff.mp hstep
    exact inv_lockReset h ht hstep
  | checkReset t =>
    obtain ⟨txn, ht, hstep⟩ := Option.bind_eq_some_iff.mp hstep
    exact inv_checkReset h ht hstep
  | useReset t =>
    obtain ⟨txn, ht, hstep⟩ := Option.bind_eq_some_iff.mp hstep
    exact inv_useReset h ht hstep
  | commit t =>
    obtain ⟨txn, ht, hstep⟩ := Option.bind_eq_some_iff.mp hstep
    exact inv_commit h ht hstep
  | abort t =>
    obtain ⟨txn, ht, hstep⟩ := Option.map_eq_some_iff.mp hstep
    cases hstep
    exact inv_abort h

/-! ### One live link -/

/-- Only a commit writes rows, and time does not go back. -/
theorem rows_of_step {l : Label} (hne : ∀ t, l ≠ .commit t) (hstep : step env s l = some s') :
    s'.rows = s.rows ∧ s.now ≤ s'.now := by
  cases l with
  | commit t => exact absurd rfl (hne t)
  | tick =>
    cases hstep
    exact ⟨rfl, Nat.le_succ _⟩
  | identity db platform =>
    cases hstep
    exact ⟨rfl, le_rfl⟩
  | abort t =>
    obtain ⟨txn, -, hstep⟩ := Option.map_eq_some_iff.mp hstep
    cases hstep
    exact ⟨rfl, le_rfl⟩
  | begin t request =>
    simp only [step, State.begin] at hstep
    split at hstep
    · cases hstep
      exact ⟨rfl, le_rfl⟩
    · cases hstep
  | checkReset t =>
    obtain ⟨txn, -, hstep⟩ := Option.bind_eq_some_iff.mp hstep
    unfold State.checkReset at hstep
    split at hstep
    · simp only [Option.bind_eq_bind, Option.bind_eq_some_iff] at hstep
      obtain ⟨_, _, _, _, _, _, _, _, hstep⟩ := hstep
      cases hstep
      exact ⟨rfl, le_rfl⟩
    · cases hstep
  | _ t =>
    -- The other steps lock a row, or only move the record on.
    obtain ⟨txn, -, hstep⟩ := Option.bind_eq_some_iff.mp hstep
    simp only [State.locate, State.lockUser, State.throttle, State.loadUser, State.beginRevoke,
      State.lockToken, State.revoke, State.mint, State.findReset, State.lockReset,
      State.useReset] at hstep
    repeat' split at hstep
    all_goals first
      | cases hstep; done
      | cases hstep; exact ⟨rfl, le_rfl⟩

/-- A live token was live at an earlier time. -/
theorem effective_mono {row : LinkToken} {now now' : Nat} (hle : now ≤ now')
    (h : row.effective now' = .pending) : row.effective now = .pending := by
  rw [LinkToken.effective_eq_pending] at h ⊢
  exact ⟨h.1, lt_of_le_of_lt hle h.2⟩

/-- A token that a commit leaves live was live before, or the commit inserts it. The first kind it
has not revoked. -/
theorem live_of_written {i : RowId} {row : LinkToken} (hrow : (s.written txn)[i]? = some row)
    (hlive : row.effective s.now = .pending) :
    (i < s.rows.length ∧ s.rows[i]? = some row ∧ i ∉ txn.revoked) ∨
      ∃ m, txn.minted[i - s.rows.length]? = some m ∧ s.rows.length ≤ i ∧ m.token = row := by
  by_cases hi : i < s.rows.length
  · rw [getElem?_written_of_lt hi] at hrow
    obtain ⟨row₀, hrow₀, rfl⟩ := Option.map_eq_some_iff.mp hrow
    have hpending := (LinkToken.effective_eq_pending.mp hlive).1
    obtain ⟨hrevoked, hsame⟩ := writtenRow_pending hpending
    exact Or.inl ⟨hi, by rw [hsame]; exact hrow₀, hrevoked⟩
  · have hle : s.rows.length ≤ i := not_lt.mp hi
    rw [getElem?_written_of_le hle] at hrow
    obtain ⟨m, hm, rfl⟩ := Option.map_eq_some_iff.mp hrow
    exact Or.inr ⟨m, hm, hle, rfl⟩

/-- No live token of another transaction stands beside an inserted one. What the transaction saw
it has revoked, and there is nothing that it did not see: a self-service request holds the user,
and a send does not commit beside such a token. -/
theorem not_live_beside (h : Inv s) (ht : s.txns t = some txn)
    (hdry : txn.request.dryRun = false) (hcross : ¬ Crosses s (.commit t)) {m : Minted}
    (hm : m ∈ txn.minted) (hminted : m.token.effective s.now = .pending) {i : RowId}
    {row : LinkToken} (hrow : s.rows[i]? = some row) (hlive : row.effective s.now = .pending)
    (hrevoked : i ∉ txn.revoked) : row.user ≠ m.token.user := by
  intro huser
  obtain ⟨hsaw, hcovered⟩ := (h.txn t txn ht).minted m hm
  by_cases hseen : i < m.seen
  · have hpending : isPending m.token.user row = true := by
      simp [isPending, huser, (LinkToken.effective_eq_pending.mp hlive).1]
    exact hrevoked (hcovered i row hseen hrow hpending)
  · have hlater : m.seen ≤ i := not_lt.mp hseen
    cases hself : txn.request.selfService with
    | true => exact (hsaw.2 hself).2 i row hlater hrow huser
    | false =>
      have hdrop : row ∈ s.rows.drop m.seen := by
        apply List.mem_of_getElem? (i := i - m.seen)
        rw [List.getElem?_drop, Nat.add_sub_cancel' hlater, hrow]
      exact hcross ⟨txn, ht, hself, hdry, m, hm, hminted, row, hdrop, huser, hlive⟩

/-- A transaction inserts one token for a user. -/
theorem eq_of_minted_user (h : TxnOk s t txn) {i j : Nat} {m n : Minted}
    (hm : txn.minted[i]? = some m) (hn : txn.minted[j]? = some n)
    (huser : m.token.user = n.token.user) : i = j := by
  have hnodup : (txn.minted.map fun m => m.token.user).Nodup := by
    have husers := h.users
    rw [Txn.users, List.append_assoc] at husers
    exact (List.nodup_append.mp husers).1
  have hi : i < (txn.minted.map fun m => m.token.user).length := by
    rw [List.length_map]
    exact (List.getElem?_eq_some_iff.mp hm).1
  refine (List.getElem?_inj hi hnodup).mp ?_
  rw [List.getElem?_map, List.getElem?_map, hm, hn, Option.map_some, Option.map_some, huser]

/-- A commit that does not cross keeps one live link. -/
theorem oneLiveLink_commit (h : Inv s) (hone : OneLiveLink s) (ht : s.txns t = some txn)
    (hdry : txn.request.dryRun = false) (hcross : ¬ Crosses s (.commit t)) {i j : RowId}
    {a b : LinkToken} (ha : (s.written txn)[i]? = some a) (hb : (s.written txn)[j]? = some b)
    (huser : a.user = b.user) (halive : a.effective s.now = .pending)
    (hblive : b.effective s.now = .pending) : i = j := by
  rcases live_of_written ha halive with ⟨-, hrow, hrevoked⟩ | ⟨m, hm, hi, rfl⟩
  · rcases live_of_written hb hblive with ⟨-, hrow', -⟩ | ⟨n, hn, hj, rfl⟩
    · exact hone i j a b hrow hrow' huser halive hblive
    · exact absurd huser (not_live_beside h ht hdry hcross (List.mem_of_getElem? hn) hblive hrow
        halive hrevoked)
  · rcases live_of_written hb hblive with ⟨-, hrow', hrevoked'⟩ | ⟨n, hn, hj, rfl⟩
    · exact absurd huser.symm (not_live_beside h ht hdry hcross (List.mem_of_getElem? hm) halive
        hrow' hblive hrevoked')
    · have hsame := eq_of_minted_user (h.txn t txn ht) hm hn huser
      rw [← Nat.sub_add_cancel hi, hsame, Nat.sub_add_cancel hj]

/-- A step that does not cross keeps one live link. -/
theorem oneLiveLink_step {l : Label} (h : Inv s) (hone : OneLiveLink s) (hcross : ¬ Crosses s l)
    (hstep : step env s l = some s') : OneLiveLink s' := by
  by_cases hcommit : ∃ t, l = .commit t
  · obtain ⟨t, rfl⟩ := hcommit
    obtain ⟨txn, ht, hstep⟩ := Option.bind_eq_some_iff.mp hstep
    unfold State.commit at hstep
    split at hstep
    · split at hstep
      · cases hstep
        exact hone
      · rename_i hdry
        cases hstep
        intro i j a b ha hb huser halive hblive
        exact oneLiveLink_commit h hone ht (by simpa using hdry) hcross ha hb huser halive hblive
    · cases hstep
  · have hne (t : TxnId) (hl : l = .commit t) : False := hcommit ⟨t, hl⟩
    obtain ⟨hrows, hnow⟩ := rows_of_step hne hstep
    intro i j a b ha hb huser halive hblive
    rw [hrows] at ha hb
    exact hone i j a b ha hb huser (effective_mono hnow halive) (effective_mono hnow hblive)

end

/-! ### Runs -/

theorem inv_start {s : State} (h : Start s) : Inv s where
  txn t txn ht := by
    rw [h.txns t] at ht
    cases ht
  begun t txn ht := by
    rw [h.txns t] at ht
    cases ht
  exclusive u t t' txn _ _ ht := by
    rw [h.txns t'] at ht
    cases ht
  passwordsSet := by
    rw [h.passwordsSet]
    exact List.nodup_nil
  used i hi := by
    rw [h.passwordsSet] at hi
    cases hi

/-- In every interleaving each token sets a password at most once. And each user has at most one
live link, in every state and so in those without an open transaction, when no send commits beside
a live token that it missed. -/
theorem one_live_link (env : Env) (s₀ s : State) (ls : List Label) (hstart : Start s₀)
    (hrun : run (step env) s₀ ls = some s) :
    s.passwordsSet.Nodup ∧
      (Along (step env) (fun s l => ¬ Crosses s l) s₀ ls → OneLiveLink s) := by
  have hinv (s : State) (l : Label) (s' : State) (h : Inv s) (hstep : step env s l = some s') :
      Inv s' := inv_step h hstep
  refine ⟨(run_invariant hinv (inv_start hstart) hrun).passwordsSet, fun halong => ?_⟩
  have hboth (s : State) (l : Label) (s' : State) (h : Inv s ∧ OneLiveLink s)
      (hcross : ¬ Crosses s l) (hstep : step env s l = some s') : Inv s' ∧ OneLiveLink s' :=
    ⟨inv_step h.1 hstep, oneLiveLink_step h.1 h.2 hcross hstep⟩
  have hempty : OneLiveLink s₀ := by
    intro i j a b ha
    rw [hstart.rows] at ha
    cases ha
  exact (run_invariant_along hboth ⟨inv_start hstart, hempty⟩ halong hrun).2

/-! ### Runs of a deployment -/

/-- A deployment whose admin has a password. -/
def deployed : State where
  db := Accounts.deployed.db.setUser 1
    { email := "root@example.com", password := some "hash", status := .active, roleIds := [1] }
  now := 1000

theorem start_deployed : Start deployed := ⟨rfl, rfl, fun _ => rfl⟩

/-- The transaction `t` sends the admin the link `raw`. -/
def sending (t : TxnId) (raw : String) : List Label :=
  [.begin t (.send Accounts.rootSession 1), .loadUser t, .beginRevoke t, .revoke t, .mint t raw,
    .commit t]

/-- The transaction `t` sends the admin the link `raw`, and locks the pending link of before. -/
def sendingAgain (t : TxnId) (raw : String) : List Label :=
  [.begin t (.send Accounts.rootSession 1), .loadUser t, .beginRevoke t, .lockToken t, .revoke t,
    .mint t raw, .commit t]

/-- Two sends, one after the other. The second revokes the link of the first. -/
theorem one_live_link_send : ∃ s,
    run (step Accounts.plainEnv) deployed (sending 1 "a" ++ sendingAgain 2 "b") = some s ∧
    (s.rows.map fun row => row.effective s.now) = [.revoked, .pending] ∧ OneLiveLink s := by
  have hany : (run (step Accounts.plainEnv) deployed (sending 1 "a" ++ sendingAgain 2 "b")).any
      (fun s => (s.rows.map fun row => row.effective s.now) == [.revoked, .pending]) = true := by
    decide +kernel
  obtain ⟨s, hrun, hrows⟩ := exists_run_of_any hany
  refine ⟨s, hrun, beq_iff_eq.mp hrows,
    (one_live_link Accounts.plainEnv deployed s _ start_deployed hrun).2 ?_⟩
  decide +kernel

/-- Two sends that revoke before either inserts. -/
def overlapping : List Label :=
  [.begin 1 (.send Accounts.rootSession 1), .begin 2 (.send Accounts.rootSession 1), .loadUser 1,
    .loadUser 2, .beginRevoke 1, .beginRevoke 2, .revoke 1, .revoke 2, .mint 1 "a", .mint 2 "b",
    .commit 1, .commit 2]

/-- Two sends leave two live links. -/
theorem two_live_links : ¬ ∀ env s₀ s ls, Start s₀ → run (step env) s₀ ls = some s →
    Quiescent s → OneLiveLink s := by
  intro h
  have hany : (run (step Accounts.plainEnv) deployed overlapping).any (fun s =>
      (s.begun.all fun t => (s.txns t).isNone) && s.rows.length == 2 &&
        s.rows.all fun row => row.user == 1 && row.effective s.now == .pending) = true := by
    decide +kernel
  obtain ⟨s, hrun, hcheck⟩ := exists_run_of_any hany
  simp only [Bool.and_eq_true, List.all_eq_true, Option.isNone_iff_eq_none, beq_iff_eq] at hcheck
  obtain ⟨⟨hquiet, hlength⟩, hlive⟩ := hcheck
  have hone := h Accounts.plainEnv deployed s overlapping start_deployed hrun hquiet
  have h₀ : s.rows[0]? = some s.rows[0] := List.getElem?_eq_getElem (by omega)
  have h₁ : s.rows[1]? = some s.rows[1] := List.getElem?_eq_getElem (by omega)
  obtain ⟨huser₀, hlive₀⟩ := hlive _ (List.mem_of_getElem? h₀)
  obtain ⟨huser₁, hlive₁⟩ := hlive _ (List.mem_of_getElem? h₁)
  have hsame := hone 0 1 _ _ h₀ h₁ (huser₀.trans huser₁.symm) hlive₀ hlive₁
  cases hsame

end RedTeaming.Auth.Resets
