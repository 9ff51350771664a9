import RedTeaming.Auth.SignupSystem

/-!
# `RedTeaming.Auth.Signups`: one live verification link

Every transaction that inserts a verification token holds the row of the user, from before the
`FOR UPDATE` over the PENDING tokens to its commit: a registration and a resend lock it, and a new
account is a row that nobody else sees. So the tokens that the statement finds are all there are
(`Covered`), and all of them are REVOKED beside the new one. A verification holds its token, and
uses it only while it is PENDING.

`one_live_verification` says that an account has at most one PENDING token in every state of every
interleaving, and that no token verifies an account twice.
-/

set_option autoImplicit false

namespace RedTeaming.Auth.Signups

open RedTeaming.Library

/-- At most one committed token of a user is effective-pending. -/
def OneLiveLink (s : State) : Prop :=
  ∀ (i j : RowId) (a b : LinkToken), s.rows[i]? = some a → s.rows[j]? = some b → a.user = b.user →
    a.effective s.now = .pending → b.effective s.now = .pending → i = j

/-- No transaction is open, and no token was issued yet. -/
structure Start (s : State) : Prop where
  rows : s.rows = []
  verified : s.verified = []
  txns : ∀ t, s.txns t = none

/-! ### What holds of an open transaction -/

/-- The rows that a transaction has marked REVOKED. -/
def Txn.revoked (txn : Txn) : List RowId := txn.revokes.map Prod.fst

section
variable (s : State) (t : TxnId)

/-- The transaction holds the token, which is PENDING. -/
def Holds (i : RowId) : Prop :=
  s.tokenLock i = some t ∧ ∃ row : LinkToken, s.rows[i]? = some row ∧ row.status = .pending

/-- The transaction holds the user, and each PENDING token of the user is one of `ids`. -/
def Covered (u : UserId) (ids : List RowId) : Prop :=
  s.userLock u = some t ∧
    ∀ i (row : LinkToken), s.rows[i]? = some row → isPending u row = true → i ∈ ids

/-- What a transaction knows where it is. -/
def PhaseOk (txn : Txn) : Prop :=
  match txn.phase with
  | .loaded u => s.userLock u = some t
  | .locking u wanted got => (∀ i ∈ got, Holds s t i) ∧ Covered s t u (wanted ++ got)
  | .revoked u | .issuing u _ => Covered s t u txn.revoked
  | .held i => s.tokenLock i = some t
  | .checked i _ => Holds s t i
  | _ => True

/-- What holds of an open transaction: it holds what it revokes and what it uses, and what is
PENDING beside the token that it inserted is revoked. -/
structure TxnOk (txn : Txn) : Prop where
  phase : PhaseOk s t txn
  revokes : ∀ i ∈ txn.revoked, Holds s t i
  used : ∀ used ∈ txn.used, Holds s t used.1
  minted : ∀ token ∈ txn.minted, Covered s t token.user txn.revoked

end

/-- What holds in every reachable state. -/
structure Inv (s : State) : Prop where
  txn : ∀ t txn, s.txns t = some txn → TxnOk s t txn
  /-- A user has one PENDING token. -/
  onePending : ∀ (i j : RowId) (a b : LinkToken), s.rows[i]? = some a → s.rows[j]? = some b →
    a.user = b.user → a.status = .pending → b.status = .pending → i = j
  /-- Each token that verified an account is VERIFIED, and verified one. -/
  nodup : s.verified.Nodup
  verified : ∀ i ∈ s.verified, ∃ row : LinkToken, s.rows[i]? = some row ∧ row.status = .used

theorem isPending_iff {u : UserId} {row : LinkToken} :
    isPending u row = true ↔ row.user = u ∧ row.status = .pending := by
  simp [isPending]

/-! ### Frames -/

/-- What a step leaves to a transaction: its locks, the rows that it holds, and that no token of a
user that it holds becomes PENDING. -/
structure Keeps (s s' : State) (t : TxnId) : Prop where
  tokenLock : ∀ i, s.tokenLock i = some t → s'.tokenLock i = some t
  userLock : ∀ u, s.userLock u = some t → s'.userLock u = some t
  held : ∀ (i : RowId) (row : LinkToken), s.tokenLock i = some t → s.rows[i]? = some row →
    s'.rows[i]? = some row
  pending : ∀ (i : RowId) (row : LinkToken) u, s.userLock u = some t → s'.rows[i]? = some row →
    isPending u row = true → s.rows[i]? = some row

section
variable {s s' : State} {t : TxnId} {txn txn' : Txn} {env : Env}

/-- A step that writes no row. -/
theorem Keeps.of_rows (hrows : s'.rows = s.rows)
    (htokens : ∀ i, s.tokenLock i = some t → s'.tokenLock i = some t)
    (husers : ∀ u, s.userLock u = some t → s'.userLock u = some t) : Keeps s s' t where
  tokenLock := htokens
  userLock := husers
  held i row _ h := by rwa [hrows]
  pending i row u _ h _ := by rwa [hrows] at h

theorem Holds.keep {i : RowId} (h : Holds s t i) (hk : Keeps s s' t) : Holds s' t i := by
  obtain ⟨hlock, row, hrow, hpending⟩ := h
  exact ⟨hk.tokenLock i hlock, row, hk.held i row hlock hrow, hpending⟩

theorem Covered.keep {u : UserId} {ids : List RowId} (h : Covered s t u ids)
    (hk : Keeps s s' t) : Covered s' t u ids := by
  obtain ⟨hlock, hcovered⟩ := h
  refine ⟨hk.userLock u hlock, fun i row hrow hpending => ?_⟩
  exact hcovered i row (hk.pending i row u hlock hrow hpending) hpending

theorem PhaseOk.keep (h : PhaseOk s t txn) (hk : Keeps s s' t) : PhaseOk s' t txn := by
  unfold PhaseOk at h ⊢
  split at h
  · exact hk.userLock _ h
  · exact ⟨fun i hi => (h.1 i hi).keep hk, h.2.keep hk⟩
  · exact Covered.keep h hk
  · exact Covered.keep h hk
  · exact hk.tokenLock _ h
  · exact Holds.keep h hk
  · trivial

/-- What holds of a transaction holds of it after a step that keeps what it relies on. -/
theorem TxnOk.keep (h : TxnOk s t txn) (hk : Keeps s s' t) : TxnOk s' t txn where
  phase := h.phase.keep hk
  revokes i hi := (h.revokes i hi).keep hk
  used used hused := (h.used used hused).keep hk
  minted token htoken := (h.minted token htoken).keep hk

/-! ### Steps that write no row -/

/-- What a step before the end of a transaction leaves as it is: the rows, and the locks that are
held. It writes the record of its own transaction. -/
structure Quiet (s s' : State) (t : TxnId) (txn' : Txn) : Prop where
  rows : s'.rows = s.rows
  verified : s'.verified = s.verified
  txns : s'.txns = s.txns.set t txn'
  tokenLock : ∀ i t, s.tokenLock i = some t → s'.tokenLock i = some t
  userLock : ∀ u t, s.userLock u = some t → s'.userLock u = some t

theorem Quiet.setTxn (s : State) (t : TxnId) (txn' : Txn) : Quiet s (s.setTxn t txn') t txn' :=
  ⟨rfl, rfl, rfl, fun _ _ h => h, fun _ _ h => h⟩

/-- A token is locked. -/
theorem Quiet.takeToken {i : RowId} (txn' : Txn) (h : s.tokenLock.mayTake i t = true) :
    Quiet s ({ s with tokenLock := s.tokenLock.take i t }.setTxn t txn') t txn' :=
  ⟨rfl, rfl, rfl, fun _ _ hheld => Locks.held_take h hheld, fun _ _ h => h⟩

/-- A user is locked. -/
theorem Quiet.takeUser {u : UserId} (txn' : Txn) (h : s.userLock.mayTake u t = true) :
    Quiet s ({ s with userLock := s.userLock.take u t }.setTxn t txn') t txn' :=
  ⟨rfl, rfl, rfl, fun _ _ h => h, fun _ _ hheld => Locks.held_take h hheld⟩

theorem Quiet.keeps (hq : Quiet s s' t txn') (t' : TxnId) : Keeps s s' t' :=
  .of_rows hq.rows (fun i => hq.tokenLock i t') (fun u => hq.userLock u t')

/-- A quiet step keeps the invariant when it keeps what holds of its own transaction. -/
theorem Inv.quiet (h : Inv s) (hq : Quiet s s' t txn') (hok : TxnOk s' t txn') : Inv s' where
  txn := by
    rw [hq.txns]
    exact Records.forall_set hok fun t' txn₁ _ h₁ => (h.txn t' txn₁ h₁).keep (hq.keeps t')
  onePending := by
    rw [hq.rows]
    exact h.onePending
  nodup := by
    rw [hq.verified]
    exact h.nodup
  verified := by
    rw [hq.verified, hq.rows]
    exact h.verified

/-- A record with the same writes, in a new phase. -/
theorem TxnOk.move (h : TxnOk s t txn) (hphase : PhaseOk s t txn')
    (hrevokes : txn'.revokes = txn.revokes) (hused : txn'.used = txn.used)
    (hminted : txn'.minted = txn.minted) : TxnOk s t txn' := by
  have hrevoked : txn'.revoked = txn.revoked := by rw [Txn.revoked, hrevokes, Txn.revoked]
  refine ⟨hphase, ?_, ?_, ?_⟩
  · rw [hrevoked]
    exact h.revokes
  · rw [hused]
    exact h.used
  · rw [hminted, hrevoked]
    exact h.minted

/-- A step that only moves the record on, or locks a row. -/
theorem Inv.move (h : Inv s) (ht : s.txns t = some txn) (hq : Quiet s s' t txn')
    (hphase : PhaseOk s' t txn') (hrevokes : txn'.revokes = txn.revokes)
    (hused : txn'.used = txn.used) (hminted : txn'.minted = txn.minted) : Inv s' :=
  h.quiet hq (((h.txn t txn ht).keep (hq.keeps t)).move hphase hrevokes hused hminted)

/-- A new phase, and no lock. -/
theorem Inv.setPhase {phase : Phase} (h : Inv s) (ht : s.txns t = some txn)
    (hphase : PhaseOk s t { txn with phase }) : Inv (s.setTxn t { txn with phase }) := by
  have hq := Quiet.setTxn s t { txn with phase }
  exact h.move ht hq (hphase.keep (hq.keeps t)) rfl rfl rfl

theorem inv_begin {request : Request} (h : Inv s) (hstep : s.begin t request = some s') :
    Inv s' := by
  unfold State.begin at hstep
  split at hstep
  · cases hstep
    have hq : Quiet s ({ s with begun := t :: s.begun }.setTxn t { request }) t { request } :=
      ⟨rfl, rfl, rfl, fun _ _ h => h, fun _ _ h => h⟩
    exact h.quiet hq ⟨trivial, nofun, nofun, nofun⟩
  · cases hstep

theorem inv_admit (h : Inv s) (ht : s.txns t = some txn)
    (hstep : State.checkGuards env s t txn = some s') : Inv s' := by
  unfold State.checkGuards at hstep
  split at hstep
  · simp only [Option.bind_eq_bind, Option.bind_eq_some_iff] at hstep
    obtain ⟨_, -, document, -, _, -, hstep⟩ := hstep
    cases hstep
    exact h.move ht (Quiet.setTxn s t _) trivial rfl rfl rfl
  · cases hstep

theorem inv_locate (h : Inv s) (ht : s.txns t = some txn)
    (hstep : s.locate t txn = some s') : Inv s' := by
  unfold State.locate at hstep
  split at hstep
  · split at hstep <;> cases hstep
    · exact h.setPhase ht trivial
    · apply h.setPhase ht
      split <;> trivial
  · split at hstep <;> cases hstep
    · exact h.setPhase ht trivial
    · apply h.setPhase ht
      split <;> trivial
  · cases hstep

theorem inv_defaultRole (h : Inv s) (ht : s.txns t = some txn)
    (hstep : s.defaultRole t txn = some s') : Inv s' := by
  unfold State.defaultRole at hstep
  split at hstep
  · simp only [Option.bind_eq_bind, Option.bind_eq_some_iff] at hstep
    obtain ⟨_, -, hstep⟩ := hstep
    cases hstep
    exact h.setPhase ht trivial
  · cases hstep

/-- Nobody but the transaction sees the user that it inserted. -/
theorem inv_create {u : UserId} (h : Inv s) (ht : s.txns t = some txn)
    (hstep : State.create env u s t txn = some s') : Inv s' := by
  have hok := h.txn t txn ht
  unfold State.create at hstep
  split at hstep
  · split at hstep
    · cases hstep
      exact h.setPhase ht trivial
    · split at hstep
      · cases hstep
      · rename_i hfresh
        cases hstep
        simp only [Bool.or_eq_true, Bool.not_eq_true', not_or, Bool.not_eq_true,
          Bool.not_eq_false, State.freshUser, Bool.and_eq_true, Option.isNone_iff_eq_none,
          List.all_eq_true, bne_iff_ne] at hfresh
        obtain ⟨-, ⟨-, hfree⟩, hnone⟩ := hfresh
        have hmay : s.userLock.mayTake u t = true := by rw [Locks.mayTake, hfree]
        refine h.move ht (Quiet.takeUser _ hmay) ⟨Locks.take_self _ _ _, ?_⟩ rfl rfl rfl
        intro i row hrow hpending
        exact absurd (isPending_iff.mp hpending).1 (hnone row (List.mem_of_getElem? hrow))
  · cases hstep

theorem inv_lockUser (h : Inv s) (ht : s.txns t = some txn)
    (hstep : s.lockUser t txn = some s') : Inv s' := by
  unfold State.lockUser at hstep
  split at hstep
  · rename_i u status hlocated
    split at hstep
    · split at hstep
      · rename_i hmay
        cases hstep
        refine h.move ht (Quiet.takeUser _ hmay) ?_ rfl rfl rfl
        split
        · exact Locks.take_self _ _ _
        · trivial
      · cases hstep
    · cases hstep
      exact h.setPhase ht trivial
    · cases hstep
  · cases hstep

/-- The rows that `selectPending` finds are the PENDING ones of the user. -/
theorem mem_selectPending {rows : List LinkToken} {u : UserId} {i : RowId} {row : LinkToken}
    (hrow : rows[i]? = some row) (hpending : isPending u row = true) :
    i ∈ selectPending rows u := by
  have hi : i < rows.length := (List.getElem?_eq_some_iff.mp hrow).1
  rw [selectPending, List.mem_filter]
  exact ⟨List.mem_range.mpr hi, by rw [hrow]; exact hpending⟩

/-- Behind the lock of the user the statement finds every PENDING token. -/
theorem inv_beginRevoke (h : Inv s) (ht : s.txns t = some txn)
    (hstep : s.beginRevoke t txn = some s') : Inv s' := by
  have hphase := (h.txn t txn ht).phase
  unfold State.beginRevoke at hstep
  split at hstep
  · rename_i u hloaded
    simp only [PhaseOk, hloaded] at hphase
    cases hstep
    refine h.setPhase ht ⟨nofun, hphase, ?_⟩
    intro i row hrow hpending
    rw [List.append_nil]
    exact mem_selectPending hrow hpending
  · cases hstep

theorem inv_lockToken (h : Inv s) (ht : s.txns t = some txn)
    (hstep : s.lockToken t txn = some s') : Inv s' := by
  have hphase := (h.txn t txn ht).phase
  unfold State.lockToken at hstep
  split at hstep
  · rename_i u i wanted got hlocking
    simp only [PhaseOk, hlocking] at hphase
    obtain ⟨hgot, hlock, hcovered⟩ := hphase
    split at hstep
    · rename_i hmay
      split at hstep
      · rename_i hfound
        cases hstep
        have hq := Quiet.takeToken { txn with phase := .locking u wanted (i :: got) } hmay
        refine h.move ht hq ⟨?_, hq.userLock u t hlock, ?_⟩ rfl rfl rfl
        · intro j hj
          rcases List.mem_cons.mp hj with rfl | hj
          · obtain ⟨row, hrow, hpending⟩ := (Option.any_eq_true _ _).mp hfound
            exact ⟨Locks.take_self _ _ _, row, hrow, (isPending_iff.mp hpending).2⟩
          · exact (hgot j hj).keep (hq.keeps t)
        · intro j row hrow hpending
          have hmem := hcovered j row hrow hpending
          simpa [or_left_comm] using hmem
      · rename_i hpassed
        cases hstep
        refine h.setPhase ht ⟨hgot, hlock, ?_⟩
        intro j row hrow hpending
        rcases List.mem_cons.mp (hcovered j row hrow hpending) with rfl | hmem
        · -- A row that is passed over is not PENDING.
          rw [hrow] at hpassed
          exact absurd hpending hpassed
        · exact hmem
    · cases hstep
  · cases hstep

/-- The rows that were locked are REVOKED, and so all that were PENDING. -/
theorem inv_revoke (h : Inv s) (ht : s.txns t = some txn)
    (hstep : s.revoke t txn = some s') : Inv s' := by
  have hok := h.txn t txn ht
  have hphase := hok.phase
  unfold State.revoke at hstep
  split at hstep
  · rename_i u got hlocking
    simp only [PhaseOk, hlocking, List.nil_append] at hphase
    obtain ⟨hgot, hlock, hcovered⟩ := hphase
    cases hstep
    have hrevoked (i : RowId) : i ∈ (txn.revokes ++ got.map fun i => (i, s.now)).map Prod.fst ↔
        i ∈ txn.revoked ∨ i ∈ got := by
      simp [Txn.revoked]
    refine h.quiet (Quiet.setTxn s t _) ⟨⟨hlock, ?_⟩, ?_, hok.used, ?_⟩
    · intro i row hrow hpending
      exact (hrevoked i).mpr (Or.inr (hcovered i row hrow hpending))
    · intro i hi
      rcases (hrevoked i).mp hi with hold | hnew
      · exact hok.revokes i hold
      · exact hgot i hnew
    · intro token htoken
      obtain ⟨hlock', hcovered'⟩ := hok.minted token htoken
      refine ⟨hlock', fun i row hrow hpending => ?_⟩
      exact (hrevoked i).mpr (Or.inl (hcovered' i row hrow hpending))
  · cases hstep

theorem inv_readTtl (h : Inv s) (ht : s.txns t = some txn)
    (hstep : s.readTtl t txn = some s') : Inv s' := by
  have hphase := (h.txn t txn ht).phase
  unfold State.readTtl at hstep
  split at hstep
  · rename_i u email hrevoked hrequest
    simp only [PhaseOk, hrevoked] at hphase
    cases hstep
    exact h.setPhase ht hphase
  · rename_i u hrevoked hrequest
    simp only [PhaseOk, hrevoked] at hphase
    cases hstep
    exact h.setPhase ht hphase
  · cases hstep

theorem inv_mint {raw : String} (h : Inv s) (ht : s.txns t = some txn)
    (hstep : State.mint env raw s t txn = some s') : Inv s' := by
  have hok := h.txn t txn ht
  have hphase := hok.phase
  unfold State.mint at hstep
  split at hstep
  · rename_i u ttlHours hissuing
    simp only [PhaseOk, hissuing] at hphase
    split at hstep
    · cases hstep
    · cases hstep
      refine h.quiet (Quiet.setTxn s t _) ⟨trivial, hok.revokes, hok.used, ?_⟩
      intro token htoken
      cases htoken
      exact hphase
  · cases hstep

theorem inv_findVerification (h : Inv s) (ht : s.txns t = some txn)
    (hstep : State.findVerification env s t txn = some s') : Inv s' := by
  unfold State.findVerification at hstep
  split at hstep
  · split at hstep
    · cases hstep
      exact h.setPhase ht trivial
    · cases hstep
  · cases hstep

theorem inv_lockVerification (h : Inv s) (ht : s.txns t = some txn)
    (hstep : s.lockVerification t txn = some s') : Inv s' := by
  unfold State.lockVerification at hstep
  split at hstep
  · split at hstep
    · rename_i hmay
      cases hstep
      exact h.move ht (Quiet.takeToken _ hmay) (Locks.take_self _ _ _) rfl rfl rfl
    · cases hstep
  · cases hstep

/-- The token that passes the check is PENDING, and locked. -/
theorem inv_checkVerification (h : Inv s) (ht : s.txns t = some txn)
    (hstep : s.checkVerification t txn = some s') : Inv s' := by
  have hphase := (h.txn t txn ht).phase
  unfold State.checkVerification at hstep
  split at hstep
  · rename_i i hheld
    simp only [PhaseOk, hheld] at hphase
    split at hstep
    · rename_i row hrow
      split at hstep
      · rename_i hpending
        cases hstep
        exact h.setPhase ht ⟨hphase, row, hrow, (LinkToken.effective_eq_pending.mp hpending).1⟩
      · cases hstep
    · cases hstep
  · cases hstep

theorem inv_activate (h : Inv s) (ht : s.txns t = some txn)
    (hstep : s.activate t txn = some s') : Inv s' := by
  have hok := h.txn t txn ht
  have hphase := hok.phase
  unfold State.activate at hstep
  split at hstep
  · rename_i i u hchecked
    simp only [PhaseOk, hchecked] at hphase
    split at hstep
    · rename_i hfree
      cases hstep
      simp only [Bool.and_eq_true] at hfree
      have hq := Quiet.takeUser { txn with phase := .ready, used := some (i, u) } hfree.2
      have hok' := hok.keep (hq.keeps t)
      refine h.quiet hq ⟨trivial, hok'.revokes, ?_, hok'.minted⟩
      intro used hused
      cases hused
      exact Holds.keep hphase (hq.keeps t)
    · cases hstep
  · cases hstep

/-! ### The end of a transaction -/

theorem getElem?_written_of_lt {i : RowId} (hi : i < s.rows.length) :
    (s.written txn)[i]? = (s.rows[i]?).map (State.writtenRow txn i) := by
  rw [State.written, List.getElem?_append_left (by simpa using hi), List.getElem?_mapIdx]

/-- A row after a commit is an old one, as it was written, or the inserted token. -/
theorem of_getElem?_written {i : RowId} {row : LinkToken}
    (hrow : (s.written txn)[i]? = some row) :
    (∃ row₀, s.rows[i]? = some row₀ ∧ State.writtenRow txn i row₀ = row) ∨
      (i = s.rows.length ∧ txn.minted = some row) := by
  by_cases hi : i < s.rows.length
  · rw [getElem?_written_of_lt hi] at hrow
    exact Or.inl (Option.map_eq_some_iff.mp hrow)
  · rw [State.written, List.getElem?_append_right (by simpa using hi), List.length_mapIdx] at hrow
    cases hminted : txn.minted with
    | none => simp [hminted] at hrow
    | some token =>
      rw [hminted, Option.toList_some, List.getElem?_singleton] at hrow
      split at hrow
      · rename_i hzero
        cases hrow
        exact Or.inr ⟨Nat.le_antisymm (Nat.sub_eq_zero_iff_le.mp hzero) (not_lt.mp hi), rfl⟩
      · cases hrow

/-- A row that the transaction neither revoked nor used stays. -/
theorem writtenRow_eq {i : RowId} {row : LinkToken} (hrevoked : i ∉ txn.revoked)
    (hused : ∀ used ∈ txn.used, used.1 ≠ i) : State.writtenRow txn i row = row := by
  have hnone : (txn.used.any fun used => used.1 == i) = false := by
    cases hsome : txn.used with
    | none => rfl
    | some used => simpa using hused used hsome
  rw [State.writtenRow, if_neg (by simp [hnone]), lookup_eq_none_iff.mpr hrevoked]

/-- A row that is still PENDING was not touched. -/
theorem writtenRow_pending {i : RowId} {row : LinkToken}
    (h : (State.writtenRow txn i row).status = .pending) :
    i ∉ txn.revoked ∧ State.writtenRow txn i row = row := by
  unfold State.writtenRow at h ⊢
  split at h
  · cases h
  · split at h
    · cases h
    · rename_i hused _ hlookup
      rw [if_neg hused]
      exact ⟨lookup_eq_none_iff.mp hlookup, rfl⟩

/-- A row that another transaction holds is not written. -/
theorem writtenRow_of_lock {i : RowId} {row : LinkToken} {t' : TxnId} (hok : TxnOk s t txn)
    (hne : t' ≠ t) (hlock : s.tokenLock i = some t') : State.writtenRow txn i row = row := by
  have hother (hholds : Holds s t i) : False :=
    hne (Option.some.inj (hlock.symm.trans hholds.1))
  apply writtenRow_eq
  · exact fun hi => hother (hok.revokes i hi)
  · rintro used hused rfl
    exact hother (hok.used used hused)

/-- A VERIFIED row is held by nobody who would write it. -/
theorem writtenRow_used {i : RowId} {row : LinkToken} (hok : TxnOk s t txn)
    (hrow : s.rows[i]? = some row) (hused : row.status = .used) :
    State.writtenRow txn i row = row := by
  have hnot (hholds : Holds s t i) : False := by
    obtain ⟨-, row', hrow', hpending⟩ := hholds
    rw [hrow] at hrow'
    cases hrow'
    rw [hused] at hpending
    cases hpending
  apply writtenRow_eq
  · exact fun hi => hnot (hok.revokes i hi)
  · rintro used hmem rfl
    exact hnot (hok.used used hmem)

/-- A commit leaves to the others what they rely on: they hold other tokens, and the inserted
token is one of a user that they do not hold. -/
theorem keeps_commit {db : Directory} {verified : List RowId} (hok : TxnOk s t txn) {t' : TxnId}
    (hne : t' ≠ t) : Keeps s ({ s with db, rows := s.written txn, verified }.finish t) t' where
  tokenLock i hlock := Locks.held_release hne hlock
  userLock u hlock := Locks.held_release hne hlock
  held i row hlock hrow := by
    have hi : i < s.rows.length := (List.getElem?_eq_some_iff.mp hrow).1
    show (s.written txn)[i]? = some row
    rw [getElem?_written_of_lt hi, hrow, Option.map_some, writtenRow_of_lock hok hne hlock]
  pending i row u hlock hrow hpending := by
    obtain ⟨huser, hstatus⟩ := isPending_iff.mp hpending
    rcases of_getElem?_written hrow with ⟨row₀, hrow₀, rfl⟩ | ⟨-, hminted⟩
    · rw [(writtenRow_pending hstatus).2]
      exact hrow₀
    · have hown := (hok.minted row hminted).1
      rw [huser, hlock] at hown
      exact absurd (Option.some.inj hown) hne

/-- What ends a transaction keeps the invariant when it keeps what holds of the rows. -/
theorem Inv.finish {s₁ : State} (h : Inv s) (htxns : s₁.txns = s.txns)
    (hkeeps : ∀ t', t' ≠ t → Keeps s (s₁.finish t) t')
    (hone : ∀ (i j : RowId) (a b : LinkToken), s₁.rows[i]? = some a → s₁.rows[j]? = some b →
      a.user = b.user → a.status = .pending → b.status = .pending → i = j)
    (hnodup : s₁.verified.Nodup)
    (hverified : ∀ i ∈ s₁.verified, ∃ row : LinkToken, s₁.rows[i]? = some row ∧
      row.status = .used) : Inv (s₁.finish t) where
  txn := by
    show ∀ t' txn', s₁.txns.drop t t' = some txn' → TxnOk (s₁.finish t) t' txn'
    rw [htxns]
    exact Records.forall_drop fun t' txn' hne h' => (h.txn t' txn' h').keep (hkeeps t' hne)
  onePending := hone
  nodup := hnodup
  verified := hverified

theorem inv_abort (h : Inv s) : Inv (s.finish t) := by
  apply h.finish rfl _ h.onePending h.nodup h.verified
  intro t' hne
  exact .of_rows rfl (fun _ hlock => Locks.held_release hne hlock)
    (fun _ hlock => Locks.held_release hne hlock)

/-- The inserted token is the only PENDING one of its user: the transaction has revoked the
others. -/
theorem onePending_commit (h : Inv s) (hok : TxnOk s t txn) {i j : RowId} {a b : LinkToken}
    (ha : (s.written txn)[i]? = some a) (hb : (s.written txn)[j]? = some b)
    (huser : a.user = b.user) (hap : a.status = .pending) (hbp : b.status = .pending) :
    i = j := by
  have hbeside {k : RowId} {row token : LinkToken} (hrow : s.rows[k]? = some row)
      (hwritten : (State.writtenRow txn k row).status = .pending)
        (hminted : txn.minted = some token)
      (hsame : (State.writtenRow txn k row).user = token.user) : False := by
    obtain ⟨hrevoked, hrow'⟩ := writtenRow_pending hwritten
    rw [hrow'] at hwritten hsame
    have hcovered := (hok.minted token hminted).2
    exact hrevoked (hcovered k row hrow (isPending_iff.mpr ⟨hsame, hwritten⟩))
  rcases of_getElem?_written ha with ⟨a₀, ha₀, rfl⟩ | ⟨hi, hma⟩
  · rcases of_getElem?_written hb with ⟨b₀, hb₀, rfl⟩ | ⟨-, hmb⟩
    · rw [(writtenRow_pending hap).2] at huser hap
      rw [(writtenRow_pending hbp).2] at huser hbp
      exact h.onePending i j a₀ b₀ ha₀ hb₀ huser hap hbp
    · exact (hbeside ha₀ hap hmb huser).elim
  · rcases of_getElem?_written hb with ⟨b₀, hb₀, rfl⟩ | ⟨hj, -⟩
    · exact (hbeside hb₀ hbp hma huser.symm).elim
    · rw [hi, hj]

/-- The token that verified an account is a new one on the list, and VERIFIED. -/
theorem verified_commit (h : Inv s) (hok : TxnOk s t txn) :
    ((txn.used.map Prod.fst).toList ++ s.verified).Nodup ∧
      ∀ i ∈ (txn.used.map Prod.fst).toList ++ s.verified,
        ∃ row : LinkToken, (s.written txn)[i]? = some row ∧ row.status = .used := by
  have hold (i : RowId) (hi : i ∈ s.verified) :
      ∃ row : LinkToken, (s.written txn)[i]? = some row ∧ row.status = .used := by
    obtain ⟨row, hrow, hused⟩ := h.verified i hi
    have hlt : i < s.rows.length := (List.getElem?_eq_some_iff.mp hrow).1
    refine ⟨row, ?_, hused⟩
    rw [getElem?_written_of_lt hlt, hrow, Option.map_some, writtenRow_used hok hrow hused]
  cases hsome : txn.used with
  | none => exact ⟨h.nodup, hold⟩
  | some used =>
    obtain ⟨-, row, hrow, hpending⟩ := hok.used used hsome
    have hlt : used.1 < s.rows.length := (List.getElem?_eq_some_iff.mp hrow).1
    constructor
    · refine List.nodup_cons.mpr ⟨fun hmem => ?_, h.nodup⟩
      obtain ⟨row', hrow', hused⟩ := h.verified used.1 hmem
      rw [hrow] at hrow'
      cases hrow'
      rw [hused] at hpending
      cases hpending
    · intro i hi
      rcases List.mem_cons.mp hi with rfl | hi
      · refine ⟨row.consume, ?_, rfl⟩
        rw [getElem?_written_of_lt hlt, hrow, Option.map_some, State.writtenRow, hsome, if_pos]
        exact beq_self_eq_true used.1
      · exact hold i hi

theorem inv_commit (h : Inv s) (ht : s.txns t = some txn) (hstep : s.commit t txn = some s') :
    Inv s' := by
  have hok := h.txn t txn ht
  unfold State.commit at hstep
  split at hstep
  · cases hstep
    obtain ⟨hnodup, hverified⟩ := verified_commit h hok
    refine h.finish rfl (fun _ hne => ?_) (fun i j a b ha hb huser hap hbp => ?_) ?_ ?_
    · exact keeps_commit hok hne
    · exact onePending_commit h hok ha hb huser hap hbp
    · exact hnodup
    · exact hverified
  · cases hstep

/-- What the other services write, and the clock, no transaction relies on. -/
theorem Inv.environment {db : Directory} {platform : PlatformSettings} {terms : Option Nat}
    {now : Nat} (h : Inv s) : Inv { s with db, platform, terms, now } where
  txn t txn ht := (h.txn t txn ht).keep (.of_rows rfl (fun _ h => h) (fun _ h => h))
  onePending := h.onePending
  nodup := h.nodup
  verified := h.verified

/-- Every step keeps what holds in the reachable states. -/
theorem inv_step {l : Label} (h : Inv s) (hstep : step env s l = some s') : Inv s' := by
  cases l with
  | tick =>
    cases hstep
    exact h.environment
  | identity db platform terms =>
    cases hstep
    exact h.environment
  | begin t request => exact inv_begin h hstep
  | abort t =>
    obtain ⟨txn, -, hstep⟩ := Option.map_eq_some_iff.mp hstep
    cases hstep
    exact inv_abort h
  | checkGuards t =>
    obtain ⟨txn, ht, hstep⟩ := Option.bind_eq_some_iff.mp hstep
    exact inv_admit h ht hstep
  | locate t =>
    obtain ⟨txn, ht, hstep⟩ := Option.bind_eq_some_iff.mp hstep
    exact inv_locate h ht hstep
  | defaultRole t =>
    obtain ⟨txn, ht, hstep⟩ := Option.bind_eq_some_iff.mp hstep
    exact inv_defaultRole h ht hstep
  | create t u =>
    obtain ⟨txn, ht, hstep⟩ := Option.bind_eq_some_iff.mp hstep
    exact inv_create h ht hstep
  | lockUser t =>
    obtain ⟨txn, ht, hstep⟩ := Option.bind_eq_some_iff.mp hstep
    exact inv_lockUser h ht hstep
  | beginRevoke t =>
    obtain ⟨txn, ht, hstep⟩ := Option.bind_eq_some_iff.mp hstep
    exact inv_beginRevoke h ht hstep
  | lockToken t =>
    obtain ⟨txn, ht, hstep⟩ := Option.bind_eq_some_iff.mp hstep
    exact inv_lockToken h ht hstep
  | revoke t =>
    obtain ⟨txn, ht, hstep⟩ := Option.bind_eq_some_iff.mp hstep
    exact inv_revoke h ht hstep
  | readTtl t =>
    obtain ⟨txn, ht, hstep⟩ := Option.bind_eq_some_iff.mp hstep
    exact inv_readTtl h ht hstep
  | mint t raw =>
    obtain ⟨txn, ht, hstep⟩ := Option.bind_eq_some_iff.mp hstep
    exact inv_mint h ht hstep
  | findVerification t =>
    obtain ⟨txn, ht, hstep⟩ := Option.bind_eq_some_iff.mp hstep
    exact inv_findVerification h ht hstep
  | lockVerification t =>
    obtain ⟨txn, ht, hstep⟩ := Option.bind_eq_some_iff.mp hstep
    exact inv_lockVerification h ht hstep
  | checkVerification t =>
    obtain ⟨txn, ht, hstep⟩ := Option.bind_eq_some_iff.mp hstep
    exact inv_checkVerification h ht hstep
  | activate t =>
    obtain ⟨txn, ht, hstep⟩ := Option.bind_eq_some_iff.mp hstep
    exact inv_activate h ht hstep
  | commit t =>
    obtain ⟨txn, ht, hstep⟩ := Option.bind_eq_some_iff.mp hstep
    exact inv_commit h ht hstep

end

/-! ### Runs -/

theorem inv_start {s : State} (h : Start s) : Inv s where
  txn t txn ht := by
    rw [h.txns t] at ht
    cases ht
  onePending i j a b ha := by
    rw [h.rows] at ha
    cases ha
  nodup := by
    rw [h.verified]
    exact List.nodup_nil
  verified i hi := by
    rw [h.verified] at hi
    cases hi

/-- In every interleaving an account has at most one live verification token, in every state and
so in those without an open transaction, and no token verifies an account twice. -/
theorem one_live_verification (env : Env) (s₀ s : State) (ls : List Label) (hstart : Start s₀)
    (hrun : run (step env) s₀ ls = some s) : OneLiveLink s ∧ s.verified.Nodup := by
  have hinv := run_invariant (fun _ _ _ h hstep => inv_step h hstep) (inv_start hstart) hrun
  refine ⟨?_, hinv.nodup⟩
  intro i j a b ha hb huser halive hblive
  exact hinv.onePending i j a b ha hb huser (LinkToken.effective_eq_pending.mp halive).1
    (LinkToken.effective_eq_pending.mp hblive).1

/-! ### Runs of a deployment -/

/-- A deployment before the first signup. -/
def deployed : State where
  db := Accounts.deployed.db
  now := 1000

theorem start_deployed : Start deployed := ⟨rfl, rfl, fun _ => rfl⟩

/-- The form of a signup. -/
def form : SignupForm := { password := "correct horse" }

/-- A signup of a new account, then a registration and a resend that both pass their check before
either locks the account, and then a verification. -/
def signups : List Label :=
  [.begin 1 (.register "ann@example.com" form), .checkGuards 1, .locate 1,
    .defaultRole 1, .create 1 7, .readTtl 1, .mint 1 "a", .commit 1,
    .begin 2 (.register "ann@example.com" form), .checkGuards 2,
    .begin 3 (.resend "ann@example.com"), .locate 2, .locate 3, .lockUser 2, .beginRevoke 2,
    .lockToken 2, .revoke 2, .readTtl 2, .mint 2 "b", .commit 2, .lockUser 3, .beginRevoke 3,
    .lockToken 3, .revoke 3, .readTtl 3, .mint 3 "c", .commit 3, .begin 4 (.verify "c"),
    .findVerification 4, .lockVerification 4, .checkVerification 4, .activate 4, .commit 4]

/-- Three links for one account, of which one verifies it. -/
theorem one_live_verification_signups :
    ∃ s, run (step Accounts.plainEnv) deployed signups = some s ∧
    s.rows.length = 3 ∧ s.verified = [2] ∧ OneLiveLink s := by
  have hany : (run (step Accounts.plainEnv) deployed signups).any
      (fun s => s.rows.length == 3 && s.verified == [2]) = true := by decide +kernel
  obtain ⟨s, hrun, hcheck⟩ := exists_run_of_any hany
  simp only [Bool.and_eq_true, beq_iff_eq] at hcheck
  exact ⟨s, hrun, hcheck.1, hcheck.2,
    (one_live_verification Accounts.plainEnv deployed s signups start_deployed hrun).1⟩

end RedTeaming.Auth.Signups
