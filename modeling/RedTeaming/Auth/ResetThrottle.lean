import RedTeaming.Auth.Resets

/-!
# `RedTeaming.Auth.ResetThrottle`: the limits of the self-service reset

`_throttle_reason` counts the tokens of the user that were created in the last 24 hours, and reads
the last of them. The count and the insert are two statements. What joins them is the row of the
user: a self-service request holds it from before the check to its commit, so no token of the user
is committed between (`Recorded.Passed`).

`created_at` is the start of the transaction, and the check compares with the start of its own
one. So the check is exact whatever the order in which two transactions start and lock. An admin's
send takes no part in the limits, but its tokens count.

`reset_throttle` says that the limits hold of every interleaving. The runs are those of `step`. A
`Recorded` state adds the issued tokens to a run, each with the rows that its check read.
-/

set_option autoImplicit false

namespace RedTeaming.Auth.Resets

open RedTeaming.Library

/-- A committed token of a self-service request, with the rows that were committed at its
check. -/
structure Issue where
  token : LinkToken
  checked : List LinkToken

/-- A state with its history: the rows at the check of each transaction, and the issued tokens in
the order of the commits. -/
structure Recorded where
  state : State
  checked : TxnId → List LinkToken := fun _ => []
  issues : List Issue := []

/-- What a commit issues. An admin's send issues nothing. -/
def Txn.issued (txn : Txn) (checked : List LinkToken) : List Issue :=
  if txn.request.selfService then txn.minted.map fun m => ⟨m.token, checked⟩ else []

/-- Note a step that was taken. -/
def Recorded.note (r : Recorded) (s : State) : Label → Recorded
  | .throttle t =>
    { r with state := s, checked := Function.update r.checked t r.state.rows }
  | .commit t =>
    let issued := (r.state.txns t).elim [] fun txn => txn.issued (r.checked t)
    { r with state := s, issues := r.issues ++ issued }
  | _ => { r with state := s }

/-- One step, noted. -/
def record (env : Env) (r : Recorded) (l : Label) : Option Recorded :=
  (step env r.state l).map fun s => r.note s l

/-- The self-service tokens that a run issues. -/
def issues (env : Env) (s₀ : State) (ls : List Label) : List Issue :=
  (run (record env) { state := s₀ } ls).elim [] Recorded.issues

/-- What the throttle reads of a token: who it is for, and when it was created. -/
structure LinkKey where
  user : UserId
  createdAt : Nat

/-- The key of a token. -/
def linkKey (token : LinkToken) : LinkKey := ⟨token.user, token.createdAt⟩

/-- The token is one of the user, created in the 24 hours from `a` on. -/
def inDay (u : UserId) (a : Nat) (key : LinkKey) : Bool :=
  key.user == u && decide (a ≤ key.createdAt) && decide (key.createdAt < a + Accounts.day)

theorem inDay_iff {u : UserId} {a : Nat} {key : LinkKey} : inDay u a key = true ↔
    key.user = u ∧ a ≤ key.createdAt ∧ key.createdAt < a + Accounts.day := by
  simp [inDay, and_assoc]

/-- The limits of the self-service reset, for a cooldown and a daily maximum. -/
structure Throttled (cooldown maxPerDay : Nat) (issues : List Issue) : Prop where
  /-- No 24 hours hold more than the maximum. -/
  window : ∀ u a, (issues.map fun i => linkKey i.token).countP (inDay u a) ≤ maxPerDay
  /-- Two tokens of a user are the cooldown apart. -/
  apart : issues.Pairwise fun i j =>
    i.token.user = j.token.user → i.token.createdAt + cooldown ≤ j.token.createdAt
  /-- Each token is the cooldown after every one that was committed before its check, of an admin
  too. -/
  checked : ∀ i ∈ issues, ∀ row ∈ i.checked, row.user = i.token.user →
    row.createdAt + cooldown ≤ i.token.createdAt

/-! ### A self-service request, step by step -/

/-- What holds of the record of a self-service request: it has inserted nothing before its check
passed, and one token after it. `P` holds of the users whose check it passed. -/
def Txn.Progress (P : UserId → Prop) (txn : Txn) : Prop :=
  match txn.phase with
  | .loaded u | .locking u _ _ _ | .revoked u _ => txn.minted = [] ∧ P u
  | .ready => txn.minted = [] ∨
      ∃ m, txn.minted = [m] ∧ m.token.createdAt = txn.startedAt ∧ P m.token.user
  | _ => txn.minted = []

/-- What a step makes of the record of a self-service request: it stays, it is a new one, or it
has made progress. Only the check decides of a user. -/
def Advances (s : State) (l : Label) (t : TxnId) (txn' : Txn) : Prop :=
  ∀ P : UserId → Prop,
    (∀ txn, s.txns t = some txn → txn.startedAt = txn'.startedAt → txn.request = txn'.request →
      txn.Progress P) →
    (∀ txn u, s.txns t = some txn → txn.startedAt = txn'.startedAt → l = .throttle t →
      txn.phase = .locked u → s.throttled txn u = false → P u) → txn'.Progress P

section
variable {s s₁ s' : State} {l : Label} {t t₁ : TxnId} {txn txn' new : Txn} {env : Env}

/-- A record that the step does not write stays. -/
theorem Advances.stay (ht : s.txns t = some txn') : Advances s l t txn' := by
  intro P hbefore _
  exact hbefore txn' ht rfl rfl

/-- The step writes the record of `t₁`. -/
theorem Advances.write (h : (s₁.setTxn t₁ new).txns t = some txn') (ht₁ : s.txns t₁ = some txn)
    (htxns : s₁.txns = s.txns) (hstarted : new.startedAt = txn.startedAt)
    (hrequest : new.request = txn.request)
    (hnew : ∀ P : UserId → Prop, txn.Progress P → (∀ u, l = .throttle t₁ → txn.phase = .locked u →
      s.throttled txn u = false → P u) → new.Progress P) : Advances s l t txn' := by
  rcases setTxn_txns h with ⟨rfl, rfl⟩ | ⟨-, h⟩
  · intro P hbefore hcheck
    apply hnew P (hbefore txn ht₁ hstarted.symm hrequest.symm)
    intro u hl hphase hpass
    exact hcheck txn u ht₁ hstarted.symm hl hphase hpass
  · rw [htxns] at h
    exact .stay h

/-- A request starts without a token. -/
theorem advances_begin {request : Request} (hstep : s.begin t₁ request = some s')
    (hself : txn'.request.selfService = true) (ht : s'.txns t = some txn') :
    Advances s l t txn' := by
  unfold State.begin at hstep
  split at hstep
  · cases hstep
    rcases setTxn_txns ht with ⟨rfl, rfl⟩ | ⟨-, h⟩
    · intro P _ _
      cases request with
      | requestReset email => rfl
      | _ => cases hself
    · exact .stay h
  · cases hstep

/-- Only a send takes a user without a check. -/
theorem advances_loadUser (h : Inv s) (ht₁ : s.txns t₁ = some txn)
    (hstep : s.loadUser t₁ txn = some s') (hself : txn'.request.selfService = true)
    (ht : s'.txns t = some txn') : Advances s l t txn' := by
  have hsend : txn.todo ≠ [] → txn.request.selfService = false := by
    intro htodo
    by_contra hyes
    exact htodo ((h.txn t₁ txn ht₁).todo (by simpa using hyes))
  unfold State.loadUser at hstep
  split at hstep
  · rename_i u todo hready htodo
    have hno : txn.request.selfService = false := hsend (by simp [htodo])
    have hother (new : Txn) (hrequest : new.request = txn.request)
        (hnew : (s.setTxn t₁ new).txns t = some txn') : Advances s l t txn' := by
      rcases setTxn_txns hnew with ⟨rfl, rfl⟩ | ⟨-, hold⟩
      · rw [hrequest, hno] at hself
        cases hself
      · exact .stay hold
    split at hstep
    · cases hstep
      apply hother _ _ ht
      rfl
    · cases hstep
      apply hother _ _ ht
      rfl
    · cases hstep
  · cases hstep

/-- The check, and nothing else, lets a user pass. -/
theorem advances_step (h : Inv s) (hstep : step env s l = some s')
    (hself : txn'.request.selfService = true) (ht : s'.txns t = some txn') :
    Advances s l t txn' := by
  cases l with
  | tick | identity db platform =>
    cases hstep
    exact .stay ht
  | begin t₁ request => exact advances_begin hstep hself ht
  | commit t₁ =>
    obtain ⟨txn, -, hstep⟩ := Option.bind_eq_some_iff.mp hstep
    unfold State.commit at hstep
    split at hstep
    · split at hstep <;> cases hstep <;> exact .stay (finish_txns ht).2
    · cases hstep
  | abort t₁ =>
    obtain ⟨txn, -, hstep⟩ := Option.map_eq_some_iff.mp hstep
    cases hstep
    exact .stay (finish_txns ht).2
  | throttle t₁ =>
    obtain ⟨txn, ht₁, hstep⟩ := Option.bind_eq_some_iff.mp hstep
    unfold State.throttle at hstep
    split at hstep
    · rename_i u hlocked
      cases hstep
      refine Advances.write ht ht₁ rfl rfl rfl ?_
      intro P hprogress hcheck
      simp only [Txn.Progress, hlocked] at hprogress
      -- A throttled request goes on without a link, and any other one has passed the check.
      cases hthrottled : s.throttled txn u with
      | true => exact Or.inl hprogress
      | false => exact ⟨hprogress, hcheck u rfl hlocked hthrottled⟩
    · cases hstep
  | loadUser t₁ =>
    obtain ⟨txn, ht₁, hstep⟩ := Option.bind_eq_some_iff.mp hstep
    exact advances_loadUser h ht₁ hstep hself ht
  | checkReset t₁ =>
    obtain ⟨txn, ht₁, hstep⟩ := Option.bind_eq_some_iff.mp hstep
    unfold State.checkReset at hstep
    split at hstep
    · rename_i i raw password hheld hrequest
      simp only [Option.bind_eq_bind, Option.bind_eq_some_iff] at hstep
      obtain ⟨_, _, _, _, _, _, _, _, hstep⟩ := hstep
      cases hstep
      refine Advances.write ht ht₁ rfl rfl rfl ?_
      intro P hprogress _
      simpa only [Txn.Progress, hheld] using hprogress
    · cases hstep
  -- The other statements leave what the check has said.
  | _ t₁ =>
    obtain ⟨txn, ht₁, hstep⟩ := Option.bind_eq_some_iff.mp hstep
    simp only [State.locate, State.lockUser, State.beginRevoke, State.lockToken, State.revoke,
      State.mint, State.findReset, State.lockReset, State.useReset] at hstep
    repeat' split at hstep
    all_goals first
      | cases hstep; done
      | cases hstep
        refine Advances.write ht ht₁ rfl rfl rfl ?_
        intro P hprogress _
        simp_all [Txn.Progress]

/-- Only another service writes the settings. -/
theorem platform_of_step (hl : ∀ db platform, l ≠ .identity db platform)
    (hstep : step env s l = some s') : s'.platform = s.platform := by
  cases l with
  | identity db platform => exact absurd rfl (hl db platform)
  | tick =>
    cases hstep
    rfl
  | abort t =>
    obtain ⟨txn, -, hstep⟩ := Option.map_eq_some_iff.mp hstep
    cases hstep
    rfl
  | begin t request =>
    simp only [step, State.begin] at hstep
    split at hstep <;> cases hstep
    rfl
  | checkReset t =>
    obtain ⟨txn, -, hstep⟩ := Option.bind_eq_some_iff.mp hstep
    unfold State.checkReset at hstep
    split at hstep
    · simp only [Option.bind_eq_bind, Option.bind_eq_some_iff] at hstep
      obtain ⟨_, _, _, _, _, _, _, _, hstep⟩ := hstep
      cases hstep
      rfl
    · cases hstep
  | _ t =>
    obtain ⟨txn, -, hstep⟩ := Option.bind_eq_some_iff.mp hstep
    simp only [State.locate, State.lockUser, State.throttle, State.loadUser, State.beginRevoke,
      State.lockToken, State.revoke, State.mint, State.findReset, State.lockReset,
      State.useReset, State.commit] at hstep
    repeat' split at hstep
    all_goals first
      | cases hstep; done
      | cases hstep; rfl

/-- A commit leaves the users and the times of the rows, and adds the inserted tokens. -/
theorem map_linkKey_written (s : State) (txn : Txn) : (s.written txn).map linkKey =
    s.rows.map linkKey ++ txn.minted.map fun m => linkKey m.token := by
  have hrow (i : RowId) (row : LinkToken) :
      linkKey (State.writtenRow txn i row) = linkKey row := by
    unfold State.writtenRow
    split
    · rfl
    · split <;> rfl
  have hrows : (s.rows.mapIdx (State.writtenRow txn)).map linkKey = s.rows.map linkKey := by
    apply List.ext_getElem?
    intro i
    rw [List.getElem?_map, List.getElem?_mapIdx, Option.map_map, List.getElem?_map]
    exact congrArg (fun f => (s.rows[i]?).map f) (funext (hrow i))
  rw [State.written, List.map_append, hrows, List.map_map]
  rfl

end

/-! ### The limits in every state of a run -/

/-- The tokens that were issued, as the throttle reads them. -/
def Recorded.keys (r : Recorded) : List LinkKey := r.issues.map fun i => linkKey i.token

/-- The token is one of the user, and in the window of a check at `startedAt`. -/
def recent (u : UserId) (startedAt : Nat) (key : LinkKey) : Bool :=
  key.user == u && decide (startedAt < key.createdAt + Accounts.day)

theorem recent_iff {u : UserId} {startedAt : Nat} {key : LinkKey} :
    recent u startedAt key = true ↔ key.user = u ∧ startedAt < key.createdAt + Accounts.day := by
  simp [recent]

section
variable (cooldown maxPerDay : Nat) (r : Recorded)

/-- The check of the transaction for the user has passed, and it still would: the cooldown is
over, and the window has room. -/
structure Recorded.Passed (t : TxnId) (startedAt : Nat) (u : UserId) : Prop where
  checked : ∀ row ∈ r.checked t, row.user = u → row.createdAt + cooldown ≤ startedAt
  apart : ∀ i ∈ r.issues, i.token.user = u → i.token.createdAt + cooldown ≤ startedAt
  room : r.keys.countP (recent u startedAt) < maxPerDay

/-- What holds in every state of a run with constant settings. -/
structure Recorded.Kept : Prop where
  inv : Inv r.state
  gap : r.state.platform.passwordResetCooldownSeconds = cooldown
  cap : r.state.platform.passwordResetMaxPerDay = maxPerDay
  /-- A self-service request inserts for a user whose check passed. -/
  progress : ∀ t txn, r.state.txns t = some txn → txn.request.selfService = true →
    txn.Progress (r.Passed cooldown maxPerDay t txn.startedAt)
  /-- The issued tokens are rows. -/
  issued : r.keys.Sublist (r.state.rows.map linkKey)
  throttled : Throttled cooldown maxPerDay r.issues

end

section
variable {cooldown maxPerDay : Nat} {r r' : Recorded} {s : State} {t : TxnId} {txn : Txn}
  {u : UserId} {startedAt : Nat} {env : Env} {l : Label}

/-- A self-service request holds the user whose check it passed, up to its commit. -/
theorem Txn.Progress.mono {P Q : UserId → Prop} (hok : TxnOk s t txn)
    (hself : txn.request.selfService = true) (h : txn.Progress P)
    (hPQ : ∀ u, s.userLock u = some t → P u → Q u) : txn.Progress Q := by
  have hphase := hok.phase
  unfold PhaseOk at hphase
  unfold Txn.Progress at h ⊢
  split at h
  · rename_i u heq
    simp only [heq] at hphase
    exact ⟨h.1, hPQ u (hphase hself) h.2⟩
  · rename_i u seen wanted got heq
    simp only [heq] at hphase
    exact ⟨h.1, hPQ u (hphase.1.2 hself).1 h.2⟩
  · rename_i u seen heq
    simp only [heq] at hphase
    exact ⟨h.1, hPQ u (hphase.1.2 hself).1 h.2⟩
  · rcases h with hnone | ⟨m, hminted, hcreated, hP⟩
    · exact Or.inl hnone
    · have hm : m ∈ txn.minted := by simp [hminted]
      have hlock := ((hok.minted m hm).1.2 hself).1
      exact Or.inr ⟨m, hminted, hcreated, hPQ m.token.user hlock hP⟩
  · exact h

/-- The check stays passed while no token of the user is issued. -/
theorem Recorded.Passed.keep {new : List Issue} (h : r.Passed cooldown maxPerDay t startedAt u)
    (hchecked : r'.checked t = r.checked t) (hissues : r'.issues = r.issues ++ new)
    (hnew : ∀ i ∈ new, i.token.user ≠ u) : r'.Passed cooldown maxPerDay t startedAt u where
  checked := by
    rw [hchecked]
    exact h.checked
  apart i hi huser := by
    rw [hissues, List.mem_append] at hi
    rcases hi with hi | hi
    · exact h.apart i hi huser
    · exact absurd huser (hnew i hi)
  room := by
    have hzero : (new.map fun i => linkKey i.token).countP (recent u startedAt) = 0 := by
      rw [List.countP_eq_zero]
      intro key hkey
      obtain ⟨i, hi, rfl⟩ := List.mem_map.mp hkey
      rw [recent_iff]
      exact fun h => hnew i hi h.1
    rw [Recorded.keys, hissues, List.map_append, List.countP_append, hzero]
    exact h.room

/-- A check that did not throttle has passed. -/
theorem passed_of_not_throttled (h : r.Kept cooldown maxPerDay) (hday : cooldown ≤ Accounts.day)
    (hchecked : r'.checked t = r.state.rows) (hissues : r'.issues = r.issues)
    (hpass : r.state.throttled txn u = false) :
    r'.Passed cooldown maxPerDay t txn.startedAt u := by
  simp only [State.throttled, Accounts.throttled, Bool.or_eq_false_iff, decide_eq_false_iff_not,
    not_le, h.gap, h.cap, List.any_eq_false, List.mem_filter, Bool.and_eq_true,
    beq_iff_eq, decide_eq_true_eq, not_lt, and_imp] at hpass
  obtain ⟨hroom, hapart⟩ := hpass
  have hrows (row : LinkToken) (hrow : row ∈ r.state.rows) (huser : row.user = u) :
      row.createdAt + cooldown ≤ txn.startedAt := by
    -- A row of the last day is compared with the cooldown, and an older one is far enough.
    by_cases hrecent : txn.startedAt < row.createdAt + Accounts.day
    · exact hapart row hrow huser hrecent
    · omega
  refine ⟨?_, ?_, ?_⟩
  · rw [hchecked]
    exact hrows
  · intro i hi huser
    rw [hissues] at hi
    -- An issued link has its row.
    have hkey : linkKey i.token ∈ r.state.rows.map linkKey :=
      h.issued.subset (List.mem_map_of_mem hi)
    obtain ⟨row, hrow, hsame⟩ := List.mem_map.mp hkey
    obtain ⟨hu, hcreated⟩ := LinkKey.mk.inj hsame
    rw [← hcreated]
    exact hrows row hrow (hu.trans huser)
  · have hwindow : (r.state.rows.map linkKey).countP (recent u txn.startedAt) < maxPerDay := by
      rw [List.countP_map, List.countP_eq_length_filter]
      exact hroom
    rw [Recorded.keys, hissues]
    exact lt_of_le_of_lt h.issued.countP_le hwindow

/-- A token that passed its check keeps the limits. -/
theorem Throttled.concat {issues : List Issue} {i : Issue}
    (h : Throttled cooldown maxPerDay issues)
    (hchecked : ∀ row ∈ i.checked, row.user = i.token.user →
      row.createdAt + cooldown ≤ i.token.createdAt)
    (hapart : ∀ j ∈ issues, j.token.user = i.token.user →
      j.token.createdAt + cooldown ≤ i.token.createdAt)
    (hroom : (issues.map fun i => linkKey i.token).countP
      (recent i.token.user i.token.createdAt) < maxPerDay) :
    Throttled cooldown maxPerDay (issues ++ [i]) where
  window v a := by
    rw [List.map_append, List.countP_append]
    have hbefore := h.window v a
    cases hin : inDay v a (linkKey i.token) with
    | false => simpa [hin] using hbefore
    | true =>
      -- The tokens of the user in these hours are before the new one, and so in its window.
      have hle : (issues.map fun i => linkKey i.token).countP (inDay v a) ≤
          (issues.map fun i => linkKey i.token).countP
            (recent i.token.user i.token.createdAt) := by
        apply List.countP_mono_left
        intro key hkey hday
        obtain ⟨j, hj, rfl⟩ := List.mem_map.mp hkey
        obtain ⟨hnew, -, hbound⟩ := inDay_iff.mp hin
        obtain ⟨hold, hfrom, -⟩ := inDay_iff.mp hday
        have hsame : j.token.user = i.token.user := hold.trans hnew.symm
        have hcreated : i.token.createdAt < j.token.createdAt + Accounts.day := by
          have hfrom : a ≤ j.token.createdAt := hfrom
          have hbound : i.token.createdAt < a + Accounts.day := hbound
          omega
        exact recent_iff.mpr ⟨hsame, hcreated⟩
      simp only [List.map_cons, List.map_nil, List.countP_singleton, hin, if_true]
      omega
  apart := by
    rw [List.pairwise_append]
    refine ⟨h.apart, List.pairwise_singleton _ _, ?_⟩
    intro j hj k hk huser
    rw [List.mem_singleton] at hk
    subst hk
    exact hapart j hj huser
  checked j hj := by
    rw [List.mem_append, List.mem_singleton] at hj
    rcases hj with hj | rfl
    · exact h.checked j hj
    · exact hchecked

/-- The note of a step that does not commit: the tokens stay, and only the check of its own
transaction is a new one. -/
theorem Recorded.note_of_ne (hcommit : ∀ t, l ≠ .commit t) :
    (r.note s l).state = s ∧ (r.note s l).issues = r.issues ∧
      ∀ t, l ≠ .throttle t → (r.note s l).checked t = r.checked t := by
  cases l with
  | commit t => exact absurd rfl (hcommit t)
  | throttle t₁ =>
    refine ⟨rfl, rfl, fun t hne => ?_⟩
    have ht : t ≠ t₁ := fun h => hne (by rw [h])
    exact Function.update_of_ne ht _ _
  | _ => exact ⟨rfl, rfl, fun _ _ => rfl⟩

/-- A step that does not commit keeps what its transactions have passed. -/
theorem progress_of_step (hday : cooldown ≤ Accounts.day) (h : r.Kept cooldown maxPerDay)
    (hcommit : ∀ t, l ≠ .commit t) (hstep : step env r.state l = some s)
    {txn' : Txn} (hself : txn'.request.selfService = true) (ht' : s.txns t = some txn') :
    txn'.Progress ((r.note s l).Passed cooldown maxPerDay t txn'.startedAt) := by
  obtain ⟨-, hissues, hchecked⟩ := Recorded.note_of_ne (r := r) (s := s) hcommit
  apply advances_step h.inv hstep hself ht'
  · intro txn ht hstarted hrequest
    have hself' : txn.request.selfService = true := by rwa [hrequest]
    have hprogress := h.progress t txn ht hself'
    by_cases hl : l = .throttle t
    · -- At the check no user has passed yet.
      subst hl
      obtain ⟨txn₁, ht₁, hthrottle⟩ := Option.bind_eq_some_iff.mp hstep
      rw [ht] at ht₁
      cases ht₁
      unfold State.throttle at hthrottle
      split at hthrottle
      · rename_i u hlocked
        simpa only [Txn.Progress, hlocked] using hprogress
      · cases hthrottle
    · apply hprogress.mono (h.inv.txn t txn ht) hself'
      intro u _ hpassed
      rw [← hstarted]
      have hsame : (r.note s l).issues = r.issues ++ [] := by rw [hissues, List.append_nil]
      refine hpassed.keep (hchecked t hl) hsame ?_
      intro i hi
      cases hi
  · intro txn u ht hstarted hl hlocked hpass
    subst hl
    rw [← hstarted]
    exact passed_of_not_throttled h hday (Function.update_self _ _ _) hissues hpass

/-- What a self-service commit issues: nothing, or the one token whose check passed. -/
theorem issued_cases (h : r.Kept cooldown maxPerDay) (ht : r.state.txns t = some txn)
    (hready : txn.phase = .ready) : txn.issued (r.checked t) = [] ∨
      ∃ m, txn.issued (r.checked t) = [⟨m.token, r.checked t⟩] ∧ txn.minted = [m] ∧
        txn.request.selfService = true ∧
        r.Passed cooldown maxPerDay t m.token.createdAt m.token.user := by
  unfold Txn.issued
  split
  · rename_i hself
    have hprogress := h.progress t txn ht hself
    simp only [Txn.Progress, hready] at hprogress
    rcases hprogress with hnone | ⟨m, hminted, hcreated, hpassed⟩
    · exact Or.inl (by rw [hnone]; rfl)
    · refine Or.inr ⟨m, by rw [hminted]; rfl, hminted, hself, ?_⟩
      rw [hcreated]
      exact hpassed
  · exact Or.inl rfl

/-- What a commit issues is inserted. -/
theorem issued_sublist (txn : Txn) (checked : List LinkToken) :
    ((txn.issued checked).map fun i => linkKey i.token).Sublist
      (txn.minted.map fun m => linkKey m.token) := by
  unfold Txn.issued
  split
  · rw [List.map_map]
    exact List.Sublist.refl _
  · exact List.nil_sublist _

/-- A commit. The other self-service requests hold other users. -/
theorem Recorded.Kept.commit {s₁ : State} (h : r.Kept cooldown maxPerDay)
    (ht : r.state.txns t = some txn) (hready : txn.phase = .ready)
    (hinv : Inv (s₁.finish t)) (htxns : s₁.txns = r.state.txns)
    (hplatform : s₁.platform = r.state.platform)
    (hrows : (r.keys ++ (txn.issued (r.checked t)).map fun i => linkKey i.token).Sublist
      (s₁.rows.map linkKey)) :
    ({ r with state := s₁.finish t, issues := r.issues ++ txn.issued (r.checked t) } :
      Recorded).Kept cooldown maxPerDay where
  inv := hinv
  gap := by
    show s₁.platform.passwordResetCooldownSeconds = cooldown
    rw [hplatform]
    exact h.gap
  cap := by
    show s₁.platform.passwordResetMaxPerDay = maxPerDay
    rw [hplatform]
    exact h.cap
  progress t' txn' ht' hself := by
    obtain ⟨hne, ht'⟩ := finish_txns ht'
    rw [htxns] at ht'
    apply (h.progress t' txn' ht' hself).mono (h.inv.txn t' txn' ht') hself
    intro u hlock hpassed
    -- The link of this commit is for a user whom no other request holds.
    have hother : ∀ i ∈ txn.issued (r.checked t), i.token.user ≠ u := by
      intro i hi huser
      rcases issued_cases h ht hready with hnone | ⟨m, hone, hminted, -, -⟩
      · rw [hnone] at hi
        cases hi
      · rw [hone, List.mem_singleton] at hi
        subst hi
        exact h.inv.exclusive u t' t txn hlock hne.symm ht m (by simp [hminted]) huser
    refine hpassed.keep ?_ ?_ hother
    · rfl
    · rfl
  issued := by
    show ((r.issues ++ txn.issued (r.checked t)).map fun i => linkKey i.token).Sublist
      (s₁.rows.map linkKey)
    rw [List.map_append]
    exact hrows
  throttled := by
    -- The commit issues one link at most, and that one has passed the check.
    rcases issued_cases h ht hready with hnone | ⟨m, hone, -, -, hpassed⟩
    · show Throttled cooldown maxPerDay (r.issues ++ txn.issued (r.checked t))
      rw [hnone, List.append_nil]
      exact h.throttled
    · show Throttled cooldown maxPerDay (r.issues ++ txn.issued (r.checked t))
      rw [hone]
      exact h.throttled.concat hpassed.checked hpassed.apart hpassed.room

/-- The settings that a label writes have this cooldown and this maximum. -/
def KeepsSettings (cooldown maxPerDay : Nat) : Label → Prop
  | .identity _ platform => platform.passwordResetCooldownSeconds = cooldown ∧
      platform.passwordResetMaxPerDay = maxPerDay
  | _ => True

instance : DecidablePred (KeepsSettings cooldown maxPerDay)
  | .identity _ platform =>
    inferInstanceAs (Decidable (platform.passwordResetCooldownSeconds = cooldown ∧
      platform.passwordResetMaxPerDay = maxPerDay))
  | .tick | .begin _ _ | .locate _ | .lockUser _ | .throttle _ | .loadUser _ |
      .beginRevoke _ | .lockToken _
  | .revoke _ | .mint _ _ | .findReset _ | .lockReset _ | .checkReset _ | .useReset _ | .commit _
  | .abort _ => .isTrue trivial

/-- The settings after a step that keeps them. -/
theorem settings_of_step (h : r.Kept cooldown maxPerDay) (hl : KeepsSettings cooldown maxPerDay l)
    (hstep : step env r.state l = some s) : s.platform.passwordResetCooldownSeconds = cooldown ∧
      s.platform.passwordResetMaxPerDay = maxPerDay := by
  by_cases hidentity : ∃ db platform, l = .identity db platform
  · obtain ⟨db, platform, rfl⟩ := hidentity
    cases hstep
    exact hl
  · rw [platform_of_step (fun db platform h => hidentity ⟨db, platform, h⟩) hstep]
    exact ⟨h.gap, h.cap⟩

/-- Every step with the same settings keeps the limits. -/
theorem Recorded.Kept.of_step (hday : cooldown ≤ Accounts.day) (h : r.Kept cooldown maxPerDay)
    (hl : KeepsSettings cooldown maxPerDay l) (hstep : record env r l = some r') :
    r'.Kept cooldown maxPerDay := by
  obtain ⟨s, hs, rfl⟩ := Option.map_eq_some_iff.mp hstep
  have hinv := inv_step h.inv hs
  obtain ⟨hgap, hcap⟩ := settings_of_step h hl hs
  by_cases hcommit : ∃ t, l = .commit t
  · obtain ⟨t, rfl⟩ := hcommit
    obtain ⟨txn, ht, hs⟩ := Option.bind_eq_some_iff.mp hs
    simp only [Recorded.note, ht, Option.elim_some]
    unfold State.commit at hs
    split at hs
    · rename_i hready _
      split at hs
      · -- Only a bulk send can be a dry run, and it issues nothing.
        rename_i hdry
        cases hs
        apply h.commit ht hready hinv rfl rfl
        have hnone : txn.issued (r.checked t) = [] := by
          unfold Txn.issued
          cases hrequest : txn.request <;> simp_all [Request.dryRun, Request.selfService]
        rw [hnone, List.map_nil, List.append_nil]
        exact h.issued
      · cases hs
        apply h.commit ht hready hinv rfl rfl
        show List.Sublist _ ((r.state.written txn).map linkKey)
        rw [map_linkKey_written]
        exact h.issued.append (issued_sublist txn _)
    · cases hs
  · have hne (t : TxnId) (hl : l = .commit t) : False := hcommit ⟨t, hl⟩
    obtain ⟨hstate, hissues, -⟩ := Recorded.note_of_ne (r := r) (s := s) hne
    have hkeys : (r.note s l).keys = r.keys := by rw [Recorded.keys, hissues]; rfl
    refine ⟨?_, ?_, ?_, ?_, ?_, ?_⟩
    · rwa [hstate]
    · rwa [hstate]
    · rwa [hstate]
    · rw [hstate]
      intro t txn ht hself
      exact progress_of_step hday h hne hs hself ht
    · rw [hstate, hkeys, (rows_of_step hne hs).1]
      exact h.issued
    · rw [hissues]
      exact h.throttled

end

/-! ### Runs -/

/-- A run can be recorded. -/
theorem exists_record {env : Env} {r : Recorded} {s : State} {ls : List Label}
    (hrun : run (step env) r.state ls = some s) :
    ∃ r', run (record env) r ls = some r' ∧ r'.state = s := by
  induction ls generalizing r with
  | nil =>
    cases hrun
    exact ⟨r, rfl, rfl⟩
  | cons l ls ih =>
    obtain ⟨s₁, h₁, h₂⟩ := (run_cons_eq_some _).mp hrun
    have hstate : (r.note s₁ l).state = s₁ := by cases l <;> rfl
    obtain ⟨r', hr', hs⟩ := ih (hstate ▸ h₂)
    refine ⟨r', (run_cons_eq_some _).mpr ⟨r.note s₁ l, ?_, hr'⟩, hs⟩
    rw [record, h₁, Option.map_some]

/-- The limits hold before the first request. -/
theorem kept_start {s : State} (h : Start s) :
    Recorded.Kept s.platform.passwordResetCooldownSeconds
    s.platform.passwordResetMaxPerDay { state := s } where
  inv := inv_start h
  gap := rfl
  cap := rfl
  progress t txn ht := by
    have ht : s.txns t = some txn := ht
    rw [h.txns t] at ht
    cases ht
  issued := List.nil_sublist _
  throttled := ⟨fun _ _ => Nat.zero_le _, List.Pairwise.nil, nofun⟩

/-- In every interleaving under constant settings: any 24 hours hold at most the daily maximum of
self-service tokens of a user, any two of them are the cooldown apart, and each is the cooldown
after every token of the user that was committed before its check. The tokens are the rows of the
self-service requests. The settings allow a cooldown of an hour at most. -/
theorem reset_throttle (env : Env) (s₀ s : State) (ls : List Label) (hstart : Start s₀)
    (hcooldown : s₀.platform.passwordResetCooldownSeconds ≤ Accounts.hour)
    (hconstant : ∀ l ∈ ls, KeepsSettings s₀.platform.passwordResetCooldownSeconds
      s₀.platform.passwordResetMaxPerDay l)
    (hrun : run (step env) s₀ ls = some s) :
    Throttled s₀.platform.passwordResetCooldownSeconds s₀.platform.passwordResetMaxPerDay
        (issues env s₀ ls) ∧
      ((issues env s₀ ls).map fun i => linkKey i.token).Sublist (s.rows.map linkKey) := by
  obtain ⟨r, hr, hs⟩ := exists_record (r := { state := s₀ }) hrun
  have hday : s₀.platform.passwordResetCooldownSeconds ≤ Accounts.day := by
    have hhour : Accounts.hour ≤ Accounts.day := by decide
    exact hcooldown.trans hhour
  have hkept := run_invariant_along (fun _ _ _ hk hl hstep => hk.of_step hday hl hstep)
    (kept_start hstart) (along_of_forall fun l hl _ => hconstant l hl) hr
  have hissues : issues env s₀ ls = r.issues := by
    rw [issues, hr]
    rfl
  rw [hissues, ← hs]
  exact ⟨hkept.throttled, hkept.issued⟩

/-- The transaction `t` asks for a link for the admin. -/
def asking (t : TxnId) : List Label :=
  [.begin t (.requestReset "root@example.com"), .locate t, .lockUser t, .throttle t]

/-- Two requests in the same second: the second one waits for the first one, and is throttled. -/
def askingTwice : List Label :=
  [.begin 2 (.requestReset "root@example.com")] ++ asking 1 ++
    [.locate 2, .beginRevoke 1, .revoke 1, .mint 1 "a", .commit 1, .lockUser 2,
      .throttle 2, .commit 2]

/-- Two requests issue one token. -/
theorem reset_throttle_twice : (issues Accounts.plainEnv deployed askingTwice).length = 1 ∧
    Throttled 60 5 (issues Accounts.plainEnv deployed askingTwice) := by
  have hany : (run (step Accounts.plainEnv) deployed askingTwice).any (fun _ => true) = true := by
    decide +kernel
  obtain ⟨s, hrun, -⟩ := exists_run_of_any hany
  exact ⟨by decide +kernel,
    (reset_throttle Accounts.plainEnv deployed s askingTwice start_deployed
    (by decide) (by decide +kernel) hrun).1⟩

end RedTeaming.Auth.Resets
