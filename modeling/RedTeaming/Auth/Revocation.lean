import RedTeaming.Auth.SessionSystem

/-!
# `RedTeaming.Auth.Revocation`: what a revocation marker covers

`revoke_user_sessions` reads the clock and writes the second to Redis. A marker at the second `m`
covers the tokens of its user with `iat ≤ m`. `Inv` is the invariant of the markers and the
issued tokens: a marker that landed is still stored, with a value at or after its own, or every
token it covers has expired (`Covers`). `not_passes` is what that gives: a covered token does not
pass the checks. A marker write must not replace a later marker for this (`MarkerAdvances`):
`revoke_user_sessions` writes unconditionally, so two calls whose writes land in the opposite
order of their clock readings lower the marker.

A refresh mints after its `is_revoked` check, and the minted pair carries the second of the mint.
So a marker that lands between the two, with the clock moving on before the mint, does not cover
the pair. `Timely` is the condition on a run that excludes it, and `revocation_final` is the
result for the runs that meet it: no token of a chain that began at or before a landed marker
passes. `revocation_escapes` is a run that does not meet it.
-/

set_option autoImplicit false

namespace RedTeaming.Auth.Sessions

open RedTeaming.Library

section
variable {settings : Settings} {s s' : State}

/-- Nothing that the markers and the issued tokens depend on changes in the step. -/
structure Quiet (s s' : State) : Prop where
  clock : s'.clock = s.clock
  redis : s'.redis = s.redis
  issued : s'.issued = s.issued
  read : s'.read = s.read
  landed : s'.landed = s.landed
  writing : ∀ q txn' u second todo, s'.txns q = some txn' → txn'.phase = .writing u second todo →
    ∃ txn, s.txns q = some txn ∧ txn.phase = .writing u second todo

theorem Quiet.setCall (s : State) (c : CallId) (call : Call) : Quiet s (s.setCall c call) :=
  ⟨rfl, rfl, rfl, rfl, rfl, fun _ txn _ _ _ htxn hphase => ⟨txn, htxn, hphase⟩⟩

/-- A request that moves to a phase other than `writing` is quiet. -/
theorem Quiet.of_txns {q : RequestId} {txn : Txn}
    (htxns : s'.txns = Function.update s.txns q (some txn))
    (hphase : ∀ u second todo, txn.phase ≠ .writing u second todo) (hclock : s'.clock = s.clock)
    (hredis : s'.redis = s.redis) (hissued : s'.issued = s.issued) (hread : s'.read = s.read)
    (hlanded : s'.landed = s.landed) : Quiet s s' := by
  refine ⟨hclock, hredis, hissued, hread, hlanded, fun q' txn' u second todo htxn' hw => ?_⟩
  rw [htxns] at htxn'
  rcases update_some_eq_some.mp htxn' with ⟨rfl, rfl⟩ | ⟨-, htxn'⟩
  · exact absurd hw (hphase u second todo)
  · exact ⟨txn', htxn', hw⟩

/-- The steps that are not quiet: the clock, the two mints, and the two steps of
`revoke_user_sessions`. -/
theorem step_quiet {l : Label} (h : step settings s l = some s') :
    Quiet s s' ∨ (∃ milliseconds, l = .tick milliseconds) ∨ (∃ c, l = .mintAccess c) ∨
      (∃ c, l = .mintRefresh c) ∨ (∃ q, l = .readClock q) ∨ ∃ q, l = .setMarker q := by
  cases l with
  | tick milliseconds => exact Or.inr (Or.inl ⟨_, rfl⟩)
  | mintAccess c => exact Or.inr (Or.inr (Or.inl ⟨_, rfl⟩))
  | mintRefresh c => exact Or.inr (Or.inr (Or.inr (Or.inl ⟨_, rfl⟩)))
  | readClock q => exact Or.inr (Or.inr (Or.inr (Or.inr (Or.inl ⟨_, rfl⟩))))
  | setMarker q => exact Or.inr (Or.inr (Or.inr (Or.inr (Or.inr ⟨_, rfl⟩))))
  | login c user password =>
    rw [State.login_cases h]
    exact Or.inl (.setCall _ _ _)
  | verify c token =>
    rcases State.verify_cases h with ⟨_, _, _, _, _, rfl⟩ | ⟨_, rfl⟩ <;>
      exact Or.inl (.setCall _ _ _)
  | checkRevoked c =>
    obtain ⟨_, _, ⟨_, rfl⟩ | ⟨_, rfl⟩⟩ := State.checkRevoked_cases h <;>
      exact Or.inl (.setCall _ _ _)
  | checkLifetime c =>
    obtain ⟨_, _, _, rfl | ⟨_, rfl⟩⟩ := State.checkLifetime_cases h <;>
      exact Or.inl (.setCall _ _ _)
  | loadUser c =>
    obtain ⟨_, _, ⟨_, _, rfl⟩ | ⟨_, rfl⟩⟩ := State.loadUser_cases h <;>
      exact Or.inl (.setCall _ _ _)
  | loadRoles c =>
    obtain ⟨_, _, _, _, ⟨_, rfl⟩ | ⟨_, rfl⟩⟩ := State.loadRoles_cases h <;>
      exact Or.inl (.setCall _ _ _)
  | begin q request =>
    obtain ⟨_, ⟨_, rfl⟩ | ⟨_, _, _, _, _, rfl⟩⟩ := State.begin_cases h <;>
      exact Or.inl (.of_txns rfl (fun _ _ _ h => nomatch h) rfl rfl rfl rfl rfl)
  | act q groupHolders users members =>
    obtain ⟨_, _, _, _, _, _, hperform⟩ := State.act_cases h
    rcases State.perform_cases hperform with
      ⟨_, _, _, _, rfl⟩ | ⟨_, _, _, _, rfl⟩ | ⟨_, _, loss, _, _, rfl⟩
    · exact Or.inl (.of_txns rfl (fun _ _ _ h => nomatch h) rfl rfl rfl rfl rfl)
    · exact Or.inl (.of_txns rfl (fun _ _ _ h => nomatch h) rfl rfl rfl rfl rfl)
    · refine Or.inl (.of_txns rfl (fun _ _ _ h => ?_) rfl rfl rfl rfl rfl)
      cases loss <;> cases h
  | skip q =>
    obtain ⟨_, _, _, _, hphase, _, _, rfl⟩ := State.skip_cases h
    exact Or.inl (.of_txns rfl (fun _ _ _ h => by simp [hphase] at h) rfl rfl rfl rfl rfl)
  | selectHolders q =>
    obtain ⟨_, _, _, _, _, rfl⟩ := State.selectHolders_cases h
    exact Or.inl (.of_txns rfl (fun _ _ _ h => nomatch h) rfl rfl rfl rfl rfl)
  | commit q =>
    obtain ⟨_, _, _, _, rfl⟩ := State.commit_cases h
    exact Or.inl (.of_txns rfl (fun _ _ _ h => nomatch h) rfl rfl rfl rfl rfl)
  | abort q =>
    obtain ⟨_, _, _, rfl⟩ := State.abort_cases h
    exact Or.inl (.of_txns rfl (fun _ _ _ h => nomatch h) rfl rfl rfl rfl rfl)

/-- A marker write that replaces no later marker. -/
def MarkerAdvances (s : State) (q : RequestId) : Prop :=
  ∀ txn u second todo, s.txns q = some txn → txn.phase = .writing u second todo →
    ∀ marker, s.redis.get s.clock u = some marker → marker ≤ second

/-- The marker of a user at the second `m` is still stored, or it has outlived the tokens it
covers. -/
def Covers (settings : Settings) (s : State) (u : UserId) (m : Nat) : Prop :=
  (∃ entry, s.redis u = some entry ∧ m ≤ entry.value ∧
      1000 * (m + settings.refreshAbsoluteMaxLifetimeSeconds) ≤ entry.expireAt) ∨
    1000 * (m + settings.refreshAbsoluteMaxLifetimeSeconds) ≤ s.clock

/-- The invariant of the markers and the issued tokens. -/
structure Inv (settings : Settings) (s : State) : Prop where
  iat_le : ∀ i ∈ s.issued, i.token.iat ≤ s.now
  exp_eq : ∀ i ∈ s.issued, i.token.exp = i.token.iat + settings.ttlSeconds i.token.typ
  chain_eq : ∀ i ∈ s.issued, i.token.typ = .refresh → i.chain = i.token.authTime
  read_le : ∀ r ∈ s.read, r.second ≤ s.now
  landed_read : ∀ r ∈ s.landed, r ∈ s.read
  writing_read : ∀ q txn u second todo, s.txns q = some txn →
    txn.phase = .writing u second todo → ⟨q, u, second⟩ ∈ s.read
  covers : ∀ r ∈ s.landed, Covers settings s r.user r.second

/-- The state in which a run begins: tokens minted in the past, any rows, any stored markers, and
no call or request in progress. -/
structure Start (settings : Settings) (s : State) : Prop where
  iat_le : ∀ i ∈ s.issued, i.token.iat ≤ s.now
  exp_eq : ∀ i ∈ s.issued, i.token.exp = i.token.iat + settings.ttlSeconds i.token.typ
  chain_eq : ∀ i ∈ s.issued, i.token.typ = .refresh → i.chain = i.token.authTime
  calls : ∀ c, s.calls c = none
  txns : ∀ q, s.txns q = none
  read : s.read = []
  landed : s.landed = []
  committed : s.committed = []

theorem Start.inv (h : Start settings s) : Inv settings s where
  iat_le := h.iat_le
  exp_eq := h.exp_eq
  chain_eq := h.chain_eq
  read_le r hr := by simp [h.read] at hr
  landed_read r hr := by simp [h.landed] at hr
  writing_read q txn _ _ _ htxn := by simp [h.txns] at htxn
  covers r hr := by simp [h.landed] at hr

theorem Inv.quiet (h : Inv settings s) (hq : Quiet s s') : Inv settings s' where
  iat_le := by simpa only [hq.issued, State.now, hq.clock] using h.iat_le
  exp_eq := by simpa only [hq.issued] using h.exp_eq
  chain_eq := by simpa only [hq.issued] using h.chain_eq
  read_le := by simpa only [hq.read, State.now, hq.clock] using h.read_le
  landed_read := by simpa only [hq.landed, hq.read] using h.landed_read
  writing_read q txn u second todo htxn hphase := by
    obtain ⟨txn₀, htxn₀, hphase₀⟩ := hq.writing q txn u second todo htxn hphase
    rw [hq.read]
    exact h.writing_read q txn₀ u second todo htxn₀ hphase₀
  covers := by simpa only [hq.landed, Covers, hq.redis, hq.clock] using h.covers

/-- Time only passes. -/
theorem now_le_tick (s : State) (milliseconds : Nat) : s.now ≤ (s.tick milliseconds).now :=
  Nat.div_le_div_right (Nat.le_add_right _ _)

theorem Inv.tick (h : Inv settings s) (milliseconds : Nat) :
    Inv settings (s.tick milliseconds) where
  iat_le i hi := (h.iat_le i hi).trans (now_le_tick s milliseconds)
  exp_eq := h.exp_eq
  chain_eq := h.chain_eq
  read_le r hr := (h.read_le r hr).trans (now_le_tick s milliseconds)
  landed_read := h.landed_read
  writing_read := h.writing_read
  covers r hr := (h.covers r hr).imp id fun hc => hc.trans (Nat.le_add_right _ _)

theorem Inv.mintAccess {c : CallId} (h : Inv settings s)
    (hstep : s.mintAccess settings c = some s') : Inv settings s' := by
  obtain ⟨grant, permissions, _, _, _, rfl⟩ := State.mintAccess_cases hstep
  refine ⟨?_, ?_, ?_, h.read_le, h.landed_read, h.writing_read, h.covers⟩
  · exact List.forall_mem_cons.mpr ⟨le_rfl, h.iat_le⟩
  · exact List.forall_mem_cons.mpr ⟨rfl, h.exp_eq⟩
  · exact List.forall_mem_cons.mpr ⟨fun h => (nomatch h), h.chain_eq⟩

theorem Inv.mintRefresh {c : CallId} (h : Inv settings s)
    (hstep : s.mintRefresh settings c = some s') : Inv settings s' := by
  obtain ⟨grant, permissions, _, rfl⟩ := State.mintRefresh_cases hstep
  refine ⟨?_, ?_, ?_, h.read_le, h.landed_read, h.writing_read, h.covers⟩
  · exact List.forall_mem_cons.mpr ⟨le_rfl, h.iat_le⟩
  · exact List.forall_mem_cons.mpr ⟨rfl, h.exp_eq⟩
  · exact List.forall_mem_cons.mpr ⟨fun _ => rfl, h.chain_eq⟩

theorem Inv.readClock {q : RequestId} (h : Inv settings s)
    (hstep : s.readClock q = some s') : Inv settings s' := by
  obtain ⟨txn, u, todo, htxn, hphase, rfl⟩ := State.readClock_cases hstep
  refine ⟨h.iat_le, h.exp_eq, h.chain_eq, List.forall_mem_cons.mpr ⟨le_rfl, h.read_le⟩,
    fun r hr => List.mem_cons_of_mem _ (h.landed_read r hr), ?_, h.covers⟩
  intro q' txn' u' second todo' htxn' hw
  rcases update_some_eq_some.mp htxn' with ⟨rfl, rfl⟩ | ⟨-, htxn'⟩
  · cases hw
    exact List.mem_cons_self
  · exact List.mem_cons_of_mem _ (h.writing_read q' txn' u' second todo' htxn' hw)

/-- A marker write keeps what the earlier markers cover, when it replaces no later marker. -/
theorem Inv.setMarker {q : RequestId} (h : Inv settings s) (hadv : MarkerAdvances s q)
    (hstep : s.setMarker settings q = some s') : Inv settings s' := by
  obtain ⟨txn, u, second, todo, htxn, hphase, rfl⟩ := State.setMarker_cases hstep
  have hread : ⟨q, u, second⟩ ∈ s.read := h.writing_read q txn u second todo htxn hphase
  have hclock : 1000 * second ≤ s.clock := by
    have := h.read_le _ hread
    simp only [State.now] at this
    omega
  refine ⟨h.iat_le, h.exp_eq, h.chain_eq, h.read_le, List.forall_mem_cons.mpr ⟨hread,
    h.landed_read⟩, ?_, List.forall_mem_cons.mpr ⟨?_, fun r hr => ?_⟩⟩
  · intro q' txn' u' second' todo' htxn' hw
    rcases update_some_eq_some.mp htxn' with ⟨rfl, rfl⟩ | ⟨-, htxn'⟩
    · cases hw
    · exact h.writing_read q' txn' u' second' todo' htxn' hw
  · refine Or.inl ⟨_, Redis.set_self _ _ _ _ _, le_rfl, ?_⟩
    simp only
    omega
  · by_cases hu : r.user = u
    · subst hu
      -- The entry of the user is replaced: it covered `r` and was at most `second`, or it was
      -- gone.
      rcases h.covers r hr with ⟨entry, hentry, hle, hexp⟩ | hgone
      · by_cases halive : s.clock < entry.expireAt
        · have hget : s.redis.get s.clock r.user = some entry.value := by
            simp only [Redis.get, hentry, halive, if_true]
          have hval : entry.value ≤ second := hadv txn r.user second todo htxn hphase _ hget
          refine Or.inl ⟨_, Redis.set_self _ _ _ _ _, hle.trans hval, ?_⟩
          change _ ≤ s.clock + _
          omega
        · refine Or.inr ?_
          change _ ≤ s.clock
          omega
      · exact Or.inr hgone
    · rcases h.covers r hr with ⟨entry, hentry, hle, hexp⟩ | hgone
      · exact Or.inl ⟨entry, (Redis.set_of_ne _ _ _ _ hu).trans hentry, hle, hexp⟩
      · exact Or.inr hgone

/-- Each step keeps the invariant, when a marker write replaces no later marker. -/
theorem Inv.step {l : Label} (h : Inv settings s)
    (hadv : ∀ q, l = .setMarker q → MarkerAdvances s q)
    (hstep : Sessions.step settings s l = some s') : Inv settings s' := by
  rcases step_quiet hstep with hq | ⟨_, rfl⟩ | ⟨_, rfl⟩ | ⟨_, rfl⟩ | ⟨_, rfl⟩ | ⟨q, rfl⟩
  · exact h.quiet hq
  · cases hstep
    exact h.tick _
  · exact h.mintAccess hstep
  · exact h.mintRefresh hstep
  · exact h.readClock hstep
  · exact h.setMarker (hadv q rfl) hstep

/-- A token that a stored marker covers does not pass. -/
theorem not_passes_of_covers {token : Token} {m : Nat} (hcov : Covers settings s token.sub m)
    (hiat : token.iat ≤ m)
    (hexp : s.now < token.exp → s.now < m + settings.refreshAbsoluteMaxLifetimeSeconds) :
    ¬ Passes s.redis s.clock token := by
  rintro ⟨hunexpired, hpast⟩
  have hnow := hexp hunexpired
  simp only [State.now] at hnow
  rcases hcov with ⟨entry, hentry, hle, hexp⟩ | hgone
  · have hget : s.redis.get s.clock token.sub = some entry.value := by
      have : s.clock < entry.expireAt := by omega
      simp only [Redis.get, hentry, this, if_true]
    have := hpast _ hget
    omega
  · omega

/-- An issued token with its `iat` at or before a landed marker of its user does not pass. The
marker outlives each token that it covers, which for access tokens needs the bound on their
TTL. -/
theorem Inv.not_passes (h : Inv settings s)
    (httl : settings.sessionTtlSeconds ≤ settings.refreshAbsoluteMaxLifetimeSeconds)
    {r : Reading} (hr : r ∈ s.landed) {i : Issued} (hi : i ∈ s.issued)
    (hu : i.token.sub = r.user) (hiat : i.token.iat ≤ r.second) :
    ¬ Passes s.redis s.clock i.token := by
  refine not_passes_of_covers (hu ▸ h.covers r hr) hiat fun hlt => ?_
  have hle : settings.ttlSeconds i.token.typ ≤ settings.refreshAbsoluteMaxLifetimeSeconds := by
    cases i.token.typ
    · exact httl
    · exact settings.refresh_lt.le
  rw [h.exp_eq i hi] at hlt
  omega

/-! ### Rotation chains -/

/-- What a call past its checks will mint for. -/
def Call.grant? : Call → Option Grant
  | .admitted grant => some grant
  | .userLoaded grant _ _ => some grant
  | .ready grant _ _ _ => some grant
  | .accessMinted grant _ => some grant
  | _ => none

/-- The `is_revoked` check of the refresh `c` runs by the second in which the presented token
expires, or before a landed marker of its user does. -/
def ChecksInTime (settings : Settings) (s : State) (c : CallId) : Prop :=
  ∀ identity iat, s.calls c = some (.verified identity) → identity.issuedAt = some iat →
    s.now ≤ iat + settings.refreshTokenTtlSeconds ∨
      ∀ r ∈ s.landed, r.user = identity.id →
        s.now < r.second + settings.refreshAbsoluteMaxLifetimeSeconds

/-- The marker of a clock reading has landed, or its write is the next step of its request. The
marker of a request that was aborted before its write is neither. -/
def Lands (s : State) (r : Reading) : Prop :=
  r ∈ s.landed ∨ ∃ txn todo, s.txns r.request = some txn ∧
    txn.phase = .writing r.user r.second todo

/-- A quiet step lets no further marker land. -/
theorem Quiet.lands (hq : Quiet s s') {r : Reading} (h : Lands s' r) : Lands s r := by
  rcases h with hr | ⟨txn', todo, htxn', hphase⟩
  · rw [hq.landed] at hr
    exact Or.inl hr
  · obtain ⟨txn, htxn, hphase⟩ := hq.writing r.request txn' r.user r.second todo htxn' hphase
    exact Or.inr ⟨txn, todo, htxn, hphase⟩

/-- The refresh `c` mints no later than the second of each marker of its user that has landed, or
is about to, and had not landed when it asked `is_revoked`. -/
def MintsInTime (s : State) (c : CallId) : Prop :=
  ∀ call grant checkedAfter, s.calls c = some call → call.grant? = some grant →
    grant.origin = .refresh checkedAfter →
      ∀ r, Lands s r → r.user = grant.user → r ∉ checkedAfter → s.now ≤ r.second

/-- Before the first marker and the first request, each mint is in time. -/
theorem mintsInTime_of_quiet {c : CallId} (hlanded : s.landed = [])
    (htxns : ∀ q, s.txns q = none) :
    MintsInTime s c := by
  intro _ _ _ _ _ _ r hr
  rcases hr with hr | ⟨txn, _, htxn, -⟩
  · simp [hlanded] at hr
  · simp [htxns] at htxn

/-- The condition on a step under which revocation is final: a marker write lowers no marker, a
check runs in time, and a refresh mints in time. -/
def Timely (settings : Settings) (s : State) : Label → Prop
  | .setMarker q => MarkerAdvances s q
  | .checkRevoked c => ChecksInTime settings s c
  | .mintAccess c => MintsInTime s c
  | .mintRefresh c => MintsInTime s c
  | _ => True

/-- The identity of an issued token. -/
def FromIssued (s : State) (identity : SessionUser) : Prop :=
  ∃ i ∈ s.issued, i.token.sub = identity.id ∧ identity.issuedAt = some i.token.iat ∧
    i.chain = identity.authTime

/-- A refresh that passed `is_revoked` is of a chain that began after each marker of its user
that had landed. A login begins a chain. -/
def CallOk (s : State) : Call → Prop
  | .verified identity => FromIssued s identity
  | .checked identity checkedAfter =>
    ∀ r ∈ checkedAfter, r.user = identity.id → r.second < identity.authTime.getD s.now
  | .failed _ => True
  | .admitted grant => GrantOk grant
  | .userLoaded grant _ _ => GrantOk grant
  | .ready grant _ _ _ => GrantOk grant
  | .accessMinted grant _ => GrantOk grant
where
  GrantOk (grant : Grant) : Prop :=
    match grant.origin with
    | .login _ => grant.authTime = none
    | .refresh checkedAfter =>
      ∃ authTime, grant.authTime = some authTime ∧
        ∀ r ∈ checkedAfter, r.user = grant.user → r.second < authTime

theorem CallOk.of_grant {call : Call} {grant : Grant} (h : CallOk s call)
    (hg : call.grant? = some grant) : CallOk.GrantOk grant := by
  cases call <;> cases hg <;> exact h

theorem CallOk.mono {call : Call} (h : CallOk s call) (hissued : ∀ i ∈ s.issued, i ∈ s'.issued)
    (hnow : s.now ≤ s'.now) : CallOk s' call := by
  cases call with
  | verified identity =>
    obtain ⟨i, hi, h⟩ := h
    exact ⟨i, hissued i hi, h⟩
  | checked identity checkedAfter =>
    intro r hr hu
    have := h r hr hu
    cases hauth : identity.authTime <;> rw [hauth] at this
    · exact this.trans_le hnow
    · exact this
  | _ => exact h

/-- The invariant of the chains: a token of a chain that began at or before a marker's second was
minted at or before it. -/
structure ChainInv (settings : Settings) (s : State) : Prop where
  inv : Inv settings s
  bound : ∀ r, Lands s r → ∀ i ∈ s.issued, i.token.sub = r.user →
    ∀ a, i.chain = some a → a ≤ r.second → i.token.iat ≤ r.second
  calls : ∀ c call, s.calls c = some call → CallOk s call

theorem Start.chainInv (h : Start settings s) : ChainInv settings s where
  inv := h.inv
  bound r hr := by
    rcases hr with hr | ⟨txn, _, htxn, -⟩
    · simp [h.landed] at hr
    · simp [h.txns] at htxn
  calls c call hcall := by simp [h.calls] at hcall

/-- A step that changes no call keeps what is known of the calls. -/
theorem ChainInv.calls_mono (h : ChainInv settings s) (hcalls : s'.calls = s.calls)
    (hissued : ∀ i ∈ s.issued, i ∈ s'.issued) (hnow : s.now ≤ s'.now) :
    ∀ c call, s'.calls c = some call → CallOk s' call := by
  rw [hcalls]
  exact fun c call hcall => (h.calls c call hcall).mono hissued hnow

theorem ChainInv.setCall {c : CallId} {call : Call} (h : ChainInv settings s)
    (hcall : CallOk s call) : ChainInv settings (s.setCall c call) where
  inv := h.inv.quiet (.setCall s c call)
  bound := h.bound
  calls := forall_update (fun c call hc => (h.calls c call hc).mono (fun _ => id) le_rfl)
    (hcall.mono (fun _ => id) le_rfl)

/-- A refresh that passes `is_revoked` in time presents a token minted after each marker of its
user that has landed. -/
theorem ChainInv.iat_of_check (h : ChainInv settings s) {c : CallId} {identity : SessionUser}
    (htime : ChecksInTime settings s c) (hcall : s.calls c = some (.verified identity))
    (hok : isRevoked (.marker (s.redis.get s.clock identity.id)) identity.issuedAt false
      = .ok false) {iat : Nat} (hiat : identity.issuedAt = some iat)
    {r : Reading} (hr : r ∈ s.landed) (hu : r.user = identity.id) : r.second < iat := by
  by_contra hle
  have hnow : s.now < r.second + settings.refreshAbsoluteMaxLifetimeSeconds := by
    have hlt := settings.refresh_lt
    rcases htime identity iat hcall hiat with hexp | hmarkers
    · omega
    · exact hmarkers r hr hu
  rw [hiat, isRevoked_eq_ok_false] at hok
  rcases h.inv.covers r hr with ⟨entry, hentry, hle', hexp⟩ | hgone
  · have hget : s.redis.get s.clock identity.id = some entry.value := by
      have : s.clock < entry.expireAt := by
        simp only [State.now] at hnow
        omega
      simp only [Redis.get, ← hu, hentry, this, if_true]
    have := hok _ hget
    omega
  · simp only [State.now] at hnow
    omega

/-- The step of `is_revoked` keeps the invariant when it runs in time. -/
theorem ChainInv.checkRevoked (h : ChainInv settings s) {c : CallId}
    (htime : ChecksInTime settings s c) (hstep : s.checkRevoked c = some s') :
    ChainInv settings s' := by
  obtain ⟨identity, hcall, ⟨hok, rfl⟩ | ⟨e, rfl⟩⟩ := State.checkRevoked_cases hstep
  · refine h.setCall fun r hr hu => ?_
    obtain ⟨i, hi, hsub, hiat, hchain⟩ := h.calls c _ hcall
    have hlt : r.second < i.token.iat := h.iat_of_check htime hcall hok hiat hr hu
    cases hauth : identity.authTime with
    | none => exact hlt.trans_le (h.inv.iat_le i hi)
    | some a =>
      -- A chain that began by the marker's second would have its token minted by then.
      by_contra hge
      have := h.bound r (Or.inl hr) i hi (hsub.trans hu.symm) a
        (hchain.trans hauth) (not_lt.mp hge)
      omega
  · exact h.setCall trivial

/-- A refresh that mints in time keeps the bound: each marker of its user is before the chain,
or at or after the mint. -/
theorem ChainInv.bound_mint (h : ChainInv settings s) {c : CallId} {call : Call} {grant : Grant}
    (htime : MintsInTime s c) (hcall : s.calls c = some call)
    (hg : call.grant? = some grant) {r : Reading} (hr : Lands s r) (hu : grant.user = r.user)
    (ha : grant.authTime.getD s.now ≤ r.second) : s.now ≤ r.second := by
  have hgrant := (h.calls c call hcall).of_grant hg
  unfold CallOk.GrantOk at hgrant
  split at hgrant
  · rwa [hgrant] at ha
  · rename_i checkedAfter horigin
    obtain ⟨authTime, hauth, hafter⟩ := hgrant
    by_cases hmem : r ∈ checkedAfter
    · have := hafter r hmem hu.symm
      rw [hauth, Option.getD_some] at ha
      omega
    · exact htime call grant checkedAfter hcall hg horigin r hr hu.symm hmem

/-- Both mints keep the invariant when they are in time. `call` is what becomes of the call. -/
theorem ChainInv.issue (h : ChainInv settings s) {c : CallId} {call : Call} {grant : Grant}
    (htime : MintsInTime s c) (hcall : s.calls c = some call)
    (hg : call.grant? = some grant) {token : Token} (hsub : token.sub = grant.user)
    (hinv : Inv settings s')
    (hissued : s'.issued = ⟨token, some (grant.authTime.getD s.now)⟩ :: s.issued)
    (hiat : token.iat = s.now) (hlands : ∀ r, Lands s' r → Lands s r)
    (hclock : s'.clock = s.clock) (hcalls : ∀ c call, s'.calls c = some call → CallOk s call) :
    ChainInv settings s' where
  inv := hinv
  bound r hr i hi hu a ha hle := by
    have hr := hlands r hr
    rw [hissued, List.mem_cons] at hi
    rcases hi with rfl | hi
    · simp only [Option.some.injEq] at ha
      rw [hiat]
      exact h.bound_mint htime hcall hg hr (hsub.symm.trans hu) (ha.trans_le hle)
    · exact h.bound r hr i hi hu a ha hle
  calls c call hc := (hcalls c call hc).mono
    (fun i hi => hissued ▸ List.mem_cons_of_mem _ hi) (by simp only [State.now, hclock, le_rfl])

/-- Each timely step keeps the invariant of the chains. -/
theorem ChainInv.step {l : Label} (h : ChainInv settings s) (htime : Timely settings s l)
    (hstep : Sessions.step settings s l = some s') : ChainInv settings s' := by
  have hinv : Inv settings s' := by
    refine h.inv.step (fun q hq => ?_) hstep
    subst hq
    exact htime
  have hquiet : Quiet s s' → s'.calls = s.calls → ChainInv settings s' := fun hq hcalls =>
    ⟨hinv, fun r hr => hq.issued ▸ h.bound r (hq.lands hr),
      h.calls_mono hcalls (fun _ hi => hq.issued ▸ hi)
        (by simp only [State.now, hq.clock, le_rfl])⟩
  cases l with
  | tick milliseconds =>
    cases hstep
    exact ⟨hinv, h.bound, h.calls_mono rfl (fun _ => id) (now_le_tick s milliseconds)⟩
  | login c user password =>
    rw [State.login_cases hstep]
    exact h.setCall rfl
  | verify c token =>
    rcases State.verify_cases hstep with ⟨i, hi, identity, rfl, hdec, rfl⟩ | ⟨_, rfl⟩
    · obtain ⟨htyp, -, rfl⟩ := decode_eq_some.mp hdec
      exact h.setCall ⟨i, hi, rfl, rfl, h.inv.chain_eq i hi htyp⟩
    · exact h.setCall trivial
  | checkRevoked c => exact h.checkRevoked htime hstep
  | checkLifetime c =>
    obtain ⟨identity, checkedAfter, hcall, rfl | ⟨_, rfl⟩⟩ := State.checkLifetime_cases hstep
    · exact h.setCall ⟨_, rfl, h.calls c _ hcall⟩
    · exact h.setCall trivial
  | loadUser c =>
    obtain ⟨grant, hcall, ⟨_, _, rfl⟩ | ⟨_, rfl⟩⟩ := State.loadUser_cases hstep
    · exact h.setCall ((h.calls c _ hcall).of_grant rfl)
    · exact h.setCall trivial
  | loadRoles c =>
    obtain ⟨grant, row, _, hcall, ⟨_, rfl⟩ | ⟨_, rfl⟩⟩ := State.loadRoles_cases hstep
    · exact h.setCall ((h.calls c _ hcall).of_grant rfl)
    · exact h.setCall trivial
  | mintAccess c =>
    obtain ⟨grant, permissions, _, _, hcall, rfl⟩ := State.mintAccess_cases hstep
    exact h.issue htime hcall rfl rfl hinv rfl rfl (fun _ => id) rfl
      (forall_update h.calls ((h.calls c _ hcall).of_grant rfl))
  | mintRefresh c =>
    obtain ⟨grant, permissions, hcall, rfl⟩ := State.mintRefresh_cases hstep
    exact h.issue htime hcall rfl rfl hinv rfl rfl (fun _ => id) rfl
      fun c' call hc => h.calls c' call (update_none_eq_some.mp hc).2
  | readClock q =>
    obtain ⟨txn, u, todo, _, _, rfl⟩ := State.readClock_cases hstep
    refine ⟨hinv, fun r hr i hi hu a ha hle => ?_, h.calls_mono rfl (fun _ => id) le_rfl⟩
    rcases hr with hr | ⟨txn', todo', htxn', hw⟩
    · exact h.bound r (Or.inl hr) i hi hu a ha hle
    · rcases update_some_eq_some.mp htxn' with ⟨hq, rfl⟩ | ⟨-, htxn'⟩
      · -- No token was minted later than the second that was just read.
        injection hw with _ hsecond _
        rw [← hsecond]
        exact h.inv.iat_le i hi
      · exact h.bound r (Or.inr ⟨txn', todo', htxn', hw⟩) i hi hu a ha hle
  | setMarker q =>
    obtain ⟨txn, u, second, todo, htxn, hphase, rfl⟩ := State.setMarker_cases hstep
    refine ⟨hinv, fun r hr => h.bound r ?_, h.calls_mono rfl (fun _ => id) le_rfl⟩
    rcases hr with hr | ⟨txn', todo', htxn', hw⟩
    · rcases List.mem_cons.mp hr with rfl | hr
      · exact Or.inr ⟨txn, todo, htxn, hphase⟩
      · exact Or.inl hr
    · rcases update_some_eq_some.mp htxn' with ⟨-, rfl⟩ | ⟨-, htxn'⟩
      · cases hw
      · exact Or.inr ⟨txn', todo', htxn', hw⟩
  | begin q request =>
    refine hquiet ((step_quiet hstep).resolve_right (by simp)) ?_
    obtain ⟨_, ⟨_, rfl⟩ | ⟨_, _, _, _, _, rfl⟩⟩ := State.begin_cases hstep <;> rfl
  | act q groupHolders users members =>
    refine hquiet ((step_quiet hstep).resolve_right (by simp)) ?_
    obtain ⟨_, _, _, _, _, _, hperform⟩ := State.act_cases hstep
    rcases State.perform_cases hperform with
      ⟨_, _, _, _, rfl⟩ | ⟨_, _, _, _, rfl⟩ | ⟨_, _, loss, _, _, rfl⟩ <;> rfl
  | skip q =>
    refine hquiet ((step_quiet hstep).resolve_right (by simp)) ?_
    obtain ⟨_, _, _, _, _, _, _, rfl⟩ := State.skip_cases hstep
    rfl
  | selectHolders q =>
    refine hquiet ((step_quiet hstep).resolve_right (by simp)) ?_
    obtain ⟨_, _, _, _, _, rfl⟩ := State.selectHolders_cases hstep
    rfl
  | commit q =>
    refine hquiet ((step_quiet hstep).resolve_right (by simp)) ?_
    obtain ⟨_, _, _, _, rfl⟩ := State.commit_cases hstep
    rfl
  | abort q =>
    refine hquiet ((step_quiet hstep).resolve_right (by simp)) ?_
    obtain ⟨_, _, _, rfl⟩ := State.abort_cases hstep
    rfl

/-- Revocation is final in every run whose steps are timely. Once a marker has landed, no token
of its user passes the checks, whenever it was minted, if its rotation chain began at or before
the marker's second. -/
theorem revocation_final
    (httl : settings.sessionTtlSeconds ≤ settings.refreshAbsoluteMaxLifetimeSeconds)
    {s₀ : State} {ls : List Label} (hstart : Start settings s₀)
    (htime : Along (Sessions.step settings) (Timely settings) s₀ ls)
    (hrun : run (Sessions.step settings) s₀ ls = some s) :
    ∀ r ∈ s.landed, ∀ i ∈ s.issued, i.token.sub = r.user →
      ∀ authTime, i.chain = some authTime → authTime ≤ r.second →
        ¬ Passes s.redis s.clock i.token := by
  have h : ChainInv settings s :=
    run_invariant_along (fun _ _ _ h htime => h.step htime) hstart.chainInv htime hrun
  intro r hr i hi hu authTime hchain hle
  exact h.inv.not_passes httl hr hi hu
    (h.bound r (Or.inl hr) i hi hu authTime hchain hle)

end

/-- The default lifetimes, without an identity provider. -/
def defaultSettings : Settings where
  sessionTtlSeconds := 86400
  refreshTokenTtlSeconds := 2592000
  refreshAbsoluteMaxLifetimeSeconds := 7776000
  oidcAllowedDomains := []
  lower := id
  verifyPassword password hash := password == hash
  refresh_lt := by decide

/-- A refresh token of user 1, from a login at the second 100. -/
def adaRefreshToken : Token where
  typ := .refresh
  sub := 1
  provider := "local"
  permissions := ∅
  iat := 100
  exp := 2592100
  authTime := some 100

/-- User 1 is signed in, half a second after the login. -/
def adaSignedIn : State where
  clock := 100500
  redis _ := none
  db :=
    { user u :=
        if u = 1 then
          some { email := "ada@example.com", password := some "tulip", status := .active,
                 roleIds := [] }
        else none
      role _ := none
      userIds := [1]
      roleIds := []
      mem_userIds := by simp
      mem_roleIds := Directory.mem_of_no_role }
  issued := [⟨adaRefreshToken, some 100⟩]
  calls _ := none
  txns _ := none
  roleLock _ := none
  userLock _ := none
  read := []
  landed := []
  committed := []

theorem adaSignedIn_start : Start defaultSettings adaSignedIn where
  iat_le := by decide
  exp_eq := by decide
  chain_eq := by decide
  calls _ := rfl
  txns _ := rfl
  read := rfl
  landed := rfl
  committed := rfl

/-- A force-logout of user 1. -/
def logoutAda : List Label :=
  [.begin 0 (.forceLogout [1]), .act 0 0 0 0, .readClock 0, .setMarker 0, .commit 0]

/-- A refresh that is complete before the force-logout. -/
def refreshThenLogout : List Label :=
  [.verify 0 adaRefreshToken, .checkRevoked 0, .checkLifetime 0, .loadUser 0, .loadRoles 0,
    .mintAccess 0, .mintRefresh 0] ++ logoutAda

/-- A refresh that asks `is_revoked`, then a force-logout, then the mint one second later. -/
def refreshAcrossLogout : List Label :=
  [.verify 0 adaRefreshToken, .checkRevoked 0] ++ logoutAda ++
    [.tick 1000, .checkLifetime 0, .loadUser 0, .loadRoles 0, .mintAccess 0, .mintRefresh 0]

/-- The refresh before the force-logout is timely, and none of the three tokens passes. -/
theorem revocation_final_of_refreshThenLogout :
    ∃ s, run (step defaultSettings) adaSignedIn refreshThenLogout = some s ∧
      s.landed = [⟨0, 1, 100⟩] ∧ s.issued.length = 3 ∧
      ∀ r ∈ s.landed, ∀ i ∈ s.issued, i.token.sub = r.user →
        ∀ authTime, i.chain = some authTime → authTime ≤ r.second →
          ¬ Passes s.redis s.clock i.token := by
  have htime : Along (step defaultSettings) (Timely defaultSettings) adaSignedIn
      refreshThenLogout := by
    refine ⟨trivial, fun s₁ h₁ => ⟨fun _ _ _ _ => Or.inr fun _ hr => ?_, fun s₂ h₂ => ?_⟩⟩
    · cases h₁
      exact nomatch hr
    refine ⟨trivial, fun s₃ h₃ => ⟨trivial, fun s₄ h₄ => ⟨trivial, fun s₅ h₅ => ?_⟩⟩⟩
    cases h₁; cases h₂; cases h₃; cases h₄; cases h₅
    refine ⟨mintsInTime_of_quiet rfl (fun _ => rfl), fun s₆ h₆ => ?_⟩
    cases h₆
    refine ⟨mintsInTime_of_quiet rfl (fun _ => rfl), fun s₇ h₇ => ?_⟩
    refine ⟨trivial, fun s₈ h₈ => ⟨trivial, fun s₉ h₉ => ⟨trivial, fun s₁₀ h₁₀ => ?_⟩⟩⟩
    cases h₇; cases h₈; cases h₉; cases h₁₀
    exact ⟨fun _ _ _ _ _ _ _ hm => (nomatch hm), fun _ _ => ⟨trivial, fun _ _ => trivial⟩⟩
  obtain ⟨s, hrun, hs⟩ := exists_run_of_any (by decide :
    (run (step defaultSettings) adaSignedIn refreshThenLogout).any (fun s =>
      decide (s.landed = [⟨0, 1, 100⟩]) && decide (s.issued.length = 3)) = true)
  simp only [Bool.and_eq_true, decide_eq_true_eq] at hs
  exact ⟨s, hrun, hs.1, hs.2, revocation_final (by decide) adaSignedIn_start htime hrun⟩

/-- Revocation is not final in every run: the pair that a refresh mints one second after the
marker landed, from a check made before it, passes. -/
theorem revocation_escapes :
    ¬ ∀ (settings : Settings) (s₀ s : State) (ls : List Label), Start settings s₀ →
      run (step settings) s₀ ls = some s →
      ∀ r ∈ s.landed, ∀ i ∈ s.issued, i.token.sub = r.user →
        ∀ authTime, i.chain = some authTime → authTime ≤ r.second →
          ¬ Passes s.redis s.clock i.token := by
  intro hall
  obtain ⟨s, hrun, hs⟩ := exists_run_of_any (by decide :
    (run (step defaultSettings) adaSignedIn refreshAcrossLogout).any (fun s =>
      s.landed.any fun r => s.issued.any fun i =>
        decide (i.token.sub = r.user) && decide (i.chain = some 100) && decide (100 ≤ r.second) &&
          acceptsRefresh s.redis s.clock i.token) = true)
  obtain ⟨r, hr, i, hi, hbad⟩ : ∃ r ∈ s.landed, ∃ i ∈ s.issued, _ := by
    simpa only [List.any_eq_true] using hs
  simp only [Bool.and_eq_true, decide_eq_true_eq] at hbad
  obtain ⟨⟨⟨hsub, hchain⟩, hle⟩, hacc⟩ := hbad
  exact hall defaultSettings adaSignedIn s refreshAcrossLogout adaSignedIn_start hrun r hr i hi
    hsub 100 hchain hle (passesChecks_iff.mp hacc).2

end RedTeaming.Auth.Sessions
