import RedTeaming.Auth.Revocation

/-!
# `RedTeaming.Auth.SessionLifetimes`: the ceiling of a session, and the life of a marker

`refreshSession` is `refresh_session` as one function of the readings of the clock that it makes,
and `run_refresh` says that its steps in `RedTeaming.Auth.SessionSystem` come to the same pair. A
rotation chain presents a refresh token that it has issued before (`IsChain`).

All refresh tokens of a chain carry one `auth_time`, and the ceiling check lets no exchange
through later than `auth_time + L`. The mints read the clock again, and an access token is refused
from the second of its expiry on. So it is accepted later than its lifetime after `auth_time + L`
exactly when its mint reads the clock two seconds or more after the ceiling.

A marker lives for `L` from the moment when it lands. It outlives the tokens that it covers
exactly when the lifetime of an access token is at most `L`. The settings validator compares `L`
with the refresh lifetime only.
-/

set_option autoImplicit false

namespace RedTeaming.Auth.Sessions

open RedTeaming.Library

/-- The readings of the clock of one exchange, in milliseconds and in their order: the expiry
check, the ceiling check, and the two mints. -/
structure Readings where
  expiry : Nat
  ceiling : Nat
  access : Nat
  refresh : Nat
  expiry_le : expiry ≤ ceiling
  ceiling_le : ceiling ≤ access
  access_le : access ≤ refresh

section
variable (settings : Settings)

/-- `mint_token_pair`, with the readings of the clock of its two mints. -/
def mintTokenPair (access refresh : Nat) (user : UserId) (provider : String)
    (permissions : Finset Permission) (authTime : Option Nat) : Token × Token :=
  (encodeSessionJwt settings (access / 1000) user provider permissions,
    encodeRefreshJwt settings (refresh / 1000) user provider permissions authTime)

/-- `refresh_session`: the new pair. `account` is the live user row with the permissions of its
roles. -/
def refreshSession (reply : Reply) (account : Option (User × Finset Permission))
    (clock : Readings) (token : Token) : Except ApiError (Token × Token) := do
  let identity ← found (decodeRefreshJwt (clock.expiry / 1000) token) invalidRefresh
  let revoked ← isRevoked reply identity.issuedAt false
  check (!revoked) invalidRefresh
  let now := clock.ceiling / 1000
  let authTime := identity.authTime.getD now
  check (!exceedsAbsoluteLifetime settings now authTime) invalidRefresh
  let (user, permissions) ← found account invalidRefresh
  check (admitsRefresh settings user identity.provider) invalidRefresh
  .ok (mintTokenPair settings clock.access clock.refresh identity.id identity.provider permissions
    (some authTime))

/-- One exchange of a chain: the token that it presents, its readings of the clock, and the new
pair. -/
structure Rotation where
  presented : Token
  clock : Readings
  access : Token
  refresh : Token

/-- The refresh tokens of a chain that begins with `first`. -/
def refreshTokens (first : Token) (rotations : List Rotation) : List Token :=
  first :: rotations.map (·.refresh)

/-- A rotation chain: each exchange presents a refresh token of the chain, and succeeds. -/
inductive IsChain (first : Token) : List Rotation → Prop
  | nil : IsChain first []
  | rotate {rotations : List Rotation} (rotation : Rotation) (reply : Reply)
      (account : Option (User × Finset Permission)) (h : IsChain first rotations)
      (hpresented : rotation.presented ∈ refreshTokens first rotations)
      (hok : refreshSession settings reply account rotation.clock rotation.presented =
        .ok (rotation.access, rotation.refresh)) :
      IsChain first (rotations ++ [rotation])

end

section
variable {settings : Settings} {reply : Reply} {account : Option (User × Finset Permission)}
  {clock : Readings} {token first : Token} {pair : Token × Token} {rotations : List Rotation}

/-! ### One exchange -/

/-- An exchange succeeds for a refresh token within the ceiling, and mints for its `auth_time`. -/
theorem refreshSession_eq_ok (h : refreshSession settings reply account clock token = .ok pair) :
    token.typ = .refresh ∧ clock.expiry / 1000 < token.exp ∧
      clock.ceiling / 1000 ≤ token.authTime.getD (clock.ceiling / 1000) +
        settings.refreshAbsoluteMaxLifetimeSeconds ∧
      ∃ permissions, pair = mintTokenPair settings clock.access clock.refresh token.sub
        token.provider permissions (some (token.authTime.getD (clock.ceiling / 1000))) := by
  simp only [refreshSession, bind_eq_ok, check_eq_ok, found_eq_ok, exists_unit] at h
  obtain ⟨identity, hidentity, revoked, -, -, hceiling, ⟨user, permissions⟩, -, -, hpair⟩ := h
  obtain ⟨htyp, hexp, rfl⟩ := decode_eq_some.mp hidentity
  -- A token without `auth_time` gets the second of the check, and passes it.
  have hceiling : ¬ settings.refreshAbsoluteMaxLifetimeSeconds <
      clock.ceiling / 1000 - token.authTime.getD (clock.ceiling / 1000) := by
    simpa [exceedsAbsoluteLifetime] using hceiling
  exact ⟨htyp, hexp, by omega, permissions, (Except.ok.inj hpair).symm⟩

/-- Both tokens of a pair have the second of their mint. -/
theorem mintTokenPair_spec {access refresh : Nat} {user : UserId} {provider : String}
    {permissions : Finset Permission} {authTime : Option Nat}
    (h : pair = mintTokenPair settings access refresh user provider permissions authTime) :
    pair.1.typ = .access ∧ pair.1.exp = access / 1000 + settings.sessionTtlSeconds ∧
      pair.2.authTime = some (authTime.getD (refresh / 1000)) := by
  rw [h]
  exact ⟨rfl, rfl, rfl⟩

/-- The last instant at which an access token is accepted is in the second before its expiry. -/
theorem accepts_le_iff {bound : Nat} (htyp : token.typ = .access) :
    (∀ redis clock, accepts redis clock token = true → clock / 1000 ≤ bound) ↔
      token.exp ≤ bound + 1 := by
  constructor
  · intro h
    by_contra hlate
    -- Without a marker, the token is accepted in the second after the bound.
    have hlast : accepts (fun _ => none) (1000 * (bound + 1)) token = true := by
      refine passesChecks_iff.mpr ⟨htyp, by omega, fun m hm => ?_⟩
      cases hm
    have hbound := h _ _ hlast
    omega
  · intro h redis clock haccepts
    have hunexpired := (passesChecks_iff.mp haccepts).2.1
    omega

/-! ### A rotation chain -/

/-- All refresh tokens of a chain carry one `auth_time`. -/
theorem authTime_of_chain {authTime : Nat} (hfirst : first.authTime = some authTime)
    (h : IsChain settings first rotations) :
    ∀ token ∈ refreshTokens first rotations, token.authTime = some authTime := by
  induction h with
  | nil =>
    intro token htoken
    rw [List.mem_singleton.mp htoken]
    exact hfirst
  | @rotate rotations rotation reply account _ hpresented hok ih =>
    intro token htoken
    rw [refreshTokens, List.map_append, ← List.cons_append, List.mem_append] at htoken
    rcases htoken with hold | hnew
    · exact ih token hold
    · -- The new token takes over the `auth_time` of the one presented, which is in the chain.
      obtain ⟨-, -, -, permissions, hpair⟩ := refreshSession_eq_ok hok
      obtain ⟨-, -, hauth⟩ := mintTokenPair_spec hpair
      rw [List.mem_singleton.mp hnew]
      rw [ih _ hpresented] at hauth
      exact hauth

/-- An exchange of a chain is one that succeeded for a token of the chain. -/
theorem exists_of_chain (h : IsChain settings first rotations) {rotation : Rotation}
    (hrotation : rotation ∈ rotations) :
    rotation.presented ∈ refreshTokens first rotations ∧ ∃ reply account,
      refreshSession settings reply account rotation.clock rotation.presented =
        .ok (rotation.access, rotation.refresh) := by
  induction h with
  | nil => cases hrotation
  | @rotate rotations last reply account _ hpresented hok ih =>
    -- A chain that grows keeps its tokens.
    have hmono : ∀ token ∈ refreshTokens first rotations,
        token ∈ refreshTokens first (rotations ++ [last]) := by
      intro token htoken
      rw [refreshTokens, List.map_append, ← List.cons_append]
      exact List.mem_append_left _ htoken
    rcases List.mem_append.mp hrotation with hold | hnew
    · obtain ⟨hmem, hsome⟩ := ih hold
      exact ⟨hmono _ hmem, hsome⟩
    · rw [List.mem_singleton.mp hnew]
      exact ⟨hmono _ hpresented, reply, account, hok⟩

/-- No exchange of a token of a chain succeeds when its ceiling check reads a second after the
ceiling. -/
theorem ceiling_of_chain {authTime : Nat} (hfirst : first.authTime = some authTime)
    (h : IsChain settings first rotations) (htoken : token ∈ refreshTokens first rotations)
    (hok : refreshSession settings reply account clock token = .ok pair) :
    clock.ceiling / 1000 ≤ authTime + settings.refreshAbsoluteMaxLifetimeSeconds := by
  obtain ⟨-, -, hceiling, -⟩ := refreshSession_eq_ok hok
  rw [authTime_of_chain hfirst h token htoken] at hceiling
  exact hceiling

/-- The access tokens of a chain are accepted no later than their lifetime after the ceiling,
exactly when each was minted by the second after the ceiling. -/
theorem accepted_of_chain_iff {authTime : Nat} (h : IsChain settings first rotations) :
    (∀ rotation ∈ rotations, ∀ redis clock, accepts redis clock rotation.access = true →
        clock / 1000 ≤ authTime + settings.refreshAbsoluteMaxLifetimeSeconds +
          settings.sessionTtlSeconds) ↔
      ∀ rotation ∈ rotations,
        rotation.clock.access / 1000 ≤
          authTime + settings.refreshAbsoluteMaxLifetimeSeconds + 1 := by
  refine forall₂_congr fun rotation hrotation => ?_
  obtain ⟨-, reply, account, hok⟩ := exists_of_chain h hrotation
  obtain ⟨-, -, -, permissions, hpair⟩ := refreshSession_eq_ok hok
  obtain ⟨htyp, hexp, -⟩ := mintTokenPair_spec hpair
  -- Both sides bound the second of the mint, since the expiry is the mint and the lifetime.
  rw [accepts_le_iff htyp, hexp]
  omega

/-! ### The steps of an exchange -/

variable {s : State} {c : CallId}

/-- The steps of an exchange, with the time that passes between them. -/
def exchangeLabels (c : CallId) (token : Token) (d₁ d₂ d₃ d₄ : Nat) : List Label :=
  [.verify c token, .tick d₁, .checkRevoked c, .tick d₂, .checkLifetime c,
    .loadUser c, .loadRoles c, .tick d₃, .mintAccess c, .tick d₄, .mintRefresh c]

/-- The readings of the clock in these steps. -/
def exchangeReadings (s : State) (d₁ d₂ d₃ d₄ : Nat) : Readings where
  expiry := s.clock
  ceiling := s.clock + d₁ + d₂
  access := s.clock + d₁ + d₂ + d₃
  refresh := s.clock + d₁ + d₂ + d₃ + d₄
  expiry_le := by omega
  ceiling_le := by omega
  access_le := by omega

/-- The account that the steps load. -/
def loadedAccount (db : Directory) (u : UserId) : Option (User × Finset Permission) :=
  (db.liveUser u).map fun row => (row, effectivePermissions (db.liveRoles row))

/-- The steps of an exchange issue the pair of `refreshSession`. -/
theorem run_refresh {d₁ d₂ d₃ d₄ : Nat} {issued : Issued} (hissued : issued ∈ s.issued)
    (hcall : s.calls c = none)
    (hok : refreshSession settings (.marker (s.redis.get (s.clock + d₁) issued.token.sub))
      (loadedAccount s.db issued.token.sub)
      (exchangeReadings s d₁ d₂ d₃ d₄) issued.token = .ok pair) :
    ∃ s', run (step settings) s (exchangeLabels c issued.token d₁ d₂ d₃ d₄) = some s' ∧
      s'.issued.map (·.token) = pair.2 :: pair.1 :: s.issued.map (·.token) := by
  simp only [refreshSession, bind_eq_ok, check_eq_ok, found_eq_ok, exists_unit] at hok
  obtain ⟨identity, hidentity, revoked, hrevoked, hlive, hceiling, ⟨user, permissions⟩, haccount,
    hadmits, hpair⟩ := hok
  have hid : identity.id = issued.token.sub := by
    obtain ⟨-, -, rfl⟩ := decode_eq_some.mp hidentity
    rfl
  rw [Bool.not_eq_true'] at hlive hceiling
  rw [hlive, ← hid] at hrevoked
  obtain ⟨row, hrow, hloaded⟩ := Option.map_eq_some_iff.mp haccount
  cases hloaded
  rw [← hid] at hrow
  have hany : s.issued.any (fun i => decide (i.token = issued.token)) = true :=
    List.any_eq_true.mpr ⟨issued, hissued, decide_eq_true rfl⟩
  have hdecode : decodeRefreshJwt s.now issued.token = some identity := hidentity
  have hverify : s.verify c issued.token = some (s.setCall c (.verified identity)) := by
    unfold State.verify
    simp only [hcall, hany, hdecode, if_true]
  have hceiling : exceedsAbsoluteLifetime settings ((s.clock + d₁ + d₂) / 1000)
      (identity.authTime.getD ((s.clock + d₁ + d₂) / 1000)) = false := hceiling
  -- Each step finds the call where the step before it has left it.
  simp only [exchangeLabels, run_cons, step, hverify, Option.bind_some, State.tick, State.setCall,
    Function.update_self, State.checkRevoked, hrevoked, State.checkLifetime, State.now, hceiling,
    Bool.false_eq_true, if_false, State.loadUser, hrow, State.loadRoles, State.admits,
    hadmits, if_true, State.mintAccess, State.mintRefresh, run_nil, Option.some.injEq,
    exists_eq_left', List.map_cons]
  rw [← Except.ok.inj hpair]
  rfl

end

/-! ### The life of a marker -/

/-- A step replaces no stored later marker. -/
def Advances (s : State) : Label → Prop
  | .setMarker q => MarkerAdvances s q
  | _ => True

/-- A token that a landed marker covers does not pass, in any state that a run reaches whose
marker writes replace no later marker. -/
def MarkersHold (settings : Settings) : Prop :=
  ∀ (s₀ s : State) (ls : List Label), Start settings s₀ →
    Along (step settings) Advances s₀ ls → run (step settings) s₀ ls = some s →
    ∀ r ∈ s.landed, ∀ i ∈ s.issued, i.token.sub = r.user → i.token.iat ≤ r.second →
      ¬ Passes s.redis s.clock i.token

/-- With the lifetime of an access token at most that of a marker, the markers hold. -/
theorem markersHold_of_le {settings : Settings}
    (httl : settings.sessionTtlSeconds ≤ settings.refreshAbsoluteMaxLifetimeSeconds) :
    MarkersHold settings := by
  intro s₀ s ls hstart halong hrun
  -- The condition on the marker writes is what the invariant asks of each step.
  have hinv : Inv settings s := by
    refine run_invariant_along (fun s l s' h hadv hstep => ?_) hstart.inv halong hrun
    refine h.step (fun q hq => ?_) hstep
    subst hq
    exact hadv
  exact fun r hr i hi => hinv.not_passes httl hr hi

/-- An access token of user 1, minted at the second 0. -/
def adaAccessToken (settings : Settings) : Token :=
  encodeSessionJwt settings 0 1 "local" ∅

/-- User 1 has that token, in the second of its mint. -/
def adaWithAccess (settings : Settings) : State :=
  { adaSignedIn with clock := 0, issued := [⟨adaAccessToken settings, some 0⟩] }

/-- A force-logout of user 1, and the time that its marker lives. -/
def logoutAndWait (settings : Settings) : List Label :=
  [.begin 0 (.forceLogout [1]), .act 0 0 0 0, .readClock 0, .setMarker 0,
    .tick (1000 * settings.refreshAbsoluteMaxLifetimeSeconds)]

theorem adaWithAccess_start (settings : Settings) : Start settings (adaWithAccess settings) where
  iat_le i hi := by
    rw [List.mem_singleton.mp hi]
    exact Nat.zero_le _
  exp_eq i hi := by
    rw [List.mem_singleton.mp hi]
    rfl
  chain_eq i hi htyp := by
    rw [List.mem_singleton.mp hi] at htyp
    cases htyp
  calls _ := rfl
  txns _ := rfl
  read := rfl
  landed := rfl
  committed := rfl

/-- The run takes place, and replaces no marker. -/
theorem run_logoutAndWait (settings : Settings) :
    Along (step settings) Advances (adaWithAccess settings) (logoutAndWait settings) ∧
      ∃ s, run (step settings) (adaWithAccess settings) (logoutAndWait settings) = some s ∧
        s.clock = 0 + 1000 * settings.refreshAbsoluteMaxLifetimeSeconds ∧
        s.redis 1 = some ⟨0, 0 + 1000 * settings.refreshAbsoluteMaxLifetimeSeconds⟩ ∧
        s.landed = [⟨0, 1, 0⟩] ∧ s.issued = [⟨adaAccessToken settings, some 0⟩] := by
  refine ⟨⟨trivial, fun s₁ h₁ => ⟨trivial, fun s₂ h₂ => ⟨trivial, fun s₃ h₃ => ?_⟩⟩⟩,
    _, rfl, rfl, ?_, ?_, rfl⟩
  · -- Nothing is stored before the one write of a marker.
    cases h₁
    cases h₂
    cases h₃
    refine ⟨?_, fun _ _ => ⟨trivial, fun _ _ => trivial⟩⟩
    intro txn u second todo _ _ marker hmarker
    cases hmarker
  · simp [Redis.set, State.now, State.setTxn, State.tick, adaWithAccess]
  · simp [State.now, State.setTxn, State.tick, adaWithAccess, adaSignedIn]

/-- The markers hold exactly when the lifetime of an access token is at most that of a marker. -/
theorem markersHold_iff {settings : Settings} : MarkersHold settings ↔
    settings.sessionTtlSeconds ≤ settings.refreshAbsoluteMaxLifetimeSeconds := by
  refine ⟨fun h => ?_, markersHold_of_le⟩
  -- A token that lives longer than a marker is minted and covered in the same second.
  by_contra hlonger
  obtain ⟨halong, s, hrun, hclock, hredis, hlanded, hissued⟩ := run_logoutAndWait settings
  refine h _ s _ (adaWithAccess_start settings) halong hrun ⟨0, 1, 0⟩ ?_
    ⟨adaAccessToken settings, some 0⟩ ?_ rfl le_rfl ?_
  · rw [hlanded]
    exact List.mem_singleton_self _
  · rw [hissued]
    exact List.mem_singleton_self _
  · have hexp : (adaAccessToken settings).exp = 0 + settings.sessionTtlSeconds := rfl
    have hunexpired : s.clock / 1000 < (adaAccessToken settings).exp := by omega
    refine ⟨hunexpired, fun m hm => ?_⟩
    -- Before its expiry, the token has lost its marker.
    have hgone : s.redis.get s.clock 1 = none := by
      rw [Redis.get, hredis, hclock]
      exact if_neg (lt_irrefl _)
    rw [show (adaAccessToken settings).sub = 1 from rfl, hgone] at hm
    cases hm

/-- All refresh tokens of a rotation chain carry one `auth_time`, and no exchange of them succeeds
when its ceiling check reads a second after `auth_time + L`. The access tokens are accepted for no
more than their lifetime after that exactly when each is minted by the second after it, as that of
a login is. A token of a covered second stays rejected exactly when the lifetime of an access
token is at most `L`. -/
theorem session_lifetimes (settings : Settings) :
    (∀ (access refresh : Nat) (user : UserId) (provider : String)
      (permissions : Finset Permission), access ≤ refresh →
        (mintTokenPair settings access refresh user provider permissions none).2.authTime =
          some (refresh / 1000) ∧
        ∀ redis clock, accepts redis clock
            (mintTokenPair settings access refresh user provider permissions none).1 = true →
          clock / 1000 ≤ refresh / 1000 + settings.refreshAbsoluteMaxLifetimeSeconds +
            settings.sessionTtlSeconds) ∧
    (∀ (first : Token) (authTime : Nat) (rotations : List Rotation),
      first.authTime = some authTime → IsChain settings first rotations →
        (∀ token ∈ refreshTokens first rotations, token.authTime = some authTime) ∧
        (∀ token ∈ refreshTokens first rotations, ∀ reply account clock pair,
          refreshSession settings reply account clock token = .ok pair →
            clock.ceiling / 1000 ≤ authTime + settings.refreshAbsoluteMaxLifetimeSeconds) ∧
        ((∀ rotation ∈ rotations, ∀ redis clock, accepts redis clock rotation.access = true →
            clock / 1000 ≤ authTime + settings.refreshAbsoluteMaxLifetimeSeconds +
              settings.sessionTtlSeconds) ↔
          ∀ rotation ∈ rotations,
            rotation.clock.access / 1000 ≤
              authTime + settings.refreshAbsoluteMaxLifetimeSeconds + 1)) ∧
    (MarkersHold settings ↔
      settings.sessionTtlSeconds ≤ settings.refreshAbsoluteMaxLifetimeSeconds) := by
  refine ⟨?_, fun first authTime rotations hfirst h => ⟨authTime_of_chain hfirst h, ?_, ?_⟩,
    markersHold_iff⟩
  · intro access refresh user provider permissions hle
    obtain ⟨htyp, hexp, hauth⟩ := mintTokenPair_spec
      (rfl : mintTokenPair settings access refresh user provider permissions none = _)
    refine ⟨hauth, (accepts_le_iff htyp).mpr ?_⟩
    rw [hexp]
    have hsecond : access / 1000 ≤ refresh / 1000 := Nat.div_le_div_right hle
    omega
  · exact fun token htoken reply account clock pair hok => ceiling_of_chain hfirst h htoken hok
  · exact accepted_of_chain_iff h

/-- Settings whose access tokens live longer than a marker. The validator admits them. -/
def boundarySettings : Settings :=
  { defaultSettings with
    sessionTtlSeconds := 12
    refreshTokenTtlSeconds := 5
    refreshAbsoluteMaxLifetimeSeconds := 10
    refresh_lt := by decide }

/-- A refresh token of a session that began at the second 0. -/
def lastRefreshToken : Token where
  typ := .refresh
  sub := 1
  provider := "local"
  permissions := ∅
  iat := 8
  exp := 13
  authTime := some 0

/-- An exchange whose ceiling check reads the second 10, and whose mints read the second 12. -/
def lateRotation (settings : Settings) : Rotation where
  presented := lastRefreshToken
  clock :=
    { expiry := 10000, ceiling := 10900, access := 12000, refresh := 12000
      expiry_le := by decide, ceiling_le := by decide, access_le := by decide }
  access := encodeSessionJwt settings 12 1 "local" ∅
  refresh := encodeRefreshJwt settings 12 1 "local" ∅ (some 0)

/-- Settings whose access tokens live no longer than a marker. -/
def shortSettings : Settings := { boundarySettings with sessionTtlSeconds := 10 }

/-- A token outlives the marker that covers it where the settings let an access token live longer.
Also where they do not, a token of a chain is accepted for too long. -/
theorem token_outlives_its_limits :
    (¬ ∀ settings : Settings, MarkersHold settings) ∧
    ¬ ∀ (settings : Settings) (first : Token) (authTime : Nat) (rotations : List Rotation),
      settings.sessionTtlSeconds ≤ settings.refreshAbsoluteMaxLifetimeSeconds →
      first.authTime = some authTime → IsChain settings first rotations →
      ∀ rotation ∈ rotations, ∀ redis clock, accepts redis clock rotation.access = true →
        clock / 1000 ≤ authTime + settings.refreshAbsoluteMaxLifetimeSeconds +
          settings.sessionTtlSeconds := by
  constructor
  · intro h
    have hle := markersHold_iff.mp (h boundarySettings)
    exact absurd hle (by decide)
  · intro h
    have hchain : IsChain shortSettings lastRefreshToken [lateRotation shortSettings] :=
      IsChain.rotate (lateRotation shortSettings) (.marker none)
        (some ({ email := "ada@example.com", password := none, status := .active, roleIds := [] },
          ∅))
        .nil (List.mem_singleton_self _) rfl
    have hlate := h shortSettings lastRefreshToken 0 [lateRotation shortSettings]
      (by decide) rfl hchain
      (lateRotation shortSettings) (List.mem_singleton_self _) (fun _ => none) 21000 (by decide)
    exact absurd hlate (by decide)

end RedTeaming.Auth.Sessions
