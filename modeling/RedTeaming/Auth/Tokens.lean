import RedTeaming.Auth.Users

/-!
# `RedTeaming.Auth.Tokens`: session tokens and the revocation marker

The pure part of `jwt.py`, `session_revocation.py`, `refresh.py`, and `login.py`. A `Token` is
the claim set of a signed JWT. The signature is taken as correct, so a token that decodes is
one that the application minted. The identity claims that no check here reads (the e-mail and
the names) are left out.

Redis is a partial map with an expiry time on each entry, in milliseconds. `isRevoked` is the
check of the middleware and of the refresh exchange. `accepts` is the middleware: it decodes an
access token and asks `isRevoked`.

A token is refused from the second of its `exp` on. So a token whose lifetime is at most the
marker's TTL is gone by the time a marker that covers it is. The refresh TTL is below the marker's
TTL by the settings validator, which `Settings.refresh_lt` carries. No validator bounds the access
TTL, so the results about access tokens state that bound.
-/

set_option autoImplicit false

namespace RedTeaming.Auth

/-- The settings that sessions read. `_validate_refresh_lifetime` refuses to start without
`refresh_lt`. `lower` and `verifyPassword` are the platform's `str.lower` and argon2. -/
structure Settings where
  sessionTtlSeconds : Nat
  refreshTokenTtlSeconds : Nat
  refreshAbsoluteMaxLifetimeSeconds : Nat
  oidcAllowedDomains : List String
  lower : String → String
  verifyPassword : String → String → Bool
  refresh_lt : refreshTokenTtlSeconds < refreshAbsoluteMaxLifetimeSeconds

/-- The `typ` claim. -/
inductive TokenTyp
  | access | refresh
deriving DecidableEq, Repr

/-- The claims of a session token. Times are in seconds. Only refresh tokens carry `auth_time`,
and those minted before the claim existed do not. -/
structure Token where
  typ : TokenTyp
  sub : UserId
  provider : String
  permissions : Finset Permission
  iat : Nat
  exp : Nat
  authTime : Option Nat := none
deriving DecidableEq

section
variable (settings : Settings)

/-- The lifetime of a token of a type. -/
def Settings.ttlSeconds : TokenTyp → Nat
  | .access => settings.sessionTtlSeconds
  | .refresh => settings.refreshTokenTtlSeconds

/-- Mint a session (access) token at the second `now`. -/
def encodeSessionJwt (now : Nat) (user : UserId) (provider : String)
    (permissions : Finset Permission) : Token :=
  { typ := .access, sub := user, provider, permissions, iat := now
    exp := now + settings.sessionTtlSeconds }

/-- Mint a refresh token at the second `now`. `auth_time` defaults to `now`. -/
def encodeRefreshJwt (now : Nat) (user : UserId) (provider : String)
    (permissions : Finset Permission) (authTime : Option Nat) : Token :=
  { typ := .refresh, sub := user, provider, permissions, iat := now
    exp := now + settings.refreshTokenTtlSeconds, authTime := some (authTime.getD now) }

/-- Verify `typ` and `exp`, and unpack the identity. The claims registry refuses a token on and
after its `exp`. -/
def decode (typ : TokenTyp) (now : Nat) (token : Token) : Option SessionUser :=
  if token.typ = typ ∧ now < token.exp then
    some
      { id := token.sub, provider := token.provider, permissions := token.permissions
        authTime := token.authTime, issuedAt := some token.iat }
  else none

/-- The bearer check of the middleware: an access token. -/
def decodeSessionJwt (now : Nat) (token : Token) : Option SessionUser := decode .access now token

/-- The check of the refresh exchange: a refresh token. -/
def decodeRefreshJwt (now : Nat) (token : Token) : Option SessionUser := decode .refresh now token

/-- The absolute ceiling on a session's lifetime. -/
def exceedsAbsoluteLifetime (now authTime : Nat) : Bool :=
  settings.refreshAbsoluteMaxLifetimeSeconds < now - authTime

/-- The domain of an account's e-mail, in lower case. -/
def emailDomain (email : String) : String := settings.lower (afterLastAt email)

/-- The account checks of `refresh_session`: an ACTIVE account, whose domain is still allowed
when the session came from an identity provider. -/
def admitsRefresh (user : User) (provider : String) : Bool :=
  decide (user.status = .active) &&
    !(decide (provider ≠ "local") && !settings.oidcAllowedDomains.isEmpty &&
      !settings.oidcAllowedDomains.contains (emailDomain settings user.email))

/-- A longer password is rejected before the hash is computed. -/
def maxPasswordLength : Nat := 128

/-- The checks of `authenticate_credentials` on the loaded row. -/
def admitsLogin (user : User) (password : String) : Bool :=
  decide (password.length ≤ maxPasswordLength) && decide (user.status = .active) &&
    match user.password with
    | none => false
    | some hash => settings.verifyPassword password hash

end

/-- A Redis entry: its value, and the millisecond at which it is gone. -/
structure Entry where
  value : Nat
  expireAt : Nat
deriving DecidableEq

/-- The markers `auth:revoked_after:{user_id}`. -/
abbrev Redis := UserId → Option Entry

/-- `GET` at the millisecond `clock`. -/
def Redis.get (redis : Redis) (clock : Nat) (user : UserId) : Option Nat :=
  match redis user with
  | some entry => if clock < entry.expireAt then some entry.value else none
  | none => none

/-- `SET … EX ttl` at the millisecond `clock`. -/
def Redis.set (redis : Redis) (clock : Nat) (user : UserId) (value ttl : Nat) : Redis :=
  Function.update redis user (some { value, expireAt := clock + 1000 * ttl })

@[simp] theorem Redis.set_self (redis : Redis) (clock : Nat) (user : UserId) (value ttl : Nat) :
    redis.set clock user value ttl user = some { value, expireAt := clock + 1000 * ttl } := by
  simp [Redis.set]

theorem Redis.set_of_ne (redis : Redis) (clock value ttl : Nat) {user other : UserId}
    (h : other ≠ user) : redis.set clock user value ttl other = redis other := by
  simp [Redis.set, h]

/-- What the marker lookup answers. -/
inductive Reply
  | marker (value : Option Nat)
  | corrupt
  | redisError

/-- True when the marker is at or after the token's `iat`. `fail_open` turns a failed lookup
into "not revoked". The refresh path passes `false`, and the failure surfaces. -/
def isRevoked (reply : Reply) (issuedAt : Option Nat) (failOpen : Bool) : Except ApiError Bool :=
  match issuedAt with
  | none => .ok false
  | some iat =>
    match reply with
    | .marker none => .ok false
    | .marker (some marker) => .ok (decide (iat ≤ marker))
    | .corrupt => if failOpen then .ok false else .error (.runtimeError "ValueError")
    | .redisError =>
      if failOpen then .ok false
      else .error (.serviceUnavailable "Session store unavailable; please retry.")

/-- A token of type `typ` that decodes at the millisecond `clock` and is not revoked. -/
def passesChecks (typ : TokenTyp) (failOpen : Bool) (redis : Redis) (clock : Nat)
    (token : Token) : Bool :=
  match decode typ (clock / 1000) token with
  | some user =>
    match isRevoked (.marker (redis.get clock user.id)) user.issuedAt failOpen with
    | .ok revoked => !revoked
    | .error _ => false
  | none => false

/-- The middleware: an access token that passes, with the check open to a Redis failure. -/
def accepts : Redis → Nat → Token → Bool := passesChecks .access true

/-- The entry of the refresh exchange: a refresh token that passes. -/
def acceptsRefresh : Redis → Nat → Token → Bool := passesChecks .refresh false

/-- With a reachable Redis, the check passes when the marker is absent or before the `iat`. -/
theorem isRevoked_eq_ok_false {marker : Option Nat} {iat : Nat} {failOpen : Bool} :
    isRevoked (.marker marker) (some iat) failOpen = .ok false ↔
      ∀ m, marker = some m → m < iat := by
  cases marker <;> simp [isRevoked]

/-- What a decoded identity says about its token. -/
theorem decode_eq_some {typ : TokenTyp} {now : Nat} {token : Token} {user : SessionUser} :
    decode typ now token = some user ↔
      token.typ = typ ∧ now < token.exp ∧
        user =
          ⟨token.sub, token.provider, token.permissions, token.authTime, some token.iat⟩ := by
  unfold decode
  rw [Option.ite_none_right_eq_some, and_assoc, Option.some.injEq, eq_comm (b := user)]

/-- A token passes at the millisecond `clock`: it is unexpired and its `iat` is after the
marker. -/
def Passes (redis : Redis) (clock : Nat) (token : Token) : Prop :=
  clock / 1000 < token.exp ∧ ∀ m, redis.get clock token.sub = some m → m < token.iat

/-- The checks let in the tokens of their type that pass. -/
theorem passesChecks_iff {typ : TokenTyp} {failOpen : Bool} {redis : Redis} {clock : Nat}
    {token : Token} :
    passesChecks typ failOpen redis clock token = true ↔
      token.typ = typ ∧ Passes redis clock token := by
  unfold passesChecks Passes
  by_cases h : token.typ = typ ∧ clock / 1000 < token.exp
  · rw [decode_eq_some.mpr ⟨h.1, h.2, rfl⟩]
    cases hm : redis.get clock token.sub <;> simp [isRevoked, hm, h]
  · have hnone : decode typ (clock / 1000) token = none := if_neg h
    rw [hnone]
    simp only [Bool.false_eq_true, false_iff]
    exact fun h' => h ⟨h'.1, h'.2.1⟩

end RedTeaming.Auth
