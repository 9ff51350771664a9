import RedTeaming.Auth.AccountEffects
import RedTeaming.Library.Transition

/-!
# `RedTeaming.Auth.InvitationLifecycle`: the life cycle of invitations

An invitation is issued PENDING and never becomes PENDING again: it is revoked by a re-issue in
its scope, accepted, swept with an activation, or it runs out. `Ages` says what a write may do to
a row, and `InvitationEffect` what a request does to the table: it ages the rows (`aged`), or it
ages them and inserts a fresh one (`issued`). `perform_invitationEffect` says that nothing else
happens.

`InvitationsOk` is the invariant. Two PENDING invitations are never for one user and scope. Two
rows never share a hash. An invitation that can still be accepted belongs to an account that is
waiting for its onboarding. `invitation_lifecycle` collects what follows in each reachable state.

Expiry needs the clock. `effective` reads it, and no request sets it back.
-/

set_option autoImplicit false

namespace RedTeaming.Auth

open RedTeaming.Library

/-- The account is still in its onboarding: it is an invitee or a self-signup. -/
def User.waiting (row : User) : Prop := row.status = .invited ∨ row.status = .pending

/-! ### Rows that age -/

namespace Invitation

/-- The row keeps its user, hash, expiry, and scope, and a settled row stays settled. -/
structure Ages (i j : Invitation) : Prop where
  user : j.token.user = i.token.user
  hash : j.token.tokenHash = i.token.tokenHash
  expiry : j.token.expiresAt = i.token.expiresAt
  scope : j.scope = i.scope
  pending : j.token.status = .pending → i.token.status = .pending

/-- What a revocation in a scope does to a row. -/
def revokeIn (now : Nat) (u : UserId) (scope : Option ObjectId) (i : Invitation) : Invitation :=
  if i.pendingIn u scope then { i with token := i.token.revoke now } else i

/-- What the sweep of an activation does to a row. -/
def sweep (now : Nat) (u : UserId) (i : Invitation) : Invitation :=
  if i.token.user = u ∧ i.token.effective now = .pending then { i with token := i.token.consume }
  else i

/-- What the use of a token does to a row. -/
def consumeHash (tokenHash : String) (i : Invitation) : Invitation :=
  if i.token.tokenHash = tokenHash then { i with token := i.token.consume } else i

theorem Ages.refl (i : Invitation) : i.Ages i := ⟨rfl, rfl, rfl, rfl, id⟩

theorem Ages.trans {i j k : Invitation} (hij : i.Ages j) (hjk : j.Ages k) : i.Ages k where
  user := hjk.user.trans hij.user
  hash := hjk.hash.trans hij.hash
  expiry := hjk.expiry.trans hij.expiry
  scope := hjk.scope.trans hij.scope
  pending h := hij.pending (hjk.pending h)

/-- A row that can be accepted after it aged could be accepted before. -/
theorem Ages.effective {i j : Invitation} (h : i.Ages j) {now now' : Nat} (hclock : now ≤ now')
    (hpending : j.token.effective now' = .pending) : i.token.effective now = .pending := by
  obtain ⟨hstatus, hlt⟩ := LinkToken.effective_eq_pending.mp hpending
  have hexpiry := h.expiry
  have hbefore : now < i.token.expiresAt := by omega
  exact LinkToken.effective_eq_pending.mpr ⟨h.pending hstatus, hbefore⟩

theorem ages_revokeIn (now : Nat) (u : UserId) (scope : Option ObjectId) (i : Invitation) :
    i.Ages (i.revokeIn now u scope) := by
  unfold revokeIn
  split
  · exact ⟨rfl, rfl, rfl, rfl, nofun⟩
  · exact Ages.refl i

theorem ages_sweep (now : Nat) (u : UserId) (i : Invitation) : i.Ages (i.sweep now u) := by
  unfold sweep
  split
  · exact ⟨rfl, rfl, rfl, rfl, nofun⟩
  · exact Ages.refl i

theorem ages_consumeHash (tokenHash : String) (i : Invitation) :
    i.Ages (i.consumeHash tokenHash) := by
  unfold consumeHash
  split
  · exact ⟨rfl, rfl, rfl, rfl, nofun⟩
  · exact Ages.refl i

/-- A revocation leaves no PENDING row of the user in its scope. -/
theorem revokeIn_settled {now : Nat} {u : UserId} {scope : Option ObjectId} {i : Invitation}
    (huser : i.token.user = u) (hscope : i.scope = scope) :
    (i.revokeIn now u scope).token.status ≠ .pending := by
  unfold revokeIn
  split
  · intro h
    cases h
  · rename_i hnot
    intro hpending
    have : i.pendingIn u scope = true := by simp [pendingIn, huser, hscope, hpending]
    exact hnot this

/-- A sweep leaves no row of the user that can be accepted. -/
theorem sweep_settled {now : Nat} {u : UserId} {i : Invitation} (huser : i.token.user = u) :
    (i.sweep now u).token.effective now ≠ .pending := by
  unfold sweep
  split
  · intro h
    obtain ⟨hused, -⟩ := LinkToken.effective_eq_pending.mp h
    cases hused
  · rename_i hnot
    intro hpending
    exact hnot ⟨huser, hpending⟩

/-- A used token cannot be accepted at any time. -/
theorem consumeHash_settled {tokenHash : String} {i : Invitation}
    (h : i.token.tokenHash = tokenHash) :
    (i.consumeHash tokenHash).token.status = .used := by
  rw [consumeHash, if_pos h]
  rfl

/-- The invitation is an effective-pending one of the user, in the scope. -/
def acceptableIn (now : Nat) (u : UserId) (scope : Option ObjectId) (i : Invitation) : Bool :=
  i.token.user == u && i.scope == scope && i.token.effective now == .pending

end Invitation

namespace Accounts

/-! ### What a request does to the table -/

/-- Every user row is still there, and an account that was waiting still is. -/
def KeepsWaiting (db db' : Directory) : Prop :=
  ∀ u row, db.user u = some row →
    ∃ row', db'.user u = some row' ∧ (row.waiting → row'.waiting)

/-- What a request does to the invitations. -/
inductive InvitationEffect (s s' : Accounts) : Prop
  /-- The rows age. An account that leaves its onboarding has none left that can be accepted. -/
  | aged (f : Invitation → Invitation) (hages : ∀ i : Invitation, i.Ages (f i))
      (hrows : s'.invitations = s.invitations.map f) (hclock : s.now ≤ s'.now)
      (husers : ∀ u row, s.db.user u = some row → ∃ row', s'.db.user u = some row' ∧
        (row.waiting → row'.waiting ∨
          ∀ i : Invitation, i.token.user = u → (f i).token.effective s'.now ≠ .pending))
  /-- A row is issued for an account that is waiting. Its scope has no other PENDING row. -/
  | issued (new : Invitation) (f : Invitation → Invitation)
      (hages : ∀ i : Invitation, i.Ages (f i))
      (hrows : s'.invitations = new :: s.invitations.map f)
      (hhash : ∀ i ∈ s.invitations, i.token.tokenHash ≠ new.token.tokenHash)
      (hscope : ∀ i ∈ s.invitations, i.token.user = new.token.user → i.scope = new.scope →
        (f i).token.status ≠ .pending)
      (hclock : s'.now = s.now) (husers : KeepsWaiting s.db s'.db)
      (hnew : ∃ row, s'.db.user new.token.user = some row ∧ row.waiting)

section
variable {env : Env} {s s' : Accounts} {fresh : Fresh}

theorem KeepsWaiting.refl (db : Directory) : KeepsWaiting db db :=
  fun _ row hrow => ⟨row, hrow, id⟩

theorem KeepsWaiting.of_user_eq {db db' : Directory} (h : db'.user = db.user) :
    KeepsWaiting db db' := by
  intro u row hrow
  exact ⟨row, by rw [h, hrow], id⟩

/-- A new account. -/
theorem KeepsWaiting.insert {db : Directory} {u : UserId} (hnone : db.user u = none)
    (row : User) : KeepsWaiting db (db.setUser u row) := by
  intro v old hold
  have hne : v ≠ u := by
    rintro rfl
    rw [hnone] at hold
    cases hold
  exact ⟨old, by rw [Directory.setUser_user, Function.update_of_ne hne, hold], id⟩

/-- A write of a row that keeps waiting. -/
theorem KeepsWaiting.write {db : Directory} {u : UserId} {old new : User}
    (hold : db.user u = some old) (h : old.waiting → new.waiting) :
    KeepsWaiting db (db.setUser u new) := by
  intro v row hrow
  by_cases hv : v = u
  · subst hv
    rw [hold] at hrow
    cases hrow
    exact ⟨new, by simp, h⟩
  · exact ⟨row, by rw [Directory.setUser_user, Function.update_of_ne hv, hrow], id⟩

/-- A request that writes no invitation. -/
theorem InvitationEffect.untouched (hrows : s'.invitations = s.invitations)
    (hclock : s.now ≤ s'.now) (husers : KeepsWaiting s.db s'.db) : InvitationEffect s s' := by
  refine .aged id Invitation.Ages.refl (by rw [hrows, List.map_id]) hclock ?_
  intro u row hrow
  obtain ⟨row', hrow', hkeeps⟩ := husers u row hrow
  exact ⟨row', hrow', fun h => Or.inl (hkeeps h)⟩

/-- A request that writes one account and nothing that the invitations depend on. -/
theorem InvitationEffect.untouched_setUser {u : UserId} {old new : User}
    (hrows : s'.invitations = s.invitations) (hclock : s'.now = s.now)
    (hdb : s'.db = s.db.setUser u new) (hold : s.db.user u = some old)
    (h : old.waiting → new.waiting) : InvitationEffect s s' := by
  refine .untouched hrows hclock.ge ?_
  rw [hdb]
  exact .write hold h

/-- An activation: the account's row is written, and its invitations are swept. -/
theorem InvitationEffect.activated {u : UserId} {old new : User} (f : Invitation → Invitation)
    (hages : ∀ i : Invitation, i.Ages (f i))
    (hrows : s'.invitations = s.invitations.map fun i => (f i).sweep s.now u)
    (hclock : s'.now = s.now) (hdb : s'.db = s.db.setUser u new)
    (hold : s.db.user u = some old) : InvitationEffect s s' := by
  refine .aged _ (fun i => (hages i).trans (Invitation.ages_sweep _ _ _)) hrows hclock.ge ?_
  intro v row hrow
  rw [hdb, hclock]
  by_cases hv : v = u
  · subst hv
    refine ⟨new, by simp, fun _ => Or.inr fun i hi => ?_⟩
    exact Invitation.sweep_settled ((hages i).user.trans hi)
  · refine ⟨row, ?_, Or.inl⟩
    rw [Directory.setUser_user, Function.update_of_ne hv, hrow]

/-- The row that `issueInvitation` inserts. -/
def freshInvitation (env : Env) (s : Accounts) (u : UserId) (raw : String)
    (invitedBy : Option UserId) (scope : Option ObjectId) : Invitation where
  token := .issue s.now (env.invitationTtlHours * hour) u (env.hashToken raw)
  invitedBy
  scope

/-- The hash of a fresh token is new. -/
theorem hash_ne_of_unused (hunused : s.unused env fresh = true) :
    ∀ i ∈ s.invitations, i.token.tokenHash ≠ env.hashToken fresh.token := by
  simp only [unused, Bool.and_eq_true, Option.isNone_iff_eq_none] at hunused
  have hnone := hunused.2
  rw [findInvitation, List.find?_eq_none] at hnone
  intro i hi heq
  exact hnone i hi (by simp [heq])

/-- The id of a fresh user is new. -/
theorem user_none_of_unused (hunused : s.unused env fresh = true) :
    s.db.user fresh.user = none := by
  simp only [unused, Bool.and_eq_true, Option.isNone_iff_eq_none] at hunused
  exact hunused.1.1.1.1

/-- A re-issue in a scope: what is PENDING there is revoked, and a fresh row is inserted. The
request may have written accounts before (`s₁`). -/
theorem InvitationEffect.reissued (s₁ : Accounts) (hunused : s.unused env fresh = true)
    (hrows : s₁.invitations = s.invitations) (hclock : s₁.now = s.now)
    (husers : KeepsWaiting s.db s₁.db) {u : UserId} {row : User}
    (hrow : s₁.db.user u = some row) (hwaiting : row.waiting) (inviter : Option UserId)
    (scope : Option ObjectId) :
    InvitationEffect s
      ((s₁.revokeInvitations u scope).issueInvitation env u fresh.token inviter scope) := by
  have hlist : ((s₁.revokeInvitations u scope).issueInvitation env u fresh.token inviter
      scope).invitations = freshInvitation env s₁ u fresh.token inviter scope ::
        s.invitations.map (Invitation.revokeIn s₁.now u scope) := by
    rw [← hrows]
    rfl
  refine .issued _ _ (Invitation.ages_revokeIn _ _ _) hlist (hash_ne_of_unused hunused) ?_ hclock
    husers ⟨row, hrow, hwaiting⟩
  intro i _ huser hscope
  exact Invitation.revokeIn_settled huser hscope

theorem invitationEffect_register {email : String} {form : SignupForm}
    (hunused : s.unused env fresh = true) (h : s.register env fresh email form = .ok s') :
    InvitationEffect s s' := by
  simp only [register, bind_eq_ok, check_eq_ok] at h
  obtain ⟨_, -, document, -, _, -, h⟩ := h
  split at h
  · simp only [bind_eq_ok] at h
    obtain ⟨x, -, h⟩ := h
    cases h
    exact .untouched rfl (le_refl _) (.insert (user_none_of_unused hunused) _)
  · rename_i u row hfind
    cases h
    have hrow := (Directory.liveUser_eq_some.mp (Directory.liveUser_of_userByEmail hfind).1).1
    have huntouched : InvitationEffect s s := .untouched rfl (le_refl _) (.refl _)
    have hreissued (hinvited : row.status = .invited) :
        InvitationEffect s (s.reissuePlatformInvitation env u fresh.token none) :=
      .reissued s hunused rfl rfl (.refl _) hrow (Or.inl hinvited) none none
    unfold registerExisting
    split
    · exact .untouched rfl (le_refl _) (.refl _)
    · rename_i hinvited
      split
      · split
        · exact huntouched
        · exact hreissued hinvited
      · exact hreissued hinvited
    · exact huntouched
    · exact huntouched

theorem invitationEffect_resendVerification (env : Env) (s : Accounts) (fresh : Fresh)
    (email : String) : InvitationEffect s (s.resendVerification env fresh email) := by
  unfold resendVerification
  split
  · exact .untouched rfl (le_refl _) (.refl _)
  · split <;> exact .untouched rfl (le_refl _) (.refl _)

theorem invitationEffect_verifyEmail {raw : String} (h : s.verifyEmail env raw = .ok s') :
    InvitationEffect s s' := by
  simp only [verifyEmail, bind_eq_ok] at h
  obtain ⟨t, -, h⟩ := h
  split at h
  · cases h
  · rename_i row hrow
    cases h
    exact .activated id Invitation.Ages.refl rfl rfl rfl (Directory.liveUser_eq_some.mp hrow).1

theorem invitationEffect_inviteToPlatform {inviter : SessionUser} {email : String} {ids : RoleIds}
    (hunused : s.unused env fresh = true)
    (hforeign : ∀ i ∈ s.invitations, ∃ row, s.db.user i.token.user = some row)
    (h : s.inviteToPlatform env fresh inviter email ids = .ok s') : InvitationEffect s s' := by
  simp only [inviteToPlatform, bind_eq_ok] at h
  obtain ⟨_, -, roles, -, h⟩ := h
  split at h
  · rename_i u row hfind
    simp only [bind_eq_ok] at h
    obtain ⟨_, hassert, h⟩ := h
    cases h
    have hrow := (Directory.liveUser_eq_some.mp (Directory.liveUser_of_userByEmail hfind).1).1
    have hinvited : row.status = .invited := by
      unfold assertInvitable at hassert
      cases hstatus : row.status with
      | invited => rfl
      | active => simp [hstatus] at hassert
      | pending => simp [hstatus] at hassert
      | inactive => simp [hstatus] at hassert
    exact .reissued s hunused rfl rfl (.refl _) hrow (Or.inl hinvited) _ _
  · cases h
    have hnone := user_none_of_unused hunused
    have hlist : freshInvitation env s fresh.user fresh.token (some inviter.id) none ::
        s.invitations =
          freshInvitation env s fresh.user fresh.token (some inviter.id) none ::
            s.invitations.map id := by
      rw [List.map_id]
    refine .issued _ id Invitation.Ages.refl hlist (hash_ne_of_unused hunused) ?_ rfl
      (.insert hnone _) ⟨_, Function.update_self .., Or.inl rfl⟩
    -- No invitation is there for an account that was not.
    intro i hi huser
    obtain ⟨row, hrow⟩ := hforeign i hi
    have huser : i.token.user = fresh.user := huser
    rw [huser, hnone] at hrow
    cases hrow

theorem invitationEffect_resendInvitation {caller : SessionUser} {u : UserId}
    (hunused : s.unused env fresh = true)
    (h : s.resendInvitation env fresh caller u = .ok s') : InvitationEffect s s' := by
  simp only [resendInvitation, bind_eq_ok, check_eq_ok, getUser_eq_ok, beq_iff_eq] at h
  obtain ⟨_, -, row, hrow, _, -, _, hinvited, h⟩ := h
  cases h
  exact .reissued s hunused rfl rfl (.refl _) (Directory.liveUser_eq_some.mp hrow).1
    (Or.inl hinvited) _ _

theorem invitationEffect_revokePlatformInvitation {caller : SessionUser} {u : UserId}
    (h : s.revokePlatformInvitation caller u = .ok s') : InvitationEffect s s' := by
  simp only [revokePlatformInvitation, bind_eq_ok] at h
  obtain ⟨_, -, row, -, _, -, _, -, h⟩ := h
  cases h
  refine .aged (Invitation.revokeIn s.now u none) (Invitation.ages_revokeIn _ _ _) rfl
    (le_refl _) ?_
  intro v row hrow
  exact ⟨row, hrow, Or.inl⟩

theorem invitationEffect_inviteOnboarding (s₁ : Accounts) {inviter : SessionUser} {o : ObjectId}
    {u : UserId} {roles : List RoleId} (hunused : s.unused env fresh = true)
    (hrows : s₁.invitations = s.invitations) (hclock : s₁.now = s.now)
    (husers : KeepsWaiting s.db s₁.db) {row : User} (hrow : s₁.db.user u = some row)
    (hwaiting : row.waiting) (h : s₁.inviteOnboarding env fresh inviter o u roles = .ok s') :
    InvitationEffect s s' := by
  simp only [inviteOnboarding, bind_eq_ok] at h
  obtain ⟨assignments, -, h⟩ := h
  cases h
  exact .reissued { s₁ with assignments } hunused hrows hclock husers hrow hwaiting _ _

theorem invitationEffect_inviteToGroup {inviter : SessionUser} {o : ObjectId} {email : String}
    {ids : RoleIds} (hunused : s.unused env fresh = true)
    (h : s.inviteToGroup env fresh inviter o email ids = .ok s') : InvitationEffect s s' := by
  simp only [inviteToGroup, bind_eq_ok] at h
  obtain ⟨_, -, roles, -, h⟩ := h
  split at h
  · rename_i u row hfind
    have hrow := (Directory.liveUser_eq_some.mp (Directory.liveUser_of_userByEmail hfind).1).1
    split at h
    · cases h
    · simp only [bind_eq_ok] at h
      obtain ⟨assignments, -, h⟩ := h
      cases h
      exact .untouched rfl (le_refl _) (.refl _)
    · rename_i hpending
      exact invitationEffect_inviteOnboarding s hunused rfl rfl (.refl _) hrow (Or.inr hpending) h
    · rename_i hinvited
      exact invitationEffect_inviteOnboarding s hunused rfl rfl (.refl _) hrow (Or.inl hinvited) h
  · simp only [bind_eq_ok] at h
    obtain ⟨x, -, h⟩ := h
    have hkeeps := KeepsWaiting.insert (user_none_of_unused hunused)
    exact invitationEffect_inviteOnboarding
      (s.setUser fresh.user { email, status := .invited, roleIds := [x.1] }) hunused rfl rfl
      (hkeeps _) (Function.update_self ..) (Or.inl rfl) h

/-- What a successful acceptance read: a row that can be accepted, of a live account that is still
waiting. -/
theorem acceptInvitation_spec {raw : String} {form : SignupForm}
    (h : s.acceptInvitation env raw form = .ok s') :
    ∃ i row document, findInvitation s.invitations (env.hashToken raw) = some i ∧
      i.token.effective s.now = .pending ∧ s.db.liveUser i.token.user = some row ∧ row.waiting ∧
      s' = ({ s.setUser i.token.user (acceptedRow env form document row) with
        invitations := consumeInvitation s.invitations (env.hashToken raw) }).acceptInvitations
          i.token.user := by
  simp only [acceptInvitation, bind_eq_ok] at h
  obtain ⟨document, -, h⟩ := h
  split at h
  · cases h
  · split at h
    · cases h
    · rename_i i hfind _ row hrow
      simp only [bind_eq_ok, check_eq_ok, Bool.or_eq_true, beq_iff_eq] at h
      obtain ⟨_, hpending, _, hwaiting, _, -, h⟩ := h
      cases h
      exact ⟨i, row, document, hfind, hpending, hrow, hwaiting, rfl⟩

theorem invitationEffect_acceptInvitation {raw : String} {form : SignupForm}
    (h : s.acceptInvitation env raw form = .ok s') : InvitationEffect s s' := by
  obtain ⟨i, row, document, -, -, hrow, -, rfl⟩ := acceptInvitation_spec h
  refine .activated (Invitation.consumeHash (env.hashToken raw))
    (Invitation.ages_consumeHash _) ?_
    rfl rfl (Directory.liveUser_eq_some.mp hrow).1
  show acceptPendingInvitations s.now i.token.user (consumeInvitation _ _) = _
  simp only [acceptPendingInvitations, consumeInvitation, List.map_map]
  rfl

/-- A login that activates an account sweeps its invitations. -/
theorem invitationEffect_activate {provider subject : String} {u : UserId} {row : User}
    {verified : Bool} (hrow : s.db.liveUser u = some row)
    (h : (do return (← s.activate u row verified).linkIdentity provider subject u) = .ok s') :
    InvitationEffect s s' := by
  simp only [activate, bind_eq_ok] at h
  obtain ⟨s₁, ⟨_, -, h₁⟩, h⟩ := h
  cases h₁
  cases h
  exact .activated id Invitation.Ages.refl rfl rfl rfl (Directory.liveUser_eq_some.mp hrow).1

theorem invitationEffect_resolveUser {provider subject email : String} {verified : Bool}
    {claims : String → Option Claim} (hunused : s.unused env fresh = true)
    (h : s.resolveUser fresh provider subject email verified claims = .ok s') :
    InvitationEffect s s' := by
  unfold resolveUser at h
  split at h
  · split at h
    · cases h
    · simp only [bind_eq_ok] at h
      obtain ⟨_, -, h⟩ := h
      cases h
      exact .untouched rfl (le_refl _) (.refl _)
  · split at h
    · rename_i u row hfind
      have hrow := (Directory.liveUser_of_userByEmail hfind).1
      unfold loginByEmail at h
      split at h
      · cases h
        exact .untouched rfl (le_refl _) (.refl _)
      · cases h
      · exact invitationEffect_activate hrow h
      · exact invitationEffect_activate hrow h
    · simp only [bind_eq_ok] at h
      obtain ⟨_, -, x, -, h⟩ := h
      cases h
      exact .untouched rfl (le_refl _) (.insert (user_none_of_unused hunused) _)

theorem invitationEffect_finalizeLogin {provider : String} {claims : String → Option Claim}
    (hunused : s.unused env fresh = true)
    (h : s.finalizeLogin env fresh provider claims = .ok s') : InvitationEffect s s' := by
  unfold finalizeLogin at h
  split at h
  · simp only [bind_eq_ok] at h
    obtain ⟨_, -, _, -, _, -, _, -, h⟩ := h
    exact invitationEffect_resolveUser hunused h
  · cases h

theorem invitationEffect_requestPasswordReset (env : Env) (s : Accounts) (fresh : Fresh)
    (email : String) : InvitationEffect s (s.requestPasswordReset env fresh email) := by
  unfold requestPasswordReset
  split
  · exact .untouched rfl (le_refl _) (.refl _)
  · split <;> exact .untouched rfl (le_refl _) (.refl _)

theorem invitationEffect_confirmPasswordReset {raw password : String}
    (h : s.confirmPasswordReset env raw password = .ok s') : InvitationEffect s s' := by
  simp only [confirmPasswordReset, bind_eq_ok] at h
  obtain ⟨t, -, h⟩ := h
  split at h
  · cases h
  · rename_i row hrow
    simp only [bind_eq_ok] at h
    obtain ⟨_, -, _, -, h⟩ := h
    cases h
    exact .untouched_setUser rfl rfl rfl (Directory.liveUser_eq_some.mp hrow).1 id

/-- A status change refuses an account that is waiting. -/
theorem not_waiting_of_changeUserStatus {row row' : User} {status : SettableUserStatus}
    (h : changeUserStatus row status = .ok row') : ¬ row.waiting := by
  have hsettled : row.status = .active ∨ row.status = .inactive := by
    unfold changeUserStatus at h
    split at h
    · rename_i hsame
      rw [hsame]
      cases status with
      | active => exact Or.inl rfl
      | inactive => exact Or.inr rfl
    · simp only [bind_eq_ok, check_eq_ok, Bool.or_eq_true, beq_iff_eq] at h
      obtain ⟨_, hsettled, -⟩ := h
      exact hsettled
  unfold User.waiting
  rcases hsettled with h | h <;> simp [h]

theorem invitationEffect_changeStatus {caller : SessionUser} {u : UserId}
    {status : SettableUserStatus} (h : s.changeStatus caller u status = .ok s') :
    InvitationEffect s s' := by
  simp only [changeStatus, bind_eq_ok, getUser_eq_ok] at h
  obtain ⟨_, -, row, hrow, _, -, _, -, row', hstatus, h⟩ := h
  cases h
  have hnot := not_waiting_of_changeUserStatus hstatus
  exact .untouched_setUser rfl rfl rfl (Directory.liveUser_eq_some.mp hrow).1
    fun hwaiting => absurd hwaiting hnot

theorem invitationEffect_updateUser {caller : SessionUser} {u : UserId} {changes : UserUpdate}
    (h : s.updateUser caller u changes = .ok s') : InvitationEffect s s' := by
  simp only [updateUser, bind_eq_ok, getUser_eq_ok] at h
  obtain ⟨_, -, row, hrow, roleIds, -, h⟩ := h
  cases h
  exact .untouched_setUser rfl rfl rfl (Directory.liveUser_eq_some.mp hrow).1 id

theorem invitationEffect_deleteUser {caller : SessionUser} {u : UserId}
    (h : s.deleteUser caller u = .ok s') : InvitationEffect s s' := by
  simp only [deleteUser, bind_eq_ok, getUser_eq_ok] at h
  obtain ⟨_, -, row, hrow, _, -, _, -, _, -, h⟩ := h
  cases h
  exact .untouched_setUser rfl rfl rfl (Directory.liveUser_eq_some.mp hrow).1 id

theorem invitationEffect_restoreUser {caller : SessionUser} {u : UserId}
    (h : s.restoreUser env caller u = .ok s') : InvitationEffect s s' := by
  simp only [restoreUser, bind_eq_ok] at h
  obtain ⟨_, -, h⟩ := h
  split at h
  · cases h
  · rename_i row hrow
    simp only [bind_eq_ok] at h
    obtain ⟨_, -, _, -, _, -, h⟩ := h
    cases h
    exact .untouched_setUser rfl rfl rfl (Option.filter_eq_some_iff.mp hrow).1 id

theorem invitationEffect_roleRequest {caller : SessionUser} {write : Except ApiError Directory}
    (hwrite : ∀ db', write = .ok db' → RoleWrites s.db db')
    (h : s.roleRequest caller write = .ok s') : InvitationEffect s s' := by
  simp only [roleRequest, bind_eq_ok] at h
  obtain ⟨_, -, db', hdb, h⟩ := h
  cases h
  exact .untouched rfl (le_refl _) (.of_user_eq (hwrite db' hdb).user_eq)

/-- Every successful request ages the rows, or ages them and issues one. -/
theorem perform_invitationEffect {q : Request} (hunused : s.unused env fresh = true)
    (hforeign : ∀ i ∈ s.invitations, ∃ row, s.db.user i.token.user = some row)
    (h : s.perform env fresh q = .ok s') : InvitationEffect s s' := by
  cases q with
  | tick seconds =>
    cases h
    exact .untouched rfl (Nat.le_add_right _ _) (.refl _)
  | configure platform terms =>
    cases h
    exact .untouched rfl (le_refl _) (.refl _)
  | register email form => exact invitationEffect_register hunused h
  | resendVerification email =>
    cases h
    exact invitationEffect_resendVerification env s fresh email
  | verifyEmail raw => exact invitationEffect_verifyEmail h
  | inviteToPlatform inviter email ids =>
    exact invitationEffect_inviteToPlatform hunused hforeign h
  | resendInvitation caller u => exact invitationEffect_resendInvitation hunused h
  | revokeInvitation caller u => exact invitationEffect_revokePlatformInvitation h
  | inviteToGroup inviter o email ids => exact invitationEffect_inviteToGroup hunused h
  | acceptInvitation raw form => exact invitationEffect_acceptInvitation h
  | oidcLogin provider claims => exact invitationEffect_finalizeLogin hunused h
  | requestPasswordReset email =>
    cases h
    exact invitationEffect_requestPasswordReset env s fresh email
  | sendPasswordReset caller u =>
    simp only [perform, sendPasswordReset, bind_eq_ok] at h
    obtain ⟨_, -, row, -, _, -, _, -, h⟩ := h
    cases h
    exact .untouched rfl (le_refl _) (.refl _)
  | confirmPasswordReset raw password => exact invitationEffect_confirmPasswordReset h
  | changeStatus caller u status => exact invitationEffect_changeStatus h
  | updateUser caller u changes => exact invitationEffect_updateUser h
  | deleteUser caller u => exact invitationEffect_deleteUser h
  | restoreUser caller u => exact invitationEffect_restoreUser h
  | createRole caller form =>
    have hfresh : s.db.role fresh.role = none := by
      simp only [unused, Bool.and_eq_true, Option.isNone_iff_eq_none] at hunused
      exact hunused.1.1.1.2
    exact invitationEffect_roleRequest (fun _ => RoleWrites.createRole hfresh) h
  | updateRole caller r payload =>
    exact invitationEffect_roleRequest (fun _ => RoleWrites.patchRole) h
  | deleteRole caller r => exact invitationEffect_roleRequest (fun _ => RoleWrites.removeRole) h
  | restoreRole caller r => exact invitationEffect_roleRequest (fun _ => RoleWrites.restoreRole) h

/-! ### The invariant -/

/-- What holds of the invitations in each reachable state. -/
structure InvitationsOk (s : Accounts) : Prop where
  one : s.invitations.Pairwise fun i j => i.token.user = j.token.user → i.scope = j.scope →
    i.token.status = .pending → j.token.status ≠ .pending
  hashes : s.invitations.Pairwise fun i j => i.token.tokenHash ≠ j.token.tokenHash
  onboarding : ∀ i ∈ s.invitations, ∃ row, s.db.user i.token.user = some row ∧
    (i.token.effective s.now = .pending → row.waiting)

/-- Rows that age keep what the invariant says of pairs of rows. -/
theorem pairwise_map_ages {rows : List Invitation} {f : Invitation → Invitation}
    (hages : ∀ i : Invitation, i.Ages (f i))
    (h : rows.Pairwise fun i j => i.token.user = j.token.user → i.scope = j.scope →
      i.token.status = .pending → j.token.status ≠ .pending) :
    (rows.map f).Pairwise fun i j => i.token.user = j.token.user → i.scope = j.scope →
      i.token.status = .pending → j.token.status ≠ .pending := by
  rw [List.pairwise_map]
  refine h.imp fun {i j} hij huser hscope hi hj => ?_
  rw [(hages i).user, (hages j).user] at huser
  rw [(hages i).scope, (hages j).scope] at hscope
  exact hij huser hscope ((hages i).pending hi) ((hages j).pending hj)

theorem pairwise_map_hashes {rows : List Invitation} {f : Invitation → Invitation}
    (hages : ∀ i : Invitation, i.Ages (f i))
    (h : rows.Pairwise fun i j => i.token.tokenHash ≠ j.token.tokenHash) :
    (rows.map f).Pairwise fun i j => i.token.tokenHash ≠ j.token.tokenHash := by
  rw [List.pairwise_map]
  refine h.imp fun {i j} hij => ?_
  rw [(hages i).hash, (hages j).hash]
  exact hij

/-- The invariant is kept by whatever a request may do to the table. -/
theorem InvitationsOk.effect (hok : InvitationsOk s) (h : InvitationEffect s s') :
    InvitationsOk s' := by
  cases h with
  | aged f hages hrows hclock husers =>
    constructor
    · rw [hrows]
      exact pairwise_map_ages hages hok.one
    · rw [hrows]
      exact pairwise_map_hashes hages hok.hashes
    · rw [hrows]
      intro j hj
      obtain ⟨i, hi, rfl⟩ := List.mem_map.mp hj
      obtain ⟨row, hrow, hwaiting⟩ := hok.onboarding i hi
      obtain ⟨row', hrow', hkeeps⟩ := husers _ row hrow
      rw [(hages i).user]
      refine ⟨row', hrow', fun hpending => ?_⟩
      have hbefore := hwaiting ((hages i).effective hclock hpending)
      rcases hkeeps hbefore with hwaiting' | hswept
      · exact hwaiting'
      · exact absurd hpending (hswept i rfl)
  | issued new f hages hrows hhash hscope hclock husers hnew =>
    constructor
    · rw [hrows]
      refine List.pairwise_cons.mpr ⟨?_, pairwise_map_ages hages hok.one⟩
      intro j hj huser hs _
      obtain ⟨i, hi, rfl⟩ := List.mem_map.mp hj
      rw [(hages i).user] at huser
      rw [(hages i).scope] at hs
      exact hscope i hi huser.symm hs.symm
    · rw [hrows]
      refine List.pairwise_cons.mpr ⟨?_, pairwise_map_hashes hages hok.hashes⟩
      intro j hj
      obtain ⟨i, hi, rfl⟩ := List.mem_map.mp hj
      rw [(hages i).hash]
      exact (hhash i hi).symm
    · rw [hrows, List.forall_mem_cons]
      constructor
      · obtain ⟨row, hrow, hwaiting⟩ := hnew
        exact ⟨row, hrow, fun _ => hwaiting⟩
      · intro j hj
        obtain ⟨i, hi, rfl⟩ := List.mem_map.mp hj
        obtain ⟨row, hrow, hwaiting⟩ := hok.onboarding i hi
        obtain ⟨row', hrow', hkeeps⟩ := husers _ row hrow
        rw [(hages i).user]
        refine ⟨row', hrow', fun hpending => hkeeps (hwaiting ?_)⟩
        exact (hages i).effective hclock.ge hpending

/-- The rows of the table are for accounts that exist. -/
theorem InvitationsOk.foreign (hok : InvitationsOk s) :
    ∀ i ∈ s.invitations, ∃ row, s.db.user i.token.user = some row := by
  intro i hi
  obtain ⟨row, hrow, -⟩ := hok.onboarding i hi
  exact ⟨row, hrow⟩

/-- A step has an effect on the table, or leaves the state as it was. -/
theorem invitationEffect_step {l : Label} (hok : InvitationsOk s)
    (h : s.step env l = some s') : InvitationEffect s s' := by
  obtain ⟨hunused, hperform | rfl⟩ := step_cases h
  · exact perform_invitationEffect hunused hok.foreign hperform
  · exact .untouched rfl (le_refl _) (.refl _)

theorem InvitationsOk.step {l : Label} (hok : InvitationsOk s) (h : s.step env l = some s') :
    InvitationsOk s' := hok.effect (invitationEffect_step hok h)

/-- No invitation is there at the start. -/
theorem invitationsOk_nil (h : s.invitations = []) : InvitationsOk s := by
  constructor
  · rw [h]
    exact List.Pairwise.nil
  · rw [h]
    exact List.Pairwise.nil
  · rw [h]
    intro i hi
    cases hi

/-! ### A token that cannot be accepted -/

/-- The token with a hash was issued, and cannot be accepted: it was accepted, revoked, or has
run out. -/
def Dead (tokenHash : String) (s : Accounts) : Prop :=
  ∃ i ∈ s.invitations, i.token.tokenHash = tokenHash ∧ i.token.effective s.now ≠ .pending

/-- A dead token stays dead. -/
theorem Dead.effect {tokenHash : String} (hdead : Dead tokenHash s) (h : InvitationEffect s s') :
    Dead tokenHash s' := by
  obtain ⟨i, hi, hhash, hnot⟩ := hdead
  cases h with
  | aged f hages hrows hclock husers =>
    refine ⟨f i, ?_, (hages i).hash.trans hhash, fun hp => hnot ((hages i).effective hclock hp)⟩
    rw [hrows]
    exact List.mem_map_of_mem hi
  | issued new f hages hrows hfresh hscope hclock husers hnew =>
    refine ⟨f i, ?_, (hages i).hash.trans hhash,
      fun hp => hnot ((hages i).effective hclock.ge hp)⟩
    rw [hrows]
    exact List.mem_cons_of_mem _ (List.mem_map_of_mem hi)

/-- A dead token stays dead along every run. -/
theorem Dead.run {tokenHash : String} (hok : InvitationsOk s) (hdead : Dead tokenHash s)
    {ls : List Label} (hrun : run (step env) s ls = some s') :
    InvitationsOk s' ∧ Dead tokenHash s' := by
  have hstep : ∀ s l s', InvitationsOk s ∧ Dead tokenHash s → step env s l = some s' →
      InvitationsOk s' ∧ Dead tokenHash s' := by
    rintro s l s' ⟨hok, hdead⟩ h
    exact ⟨hok.step h, hdead.effect (invitationEffect_step hok h)⟩
  exact run_invariant hstep ⟨hok, hdead⟩ hrun

/-- Rows with one hash are one row. -/
theorem InvitationsOk.eq_of_hash (hok : InvitationsOk s) {i j : Invitation}
    (hi : i ∈ s.invitations) (hj : j ∈ s.invitations)
    (h : i.token.tokenHash = j.token.tokenHash) : i = j := by
  have hnodup : (s.invitations.map fun i => i.token.tokenHash).Nodup :=
    List.pairwise_map.mpr hok.hashes
  exact List.inj_on_of_nodup_map hnodup hi hj h

/-- A dead token is refused. -/
theorem Dead.refused {raw : String} (hok : InvitationsOk s)
    (hdead : Dead (env.hashToken raw) s) (form : SignupForm) :
    ∃ e, s.acceptInvitation env raw form = .error e := by
  cases h : s.acceptInvitation env raw form with
  | error e => exact ⟨e, rfl⟩
  | ok s' =>
    obtain ⟨i, row, document, hfind, hpending, -⟩ := acceptInvitation_spec h
    obtain ⟨j, hj, hhash, hnot⟩ := hdead
    have hi : i ∈ s.invitations := List.mem_of_find?_eq_some hfind
    have hi' : i.token.tokenHash = env.hashToken raw := by simpa using List.find?_some hfind
    rw [hok.eq_of_hash hi hj (hi'.trans hhash.symm)] at hpending
    exact absurd hpending hnot

/-- An acceptance uses up its token. -/
theorem dead_of_accept {raw : String} {form : SignupForm}
    (h : s.acceptInvitation env raw form = .ok s') : Dead (env.hashToken raw) s' := by
  obtain ⟨i, row, document, hfind, -, -, -, rfl⟩ := acceptInvitation_spec h
  have hi : i ∈ s.invitations := List.mem_of_find?_eq_some hfind
  have hhash : i.token.tokenHash = env.hashToken raw := by simpa using List.find?_some hfind
  have hsweep := Invitation.ages_sweep s.now i.token.user (i.consumeHash (env.hashToken raw))
  have hconsume := Invitation.ages_consumeHash (env.hashToken raw) i
  refine ⟨_, List.mem_map_of_mem (List.mem_map_of_mem hi),
    (hconsume.trans hsweep).hash.trans hhash, ?_⟩
  intro hpending
  have hstatus := hsweep.pending (LinkToken.effective_eq_pending.mp hpending).1
  rw [Invitation.consumeHash_settled hhash] at hstatus
  cases hstatus

/-! ### The life cycle -/

/-- What the life cycle promises in a state. `one` is for each user and scope. `once` and `spent`
are about every later acceptance, in every run from the state on. -/
structure Lifecycle (env : Env) (s : Accounts) : Prop where
  /-- At most one invitation can be accepted. -/
  one : ∀ u scope, (s.invitations.filter (Invitation.acceptableIn s.now u scope)).length ≤ 1
  /-- A token that was accepted is not accepted again. -/
  once : ∀ raw form s₁, s.acceptInvitation env raw form = .ok s₁ →
    ∀ ls s₂, run (Accounts.step env) s₁ ls = some s₂ →
      ∀ form', ∃ e, s₂.acceptInvitation env raw form' = .error e
  /-- A token that was swept, superseded, or revoked, or that has run out, is not accepted. -/
  spent : ∀ i ∈ s.invitations, i.token.effective s.now ≠ .pending →
    ∀ ls s₂, run (Accounts.step env) s ls = some s₂ →
      ∀ raw form, env.hashToken raw = i.token.tokenHash →
        ∃ e, s₂.acceptInvitation env raw form = .error e
  /-- An acceptance writes only the account of its token: a live one, still waiting. -/
  onboards : ∀ raw form s₁, s.acceptInvitation env raw form = .ok s₁ →
    ∀ u, s₁.db.user u ≠ s.db.user u → ∃ row, s.db.liveUser u = some row ∧ row.waiting
  /-- An ACTIVE account has no invitation, of any scope, that can be accepted. -/
  active : ∀ u row, s.db.user u = some row → row.status = .active →
    ∀ i ∈ s.invitations, i.token.user = u → i.token.effective s.now ≠ .pending

/-- At most one invitation of a user can be accepted in a scope. -/
theorem InvitationsOk.length_le_one (hok : InvitationsOk s) (u : UserId)
    (scope : Option ObjectId) :
    (s.invitations.filter (Invitation.acceptableIn s.now u scope)).length ≤ 1 := by
  have hone := hok.one.filter (Invitation.acceptableIn s.now u scope)
  have hmem : ∀ i ∈ s.invitations.filter (Invitation.acceptableIn s.now u scope),
      i.token.user = u ∧ i.scope = scope ∧ i.token.status = .pending := by
    intro i hi
    have h := (List.mem_filter.mp hi).2
    simp only [Invitation.acceptableIn, Bool.and_eq_true, beq_iff_eq] at h
    exact ⟨h.1.1, h.1.2, (LinkToken.effective_eq_pending.mp h.2).1⟩
  generalize s.invitations.filter (Invitation.acceptableIn s.now u scope) = rows at hone hmem
  -- The first two rows would be two PENDING rows of one user and scope.
  match rows with
  | [] => simp
  | [_] => simp
  | i :: j :: rows =>
    obtain ⟨hui, hsi, hpi⟩ := hmem i (by simp)
    obtain ⟨huj, hsj, hpj⟩ := hmem j (by simp)
    have hij := (List.pairwise_cons.mp hone).1 j (by simp)
    exact absurd hpj (hij (hui.trans huj.symm) (hsi.trans hsj.symm) hpi)

/-- An acceptance writes the row of an account that is still waiting, and no other. -/
theorem waiting_of_accept {raw : String} {form : SignupForm}
    (h : s.acceptInvitation env raw form = .ok s') {u : UserId}
    (hu : s'.db.user u ≠ s.db.user u) :
    ∃ row, s.db.liveUser u = some row ∧ row.waiting := by
  obtain ⟨i, row, document, -, -, hrow, hwaiting, rfl⟩ := acceptInvitation_spec h
  have huser : u = i.token.user := by
    by_contra hne
    apply hu
    show Function.update s.db.user i.token.user _ u = _
    rw [Function.update_of_ne hne]
  subst huser
  exact ⟨row, hrow, hwaiting⟩

/-- The invariant gives the life cycle. -/
theorem InvitationsOk.lifecycle (hok : InvitationsOk s) : Lifecycle env s where
  one := hok.length_le_one
  once := by
    intro raw form s₁ haccept ls s₂ hrun form'
    have hok₁ := hok.effect (invitationEffect_acceptInvitation haccept)
    obtain ⟨hok₂, hdead⟩ := (dead_of_accept haccept).run hok₁ hrun
    exact hdead.refused hok₂ form'
  spent := by
    intro i hi hnot ls s₂ hrun raw form hhash
    have hdead : Dead (env.hashToken raw) s := ⟨i, hi, hhash.symm, hnot⟩
    obtain ⟨hok₂, hdead⟩ := hdead.run hok hrun
    exact hdead.refused hok₂ form
  onboards _ _ _ haccept _ := waiting_of_accept haccept
  active := by
    intro u row hrow hactive i hi huser hpending
    obtain ⟨row', hrow', hwaiting⟩ := hok.onboarding i hi
    rw [huser, hrow] at hrow'
    cases hrow'
    have hwaiting := hwaiting hpending
    simp [User.waiting, hactive] at hwaiting

/-- In every state that a run reaches from a platform without invitations, the life cycle of
invitations is kept. -/
theorem invitation_lifecycle (env : Env) {s₀ s : Accounts} {ls : List Label}
    (hstart : s₀.invitations = []) (hrun : run (step env) s₀ ls = some s) : Lifecycle env s :=
  have hstep : ∀ s l s', InvitationsOk s → step env s l = some s' → InvitationsOk s' :=
    fun _ _ _ hok h => hok.step h
  (run_invariant hstep (invitationsOk_nil hstart) hrun).lifecycle

/-- Bob is invited to the platform and to a group, is sent a fresh link after a day, and uses
it. -/
def inviteBob : List Label :=
  [{ request := .inviteToPlatform rootSession "bob@example.com" ⟨[4], by decide⟩
     fresh := { user := 2, role := 6, token := "first" } },
    { request := .inviteToGroup rootSession 1 "bob@example.com" ⟨[5], by decide⟩
      fresh := { user := 3, role := 6, token := "group" } },
    { request := .tick day, fresh := { user := 3, role := 6, token := "a" } },
    { request := .resendInvitation rootSession 2
      fresh := { user := 3, role := 6, token := "second" } },
    { request := .acceptInvitation "second" { password := "tulip-garden" }
      fresh := { user := 3, role := 6, token := "a" } }]

/-- Bob's first link is revoked, and the other two are used up. -/
theorem invitation_lifecycle_inviteBob :
    ∃ s, run (step plainEnv) deployed inviteBob = some s ∧
      s.invitations.map (fun i => i.token.status) = [.used, .used, .revoked] ∧
      Lifecycle plainEnv s := by
  have hany : (run (step plainEnv) deployed inviteBob).any
      (fun s => s.invitations.map (fun i => i.token.status) == [.used, .used, .revoked]) =
        true := by
    decide +kernel
  obtain ⟨s, hrun, hstatus⟩ := exists_run_of_any hany
  exact ⟨s, hrun, by simpa using hstatus, invitation_lifecycle plainEnv rfl hrun⟩

end

end Accounts

end RedTeaming.Auth
