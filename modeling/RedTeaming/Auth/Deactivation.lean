import RedTeaming.Auth.AccountEffects
import RedTeaming.Library.Transition

/-!
# `RedTeaming.Auth.Deactivation`: a deactivated account stays deactivated

`Sticky` says of a step that it takes an INACTIVE account to ACTIVE only as a status change by an
admin who may make it. Three of the four services that write ACTIVE look at the status first. The
fourth, `verifyEmail`, does not. A verification link that is still pending, in the mailbox of an
account that was activated another way, undoes a deactivation.

`sticky_iff` is the step lemma: a step is sticky unless it uses a verification link of an INACTIVE
account (`VerifiesInactive`). `deactivation_sticky` lifts it to runs. `reactivated_by_old_link` is
a run that breaks it. An account registers, is activated by a login through a provider, and is
deactivated. The link of the registration then makes it ACTIVE.
-/

set_option autoImplicit false

namespace RedTeaming.Auth

open RedTeaming.Library

namespace Accounts

/-- The account goes from INACTIVE to ACTIVE. -/
def Reactivates (s s' : Accounts) (u : UserId) : Prop :=
  (∃ row, s.db.user u = some row ∧ row.status = .inactive) ∧
    ∃ row, s'.db.user u = some row ∧ row.status = .active

/-- The request is a status change of the account to ACTIVE, by another user who may update users
and whom no elevated role of the account blocks. -/
def AuthorisedStatusChange (s : Accounts) (q : Request) (u : UserId) : Prop :=
  ∃ caller row, q = .changeStatus caller u .active ∧ .usersUpdate ∈ caller.permissions ∧
    caller.id ≠ u ∧ s.db.liveUser u = some row ∧
    blockedElevatedRoles caller (s.db.liveRoles row) = []

/-- A step reactivates an account only as an authorised status change of it. -/
def Sticky (env : Env) (s : Accounts) (l : Label) : Prop :=
  ∀ s' u, s.step env l = some s' → Reactivates s s' u → AuthorisedStatusChange s l.request u

/-- The request uses a verification link that is still pending, and its account is live and
INACTIVE. -/
def VerifiesInactive (env : Env) (s : Accounts) (l : Label) : Prop :=
  ∃ raw t row, l.request = .verifyEmail raw ∧
    findToken s.verifications (env.hashToken raw) = some t ∧ t.effective s.now = .pending ∧
    s.db.liveUser t.user = some row ∧ row.status = .inactive

section
variable {env : Env} {s s' : Accounts}

/-- No account is reactivated where the user rows stay. -/
theorem not_reactivates_of_user_eq (h : s'.db.user = s.db.user) (u : UserId) :
    ¬ Reactivates s s' u := by
  rintro ⟨⟨row, hrow, hinactive⟩, row', hrow', hactive⟩
  rw [h, hrow] at hrow'
  cases hrow'
  rw [hinactive] at hactive
  cases hactive

/-- A write of one row can only reactivate its account. -/
theorem reactivates_setUser {u v : UserId} {new : User} (h : s'.db = s.db.setUser v new)
    (hre : Reactivates s s' u) :
    u = v ∧ new.status = .active ∧ ∃ old, s.db.user v = some old ∧ old.status = .inactive := by
  obtain ⟨⟨row, hrow, hinactive⟩, row', hrow', hactive⟩ := hre
  rw [h, Directory.setUser_user, update_some_eq_some] at hrow'
  rcases hrow' with ⟨rfl, rfl⟩ | ⟨-, hrow'⟩
  · exact ⟨rfl, hactive, row, hrow, hinactive⟩
  · rw [hrow] at hrow'
    cases hrow'
    rw [hinactive] at hactive
    cases hactive

/-- A write of a live row that does not start INACTIVE, or keeps its status, reactivates
nothing. -/
theorem not_reactivates_of_live {u v : UserId} {old new : User}
    (hold : s.db.liveUser v = some old) (hstatus : old.status = .inactive → new.status ≠ .active)
    (h : s'.db = s.db.setUser v new) : ¬ Reactivates s s' u := by
  intro hre
  obtain ⟨-, hactive, row, hrow, hinactive⟩ := reactivates_setUser h hre
  rw [(Directory.liveUser_eq_some.mp hold).1] at hrow
  cases hrow
  exact hstatus hinactive hactive

/-- A row that keeps its status is not reactivated. -/
theorem ne_active_of_status_eq {old new : User} (h : new.status = old.status) :
    old.status = .inactive → new.status ≠ .active := by
  intro hinactive hactive
  rw [h, hinactive] at hactive
  cases hactive

/-- A request reactivates an account as an authorised status change, or by a verification link
that is still pending. -/
theorem reactivates_cases {l : Label} {u : UserId} (hunused : s.unused env l.fresh = true)
    (h : s.perform env l.fresh l.request = .ok s') (hre : Reactivates s s' u) :
    AuthorisedStatusChange s l.request u ∨ VerifiesInactive env s l := by
  have heffect := perform_effect hunused h
  unfold VerifiesInactive
  generalize hq : l.request = q at heffect ⊢
  generalize hdb : s'.db = db' at heffect
  cases heffect with
  | none => exact absurd hre (not_reactivates_of_user_eq (by rw [hdb]) u)
  | provision _ hlive hstatus hrole =>
    -- The id of a new account has no row before.
    obtain ⟨-, -, old, hold, -⟩ := reactivates_setUser hdb hre
    simp [unused, hold] at hunused
  | invite hlive hstatus hroles =>
    obtain ⟨-, hactive, -⟩ := reactivates_setUser hdb hre
    rw [hstatus] at hactive
    cases hactive
  | onboard _ hold hwaiting hstatus hroles hdeleted =>
    refine absurd hre (not_reactivates_of_live hold ?_ hdb)
    intro hinactive
    rcases hwaiting with hinvited | hpending
    · rw [hinvited] at hinactive
      cases hinactive
    · rw [hpending] at hinactive
      cases hinactive
  | verify hfind hpending hold hstatus hroles hdeleted =>
    obtain ⟨-, -, row, hrow, hinactive⟩ := reactivates_setUser hdb hre
    have hlive := (Directory.liveUser_eq_some.mp hold).1
    rw [hrow] at hlive
    cases hlive
    exact Or.inr ⟨_, _, _, rfl, hfind, hpending, hold, hinactive⟩
  | credential _ hold hstatus hroles hdeleted =>
    exact absurd hre (not_reactivates_of_live hold (ne_active_of_status_eq hstatus) hdb)
  | @status caller v status old new hcaller hself hold hunblocked hstatus hroles hdeleted =>
    obtain ⟨rfl, hactive, -⟩ := reactivates_setUser hdb hre
    have hset : status = .active := by
      cases status with
      | active => rfl
      | inactive =>
        rw [hstatus] at hactive
        cases hactive
    subst hset
    exact Or.inl ⟨caller, old, rfl, hcaller, hself, hold, hunblocked⟩
  | update hold hstatus hroles hdeleted =>
    exact absurd hre (not_reactivates_of_live hold (ne_active_of_status_eq hstatus) hdb)
  | delete hold hstatus hdeleted =>
    exact absurd hre (not_reactivates_of_live hold (ne_active_of_status_eq hstatus) hdb)
  | restore hold hunblocked hstatus hroles =>
    obtain ⟨-, hactive, row, hrow, hinactive⟩ := reactivates_setUser hdb hre
    rw [hold] at hrow
    cases hrow
    exact absurd hactive (ne_active_of_status_eq hstatus hinactive)
  | roles _ hwrites =>
    exact absurd hre (not_reactivates_of_user_eq (by rw [hdb, hwrites.user_eq]) u)

/-- A verification link that is still pending takes its live account to ACTIVE. -/
theorem verifyEmail_eq_ok {raw : String} {t : LinkToken} {row : User}
    (hfind : findToken s.verifications (env.hashToken raw) = some t)
    (hpending : t.effective s.now = .pending) (hrow : s.db.liveUser t.user = some row) :
    ∃ s', s.verifyEmail env raw = .ok s' ∧
      s'.db = s.db.setUser t.user { row with status := .active, emailVerified := true } := by
  have hresolve : resolveToken s.now s.verifications (env.hashToken raw)
      "Verification token not found." "Verification" "verified" = .ok t := by
    simp [resolveToken, hfind, hpending, check]
  refine ⟨({ s.setUser t.user { row with status := .active, emailVerified := true } with
    verifications := consumeToken s.verifications (env.hashToken raw) }).acceptInvitations t.user,
    ?_, rfl⟩
  rw [verifyEmail, hresolve, ok_bind]
  simp only [hrow]
  rfl

/-- A step is sticky unless it verifies the e-mail of an INACTIVE account. -/
theorem sticky_iff {l : Label} (h : s.step env l = some s') :
    Sticky env s l ↔ ¬ VerifiesInactive env s l := by
  constructor
  · rintro hsticky ⟨raw, t, row, hrequest, hfind, hpending, hrow, hinactive⟩
    obtain ⟨s₁, hverify, hdb⟩ := verifyEmail_eq_ok hfind hpending hrow
    have hs : s' = s₁ := by
      unfold step at h
      split at h
      · rw [hrequest] at h
        simp only [perform, hverify] at h
        cases h
        rfl
      · cases h
    subst hs
    have hre : Reactivates s s' t.user := by
      refine ⟨⟨row, (Directory.liveUser_eq_some.mp hrow).1, hinactive⟩, ?_⟩
      rw [hdb, Directory.setUser_user, Function.update_self]
      exact ⟨_, rfl, rfl⟩
    obtain ⟨caller, row', hq, -⟩ := hsticky s' t.user h hre
    rw [hrequest] at hq
    cases hq
  · intro hnot s₁ u hstep hre
    obtain ⟨hunused, hperform | rfl⟩ := step_cases hstep
    · exact (reactivates_cases hunused hperform hre).resolve_right hnot
    · exact absurd hre (not_reactivates_of_user_eq rfl u)

/-- A run keeps every deactivation exactly when no step of it uses a verification link, still
pending, of an INACTIVE account. -/
theorem deactivation_sticky {ls : List Label} (hrun : run (step env) s ls = some s') :
    Along (step env) (Sticky env) s ls ↔
      Along (step env) (fun s l => ¬ VerifiesInactive env s l) s ls :=
  along_iff_of_run (fun _ _ _ h => sticky_iff h) hrun

end

/-! ### A run that breaks it -/

/-- Ada's claims at an identity provider. -/
def adaClaims (key : String) : Option Claim :=
  if key = "sub" then some (.str "ada-1")
  else if key = "email" then some (.str "ada@example.com")
  else if key = "email_verified" then some (.bool true)
  else none

/-- A label whose request draws the id 2 and the token `link`. -/
def label (request : Request) : Label where
  request
  fresh := { user := 2, role := 6, token := "link" }

/-- Ada registers, logs in through a provider instead of using the link, and is deactivated. -/
def registerThenDeactivate : List Label :=
  [label (.register "ada@example.com" { password := "tulip-garden" }),
    { request := .oidcLogin "google" adaClaims, fresh := { user := 3, role := 6, token := "a" } },
    { request := .changeStatus rootSession 2 .inactive
      fresh := { user := 3, role := 6, token := "a" } }]

/-- The admin makes the account ACTIVE again. -/
def reactivateByAdmin : Label where
  request := .changeStatus rootSession 2 .active
  fresh := { user := 3, role := 6, token := "a" }

/-- The link of the registration is used. -/
def useOldLink : Label where
  request := .verifyEmail "link"
  fresh := { user := 3, role := 6, token := "a" }

/-- The status of an account in a state. -/
def hasStatus (u : UserId) (status : UserStatus) (s : Accounts) : Bool :=
  (s.db.user u).any fun row => row.status == status

/-- In a run without the link, the admin alone makes the account ACTIVE again. -/
theorem deactivation_sticky_of_reactivateByAdmin :
    ∃ s, run (step plainEnv) deployed (registerThenDeactivate ++ [reactivateByAdmin]) = some s ∧
      hasStatus 2 .active s = true ∧
      Along (step plainEnv) (Sticky plainEnv) deployed
        (registerThenDeactivate ++ [reactivateByAdmin]) := by
  obtain ⟨s, hrun, hactive⟩ := exists_run_of_any (by decide :
    (run (step plainEnv) deployed (registerThenDeactivate ++ [reactivateByAdmin])).any
      (hasStatus 2 .active) = true)
  refine ⟨s, hrun, hactive, (deactivation_sticky hrun).mpr (along_of_forall ?_)⟩
  rintro l hl s ⟨raw, t, row, hrequest, -⟩
  simp only [registerThenDeactivate, reactivateByAdmin, label, List.cons_append, List.nil_append,
    List.mem_cons, List.not_mem_nil, or_false] at hl
  rcases hl with rfl | rfl | rfl | rfl <;> cases hrequest

/-- Deactivation is not sticky in every run: the link of the registration undoes it. -/
theorem reactivated_by_old_link :
    ¬ ∀ (env : Env) (s s' : Accounts) (ls : List Label), run (step env) s ls = some s' →
      Along (step env) (Sticky env) s ls := by
  intro hall
  obtain ⟨s₂, hrun, hactive⟩ := exists_run_of_any (by decide :
    (run (step plainEnv) deployed (registerThenDeactivate ++ [useOldLink])).any
      (hasStatus 2 .active) = true)
  obtain ⟨s₁, hrun₁, hinactive⟩ := exists_run_of_any (by decide :
    (run (step plainEnv) deployed registerThenDeactivate).any (hasStatus 2 .inactive) = true)
  have hsticky := (hall _ _ _ _ hrun).of_run_append hrun₁
  -- The last step is the use of the link, and takes the account from INACTIVE to ACTIVE.
  obtain ⟨s₁', hrun₁', hstep⟩ := (run_append_eq_some _).mp hrun
  rw [hrun₁] at hrun₁'
  cases hrun₁'
  have hre : Reactivates s₁ s₂ 2 := by
    simp only [hasStatus, Option.any_eq_true, beq_iff_eq] at hactive hinactive
    obtain ⟨row₁, hrow₁, hstatus₁⟩ := hinactive
    obtain ⟨row₂, hrow₂, hstatus₂⟩ := hactive
    exact ⟨⟨row₁, hrow₁, hstatus₁⟩, row₂, hrow₂, hstatus₂⟩
  obtain ⟨s₂', hstep, hlast⟩ := (run_cons_eq_some _).mp hstep
  cases hlast
  obtain ⟨caller, row, hrequest, -⟩ := hsticky s₂ 2 hstep hre
  cases hrequest

end Accounts

end RedTeaming.Auth
