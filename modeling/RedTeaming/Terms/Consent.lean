import RedTeaming.Library.Transition
import RedTeaming.Terms.System

/-!
# `RedTeaming.Terms.Consent`: nobody consents to a version they did not send

A publication may commit between the moment a form is rendered, the moment its request reads the
current version, and the moment it writes the acceptance. `Consented` says how an acceptance comes
about whatever the order: a request of the account, or the form that made or activated it, named
the version while that version was the current one, and committed. A connection comes back after
its request, so a reading is told from an older one of the same connection by what has not ended
since (`Since`).

The invariant `Recorded` carries this for the accounts and for the requests in flight.
`consent_is_own` is the result for runs. It covers the gate, too: it is open when no version is
published, and else who passes it has consented to the version that was current when the request
read it. The current version only moves on (`current_of_run`).
-/

set_option autoImplicit false

namespace RedTeaming.Terms

open RedTeaming.Auth
open RedTeaming.Library

/-- The version is the current one. -/
def State.Current (s : State) (termsId : UUID) : Prop := currentTermsId s.documents = some termsId

/-- The step ends the acceptance that the account has in flight. -/
def EndsAccept (userId : UserId) : Label → Prop
  | .commitAccept userId' _ | .abortAccept userId' => userId' = userId
  | _ => False

/-- The step ends the onboarding form that the connection has in flight. -/
def EndsSignup (tx : Tx) : Label → Prop
  | .commitRegister tx' _ _ | .commitInvitation tx' _ _ | .abort tx' => tx' = tx
  | _ => False

/-- The step ends the request that the connection has at the gate. -/
def EndsGate (tx : Tx) : Label → Prop
  | .passGate tx' | .abort tx' => tx' = tx
  | _ => False

/-- The acceptance in flight named the version while it was the current one. -/
def Accepting (s₀ : State) (ls : List Label) (userId : UserId) (termsId : UUID) : Prop :=
  Since step (fun s l => l = .readAccept userId termsId ∧ s.Current termsId)
    (EndsAccept userId) s₀ ls

/-- The onboarding form in flight named the version while it was the current one. -/
def SigningUp (s₀ : State) (ls : List Label) (tx : Tx) (form : ConsentForm)
    (termsId : UUID) : Prop :=
  form.consentTerms = true ∧ form.termsId = some termsId ∧
    Since step (fun s l => l = .readSignup tx form ∧ s.Current termsId) (EndsSignup tx) s₀ ls

/-- The request at the gate read the version while it was the current one. -/
def AtGate (s₀ : State) (ls : List Label) (tx : Tx) (gate : Gate) : Prop :=
  Since step (fun s l => l = .readGate tx gate.userId ∧ s.Current gate.termsId)
    (EndsGate tx) s₀ ls

/-- How the account came to accept the version, in a run of `ls` from `s₀`. -/
inductive Consented (s₀ : State) (ls : List Label) (userId : UserId) (termsId : UUID) : Prop
  | accepted (ls₁ ls₂ : List Label) (now : Time)
      (hls : ls = ls₁ ++ .commitAccept userId now :: ls₂) (h : Accepting s₀ ls₁ userId termsId)
  | signedUp (ls₁ ls₂ : List Label) (tx : Tx) (now : Time) (form : ConsentForm) (l : Label)
      (hls : ls = ls₁ ++ l :: ls₂)
      (hl : l = .commitRegister tx userId now ∨ l = .commitInvitation tx userId now)
      (h : SigningUp s₀ ls₁ tx form termsId)
  | before (account : Account) (h : s₀.users userId = some account)
      (hversion : account.acceptedTermsId = some termsId)

/-- The history behind the acceptances, and behind the requests in flight. -/
structure Recorded (s₀ : State) (ls : List Label) (s : State) : Prop where
  users : ∀ userId account termsId, s.users userId = some account →
    account.acceptedTermsId = some termsId → Consented s₀ ls userId termsId
  accepting : ∀ userId termsId, s.accepting userId = some termsId → Accepting s₀ ls userId termsId
  signups : ∀ tx signup termsId, s.signups tx = some signup → signup.document = some termsId →
    SigningUp s₀ ls tx signup.form termsId
  gates : ∀ tx gate, s.gates tx = some gate → AtGate s₀ ls tx gate

section
variable {s₀ s s' : State} {ls : List Label} {l : Label} {userId : UserId} {termsId : UUID}

theorem Consented.append (h : Consented s₀ ls userId termsId) (ls' : List Label) :
    Consented s₀ (ls ++ ls') userId termsId := by
  cases h with
  | accepted ls₁ ls₂ now hls h =>
    refine .accepted ls₁ (ls₂ ++ ls') now ?_ h
    rw [hls, List.append_assoc, List.cons_append]
  | signedUp ls₁ ls₂ tx now form l hls hl h =>
    refine .signedUp ls₁ (ls₂ ++ ls') tx now form l ?_ hl h
    rw [hls, List.append_assoc, List.cons_append]
  | before account h hversion => exact .before account h hversion

/-- What is in flight and does not end in a step has its history. -/
theorem SigningUp.concat {tx : Tx} {form : ConsentForm} (h : SigningUp s₀ ls tx form termsId)
    (hl : ¬ EndsSignup tx l) : SigningUp s₀ (ls ++ [l]) tx form termsId :=
  ⟨h.1, h.2.1, h.2.2.concat hl⟩

/-- A form that passes with a version consents to it, and it is the current one. -/
theorem resolveSignupConsent_spec {documents : Table TermsDocument} {form : ConsentForm}
    {document : TermsDocument} (h : resolveSignupConsent documents form = .ok (some document)) :
    form.consentTerms = true ∧ form.termsId = some (key document) ∧
      currentTermsId documents = some (key document) := by
  unfold resolveSignupConsent at h
  cases hcurrent : getCurrentTerms documents with
  | none =>
    rw [hcurrent] at h
    cases h
  | some current =>
    rw [hcurrent] at h
    obtain ⟨⟨⟩, hterms, h⟩ := bind_eq_ok.mp h
    obtain ⟨⟨⟩, hversion, h⟩ := bind_eq_ok.mp h
    rw [check_eq_ok] at hterms hversion
    cases h
    refine ⟨hterms, beq_iff_eq.mp hversion, ?_⟩
    rw [currentTermsId, hcurrent, Option.map_some]

/-- An accepted version is the one of the request, or the one before. -/
theorem acceptedTermsId_accept {account : Account} {now : Time} {termsId' : UUID}
    (h : (State.accept account termsId now).acceptedTermsId = some termsId') :
    termsId' = termsId ∨ account.acceptedTermsId = some termsId' := by
  unfold State.accept at h
  split at h
  · exact Or.inr h
  · exact Or.inl (Option.some.inj h).symm

/-- The version on a row after a signup is the one of the form, or the one before. -/
theorem acceptedTermsId_recordSignupConsent {account : Account} {document : Option UUID}
    {form : ConsentForm} {now : Time}
    (h : (recordSignupConsent account document form now).acceptedTermsId = some termsId) :
    document = some termsId ∨ account.acceptedTermsId = some termsId := by
  cases document with
  | none => exact Or.inr h
  | some termsId' => exact Or.inl h

/-- The acceptances in flight after a step: one of before that the step does not end, or one that
has just read the current version. -/
theorem accepting_step (h : step s l = some s') (ha : s'.accepting userId = some termsId) :
    (s.accepting userId = some termsId ∧ ¬ EndsAccept userId l) ∨
      (l = .readAccept userId termsId ∧ s.Current termsId) := by
  cases step_spec h with
  | readAccept userId' termsId' hcurrent =>
    rcases Records.of_set ha with ⟨rfl, rfl⟩ | ⟨-, ha⟩
    · exact Or.inr ⟨rfl, hcurrent⟩
    · exact Or.inl ⟨ha, fun hends => hends⟩
  | commitAccept userId' now termsId' account _ _ =>
    obtain ⟨hne, ha⟩ := Records.of_drop ha
    exact Or.inl ⟨ha, fun hends => hne hends.symm⟩
  | abortAccept userId' =>
    obtain ⟨hne, ha⟩ := Records.of_drop ha
    exact Or.inl ⟨ha, fun hends => hne hends.symm⟩
  | _ => exact Or.inl ⟨ha, fun hends => hends⟩

/-- The forms in flight after a step: one of before that the step does not end, or one that has
just been read. -/
theorem signups_step {tx : Tx} {signup : Signup} (h : step s l = some s')
    (hs : s'.signups tx = some signup) :
    (s.signups tx = some signup ∧ ¬ EndsSignup tx l) ∨
      (l = .readSignup tx signup.form ∧ ∃ document, signup.document = Option.map key document ∧
        resolveSignupConsent s.documents signup.form = .ok document) := by
  cases step_spec h with
  | readSignup tx' form document hresolve =>
    rcases Records.of_set hs with ⟨rfl, rfl⟩ | ⟨-, hs⟩
    · exact Or.inr ⟨rfl, document, rfl, hresolve⟩
    · exact Or.inl ⟨hs, fun hends => hends⟩
  | commitRegister tx' userId now signup' _ =>
    obtain ⟨hne, hs⟩ := Records.of_drop hs
    exact Or.inl ⟨hs, fun hends => hne hends.symm⟩
  | commitInvitation tx' userId now signup' account _ _ =>
    obtain ⟨hne, hs⟩ := Records.of_drop hs
    exact Or.inl ⟨hs, fun hends => hne hends.symm⟩
  | abort tx' =>
    obtain ⟨hne, hs⟩ := Records.of_drop hs
    exact Or.inl ⟨hs, fun hends => hne hends.symm⟩
  | _ => exact Or.inl ⟨hs, fun hends => hends⟩

/-- The requests at the gate after a step: one of before that the step does not end, or one that
has just read the current version. -/
theorem gates_step {tx : Tx} {gate : Gate} (h : step s l = some s')
    (hg : s'.gates tx = some gate) :
    (s.gates tx = some gate ∧ ¬ EndsGate tx l) ∨
      (l = .readGate tx gate.userId ∧ s.Current gate.termsId) := by
  cases step_spec h with
  | readGate tx' userId termsId hcurrent =>
    rcases Records.of_set hg with ⟨rfl, rfl⟩ | ⟨-, hg⟩
    · exact Or.inr ⟨rfl, hcurrent⟩
    · exact Or.inl ⟨hg, fun hends => hends⟩
  | passGate tx' gate' _ _ =>
    obtain ⟨hne, hg⟩ := Records.of_drop hg
    exact Or.inl ⟨hg, fun hends => hne hends.symm⟩
  | abort tx' =>
    obtain ⟨hne, hg⟩ := Records.of_drop hg
    exact Or.inl ⟨hg, fun hends => hne hends.symm⟩
  | _ => exact Or.inl ⟨hg, fun hends => hends⟩

/-- An acceptance after a step was there before, or the step commits it. -/
theorem consented_step (h : Recorded s₀ ls s) (hstep : step s l = some s') {account : Account}
    (hu : s'.users userId = some account) (ha : account.acceptedTermsId = some termsId) :
    Consented s₀ (ls ++ [l]) userId termsId := by
  have hbefore {account : Account} (hu : s.users userId = some account)
      (ha : account.acceptedTermsId = some termsId) : Consented s₀ (ls ++ [l]) userId termsId :=
    (h.users userId account termsId hu ha).append [l]
  cases step_spec hstep with
  | commitAccept userId' now termsId' account' haccepting haccount =>
    rcases Records.of_set hu with ⟨rfl, rfl⟩ | ⟨-, hu⟩
    · rcases acceptedTermsId_accept ha with rfl | hold
      · exact .accepted ls [] now rfl (h.accepting userId termsId haccepting)
      · exact hbefore haccount hold
    · exact hbefore hu ha
  | commitRegister tx userId' now signup hsignup =>
    rcases Records.of_set hu with ⟨rfl, rfl⟩ | ⟨-, hu⟩
    · rcases acceptedTermsId_recordSignupConsent ha with hd | hnone
      · exact .signedUp ls [] tx now signup.form _ rfl (Or.inl rfl)
          (h.signups tx signup termsId hsignup hd)
      · cases hnone
    · exact hbefore hu ha
  | commitInvitation tx userId' now signup account' hsignup haccount =>
    rcases Records.of_set hu with ⟨rfl, rfl⟩ | ⟨-, hu⟩
    · rcases acceptedTermsId_recordSignupConsent ha with hd | hold
      · exact .signedUp ls [] tx now signup.form _ rfl (Or.inr rfl)
          (h.signups tx signup termsId hsignup hd)
      · exact hbefore haccount hold
    · exact hbefore hu ha
  | account userId' status deleted consentEmails =>
    rcases Records.of_set hu with ⟨rfl, rfl⟩ | ⟨-, hu⟩
    · -- the columns of the acceptance are those of the row before, if there was one
      cases hold : s.users userId with
      | none =>
        rw [State.account, hold] at ha
        cases ha
      | some account =>
        rw [State.account, hold] at ha
        exact hbefore hold ha
    · exact hbefore hu ha
  | _ => exact hbefore hu ha

/-- A step of a run keeps the history. -/
theorem recorded_step (hrun : run step s₀ ls = some s) (h : Recorded s₀ ls s)
    (hstep : step s l = some s') : Recorded s₀ (ls ++ [l]) s' where
  users _ _ _ hu ha := consented_step h hstep hu ha
  accepting userId termsId ha := by
    rcases accepting_step hstep ha with ⟨ha, hopen⟩ | hread
    · exact Since.concat (h.accepting userId termsId ha) hopen
    · exact since_concat hrun hread
  signups tx signup termsId hs hd := by
    rcases signups_step hstep hs with ⟨hs, hopen⟩ | ⟨hl, document, hdocument, hresolve⟩
    · exact (h.signups tx signup termsId hs hd).concat hopen
    · obtain ⟨d, rfl, rfl⟩ := Option.map_eq_some_iff.mp (hdocument.symm.trans hd)
      obtain ⟨hterms, hversion, hcurrent⟩ := resolveSignupConsent_spec hresolve
      exact ⟨hterms, hversion, since_concat hrun ⟨hl, hcurrent⟩⟩
  gates tx gate hg := by
    rcases gates_step hstep hg with ⟨hg, hopen⟩ | hread
    · exact Since.concat (h.gates tx gate hg) hopen
    · exact since_concat hrun hread

/-- The history of a run from a state between requests. -/
theorem recorded_of_run (h₀ : Quiet s₀) (hrun : run step s₀ ls = some s) : Recorded s₀ ls s := by
  refine run_history (I := Recorded s₀) ?_
    (fun _ _ _ _ hrun h hstep => recorded_step hrun h hstep)
    hrun
  exact
    { users := fun userId account termsId hu ha => .before account hu ha
      accepting := fun userId termsId ha => by rw [h₀.accepting] at ha; cases ha
      signups := fun tx signup termsId hs => by rw [h₀.signups] at hs; cases hs
      gates := fun tx gate hg => by rw [h₀.gates] at hg; cases hg }

/-! ### The current version -/

theorem precedes_iff {a b : TermsDocument} : a.precedes b = true ↔
    b.publishedAt < a.publishedAt ∨ (a.publishedAt = b.publishedAt ∧ a.id ≤ b.id) := by
  simp [TermsDocument.precedes]

theorem precedes_trans (a b c : TermsDocument) (hab : a.precedes b = true)
    (hbc : b.precedes c = true) : a.precedes c = true := by
  rw [precedes_iff] at hab hbc ⊢
  rcases hab with hab | ⟨hab, hid⟩
  · rcases hbc with hbc | ⟨hbc, -⟩
    · exact Or.inl (hbc.trans hab)
    · exact Or.inl (hbc ▸ hab)
  · rcases hbc with hbc | ⟨hbc, hid'⟩
    · exact Or.inl (hab ▸ hbc)
    · exact Or.inr ⟨hab.trans hbc, hid.trans hid'⟩

theorem precedes_total (a b : TermsDocument) : a.precedes b || b.precedes a := by
  rw [Bool.or_eq_true, precedes_iff, precedes_iff]
  rcases Nat.lt_trichotomy a.publishedAt b.publishedAt with h | h | h
  · exact Or.inr (Or.inl h)
  · rcases Nat.le_total a.id b.id with hid | hid
    · exact Or.inl (Or.inr ⟨h, hid⟩)
    · exact Or.inr (Or.inr ⟨h.symm, hid⟩)
  · exact Or.inl (Or.inl h)

/-- The current version is live, and precedes every live one. -/
theorem getCurrentTerms_spec {documents : Table TermsDocument} {d : TermsDocument}
    (h : getCurrentTerms documents = some d) :
    d ∈ documents ∧ live d = true ∧ ∀ d' ∈ documents, live d' = true → d.precedes d' = true := by
  obtain ⟨hd, hfirst⟩ := of_head?_orderBy precedes_trans precedes_total h
  obtain ⟨hmem, hlive⟩ := mem_liveSelect.mp hd
  exact ⟨hmem, hlive, fun d' hd' hlive' => hfirst d' (mem_liveSelect.mpr ⟨hd', hlive'⟩)⟩

/-- Among live versions one is current. -/
theorem exists_current {documents : Table TermsDocument} {d : TermsDocument} (hd : d ∈ documents)
    (hlive : live d = true) :
    ∃ d', getCurrentTerms documents = some d' ∧ d'.precedes d = true := by
  cases hcurrent : getCurrentTerms documents with
  | none =>
    have hempty := List.head?_eq_none_iff.mp hcurrent
    have hmem : d ∈ orderBy TermsDocument.precedes (liveSelect documents) :=
      mem_orderBy.mpr (mem_liveSelect.mpr ⟨hd, hlive⟩)
    rw [hempty] at hmem
    cases hmem
  | some d' => exact ⟨d', rfl, (getCurrentTerms_spec hcurrent).2.2 d hd hlive⟩

/-- A step leaves the versions, and may add one. -/
theorem documents_step (h : step s l = some s') {d : TermsDocument} (hd : d ∈ s.documents) :
    d ∈ s'.documents := by
  cases step_spec h with
  | published tx d' documents hflush => exact (mem_flush hflush).mpr (Or.inl hd)
  | _ => exact hd

/-- The current version of a later state precedes the one of an earlier state, or is the same. -/
theorem current_of_run {d : TermsDocument} (hcurrent : getCurrentTerms s.documents = some d)
    (hrun : run step s ls = some s') :
    ∃ d', getCurrentTerms s'.documents = some d' ∧ d'.precedes d = true := by
  obtain ⟨hd, hlive, -⟩ := getCurrentTerms_spec hcurrent
  have hlater : d ∈ s'.documents :=
    run_invariant (I := fun s => d ∈ s.documents)
      (fun _ _ _ h hstep => documents_step hstep h) hd hrun
  exact exists_current hlater hlive

/-- A request that comes to the gate files the current version, or finds the gate open. -/
theorem readGate_spec {tx : Tx} (h : step s (.readGate tx userId) = some s') :
    (∃ termsId, s.Current termsId ∧ s'.gates tx = some { userId, termsId }) ∨
      (currentTermsId s.documents = none ∧ s' = s) := by
  simp only [step] at h
  split at h
  · cases h
  · split at h
    · rename_i hnone
      cases h
      exact Or.inr ⟨hnone, rfl⟩
    · rename_i termsId hcurrent
      cases h
      exact Or.inl ⟨termsId, hcurrent, Records.set_self⟩

/-- Who passes the gate is gone, or has accepted the version that the request read. -/
theorem passGate_spec {tx : Tx} {gate : Gate} (hgate : s.gates tx = some gate)
    (h : step s (.passGate tx) = some s') :
    s.liveUser gate.userId = none ∨ ∃ account, s.users gate.userId = some account ∧
      account.acceptedTermsId = some gate.termsId := by
  cases step_spec h with
  | passGate _ gate' hgate' howes =>
    rw [hgate] at hgate'
    cases hgate'
    cases hlive : s.liveUser gate.userId with
    | none => exact Or.inl rfl
    | some account =>
      rw [hlive, Option.all_some, beq_iff_eq] at howes
      exact Or.inr ⟨account, (Option.filter_eq_some_iff.mp hlive).1, howes⟩

end

/-- However the requests overlap, from a state between requests: an account accepts a version only
through its own request or onboarding form, which named the version while it was the current one.
A request that comes to the gate files the current version, and finds the gate open when there is
none. It passes the gate only when the account is gone, or has so consented to the version that
was current when the request read it. The current version is only replaced by a newer one. -/
theorem consent_is_own (s₀ s : State) (ls : List Label) (h₀ : Quiet s₀)
    (hrun : run step s₀ ls = some s) :
    (∀ userId account termsId, s.users userId = some account →
      account.acceptedTermsId = some termsId → Consented s₀ ls userId termsId) ∧
    (∀ tx userId s', step s (.readGate tx userId) = some s' →
      (∃ termsId, s.Current termsId ∧ s'.gates tx = some { userId, termsId }) ∨
        (currentTermsId s.documents = none ∧ s' = s)) ∧
    (∀ tx gate s', s.gates tx = some gate → step s (.passGate tx) = some s' →
      AtGate s₀ ls tx gate ∧
      (s.liveUser gate.userId = none ∨ Consented s₀ ls gate.userId gate.termsId)) ∧
    ∀ ls₁ ls₂ s₁ d, ls = ls₁ ++ ls₂ → run step s₀ ls₁ = some s₁ →
      getCurrentTerms s₁.documents = some d →
      ∃ d', getCurrentTerms s.documents = some d' ∧ d'.precedes d = true := by
  have hrecorded := recorded_of_run h₀ hrun
  refine ⟨hrecorded.users, fun _ _ _ hread => readGate_spec hread, ?_, ?_⟩
  · intro tx gate s' hgate hpass
    refine ⟨hrecorded.gates tx gate hgate, ?_⟩
    rcases passGate_spec hgate hpass with hgone | ⟨account, haccount, haccepted⟩
    · exact Or.inl hgone
    · exact Or.inr (hrecorded.users gate.userId account gate.termsId haccount haccepted)
  · rintro ls₁ ls₂ s₁ d rfl hrun₁ hcurrent
    obtain ⟨s₂, hrun₂, hrest⟩ := (run_append_eq_some step).mp hrun
    rw [hrun₁] at hrun₂
    cases hrun₂
    exact current_of_run hcurrent hrest

/-! ### A deployment -/

/-- A deployment with one account, without terms. -/
def State.initial : State where
  documents := .empty
  users u := if u = 1 then some { status := .active } else none
  publishing _ := none
  accepting _ := none
  signups _ := none
  gates _ := none

/-- The first version. -/
def firstTerms : TermsPublish where
  version := " 1.0"
  content := "Be kind"
  versionLength := by decide
  contentLength := by decide
  versionText := by decide +kernel
  contentText := by decide +kernel

/-- A version is published, the account accepts it, and a request of the account reads the
gate. -/
def acceptance : List Label :=
  [.insertTerms 0 Accounts.rootSession firstTerms 10 1, .commitPublish 0, .readAccept 1 10,
    .commitAccept 1 2, .readGate 1 1]

/-- The account has consented to the version by its own request. -/
theorem consent_is_own_accepted :
    ∃ s, run step .initial acceptance = some s ∧ Consented .initial acceptance 1 10 := by
  have hany : (run step .initial acceptance).any
      (fun s => decide ((s.users 1).map Account.acceptedTermsId = some (some 10))) = true := by
    decide +kernel
  obtain ⟨s, hrun, haccepted⟩ := exists_run_of_any hany
  obtain ⟨account, haccount, hterms⟩ := Option.map_eq_some_iff.mp (of_decide_eq_true haccepted)
  obtain ⟨hown, -, -, -⟩ := consent_is_own .initial s acceptance
    ⟨fun _ => rfl, fun _ => rfl, fun _ => rfl, fun _ => rfl⟩ hrun
  exact ⟨s, hrun, hown 1 account 10 haccount hterms⟩

end RedTeaming.Terms
