import RedTeaming.Auth.Accounts
import RedTeaming.Library.Listing
import RedTeaming.Library.Records
import RedTeaming.Library.Text
import RedTeaming.SoftDelete

/-!
# `RedTeaming.Terms.System`: versions of the terms, and who consented to which

`core/terms/models.py` and `core/terms/service.py`, with their callers: the publish and the accept
endpoint, the signup and the invitation form, and the gate of `current_user`. Each reads which
version is current in one statement and acts on it in a later one. So a publication may commit in
between.

The requests in flight are records. An accept holds the lock of its account (`FOR UPDATE`), and is
filed under it. `account` stands for what the other services commit to an account. They leave the
columns of the acceptance alone.
-/

set_option autoImplicit false

namespace RedTeaming.Terms

open RedTeaming.Auth
open RedTeaming.Library

/-- A row of `terms_documents`. -/
structure TermsDocument extends BaseModel where
  version : String
  content : String
  publishedAt : Time
deriving DecidableEq

instance : Entity TermsDocument where
  base := TermsDocument.toBaseModel
  withBase r b := { r with toBaseModel := b }
  base_withBase _ _ := rfl

/-- The columns of `users` that consent reads and writes. -/
structure Account where
  status : UserStatus
  deleted : Bool := false
  acceptedTermsId : Option UUID := none
  termsAcceptedAt : Option Time := none
  consentEmails : Bool := false
deriving DecidableEq

/-- The consent of an onboarding form. -/
structure ConsentForm where
  consentTerms : Bool := false
  consentEmails : Bool := false
  termsId : Option UUID := none

/-! ### Payloads -/

/-- The text without white space around it (`str.strip`). -/
def strip (text : String) : String :=
  String.ofList (Text.strip (fun c : Char => Text.isSpace c.toNat) text.toList)

/-- `TermsPublish`. The version and the text are not blank. -/
structure TermsPublish where
  version : String
  content : String
  versionLength : version.length ≤ 64
  contentLength : content.length ≤ 200000
  versionText : strip version ≠ ""
  contentText : strip content ≠ ""

/-- `_clean_version`. -/
def TermsPublish.cleanVersion (form : TermsPublish) : String := strip form.version

/-! ### Reads -/

/-- The order of the versions: the newest first, then the smaller id. -/
def TermsDocument.precedes (a b : TermsDocument) : Bool :=
  decide (b.publishedAt < a.publishedAt) ||
    (a.publishedAt == b.publishedAt && decide (a.id ≤ b.id))

/-- `get_current_terms`: the first of the live versions in that order. -/
def getCurrentTerms (documents : Table TermsDocument) : Option TermsDocument :=
  (orderBy TermsDocument.precedes (liveSelect documents)).head?

/-- `current_terms_id`. -/
def currentTermsId (documents : Table TermsDocument) : Option UUID :=
  (getCurrentTerms documents).map key

/-- `resolve_signup_consent`. -/
def resolveSignupConsent (documents : Table TermsDocument) (form : ConsentForm) :
    Except ApiError (Option TermsDocument) :=
  match getCurrentTerms documents with
  | none => .ok none
  | some current => do
    check form.consentTerms (.badRequest "The terms of service must be accepted.")
    check (form.termsId == some current.id)
      (.conflict "Those terms are no longer the current version.")
    return some current

/-- `record_signup_consent`. -/
def recordSignupConsent (account : Account) (document : Option UUID) (form : ConsentForm)
    (now : Time) : Account :=
  match document with
  | none => { account with consentEmails := form.consentEmails }
  | some termsId =>
    { account with
      consentEmails := form.consentEmails
      acceptedTermsId := some termsId
      termsAcceptedAt := some now }

/-! ### States and steps -/

/-- A database connection. -/
abbrev Tx := Nat

/-- An onboarding form after the read of the current version. -/
structure Signup where
  form : ConsentForm
  document : Option UUID

/-- A request at the gate, after the read of the current version. -/
structure Gate where
  userId : UserId
  termsId : UUID

/-- The committed rows, and the requests in flight. -/
structure State where
  documents : Table TermsDocument
  users : Records UserId Account
  publishing : Records Tx TermsDocument
  accepting : Records UserId UUID
  signups : Records Tx Signup
  gates : Records Tx Gate

/-- A step of a request. -/
inductive Label
  | insertTerms (tx : Tx) (caller : SessionUser) (form : TermsPublish) (id : UUID) (now : Time)
  | commitPublish (tx : Tx)
  | readAccept (userId : UserId) (termsId : UUID)
  | commitAccept (userId : UserId) (now : Time)
  | readSignup (tx : Tx) (form : ConsentForm)
  | commitRegister (tx : Tx) (userId : UserId) (now : Time)
  | commitInvitation (tx : Tx) (userId : UserId) (now : Time)
  | readGate (tx : Tx) (userId : UserId)
  | passGate (tx : Tx)
  | account (userId : UserId) (status : UserStatus) (deleted consentEmails : Bool)
  | abort (tx : Tx)
  | abortAccept (userId : UserId)

namespace State
variable (s : State)

/-- The account of a live user. -/
def liveUser (userId : UserId) : Option Account := (s.users userId).filter fun a => !a.deleted

/-- `publish_terms` before its commit: the version must not be taken. -/
def insertTerms (tx : Tx) (caller : SessionUser) (form : TermsPublish) (id : UUID) (now : Time) :
    Except ApiError State := do
  requirePermission caller .platformSettingsUpdate
  check ((liveSelect s.documents).all fun d => d.version != form.cleanVersion)
    (.conflict ("A terms version " ++ quoted form.cleanVersion ++ " already exists."))
  let document : TermsDocument :=
    { id, createdAt := now, version := form.cleanVersion, content := form.content,
      publishedAt := now }
  return { s with publishing := s.publishing.set tx document }

/-- The commit of a version. The unique index and the primary key hold. -/
def commitPublish (tx : Tx) (document : TermsDocument) : Except ApiError State := do
  check ((liveSelect s.documents).all fun d => d.version != document.version)
    (.conflict ("A terms version " ++ quoted document.version ++ " already exists."))
  let documents ← flush s.documents [document]
  return { s with documents, publishing := s.publishing.drop tx }

/-- `accept_terms_endpoint` up to its read of the current version, under the lock of the
account. -/
def readAccept (userId : UserId) (termsId : UUID) : Except ApiError State := do
  let _ ← found (s.liveUser userId) (.notFound ("User " ++ toString userId ++ " not found."))
  check (currentTermsId s.documents == some termsId)
    (.conflict "Those terms are no longer the current version.")
  return { s with accepting := s.accepting.set userId termsId }

/-- `accept_terms` writes the consent. A repeat leaves the row as it is. -/
def accept (account : Account) (termsId : UUID) (now : Time) : Account :=
  if account.acceptedTermsId = some termsId then account
  else { account with acceptedTermsId := some termsId, termsAcceptedAt := some now }

/-- The read of the current version for an onboarding form. -/
def readSignup (tx : Tx) (form : ConsentForm) : Except ApiError State := do
  let document ← resolveSignupConsent s.documents form
  return { s with signups := s.signups.set tx { form, document := document.map key } }

/-- Another service commits to an account: the columns of the acceptance stay. -/
def account (userId : UserId) (status : UserStatus) (deleted consentEmails : Bool) : Account :=
  { (s.users userId).getD { status } with status, deleted, consentEmails }

/-- The account is one that an invitation may still activate. -/
def onboarding (account : Account) : Bool :=
  !account.deleted && (account.status == .invited || account.status == .pending)

end State

/-- A step. A refusal and a wait are no step. -/
def step (s : State) : Label → Option State
  | .insertTerms tx caller form id now =>
    if (s.publishing tx).isSome then none else (s.insertTerms tx caller form id now).toOption
  | .commitPublish tx => do
    let document ← s.publishing tx
    (s.commitPublish tx document).toOption
  | .readAccept userId termsId =>
    if (s.accepting userId).isSome then none else (s.readAccept userId termsId).toOption
  | .commitAccept userId now => do
    let termsId ← s.accepting userId
    let account ← s.users userId
    return { s with
      users := s.users.set userId (State.accept account termsId now)
      accepting := s.accepting.drop userId }
  | .readSignup tx form =>
    if (s.signups tx).isSome then none else (s.readSignup tx form).toOption
  | .commitRegister tx userId now => do
    let signup ← s.signups tx
    -- only the arm of a new account writes the consent
    guard (s.users userId).isNone
    return { s with
      users := s.users.set userId
        (recordSignupConsent { status := .pending } signup.document signup.form now)
      signups := s.signups.drop tx }
  | .commitInvitation tx userId now => do
    let signup ← s.signups tx
    let account ← s.users userId
    guard (State.onboarding account && (s.accepting userId).isNone)
    return { s with
      users := s.users.set userId
        (recordSignupConsent { account with status := .active } signup.document signup.form now)
      signups := s.signups.drop tx }
  | .readGate tx userId =>
    if (s.gates tx).isSome then none else
      -- without a current version the gate is open
      match currentTermsId s.documents with
      | none => some s
      | some termsId => some { s with gates := s.gates.set tx { userId, termsId } }
  | .passGate tx => do
    let gate ← s.gates tx
    -- an account that is gone owes nothing
    guard ((s.liveUser gate.userId).all fun a => a.acceptedTermsId == some gate.termsId)
    return { s with gates := s.gates.drop tx }
  | .account userId status deleted consentEmails =>
    if (s.accepting userId).isSome then none else
      some { s with users := s.users.set userId (s.account userId status deleted consentEmails) }
  | .abort tx =>
    some { s with
      publishing := s.publishing.drop tx
      signups := s.signups.drop tx
      gates := s.gates.drop tx }
  | .abortAccept userId => some { s with accepting := s.accepting.drop userId }

/-- A state between requests. -/
structure Quiet (s : State) : Prop where
  publishing : ∀ tx, s.publishing tx = none
  accepting : ∀ userId, s.accepting userId = none
  signups : ∀ tx, s.signups tx = none
  gates : ∀ tx, s.gates tx = none

/-! ### What a step can do -/

/-- What a step can do, with what the requests have read before. -/
inductive StepSpec (s : State) : Label → State → Prop
  | inserted (tx : Tx) (caller : SessionUser) (form : TermsPublish) (id : UUID) (now : Time)
      (d : TermsDocument) :
      StepSpec s (.insertTerms tx caller form id now)
        { s with publishing := s.publishing.set tx d }
  | published (tx : Tx) (d : TermsDocument) (documents : Table TermsDocument)
      (hflush : flush s.documents [d] = .ok documents) :
      StepSpec s (.commitPublish tx) { s with documents, publishing := s.publishing.drop tx }
  | readAccept (userId : UserId) (termsId : UUID)
      (hcurrent : currentTermsId s.documents = some termsId) :
      StepSpec s (.readAccept userId termsId)
        { s with accepting := s.accepting.set userId termsId }
  | commitAccept (userId : UserId) (now : Time) (termsId : UUID) (account : Account)
      (haccepting : s.accepting userId = some termsId)
        (haccount : s.users userId = some account) :
      StepSpec s (.commitAccept userId now)
        { s with
          users := s.users.set userId (State.accept account termsId now)
          accepting := s.accepting.drop userId }
  | readSignup (tx : Tx) (form : ConsentForm) (document : Option TermsDocument)
      (hresolve : resolveSignupConsent s.documents form = .ok document) :
      StepSpec s (.readSignup tx form)
        { s with signups := s.signups.set tx { form, document := document.map key } }
  | commitRegister (tx : Tx) (userId : UserId) (now : Time) (signup : Signup)
      (hsignup : s.signups tx = some signup) :
      StepSpec s (.commitRegister tx userId now)
        { s with
          users := s.users.set userId
            (recordSignupConsent { status := .pending } signup.document signup.form now)
          signups := s.signups.drop tx }
  | commitInvitation (tx : Tx) (userId : UserId) (now : Time) (signup : Signup)
      (account : Account)
      (hsignup : s.signups tx = some signup) (haccount : s.users userId = some account) :
      StepSpec s (.commitInvitation tx userId now)
        { s with
          users := s.users.set userId
            (recordSignupConsent { account with status := .active } signup.document
              signup.form now)
          signups := s.signups.drop tx }
  | openGate (tx : Tx) (userId : UserId) : StepSpec s (.readGate tx userId) s
  | readGate (tx : Tx) (userId : UserId) (termsId : UUID)
      (hcurrent : currentTermsId s.documents = some termsId) :
      StepSpec s (.readGate tx userId) { s with gates := s.gates.set tx { userId, termsId } }
  | passGate (tx : Tx) (gate : Gate) (hgate : s.gates tx = some gate)
      (howes : (s.liveUser gate.userId).all (fun a => a.acceptedTermsId == some gate.termsId) =
        true) :
      StepSpec s (.passGate tx) { s with gates := s.gates.drop tx }
  | account (userId : UserId) (status : UserStatus) (deleted consentEmails : Bool) :
      StepSpec s (.account userId status deleted consentEmails)
        { s with users := s.users.set userId (s.account userId status deleted consentEmails) }
  | abort (tx : Tx) :
      StepSpec s (.abort tx)
        { s with
          publishing := s.publishing.drop tx
          signups := s.signups.drop tx
          gates := s.gates.drop tx }
  | abortAccept (userId : UserId) :
      StepSpec s (.abortAccept userId) { s with accepting := s.accepting.drop userId }

/-- A step does one of these. -/
theorem step_spec {s s' : State} {l : Label} (h : step s l = some s') : StepSpec s l s' := by
  cases l with
  | insertTerms tx caller form id now =>
    simp only [step] at h
    split at h
    · cases h
    · obtain ⟨-, -, h⟩ := bind_eq_ok.mp (toOption_eq_some.mp h)
      obtain ⟨-, -, h⟩ := bind_eq_ok.mp h
      cases h
      exact .inserted tx caller form id now _
  | commitPublish tx =>
    obtain ⟨d, -, h⟩ := Option.bind_eq_some_iff.mp h
    obtain ⟨-, -, h⟩ := bind_eq_ok.mp (toOption_eq_some.mp h)
    obtain ⟨documents, hflush, h⟩ := bind_eq_ok.mp h
    cases h
    exact .published tx d documents hflush
  | readAccept userId termsId =>
    simp only [step] at h
    split at h
    · cases h
    · obtain ⟨-, -, h⟩ := bind_eq_ok.mp (toOption_eq_some.mp h)
      obtain ⟨⟨⟩, hcurrent, h⟩ := bind_eq_ok.mp h
      rw [check_eq_ok, beq_iff_eq] at hcurrent
      cases h
      exact .readAccept userId termsId hcurrent
  | commitAccept userId now =>
    obtain ⟨termsId, haccepting, h⟩ := Option.bind_eq_some_iff.mp h
    obtain ⟨account, haccount, h⟩ := Option.bind_eq_some_iff.mp h
    cases h
    exact .commitAccept userId now termsId account haccepting haccount
  | readSignup tx form =>
    simp only [step] at h
    split at h
    · cases h
    · obtain ⟨document, hresolve, h⟩ := bind_eq_ok.mp (toOption_eq_some.mp h)
      cases h
      exact .readSignup tx form document hresolve
  | commitRegister tx userId now =>
    obtain ⟨signup, hsignup, h⟩ := Option.bind_eq_some_iff.mp h
    obtain ⟨-, -, h⟩ := Option.bind_eq_some_iff.mp h
    cases h
    exact .commitRegister tx userId now signup hsignup
  | commitInvitation tx userId now =>
    obtain ⟨signup, hsignup, h⟩ := Option.bind_eq_some_iff.mp h
    obtain ⟨account, haccount, h⟩ := Option.bind_eq_some_iff.mp h
    obtain ⟨-, -, h⟩ := Option.bind_eq_some_iff.mp h
    cases h
    exact .commitInvitation tx userId now signup account hsignup haccount
  | readGate tx userId =>
    simp only [step] at h
    split at h
    · cases h
    · split at h
      · cases h
        exact .openGate tx userId
      · rename_i termsId hcurrent
        cases h
        exact .readGate tx userId termsId hcurrent
  | passGate tx =>
    obtain ⟨gate, hgate, h⟩ := Option.bind_eq_some_iff.mp h
    obtain ⟨⟨⟩, howes, h⟩ := Option.bind_eq_some_iff.mp h
    cases h
    exact .passGate tx gate hgate (by simpa using howes)
  | account userId status deleted consentEmails =>
    simp only [step] at h
    split at h
    · cases h
    · cases h
      exact .account userId status deleted consentEmails
  | abort tx =>
    cases h
    exact .abort tx
  | abortAccept userId =>
    cases h
    exact .abortAccept userId

end RedTeaming.Terms
