import RedTeaming.Auth.Roles
import RedTeaming.Library.Json
import RedTeaming.Library.Records
import RedTeaming.SoftDelete

/-!
# `RedTeaming.Email.Outbox`: mails between a request, the broker and the workers

`core/email/__init__.py` and `core/email/tasks.py`. A request flushes the row of a mail and
publishes its task before it commits. The broker keeps a task until a worker has acknowledged it
(`task_acks_late`), so more than one worker can run it. A worker loads the row without a lock,
hands the mail to the backend, and writes the columns that it has changed.

A worker that goes away as a whole leaves its message with the broker (`crash`). A pool process
that is killed does not: `task_reject_on_worker_lost` is off, so the worker acknowledges the
message wherever the run was (`poolLost`).

Jinja and the schemas of the templates are the parameter `Templates`. What the backend answers is
in the labels. `mails` is the list of the calls of `send_email` by the id of their row. No step
reads it, but it says that a UUID does not come twice.
-/

set_option autoImplicit false

namespace RedTeaming.Email

open RedTeaming.Auth (UserId)
open RedTeaming.Library

/-! ### Templates -/

/-- An exception: the name of its class, and its text. -/
structure Failure where
  type : String
  message : String

/-- `EmailMessage`, without the logo that each message has. -/
structure EmailMessage where
  recipient : String
  subject : String
  bodyText : String
  bodyHtml : String
  fromAddr : String
deriving DecidableEq

/-- `validate_context` and `render_template`. -/
structure Templates where
  validate : String → JsonObject → Except Failure JsonObject
  render : String → String → JsonObject → Except Failure EmailMessage

/-- What the packages behind them document: a dumped model has each field once, and a template
reads its variables by name. -/
structure Templates.Documented (T : Templates) : Prop where
  fields : ∀ {name context validated}, T.validate name context = .ok validated →
    (validated.map Prod.fst).Nodup
  byName : ∀ name recipient {context context' : JsonObject},
    (∀ k, context.lookup k = context'.lookup k) →
      T.render name recipient context = T.render name recipient context'

/-! ### Rows and tasks -/

/-- `OutboundEmailStatus`. -/
inductive Status
  | queued
  | sent
  | failed
deriving DecidableEq

/-- A row of `outbound_emails`. -/
structure OutboundEmail extends BaseModel where
  templateName : String
  recipient : String
  context : JsonObject
  subject : Option String
  status : Status := .queued
  requestedByUserId : Option UserId
  batchKey : Option UUID
  errorType : Option String := none
  errorMessage : Option String := none
  attempts : Nat := 0
  sentAt : Option Time := none
  celeryTaskId : Option String := none
  providerMessageId : Option String := none

instance : Entity OutboundEmail where
  base := OutboundEmail.toBaseModel
  withBase r b := { r with toBaseModel := b }
  base_withBase _ _ := rfl

/-- The arguments of `send_email`. -/
structure Mail where
  templateName : String
  recipient : String
  context : JsonObject
  secretContext : JsonObject := []
  requestedByUserId : Option UserId := none
  batchKey : Option UUID := none

/-- A message of the broker: the arguments of `send_email_task`, and how often it was retried. -/
structure Task where
  emailId : UUID
  secretContext : JsonObject
  retries : Nat := 0

/-- `max_retries`. -/
def maxRetries : Nat := 5

/-- A notification of the outbox. `about` is the row, and no column. -/
structure Notice where
  userId : UserId
  name : String
  description : String
  about : Option UUID

namespace Mail
variable (T : Templates) (mail : Mail)

/-- The key is one of the secrets. -/
def isSecret (k : String) : Bool := (mail.secretContext.map Prod.fst).contains k

/-- The validated context. -/
def validated : Except Failure JsonObject :=
  T.validate mail.templateName (mergeFields mail.context mail.secretContext)

/-- The mail as `send_email` renders it. -/
def message : Except Failure EmailMessage := do
  T.render mail.templateName mail.recipient (← mail.validated T)

/-- `send_email`: the row, and the task with the secrets. -/
def prepare (id : UUID) (now : Time) : Except Failure (OutboundEmail × Task) := do
  let validated ← mail.validated T
  let message ← T.render mail.templateName mail.recipient validated
  let email : OutboundEmail :=
    { id, createdAt := now, templateName := mail.templateName, recipient := mail.recipient
      context := keepFields (fun k => !mail.isSecret k) validated
      subject := some message.subject, requestedByUserId := mail.requestedByUserId
      batchKey := mail.batchKey }
  return (email, { emailId := id, secretContext := keepFields mail.isSecret validated })

/-- The notification of `send_email_best_effort`, when its mail is lost. -/
def lost : Option Notice :=
  match mail.requestedByUserId, mail.batchKey with
  | some userId, none => some {
      userId
      name := "Email could not be sent"
      description := "Preparing the message to " ++ mail.recipient ++
        " failed; nothing was queued."
      about := none }
  | _, _ => none

end Mail

namespace OutboundEmail
variable (email : OutboundEmail)

/-- The columns of a run that has begun. -/
def started (taskId : String) : OutboundEmail :=
  { email with attempts := email.attempts + 1, celeryTaskId := some taskId }

/-- The columns after the backend took the mail. -/
def succeeded (taskId : String) (providerId : Option String) (now : Time) : OutboundEmail :=
  { email.started taskId with
    providerMessageId := providerId, status := .sent, sentAt := some now
    errorType := none, errorMessage := none }

/-- The columns after an exception. -/
def raised (taskId : String) (failure : Failure) (terminal : Bool) : OutboundEmail :=
  { email.started taskId with
    errorType := some failure.type, errorMessage := some failure.message
    status := if terminal then .failed else email.status }

/-- A column is written when its value is not the loaded one. -/
def column {α : Type} [DecidableEq α] (loaded new current : α) : α :=
  if new = loaded then current else new

/-- The `UPDATE` of the columns of a run. -/
def update (new current : OutboundEmail) : OutboundEmail :=
  { current with
    status := column email.status new.status current.status
    errorType := column email.errorType new.errorType current.errorType
    errorMessage := column email.errorMessage new.errorMessage current.errorMessage
    attempts := column email.attempts new.attempts current.attempts
    sentAt := column email.sentAt new.sentAt current.sentAt
    celeryTaskId := column email.celeryTaskId new.celeryTaskId current.celeryTaskId
    providerMessageId := column email.providerMessageId new.providerMessageId
      current.providerMessageId }

theorem key_update (new current : OutboundEmail) :
    key (email.update new current) = key current := rfl

/-- `_batch_already_failed`. -/
def batchAlreadyFailed (emails : Table OutboundEmail) : Bool :=
  emails.rows.any fun other =>
    other.batchKey == email.batchKey && other.status == .failed && other.id != email.id

/-- `_notify_requester`. -/
def notifyRequester (emails : Table OutboundEmail) : Option Notice :=
  match email.requestedByUserId with
  | none => none
  | some userId =>
    if email.batchKey.isSome && email.batchAlreadyFailed emails then none
    else some {
      userId
      name := "Email could not be delivered"
      description := "Delivery to " ++ email.recipient ++ " failed after " ++
        toString email.attempts ++ " attempt(s)." ++ (if email.batchKey.isNone then "" else
          " Other messages from the same bulk request may have failed too — check the email log.")
      about := some email.id }

end OutboundEmail

/-! ### States and steps -/

/-- A database connection of a request. -/
abbrev Tx := Nat

/-- A worker process. -/
abbrev Worker := Nat

/-- What a request has flushed. -/
structure Request where
  emails : List OutboundEmail := []
  notices : List Notice := []

/-- How far a run of the task is: the row is loaded, the backend has taken the mail, the run has
to be retried, or it is over. -/
inductive Phase
  | loaded
  | accepted (providerId : Option String)
  | retrying
  | over
deriving DecidableEq

/-- A run of the task, with the row as it was loaded. -/
structure Run where
  tag : Nat
  task : Task
  email : OutboundEmail
  phase : Phase

/-- The committed rows, the open requests, the broker, the workers, and what the backend has
taken. -/
structure State where
  emails : Table OutboundEmail
  notices : List Notice
  requests : Records Tx Request
  broker : Records Nat Task
  nextTag : Nat
  runs : Records Worker Run
  delivered : List (UUID × EmailMessage)
  mails : Records UUID Mail

/-- A step. -/
inductive Label
  | send (tx : Tx) (mail : Mail) (id : UUID) (now : Time)
  | lose (tx : Tx) (mail : Mail)
  | rollback (tx : Tx) (id : UUID)
  | commit (tx : Tx)
  | abort (tx : Tx)
  | take (w : Worker) (tag : Nat)
  | deliver (w : Worker) (providerId : Option String)
  | storeSent (w : Worker) (taskId : String) (now : Time)
  | storeFailed (w : Worker) (taskId : String) (failure : Failure) (transient : Bool)
  | retry (w : Worker)
  | acknowledge (w : Worker)
  | databaseError (w : Worker)
  | poolLost (w : Worker)
  | crash (w : Worker)
  | tombstone (id : UUID) (now : Time) (byId : UUID)

namespace State
variable (T : Templates) (s : State)

/-- The message goes to the broker. -/
def publish (task : Task) : State :=
  { s with broker := s.broker.set s.nextTag task, nextTag := s.nextTag + 1 }

/-- `send_email` in a request. The task is published before the commit. -/
def send (tx : Tx) (mail : Mail) (id : UUID) (now : Time) : Except Failure State := do
  let (email, task) ← mail.prepare T id now
  let request := (s.requests tx).getD {}
  let flushed : Request := { request with emails := request.emails ++ [email] }
  return { s.publish task with
    requests := s.requests.set tx flushed, mails := s.mails.set id mail }

/-- The start of `send_email_task`: without a row that waits, the message is acknowledged. -/
def take (w : Worker) (tag : Nat) (task : Task) : State :=
  match s.emails.find? task.emailId with
  | none => { s with broker := s.broker.drop tag }
  | some email =>
    if !live email || email.status == .sent then { s with broker := s.broker.drop tag }
    else { s with runs := s.runs.set w { tag, task, email, phase := .loaded } }

/-- The mail of a run. -/
def rendered (run : Run) : Except Failure EmailMessage :=
  T.render run.email.templateName run.email.recipient
    (mergeFields run.email.context run.task.secretContext)

/-- The write of the columns of a run. -/
def store (run : Run) (new : OutboundEmail) : Table OutboundEmail :=
  s.emails.modify run.task.emailId (run.email.update new) (run.email.key_update new)

/-- The checkpoint after an exception: the attempt, and the notification on the transition. -/
def fail (w : Worker) (run : Run) (taskId : String) (failure : Failure)
    (transient : Bool) : State :=
  let terminal := !transient || decide (maxRetries ≤ run.task.retries)
  let new := run.email.raised taskId failure terminal
  let notice := if terminal && run.email.status != .failed
      then new.notifyRequester s.emails else none
  { s with
    emails := s.store run new
    notices := s.notices ++ notice.toList
    runs := s.runs.set w { run with phase := if terminal then .over else .retrying } }

end State

/-- A step of the system. -/
def step (T : Templates) (s : State) : Label → Option State
  | .send tx mail id now =>
    if (s.mails id).isSome then none else (s.send T tx mail id now).toOption
  | .lose tx mail =>
    let request := (s.requests tx).getD {}
    let flushed : Request := { request with notices := request.notices ++ mail.lost.toList }
    some { s with requests := s.requests.set tx flushed }
  | .rollback tx id => do
    let request ← s.requests tx
    let kept : Request := { request with emails := request.emails.filter fun e => e.id != id }
    return { s with requests := s.requests.set tx kept }
  | .commit tx => do
    let request ← s.requests tx
    let emails ← s.emails.insertAll request.emails
    return { s with
      emails, notices := s.notices ++ request.notices, requests := s.requests.drop tx }
  | .abort tx => some { s with requests := s.requests.drop tx }
  | .take w tag => do
    let task ← s.broker tag
    guard (s.runs w).isNone
    return s.take w tag task
  | .deliver w providerId => do
    let run ← s.runs w
    guard (run.phase == .loaded)
    let message ← (State.rendered T run).toOption
    return { s with
      delivered := s.delivered ++ [(run.task.emailId, message)]
      runs := s.runs.set w { run with phase := .accepted providerId } }
  | .storeSent w taskId now => do
    let run ← s.runs w
    match run.phase with
    | .accepted providerId =>
      some { s with
        emails := s.store run (run.email.succeeded taskId providerId now)
        runs := s.runs.set w { run with phase := .over } }
    | _ => none
  | .storeFailed w taskId failure transient => do
    let run ← s.runs w
    guard (run.phase == .loaded)
    return s.fail w run taskId failure transient
  | .retry w => do
    let run ← s.runs w
    guard (run.phase == .retrying)
    return { s.publish { run.task with retries := run.task.retries + 1 } with
      runs := s.runs.set w { run with phase := .over } }
  | .acknowledge w => do
    let run ← s.runs w
    guard (run.phase == .over)
    return { s with broker := s.broker.drop run.tag, runs := s.runs.drop w }
  | .databaseError w => do
    -- the task fails without a checkpoint, which acknowledges it too
    let run ← s.runs w
    guard (run.phase != .retrying && run.phase != .over)
    return { s with broker := s.broker.drop run.tag, runs := s.runs.drop w }
  | .poolLost w => do
    let run ← s.runs w
    return { s with broker := s.broker.drop run.tag, runs := s.runs.drop w }
  | .crash w => some { s with runs := s.runs.drop w }
  | .tombstone id now byId =>
    some { s with emails := softDeleteRow s.emails now byId id }

/-! ### What a step can do -/

/-- A task has no row that waits for it. -/
def State.Idle (s : State) (task : Task) : Prop :=
  ∀ email, s.emails.find? task.emailId = some email → live email = false ∨ email.status = .sent

/-- What a step can do, with what it finds. -/
inductive StepSpec (T : Templates) (s : State) : Label → State → Prop
  | sent (tx : Tx) (mail : Mail) (id : UUID) (now : Time) (email : OutboundEmail) (task : Task)
      (flushed : Request) (hnew : s.mails id = none)
      (hprepare : mail.prepare T id now = .ok (email, task))
      (hflushed : flushed.emails = ((s.requests tx).getD {}).emails ++ [email])
      (hnotices : flushed.notices = ((s.requests tx).getD {}).notices) :
      StepSpec T s (.send tx mail id now)
        { s.publish task with
          requests := s.requests.set tx flushed, mails := s.mails.set id mail }
  | lost (tx : Tx) (mail : Mail) (flushed : Request)
      (hflushed : flushed.emails = ((s.requests tx).getD {}).emails)
      (hnotices : flushed.notices = ((s.requests tx).getD {}).notices ++ mail.lost.toList) :
      StepSpec T s (.lose tx mail) { s with requests := s.requests.set tx flushed }
  | rolledBack (tx : Tx) (id : UUID) (request kept : Request)
      (hrequest : s.requests tx = some request)
      (hkept : kept.emails.Sublist request.emails) (hnotices : kept.notices = request.notices) :
      StepSpec T s (.rollback tx id) { s with requests := s.requests.set tx kept }
  | committed (tx : Tx) (request : Request) (emails : Table OutboundEmail)
      (hrequest : s.requests tx = some request)
      (hinsert : s.emails.insertAll request.emails = some emails) :
      StepSpec T s (.commit tx)
        { s with emails, notices := s.notices ++ request.notices, requests := s.requests.drop tx }
  | aborted (tx : Tx) : StepSpec T s (.abort tx) { s with requests := s.requests.drop tx }
  | skipped (w : Worker) (tag : Nat) (task : Task) (htask : s.broker tag = some task)
      (hidle : s.Idle task) : StepSpec T s (.take w tag) { s with broker := s.broker.drop tag }
  | taken (w : Worker) (tag : Nat) (task : Task) (email : OutboundEmail)
      (htask : s.broker tag = some task) (hemail : s.emails.find? task.emailId = some email)
      (hstatus : email.status ≠ .sent) :
      StepSpec T s (.take w tag)
        { s with runs := s.runs.set w { tag, task, email, phase := .loaded } }
  | delivered (w : Worker) (providerId : Option String) (run : Run) (message : EmailMessage)
      (hrun : s.runs w = some run) (hmessage : State.rendered T run = .ok message) :
      StepSpec T s (.deliver w providerId)
        { s with
          delivered := s.delivered ++ [(run.task.emailId, message)]
          runs := s.runs.set w { run with phase := .accepted providerId } }
  | storedSent (w : Worker) (taskId : String) (now : Time) (run : Run)
      (providerId : Option String)
      (hrun : s.runs w = some run) (hphase : run.phase = .accepted providerId) :
      StepSpec T s (.storeSent w taskId now)
        { s with
          emails := s.store run (run.email.succeeded taskId providerId now)
          runs := s.runs.set w { run with phase := .over } }
  | storedFailed (w : Worker) (taskId : String) (failure : Failure) (transient : Bool) (run : Run)
      (hrun : s.runs w = some run) :
      StepSpec T s (.storeFailed w taskId failure transient)
        (s.fail w run taskId failure transient)
  | retried (w : Worker) (run : Run) (hrun : s.runs w = some run)
      (hphase : run.phase = .retrying) :
      StepSpec T s (.retry w)
        { s.publish { run.task with retries := run.task.retries + 1 } with
          runs := s.runs.set w { run with phase := .over } }
  | acknowledged (w : Worker) (run : Run) (hrun : s.runs w = some run)
      (hphase : run.phase = .over) :
      StepSpec T s (.acknowledge w)
        { s with broker := s.broker.drop run.tag, runs := s.runs.drop w }
  | databaseError (w : Worker) (run : Run) (hrun : s.runs w = some run) :
      StepSpec T s (.databaseError w)
        { s with broker := s.broker.drop run.tag, runs := s.runs.drop w }
  | poolLost (w : Worker) (run : Run) (hrun : s.runs w = some run) :
      StepSpec T s (.poolLost w) { s with broker := s.broker.drop run.tag, runs := s.runs.drop w }
  | crashed (w : Worker) : StepSpec T s (.crash w) { s with runs := s.runs.drop w }
  | tombstoned (id : UUID) (now : Time) (byId : UUID) :
      StepSpec T s (.tombstone id now byId)
        { s with emails := softDeleteRow s.emails now byId id }

/-- A step does one of these. -/
theorem step_spec {T : Templates} {s s' : State} {l : Label} (h : step T s l = some s') :
    StepSpec T s l s' := by
  cases l with
  | send tx mail id now =>
    simp only [step] at h
    split at h
    · cases h
    · rename_i hnew
      obtain ⟨⟨email, task⟩, hprepare, h⟩ := bind_eq_ok.mp (toOption_eq_some.mp h)
      cases h
      have hnone : s.mails id = none := Option.not_isSome_iff_eq_none.mp hnew
      exact .sent tx mail id now email task _ hnone hprepare rfl rfl
  | lose tx mail =>
    cases h
    exact .lost tx mail _ rfl rfl
  | rollback tx id =>
    obtain ⟨request, hrequest, h⟩ := Option.bind_eq_some_iff.mp h
    cases h
    exact .rolledBack tx id request _ hrequest List.filter_sublist rfl
  | commit tx =>
    obtain ⟨request, hrequest, h⟩ := Option.bind_eq_some_iff.mp h
    obtain ⟨emails, hinsert, h⟩ := Option.bind_eq_some_iff.mp h
    cases h
    exact .committed tx request emails hrequest hinsert
  | abort tx =>
    cases h
    exact .aborted tx
  | take w tag =>
    obtain ⟨task, htask, h⟩ := Option.bind_eq_some_iff.mp h
    obtain ⟨-, -, h⟩ := Option.bind_eq_some_iff.mp h
    cases h
    unfold State.take
    split
    · rename_i hnone
      refine .skipped w tag task htask ?_
      intro email hemail
      rw [hnone] at hemail
      cases hemail
    · rename_i email hemail
      split
      · rename_i hskip
        refine .skipped w tag task htask ?_
        intro email' hemail'
        rw [hemail] at hemail'
        cases hemail'
        simpa using hskip
      · rename_i hwaits
        refine .taken w tag task email htask hemail ?_
        rintro hsent
        rw [hsent] at hwaits
        simp at hwaits
  | deliver w providerId =>
    obtain ⟨run, hrun, h⟩ := Option.bind_eq_some_iff.mp h
    obtain ⟨-, -, h⟩ := Option.bind_eq_some_iff.mp h
    obtain ⟨message, hmessage, h⟩ := Option.bind_eq_some_iff.mp h
    cases h
    exact .delivered w providerId run message hrun (toOption_eq_some.mp hmessage)
  | storeSent w taskId now =>
    obtain ⟨run, hrun, h⟩ := Option.bind_eq_some_iff.mp h
    split at h
    · rename_i providerId hphase
      cases h
      exact .storedSent w taskId now run providerId hrun hphase
    · cases h
  | storeFailed w taskId failure transient =>
    obtain ⟨run, hrun, h⟩ := Option.bind_eq_some_iff.mp h
    obtain ⟨-, -, h⟩ := Option.bind_eq_some_iff.mp h
    cases h
    exact .storedFailed w taskId failure transient run hrun
  | retry w =>
    obtain ⟨run, hrun, h⟩ := Option.bind_eq_some_iff.mp h
    obtain ⟨⟨⟩, hphase, h⟩ := Option.bind_eq_some_iff.mp h
    cases h
    exact .retried w run hrun (by simpa using hphase)
  | acknowledge w =>
    obtain ⟨run, hrun, h⟩ := Option.bind_eq_some_iff.mp h
    obtain ⟨⟨⟩, hphase, h⟩ := Option.bind_eq_some_iff.mp h
    cases h
    exact .acknowledged w run hrun (by simpa using hphase)
  | databaseError w =>
    obtain ⟨run, hrun, h⟩ := Option.bind_eq_some_iff.mp h
    obtain ⟨-, -, h⟩ := Option.bind_eq_some_iff.mp h
    cases h
    exact .databaseError w run hrun
  | poolLost w =>
    obtain ⟨run, hrun, h⟩ := Option.bind_eq_some_iff.mp h
    cases h
    exact .poolLost w run hrun
  | crash w =>
    cases h
    exact .crashed w
  | tombstone id now byId =>
    cases h
    exact .tombstoned id now byId

end RedTeaming.Email
