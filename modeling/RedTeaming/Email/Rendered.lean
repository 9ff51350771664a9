import RedTeaming.Email.Outbox

/-!
# `RedTeaming.Email.Rendered`: what is delivered is what the caller rendered

`send_email` renders a mail to see that it can be rendered, and then splits the validated context:
the secrets go with the task, the rest is stored. The worker puts the two together again and
renders a second time. `rendered_eq` says that the two messages are the same.

`Prepared` is the invariant that ties the rows, the tasks and the runs to the calls they come
from, and `Shipped` the one that ties the deliveries to committed rows. `delivered_as_rendered` is
the result for runs: whatever overlaps, is rolled back, is delivered twice or crashes.
-/

set_option autoImplicit false

namespace RedTeaming.Email

open RedTeaming.Library

/-- The row is that of the call. -/
structure RowOf (T : Templates) (mail : Mail) (e : OutboundEmail) : Prop where
  templateName : e.templateName = mail.templateName
  recipient : e.recipient = mail.recipient
  context : ∃ validated, mail.validated T = .ok validated ∧
    e.context = keepFields (fun k => !mail.isSecret k) validated
  requestedByUserId : e.requestedByUserId = mail.requestedByUserId
  batchKey : e.batchKey = mail.batchKey

/-- The task is that of the call, or a retry of it. -/
structure TaskOf (T : Templates) (mail : Mail) (task : Task) : Prop where
  secrets : ∃ validated, mail.validated T = .ok validated ∧
    task.secretContext = keepFields mail.isSecret validated
  retries : task.retries ≤ maxRetries

/-- Rows, tasks and runs come from calls. A flushed row is new, and its request is the only one
that has it. -/
structure Prepared (T : Templates) (s : State) : Prop where
  rows : ∀ e ∈ s.emails, ∃ mail, s.mails (key e) = some mail ∧ RowOf T mail e
  flushed : ∀ tx request, s.requests tx = some request → ∀ e ∈ request.emails,
    e.status = .queued ∧ (∃ mail, s.mails (key e) = some mail ∧ RowOf T mail e) ∧
      ∀ e' ∈ s.emails, key e' ≠ key e
  once : ∀ tx tx' request request', s.requests tx = some request →
    s.requests tx' = some request' →
    ∀ e ∈ request.emails, ∀ e' ∈ request'.emails, key e = key e' → tx = tx'
  tasks : ∀ tag task, s.broker tag = some task →
    ∃ mail, s.mails task.emailId = some mail ∧ TaskOf T mail task
  runs : ∀ w run, s.runs w = some run → ∃ mail, s.mails run.task.emailId = some mail ∧
    TaskOf T mail run.task ∧ RowOf T mail run.email ∧ key run.email = run.task.emailId ∧
      (run.phase = .retrying → run.task.retries < maxRetries)

/-- Deliveries belong to committed rows, and a sent row has one. -/
structure Shipped (T : Templates) (s : State) : Prop where
  delivered : ∀ id message, (id, message) ∈ s.delivered →
    (∃ mail, s.mails id = some mail ∧ mail.message T = .ok message) ∧ ∃ e ∈ s.emails, key e = id
  rows : ∀ e ∈ s.emails, e.status = .sent → ∃ message, (key e, message) ∈ s.delivered
  runs : ∀ w run, s.runs w = some run → run.email.status ≠ .sent ∧
    (∃ e ∈ s.emails, key e = run.task.emailId) ∧
      ∀ providerId, run.phase = .accepted providerId →
        ∃ message, (run.task.emailId, message) ∈ s.delivered

section
variable {T : Templates} {s s' : State} {l : Label} {mail : Mail}
  {e : OutboundEmail} {task : Task} {id : UUID} {now : Time}

/-! ### One call -/

/-- What `send_email` makes is the row and the task of the call. -/
theorem prepare_spec (h : mail.prepare T id now = .ok (e, task)) :
    key e = id ∧ task.emailId = id ∧ e.status = .queued ∧ RowOf T mail e ∧ TaskOf T mail task ∧
      task.retries = 0 := by
  obtain ⟨validated, hvalidated, h⟩ := bind_eq_ok.mp h
  obtain ⟨message, -, h⟩ := bind_eq_ok.mp h
  cases h
  exact ⟨rfl, rfl, rfl, ⟨rfl, rfl, ⟨validated, hvalidated, rfl⟩, rfl, rfl⟩,
    ⟨⟨validated, hvalidated, rfl⟩, Nat.zero_le _⟩, rfl⟩

/-- The worker puts the validated context together again. -/
theorem rendered_eq (hT : T.Documented) {run : Run} (hrow : RowOf T mail run.email)
    (htask : TaskOf T mail run.task) : State.rendered T run = mail.message T := by
  obtain ⟨validated, hvalidated, hcontext⟩ := hrow.context
  obtain ⟨validated', hvalidated', hsecrets⟩ := htask.secrets
  have hsame : validated' = validated := by
    rw [hvalidated] at hvalidated'
    exact (Except.ok.inj hvalidated').symm
  have hdistinct : ((keepFields mail.isSecret validated).map Prod.fst).Nodup :=
    (List.filter_sublist.map Prod.fst).nodup (hT.fields hvalidated)
  have hlookup : ∀ k, (mergeFields (keepFields (fun k => !mail.isSecret k) validated)
      (keepFields mail.isSecret validated)).lookup k = validated.lookup k := by
    intro k
    rw [lookup_mergeFields hdistinct, lookup_keepFields, lookup_keepFields]
    cases mail.isSecret k with
    | true => simp
    | false => simp
  rw [State.rendered, hrow.templateName, hrow.recipient, hcontext, hsecrets, hsame,
    hT.byName mail.templateName mail.recipient hlookup, Mail.message, hvalidated]
  rfl

/-- An update of a run leaves the columns of the call. -/
theorem RowOf.update (h : RowOf T mail e) (loaded new : OutboundEmail) :
    RowOf T mail (loaded.update new e) :=
  ⟨h.templateName, h.recipient, h.context, h.requestedByUserId, h.batchKey⟩

/-- A tombstone leaves the columns of the call. -/
theorem RowOf.softDelete (h : RowOf T mail e) (byId : UUID) :
    RowOf T mail (RedTeaming.softDelete now byId e) :=
  ⟨h.templateName, h.recipient, h.context, h.requestedByUserId, h.batchKey⟩

/-! ### Rows after a step -/

/-- The rows after the update of a run. -/
theorem mem_store {run : Run} {new e' : OutboundEmail} : e' ∈ s.store run new ↔
    (∃ e ∈ s.emails, key e = run.task.emailId ∧ run.email.update new e = e') ∨
      e' ∈ s.emails ∧ key e' ≠ run.task.emailId := Table.mem_modify

/-- The rows after the tombstone of one. -/
theorem mem_tombstone {byId : UUID} {e' : OutboundEmail} :
    e' ∈ softDeleteRow s.emails now byId id ↔
    (∃ e ∈ s.emails, key e = id ∧ RedTeaming.softDelete now byId e = e') ∨
      e' ∈ s.emails ∧ key e' ≠ id := Table.mem_modify

/-- A row stays, with its key, through an update of a run. -/
theorem exists_store {run : Run} {new : OutboundEmail} (h : ∃ e ∈ s.emails, key e = id) :
    ∃ e ∈ s.store run new, key e = id := by
  obtain ⟨e, he, rfl⟩ := h
  by_cases hkey : key e = run.task.emailId
  · exact ⟨_, mem_store.mpr (Or.inl ⟨e, he, hkey, rfl⟩), rfl⟩
  · exact ⟨e, mem_store.mpr (Or.inr ⟨he, hkey⟩), rfl⟩

/-- The rows after a step: a row of before with the same call, or a row of the request that
commits. -/
theorem emails_step (h : step T s l = some s') : ∀ e' ∈ s'.emails,
    (∃ e ∈ s.emails, key e' = key e ∧ ∀ mail, RowOf T mail e → RowOf T mail e') ∨
      ∃ tx request, l = .commit tx ∧ s.requests tx = some request ∧ e' ∈ request.emails := by
  intro e' he'
  cases step_spec h with
  | committed tx request emails hrequest hinsert =>
    rcases (Table.mem_insertAll hinsert).mp he' with hold | hnew
    · exact Or.inl ⟨e', hold, rfl, fun _ hrow => hrow⟩
    · exact Or.inr ⟨tx, request, rfl, hrequest, hnew⟩
  | storedSent w taskId now run providerId hrun hphase =>
    rcases mem_store.mp he' with ⟨e, he, -, rfl⟩ | ⟨hold, -⟩
    · exact Or.inl ⟨e, he, rfl, fun _ hrow => hrow.update _ _⟩
    · exact Or.inl ⟨e', hold, rfl, fun _ hrow => hrow⟩
  | storedFailed w taskId failure transient run hrun =>
    rcases mem_store.mp he' with ⟨e, he, -, rfl⟩ | ⟨hold, -⟩
    · exact Or.inl ⟨e, he, rfl, fun _ hrow => hrow.update _ _⟩
    · exact Or.inl ⟨e', hold, rfl, fun _ hrow => hrow⟩
  | tombstoned id now byId =>
    rcases mem_tombstone.mp he' with ⟨e, he, -, rfl⟩ | ⟨hold, -⟩
    · exact Or.inl ⟨e, he, key_softDelete now byId e, fun _ hrow => hrow.softDelete byId⟩
    · exact Or.inl ⟨e', hold, rfl, fun _ hrow => hrow⟩
  | _ => exact Or.inl ⟨e', he', rfl, fun _ hrow => hrow⟩

/-- A committed row stays. -/
theorem exists_emails_step (h : step T s l = some s') (he : ∃ e ∈ s.emails, key e = id) :
    ∃ e ∈ s'.emails, key e = id := by
  cases step_spec h with
  | committed tx request emails hrequest hinsert =>
    obtain ⟨e, he, hkey⟩ := he
    exact ⟨e, (Table.mem_insertAll hinsert).mpr (Or.inl he), hkey⟩
  | storedSent w taskId now run providerId hrun hphase => exact exists_store he
  | storedFailed w taskId failure transient run hrun => exact exists_store he
  | tombstoned id' now byId =>
    obtain ⟨e, he, rfl⟩ := he
    exact exists_softDeleteRow he
  | _ => exact he

/-- A call stays on record. -/
theorem mails_step (h : step T s l = some s') (hmail : s.mails id = some mail) :
    s'.mails id = some mail := by
  cases step_spec h with
  | sent tx mail' id' now email task flushed hnew hprepare hflushed hnotices =>
    have hne : id ≠ id' := by
      rintro rfl
      rw [hnew] at hmail
      cases hmail
    show s.mails.set id' mail' id = some mail
    rw [Records.set_of_ne hne]
    exact hmail
  | _ => exact hmail

/-- The flushed rows after a step: a row that the request had before, or the row of a call. -/
theorem requests_step (h : step T s l = some s') {tx : Tx} {request' : Request}
    (hrequest : s'.requests tx = some request') (he : e ∈ request'.emails) :
    (l ≠ .commit tx ∧ ∃ request, s.requests tx = some request ∧ e ∈ request.emails) ∨
      ∃ mail id now task, l = .send tx mail id now ∧ s.mails id = none ∧
        mail.prepare T id now = .ok (e, task) := by
  have hold {flushed : List OutboundEmail} (hflushed : flushed = ((s.requests tx).getD {}).emails)
      (hmem : e ∈ flushed) : ∃ request, s.requests tx = some request ∧ e ∈ request.emails := by
    rw [hflushed] at hmem
    cases hopen : s.requests tx with
    | none =>
      rw [hopen] at hmem
      cases hmem
    | some request =>
      rw [hopen] at hmem
      exact ⟨request, rfl, hmem⟩
  cases step_spec h with
  | sent tx' mail id now email task flushed hnew hprepare hflushed hnotices =>
    rcases Records.of_set hrequest with ⟨rfl, rfl⟩ | ⟨-, hrequest⟩
    · rw [hflushed] at he
      rcases List.mem_append.mp he with he | he
      · exact Or.inl ⟨Label.noConfusion, hold rfl he⟩
      · rw [List.mem_singleton.mp he]
        exact Or.inr ⟨mail, id, now, task, rfl, hnew, hprepare⟩
    · exact Or.inl ⟨Label.noConfusion, request', hrequest, he⟩
  | lost tx' mail flushed hflushed hnotices =>
    rcases Records.of_set hrequest with ⟨rfl, rfl⟩ | ⟨-, hrequest⟩
    · exact Or.inl ⟨Label.noConfusion, hold hflushed he⟩
    · exact Or.inl ⟨Label.noConfusion, request', hrequest, he⟩
  | rolledBack tx' id request kept hopen hkept hnotices =>
    rcases Records.of_set hrequest with ⟨rfl, rfl⟩ | ⟨-, hrequest⟩
    · exact Or.inl ⟨Label.noConfusion, request, hopen, hkept.subset he⟩
    · exact Or.inl ⟨Label.noConfusion, request', hrequest, he⟩
  | committed tx' request emails hopen hinsert =>
    obtain ⟨hne, hrequest⟩ := Records.of_drop hrequest
    refine Or.inl ⟨?_, request', hrequest, he⟩
    intro hcommit
    cases hcommit
    exact hne rfl
  | aborted tx' => exact Or.inl ⟨Label.noConfusion, request', (Records.of_drop hrequest).2, he⟩
  | _ => exact Or.inl ⟨Label.noConfusion, request', hrequest, he⟩

/-- The tasks after a step: a task of before, or, with the next tag, the task of a call or of a
retry. -/
theorem broker_step (h : step T s l = some s') {tag : Nat} (htask : s'.broker tag = some task) :
    s.broker tag = some task ∨ tag = s.nextTag ∧
      ((∃ tx mail id now email, l = .send tx mail id now ∧
        mail.prepare T id now = .ok (email, task)) ∨
        ∃ w run, s.runs w = some run ∧ run.phase = .retrying ∧
          task = { run.task with retries := run.task.retries + 1 }) := by
  cases step_spec h with
  | sent tx mail id now email task' flushed hnew hprepare hflushed hnotices =>
    rcases Records.of_set htask with ⟨rfl, rfl⟩ | ⟨-, htask⟩
    · exact Or.inr ⟨rfl, Or.inl ⟨tx, mail, id, now, email, rfl, hprepare⟩⟩
    · exact Or.inl htask
  | retried w run hrun hphase =>
    rcases Records.of_set htask with ⟨rfl, rfl⟩ | ⟨-, htask⟩
    · exact Or.inr ⟨rfl, Or.inr ⟨w, run, hrun, hphase, rfl⟩⟩
    · exact Or.inl htask
  | skipped w tag' task' htask' hidle => exact Or.inl (Records.of_drop htask).2
  | acknowledged w run hrun hphase => exact Or.inl (Records.of_drop htask).2
  | databaseError w run hrun => exact Or.inl (Records.of_drop htask).2
  | poolLost w run hrun => exact Or.inl (Records.of_drop htask).2
  | _ => exact Or.inl htask

/-- A call of a step is on record after it. -/
theorem mails_send {tx : Tx} {mail : Mail} (h : step T s (.send tx mail id now) = some s') :
    s'.mails id = some mail := by
  cases step_spec h with
  | sent _ _ _ _ email task flushed hnew hprepare hflushed hnotices => exact Records.set_self

/-- The runs after a step: a run of before, a run that has just loaded its row, or a run that goes
on. -/
theorem runs_step (h : step T s l = some s') {w : Worker} {run' : Run}
    (hrun : s'.runs w = some run') :
    s.runs w = some run' ∨
    (∃ tag, s.broker tag = some run'.task ∧ run'.tag = tag ∧ run'.phase = .loaded ∧
      s.emails.find? run'.task.emailId = some run'.email ∧ run'.email.status ≠ .sent) ∨
    ∃ run, s.runs w = some run ∧ run'.tag = run.tag ∧ run'.task = run.task ∧
      run'.email = run.email ∧ (run'.phase = .retrying → run.task.retries < maxRetries) ∧
      ∀ providerId, run'.phase = .accepted providerId →
        ∃ message, State.rendered T run = .ok message ∧
          s'.delivered = s.delivered ++ [(run.task.emailId, message)] := by
  cases step_spec h with
  | taken w' tag task email htask hemail hstatus =>
    rcases Records.of_set hrun with ⟨rfl, rfl⟩ | ⟨-, hrun⟩
    · exact Or.inr (Or.inl ⟨tag, htask, rfl, rfl, hemail, hstatus⟩)
    · exact Or.inl hrun
  | delivered w' providerId run message hold hmessage =>
    rcases Records.of_set hrun with ⟨rfl, rfl⟩ | ⟨-, hrun⟩
    · exact Or.inr (Or.inr ⟨run, hold, rfl, rfl, rfl, Phase.noConfusion,
        fun _ _ => ⟨message, hmessage, rfl⟩⟩)
    · exact Or.inl hrun
  | storedSent w' taskId now run providerId hold hphase =>
    rcases Records.of_set hrun with ⟨rfl, rfl⟩ | ⟨-, hrun⟩
    · exact Or.inr
        (Or.inr ⟨run, hold, rfl, rfl, rfl, Phase.noConfusion, fun _ => Phase.noConfusion⟩)
    · exact Or.inl hrun
  | storedFailed w' taskId failure transient run hold =>
    rcases Records.of_set hrun with ⟨rfl, rfl⟩ | ⟨-, hrun⟩
    · refine Or.inr (Or.inr ⟨run, hold, rfl, rfl, rfl, ?_, ?_⟩)
      · dsimp only
        split
        · exact Phase.noConfusion
        · rename_i hterminal
          intro _
          simp at hterminal
          exact hterminal.2
      · dsimp only
        intro providerId
        split
        · exact Phase.noConfusion
        · exact Phase.noConfusion
    · exact Or.inl hrun
  | retried w' run hold hphase =>
    rcases Records.of_set hrun with ⟨rfl, rfl⟩ | ⟨-, hrun⟩
    · exact Or.inr
        (Or.inr ⟨run, hold, rfl, rfl, rfl, Phase.noConfusion, fun _ => Phase.noConfusion⟩)
    · exact Or.inl hrun
  | acknowledged w' run hold hphase => exact Or.inl (Records.of_drop hrun).2
  | databaseError w' run hold => exact Or.inl (Records.of_drop hrun).2
  | poolLost w' run hold => exact Or.inl (Records.of_drop hrun).2
  | crashed w' => exact Or.inl (Records.of_drop hrun).2
  | _ => exact Or.inl hrun

/-! ### The calls behind the state -/

/-- A step keeps the calls behind rows, tasks and runs. -/
theorem prepared_step (hp : Prepared T s) (hstep : step T s l = some s') : Prepared T s' := by
  have hcalls {P : Mail → Prop} {id : UUID} (h : ∃ mail, s.mails id = some mail ∧ P mail) :
      ∃ mail, s'.mails id = some mail ∧ P mail := by
    obtain ⟨mail, hmail, hP⟩ := h
    exact ⟨mail, mails_step hstep hmail, hP⟩
  -- the id of a new call is the id of no row of before
  have hfresh {mail : Mail} {id : UUID} {now : Time} {task : Task} {e e₀ : OutboundEmail}
      (hnew : s.mails id = none) (hprepare : mail.prepare T id now = .ok (e, task))
      (he₀ : ∃ mail, s.mails (key e₀) = some mail ∧ RowOf T mail e₀) : key e₀ ≠ key e := by
    obtain ⟨mail₀, hmail₀, -⟩ := he₀
    intro hsame
    rw [hsame, (prepare_spec hprepare).1, hnew] at hmail₀
    cases hmail₀
  refine { rows := ?_, flushed := ?_, once := ?_, tasks := ?_, runs := ?_ }
  · intro e' he'
    rcases emails_step hstep e' he' with ⟨e, he, hkey, hsame⟩ | ⟨tx, request, -, hrequest, hmem⟩
    · obtain ⟨mail, hmail, hrow⟩ := hcalls (hp.rows e he)
      exact ⟨mail, hkey ▸ hmail, hsame mail hrow⟩
    · exact hcalls (hp.flushed tx request hrequest e' hmem).2.1
  · intro tx request' hrequest' e he
    rcases requests_step hstep hrequest' he with
      ⟨hl, request, hrequest, hmem⟩ | ⟨mail, id, now, task, rfl, hnew, hprepare⟩
    · obtain ⟨hqueued, hmail, hold⟩ := hp.flushed tx request hrequest e hmem
      refine ⟨hqueued, hcalls hmail, ?_⟩
      intro e' he'
      rcases emails_step hstep e' he' with ⟨e₀, he₀, hkey, -⟩ |
        ⟨tx', request₂, rfl, hrequest₂, hmem₂⟩
      · rw [hkey]
        exact hold e₀ he₀
      · -- a row of another request has another id
        intro hsame
        apply hl
        rw [hp.once tx' tx request₂ request hrequest₂ hrequest e' hmem₂ e hmem hsame]
    · obtain ⟨hkey, -, hqueued, hrow, -⟩ := prepare_spec hprepare
      refine ⟨hqueued, ⟨mail, hkey ▸ mails_send hstep, hrow⟩, ?_⟩
      intro e' he'
      rcases emails_step hstep e' he' with ⟨e₀, he₀, hkey', -⟩ | ⟨tx', _, hcommit, -⟩
      · rw [hkey']
        exact hfresh hnew hprepare (hp.rows e₀ he₀)
      · cases hcommit
  · intro tx₁ tx₂ request₁ request₂ h₁ h₂ e₁ he₁ e₂ he₂ hsame
    rcases requests_step hstep h₁ he₁ with
      ⟨-, r₁, hr₁, hm₁⟩ | ⟨mail₁, id₁, now₁, task₁, hl₁, hnew₁, hprepare₁⟩
    · rcases requests_step hstep h₂ he₂ with
        ⟨-, r₂, hr₂, hm₂⟩ | ⟨mail₂, id₂, now₂, task₂, hl₂, hnew₂, hprepare₂⟩
      · exact hp.once tx₁ tx₂ r₁ r₂ hr₁ hr₂ e₁ hm₁ e₂ hm₂ hsame
      · exact absurd hsame (hfresh hnew₂ hprepare₂ (hp.flushed tx₁ r₁ hr₁ e₁ hm₁).2.1)
    · rcases requests_step hstep h₂ he₂ with
        ⟨-, r₂, hr₂, hm₂⟩ | ⟨mail₂, id₂, now₂, task₂, hl₂, hnew₂, hprepare₂⟩
      · exact absurd hsame.symm (hfresh hnew₁ hprepare₁ (hp.flushed tx₂ r₂ hr₂ e₂ hm₂).2.1)
      · rw [hl₁] at hl₂
        cases hl₂
        rfl
  · intro tag task htask
    rcases broker_step hstep htask with
      hold | ⟨-, ⟨tx, mail, id, now, email, rfl, hprepare⟩ | ⟨w, run, hrun, hphase, rfl⟩⟩
    · exact hcalls (hp.tasks tag task hold)
    · obtain ⟨-, hid, -, -, htaskOf, -⟩ := prepare_spec hprepare
      exact ⟨mail, hid ▸ mails_send hstep, htaskOf⟩
    · obtain ⟨mail, hmail, htaskOf, -, -, hretries⟩ := hcalls (hp.runs w run hrun)
      exact ⟨mail, hmail, htaskOf.secrets, hretries hphase⟩
  · intro w run' hrun'
    rcases runs_step hstep hrun' with
      hold | ⟨tag, htask, -, hphase, hemail, -⟩ | ⟨run, hrun, -, htask, hemail, hretries, -⟩
    · exact hcalls (hp.runs w run' hold)
    · obtain ⟨mail, hmail, htaskOf⟩ := hp.tasks tag run'.task htask
      obtain ⟨hmem, hkey⟩ := Table.find?_eq_some.mp hemail
      obtain ⟨mail', hmail', hrow⟩ := hp.rows run'.email hmem
      rw [hkey, hmail] at hmail'
      cases hmail'
      refine ⟨mail, mails_step hstep hmail, htaskOf, hrow, hkey, ?_⟩
      rw [hphase]
      exact Phase.noConfusion
    · obtain ⟨mail, hmail, htaskOf, hrow, hkey, -⟩ := hcalls (hp.runs w run hrun)
      rw [htask, hemail]
      exact ⟨mail, hmail, htaskOf, hrow, hkey, hretries⟩

/-! ### Deliveries -/

/-- A row that an update makes a sent one was sent, or the run has just sent it. -/
theorem sent_of_update {loaded new current : OutboundEmail}
    (h : (loaded.update new current).status = .sent) :
    current.status = .sent ∨ new.status = .sent := by
  change OutboundEmail.column loaded.status new.status current.status = .sent at h
  unfold OutboundEmail.column at h
  split at h
  · exact Or.inl h
  · exact Or.inr h

/-- A step keeps the deliveries behind the rows. -/
theorem shipped_step (hT : T.Documented) (hp : Prepared T s) (h : Shipped T s)
    (hstep : step T s l = some s') : Shipped T s' := by
  have hmore : ∀ entry ∈ s.delivered, entry ∈ s'.delivered := by
    intro entry hentry
    cases step_spec hstep with
    | delivered w providerId run message hrun hmessage => exact List.mem_append_left _ hentry
    | _ => exact hentry
  refine { delivered := ?_, rows := ?_, runs := ?_ }
  · intro id message hmem
    have hold (hmem : (id, message) ∈ s.delivered) : (∃ mail, s'.mails id = some mail ∧
        mail.message T = .ok message) ∧ ∃ e ∈ s'.emails, key e = id := by
      obtain ⟨⟨mail, hmail, hmessage⟩, he⟩ := h.delivered id message hmem
      exact ⟨⟨mail, mails_step hstep hmail, hmessage⟩, exists_emails_step hstep he⟩
    cases step_spec hstep with
    | delivered w providerId run message' hrun hmessage =>
      rcases List.mem_append.mp hmem with hmem | hmem
      · exact hold hmem
      · cases List.mem_singleton.mp hmem
        obtain ⟨mail, hmail, htask, hrow, -⟩ := hp.runs w run hrun
        rw [rendered_eq hT hrow htask] at hmessage
        exact ⟨⟨mail, hmail, hmessage⟩, (h.runs w run hrun).2.1⟩
    | _ => exact hold hmem
  · intro e' he' hsent
    have hold {e : OutboundEmail} (he : e ∈ s.emails) (hkey : key e' = key e)
        (hsent : e.status = .sent) : ∃ message, (key e', message) ∈ s'.delivered := by
      obtain ⟨message, hmem⟩ := h.rows e he hsent
      exact ⟨message, hkey ▸ hmore _ hmem⟩
    cases step_spec hstep with
    | committed tx request emails hrequest hinsert =>
      rcases (Table.mem_insertAll hinsert).mp he' with he | hnew
      · exact hold he rfl hsent
      · rw [(hp.flushed tx request hrequest e' hnew).1] at hsent
        cases hsent
    | storedSent w taskId now run providerId hrun hphase =>
      rcases mem_store.mp he' with ⟨e, he, hkey, rfl⟩ | ⟨he, -⟩
      · obtain ⟨message, hmem⟩ := (h.runs w run hrun).2.2 providerId hphase
        exact ⟨message, hkey.symm ▸ hmem⟩
      · exact hold he rfl hsent
    | storedFailed w taskId failure transient run hrun =>
      rcases mem_store.mp he' with ⟨e, he, hkey, rfl⟩ | ⟨he, -⟩
      · rcases sent_of_update hsent with hsent | hsent
        · exact hold he rfl hsent
        · -- an exception makes no sent row of a row that was not sent
          exfalso
          change (if _ then Status.failed else run.email.status) = .sent at hsent
          split at hsent
          · cases hsent
          · exact (h.runs w run hrun).1 hsent
      · exact hold he rfl hsent
    | tombstoned id now byId =>
      rcases mem_tombstone.mp he' with ⟨e, he, -, rfl⟩ | ⟨he, -⟩
      · exact hold he (key_softDelete now byId e) hsent
      · exact hold he rfl hsent
    | _ => exact hold he' rfl hsent
  · intro w run' hrun'
    rcases runs_step hstep hrun' with
      hold | ⟨tag, htask, -, hphase, hemail, hstatus⟩ |
        ⟨run, hrun, -, htask, hemail, -, haccepted⟩
    · obtain ⟨hstatus, he, haccepted⟩ := h.runs w run' hold
      refine ⟨hstatus, exists_emails_step hstep he, ?_⟩
      intro providerId hphase
      obtain ⟨message, hmem⟩ := haccepted providerId hphase
      exact ⟨message, hmore _ hmem⟩
    · obtain ⟨hmem, hkey⟩ := Table.find?_eq_some.mp hemail
      refine ⟨hstatus, exists_emails_step hstep ⟨run'.email, hmem, hkey⟩, ?_⟩
      rw [hphase]
      exact fun _ => Phase.noConfusion
    · obtain ⟨hstatus, he, -⟩ := h.runs w run hrun
      rw [hemail, htask]
      refine ⟨hstatus, exists_emails_step hstep he, ?_⟩
      intro providerId hphase
      obtain ⟨message, -, hdelivered⟩ := haccepted providerId hphase
      rw [hdelivered]
      exact ⟨message, List.mem_append_right _ List.mem_cons_self⟩

end

/-! ### Runs -/

/-- The outbox of a new deployment. -/
def State.empty : State where
  emails := .empty
  notices := []
  requests _ := none
  broker _ := none
  nextTag := 0
  runs _ := none
  delivered := []
  mails _ := none

theorem prepared_empty (T : Templates) : Prepared T .empty where
  rows _ h := absurd h Table.not_mem_empty
  flushed _ _ h := by cases h
  once _ _ _ _ h := by cases h
  tasks _ _ h := by cases h
  runs _ _ h := by cases h

theorem shipped_empty (T : Templates) : Shipped T .empty where
  delivered _ _ h := absurd h List.not_mem_nil
  rows _ h := absurd h Table.not_mem_empty
  runs _ _ h := by cases h

theorem prepared_of_run {T : Templates} {s : State} {ls : List Label}
    (hrun : run (step T) .empty ls = some s) : Prepared T s :=
  run_invariant (fun _ _ _ h hstep => prepared_step h hstep) (prepared_empty T) hrun

/-- Whatever overlaps, is rolled back, is delivered again or crashes: the backend only gets mails
of committed rows, each as `send_email` rendered it from the whole context. A row counts as sent
only when the backend has taken its mail. No stored context has a secret, and no task is retried
more than `max_retries` times. -/
theorem delivered_as_rendered (T : Templates) (hT : T.Documented) (ls : List Label) (s : State)
    (hrun : run (step T) .empty ls = some s) :
    (∀ id message, (id, message) ∈ s.delivered →
      (∃ mail, s.mails id = some mail ∧ mail.message T = .ok message) ∧
      ∃ e ∈ s.emails, key e = id) ∧
    (∀ e ∈ s.emails, e.status = .sent → ∃ message, (key e, message) ∈ s.delivered) ∧
    (∀ e ∈ s.emails, ∃ mail, s.mails (key e) = some mail ∧
      ∀ k, mail.isSecret k = true → e.context.lookup k = none) ∧
    ∀ tag task, s.broker tag = some task → task.retries ≤ maxRetries := by
  have hboth : Prepared T s ∧ Shipped T s :=
    run_invariant (I := fun s => Prepared T s ∧ Shipped T s)
      (fun _ _ _ h hstep => ⟨prepared_step h.1 hstep, shipped_step hT h.1 h.2 hstep⟩)
      ⟨prepared_empty T, shipped_empty T⟩ hrun
  obtain ⟨hp, hs⟩ := hboth
  refine ⟨hs.delivered, hs.rows, ?_, ?_⟩
  · intro e he
    obtain ⟨mail, hmail, hrow⟩ := hp.rows e he
    obtain ⟨validated, -, hcontext⟩ := hrow.context
    refine ⟨mail, hmail, ?_⟩
    intro k hk
    rw [hcontext, lookup_keepFields, hk]
    rfl
  · intro tag task htask
    obtain ⟨mail, -, htaskOf⟩ := hp.tasks tag task htask
    exact htaskOf.retries

/-! ### A deployment -/

/-- Templates that put a link into the text. -/
def linkTemplates : Templates where
  validate _ context :=
    if (context.map Prod.fst).Nodup then .ok context else .error ⟨"ValidationError", "fields"⟩
  render name recipient context :=
    let url := match context.lookup "accept_url" with
      | some (.str url) => url
      | _ => ""
    .ok
      { recipient, subject := name, bodyText := url, bodyHtml := url,
        fromAddr := "noreply@example.org" }

theorem linkTemplates_documented : linkTemplates.Documented where
  fields h := by
    simp only [linkTemplates] at h
    split at h
    · rename_i hdistinct
      cases h
      exact hdistinct
    · cases h
  byName name recipient context context' h := by
    simp only [linkTemplates, h]

/-- An invitation with its link as a secret. -/
def invitation : Mail where
  templateName := "platform_invitation"
  recipient := "ada@example.org"
  context := [("inviter", .str "Grace")]
  secretContext := [("accept_url", .str "https://example.org/accept")]
  requestedByUserId := some 1

/-- The invitation is sent in one request, and a worker delivers it. -/
def sendAndDeliver : List Label :=
  [.send 0 invitation 10 1, .commit 0, .take 0 0, .deliver 0 none, .storeSent 0 "task" 2,
    .acknowledge 0]

/-- The sent row has a delivery. -/
theorem delivered_as_rendered_invitation :
    ∃ s, run (step linkTemplates) .empty sendAndDeliver = some s ∧
    ∃ e ∈ s.emails, e.status = .sent ∧ ∃ message, (key e, message) ∈ s.delivered := by
  have hany : (run (step linkTemplates) .empty sendAndDeliver).any
      (fun s => s.emails.rows.any fun e => e.status == .sent) = true := by decide +kernel
  obtain ⟨s, hrun, hsent⟩ := exists_run_of_any hany
  obtain ⟨e, he, hstatus⟩ := List.any_eq_true.mp hsent
  obtain ⟨-, hrows, -, -⟩ :=
    delivered_as_rendered linkTemplates linkTemplates_documented sendAndDeliver s hrun
  have hstatus' : e.status = .sent := beq_iff_eq.mp hstatus
  exact ⟨s, hrun, e, he, hstatus', hrows e he hstatus'⟩

end RedTeaming.Email
