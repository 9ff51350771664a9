import RedTeaming.Email.Waiting

/-!
# `RedTeaming.Email.Reported`: a failed mail is reported to who asked for it

The checkpoint after an exception writes the failed status and the notification in one
transaction. It writes none when the run has loaded a failed row, and none when another mail of
the batch has failed. So a failure can be silent. `failures_are_reported` says that a notification
for it is there nonetheless, its own or one of its batch, as long as the mails of a batch have one
requester. And it says that there is no false alarm.
-/

set_option autoImplicit false

namespace RedTeaming.Email

open RedTeaming.Auth (UserId)
open RedTeaming.Library

/-- The user has a notification about the mail, or about one of its batch. -/
def Told (s : State) (u : UserId) (id : UUID) (mail : Mail) : Prop :=
  ∃ n ∈ s.notices, n.userId = u ∧ ∃ about, n.about = some about ∧
    (about = id ∨ mail.batchKey ≠ none ∧
      ∃ mail', s.mails about = some mail' ∧ mail'.batchKey = mail.batchKey)

/-- The mails of a batch have one requester. -/
def State.Coherent (s : State) : Prop :=
  ∀ id id' mail mail', s.mails id = some mail → s.mails id' = some mail' →
    mail.batchKey = mail'.batchKey → mail.batchKey ≠ none →
      mail.requestedByUserId = mail'.requestedByUserId

/-- Failures are reported, and what is reported has happened. -/
structure Reported (s : State) : Prop where
  rows : ∀ e ∈ s.emails, e.status = .failed → ∀ mail u, s.mails (key e) = some mail →
    mail.requestedByUserId = some u → Told s u (key e) mail
  runs : ∀ w run, s.runs w = some run → run.email.status = .failed → ∀ mail u,
    s.mails run.task.emailId = some mail → mail.requestedByUserId = some u →
      Told s u run.task.emailId mail
  alarms : ∀ n ∈ s.notices, ∀ id, n.about = some id → (∃ mail, s.mails id = some mail ∧
    mail.requestedByUserId = some n.userId) ∧ ∃ e ∈ s.emails, key e = id ∧ e.status ≠ .queued
  flushed : ∀ tx request, s.requests tx = some request → ∀ n ∈ request.notices, n.about = none

section
variable {T : Templates} {s s' : State} {l : Label} {ls : List Label} {mail : Mail} {id : UUID}
  {u : UserId}

/-! ### After a step -/

/-- Notifications stay. -/
theorem notices_step (h : step T s l = some s') : ∀ n ∈ s.notices, n ∈ s'.notices := by
  intro n hn
  cases step_spec h with
  | committed tx request emails hrequest hinsert => exact List.mem_append_left _ hn
  | storedFailed w taskId failure transient run hrun => exact List.mem_append_left _ hn
  | _ => exact hn

theorem Told.step (htold : Told s u id mail) (h : step T s l = some s') : Told s' u id mail := by
  obtain ⟨n, hn, huser, about, habout, hcase⟩ := htold
  refine ⟨n, notices_step h n hn, huser, about, habout, ?_⟩
  rcases hcase with hself | ⟨hbatch, mail', hmail', hsame⟩
  · exact Or.inl hself
  · exact Or.inr ⟨hbatch, mail', mails_step h hmail', hsame⟩

theorem State.Coherent.of_step (hc : s'.Coherent) (h : step T s l = some s') : s.Coherent :=
  fun id id' mail mail' hmail hmail' =>
    hc id id' mail mail' (mails_step h hmail) (mails_step h hmail')

/-- A call that a state has on record after a step was there before, or the step is that call. -/
theorem of_mails_step (h : step T s l = some s') (hmail : s'.mails id = some mail) :
    s.mails id = some mail ∨ s.mails id = none ∧ ∃ tx now, l = .send tx mail id now := by
  cases step_spec h with
  | sent tx mail' id' now email task flushed hnew hprepare hflushed hnotices =>
    rcases Records.of_set hmail with ⟨rfl, rfl⟩ | ⟨-, hmail⟩
    · exact Or.inr ⟨hnew, tx, now, rfl⟩
    · exact Or.inl hmail
  | _ => exact Or.inl hmail

/-- A call on record is one of the run. -/
theorem mem_of_mails {T : Templates} {ls : List Label} {s : State}
    (hrun : run (step T) .empty ls = some s) {id : UUID} {mail : Mail}
    (hmail : s.mails id = some mail) :
    ∃ tx now, .send tx mail id now ∈ ls := by
  have hall : ∀ id mail, s.mails id = some mail → ∃ tx now, .send tx mail id now ∈ ls := by
    refine run_history (I := fun ls s => ∀ id mail, s.mails id = some mail →
      ∃ tx now, .send tx mail id now ∈ ls) (fun _ _ h => by cases h) ?_ hrun
    intro ls s l s' _ h hstep id mail hmail
    rcases of_mails_step hstep hmail with hold | ⟨-, tx, now, rfl⟩
    · obtain ⟨tx, now, hmem⟩ := h id mail hold
      exact ⟨tx, now, List.mem_append_left _ hmem⟩
    · exact ⟨tx, now, List.mem_append_right _ List.mem_cons_self⟩
  exact hall id mail hmail

/-- The exception ends the task for good. -/
def Terminal (run : Run) (transient : Bool) : Prop :=
  (!transient || decide (maxRetries ≤ run.task.retries)) = true

/-- A status after the write of a run is the one before, or the one that the run has changed it
to. -/
theorem status_update (loaded new current : OutboundEmail) :
    (loaded.update new current).status = current.status ∨
      new.status ≠ loaded.status ∧ (loaded.update new current).status = new.status := by
  show OutboundEmail.column loaded.status new.status current.status = current.status ∨
    new.status ≠ loaded.status ∧
      OutboundEmail.column loaded.status new.status current.status = new.status
  unfold OutboundEmail.column
  split
  · exact Or.inl rfl
  · rename_i hchanged
    exact Or.inr ⟨hchanged, rfl⟩

/-- A failed row after a step failed before, or its run has just failed for good. -/
theorem failed_step (hp : Prepared T s) (h : step T s l = some s') : ∀ e' ∈ s'.emails,
    e'.status = .failed → (∃ e ∈ s.emails, key e = key e' ∧ e.status = .failed) ∨
      ∃ w taskId failure transient run, l = .storeFailed w taskId failure transient ∧
        s.runs w = some run ∧ key e' = run.task.emailId ∧ Terminal run transient ∧
          run.email.status ≠ .failed := by
  intro e' he' hfailed
  cases step_spec h with
  | committed tx request emails hrequest hinsert =>
    rcases (Table.mem_insertAll hinsert).mp he' with hold | hnew
    · exact Or.inl ⟨e', hold, rfl, hfailed⟩
    · rw [(hp.flushed tx request hrequest e' hnew).1] at hfailed
      cases hfailed
  | storedSent w taskId now run providerId hrun hphase =>
    rcases mem_store.mp he' with ⟨e, he, hkey, rfl⟩ | ⟨hold, -⟩
    · rcases status_update run.email (run.email.succeeded taskId providerId now) e with
        hsame | ⟨-, hnew⟩
      · exact Or.inl ⟨e, he, rfl, hsame ▸ hfailed⟩
      · rw [hnew] at hfailed
        cases hfailed
    · exact Or.inl ⟨e', hold, rfl, hfailed⟩
  | storedFailed w taskId failure transient run hrun =>
    rcases mem_store.mp he' with ⟨e, he, hkey, rfl⟩ | ⟨hold, -⟩
    · rcases status_update run.email (run.email.raised taskId failure
        (!transient || decide (maxRetries ≤ run.task.retries))) e with hsame | ⟨hchanged, hnew⟩
      · exact Or.inl ⟨e, he, rfl, hsame ▸ hfailed⟩
      · rw [hnew] at hfailed
        -- only a terminal exception changes the status
        have hterminal : Terminal run transient := by
          by_contra hnot
          apply hchanged
          exact if_neg hnot
        refine Or.inr ⟨w, taskId, failure, transient, run, rfl, hrun, hkey, hterminal, ?_⟩
        rw [hfailed] at hchanged
        exact fun hloaded => hchanged hloaded.symm
    · exact Or.inl ⟨e', hold, rfl, hfailed⟩
  | tombstoned id now byId =>
    rcases mem_tombstone.mp he' with ⟨e, he, -, rfl⟩ | ⟨hold, -⟩
    · exact Or.inl ⟨e, he, (key_softDelete now byId e).symm, hfailed⟩
    · exact Or.inl ⟨e', hold, rfl, hfailed⟩
  | _ => exact Or.inl ⟨e', he', rfl, hfailed⟩

/-! ### The checkpoint -/

/-- The checkpoint of a first failure tells the requester, unless a mail of the batch has
failed. -/
theorem notify_spec {email : OutboundEmail} {emails : Table OutboundEmail}
    (hu : email.requestedByUserId = some u) :
    (∃ n, email.notifyRequester emails = some n ∧ n.userId = u ∧ n.about = some email.id) ∨
      email.batchKey ≠ none ∧ ∃ other ∈ emails, other.status = .failed ∧
        other.batchKey = email.batchKey := by
  unfold OutboundEmail.notifyRequester
  rw [hu]
  dsimp only
  split
  · rename_i hsilent
    obtain ⟨hbatch, hany⟩ := Bool.and_eq_true_iff.mp hsilent
    obtain ⟨other, hother, hall⟩ := List.any_eq_true.mp hany
    simp only [Bool.and_eq_true, beq_iff_eq] at hall
    exact Or.inr ⟨Option.isSome_iff_ne_none.mp hbatch, other, hother, hall.1.2, hall.1.1⟩
  · exact Or.inl ⟨_, rfl, rfl, rfl⟩

/-- A notification of the checkpoint is about the row of the run, for its requester. -/
theorem of_notify {email : OutboundEmail} {emails : Table OutboundEmail} {n : Notice}
    (h : email.notifyRequester emails = some n) :
    email.requestedByUserId = some n.userId ∧ n.about = some email.id := by
  unfold OutboundEmail.notifyRequester at h
  split at h
  · cases h
  · rename_i u hu
    split at h
    · cases h
    · cases h
      exact ⟨hu, rfl⟩

/-- The first failure for good leaves the requester told. -/
theorem told_of_fail (hc : s.Coherent) (hp : Prepared T s) (h : Reported s)
    {w : Worker} {run : Run} (hrun : s.runs w = some run) {transient : Bool}
    (hterminal : Terminal run transient) (hfirst : run.email.status ≠ .failed) (taskId : String)
    (failure : Failure) (hmail : s.mails run.task.emailId = some mail)
    (hu : mail.requestedByUserId = some u) :
    Told (s.fail w run taskId failure transient) u run.task.emailId mail := by
  obtain ⟨mail', hmail', -, hrow, hkey, -⟩ := hp.runs w run hrun
  rw [hmail] at hmail'
  cases hmail'
  -- the notification that the checkpoint writes, if it writes one
  have hnotices : (s.fail w run taskId failure transient).notices = s.notices ++
      ((run.email.raised taskId failure true).notifyRequester s.emails).toList := by
    have hwrites : ((!transient || decide (maxRetries ≤ run.task.retries)) &&
        run.email.status != .failed) = true := by
      rw [show (!transient || decide (maxRetries ≤ run.task.retries)) = true from hterminal,
        Bool.true_and, bne_iff_ne]
      exact hfirst
    simp only [State.fail, hwrites, if_true]
    rw [show (!transient || decide (maxRetries ≤ run.task.retries)) = true from hterminal]
  rcases @notify_spec u (run.email.raised taskId failure true) s.emails
    (hrow.requestedByUserId.trans hu)
    with ⟨n, hn, huser, habout⟩ | ⟨hbatch, other, hother, hfailed, hsame⟩
  · refine ⟨n, ?_, huser, run.email.id, habout, Or.inl hkey⟩
    rw [hnotices, hn]
    exact List.mem_append_right _ List.mem_cons_self
  · -- the other failure of the batch has been reported
    obtain ⟨mail₂, hmail₂, hrow₂⟩ := hp.rows other hother
    have hkeys : mail₂.batchKey = mail.batchKey := by
      rw [← hrow₂.batchKey, hsame]
      exact hrow.batchKey
    have hbatch' : mail.batchKey ≠ none := hrow.batchKey ▸ hbatch
    have hu₂ : mail₂.requestedByUserId = some u := by
      rw [hc _ _ mail₂ mail hmail₂ hmail hkeys (hkeys ▸ hbatch'), hu]
    obtain ⟨n, hn, huser, about, habout, hcase⟩ := h.rows other hother hfailed mail₂ u hmail₂ hu₂
    refine ⟨n, ?_, huser, about, habout, Or.inr ⟨hbatch', ?_⟩⟩
    · rw [hnotices]
      exact List.mem_append_left _ hn
    · rcases hcase with rfl | ⟨-, mail₃, hmail₃, hsame₃⟩
      · exact ⟨mail₂, hmail₂, hkeys⟩
      · exact ⟨mail₃, hmail₃, hsame₃.trans hkeys⟩

/-! ### Along a run -/

/-- A row that is not queued stays so. -/
theorem exists_not_queued_step (hp : Prepared T s) (hstep : step T s l = some s')
    (he : ∃ e ∈ s.emails, key e = id ∧ e.status ≠ .queued) :
    ∃ e ∈ s'.emails, key e = id ∧ e.status ≠ .queued := by
  obtain ⟨e, he, rfl, hstatus⟩ := he
  obtain ⟨e', he', hkey'⟩ := exists_emails_step hstep ⟨e, he, rfl⟩
  refine ⟨e', he', hkey', ?_⟩
  intro hqueued
  rcases queued_step hstep e' he' with ⟨e₀, he₀, hkey₀, hback, -⟩ |
    ⟨tx, request, -, hrequest, hmem⟩
  · have hsame : e₀ = e := Table.eq_of_key_eq he₀ he (hkey₀.trans hkey')
    exact hstatus (hsame ▸ hback hqueued)
  · exact (hp.flushed tx request hrequest e' hmem).2.2 e he hkey'.symm

/-- A step keeps failures reported. -/
theorem reported_step (hc : s'.Coherent) (hp : Prepared T s) (hs : Shipped T s) (h : Reported s)
    (hstep : step T s l = some s') : Reported s' := by
  -- the call of a row or of a run is the same before and after the step
  have hcall {id : UUID} {mail : Mail} (hbefore : ∃ mail, s.mails id = some mail)
      (hmail : s'.mails id = some mail) : s.mails id = some mail := by
    obtain ⟨mail₀, hmail₀⟩ := hbefore
    rw [mails_step hstep hmail₀] at hmail
    rw [hmail₀, hmail]
  have hrow {e : OutboundEmail} (he : e ∈ s.emails) : ∃ mail, s.mails (key e) = some mail := by
    obtain ⟨mail, hmail, -⟩ := hp.rows e he
    exact ⟨mail, hmail⟩
  have hrunCall {w : Worker} {run : Run} (hrun : s.runs w = some run) :
      ∃ mail, s.mails run.task.emailId = some mail := by
    obtain ⟨mail, hmail, -⟩ := hp.runs w run hrun
    exact ⟨mail, hmail⟩
  refine { rows := ?_, runs := ?_, alarms := ?_, flushed := ?_ }
  · intro e' he' hfailed mail u hmail hu
    rcases failed_step hp hstep e' he' hfailed with
      ⟨e, he, hkey, hold⟩ |
        ⟨w, taskId, failure, transient, run, rfl, hrun, hkey, hterminal, hfirst⟩
    · rw [← hkey] at hmail ⊢
      exact (h.rows e he hold mail u (hcall (hrow he) hmail) hu).step hstep
    · rw [hkey] at hmail ⊢
      cases step_spec hstep with
      | storedFailed _ _ _ _ run' hrun' =>
        rw [hrun] at hrun'
        cases hrun'
        exact told_of_fail (hc.of_step hstep) hp h hrun hterminal hfirst taskId failure
          (hcall (hrunCall hrun) hmail) hu
  · intro w run' hrun' hfailed mail u hmail hu
    rcases runs_step hstep hrun' with
      hold | ⟨tag, -, -, -, hemail, -⟩ | ⟨run, hrun, -, htask, hemail, -⟩
    · exact (h.runs w run' hold hfailed mail u (hcall (hrunCall hold) hmail) hu).step hstep
    · obtain ⟨hmem, hkey⟩ := Table.find?_eq_some.mp hemail
      rw [← hkey] at hmail ⊢
      exact (h.rows run'.email hmem hfailed mail u (hcall (hrow hmem) hmail) hu).step hstep
    · rw [hemail] at hfailed
      rw [htask] at hmail ⊢
      exact (h.runs w run hrun hfailed mail u (hcall (hrunCall hrun) hmail) hu).step hstep
  · intro n hn id habout
    have hold (hn : n ∈ s.notices) : (∃ mail, s'.mails id = some mail ∧
        mail.requestedByUserId = some n.userId) ∧ ∃ e ∈ s'.emails, key e = id ∧
          e.status ≠ .queued := by
      obtain ⟨⟨mail, hmail, hu⟩, he⟩ := h.alarms n hn id habout
      exact ⟨⟨mail, mails_step hstep hmail, hu⟩, exists_not_queued_step hp hstep he⟩
    cases step_spec hstep with
    | committed tx request emails hrequest hinsert =>
      rcases List.mem_append.mp hn with hn | hn
      · exact hold hn
      · rw [h.flushed tx request hrequest n hn] at habout
        cases habout
    | storedFailed w taskId failure transient run hrun =>
      rcases List.mem_append.mp hn with hn | hn
      · exact hold hn
      · obtain ⟨mail, hmail, -, hrowOf, hkey, -⟩ := hp.runs w run hrun
        obtain ⟨-, ⟨e, he, hkey₀⟩, -⟩ := hs.runs w run hrun
        have hnotice := Option.mem_toList.mp hn
        split at hnotice
        · rename_i hwrites
          obtain ⟨hterminal, hfirst⟩ := Bool.and_eq_true_iff.mp hwrites
          obtain ⟨hu, habout'⟩ := of_notify hnotice
          rw [habout'] at habout
          cases habout
          have hid : (run.email.raised taskId failure
              (!transient || decide (maxRetries ≤ run.task.retries))).id =
                run.task.emailId := hkey
          rw [hid]
          refine ⟨⟨mail, mails_step hstep hmail, hrowOf.requestedByUserId.symm.trans hu⟩, ?_⟩
          refine ⟨_, mem_store.mpr (Or.inl ⟨e, he, hkey₀, rfl⟩), hkey₀, ?_⟩
          -- the checkpoint has just written the failed status
          have hnew : (run.email.raised taskId failure
              (!transient || decide (maxRetries ≤ run.task.retries))).status = .failed :=
                if_pos hterminal
          have hchanged : ¬ Status.failed = run.email.status := fun heq => by
            rw [← heq] at hfirst
            cases hfirst
          show OutboundEmail.column run.email.status _ e.status ≠ .queued
          rw [hnew, OutboundEmail.column, if_neg hchanged]
          exact Status.noConfusion
        · cases hnotice
    | _ => exact hold hn
  · have hopen {tx : Tx} {n : Notice} (hn : n ∈ ((s.requests tx).getD {}).notices) :
        n.about = none := by
      cases hrequest : s.requests tx with
      | none =>
        rw [hrequest] at hn
        cases hn
      | some request =>
        rw [hrequest] at hn
        exact h.flushed tx request hrequest n hn
    cases step_spec hstep with
    | sent tx mail id now email task flushed hnew hprepare hflushed hnotices =>
      refine Records.forall_set ?_ fun tx' request _ hrequest => h.flushed tx' request hrequest
      rw [hnotices]
      exact fun n hn => hopen hn
    | lost tx mail flushed hflushed hnotices =>
      refine Records.forall_set ?_ fun tx' request _ hrequest => h.flushed tx' request hrequest
      rw [hnotices]
      intro n hn
      rcases List.mem_append.mp hn with hn | hn
      · exact hopen hn
      · have hlost := Option.mem_toList.mp hn
        unfold Mail.lost at hlost
        split at hlost
        · cases hlost
          rfl
        · cases hlost
    | rolledBack tx id request kept hrequest hkept hnotices =>
      refine Records.forall_set ?_ fun tx' request' _ hrequest' =>
        h.flushed tx' request' hrequest'
      rw [hnotices]
      exact h.flushed tx request hrequest
    | committed tx request emails hrequest hinsert =>
      exact fun tx' request' h' => h.flushed tx' request' (Records.of_drop h').2
    | aborted tx => exact fun tx' request' h' => h.flushed tx' request' (Records.of_drop h').2
    | _ => exact h.flushed

end

/-- Failures are reported, along every run in which the mails of a batch have one requester. -/
theorem reported_of_run {T : Templates} (hT : T.Documented) {ls : List Label} {s : State}
    (hrun : run (step T) .empty ls = some s) (hc : s.Coherent) : Reported s := by
  have hall : Prepared T s ∧ Shipped T s ∧ (s.Coherent → Reported s) := by
    refine run_invariant
      (I := fun s => Prepared T s ∧ Shipped T s ∧ (s.Coherent → Reported s)) ?_ ?_ hrun
    · rintro s l s' ⟨hp, hs, hreported⟩ hstep
      exact ⟨prepared_step hp hstep, shipped_step hT hp hs hstep,
        fun hc => reported_step hc hp hs (hreported (hc.of_step hstep)) hstep⟩
    · refine ⟨prepared_empty T, shipped_empty T, fun _ => ?_⟩
      exact
        { rows := fun _ h => absurd h Table.not_mem_empty
          runs := fun _ _ h => by cases h
          alarms := fun _ h => absurd h List.not_mem_nil
          flushed := fun _ _ h => by cases h }
  exact hall.2.2 hc

/-- In every run of requests, workers and the broker in which the mails of a batch have one
requester: who asked for a mail that has failed has a notification about it, or about a mail of
its batch. And a notification about a mail goes to who asked for it, and only after the mail was
marked as failed: it is not queued any more. -/
theorem failures_are_reported (T : Templates) (hT : T.Documented) (ls : List Label) (s : State)
    (hrun : run (step T) .empty ls = some s) (hc : s.Coherent) :
    (∀ e ∈ s.emails, e.status = .failed → ∀ mail u, s.mails (key e) = some mail →
      mail.requestedByUserId = some u → Told s u (key e) mail) ∧
    ∀ n ∈ s.notices, ∀ id, n.about = some id → (∃ mail, s.mails id = some mail ∧
      mail.requestedByUserId = some n.userId) ∧ ∃ e ∈ s.emails, key e = id ∧
        e.status ≠ .queued := by
  have hreported := reported_of_run hT hrun hc
  exact ⟨hreported.rows, hreported.alarms⟩

/-- Two mails of a batch, whose addresses the backend refuses. -/
def refusedBatch : List Label :=
  [.send 0 { invitation with batchKey := some 7 } 10 1,
    .send 0 { invitation with batchKey := some 7, recipient := "bob@example.org" } 11 1,
    .commit 0, .take 0 0, .storeFailed 0 "task" ⟨"SMTPRecipientsRefused", "550"⟩ false,
    .acknowledge 0, .take 0 1, .storeFailed 0 "task" ⟨"SMTPRecipientsRefused", "550"⟩ false,
    .acknowledge 0]

/-- The second failure is silent, and its requester has the notification about the first one. -/
theorem failures_are_reported_batch : ∃ s, run (step linkTemplates) .empty refusedBatch = some s ∧
    s.notices.length = 1 ∧ ∃ e ∈ s.emails, key e = 11 ∧ ∃ mail, Told s 1 (key e) mail := by
  have hany : (run (step linkTemplates) .empty refusedBatch).any (fun s =>
      decide (s.notices.length = 1) &&
        s.emails.rows.any fun e => decide (key e = 11) && decide (e.status = .failed)) =
          true := by
    decide +kernel
  obtain ⟨s, hrun, hboth⟩ := exists_run_of_any hany
  obtain ⟨hone, hfailed⟩ := Bool.and_eq_true_iff.mp hboth
  obtain ⟨e, he, hrow⟩ := List.any_eq_true.mp hfailed
  obtain ⟨hkey, hstatus⟩ := Bool.and_eq_true_iff.mp hrow
  have hrequester : ∀ id mail, s.mails id = some mail → mail.requestedByUserId = some 1 := by
    intro id mail hmail
    obtain ⟨tx, now, hmem⟩ := mem_of_mails hrun hmail
    simp only [refusedBatch, List.mem_cons, List.not_mem_nil, or_false, Label.send.injEq,
      reduceCtorEq] at hmem
    rcases hmem with ⟨-, rfl, -⟩ | ⟨-, rfl, -⟩
    · rfl
    · rfl
  have hc : s.Coherent := fun id id' mail mail' hmail hmail' _ _ => by
    rw [hrequester id mail hmail, hrequester id' mail' hmail']
  obtain ⟨hreported, -⟩ :=
    failures_are_reported linkTemplates linkTemplates_documented refusedBatch s hrun hc
  obtain ⟨mail, hmail, -⟩ := (prepared_of_run hrun).rows e he
  exact ⟨s, hrun, of_decide_eq_true hone, e, he, of_decide_eq_true hkey, mail,
    hreported e he (of_decide_eq_true hstatus) mail 1 hmail (hrequester _ mail hmail)⟩

end RedTeaming.Email
