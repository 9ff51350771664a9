import RedTeaming.Email.Rendered

/-!
# `RedTeaming.Email.Waiting`: a mail that waits still has its task

A row is committed as `queued`, and only a run of its task changes that. A task leaves the broker
when a worker acknowledges it, and then the row is sent or failed, or a later retry of the task is
there. So a row that waits has a task, as long as no task of it was taken before the row was
committed, and no run of it ended with a database error or with its pool process.
`waiting_has_task` says so for every run of the system.

The tags of the broker grow. An acknowledged task that was to be tried again has left a task with
a larger tag, and `Flying s n id` is about the tasks from a tag on.
-/

set_option autoImplicit false

namespace RedTeaming.Email

open RedTeaming.Library

/-- The row is queued and not deleted. -/
def Waiting (e : OutboundEmail) : Prop := e.status = .queued ∧ live e = true

/-- The broker has a task of the row, with the tag `n` or a later one. -/
def Flying (s : State) (n : Nat) (id : UUID) : Prop :=
  ∃ tag task, n ≤ tag ∧ s.broker tag = some task ∧ task.emailId = id

/-- The step takes a task of the row before the row is committed. -/
def TakesEarly (id : UUID) (s : State) (l : Label) : Prop :=
  ∃ w tag task, l = .take w tag ∧ s.broker tag = some task ∧ task.emailId = id ∧
    s.emails.find? id = none

/-- The step ends a run of a task of the row with a database error, or because its pool process is
killed. -/
def Breaks (id : UUID) (s : State) (l : Label) : Prop :=
  ∃ w run, (l = .databaseError w ∨ l = .poolLost w) ∧ s.runs w = some run ∧ run.task.emailId = id

/-- One of the two has happened. -/
def Lost (T : Templates) (ls : List Label) (id : UUID) : Prop :=
  Once (step T) (fun s l => TakesEarly id s l ∨ Breaks id s l) .empty ls

/-- What is known of a run. Its message is of its row. A row that it has loaded as failed is not
queued again, and when the run is over, a row that waits has a later task. -/
structure RunTracked (T : Templates) (ls : List Label) (s : State) (run : Run) : Prop where
  tag : run.tag < s.nextTag
  task : ∀ task, s.broker run.tag = some task → task.emailId = run.task.emailId
  loaded : run.email.status ≠ .queued → ∀ e ∈ s.emails, key e = run.task.emailId →
    e.status ≠ .queued
  ended : run.phase = .over → ∀ e ∈ s.emails, key e = run.task.emailId → Waiting e →
    Flying s (run.tag + 1) (key e) ∨ Lost T ls (key e)

/-- Where the tasks of the rows are. -/
structure Tracked (T : Templates) (ls : List Label) (s : State) : Prop where
  rows : ∀ e ∈ s.emails, Waiting e → Flying s 0 (key e) ∨ Lost T ls (key e)
  flushed : ∀ tx request, s.requests tx = some request → ∀ e ∈ request.emails,
    Flying s 0 (key e) ∨ Lost T ls (key e)
  tags : ∀ tag task, s.broker tag = some task → tag < s.nextTag
  runs : ∀ w run, s.runs w = some run → RunTracked T ls s run

section
variable {T : Templates} {s s' : State} {l : Label} {ls : List Label} {e : OutboundEmail}
  {task : Task} {id : UUID} {n tag : Nat}

theorem Flying.mono {n' : Nat} (h : Flying s n' id) (hn : n ≤ n') : Flying s n id := by
  obtain ⟨tag, task, htag, htask, hid⟩ := h
  exact ⟨tag, task, hn.trans htag, htask, hid⟩

/-! ### Rows and tasks after a step -/

/-- The write of a run makes no row wait. -/
theorem queued_of_update {loaded new current : OutboundEmail}
    (hnew : new.status ≠ .queued ∨ new.status = loaded.status)
    (h : (loaded.update new current).status = .queued) : current.status = .queued := by
  change OutboundEmail.column loaded.status new.status current.status = .queued at h
  unfold OutboundEmail.column at h
  split at h
  · exact h
  · rename_i hchanged
    rcases hnew with hnew | hnew
    · exact absurd h hnew
    · exact absurd hnew hchanged

/-- An exception leaves the status or makes it a failed one. -/
theorem status_raised (loaded : OutboundEmail) (taskId : String) (failure : Failure)
    (terminal : Bool) :
    (loaded.raised taskId failure terminal).status ≠ .queued ∨
      (loaded.raised taskId failure terminal).status = loaded.status := by
  cases terminal with
  | true => exact Or.inl (fun h => by cases h)
  | false => exact Or.inr rfl

/-- A row that is queued or waits after a step did so before, or its request commits. -/
theorem queued_step (h : step T s l = some s') : ∀ e' ∈ s'.emails,
    (∃ e ∈ s.emails, key e = key e' ∧ (e'.status = .queued → e.status = .queued) ∧
      (Waiting e' → Waiting e)) ∨
    ∃ tx request, l = .commit tx ∧ s.requests tx = some request ∧ e' ∈ request.emails := by
  intro e' he'
  have hsame (he : e' ∈ s.emails) : ∃ e ∈ s.emails, key e = key e' ∧
      (e'.status = .queued → e.status = .queued) ∧ (Waiting e' → Waiting e) :=
    ⟨e', he, rfl, fun h => h, fun h => h⟩
  have hupdate {run : Run} {new e : OutboundEmail} (he : e ∈ s.emails)
      (hnew : new.status ≠ .queued ∨ new.status = run.email.status) :
      ∃ e₀ ∈ s.emails, key e₀ = key (run.email.update new e) ∧
        ((run.email.update new e).status = .queued → e₀.status = .queued) ∧
        (Waiting (run.email.update new e) → Waiting e₀) :=
    ⟨e, he, rfl, queued_of_update hnew, fun h => ⟨queued_of_update hnew h.1, h.2⟩⟩
  cases step_spec h with
  | committed tx request emails hrequest hinsert =>
    rcases (Table.mem_insertAll hinsert).mp he' with hold | hnew
    · exact Or.inl (hsame hold)
    · exact Or.inr ⟨tx, request, rfl, hrequest, hnew⟩
  | storedSent w taskId now run providerId hrun hphase =>
    rcases mem_store.mp he' with ⟨e, he, -, rfl⟩ | ⟨hold, -⟩
    · exact Or.inl (hupdate he (Or.inl fun h => by cases h))
    · exact Or.inl (hsame hold)
  | storedFailed w taskId failure transient run hrun =>
    rcases mem_store.mp he' with ⟨e, he, -, rfl⟩ | ⟨hold, -⟩
    · exact Or.inl (hupdate he (status_raised _ _ _ _))
    · exact Or.inl (hsame hold)
  | tombstoned id now byId =>
    rcases mem_tombstone.mp he' with ⟨e, he, -, rfl⟩ | ⟨hold, -⟩
    · refine Or.inl ⟨e, he, (key_softDelete now byId e).symm, fun h => h, ?_⟩
      rintro ⟨-, hlive⟩
      rw [live_softDelete] at hlive
      cases hlive
    · exact Or.inl (hsame hold)
  | _ => exact Or.inl (hsame he')

/-- A task stays in the broker, or a worker acknowledges it: because no row waits for it, because
its run is over, or because its run broke. -/
theorem broker_kept (h : step T s l = some s')
    (htags : ∀ tag task, s.broker tag = some task → tag < s.nextTag)
    (htask : s.broker tag = some task) : s'.broker tag = some task ∨
      (∃ w, l = .take w tag ∧ s.Idle task) ∨
      (∃ w run, l = .acknowledge w ∧ s.runs w = some run ∧ run.tag = tag ∧ run.phase = .over ∧
        s'.broker = s.broker.drop tag) ∨
      ∃ w run, (l = .databaseError w ∨ l = .poolLost w) ∧ s.runs w = some run ∧
        run.tag = tag := by
  have hpublish (task' : Task) : s.broker.set s.nextTag task' tag = some task := by
    have hne : tag ≠ s.nextTag := by
      have hlt := htags tag task htask
      omega
    rw [Records.set_of_ne hne]
    exact htask
  cases step_spec h with
  | sent tx mail id now email task' flushed hnew hprepare hflushed hnotices =>
    exact Or.inl (hpublish task')
  | retried w run hrun hphase => exact Or.inl (hpublish _)
  | skipped w tag' task' htask' hidle =>
    by_cases hsame : tag = tag'
    · subst hsame
      rw [htask] at htask'
      cases htask'
      exact Or.inr (Or.inl ⟨w, rfl, hidle⟩)
    · exact Or.inl ((Records.drop_of_ne hsame).trans htask)
  | acknowledged w run hrun hphase =>
    by_cases hsame : tag = run.tag
    · subst hsame
      exact Or.inr (Or.inr (Or.inl ⟨w, run, rfl, hrun, rfl, hphase, rfl⟩))
    · exact Or.inl ((Records.drop_of_ne hsame).trans htask)
  | databaseError w run hrun =>
    by_cases hsame : tag = run.tag
    · subst hsame
      exact Or.inr (Or.inr (Or.inr ⟨w, run, Or.inl rfl, hrun, rfl⟩))
    · exact Or.inl ((Records.drop_of_ne hsame).trans htask)
  | poolLost w run hrun =>
    by_cases hsame : tag = run.tag
    · subst hsame
      exact Or.inr (Or.inr (Or.inr ⟨w, run, Or.inr rfl, hrun, rfl⟩))
    · exact Or.inl ((Records.drop_of_ne hsame).trans htask)
  | _ => exact Or.inl htask

/-- The tags do not come twice. -/
theorem tags_step (h : step T s l = some s')
    (htags : ∀ tag task, s.broker tag = some task → tag < s.nextTag) :
    s.nextTag ≤ s'.nextTag ∧ ∀ tag task, s'.broker tag = some task → tag < s'.nextTag := by
  have hpublish (task' : Task) (tag : Nat) (task : Task)
      (htask : s.broker.set s.nextTag task' tag = some task) : tag < s.nextTag + 1 := by
    rcases Records.of_set htask with ⟨rfl, -⟩ | ⟨-, htask⟩
    · omega
    · have hlt := htags tag task htask
      omega
  cases step_spec h with
  | sent tx mail id now email task' flushed hnew hprepare hflushed hnotices =>
    exact ⟨Nat.le_succ _, hpublish task'⟩
  | retried w run hrun hphase => exact ⟨Nat.le_succ _, hpublish _⟩
  | skipped w tag' task' htask' hidle =>
    exact ⟨Nat.le_refl _, fun tag task h => htags tag task (Records.of_drop h).2⟩
  | acknowledged w run hrun hphase =>
    exact ⟨Nat.le_refl _, fun tag task h => htags tag task (Records.of_drop h).2⟩
  | databaseError w run hrun =>
    exact ⟨Nat.le_refl _, fun tag task h => htags tag task (Records.of_drop h).2⟩
  | poolLost w run hrun =>
    exact ⟨Nat.le_refl _, fun tag task h => htags tag task (Records.of_drop h).2⟩
  | _ => exact ⟨Nat.le_refl _, htags⟩

theorem Lost.append (h : Lost T ls id) (ls' : List Label) :
    Lost T (ls ++ ls') id := Once.append h ls'

/-! ### One step -/

/-- A row that waits keeps a task from the tag `n` on. -/
theorem flying_step (hrun : run (step T) .empty ls = some s) (h : Tracked T ls s)
    (hstep : step T s l = some s') (he : e ∈ s.emails) (hwaiting : Waiting e)
    (hflying : Flying s n (key e) ∨ Lost T ls (key e)) :
    Flying s' n (key e) ∨ Lost T (ls ++ [l]) (key e) := by
  rcases hflying with ⟨tag, task, hn, htask, hid⟩ | hlost
  · rcases broker_kept hstep h.tags htask with
      hkept | ⟨w, rfl, hidle⟩ | ⟨w, r, rfl, hr, rfl, hover, hbroker⟩ | ⟨w, r, hbreaks, hr, rfl⟩
    · exact Or.inl ⟨tag, task, hn, hkept, hid⟩
    · -- a row waits for the task
      exfalso
      rcases hidle e (Table.find?_eq_some.mpr ⟨he, hid.symm⟩) with hdead | hsent
      · rw [hwaiting.2] at hdead
        cases hdead
      · rw [hwaiting.1] at hsent
        cases hsent
    · -- the run is over, so the row has a later task
      have htracked := h.runs w r hr
      have hkey : key e = r.task.emailId := hid.symm.trans (htracked.task task htask)
      rcases htracked.ended hover e he hkey hwaiting with
        ⟨tag', task', hlater, htask', hid'⟩ | hlost
      · refine Or.inl ⟨tag', task', by omega, ?_, hid'⟩
        rw [hbroker, Records.drop_of_ne (by omega)]
        exact htask'
      · exact Or.inr (hlost.append [_])
    · have hkey : r.task.emailId = key e := ((h.runs w r hr).task task htask).symm.trans hid
      exact Or.inr (once_concat hrun (Or.inr ⟨w, r, hbreaks, hr, hkey⟩))
  · exact Or.inr (hlost.append [l])

/-- A row of an open request is not the row of a run. -/
theorem key_ne_of_open (hp : Prepared T s) (hs : Shipped T s) {w : Worker} {r : Run}
    (hr : s.runs w = some r) {tx : Tx} {request : Request}
    (hrequest : s.requests tx = some request)
    (he : e ∈ request.emails) : key e ≠ r.task.emailId := by
  obtain ⟨-, ⟨e₀, he₀, hkey₀⟩, -⟩ := hs.runs w r hr
  rw [← hkey₀]
  exact ((hp.flushed tx request hrequest e he).2.2 e₀ he₀).symm

/-- A row that waits has a task after a step. -/
theorem rows_tracked (hrun : run (step T) .empty ls = some s) (h : Tracked T ls s)
    (hstep : step T s l = some s') : ∀ e ∈ s'.emails, Waiting e →
      Flying s' 0 (key e) ∨ Lost T (ls ++ [l]) (key e) := by
  intro e' he' hwaits
  rcases queued_step hstep e' he' with
    ⟨e, he, hkey, -, hwaiting⟩ | ⟨tx, request, rfl, hrequest, hmem⟩
  · rw [← hkey]
    exact flying_step hrun h hstep he (hwaiting hwaits) (h.rows e he (hwaiting hwaits))
  · rcases h.flushed tx request hrequest e' hmem with ⟨tag, task, hn, htask, hid⟩ | hlost
    · refine Or.inl ⟨tag, task, hn, ?_, hid⟩
      cases step_spec hstep with
      | committed _ _ _ _ _ => exact htask
    · exact Or.inr (hlost.append _)

/-- A flushed row has a task after a step. -/
theorem flushed_tracked (hrun : run (step T) .empty ls = some s) (hp : Prepared T s)
    (hs : Shipped T s) (h : Tracked T ls s) (hstep : step T s l = some s') :
    ∀ tx request, s'.requests tx = some request → ∀ e ∈ request.emails,
      Flying s' 0 (key e) ∨ Lost T (ls ++ [l]) (key e) := by
  intro tx request' hrequest' e he
  rcases requests_step hstep hrequest' he with
    ⟨-, request, hrequest, hmem⟩ | ⟨mail, id, now, task, rfl, hnew, hprepare⟩
  · rcases h.flushed tx request hrequest e hmem with ⟨tag, task, hn, htask, hid⟩ | hlost
    · -- a run has a committed row, so the task is not of a run
      have hnotRun {w : Worker} {r : Run} (hr : s.runs w = some r) (htag : r.tag = tag) :
          False := by
        subst htag
        exact key_ne_of_open hp hs hr hrequest hmem
          (hid.symm.trans ((h.runs w r hr).task task htask))
      rcases broker_kept hstep h.tags htask with
        hkept | ⟨w, rfl, -⟩ | ⟨w, r, rfl, hr, htag, -, -⟩ | ⟨w, r, hbreaks, hr, htag⟩
      · exact Or.inl ⟨tag, task, hn, hkept, hid⟩
      · -- the row is not committed yet
        have hnone : s.emails.find? (key e) = none := by
          rw [Option.eq_none_iff_forall_not_mem]
          intro e₀ he₀
          obtain ⟨hmem₀, hkey₀⟩ := Table.find?_eq_some.mp he₀
          exact (hp.flushed tx request hrequest e hmem).2.2 e₀ hmem₀ hkey₀
        exact Or.inr (once_concat hrun (Or.inl ⟨w, tag, task, rfl, htask, hid, hnone⟩))
      · exact (hnotRun hr htag).elim
      · exact (hnotRun hr htag).elim
    · exact Or.inr (hlost.append _)
  · obtain ⟨hkey, hid, -⟩ := prepare_spec hprepare
    cases step_spec hstep with
    | sent _ _ _ _ email task' flushed _ hprepare' _ _ =>
      rw [hprepare] at hprepare'
      cases hprepare'
      exact Or.inl ⟨s.nextTag, task, Nat.zero_le _, Records.set_self, hid.trans hkey.symm⟩

/-! ### A run after a step -/

variable {w : Worker} {r r' : Run}

/-- The message of a run stays the message of its row. -/
theorem RunTracked.task_step (h : RunTracked T ls s r) (hstep : step T s l = some s') :
    ∀ task, s'.broker r.tag = some task → task.emailId = r.task.emailId := by
  intro task htask
  rcases broker_step hstep htask with hkept | ⟨hnew, -⟩
  · exact h.task task hkept
  · have hlt := h.tag
    omega

/-- A row that a run has loaded as failed is not queued after a step. -/
theorem RunTracked.loaded_step (h : RunTracked T ls s r) (hp : Prepared T s) (hs : Shipped T s)
    (hr : s.runs w = some r) (hstep : step T s l = some s') (hloaded : r.email.status ≠ .queued) :
    ∀ e ∈ s'.emails, key e = r.task.emailId → e.status ≠ .queued := by
  intro e' he' hkey' hqueued'
  rcases queued_step hstep e' he' with ⟨e, he, hkey, hqueued, -⟩ |
    ⟨tx, request, -, hrequest, hmem⟩
  · exact h.loaded hloaded e he (hkey.trans hkey') (hqueued hqueued')
  · exact key_ne_of_open hp hs hr hrequest hmem hkey'

/-- After a run is over, a row that waits has a later task, and keeps one. -/
theorem ended_step (hrun : run (step T) .empty ls = some s) (hp : Prepared T s) (hs : Shipped T s)
    (h : Tracked T ls s) (hr : s.runs w = some r) (hstep : step T s l = some s')
    (hover : r.phase = .over) : ∀ e ∈ s'.emails, key e = r.task.emailId → Waiting e →
      Flying s' (r.tag + 1) (key e) ∨ Lost T (ls ++ [l]) (key e) := by
  intro e' he' hkey' hwaits
  rcases queued_step hstep e' he' with ⟨e, he, hkey, -, hwaiting⟩ |
    ⟨tx, request, -, hrequest, hmem⟩
  · rw [← hkey]
    exact flying_step hrun h hstep he (hwaiting hwaits)
      ((h.runs w r hr).ended hover e he (hkey.trans hkey') (hwaiting hwaits))
  · exact absurd hkey' (key_ne_of_open hp hs hr hrequest hmem)

/-- A run that the step leaves as it is. -/
theorem RunTracked.kept (hrun : run (step T) .empty ls = some s) (hp : Prepared T s)
    (hs : Shipped T s) (h : Tracked T ls s) (hstep : step T s l = some s')
    (hr : s.runs w = some r) : RunTracked T (ls ++ [l]) s' r where
  tag := Nat.lt_of_lt_of_le (h.runs w r hr).tag (tags_step hstep h.tags).1
  task := (h.runs w r hr).task_step hstep
  loaded := (h.runs w r hr).loaded_step hp hs hr hstep
  ended := ended_step hrun hp hs h hr hstep

/-- A run that goes on. It is left to show where the task of its row is when it is over now. -/
theorem RunTracked.moved (hp : Prepared T s) (hs : Shipped T s) (h : Tracked T ls s)
    (hstep : step T s l = some s') (hr : s.runs w = some r) (htag : r'.tag = r.tag)
    (htask : r'.task = r.task) (hemail : r'.email = r.email)
    (hover : r'.phase = .over → ∀ e ∈ s'.emails, key e = r.task.emailId → Waiting e →
      Flying s' (r.tag + 1) (key e)) : RunTracked T (ls ++ [l]) s' r' where
  tag := htag ▸ Nat.lt_of_lt_of_le (h.runs w r hr).tag (tags_step hstep h.tags).1
  task := by
    rw [htag, htask]
    exact (h.runs w r hr).task_step hstep
  loaded := by
    rw [hemail, htask]
    exact (h.runs w r hr).loaded_step hp hs hr hstep
  ended := by
    intro hphase e he hkey hwaits
    rw [htask] at hkey
    rw [htag]
    exact Or.inl (hover hphase e he hkey hwaits)

/-- A run that has just loaded its row. -/
theorem RunTracked.taken {tag : Nat} {email : OutboundEmail} (h : Tracked T ls s)
    (htask : s.broker tag = some task) (hemail : s.emails.find? task.emailId = some email) :
    RunTracked T (ls ++ [l])
      { s with runs := s.runs.set w { tag, task, email, phase := .loaded } }
      { tag, task, email, phase := .loaded } where
  tag := h.tags tag task htask
  task := by
    intro task' htask'
    change s.broker tag = some task' at htask'
    rw [htask] at htask'
    cases htask'
    rfl
  loaded := by
    intro hloaded e he hkey
    obtain ⟨hmem, hkey'⟩ := Table.find?_eq_some.mp hemail
    have hrow : e = email := Table.eq_of_key_eq he hmem (hkey.trans hkey'.symm)
    rw [hrow]
    exact hloaded
  ended := Phase.noConfusion

/-- The rows that a run has written do not wait. -/
theorem not_waiting_store {new : OutboundEmail}
    (hnew : ∀ e ∈ s.emails, key e = r.task.emailId → (r.email.update new e).status ≠ .queued) :
    ∀ e ∈ s.store r new, key e = r.task.emailId → ¬ Waiting e := by
  rintro e' he' hkey' ⟨hqueued, -⟩
  rcases mem_store.mp he' with ⟨e, he, hkey, rfl⟩ | ⟨-, hne⟩
  · exact hnew e he hkey hqueued
  · exact hne hkey'

/-- After the checkpoint of a success the row is not queued. -/
theorem not_queued_succeeded (hs : Shipped T s) (hr : s.runs w = some r) (taskId : String)
    (providerId : Option String) (now : Time) (e : OutboundEmail) :
    (r.email.update (r.email.succeeded taskId providerId now) e).status ≠ .queued := by
  intro hqueued
  change OutboundEmail.column r.email.status Status.sent e.status = .queued at hqueued
  rw [OutboundEmail.column, if_neg (hs.runs w r hr).1.symm] at hqueued
  cases hqueued

/-- After the checkpoint of a terminal failure the row is not queued. -/
theorem not_queued_raised (h : RunTracked T ls s r) (taskId : String) (failure : Failure)
    (he : e ∈ s.emails) (hkey : key e = r.task.emailId) :
    (r.email.update (r.email.raised taskId failure true) e).status ≠ .queued := by
  intro hqueued
  change OutboundEmail.column r.email.status Status.failed e.status = .queued at hqueued
  unfold OutboundEmail.column at hqueued
  split at hqueued
  · rename_i hloaded
    refine h.loaded ?_ e he hkey hqueued
    rw [← hloaded]
    exact Status.noConfusion
  · cases hqueued

/-- What is known of the runs after a step. -/
theorem runs_tracked (hrun : run (step T) .empty ls = some s) (hp : Prepared T s)
    (hs : Shipped T s) (h : Tracked T ls s) (hstep : step T s l = some s') :
    ∀ w run, s'.runs w = some run → RunTracked T (ls ++ [l]) s' run := by
  intro w r' hr'
  have hkept (hr : s.runs w = some r') : RunTracked T (ls ++ [l]) s' r' :=
    .kept hrun hp hs h hstep hr
  cases step_spec hstep with
  | taken w' tag task email htask hemail hstatus =>
    rcases Records.of_set hr' with ⟨rfl, rfl⟩ | ⟨-, hr'⟩
    · exact .taken h htask hemail
    · exact hkept hr'
  | delivered w' providerId r message hr hmessage =>
    rcases Records.of_set hr' with ⟨rfl, rfl⟩ | ⟨-, hr'⟩
    · exact .moved hp hs h hstep hr rfl rfl rfl Phase.noConfusion
    · exact hkept hr'
  | storedSent w' taskId now r providerId hr hphase =>
    rcases Records.of_set hr' with ⟨rfl, rfl⟩ | ⟨-, hr'⟩
    · refine .moved hp hs h hstep hr rfl rfl rfl ?_
      intro _ e he hkey hwaits
      refine absurd hwaits (not_waiting_store ?_ e he hkey)
      exact fun e _ _ => not_queued_succeeded hs hr taskId providerId now e
    · exact hkept hr'
  | storedFailed w' taskId failure transient r hr =>
    rcases Records.of_set hr' with ⟨rfl, rfl⟩ | ⟨-, hr'⟩
    · refine .moved hp hs h hstep hr rfl rfl rfl ?_
      intro hover e he hkey hwaits
      -- the run is over, so the exception was terminal
      have hterminal : (!transient || decide (maxRetries ≤ r.task.retries)) = true := by
        by_contra hnot
        simp [hnot] at hover
      change e ∈ s.store r (r.email.raised taskId failure (!transient || _)) at he
      rw [hterminal] at he
      refine absurd hwaits (not_waiting_store ?_ e he hkey)
      exact fun e he hkey => not_queued_raised (h.runs w r hr) taskId failure he hkey
    · exact hkept hr'
  | retried w' r hr hphase =>
    rcases Records.of_set hr' with ⟨rfl, rfl⟩ | ⟨-, hr'⟩
    · refine .moved hp hs h hstep hr rfl rfl rfl ?_
      intro _ e _ hkey _
      exact ⟨s.nextTag, _, (h.runs w r hr).tag, Records.set_self, hkey.symm⟩
    · exact hkept hr'
  | acknowledged w' r hr hphase => exact hkept (Records.of_drop hr').2
  | databaseError w' r hr => exact hkept (Records.of_drop hr').2
  | poolLost w' r hr => exact hkept (Records.of_drop hr').2
  | crashed w' => exact hkept (Records.of_drop hr').2
  | _ => exact hkept hr'

/-- A step keeps track of the tasks. -/
theorem tracked_step (hrun : run (step T) .empty ls = some s) (hp : Prepared T s)
    (hs : Shipped T s) (h : Tracked T ls s) (hstep : step T s l = some s') :
    Tracked T (ls ++ [l]) s' where
  rows := rows_tracked hrun h hstep
  flushed := flushed_tracked hrun hp hs h hstep
  tags := (tags_step hstep h.tags).2
  runs := runs_tracked hrun hp hs h hstep

end

/-- What the three invariants say along a run. -/
theorem tracked_of_run {T : Templates} (hT : T.Documented) {ls : List Label} {s : State}
    (hrun : run (step T) .empty ls = some s) : Tracked T ls s := by
  have hall : Prepared T s ∧ Shipped T s ∧ Tracked T ls s := by
    refine run_history (I := fun ls s => Prepared T s ∧ Shipped T s ∧ Tracked T ls s) ?_ ?_ hrun
    · refine ⟨prepared_empty T, shipped_empty T, ?_⟩
      exact
        { rows := fun _ h => absurd h Table.not_mem_empty
          flushed := fun _ _ h => by cases h
          tags := fun _ _ h => by cases h
          runs := fun _ _ h => by cases h }
    · rintro ls s l s' hrun ⟨hp, hs, ht⟩ hstep
      exact ⟨prepared_step hp hstep, shipped_step hT hp hs hstep,
        tracked_step hrun hp hs ht hstep⟩
  exact hall.2.2

/-- No mail is forgotten: in every run of requests, workers and the broker, a committed row that
is queued and not deleted has a task in the broker, unless a task of it was taken before the row
was committed, or a run of its task ended with a database error or with its pool process. -/
theorem waiting_has_task (T : Templates) (hT : T.Documented) (ls : List Label) (s : State)
    (hrun : run (step T) .empty ls = some s) :
    ∀ e ∈ s.emails, e.status = .queued → live e = true →
      (∃ tag task, s.broker tag = some task ∧ task.emailId = key e) ∨
        Once (step T) (fun s l => TakesEarly (key e) s l ∨ Breaks (key e) s l) .empty ls := by
  intro e he hqueued hlive
  rcases (tracked_of_run hT hrun).rows e he ⟨hqueued, hlive⟩ with
    ⟨tag, task, -, htask, hid⟩ | hlost
  · exact Or.inl ⟨tag, task, htask, hid⟩
  · exact Or.inr hlost

/-- The backend is away for a moment, and the task is retried. -/
def sendAndRetry : List Label :=
  [.send 0 invitation 10 1, .commit 0, .take 0 0,
    .storeFailed 0 "task" ⟨"TransientEmailError", "421"⟩ true, .retry 0, .acknowledge 0]

/-- The row waits, and has the second task. -/
theorem waiting_has_task_retried : ∃ s, run (step linkTemplates) .empty sendAndRetry = some s ∧
    ∃ e ∈ s.emails, e.status = .queued ∧
      ((∃ tag task, s.broker tag = some task ∧ task.emailId = key e) ∨
        Once (step linkTemplates) (fun s l => TakesEarly (key e) s l ∨ Breaks (key e) s l) .empty
          sendAndRetry) := by
  have hany : (run (step linkTemplates) .empty sendAndRetry).any
      (fun s => s.emails.rows.any fun e => e.status == .queued && live e) = true := by
        decide +kernel
  obtain ⟨s, hrun, hwaits⟩ := exists_run_of_any hany
  obtain ⟨e, he, hboth⟩ := List.any_eq_true.mp hwaits
  obtain ⟨hqueued, hlive⟩ := Bool.and_eq_true_iff.mp hboth
  have hstatus : e.status = .queued := beq_iff_eq.mp hqueued
  exact ⟨s, hrun, e, he, hstatus,
    waiting_has_task linkTemplates linkTemplates_documented sendAndRetry s hrun e he
      hstatus hlive⟩

/-- A worker that is faster than the commit of the request leaves a row that waits without a
task. -/
example : (run (step linkTemplates) .empty [.send 0 invitation 10 1, .take 0 0, .commit 0]).any
    (fun s => (s.emails.rows.any fun e => e.status == .queued) && (s.broker 0).isNone) =
    true := by
  decide +kernel

end RedTeaming.Email
