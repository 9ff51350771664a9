import RedTeaming.Exports.Preservation

/-!
# `RedTeaming.Exports.Guarantees`: the life of one export job

What the invariant says about every run on one export job, whatever the order of its deliveries,
retries, sweeps and deletions, and whichever commits fail (`export_job_lifecycle`).

The file of a live `ready` job is the output of the worker that finalized it, or a deletion has
already deleted it. A deletion deletes the file before it commits, so a commit that fails leaves
the job without its file (`file_deleted_before_commit`, and the download is a 404). A deleted job
has no file once its workers have run to completion. While one still runs that the stuck sweep has
given up, it may write its file, which it then deletes itself.
-/

set_option autoImplicit false

namespace RedTeaming.Exports

open RedTeaming.Library

variable {settings : Settings} {key : String} {s s' : State}

/-! ### What a step changes -/

/-- Only the commit of a claim makes a worker an owner of the job. -/
theorem unfinished_of_runExportJob {r : JobRecord} {worker : Worker} {event : WorkerEvent}
    {phase' : WorkerPhase} {effect : Effect}
    (h : runExportJob settings r worker event = some (phase', effect))
    (hunfinished : phase'.unfinished = true) :
    worker.phase.unfinished = true ∨ worker.phase = .claiming true := by
  cases event with
  | raise error =>
    obtain ⟨phase₁, hraise, heq⟩ := Option.map_eq_some_iff.mp h
    cases heq
    cases hphase : worker.phase <;> rw [hphase] at hraise <;> cases hraise <;>
      first | exact .inl rfl | cases hunfinished
  | die =>
    obtain ⟨phase₁, hdeath, heq⟩ := Option.map_eq_some_iff.mp h
    cases heq
    cases hphase : worker.phase <;> rw [hphase] at hdeath <;> cases hdeath <;>
      first | exact .inl rfl | cases hunfinished
  | _ =>
    simp only [runExportJob] at h
    repeat' split at h
    all_goals
      cases h
    all_goals
      simp_all [WorkerPhase.unfinished, WorkerPhase.owns]

/-- A worker wins by the commit of a finalize that hit. -/
theorem finalizing_of_runExportJob {r : JobRecord} {worker : Worker} {event : WorkerEvent}
    {output : List String} {effect : Effect}
    (h : runExportJob settings r worker event = some (.ended (.finalized output), effect)) :
    worker.phase = .finalizing output true ∧ effect = .commit := by
  cases event with
  | raise error =>
    obtain ⟨phase₁, hraise, heq⟩ := Option.map_eq_some_iff.mp h
    cases heq
    cases hphase : worker.phase <;> rw [hphase] at hraise <;> cases hraise
  | die =>
    obtain ⟨phase₁, hdeath, heq⟩ := Option.map_eq_some_iff.mp h
    cases heq
    cases hphase : worker.phase <;> rw [hphase] at hdeath <;> cases hdeath
  | _ =>
    simp only [runExportJob] at h
    repeat' split at h
    all_goals
      cases h
    all_goals
      simp_all

/-- An effect leaves the programs. -/
theorem State.perform_programs {s₁ : State} {p : Party} {effect : Effect}
    (h : s.perform p effect = some s₁) :
    s₁.workers = s.workers ∧ s₁.deletions = s.deletions := by
  cases effect with
  | update version =>
    obtain ⟨row, -, rfl⟩ := Option.map_eq_some_iff.mp h
    exact ⟨rfl, rfl⟩
  | _ =>
    cases h
    exact ⟨rfl, rfl⟩

/-- An effect leaves the committed row or moves it. -/
theorem Inv.committed_perform {s₁ : State} (hinv : Inv key s) {p : Party} {effect : Effect}
    (h : s.perform p effect = some s₁) :
    s₁.row.committed = s.row.committed ∨ Move key s.row.committed s₁.row.committed := by
  cases effect with
  | update version =>
    obtain ⟨row, hrow, rfl⟩ := Option.map_eq_some_iff.mp h
    obtain ⟨-, rfl⟩ := Versioned.write_eq_some hrow
    exact .inl rfl
  | commit =>
    cases h
    exact hinv.sound.committed_commit p
  | rollback =>
    cases h
    exact .inl (Versioned.committed_rollback _ _)
  | _ =>
    cases h
    exact .inl rfl

/-- A step leaves the committed row or moves it. -/
theorem Inv.committed_step (hinv : Inv key s) {label : Label}
    (hstep : step settings s label = some s') :
    s'.row.committed = s.row.committed ∨ Move key s.row.committed s'.row.committed := by
  cases label with
  | worker w event =>
    obtain ⟨next, -, hperformed⟩ := Option.bind_eq_some_iff.mp hstep
    obtain ⟨s₁, hperform, rfl⟩ := Option.map_eq_some_iff.mp hperformed
    have hmove := hinv.committed_perform hperform
    exact hmove
  | deletion d event =>
    obtain ⟨next, -, hperformed⟩ := Option.bind_eq_some_iff.mp hstep
    obtain ⟨s₁, hperform, rfl⟩ := Option.map_eq_some_iff.mp hperformed
    have hmove := hinv.committed_perform hperform
    exact hmove

/-- A step does not change the status of a finished job. -/
theorem Inv.status_step (hinv : Inv key s) {label : Label}
    (hstep : step settings s label = some s') (hfinished : s.job.status.finished = true) :
    s'.job.status = s.job.status := by
  rcases hinv.committed_step hstep with heq | hmove
  · exact congrArg (fun r => r.job.status) heq
  · exact hmove.status_of_finished hfinished

/-- A finished job gets no new owner. -/
theorem Inv.unfinished_step (hinv : Inv key s) {label : Label}
    (hstep : step settings s label = some s') (hfinished : s.job.status.finished = true) (w : Nat)
    (hunfinished : (s'.phase w).unfinished = true) : (s.phase w).unfinished = true := by
  cases label with
  | worker w₁ event =>
    obtain ⟨⟨phase', effect⟩, hnext, hperformed⟩ := Option.bind_eq_some_iff.mp hstep
    obtain ⟨s₁, hperform, rfl⟩ := Option.map_eq_some_iff.mp hperformed
    have hworkers := (State.perform_programs hperform).1
    by_cases hne : w = w₁
    · subst hne
      rw [State.phase_setWorker_self] at hunfinished
      rcases unfinished_of_runExportJob hnext hunfinished with hbefore | hclaiming
      · exact hbefore
      · -- The open claim is of a pending job.
        have hhit : (s.phase w).hit = true := by
          rw [show s.phase w = _ from hclaiming]
          rfl
        obtain ⟨v, hv⟩ := hinv.held w hhit
        have hmoves := hinv.moves _ v hv
        rw [State.Moves, show s.phase w = _ from hclaiming] at hmoves
        obtain ⟨hpending, -⟩ := hmoves
        rw [hpending] at hfinished
        cases hfinished
    · rw [State.phase_setWorker_of_ne hne, State.phase, hworkers] at hunfinished
      exact hunfinished
  | deletion d event =>
    obtain ⟨next, -, hperformed⟩ := Option.bind_eq_some_iff.mp hstep
    obtain ⟨s₁, hperform, rfl⟩ := Option.map_eq_some_iff.mp hperformed
    have hworkers := (State.perform_programs hperform).1
    have hphase : (s₁.setDeletion d next.1).phase w = s.phase w := by
      show (s₁.workers w).phase = _
      rw [hworkers]
      rfl
    rw [hphase] at hunfinished
    exact hunfinished

/-! ### The winner -/

/-- At most one worker has finalized the job, and then the job is `ready`. -/
structure OneWinner (s : State) : Prop where
  ready : ∀ w output, s.phase w = .ended (.finalized output) → s.job.status = .ready
  unique : ∀ w w' output output', s.phase w = .ended (.finalized output) →
    s.phase w' = .ended (.finalized output') → w = w'

/-- The phases of the workers after a step, apart from a new winner. -/
theorem OneWinner.of_phases (h : OneWinner s)
    (hstatus : s.job.status.finished = true → s'.job.status = s.job.status)
    (hphases : ∀ w output, s'.phase w = .ended (.finalized output) →
      s.phase w = .ended (.finalized output)) : OneWinner s' where
  ready w output hw := by
    have hready := h.ready w output (hphases w output hw)
    rw [hstatus (by rw [hready]; rfl), hready]
  unique w w' output output' hw hw' :=
    h.unique w w' output output' (hphases w output hw) (hphases w' output' hw')

/-- A step keeps the winner. -/
theorem OneWinner.of_step (h : OneWinner s) (hinv : Inv key s) {label : Label}
    (hstep : step settings s label = some s') : OneWinner s' := by
  cases label with
  | deletion d event =>
    apply h.of_phases (hinv.status_step hstep)
    obtain ⟨next, -, hperformed⟩ := Option.bind_eq_some_iff.mp hstep
    obtain ⟨s₁, hperform, rfl⟩ := Option.map_eq_some_iff.mp hperformed
    intro w output hw
    have hworkers := (State.perform_programs hperform).1
    have hphase : (s₁.workers w).phase = .ended (.finalized output) := hw
    rw [hworkers] at hphase
    exact hphase
  | worker w₁ event =>
    have hstatus := hinv.status_step hstep
    obtain ⟨⟨phase', effect⟩, hnext, hperformed⟩ := Option.bind_eq_some_iff.mp hstep
    obtain ⟨s₁, hperform, rfl⟩ := Option.map_eq_some_iff.mp hperformed
    have hworkers := (State.perform_programs hperform).1
    have hother : ∀ w, w ≠ w₁ → (s₁.setWorker w₁ event phase').phase w = s.phase w := by
      intro w hne
      rw [State.phase_setWorker_of_ne hne, State.phase, hworkers]
      rfl
    by_cases hwins : ∃ output, phase' = .ended (.finalized output)
    · obtain ⟨output, rfl⟩ := hwins
      obtain ⟨hphase, rfl⟩ := finalizing_of_runExportJob hnext
      cases hperform
      -- The job was running, so nobody had won.
      obtain ⟨v, -, hcommit, hrunning, hready⟩ :=
        hinv.worker_commit_hit (show s.phase w₁ = _ from hphase) rfl
      have hnone : ∀ w output', w ≠ w₁ → ({ s with row := s.row.commit (.worker w₁) }.setWorker w₁
          event (.ended (.finalized output))).phase w ≠ .ended (.finalized output') := by
        intro w output' hne hw
        rw [hother w hne] at hw
        have hready' := h.ready w output' hw
        rw [hrunning] at hready'
        cases hready'
      constructor
      · intro _ _ _
        show (s.row.commit (.worker w₁)).committed.job.status = .ready
        rw [hcommit]
        exact hready
      · intro w w' output₁ output₂ hw hw'
        by_cases hne : w = w₁
        · by_cases hne' : w' = w₁
          · rw [hne, hne']
          · exact absurd hw' (hnone w' output₂ hne')
        · exact absurd hw (hnone w output₁ hne)
    · apply h.of_phases hstatus
      intro w output hw
      by_cases hne : w = w₁
      · subst hne
        rw [State.phase_setWorker_self] at hw
        exact absurd ⟨output, hw⟩ hwins
      · rw [hother w hne] at hw
        exact hw

/-! ### The guarantees -/

/-- A job as `create_export_job` makes it. -/
def Created (job : ExportJob) : Prop :=
  ∃ id createdAt template exportFormat requestedById evaluationId evaluationGroupId,
    job = createExportJob id createdAt template exportFormat requestedById evaluationId
      evaluationGroupId

/-- What holds in each state of a job whose file has the key `key`:

- `one_owner`: at most one worker owns the job;
- `expires`: `expires_at` is set exactly in `ready` and `failed`;
- `ready_file`: a live `ready` job has its `file_ref`. It has one winner, and the file is what the
  winner saved, unless a deletion that has not committed has deleted it;
- `deleted_file`: a deleted job whose workers have run to completion has no file;
- `one_announcement`: at most one announcement is made. -/
structure JobGuarantees (key : String) (s : State) : Prop where
  one_owner : ∀ w w', (s.phase w).owns = true → (s.phase w').owns = true → w = w'
  expires : s.job.expiresAt.isSome = true ↔ s.job.status = .ready ∨ s.job.status = .failed
  ready_file : s.job.live = true → s.job.status = .ready → s.job.fileRef = some key ∧
    ∃ w output, (s.phase w = .ended (.finalized output) ∧
        ∀ w' output', s.phase w' = .ended (.finalized output') → w' = w) ∧
      (s.files key = some output ∨ s.files key = none ∧ ∃ d, (s.deletions d).removed = true)
  deleted_file : s.job.live = false → (∀ w, (s.phase w).unfinished = false) → s.files key = none
  one_announcement : s.row.committed.announcements.length ≤ 1

/-- An owner has not run to completion. -/
theorem WorkerPhase.unfinished_of_owns {phase : WorkerPhase} (h : phase.owns = true) :
    phase.unfinished = true := by
  cases phase <;> first | rfl | cases h

/-- The invariant gives the guarantees. -/
theorem Inv.guarantees (hinv : Inv key s) (hwinner : OneWinner s) : JobGuarantees key s where
  one_owner w w' hw hw' :=
    hinv.unique w w' (WorkerPhase.unfinished_of_owns hw) (WorkerPhase.unfinished_of_owns hw')
  expires := by
    rw [show s.job.expiresAt.isSome = _ from hinv.wellFormed.expires]
    show s.job.status.finished = true ↔ _
    cases s.job.status <;> simp [ExportJobStatus.finished]
  ready_file hlive hready := by
    obtain ⟨w, output, hw, hfile⟩ := hinv.ready hlive hready
    refine ⟨hinv.wellFormed.live_ready hlive hready, w, output, ⟨hw, ?_⟩, hfile⟩
    intro w' output' hw'
    exact hwinner.unique w' w output' output hw' hw
  deleted_file hdead hnone := by
    by_cases hready : s.job.status = .ready
    · exact hinv.deleted hdead hready
    · exact hinv.leftover hready hnone
  one_announcement := hinv.wellFormed.announced

/-- Along a run from a finished job, the status stays, and no worker becomes an owner. -/
theorem Inv.finished_run (hinv : Inv key s) (hfinished : s.job.status.finished = true)
    {ls : List Label} (hrun : run (step settings) s ls = some s') :
    s'.job.status = s.job.status ∧
      ∀ w, (s'.phase w).unfinished = true → (s.phase w).unfinished = true := by
  have hlast : Inv key s' ∧ s'.job.status = s.job.status ∧
      ∀ w, (s'.phase w).unfinished = true → (s.phase w).unfinished = true := by
    refine run_invariant (I := fun s' => Inv key s' ∧ s'.job.status = s.job.status ∧
      ∀ w, (s'.phase w).unfinished = true → (s.phase w).unfinished = true) ?_
      ⟨hinv, rfl, fun _ hw => hw⟩ hrun
    intro s₁ label s₂ ⟨hinv₁, hstatus₁, howners₁⟩ hstep
    have hfinished₁ : s₁.job.status.finished = true := by
      rw [hstatus₁]
      exact hfinished
    refine ⟨hinv₁.of_step hstep, (hinv₁.status_step hstep hfinished₁).trans hstatus₁, ?_⟩
    exact fun w hw => howners₁ w (hinv₁.unfinished_step hstep hfinished₁ w hw)
  exact hlast.2

/-- A worker that no longer has the job running, and that runs to completion, leaves no file. -/
theorem Inv.superseded_run (hinv : Inv key s) {w : Nat} (howns : (s.phase w).owns = true)
    (hsuperseded : s.job.status ≠ .running) {ls : List Label}
    (hrun : run (step settings) s ls = some s') {outcome : Outcome}
    (hended : s'.phase w = .ended outcome) : s'.files key = none := by
  have hunfinished := WorkerPhase.unfinished_of_owns howns
  have hfailed : s.job.status = .failed := by
    rcases hinv.owned w hunfinished with hrunning | hfailed
    · exact absurd hrunning hsuperseded
    · exact hfailed
  have hfinished : s.job.status.finished = true := by
    rw [hfailed]
    rfl
  obtain ⟨hstatus, howners⟩ := hinv.finished_run hfinished hrun
  apply (hinv.of_run hrun).leftover
  · rw [hstatus, hfailed]
    exact nofun
  · -- Whoever owns the job at the end owned it before, and so is `w`, which has ended.
    intro w'
    cases hcase : (s'.phase w').unfinished with
    | false => rfl
    | true =>
      have heq := hinv.unique w' w (howners w' hcase) hunfinished
      rw [heq, hended] at hcase
      cases hcase

/-- Every run on a fresh export job. In each state that it reaches the guarantees hold. From there
on, a finished job keeps its status, and a worker whose claim was superseded leaves no file once
it has run to completion. -/
theorem export_job_lifecycle {settings : Settings} {job : ExportJob} {files : Files}
    (hjob : Created job) (hfiles : files (fileKey job) = none) {ls : List Label} {s : State}
    (hrun : run (step settings) (State.start job files) ls = some s) :
    JobGuarantees (fileKey job) s ∧
      ∀ ls' s', run (step settings) s ls' = some s' →
        (s.job.status.finished = true → s'.job.status = s.job.status) ∧
        ∀ w outcome, (s.phase w).owns = true → s.job.status ≠ .running →
          s'.phase w = .ended outcome → s'.files (fileKey job) = none := by
  have hstart : Inv (fileKey job) (State.start job files) := by
    obtain ⟨id, createdAt, template, exportFormat, requestedById, evaluationId, evaluationGroupId,
      rfl⟩ := hjob
    exact Inv.start (wellFormed_createExportJob ..) rfl hfiles
  have hwinner : OneWinner (State.start job files) := by
    constructor
    · intro w output hw
      cases hw
    · intro w w' output output' hw
      cases hw
  have hboth : Inv (fileKey job) s ∧ OneWinner s :=
    run_invariant (I := fun s => Inv (fileKey job) s ∧ OneWinner s)
      (fun _ _ _ h hstep => ⟨h.1.of_step hstep, h.2.of_step h.1 hstep⟩) ⟨hstart, hwinner⟩ hrun
  obtain ⟨hinv, hwins⟩ := hboth
  refine ⟨hinv.guarantees hwins, fun ls' s' hrun' => ⟨fun hfinished => ?_, ?_⟩⟩
  · exact (hinv.finished_run hfinished hrun').1
  · intro w outcome howns hsuperseded hended
    exact hinv.superseded_run howns hsuperseded hrun' hended

/-- A job for the flags of an evaluation. -/
def flagsJob : ExportJob := createExportJob 7 100 "flags" "csv" 1 (some 3) none

/-- A worker claims the job, opens its file, and stalls. -/
def stalled : List Label :=
  [.worker 0 (.deliver 0), .worker 0 .load, .worker 0 .claim, .worker 0 .commit,
    .worker 0 .openFile, .worker 0 (.write "id,flag")]

/-- The stuck sweep fails the job. -/
def swept : List Label :=
  [.deletion 0 (.begin (.reap 5000)), .deletion 0 .select, .deletion 0 (.update true),
    .deletion 0 .commit]

/-- The worker goes on: it saves its file, misses the finalize, and deletes the file. -/
def resumed : List Label :=
  [.worker 0 .close, .worker 0 (.finalize 6000 true), .worker 0 .commit, .worker 0 .deleteFile,
    .worker 0 .refresh]

/-- The stuck sweep fails a job whose worker stalls. Then the worker goes on, and deletes its
file. -/
theorem export_job_lifecycle_stalled :
    ∃ s s', run (step {}) (State.start flagsJob fun _ => none) (stalled ++ swept) = some s ∧
      run (step {}) s resumed = some s' ∧ JobGuarantees (fileKey flagsJob) s ∧
      s'.job.status = s.job.status ∧ s'.files (fileKey flagsJob) = none := by
  have hfirst : (run (step {}) (State.start flagsJob fun _ => none) (stalled ++ swept)).any
      (fun s => (s.phase 0).owns && decide (s.job.status = .failed)) = true := by
    decide +kernel
  obtain ⟨s, hrun, hs⟩ := exists_run_of_any hfirst
  obtain ⟨howns, hfailed⟩ := Bool.and_eq_true_iff.mp hs
  have hfailed : s.job.status = .failed := of_decide_eq_true hfailed
  have hsecond : (run (step {}) (State.start flagsJob fun _ => none)
      (stalled ++ swept ++ resumed)).any
        (fun s => decide (s.phase 0 = .ended .superseded)) = true := by
    decide +kernel
  obtain ⟨s', hrun', hended⟩ := exists_run_of_any hsecond
  obtain ⟨s₁, hrun₁, hresumed⟩ := (run_append_eq_some _).mp hrun'
  have heq : s₁ = s := Option.some.inj (hrun₁.symm.trans hrun)
  subst heq
  obtain ⟨hguarantees, hlater⟩ := export_job_lifecycle ⟨7, 100, _, _, 1, _, _, rfl⟩ rfl hrun
  obtain ⟨hstatus, hfile⟩ := hlater resumed s' hresumed
  refine ⟨s₁, s', hrun, hresumed, hguarantees, ?_, ?_⟩
  · apply hstatus
    rw [hfailed]
    rfl
  · apply hfile 0 .superseded howns
    · rw [hfailed]
      exact nofun
    · exact of_decide_eq_true hended

/-- A run to the `ready` job. -/
def generated : List Label :=
  stalled ++ [.worker 0 .close, .worker 0 (.finalize 200 true), .worker 0 .commit]

/-- A deletion deletes the file before it commits. When the commit fails, the `ready` job lives on
without its file. And the file of a stalled worker is still there after the stuck sweep and the
deletion of the job. -/
theorem file_deleted_before_commit :
    (¬ ∀ ls s, run (step {}) (State.start flagsJob fun _ => none) ls = some s →
      s.job.live = true → s.job.status = .ready →
        ∃ output, s.files (fileKey flagsJob) = some output) ∧
    ¬ ∀ ls s, run (step {}) (State.start flagsJob fun _ => none) ls = some s →
      s.job.live = false → s.files (fileKey flagsJob) = none := by
  constructor
  · intro hclaim
    have hany : (run (step {}) (State.start flagsJob fun _ => none) (generated ++
        [.deletion 0 (.begin (.request 1 false)), .deletion 0 .select,
          .deletion 0 (.softDelete 300), .deletion 0 (.update false), .deletion 0 .fail])).any
        (fun s => s.job.live && decide (s.job.status = .ready)
          && decide (s.files (fileKey flagsJob) = none)) = true := by
      decide +kernel
    obtain ⟨s, hrun, hs⟩ := exists_run_of_any hany
    simp only [Bool.and_eq_true, decide_eq_true_eq] at hs
    obtain ⟨⟨hlive, hready⟩, hnone⟩ := hs
    obtain ⟨output, hsome⟩ := hclaim _ s hrun hlive hready
    rw [hnone] at hsome
    cases hsome
  · intro hclaim
    have hany : (run (step {}) (State.start flagsJob fun _ => none) (stalled ++ swept ++
        [.deletion 1 (.begin (.request 1 false)), .deletion 1 .select,
          .deletion 1 (.softDelete 5100), .deletion 1 (.update false), .deletion 1 .commit])).any
        (fun s => !s.job.live && (s.files (fileKey flagsJob)).isSome) = true := by
      decide +kernel
    obtain ⟨s, hrun, hs⟩ := exists_run_of_any hany
    simp only [Bool.and_eq_true, Bool.not_eq_true'] at hs
    obtain ⟨hdead, hsome⟩ := hs
    rw [hclaim _ s hrun hdead] at hsome
    cases hsome

end RedTeaming.Exports
