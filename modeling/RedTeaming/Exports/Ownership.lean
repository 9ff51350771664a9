import RedTeaming.Exports.System

/-!
# `RedTeaming.Exports.Ownership`: the invariant of one export job

The row alone does not say which worker owns the job. The invariant `Inv key s` relates the row,
the phases of the programs, and the file at the key `key` of the job.

- At most one worker has claimed the job and not run to completion. While there is one, the job is
  running or failed. So a `pending` or a `ready` job has no worker that could touch its file.
- What the worker knows about the file from its phase holds (`WorkerPhase.Content`): nobody else
  writes or deletes the file until it is done.
- A deletion deletes the file of a finished job only, before it commits. So the file of a `ready`
  job is the output of the worker that finalized it, or a deletion deleted it.

A step of a worker that commits nothing changes only the phase of the worker, the lock of the row,
and the file of its own job (`Inv.worker_frame`). The four commits that change the row have a
lemma each.
-/

set_option autoImplicit false

namespace RedTeaming.Exports

open RedTeaming.Library

namespace WorkerPhase

/-- The update of the phase hit the row. -/
def hit : WorkerPhase → Bool
  | .claiming claimed => claimed
  | .finalizing _ finalized => finalized
  | .requeueing _ requeued => requeued
  | .terminating terminated => terminated
  | _ => false

/-- The change of the status that the open transaction of a phase makes. -/
def Moves : WorkerPhase → ExportJobStatus → ExportJobStatus → Prop
  | .claiming true, a, b => a = .pending ∧ b = .running
  | .finalizing _ true, a, b => a = .running ∧ b = .ready
  | .requeueing _ true, a, b => a = .running ∧ b = .pending
  | .terminating true, a, b => a = .running ∧ b = .failed
  | _, _, _ => False

/-- What a worker knows about the file of the job. -/
def Content : WorkerPhase → Option (List String) → Prop
  | .saving written true, file => file = some written
  | .saved output, file | .finalizing output _, file => file = some output
  | .dropped, file | .cleaned _, file | .requeueing _ _, file | .terminating _,
      file => file = none
  | _, _ => True

/-- A worker that changes the status has an update that hit. -/
theorem hit_of_moves {phase : WorkerPhase} {a b : ExportJobStatus} (h : phase.Moves a b) :
    phase.hit = true := by
  cases phase with
  | claiming c | finalizing _ c | requeueing _ c | terminating c =>
    cases c
    · cases h
    · rfl
  | _ => exact h.elim

/-- A worker that has not claimed the job, or has run to completion, knows nothing. -/
theorem content_of_not_unfinished {phase : WorkerPhase} (h : phase.unfinished = false)
    (file : Option (List String)) : phase.Content file := by
  cases phase <;> trivial

end WorkerPhase

namespace DeletionPhase

/-- The row that a deletion loaded. -/
def target? : DeletionPhase → Option ExportJob
  | .selected _ target => target
  | .softDeleted _ loaded _ => some loaded
  | _ => none

/-- A phase without a loaded row is not the one before the flush. -/
theorem ne_softDeleted {phase : DeletionPhase} (h : phase.target? = none) (deletion : Deletion)
    (loaded current : ExportJob) : phase ≠ .softDeleted deletion loaded current := by
  intro heq
  rw [heq] at h
  cases h

end DeletionPhase

/-- The change of the status that the open transaction of a deletion makes: none to a finished
job, and to `failed` from an unfinished one. -/
def DeletionMoves (a b : ExportJobStatus) : Prop :=
  (a.finished = true ∧ b = a) ∨ (a.finished = false ∧ b = .failed)

/-- The change of the status that the open transaction of a party makes. -/
def State.Moves (s : State) : Party → ExportJobStatus → ExportJobStatus → Prop
  | .worker w, a, b => (s.phase w).Moves a b
  | .deletion _, a, b => DeletionMoves a b

/-- What a deletion relies on about the row that it loaded: it was live and finished, with the
status that the job still has, and with its file when that is `ready`. -/
structure Target (key : String) (status : ExportJobStatus) (loaded : ExportJob) : Prop where
  live : loaded.live = true
  status_eq : loaded.status = status
  finished : status.finished = true
  fileRef : ∀ ref, loaded.fileRef = some ref → status = .ready ∧ ref = key
  ready : status = .ready → loaded.fileRef = some key

/-- The invariant of a job whose file has the key `key`. -/
structure Inv (key : String) (s : State) : Prop where
  wellFormed : WellFormed key s.row.committed
  sound : s.row.Sound (Move key)
  moves : ∀ p v, s.row.pending = some (p, v) → s.Moves p s.job.status v.job.status
  held : ∀ w, (s.phase w).hit = true → s.row.HeldBy (.worker w)
  updated : ∀ d, s.deletions d = .updated true → s.row.HeldBy (.deletion d)
  unique : ∀ w w', (s.phase w).unfinished = true → (s.phase w').unfinished = true → w = w'
  owned : ∀ w, (s.phase w).unfinished = true → s.job.status = .running ∨ s.job.status = .failed
  content : ∀ w, (s.phase w).Content (s.files key)
  leftover : s.job.status ≠ .ready → (∀ w, (s.phase w).unfinished = false) → s.files key = none
  target : ∀ d loaded, (s.deletions d).target? = some loaded → Target key s.job.status loaded
  softDeleted : ∀ d deletion loaded current,
    s.deletions d = .softDeleted deletion loaded current →
      (∃ byId now, current = softDeleteExportJob byId now loaded) ∧
        (s.job.status = .ready → s.files key = none)
  deleting : ∀ d v, s.row.pending = some (.deletion d, v) → s.job.status = .ready →
    v.job.live = false ∧ s.files key = none
  deleted : s.job.live = false → s.job.status = .ready → s.files key = none
  ready : s.job.live = true → s.job.status = .ready →
    ∃ w output, s.phase w = .ended (.finalized output) ∧
      (s.files key = some output ∨
        s.files key = none ∧ ∃ d, (s.deletions d).removed = true)

@[simp] theorem State.phase_setWorker_self (s : State) (w : Nat) (event : WorkerEvent)
    (phase : WorkerPhase) : (s.setWorker w event phase).phase w = phase := by
  show (Function.update s.workers w _ w).phase = phase
  rw [Function.update_self]

@[simp] theorem State.phase_setWorker_of_ne {s : State} {w w' : Nat} {event : WorkerEvent}
    {phase : WorkerPhase} (h : w' ≠ w) : (s.setWorker w event phase).phase w' = s.phase w' := by
  show (Function.update s.workers w _ w').phase = s.phase w'
  rw [Function.update_of_ne h]
  rfl

@[simp] theorem State.deletions_setDeletion_self (s : State) (d : Nat) (phase : DeletionPhase) :
    (s.setDeletion d phase).deletions d = phase := Function.update_self _ _ _

@[simp] theorem State.deletions_setDeletion_of_ne {s : State} {d d' : Nat} {phase : DeletionPhase}
    (h : d' ≠ d) : (s.setDeletion d phase).deletions d' = s.deletions d' :=
  Function.update_of_ne h _ _

/-- A fresh job, with nothing stored at its key. -/
theorem Inv.start {job : ExportJob} {files : Files} (h : WellFormed (fileKey job) { job })
    (hpending : job.status = .pending) (hfiles : files (fileKey job) = none) :
    Inv (fileKey job) (State.start job files) where
  wellFormed := h
  sound _ _ hnone := nomatch hnone
  moves _ _ hnone := nomatch hnone
  held _ hhit := nomatch hhit
  updated _ hphase := nomatch hphase
  unique _ _ howns := nomatch howns
  owned _ howns := nomatch howns
  content _ := trivial
  leftover _ _ := hfiles
  target _ _ htarget := nomatch htarget
  softDeleted _ _ _ _ hphase := nomatch hphase
  deleting _ _ hnone := nomatch hnone
  deleted _ hready := nomatch hpending.symm.trans hready
  ready _ hready := nomatch hpending.symm.trans hready

namespace Inv
variable {key : String} {s : State}

/-- While a worker has not run to completion, the others have nothing to do with the job. -/
theorem not_unfinished_of_ne (h : Inv key s) {w w' : Nat}
    (hw : (s.phase w).unfinished = true) (hne : w' ≠ w) : (s.phase w').unfinished = false := by
  cases hcase : (s.phase w').unfinished with
  | false => rfl
  | true => exact absurd (h.unique w' w hcase hw) hne

/-- A `ready` job has no worker that has not run to completion. -/
theorem not_unfinished_of_ready (h : Inv key s) (hready : s.job.status = .ready) (w : Nat) :
    (s.phase w).unfinished = false := by
  cases hcase : (s.phase w).unfinished with
  | false => rfl
  | true =>
    rcases h.owned w hcase with hstatus | hstatus <;>
    · rw [hready] at hstatus
      cases hstatus

/-- Neither has a pending one. -/
theorem not_unfinished_of_pending (h : Inv key s) (hpending : s.job.status = .pending) (w : Nat) :
    (s.phase w).unfinished = false := by
  cases hcase : (s.phase w).unfinished with
  | false => rfl
  | true =>
    rcases h.owned w hcase with hstatus | hstatus <;>
    · rw [hpending] at hstatus
      cases hstatus

/-- The transaction of a worker without an update that hit does not hold the row. -/
theorem not_held_of_not_hit (h : Inv key s) {w : Nat} (hw : (s.phase w).hit = false) :
    ¬ s.row.HeldBy (.worker w) := by
  intro ⟨v, hv⟩
  have hhit := WorkerPhase.hit_of_moves (h.moves _ v hv)
  rw [hw] at hhit
  cases hhit

/-- A step of a worker that commits nothing. It changes the phase of the worker, the lock of the
row, and the files. -/
theorem worker_frame (h : Inv key s) {w : Nat} {phase : WorkerPhase} (hphase : s.phase w = phase)
    (row : Versioned JobRecord Party) (files : Files) (event : WorkerEvent) (phase' : WorkerPhase)
    (hcommitted : row.committed = s.row.committed) (hsound : row.Sound (Move key))
    -- The lock of the row is left to the others, and is the worker's after an update that hit.
    (hothers : ∀ p v, p ≠ .worker w → (row.pending = some (p, v) ↔ s.row.pending = some (p, v)))
    (hmoves : ∀ v, row.pending = some (.worker w, v) → phase'.Moves s.job.status v.job.status)
    (hheld : phase'.hit = true → row.HeldBy (.worker w))
    -- Only the owner touches the file, and it leaves none when it is done.
    (hclaimed : phase'.unfinished = true → phase.unfinished = true)
    (hfiles : files key = s.files key ∨ phase.unfinished = true)
    (hcontent : phase'.Content (files key))
    (hdone : phase.unfinished = true → phase'.unfinished = false → files key = none)
    (hended : ∀ output, phase ≠ .ended (.finalized output)) :
    Inv key ({ s with row, files }.setWorker w event phase') := by
  have hjob : ({ s with row, files }.setWorker w event phase').job = s.job :=
    congrArg JobRecord.job hcommitted
  have hother : ∀ w' : Nat, w' ≠ w →
      ({ s with row, files }.setWorker w event phase').phase w' = s.phase w' :=
    fun w' hne => State.phase_setWorker_of_ne hne
  have hunfinished : ∀ w' : Nat,
      (({ s with row, files }.setWorker w event phase').phase w').unfinished = true →
        (s.phase w').unfinished = true := by
    intro w' hw'
    by_cases hne : w' = w
    · subst hne
      rw [State.phase_setWorker_self] at hw'
      rw [hphase]
      exact hclaimed hw'
    · rw [hother w' hne] at hw'
      exact hw'
  -- The file can only change under an owner, and then the job is not `ready`.
  have hready : s.job.status = .ready → files key = s.files key := by
    intro hstatus
    rcases hfiles with hfiles | howns
    · exact hfiles
    · have hnot := h.not_unfinished_of_ready hstatus w
      rw [hphase, howns] at hnot
      cases hnot
  constructor
  case wellFormed =>
    show WellFormed key row.committed
    rw [hcommitted]
    exact h.wellFormed
  case sound => exact hsound
  case moves =>
    intro p v hv
    rw [hjob]
    by_cases hp : p = .worker w
    · subst hp
      show (({ s with row, files }.setWorker w event phase').phase w).Moves _ _
      rw [State.phase_setWorker_self]
      exact hmoves v hv
    · have hold := h.moves p v ((hothers p v hp).mp hv)
      cases p with
      | worker w' =>
        have hne : w' ≠ w := fun heq => hp (congrArg Party.worker heq)
        show (({ s with row, files }.setWorker w event phase').phase w').Moves _ _
        rw [hother w' hne]
        exact hold
      | deletion d => exact hold
  case held =>
    intro w' hhit
    by_cases hne : w' = w
    · subst hne
      rw [State.phase_setWorker_self] at hhit
      exact hheld hhit
    · rw [hother w' hne] at hhit
      obtain ⟨v, hv⟩ := h.held w' hhit
      exact ⟨v, (hothers _ v fun heq => hne (Party.worker.inj heq)).mpr hv⟩
  case updated =>
    intro d hd
    obtain ⟨v, hv⟩ := h.updated d hd
    exact ⟨v, (hothers _ v Party.noConfusion).mpr hv⟩
  case unique =>
    intro w₁ w₂ h₁ h₂
    exact h.unique w₁ w₂ (hunfinished w₁ h₁) (hunfinished w₂ h₂)
  case owned =>
    intro w' hw'
    rw [hjob]
    exact h.owned w' (hunfinished w' hw')
  case content =>
    intro w'
    by_cases hne : w' = w
    · subst hne
      rw [State.phase_setWorker_self]
      exact hcontent
    · rw [hother w' hne]
      rcases hfiles with hfiles | howns
      · show (s.phase w').Content (files key)
        rw [hfiles]
        exact h.content w'
      · rw [← hphase] at howns
        exact WorkerPhase.content_of_not_unfinished (h.not_unfinished_of_ne howns hne) _
  case leftover =>
    intro hstatus hnone
    rw [hjob] at hstatus
    have hw' : phase'.unfinished = false := by
      have := hnone w
      rwa [State.phase_setWorker_self] at this
    show files key = none
    cases hw : phase.unfinished with
    | true => exact hdone hw hw'
    | false =>
      have hsame : files key = s.files key := by
        rcases hfiles with hfiles | howns
        · exact hfiles
        · rw [hw] at howns
          cases howns
      rw [hsame]
      apply h.leftover hstatus
      intro w₁
      by_cases hne : w₁ = w
      · subst hne
        rw [hphase]
        exact hw
      · have := hnone w₁
        rwa [hother w₁ hne] at this
  case target =>
    intro d loaded hloaded
    rw [hjob]
    exact h.target d loaded hloaded
  case softDeleted =>
    intro d deletion loaded current hd
    obtain ⟨hcurrent, hgone⟩ := h.softDeleted d deletion loaded current hd
    refine ⟨hcurrent, fun hstatus => ?_⟩
    rw [hjob] at hstatus
    exact (hready hstatus).trans (hgone hstatus)
  case deleting =>
    intro d v hv hstatus
    rw [hjob] at hstatus
    obtain ⟨hdead, hgone⟩ := h.deleting d v ((hothers _ v Party.noConfusion).mp hv) hstatus
    exact ⟨hdead, (hready hstatus).trans hgone⟩
  case deleted =>
    intro hdead hstatus
    rw [hjob] at hdead hstatus
    exact (hready hstatus).trans (h.deleted hdead hstatus)
  case ready =>
    intro hlive hstatus
    rw [hjob] at hlive hstatus
    obtain ⟨w₁, output, hw₁, hfile⟩ := h.ready hlive hstatus
    have hne : w₁ ≠ w := by
      intro heq
      subst heq
      exact hended output (hphase.symm.trans hw₁)
    refine ⟨w₁, output, (hother w₁ hne).trans hw₁, ?_⟩
    show files key = some output ∨ files key = none ∧ _
    rw [hready hstatus]
    exact hfile

/-- A commit of a worker that changes the status. Before it the job is unfinished, so nothing that
is about a finished job matters. -/
theorem worker_commit (h : Inv key s) {w : Nat} {v : JobRecord}
    (hv : s.row.pending = some (.worker w, v)) (event : WorkerEvent) (phase' : WorkerPhase)
    (hunfinished : s.job.status.finished = false) (hhit : phase'.hit = false)
    (hunique : phase'.unfinished = true → ∀ w', w' ≠ w → (s.phase w').unfinished = false)
    (howned : ∀ w', (w' = w → phase'.unfinished = true) →
      (w' ≠ w → (s.phase w').unfinished = true) →
      v.job.status = .running ∨ v.job.status = .failed)
    (hcontent : phase'.Content (s.files key))
    (hleftover : v.job.status ≠ .ready → phase'.unfinished = false → s.files key = none)
    (hready : v.job.status = .ready →
      ∃ output, phase' = .ended (.finalized output) ∧ s.files key = some output) :
    Inv key ({ s with row := { committed := v } }.setWorker w event phase') := by
  have hother : ∀ w' : Nat, w' ≠ w →
      ({ s with row := { committed := v } }.setWorker w event phase').phase w' = s.phase w' :=
    fun w' hne => State.phase_setWorker_of_ne hne
  have hmove : Move key s.row.committed v := h.sound _ _ hv
  have hlive : v.job.live = true := hmove.live_of_unfinished hunfinished
  have hnotarget : ∀ d loaded, (s.deletions d).target? ≠ some loaded := by
    intro d loaded hloaded
    have hfinished := (h.target d loaded hloaded).finished
    rw [hunfinished] at hfinished
    cases hfinished
  constructor
  case wellFormed => exact hmove.wellFormed h.wellFormed
  case sound => exact fun _ _ hnone => nomatch hnone
  case moves => exact fun _ _ hnone => nomatch hnone
  case held =>
    -- Whoever else had an update that hit would hold the row.
    intro w' hw'
    by_cases hne : w' = w
    · subst hne
      rw [State.phase_setWorker_self, hhit] at hw'
      cases hw'
    · rw [hother w' hne] at hw'
      exact absurd (Party.worker.inj ((h.held w' hw').unique ⟨v, hv⟩)) hne
  case updated =>
    intro d hd
    have hparty := (h.updated d hd).unique ⟨v, hv⟩
    cases hparty
  case unique =>
    intro w₁ w₂ h₁ h₂
    by_cases hne₁ : w₁ = w
    · by_cases hne₂ : w₂ = w
      · rw [hne₁, hne₂]
      · subst hne₁
        rw [State.phase_setWorker_self] at h₁
        rw [hother w₂ hne₂, hunique h₁ w₂ hne₂] at h₂
        cases h₂
    · by_cases hne₂ : w₂ = w
      · subst hne₂
        rw [State.phase_setWorker_self] at h₂
        rw [hother w₁ hne₁, hunique h₂ w₁ hne₁] at h₁
        cases h₁
      · rw [hother w₁ hne₁] at h₁
        rw [hother w₂ hne₂] at h₂
        exact h.unique w₁ w₂ h₁ h₂
  case owned =>
    intro w' hw'
    apply howned w'
    · intro heq
      subst heq
      rwa [State.phase_setWorker_self] at hw'
    · intro hne
      rwa [hother w' hne] at hw'
  case content =>
    intro w'
    by_cases hne : w' = w
    · subst hne
      rw [State.phase_setWorker_self]
      exact hcontent
    · rw [hother w' hne]
      exact h.content w'
  case leftover =>
    intro hstatus hnone
    have hw' := hnone w
    rw [State.phase_setWorker_self] at hw'
    exact hleftover hstatus hw'
  case target => exact fun d loaded hloaded => absurd hloaded (hnotarget d loaded)
  case softDeleted =>
    intro d deletion loaded current hd
    have hloaded : (s.deletions d).target? = some loaded := by
      rw [show s.deletions d = _ from hd]
      rfl
    exact absurd hloaded (hnotarget d loaded)
  case deleting => exact fun _ _ hnone => nomatch hnone
  case deleted =>
    intro hdead
    have hdead' : v.job.live = false := hdead
    rw [hlive] at hdead'
    cases hdead'
  case ready =>
    intro _ hstatus
    obtain ⟨output, hphase', hfile⟩ := hready hstatus
    refine ⟨w, output, ?_, .inl hfile⟩
    rw [State.phase_setWorker_self]
    exact hphase'

/-- A step of a deletion that commits nothing. It changes the phase of the deletion, the lock of
the row, and the files. -/
theorem deletion_frame (h : Inv key s) {d : Nat} (row : Versioned JobRecord Party) (files : Files)
    (phase' : DeletionPhase)
    (hcommitted : row.committed = s.row.committed) (hsound : row.Sound (Move key))
    (hothers : ∀ p v, p ≠ .deletion d → (row.pending = some (p, v) ↔ s.row.pending = some (p, v)))
    (hmoves : ∀ v, row.pending = some (.deletion d, v) →
      DeletionMoves s.job.status v.job.status ∧
        (s.job.status = .ready → v.job.live = false ∧ files key = none))
    (hheld : phase' = .updated true → row.HeldBy (.deletion d))
    (htarget : ∀ loaded, phase'.target? = some loaded → Target key s.job.status loaded)
    (hsoft : ∀ deletion loaded current, phase' = .softDeleted deletion loaded current →
      (∃ byId now, current = softDeleteExportJob byId now loaded) ∧
        (s.job.status = .ready → files key = none))
    -- Only the file of a `ready` job is deleted.
    (hfiles : files key = s.files key ∨
      files key = none ∧ s.job.status = .ready ∧ phase'.removed = true)
    (hremoved : (s.deletions d).removed = true → phase'.removed = true) :
    Inv key ({ s with row, files }.setDeletion d phase') := by
  have hjob : ({ s with row, files }.setDeletion d phase').job = s.job :=
    congrArg JobRecord.job hcommitted
  have hother : ∀ d' : Nat, d' ≠ d →
      ({ s with row, files }.setDeletion d phase').deletions d' = s.deletions d' :=
    fun d' hne => State.deletions_setDeletion_of_ne hne
  -- A file that was gone is still gone.
  have hgone : s.files key = none → files key = none := by
    intro hnone
    rcases hfiles with hfiles | ⟨hfiles, -⟩
    · exact hfiles.trans hnone
    · exact hfiles
  constructor
  case wellFormed =>
    show WellFormed key row.committed
    rw [hcommitted]
    exact h.wellFormed
  case sound => exact hsound
  case moves =>
    intro p v hv
    rw [hjob]
    by_cases hp : p = .deletion d
    · subst hp
      exact (hmoves v hv).1
    · have hold := h.moves p v ((hothers p v hp).mp hv)
      cases p with
      | worker w => exact hold
      | deletion d' => exact hold
  case held =>
    intro w hhit
    obtain ⟨v, hv⟩ := h.held w hhit
    exact ⟨v, (hothers _ v Party.noConfusion).mpr hv⟩
  case updated =>
    intro d' hd'
    by_cases hne : d' = d
    · subst hne
      rw [State.deletions_setDeletion_self] at hd'
      exact hheld hd'
    · rw [hother d' hne] at hd'
      obtain ⟨v, hv⟩ := h.updated d' hd'
      exact ⟨v, (hothers _ v fun heq => hne (Party.deletion.inj heq)).mpr hv⟩
  case unique => exact h.unique
  case owned =>
    intro w hw
    rw [hjob]
    exact h.owned w hw
  case content =>
    intro w
    show (s.phase w).Content (files key)
    rcases hfiles with hfiles | ⟨-, hready, -⟩
    · rw [hfiles]
      exact h.content w
    · exact WorkerPhase.content_of_not_unfinished (h.not_unfinished_of_ready hready w) _
  case leftover =>
    intro hstatus hnone
    rw [hjob] at hstatus
    exact hgone (h.leftover hstatus hnone)
  case target =>
    intro d' loaded hloaded
    rw [hjob]
    by_cases hne : d' = d
    · subst hne
      rw [State.deletions_setDeletion_self] at hloaded
      exact htarget loaded hloaded
    · rw [hother d' hne] at hloaded
      exact h.target d' loaded hloaded
  case softDeleted =>
    intro d' deletion loaded current hd'
    rw [hjob]
    by_cases hne : d' = d
    · subst hne
      rw [State.deletions_setDeletion_self] at hd'
      exact hsoft deletion loaded current hd'
    · rw [hother d' hne] at hd'
      obtain ⟨hcurrent, hnone⟩ := h.softDeleted d' deletion loaded current hd'
      exact ⟨hcurrent, fun hstatus => hgone (hnone hstatus)⟩
  case deleting =>
    intro d' v hv hstatus
    rw [hjob] at hstatus
    by_cases hne : d' = d
    · subst hne
      exact (hmoves v hv).2 hstatus
    · have hv' := (hothers _ v fun heq => hne (Party.deletion.inj heq)).mp hv
      obtain ⟨hdead, hnone⟩ := h.deleting d' v hv' hstatus
      exact ⟨hdead, hgone hnone⟩
  case deleted =>
    intro hdead hstatus
    rw [hjob] at hdead hstatus
    exact hgone (h.deleted hdead hstatus)
  case ready =>
    intro hlive hstatus
    rw [hjob] at hlive hstatus
    obtain ⟨w, output, hw, hfile⟩ := h.ready hlive hstatus
    refine ⟨w, output, hw, ?_⟩
    show files key = some output ∨ files key = none ∧ _
    rcases hfiles with hfiles | ⟨hnone, -, hphase'⟩
    · rw [hfiles]
      rcases hfile with hfile | ⟨hfile, d', hd'⟩
      · exact .inl hfile
      · refine .inr ⟨hfile, d', ?_⟩
        by_cases hne : d' = d
        · subst hne
          rw [State.deletions_setDeletion_self]
          exact hremoved hd'
        · rw [hother d' hne]
          exact hd'
    · refine .inr ⟨hnone, d, ?_⟩
      rw [State.deletions_setDeletion_self]
      exact hphase'

/-- The commit of a deletion that holds the row. -/
theorem deletion_commit (h : Inv key s) {d : Nat} {v : JobRecord}
    (hv : s.row.pending = some (.deletion d, v)) :
    Inv key ({ s with row := { committed := v } }.setDeletion d .committed) := by
  have hother : ∀ d' : Nat, d' ≠ d →
      ({ s with row := { committed := v } }.setDeletion d .committed).deletions d'
        = s.deletions d' :=
    fun d' hne => State.deletions_setDeletion_of_ne hne
  have hmove : Move key s.row.committed v := h.sound _ _ hv
  have hstatus : DeletionMoves s.job.status v.job.status := h.moves _ _ hv
  -- A deletion makes nothing `ready`.
  have hready : v.job.status = .ready → s.job.status = .ready := by
    intro hvready
    rcases hstatus with ⟨-, heq⟩ | ⟨-, hfailed⟩
    · rw [← heq]
      exact hvready
    · rw [hvready] at hfailed
      cases hfailed
  -- What a deletion loaded is finished, and so keeps its status.
  have htarget : ∀ d' loaded,
      (({ s with row := { committed := v } }.setDeletion d .committed).deletions d').target?
          = some loaded → Target key v.job.status loaded := by
    intro d' loaded hloaded
    by_cases hne : d' = d
    · subst hne
      rw [State.deletions_setDeletion_self] at hloaded
      cases hloaded
    · rw [hother d' hne] at hloaded
      have hold := h.target d' loaded hloaded
      rcases hstatus with ⟨-, heq⟩ | ⟨hunfinished, -⟩
      · rw [heq]
        exact hold
      · have hfinished := hold.finished
        rw [hunfinished] at hfinished
        cases hfinished
  constructor
  case wellFormed => exact hmove.wellFormed h.wellFormed
  case sound => exact fun _ _ hnone => nomatch hnone
  case moves => exact fun _ _ hnone => nomatch hnone
  case held =>
    intro w hhit
    have hparty := (h.held w hhit).unique ⟨v, hv⟩
    cases hparty
  case updated =>
    intro d' hd'
    by_cases hne : d' = d
    · subst hne
      rw [State.deletions_setDeletion_self] at hd'
      cases hd'
    · rw [hother d' hne] at hd'
      exact absurd (Party.deletion.inj ((h.updated d' hd').unique ⟨v, hv⟩)) hne
  case unique => exact h.unique
  case owned =>
    intro w hw
    show v.job.status = .running ∨ v.job.status = .failed
    rcases hstatus with ⟨-, heq⟩ | ⟨-, hfailed⟩
    · rw [heq]
      exact h.owned w hw
    · exact .inr hfailed
  case content => exact h.content
  case leftover =>
    intro hvstatus hnone
    refine h.leftover (fun hold => ?_) hnone
    rcases hstatus with ⟨-, heq⟩ | ⟨hunfinished, -⟩
    · exact hvstatus (heq.trans hold)
    · rw [hold] at hunfinished
      cases hunfinished
  case target => exact htarget
  case softDeleted =>
    intro d' deletion loaded current hd'
    by_cases hne : d' = d
    · subst hne
      rw [State.deletions_setDeletion_self] at hd'
      cases hd'
    · rw [hother d' hne] at hd'
      obtain ⟨hcurrent, hnone⟩ := h.softDeleted d' deletion loaded current hd'
      exact ⟨hcurrent, fun hvready => hnone (hready hvready)⟩
  case deleting => exact fun _ _ hnone => nomatch hnone
  case deleted =>
    intro _ hvready
    exact (h.deleting d v hv (hready hvready)).2
  case ready =>
    intro hlive hvready
    have hdead := (h.deleting d v hv (hready hvready)).1
    have hlive' : v.job.live = true := hlive
    rw [hdead] at hlive'
    cases hlive'

end Inv

end RedTeaming.Exports
