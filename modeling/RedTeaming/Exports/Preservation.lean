import RedTeaming.Exports.Ownership

/-!
# `RedTeaming.Exports.Preservation`: each step keeps the invariant

The cases of a step of `runExportJob` and of `deleteExportJob`. A worker acts silently, writes or
deletes the file that it owns, updates the row, commits, or rolls back. `Inv.of_step` joins the
cases, and `Inv.of_run` is the invariant along a run.
-/

set_option autoImplicit false

namespace RedTeaming.Exports

open RedTeaming.Library

namespace Inv
variable {key : String} {s s' : State}

/-! ### Workers -/

section
variable {w : Nat} {phase : WorkerPhase}

/-- A silent action of a worker without an update that hit. -/
theorem worker_silent (h : Inv key s) (hphase : s.phase w = phase) (event : WorkerEvent)
    (phase' : WorkerPhase) (hhit : phase.hit = false) (hhit' : phase'.hit = false)
    (hclaimed : phase'.unfinished = true → phase.unfinished = true)
    (hcontent : ∀ file, phase.Content file → phase'.Content file)
    (hdone : phase.unfinished = true → phase'.unfinished = false →
      ∀ file, phase.Content file → file = none)
    (hended : ∀ output, phase ≠ .ended (.finalized output)) :
    Inv key (s.setWorker w event phase') := by
  have hfile : phase.Content (s.files key) := hphase ▸ h.content w
  have hfree : ¬ s.row.HeldBy (.worker w) := by
    apply h.not_held_of_not_hit
    rw [hphase]
    exact hhit
  exact h.worker_frame hphase s.row s.files event phase' rfl h.sound (fun _ _ _ => Iff.rfl)
    (fun v hv => absurd ⟨v, hv⟩ hfree) (fun htrue => nomatch hhit'.symm.trans htrue) hclaimed
    (.inl rfl) (hcontent _ hfile) (fun hw hw' => hdone hw hw' _ hfile) hended

/-- An action of the owner on the file of the job. -/
theorem worker_files (h : Inv key s) (hphase : s.phase w = phase) (event : WorkerEvent)
    (phase' : WorkerPhase) (files : Files) (howns : phase.unfinished = true)
    (hhit : phase.hit = false) (hhit' : phase'.hit = false) (howns' : phase'.unfinished = true)
    (hcontent : phase'.Content (files key)) :
    Inv key ({ s with files }.setWorker w event phase') := by
  have hfree : ¬ s.row.HeldBy (.worker w) := by
    apply h.not_held_of_not_hit
    rw [hphase]
    exact hhit
  exact h.worker_frame hphase s.row files event phase' rfl h.sound (fun _ _ _ => Iff.rfl)
    (fun v hv => absurd ⟨v, hv⟩ hfree) (fun htrue => nomatch hhit'.symm.trans htrue)
    (fun _ => howns) (.inr howns) hcontent (fun _ hw' => nomatch howns'.symm.trans hw')
    (fun output heq => by
      rw [heq] at howns
      cases howns)

/-- An update of a worker that hits the row. -/
theorem worker_update (h : Inv key s) (hphase : s.phase w = phase) (event : WorkerEvent)
    (phase' : WorkerPhase) {v : JobRecord} {row : Versioned JobRecord Party}
    (hrow : s.row.write (.worker w) v = some row) (hmove : Move key s.row.committed v)
    (hmoves : phase'.Moves s.job.status v.job.status)
    (hunfinished : phase'.unfinished = phase.unfinished)
    (hcontent : ∀ file, phase.Content file → phase'.Content file)
    (hended : ∀ output, phase ≠ .ended (.finalized output)) :
    Inv key ({ s with row }.setWorker w event phase') := by
  have hsound := Versioned.Sound.write hmove hrow
  obtain ⟨hnone, rfl⟩ := Versioned.write_eq_some hrow
  refine h.worker_frame hphase _ s.files event phase' rfl hsound ?_ ?_ (fun _ => ⟨v, rfl⟩)
    (fun hw => hunfinished ▸ hw) (.inl rfl) (hcontent _ (hphase ▸ h.content w)) ?_ hended
  · intro p v' hp
    rw [hnone]
    constructor
    · intro hpending
      cases hpending
      exact absurd rfl hp
    · intro hpending
      cases hpending
  · intro v' hpending
    cases hpending
    exact hmoves
  · intro hw hw'
    rw [hunfinished, hw] at hw'
    cases hw'

/-- A rollback of a worker. -/
theorem worker_rollback (h : Inv key s) (hphase : s.phase w = phase) (event : WorkerEvent)
    (phase' : WorkerPhase) (hhit' : phase'.hit = false)
    (hclaimed : phase'.unfinished = true → phase.unfinished = true)
    (hcontent : ∀ file, phase'.Content file)
    (hdone : phase.unfinished = true → phase'.unfinished = false →
      ∀ file, phase.Content file → file = none)
    (hended : ∀ output, phase ≠ .ended (.finalized output)) :
    Inv key ({ s with row := s.row.rollback (.worker w) }.setWorker w event phase') := by
  refine h.worker_frame hphase _ s.files event phase' (Versioned.committed_rollback _ _)
    (h.sound.rollback _) ?_ ?_ (fun htrue => nomatch hhit'.symm.trans htrue) hclaimed (.inl rfl)
    (hcontent _) (fun hw hw' => hdone hw hw' _ (hphase ▸ h.content w)) hended
  · intro p v hp
    rw [Versioned.pending_rollback]
    exact and_iff_left hp
  · intro v hv
    exact absurd rfl (Versioned.pending_rollback.mp hv).2

/-- A guarded update of a worker, with the phase for a hit and for a miss. -/
theorem worker_guarded {s₁ : State} (h : Inv key s) (hphase : s.phase w = phase)
    (event : WorkerEvent) (next : Bool → WorkerPhase) (version : Option JobRecord)
    (hperform : s.perform (.worker w) (.ofUpdate version) = some s₁)
    (hversion : ∀ v, version = some v →
      Move key s.row.committed v ∧ (next true).Moves s.job.status v.job.status)
    (hhit : phase.hit = false) (hmiss : (next false).hit = false)
    (hunfinished : ∀ b, (next b).unfinished = phase.unfinished)
    (hcontent : ∀ b file, phase.Content file → (next b).Content file)
    (hended : ∀ output, phase ≠ .ended (.finalized output)) :
    Inv key (s₁.setWorker w event (next version.isSome)) := by
  cases hcase : version with
  | none =>
    rw [hcase] at hperform
    cases hperform
    apply h.worker_silent hphase event _ hhit hmiss
    · intro hw
      rw [← hunfinished false]
      exact hw
    · exact hcontent false
    · intro hw hw'
      rw [← hunfinished false] at hw
      exact nomatch hw.symm.trans hw'
    · exact hended
  | some v =>
    rw [hcase] at hperform
    obtain ⟨row, hrow, rfl⟩ := Option.map_eq_some_iff.mp hperform
    obtain ⟨hmove, hmoves⟩ := hversion v hcase
    exact h.worker_update hphase event _ hrow hmove hmoves (hunfinished true)
      (hcontent true) hended

/-- The claim of a delivery. -/
theorem worker_claim {s₁ : State} (h : Inv key s) (hphase : s.phase w = .loaded)
    (hperform : s.perform (.worker w)
      (.ofUpdate ((claim s.job).map fun job => { s.row.committed with job })) = some s₁) :
    Inv key (s₁.setWorker w .claim (.claiming
      ((claim s.job).map fun job => { s.row.committed with job }).isSome)) := by
  apply h.worker_guarded hphase .claim .claiming _ hperform
  · intro v hv
    obtain ⟨job, hjob, rfl⟩ := Option.map_eq_some_iff.mp hv
    obtain ⟨-, hstatus, rfl⟩ := claim_eq_some.mp hjob
    exact ⟨.claim hjob, hstatus, rfl⟩
  · rfl
  · rfl
  · exact fun _ => rfl
  · exact fun _ _ _ => trivial
  · exact nofun

/-- The finalize of a saved file. -/
theorem worker_finalize {s₁ : State} {t : Time} {noted : Bool} {output : List String}
    {event : WorkerEvent} (h : Inv key s) (hphase : s.phase w = .saved output)
    (hperform : s.perform (.worker w) (.ofUpdate ((finalize key t s.job).map
      (announce noted true none s.row.committed))) = some s₁) :
    Inv key (s₁.setWorker w event (.finalizing output
      ((finalize key t s.job).map (announce noted true none s.row.committed)).isSome)) := by
  apply h.worker_guarded hphase event (.finalizing output) _ hperform
  · intro v hv
    obtain ⟨job, hjob, rfl⟩ := Option.map_eq_some_iff.mp hv
    obtain ⟨-, hstatus, rfl⟩ := finalize_eq_some.mp hjob
    exact ⟨.finalize noted hjob, hstatus, rfl⟩
  · rfl
  · rfl
  · exact fun _ => rfl
  · exact fun _ _ hfile => hfile
  · exact nofun

/-- The reset of the job for a retry. -/
theorem worker_requeue {s₁ : State} {error : RunError} (h : Inv key s)
    (hphase : s.phase w = .cleaned error)
    (hperform : s.perform (.worker w)
      (.ofUpdate ((requeue s.job).map fun job => { s.row.committed with job })) = some s₁) :
    Inv key (s₁.setWorker w .requeue (.requeueing error
      ((requeue s.job).map fun job => { s.row.committed with job }).isSome)) := by
  apply h.worker_guarded hphase .requeue (.requeueing error) _ hperform
  · intro v hv
    obtain ⟨job, hjob, rfl⟩ := Option.map_eq_some_iff.mp hv
    obtain ⟨-, hstatus, rfl⟩ := requeue_eq_some.mp hjob
    exact ⟨.requeue hjob, hstatus, rfl⟩
  · rfl
  · rfl
  · exact fun _ => rfl
  · exact fun _ _ hfile => hfile
  · exact nofun

/-- The record of a failed generation. -/
theorem worker_terminate {s₁ : State} {error : RunError} {message : String} {t : Time}
    {noted : Bool} {event : WorkerEvent} (h : Inv key s) (hphase : s.phase w = .cleaned error)
    (hperform : s.perform (.worker w) (.ofUpdate ((terminate message t s.job).map
      (announce noted false (some message) s.row.committed))) = some s₁) :
    Inv key (s₁.setWorker w event (.terminating ((terminate message t s.job).map
      (announce noted false (some message) s.row.committed)).isSome)) := by
  apply h.worker_guarded hphase event .terminating _ hperform
  · intro v hv
    obtain ⟨job, hjob, rfl⟩ := Option.map_eq_some_iff.mp hv
    obtain ⟨-, hstatus, rfl⟩ := terminate_eq_some.mp hjob
    exact ⟨.terminate noted hjob, hstatus, rfl⟩
  · rfl
  · rfl
  · exact fun _ => rfl
  · exact fun _ _ hfile => hfile
  · exact nofun

/-- A commit after an update that did not hit changes nothing. -/
theorem worker_commit_miss (h : Inv key s) (hphase : s.phase w = phase) (phase' : WorkerPhase)
    (hhit : phase.hit = false) (hhit' : phase'.hit = false)
    (hclaimed : phase'.unfinished = true → phase.unfinished = true)
    (hcontent : ∀ file, phase.Content file → phase'.Content file)
    (hdone : phase.unfinished = true → phase'.unfinished = false →
      ∀ file, phase.Content file → file = none)
    (hended : ∀ output, phase ≠ .ended (.finalized output)) :
    Inv key ({ s with row := s.row.commit (.worker w) }.setWorker w .commit phase') := by
  have hfree : ¬ s.row.HeldBy (.worker w) := by
    apply h.not_held_of_not_hit
    rw [hphase]
    exact hhit
  rw [Versioned.commit_of_not_held hfree]
  exact h.worker_silent hphase .commit phase' hhit hhit' hclaimed hcontent hdone hended

/-- The version that a worker commits after an update that hit. -/
theorem worker_commit_hit (h : Inv key s) (hphase : s.phase w = phase) (hhit : phase.hit = true) :
    ∃ v, s.row.pending = some (.worker w, v) ∧ s.row.commit (.worker w) = { committed := v } ∧
      phase.Moves s.job.status v.job.status := by
  rw [← hphase] at hhit
  obtain ⟨v, hv⟩ := h.held w hhit
  have hmoves := h.moves _ v hv
  exact ⟨v, hv, Versioned.commit_of_pending hv, hphase ▸ hmoves⟩

/-- The commit of a claim: the worker is the only one that owns the job. -/
theorem worker_commit_claim (h : Inv key s) (hphase : s.phase w = .claiming true) :
    Inv key ({ s with row := s.row.commit (.worker w) }.setWorker w .commit .generating) := by
  obtain ⟨v, hv, hcommit, hpending, hrunning⟩ := h.worker_commit_hit hphase rfl
  rw [hcommit]
  apply h.worker_commit hv
  · rw [hpending]
    rfl
  · rfl
  · exact fun _ w' _ => h.not_unfinished_of_pending hpending w'
  · exact fun _ _ _ => .inl hrunning
  · trivial
  · intro _ hdone
    cases hdone
  · intro hready
    rw [hrunning] at hready
    cases hready

/-- The commit of a finalize: the worker is done, and its file stays. -/
theorem worker_commit_finalize {output : List String} (h : Inv key s)
    (hphase : s.phase w = .finalizing output true) :
    Inv key ({ s with row := s.row.commit (.worker w) }.setWorker w .commit
      (.ended (.finalized output))) := by
  obtain ⟨v, hv, hcommit, hrunning, hready⟩ := h.worker_commit_hit hphase rfl
  have howns : (s.phase w).unfinished = true := by
    rw [hphase]
    rfl
  have hfile : (s.phase w).Content (s.files key) := h.content w
  rw [hphase] at hfile
  rw [hcommit]
  apply h.worker_commit hv
  · rw [hrunning]
    rfl
  · rfl
  · exact nofun
  · intro w' heq hne
    by_cases hw' : w' = w
    · cases heq hw'
    · have hnot := h.not_unfinished_of_ne howns hw'
      rw [hne hw'] at hnot
      cases hnot
  · trivial
  · exact fun hnot _ => absurd hready hnot
  · exact fun _ => ⟨output, rfl, hfile⟩

/-- The commit of a worker that deleted its file and ends without a `ready` job. -/
theorem worker_commit_cleaned (h : Inv key s) {outcome : Outcome} (hphase : s.phase w = phase)
    (hhit : phase.hit = true) (howns : phase.unfinished = true)
    (hcontent : ∀ file, phase.Content file → file = none)
    (hmoves : ∀ a b, phase.Moves a b → a = .running ∧ b ≠ .ready) :
    Inv key ({ s with row := s.row.commit (.worker w) }.setWorker w .commit
      (.ended outcome)) := by
  obtain ⟨v, hv, hcommit, hstatus⟩ := h.worker_commit_hit hphase hhit
  obtain ⟨hrunning, hnot⟩ := hmoves _ _ hstatus
  rw [← hphase] at howns
  have hfile : phase.Content (s.files key) := hphase ▸ h.content w
  rw [hcommit]
  apply h.worker_commit hv
  · rw [hrunning]
    rfl
  · rfl
  · exact nofun
  · intro w' heq hne
    by_cases hw' : w' = w
    · cases heq hw'
    · have hothers := h.not_unfinished_of_ne howns hw'
      rw [hne hw'] at hothers
      cases hothers
  · trivial
  · exact fun _ _ => hcontent _ hfile
  · exact fun hready => absurd hready hnot

end

/-- A step of a worker keeps the invariant. -/
theorem worker_step {settings : Settings} {w : Nat} {event : WorkerEvent} (h : Inv key s)
    (hstep : step settings s (.worker w event) = some s') : Inv key s' := by
  obtain ⟨⟨phase', effect⟩, hnext, hperformed⟩ := Option.bind_eq_some_iff.mp hstep
  obtain ⟨s₁, hperform, rfl⟩ := Option.map_eq_some_iff.mp hperformed
  have hkey : fileKey s.row.committed.job = key := h.wellFormed.key_eq
  show Inv key (s₁.setWorker w event phase')
  cases event with
  | deliver retries =>
    obtain ⟨hidle, hnext⟩ := Option.ite_none_right_eq_some.mp hnext
    cases hnext
    cases hperform
    exact h.worker_silent hidle _ _ rfl rfl nofun (fun _ _ => trivial) nofun nofun
  | load =>
    simp only [runExportJob] at hnext
    split at hnext
    · rename_i hphase
      split at hnext <;> cases hnext <;> cases hperform
      · exact h.worker_silent hphase _ _ rfl rfl nofun (fun _ _ => trivial) nofun nofun
      · exact h.worker_silent hphase _ _ rfl rfl nofun (fun _ _ => trivial) nofun nofun
    · cases hnext
  | claim =>
    simp only [runExportJob] at hnext
    split at hnext
    · rename_i hphase
      cases hnext
      exact h.worker_claim hphase hperform
    · cases hnext
  | openFile =>
    simp only [runExportJob, hkey] at hnext
    split at hnext
    · rename_i hphase _
      cases hnext
      cases hperform
      exact h.worker_files hphase _ _ _ rfl rfl rfl rfl (Files.put_self _ _ _)
    · rename_i hphase _
      cases hnext
      cases hperform
      exact h.worker_silent hphase _ _ rfl rfl (fun _ => rfl) (fun _ _ => trivial) nofun nofun
    · cases hnext
  | write chunk =>
    simp only [runExportJob, hkey] at hnext
    split at hnext
    · rename_i written hphase _
      cases hnext
      cases hperform
      have hfile : (s.phase w).Content (s.files key) := h.content w
      rw [show s.phase w = _ from hphase] at hfile
      have hwritten : s.files key = some written := hfile
      apply h.worker_files hphase _ _ _ rfl rfl rfl rfl
      show s.files.append key chunk key = some (written ++ [chunk])
      rw [Files.append_self, hwritten]
      rfl
    · rename_i written hphase _
      cases hnext
      cases hperform
      exact h.worker_silent hphase _ _ rfl rfl (fun _ => rfl) (fun _ _ => trivial) nofun nofun
    · cases hnext
  | upload =>
    simp only [runExportJob, hkey] at hnext
    split at hnext
    · rename_i written hphase
      cases hnext
      cases hperform
      exact h.worker_files hphase _ _ _ rfl rfl rfl rfl (Files.put_self _ _ _)
    · cases hnext
  | close =>
    simp only [runExportJob] at hnext
    split at hnext
    · rename_i written hphase
      cases hnext
      cases hperform
      exact h.worker_silent hphase _ _ rfl rfl (fun _ => rfl) (fun _ hfile => hfile) nofun nofun
    · cases hnext
  | finalize now noted =>
    simp only [runExportJob, hkey] at hnext
    split at hnext
    · rename_i output hphase
      cases hnext
      exact h.worker_finalize hphase hperform
    · cases hnext
  | deleteFile =>
    simp only [runExportJob, hkey] at hnext
    split at hnext
    · rename_i hphase
      cases hnext
      cases hperform
      exact h.worker_files hphase _ _ _ rfl rfl rfl rfl (Files.delete_self _ _)
    · rename_i error hphase
      cases hnext
      cases hperform
      exact h.worker_files hphase _ _ _ rfl rfl rfl rfl (Files.delete_self _ _)
    · cases hnext
  | refresh =>
    obtain ⟨hphase, hnext⟩ := Option.ite_none_right_eq_some.mp hnext
    cases hnext
    cases hperform
    exact h.worker_silent hphase _ _ rfl rfl nofun (fun _ _ => trivial) (fun _ _ _ hfile => hfile)
      nofun
  | requeue =>
    simp only [runExportJob] at hnext
    split at hnext
    · rename_i error hphase
      split at hnext
      · cases hnext
        exact h.worker_requeue hphase hperform
      · cases hnext
    · cases hnext
  | terminate now noted =>
    simp only [runExportJob] at hnext
    split at hnext
    · rename_i error hphase
      split at hnext
      · cases hnext
      · cases hnext
        exact h.worker_terminate hphase hperform
    · cases hnext
  | commit =>
    simp only [runExportJob] at hnext
    split at hnext
    · rename_i hphase
      cases hnext
      cases hperform
      exact h.worker_commit_claim hphase
    · rename_i hphase
      cases hnext
      cases hperform
      exact h.worker_commit_miss hphase _ rfl rfl nofun (fun _ _ => trivial) nofun nofun
    · rename_i output hphase
      cases hnext
      cases hperform
      exact h.worker_commit_finalize hphase
    · rename_i output hphase
      cases hnext
      cases hperform
      exact h.worker_commit_miss hphase _ rfl rfl (fun _ => rfl) (fun _ _ => trivial) nofun nofun
    · rename_i error hphase
      cases hnext
      cases hperform
      apply h.worker_commit_cleaned hphase rfl rfl (fun _ hfile => hfile)
      rintro a b ⟨ha, rfl⟩
      exact ⟨ha, nofun⟩
    · rename_i error hphase
      cases hnext
      cases hperform
      exact h.worker_commit_miss hphase _ rfl rfl nofun (fun _ _ => trivial)
        (fun _ _ _ hfile => hfile) nofun
    · rename_i terminated hphase
      cases hnext
      cases hperform
      cases terminated with
      | true =>
        apply h.worker_commit_cleaned hphase rfl rfl (fun _ hfile => hfile)
        rintro a b ⟨ha, rfl⟩
        exact ⟨ha, nofun⟩
      | false =>
        exact h.worker_commit_miss hphase _ rfl rfl nofun (fun _ _ => trivial)
          (fun _ _ _ hfile => hfile) nofun
    · cases hnext
  | raise error =>
    obtain ⟨phase₁, hraise, heq⟩ := Option.map_eq_some_iff.mp hnext
    cases heq
    cases hperform
    cases hphase : s.phase w
    all_goals
      rw [show (s.workers w).phase = _ from hphase] at hraise
      cases hraise
    all_goals
      apply h.worker_rollback hphase _ _ rfl
      · first | exact fun _ => rfl | exact nofun
      · exact fun _ => trivial
      · first | exact fun _ _ _ hfile => hfile | exact nofun
      · exact nofun
  | die =>
    obtain ⟨phase₁, hdeath, heq⟩ := Option.map_eq_some_iff.mp hnext
    cases heq
    cases hperform
    cases hphase : s.phase w
    all_goals
      rw [show (s.workers w).phase = _ from hphase] at hdeath
      cases hdeath
    all_goals
      apply h.worker_rollback hphase _ _ rfl
      · exact id
      · exact fun _ => trivial
      · exact nofun
      · exact nofun

/-! ### Deletions -/

section
variable {d : Nat}

/-- A step of a deletion that leaves the row and the files. -/
theorem deletion_silent (h : Inv key s) (phase' : DeletionPhase)
    (hheld : phase' = .updated true → s.row.HeldBy (.deletion d))
    (htarget : ∀ loaded, phase'.target? = some loaded → Target key s.job.status loaded)
    (hsoft : ∀ deletion loaded current, phase' = .softDeleted deletion loaded current →
      (∃ byId now, current = softDeleteExportJob byId now loaded) ∧
        (s.job.status = .ready → s.files key = none))
    (hremoved : (s.deletions d).removed = true → phase'.removed = true) :
    Inv key (s.setDeletion d phase') :=
  h.deletion_frame s.row s.files phase' rfl h.sound (fun _ _ _ => Iff.rfl)
    (fun v hv => ⟨h.moves _ v hv, h.deleting d v hv⟩) hheld htarget hsoft (.inl rfl) hremoved

/-- A step of a deletion into a phase without a loaded row. -/
theorem deletion_plain (h : Inv key s) (phase' : DeletionPhase) (htarget : phase'.target? = none)
    (hheld : phase' = .updated true → s.row.HeldBy (.deletion d))
    (hremoved : (s.deletions d).removed = true → phase'.removed = true) :
    Inv key (s.setDeletion d phase') := by
  apply h.deletion_silent phase' hheld
  · intro loaded hloaded
    rw [htarget] at hloaded
    cases hloaded
  · intro deletion loaded current heq
    exact absurd heq (DeletionPhase.ne_softDeleted htarget deletion loaded current)
  · exact hremoved

/-- What a deletion selects, it may rely on. -/
theorem target_of_selected (h : Inv key s) (hlive : s.job.live = true)
    (hfinished : s.job.status.finished = true) : Target key s.job.status s.job where
  live := hlive
  status_eq := rfl
  finished := hfinished
  fileRef := h.wellFormed.fileRef
  ready := h.wellFormed.live_ready hlive

/-- The expiry sweep selects finished jobs only. -/
theorem target_of_isExpired (h : Inv key s) {now : Time} (hexpired : isExpired now s.job = true) :
    Target key s.job.status s.job := by
  obtain ⟨hlive, hexpires⟩ := Bool.and_eq_true_iff.mp hexpired
  apply h.target_of_selected hlive
  rw [show s.job.status.finished = _ from h.wellFormed.expires.symm]
  obtain ⟨t, ht, -⟩ := (Option.any_eq_true _ _).mp hexpires
  exact Option.isSome_iff_exists.mpr ⟨t, ht⟩

/-- The endpoint lets a request through to a live finished job only. -/
theorem target_of_getDeletable (h : Inv key s) {caller : UUID} {canManage : Bool}
    {job : ExportJob} (hjob : getDeletable s.job caller canManage = .ok job) :
    Target key s.job.status job := by
  obtain ⟨_, hlive, hrest⟩ := bind_eq_ok.mp hjob
  obtain ⟨_, hfinished, heq⟩ := bind_eq_ok.mp hrest
  cases heq
  exact h.target_of_selected (Bool.and_eq_true_iff.mp (check_eq_ok.mp hlive)).1
    (check_eq_ok.mp hfinished)

/-- `soft_delete_export_job` deletes the file of a `ready` job, and its own key only. -/
theorem deletion_softDelete {s₁ : State} (h : Inv key s) {deletion : Deletion} {job : ExportJob}
    {now : Time} (hphase : s.deletions d = .selected deletion (some job))
    (hperform : s.perform (.deletion d) (job.fileRef.elim .silent .delete) = some s₁) :
    Inv key (s₁.setDeletion d
      (.softDeleted deletion job (softDeleteExportJob deletion.byId now job))) := by
  have htarget : Target key s.job.status job := by
    apply h.target d
    rw [hphase]
    rfl
  have hbefore : (s.deletions d).removed ≠ true := by
    rw [hphase]
    exact Bool.false_ne_true
  cases hfile : job.fileRef with
  | none =>
    rw [hfile] at hperform
    cases hperform
    apply h.deletion_silent
    · exact nofun
    · intro loaded hloaded
      cases hloaded
      exact htarget
    · intro deletion' loaded current heq
      cases heq
      refine ⟨⟨_, _, rfl⟩, fun hready => ?_⟩
      -- A `ready` job would have been loaded with its file.
      have hsome := htarget.ready hready
      rw [hfile] at hsome
      cases hsome
    · exact fun hremoved => absurd hremoved hbefore
  | some ref =>
    rw [hfile] at hperform
    cases hperform
    obtain ⟨hready, rfl⟩ := htarget.fileRef ref hfile
    apply h.deletion_frame s.row (s.files.delete ref)
      (.softDeleted deletion job (softDeleteExportJob deletion.byId now job)) rfl h.sound
      (fun _ _ _ => Iff.rfl)
    · intro v hv
      obtain ⟨hdead, -⟩ := h.deleting d v hv hready
      exact ⟨h.moves _ v hv, fun _ => ⟨hdead, Files.delete_self _ _⟩⟩
    · exact nofun
    · intro loaded hloaded
      cases hloaded
      exact htarget
    · intro deletion' loaded current heq
      cases heq
      exact ⟨⟨_, _, rfl⟩, fun _ => Files.delete_self _ _⟩
    · refine .inr ⟨Files.delete_self _ _, hready, ?_⟩
      show job.fileRef.isSome = true
      rw [hfile]
      rfl
    · exact fun hremoved => absurd hremoved hbefore

/-- The stuck sweep passes over a deleted job. -/
theorem stuckSweep_of_deleted {settings : Settings} {now : Time} {noted : Bool} {r : JobRecord}
    (hdead : r.job.live = false) : stuckSweep settings now noted r = none := by
  rw [stuckSweep, Option.map_eq_none_iff, failStuck, liveUpdate, hdead]
  rfl

/-- The updates of a deletion without a target: the stuck sweep. -/
theorem deletionUpdates_none {settings : Settings} {noted : Bool} {r v : JobRecord}
    {deletion : Deletion} (hv : deletionUpdates settings noted r deletion none = some v) :
    Move key r v ∧ r.job.status.finished = false ∧ v.job.status = .failed := by
  cases deletion with
  | reap now =>
    obtain ⟨job, hjob, rfl⟩ := Option.map_eq_some_iff.mp hv
    obtain ⟨-, hunfinished, rfl⟩ := failStuck_eq_some hjob
    exact ⟨.failStuck noted hjob, hunfinished, rfl⟩
  | request caller canManage => cases hv

/-- The updates of a deletion with a target: the flush, after which the stuck sweep finds
nothing. -/
theorem deletionUpdates_some (settings : Settings) (noted : Bool) (r : JobRecord)
    (deletion : Deletion) {loaded : ExportJob} {byId : Option UUID} {now : Time}
    (hlive : loaded.live = true) :
    deletionUpdates settings noted r deletion
        (some (loaded, softDeleteExportJob byId now loaded)) =
      some { r with job := flushJob loaded (softDeleteExportJob byId now loaded) r.job } := by
  cases deletion with
  | request caller canManage => rfl
  | reap t =>
    have hdead : (flushJob loaded (softDeleteExportJob byId now loaded) r.job).live = false := by
      show Option.isNone _ = false
      rw [deletedAt_flushJob _ _ _ hlive]
      rfl
    simp only [deletionUpdates]
    rw [stuckSweep_of_deleted hdead, Option.getD_none]

/-- An update of a deletion that hits the row. -/
theorem deletion_update (h : Inv key s) (phase' : DeletionPhase) {v : JobRecord}
    {row : Versioned JobRecord Party} (hrow : s.row.write (.deletion d) v = some row)
    (hmove : Move key s.row.committed v) (hmoves : DeletionMoves s.job.status v.job.status)
    (hready : s.job.status = .ready → v.job.live = false ∧ s.files key = none)
    (htarget : phase'.target? = none)
    (hremoved : (s.deletions d).removed = true → phase'.removed = true) :
    Inv key ({ s with row }.setDeletion d phase') := by
  have hsound := Versioned.Sound.write hmove hrow
  obtain ⟨hnone, rfl⟩ := Versioned.write_eq_some hrow
  apply h.deletion_frame { s.row with pending := some (.deletion d, v) } s.files phase' rfl hsound
  · intro p v' hp
    rw [hnone]
    constructor
    · intro hpending
      cases hpending
      exact absurd rfl hp
    · intro hpending
      cases hpending
  · intro v' hpending
    cases hpending
    exact ⟨hmoves, hready⟩
  · exact fun _ => ⟨v, rfl⟩
  · intro loaded hloaded
    rw [htarget] at hloaded
    cases hloaded
  · intro deletion loaded current heq
    exact absurd heq (DeletionPhase.ne_softDeleted htarget deletion loaded current)
  · exact .inl rfl
  · exact hremoved

/-- A rollback of a deletion. What it deleted stays deleted. -/
theorem deletion_rollback (h : Inv key s) (removed : Bool)
    (hremoved : (s.deletions d).removed = removed) :
    Inv key ({ s with row := s.row.rollback (.deletion d) }.setDeletion d (.lost removed)) := by
  apply h.deletion_frame (s.row.rollback (.deletion d)) s.files (.lost removed)
    (Versioned.committed_rollback _ _) (h.sound.rollback _)
  · intro p v hp
    rw [Versioned.pending_rollback]
    exact and_iff_left hp
  · intro v hv
    exact absurd rfl (Versioned.pending_rollback.mp hv).2
  · exact DeletionPhase.noConfusion
  · intro _ hloaded
    cases hloaded
  · intro _ _ _ heq
    cases heq
  · exact .inl rfl
  · exact fun htrue => hremoved.symm.trans htrue

end

/-- A step of a deletion keeps the invariant. -/
theorem deletion_step {settings : Settings} {d : Nat} {event : DeletionEvent} (h : Inv key s)
    (hstep : step settings s (.deletion d event) = some s') : Inv key s' := by
  obtain ⟨⟨phase', effect⟩, hnext, hperformed⟩ := Option.bind_eq_some_iff.mp hstep
  obtain ⟨s₁, hperform, rfl⟩ := Option.map_eq_some_iff.mp hperformed
  show Inv key (s₁.setDeletion d phase')
  cases event with
  | begin deletion =>
    obtain ⟨hidle, hnext⟩ := Option.ite_none_right_eq_some.mp hnext
    cases hnext
    cases hperform
    apply h.deletion_plain
    · rfl
    · exact DeletionPhase.noConfusion
    · rw [hidle]
      exact fun hremoved => hremoved
  | select =>
    simp only [deleteExportJob] at hnext
    split at hnext
    · rename_i now hphase
      cases hnext
      cases hperform
      apply h.deletion_silent
      · exact DeletionPhase.noConfusion
      · intro loaded hloaded
        obtain ⟨hexpired, heq⟩ := Option.ite_none_right_eq_some.mp hloaded
        cases heq
        exact h.target_of_isExpired hexpired
      · intro _ _ _ heq
        cases heq
      · rw [hphase]
        exact fun hremoved => hremoved
    · rename_i caller canManage hphase
      split at hnext
      · rename_i job hjob
        cases hnext
        cases hperform
        apply h.deletion_silent
        · exact DeletionPhase.noConfusion
        · intro loaded hloaded
          cases hloaded
          exact h.target_of_getDeletable hjob
        · intro _ _ _ heq
          cases heq
        · rw [hphase]
          exact fun hremoved => hremoved
      · cases hnext
        cases hperform
        apply h.deletion_plain
        · rfl
        · exact DeletionPhase.noConfusion
        · rw [hphase]
          exact fun hremoved => hremoved
    · cases hnext
  | softDelete now =>
    simp only [deleteExportJob] at hnext
    split at hnext
    · rename_i deletion job hphase
      cases hnext
      exact h.deletion_softDelete hphase hperform
    · cases hnext
  | update noted =>
    simp only [deleteExportJob] at hnext
    split at hnext
    · rename_i deletion hphase
      cases hnext
      have hbefore : (s.deletions d).removed ≠ true := by
        rw [hphase]
        exact Bool.false_ne_true
      cases hversion : deletionUpdates settings noted s.row.committed deletion none with
      | none =>
        rw [hversion] at hperform
        cases hperform
        apply h.deletion_plain
        · rfl
        · intro heq
          cases heq
        · exact fun hremoved => absurd hremoved hbefore
      | some v =>
        rw [hversion] at hperform
        obtain ⟨row, hrow, rfl⟩ := Option.map_eq_some_iff.mp hperform
        obtain ⟨hmove, hunfinished, hfailed⟩ := deletionUpdates_none hversion
        apply h.deletion_update _ hrow hmove (.inr ⟨hunfinished, hfailed⟩)
        · intro hready
          rw [show s.row.committed.job.status = _ from hready] at hunfinished
          cases hunfinished
        · rfl
        · exact fun hremoved => absurd hremoved hbefore
    · rename_i deletion loaded current hphase
      cases hnext
      obtain ⟨⟨byId, now, rfl⟩, hgone⟩ := h.softDeleted d deletion loaded current hphase
      have htarget : Target key s.job.status loaded := by
        apply h.target d
        rw [hphase]
        rfl
      rw [deletionUpdates_some settings noted s.row.committed deletion htarget.live] at hperform
      obtain ⟨row, hrow, rfl⟩ := Option.map_eq_some_iff.mp hperform
      apply h.deletion_update _ hrow (.softDelete byId now htarget.live htarget.finished)
        (.inl ⟨htarget.finished, rfl⟩)
      · intro hready
        refine ⟨?_, hgone hready⟩
        show Option.isNone _ = false
        rw [deletedAt_flushJob _ _ _ htarget.live]
        rfl
      · rfl
      · rw [hphase]
        exact fun hremoved => hremoved
    · cases hnext
  | commit =>
    simp only [deleteExportJob] at hnext
    split at hnext
    · rename_i removed hphase
      cases hnext
      cases hperform
      by_cases hheld : s.row.HeldBy (.deletion d)
      · obtain ⟨v, hv⟩ := hheld
        rw [Versioned.commit_of_pending hv]
        exact h.deletion_commit hv
      · rw [Versioned.commit_of_not_held hheld]
        apply h.deletion_plain
        · rfl
        · exact DeletionPhase.noConfusion
        · intro hremoved
          rw [hphase] at hremoved
          have htrue : removed = true := hremoved
          exact absurd (h.updated d (hphase.trans (congrArg _ htrue))) hheld
    · cases hnext
  | fail =>
    simp only [deleteExportJob] at hnext
    split at hnext
    all_goals first | (cases hnext; done) | skip
    all_goals
      rename_i hphase
      cases hnext
      cases hperform
      apply h.deletion_rollback
      rw [hphase]
      rfl

/-- Each step keeps the invariant. -/
theorem of_step {settings : Settings} {label : Label} (h : Inv key s)
    (hstep : step settings s label = some s') : Inv key s' := by
  cases label with
  | worker w event => exact h.worker_step hstep
  | deletion d event => exact h.deletion_step hstep

/-- The invariant along a run. -/
theorem of_run {settings : Settings} {ls : List Label} (h : Inv key s)
    (hrun : run (step settings) s ls = some s') : Inv key s' :=
  run_invariant (fun _ _ _ => Inv.of_step) h hrun

end Inv

end RedTeaming.Exports
