import RedTeaming.Exports.Jobs

/-!
# `RedTeaming.Exports.Lifecycle`: what a committed transaction may do to a job

The life of a job, stated without its workers. `Move key r r'` lists the six things that one
committed transaction can do to a job and to its announcements: a claim, a finalize, a reset for a
retry, a failure, a stuck job failed from outside, and a soft delete. At most the three that
finish a job announce it, in the same transaction.

`WellFormed key r` holds of a fresh job, and each move keeps it (`Move.wellFormed`): `expires_at`
is set exactly in `ready` and `failed`, `file_ref` is set in a live `ready` job, only a finished
job can be deleted, and there is at most one announcement. A finished job keeps its status
(`Move.status_of_finished`).
-/

set_option autoImplicit false

namespace RedTeaming.Exports

/-- What `emit_export_completion` records about the end of a job. -/
structure Announcement where
  jobId : UUID
  requestedById : UUID
  evaluationId : Option UUID
  evaluationGroupId : Option UUID
  template : String
  exportFormat : String
  createdAt : Time
  succeeded : Bool
  error : Option String := none
deriving DecidableEq

/-- What one transaction reads and writes of a job: its row, and the announcements about it. -/
structure JobRecord where
  job : ExportJob
  announcements : List Announcement := []
deriving DecidableEq

/-- The announcement of a job's end. -/
def announcementOf (job : ExportJob) (succeeded : Bool)
    (error : Option String) : Announcement where
  jobId := job.id
  requestedById := job.requestedById
  evaluationId := job.evaluationId
  evaluationGroupId := job.evaluationGroupId
  template := job.template
  exportFormat := job.format
  createdAt := job.createdAt
  succeeded := succeeded
  error := error

/-- `_announce`, with the row as the transaction updated it. It is best effort: a failure leaves
its savepoint without an announcement (`noted` is false), and does not undo the update. -/
def announce (noted succeeded : Bool) (error : Option String) (r : JobRecord) (job : ExportJob) :
    JobRecord where
  job := job
  announcements :=
    if noted then r.announcements ++ [announcementOf job succeeded error] else r.announcements

@[simp] theorem announce_job (noted succeeded : Bool) (error : Option String) (r : JobRecord)
    (job : ExportJob) : (announce noted succeeded error r job).job = job := rfl

/-- An announcement adds at most one entry. -/
theorem length_announce_le (noted succeeded : Bool) (error : Option String) (r : JobRecord)
    (job : ExportJob) :
    (announce noted succeeded error r job).announcements.length ≤ r.announcements.length + 1 := by
  show (if noted then _ else _ : List Announcement).length ≤ _
  split
  · exact Nat.le_of_eq (List.length_append.trans rfl)
  · exact Nat.le_succ _

/-- What one committed transaction does to a job whose file has the key `key`. -/
inductive Move (key : String) : JobRecord → JobRecord → Prop
  | claim {r : JobRecord} {job : ExportJob} (h : claim r.job = some job) :
      Move key r { r with job }
  | finalize {r : JobRecord} {job : ExportJob} {t : Time} (noted : Bool)
      (h : finalize key t r.job = some job) : Move key r (announce noted true none r job)
  | requeue {r : JobRecord} {job : ExportJob} (h : requeue r.job = some job) :
      Move key r { r with job }
  | terminate {r : JobRecord} {job : ExportJob} {message : String} {t : Time} (noted : Bool)
      (h : terminate message t r.job = some job) :
      Move key r (announce noted false (some message) r job)
  | failStuck {r : JobRecord} {job : ExportJob} {cutoff : Time} {message : String} {t : Time}
      (noted : Bool) (h : failStuck cutoff message t r.job = some job) :
      Move key r (announce noted false (some message) r job)
  | softDelete {r : JobRecord} {loaded : ExportJob} (byId : Option UUID) (now : Time)
      (hlive : loaded.live = true) (hfinished : r.job.status.finished = true) :
      Move key r
        { r with job := flushJob loaded (softDeleteExportJob byId now loaded) r.job }

/-- What holds of each committed version of a job whose file has the key `key`. -/
structure WellFormed (key : String) (r : JobRecord) : Prop where
  key_eq : fileKey r.job = key
  expires : r.job.expiresAt.isSome = r.job.status.finished
  live_ready : r.job.live = true → r.job.status = .ready → r.job.fileRef = some key
  fileRef : ∀ ref, r.job.fileRef = some ref → r.job.status = .ready ∧ ref = key
  deleted : r.job.live = false → r.job.status.finished = true
  announced : r.announcements.length ≤ 1
  unannounced : r.job.status.finished = false → r.announcements = []

/-- A fresh job is well formed. -/
theorem wellFormed_createExportJob (id : UUID) (createdAt : Time) (template exportFormat : String)
    (requestedById : UUID) (evaluationId evaluationGroupId : Option UUID) :
    let job := createExportJob id createdAt template exportFormat requestedById evaluationId
      evaluationGroupId
    WellFormed (fileKey job) { job } where
  key_eq := rfl
  expires := rfl
  live_ready _ h := nomatch h
  fileRef _ h := nomatch h
  deleted h := nomatch h
  announced := Nat.zero_le 1
  unannounced _ := rfl

namespace WellFormed
variable {key : String} {r : JobRecord}

/-- A running job is not deleted, and nothing is announced about it. -/
theorem of_running (h : WellFormed key r) (hrunning : r.job.status = .running) :
    r.job.expiresAt = none ∧ r.job.fileRef = none ∧ r.announcements = [] := by
  have hunfinished : r.job.status.finished = false := by
    rw [hrunning]
    rfl
  have hexpires : r.job.expiresAt = none := by
    rw [← Option.not_isSome_iff_eq_none, h.expires, hunfinished]
    exact Bool.false_ne_true
  have hfile : r.job.fileRef = none := by
    rw [Option.eq_none_iff_forall_ne_some]
    intro ref href
    have hready := (h.fileRef ref href).1
    rw [hrunning] at hready
    cases hready
  exact ⟨hexpires, hfile, h.unannounced hunfinished⟩

/-- A job that is failed with a message, from an unfinished status. -/
theorem fail (h : WellFormed key r) (hunfinished : r.job.status.finished = false)
    (noted : Bool) (message : String) (t : Time) :
    WellFormed key (announce noted false (some message) r
      { r.job with status := .failed, error := some message, expiresAt := some t }) where
  key_eq := h.key_eq
  expires := rfl
  live_ready _ hready := nomatch hready
  fileRef ref href := by
    have hready := (h.fileRef ref href).1
    rw [hready] at hunfinished
    cases hunfinished
  deleted _ := rfl
  announced := by
    have hlength := length_announce_le noted false (some message) r
      { r.job with status := .failed, error := some message, expiresAt := some t }
    rw [h.unannounced hunfinished] at hlength
    exact hlength
  unannounced hstatus := nomatch hstatus

end WellFormed

namespace Move
variable {key : String} {r r' : JobRecord}

/-- Each move keeps what holds of every version. -/
theorem wellFormed (hmove : Move key r r') (h : WellFormed key r) : WellFormed key r' := by
  cases hmove with
  | claim hclaim =>
    obtain ⟨hlive, hstatus, rfl⟩ := claim_eq_some.mp hclaim
    have hunfinished : r.job.status.finished = false := by
      rw [hstatus]
      rfl
    constructor
    · exact h.key_eq
    · show r.job.expiresAt.isSome = false
      rw [h.expires, hunfinished]
    · intro _ hready
      cases hready
    · intro ref href
      have hready := (h.fileRef ref href).1
      rw [hstatus] at hready
      cases hready
    · intro hdead
      have hlive' : r.job.live = false := hdead
      rw [hlive] at hlive'
      cases hlive'
    · exact h.announced
    · intro _
      exact h.unannounced hunfinished
  | @finalize _ t noted hfinalize =>
    obtain ⟨-, hstatus, rfl⟩ := finalize_eq_some.mp hfinalize
    obtain ⟨-, -, hnone⟩ := h.of_running hstatus
    constructor
    · exact h.key_eq
    · rfl
    · intro _ _
      rfl
    · intro ref href
      cases href
      exact ⟨rfl, rfl⟩
    · intro _
      rfl
    · have hlength := length_announce_le noted true none r
        { r.job with status := .ready, fileRef := some key, error := none, expiresAt := some t }
      rw [hnone] at hlength
      exact hlength
    · intro hunfinished
      cases hunfinished
  | requeue hrequeue =>
    obtain ⟨hlive, hstatus, rfl⟩ := requeue_eq_some.mp hrequeue
    obtain ⟨hexpires, hfile, hnone⟩ := h.of_running hstatus
    constructor
    · exact h.key_eq
    · show r.job.expiresAt.isSome = false
      rw [hexpires]
      rfl
    · intro _ hready
      cases hready
    · intro ref href
      have href' : r.job.fileRef = some ref := href
      rw [hfile] at href'
      cases href'
    · intro hdead
      have hlive' : r.job.live = false := hdead
      rw [hlive] at hlive'
      cases hlive'
    · exact h.announced
    · intro _
      exact hnone
  | terminate noted hterminate =>
    obtain ⟨-, hstatus, rfl⟩ := terminate_eq_some.mp hterminate
    have hunfinished : r.job.status.finished = false := by
      rw [hstatus]
      rfl
    exact h.fail hunfinished noted _ _
  | failStuck noted hfail =>
    obtain ⟨-, hunfinished, rfl⟩ := failStuck_eq_some hfail
    exact h.fail hunfinished noted _ _
  | @softDelete loaded byId now hlive hfinished =>
    have htombstone := deletedAt_flushJob byId now r.job hlive
    constructor
    · exact h.key_eq
    · exact h.expires
    · intro hlive'
      have hnone := Option.isNone_iff_eq_none.mp hlive'
      rw [htombstone] at hnone
      cases hnone
    · intro ref href
      apply h.fileRef
      -- A flush either leaves the column or clears it.
      have hcases : (if none = loaded.fileRef then r.job.fileRef else none) = some ref := href
      split at hcases
      · exact hcases
      · cases hcases
    · intro _
      exact hfinished
    · exact h.announced
    · intro hunfinished
      have hstatus : r.job.status.finished = false := hunfinished
      rw [hfinished] at hstatus
      cases hstatus

/-- A finished job keeps its status. -/
theorem status_of_finished (hmove : Move key r r') (h : r.job.status.finished = true) :
    r'.job.status = r.job.status := by
  -- The guards of the other five moves ask for an unfinished job.
  have hrunning : r.job.status ≠ .running := fun hstatus => by
    rw [hstatus] at h
    cases h
  cases hmove with
  | claim hclaim =>
    have hpending := (claim_eq_some.mp hclaim).2.1
    rw [hpending] at h
    cases h
  | finalize _ hfinalize => exact absurd (finalize_eq_some.mp hfinalize).2.1 hrunning
  | requeue hrequeue => exact absurd (requeue_eq_some.mp hrequeue).2.1 hrunning
  | terminate _ hterminate => exact absurd (terminate_eq_some.mp hterminate).2.1 hrunning
  | failStuck _ hfail =>
    have hunfinished := (failStuck_eq_some hfail).2.1
    rw [h] at hunfinished
    cases hunfinished
  | softDelete => rfl

/-- An unfinished job is live after each move. -/
theorem live_of_unfinished (hmove : Move key r r') (h : r.job.status.finished = false) :
    r'.job.live = true := by
  cases hmove with
  | claim hclaim =>
    obtain ⟨hlive, -, rfl⟩ := claim_eq_some.mp hclaim
    exact hlive
  | finalize _ hfinalize =>
    obtain ⟨hlive, -, rfl⟩ := finalize_eq_some.mp hfinalize
    exact hlive
  | requeue hrequeue =>
    obtain ⟨hlive, -, rfl⟩ := requeue_eq_some.mp hrequeue
    exact hlive
  | terminate _ hterminate =>
    obtain ⟨hlive, -, rfl⟩ := terminate_eq_some.mp hterminate
    exact hlive
  | failStuck _ hfail =>
    obtain ⟨hlive, -, rfl⟩ := failStuck_eq_some hfail
    exact hlive
  | softDelete byId now _ hfinished =>
    rw [hfinished] at h
    cases h

end Move

end RedTeaming.Exports
