import RedTeaming.SoftDelete

/-!
# `RedTeaming.Exports.Jobs`: export jobs and their stored files

The `ExportJob` row of `core/exports/models.py`, the storage port with its one key for each job,
and the updates that `core/exports/tasks.py` and `core/exports/jobs.py` make to a row. All but one
are guarded: `live_update` with a condition on the status. The soft delete is a flush of the
loaded instance, which writes the columns that the request changed, whatever the row is by then.

`filters` and `idempotency_key` are not modelled. No modelled function reads them.
-/

set_option autoImplicit false

namespace RedTeaming.Exports

/-- `ExportFormat`. -/
inductive ExportFormat
  | csv
  | json
deriving DecidableEq

/-- The value of a format, which is also the file extension. -/
def ExportFormat.value : ExportFormat → String
  | .csv => "csv"
  | .json => "json"

/-- `parse_stored_format`: an unknown value counts as CSV. -/
def parseStoredFormat (value : String) : ExportFormat :=
  if value = ExportFormat.json.value then .json else .csv

/-- `ExportJobStatus`. -/
inductive ExportJobStatus
  | pending
  | running
  | ready
  | failed
deriving DecidableEq

/-- The value of a status. -/
def ExportJobStatus.value : ExportJobStatus → String
  | .pending => "pending"
  | .running => "running"
  | .ready => "ready"
  | .failed => "failed"

/-- The status is one of `(READY, FAILED)`. -/
def ExportJobStatus.finished : ExportJobStatus → Bool
  | .pending | .running => false
  | .ready | .failed => true

/-- An export job. -/
structure ExportJob extends BaseModel where
  template : String
  format : String := "csv"
  evaluationId : Option UUID := none
  evaluationGroupId : Option UUID := none
  requestedById : UUID
  status : ExportJobStatus := .pending
  fileRef : Option String := none
  error : Option String := none
  expiresAt : Option Time := none
deriving DecidableEq

/-- The key of the stored file. Each delivery of the job writes and cleans up the same key. -/
def fileKey (job : ExportJob) : String :=
  toString job.id ++ "." ++ (parseStoredFormat job.format).value

/-- The row that `create_export_job` inserts. -/
def createExportJob (id : UUID) (createdAt : Time) (template exportFormat : String)
    (requestedById : UUID) (evaluationId evaluationGroupId : Option UUID) : ExportJob :=
  { id, createdAt, template, format := exportFormat, requestedById, evaluationId,
    evaluationGroupId }

/-! ### The stored files -/

/-- The stored files: the chunks of text at each key. -/
abbrev Files := String → Option (List String)

namespace Files

/-- Put a blob at a key, over what is there. -/
def put (files : Files) (key : String) (chunks : List String) : Files :=
  Function.update files key (some chunks)

/-- Write one more chunk to the file at a key. -/
def append (files : Files) (key : String) (chunk : String) : Files :=
  Function.update files key ((files key).map fun chunks => chunks ++ [chunk])

/-- `storage.delete`: drop the blob at a key, if there is one. -/
def delete (files : Files) (key : String) : Files := Function.update files key none

@[simp] theorem put_self (files : Files) (key : String) (chunks : List String) :
    files.put key chunks key = some chunks := Function.update_self _ _ _

@[simp] theorem append_self (files : Files) (key chunk : String) :
    files.append key chunk key = (files key).map fun chunks => chunks ++ [chunk] :=
  Function.update_self _ _ _

@[simp] theorem delete_self (files : Files) (key : String) : files.delete key key = none :=
  Function.update_self _ _ _

end Files

/-! ### The updates of a row -/

/-- `live_update` with a guard: the updated row, or `none` when the row does not match. -/
def liveUpdate (guard : ExportJob → Bool) (values : ExportJob → ExportJob) (job : ExportJob) :
    Option ExportJob :=
  if job.live && guard job then some (values job) else none

/-- The claim: `pending` to `running`. -/
def claim : ExportJob → Option ExportJob :=
  liveUpdate (·.status == .pending) fun job => { job with status := .running }

/-- The finalize of a generated file: `running` to `ready`. -/
def finalize (fileRef : String) (expiresAt : Time) : ExportJob → Option ExportJob :=
  liveUpdate (·.status == .running) fun job =>
    { job with status := .ready, fileRef := some fileRef, error := none
               expiresAt := some expiresAt }

/-- The reset for a retry: `running` to `pending`. -/
def requeue : ExportJob → Option ExportJob :=
  liveUpdate (·.status == .running) fun job => { job with status := .pending }

/-- The record of a failed generation: `running` to `failed`. -/
def terminate (message : String) (expiresAt : Time) : ExportJob → Option ExportJob :=
  liveUpdate (·.status == .running) fun job =>
    { job with status := .failed, error := some message, expiresAt := some expiresAt }

/-- The stuck sweep: an unfinished row from before the cutoff, to `failed`. -/
def failStuck (cutoff : Time) (message : String) (expiresAt : Time) :
    ExportJob → Option ExportJob :=
  liveUpdate
    (fun job => [.pending, .running].contains job.status && decide (job.createdAt < cutoff))
    fun job => { job with status := .failed, error := some message, expiresAt := some expiresAt }

/-- What `soft_delete_export_job` makes of the loaded instance, once its file is deleted. -/
def softDeleteExportJob (byId : Option UUID) (now : Time) (job : ExportJob) : ExportJob :=
  { job with fileRef := none, deletedAt := some now, deletedById := byId }

/-- The `UPDATE` that the session flushes for an instance of the row. It names the row by id only,
and writes the columns where the instance differs from what was loaded. -/
def flushJob (loaded current row : ExportJob) : ExportJob :=
  { row with
    fileRef := if current.fileRef = loaded.fileRef then row.fileRef else current.fileRef
    deletedAt := if current.deletedAt = loaded.deletedAt then row.deletedAt else current.deletedAt
    deletedById :=
      if current.deletedById = loaded.deletedById then row.deletedById else current.deletedById }

/-- A guarded update hits a live row that meets the guard. -/
theorem liveUpdate_eq_some {guard : ExportJob → Bool} {values : ExportJob → ExportJob}
    {job job' : ExportJob} :
    liveUpdate guard values job = some job' ↔
      job.live = true ∧ guard job = true ∧ values job = job' := by
  rw [liveUpdate, Option.ite_none_right_eq_some, Bool.and_eq_true, Option.some.injEq, and_assoc]

/-- The claim takes a live pending job. -/
theorem claim_eq_some {job job' : ExportJob} : claim job = some job' ↔
    job.live = true ∧ job.status = .pending ∧ { job with status := .running } = job' := by
  rw [claim, liveUpdate_eq_some, beq_iff_eq]

/-- The finalize takes a live running job. -/
theorem finalize_eq_some {ref : String} {t : Time} {job job' : ExportJob} :
    finalize ref t job = some job' ↔ job.live = true ∧ job.status = .running ∧
      { job with status := .ready, fileRef := some ref, error := none, expiresAt := some t }
        = job' := by
  rw [finalize, liveUpdate_eq_some, beq_iff_eq]

/-- The reset takes a live running job. -/
theorem requeue_eq_some {job job' : ExportJob} : requeue job = some job' ↔
    job.live = true ∧ job.status = .running ∧ { job with status := .pending } = job' := by
  rw [requeue, liveUpdate_eq_some, beq_iff_eq]

/-- The record of a failure takes a live running job. -/
theorem terminate_eq_some {message : String} {t : Time} {job job' : ExportJob} :
    terminate message t job = some job' ↔ job.live = true ∧ job.status = .running ∧
      { job with status := .failed, error := some message, expiresAt := some t } = job' := by
  rw [terminate, liveUpdate_eq_some, beq_iff_eq]

/-- The stuck sweep takes a live unfinished job. -/
theorem failStuck_eq_some {cutoff : Time} {message : String} {t : Time} {job job' : ExportJob}
    (h : failStuck cutoff message t job = some job') :
    job.live = true ∧ job.status.finished = false ∧
      { job with status := .failed, error := some message, expiresAt := some t } = job' := by
  rw [failStuck, liveUpdate_eq_some, Bool.and_eq_true] at h
  obtain ⟨hlive, ⟨hstatus, -⟩, hvalues⟩ := h
  have hunfinished : job.status.finished = false := by
    cases hcase : job.status <;> simp [hcase] at hstatus ⊢ <;> rfl
  exact ⟨hlive, hunfinished, hvalues⟩

/-- The flush of a soft delete of a live row sets the tombstone. -/
theorem deletedAt_flushJob (byId : Option UUID) (now : Time) {loaded : ExportJob}
    (row : ExportJob) (h : loaded.live = true) :
    (flushJob loaded (softDeleteExportJob byId now loaded) row).deletedAt = some now := by
  have hnone : loaded.deletedAt = none := Option.isNone_iff_eq_none.mp h
  show (if some now = loaded.deletedAt then row.deletedAt else some now) = some now
  rw [hnone, if_neg (Option.some_ne_none now)]

end RedTeaming.Exports
