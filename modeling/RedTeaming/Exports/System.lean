import RedTeaming.Exports.Lifecycle
import RedTeaming.Library.Transition
import RedTeaming.Library.Versions

/-!
# `RedTeaming.Exports.System`: the workers, sweeps and deletions of one export job

Everything that runs on one export job, side by side: the deliveries of `run_export_job`, the runs
of `reap_expired_export_jobs`, and the requests to `delete_export_job_endpoint`. A step is one
database statement, one storage operation, or one commit of one of them. Each has its own program,
which says what it does next and with what `Effect` on the row and the files.

- A delivery can come at any time, with any number of retries behind it. So redeliveries and
  retries need no broker.
- A statement reads the committed row (READ COMMITTED). An update that hits the row waits for the
  transaction that holds it.
- A commit can fail, and then nothing is committed. An exception can be raised at any time, and a
  process can die at any time. Storage deletes succeed.
- Each program reads its own clock. Nothing relates the clocks.

What a generation reads of other tables is not modelled: it yields any chunks, or raises. The row
itself is never missing. The create endpoint drops one only when it could not queue its task.
-/

set_option autoImplicit false

namespace RedTeaming.Exports

open RedTeaming.Library

/-- The backend that `get_export_storage` builds. -/
inductive ExportStorage
  | localExportStorage
  | s3ExportStorage
deriving DecidableEq

/-- The settings that exports read. -/
structure Settings where
  exportStorageBackend : ExportStorage := .localExportStorage
  exportJobTtlSeconds : Nat := 86400
  exportStuckTtlSeconds : Nat := 3600

/-! ### The exceptions of a run -/

/-- An exception of a run. A `ClientError` carries the HTTP status and the code of its
response. -/
inductive RunError
  | operationalError
  | clientError (httpStatus : Nat) (code : Option String)
  | exportJobError (message : String)
  | apiError (error : ApiError)
  | other
deriving DecidableEq

/-- `_TRANSIENT_CLIENT_ERROR_CODES`. -/
def transientClientErrorCodes : List String :=
  ["Throttling", "ThrottlingException", "TooManyRequestsException", "SlowDown", "RequestTimeout"]

/-- `_MIN_SERVER_ERROR_STATUS`. -/
def minServerErrorStatus : Nat := 500

/-- `_is_transient`. -/
def isTransient : RunError → Bool
  | .operationalError => true
  | .clientError httpStatus code =>
    decide (minServerErrorStatus ≤ httpStatus) || code.any transientClientErrorCodes.contains
  | _ => false

/-- `_failure_message`. -/
def failureMessage : RunError → String
  | .exportJobError message => message
  | .apiError _ => "The export target is no longer available."
  | _ => "Export generation failed."

/-- `max_retries` of the task. -/
def maxRetries : Nat := 3

/-- The failure handler resets the job for a retry. -/
def retries? (error : RunError) (retries : Nat) : Bool :=
  isTransient error && decide (retries < maxRetries)

/-! ### What a program does to the row and the files -/

/-- What one action does to the row and the files. -/
inductive Effect
  | silent
  | put (key : String) (chunks : List String)
  | append (key chunk : String)
  | delete (key : String)
  | update (version : JobRecord)
  | commit
  | rollback

/-- An update that hit gives the version it wrote. One that did not hit has no effect. -/
def Effect.ofUpdate : Option JobRecord → Effect
  | some version => .update version
  | none => .silent

/-! ### `run_export_job` -/

/-- How a delivery ended. `finalized` carries the text that the worker saved, `requeued` what it
raised for the retry. `failed` says whether the worker itself failed the job. `raised` is another
exception that left the task. -/
inductive Outcome
  | ready
  | skipped
  | finalized (output : List String)
  | superseded
  | requeued (error : RunError)
  | retrySuperseded
  | failed (terminated : Bool)
  | raised
deriving DecidableEq

/-- Where a delivery is. The flag of a phase with an update says whether the update hit.
`saving written stored` is inside `storage.save`, with the chunks so far and whether the blob at
the key holds them. `died` says whether the process had claimed the job. -/
inductive WorkerPhase
  | idle
  | delivered
  | loaded
  | claiming (claimed : Bool)
  | generating
  | saving (written : List String) (stored : Bool)
  | saved (output : List String)
  | finalizing (output : List String) (finalized : Bool)
  | superseded
  | dropped
  | failing (error : RunError)
  | cleaned (error : RunError)
  | requeueing (error : RunError) (requeued : Bool)
  | terminating (terminated : Bool)
  | ended (outcome : Outcome)
  | died (claimed : Bool)
deriving DecidableEq

/-- A delivery, with `self.request.retries`. -/
structure Worker where
  retries : Nat := 0
  phase : WorkerPhase := .idle
deriving DecidableEq

/-- The next action of a delivery. -/
inductive WorkerEvent
  | deliver (retries : Nat)
  | load
  | claim
  | openFile
  | write (chunk : String)
  | upload
  | close
  | finalize (now : Time) (noted : Bool)
  | deleteFile
  | refresh
  | requeue
  | terminate (now : Time) (noted : Bool)
  | commit
  | raise (error : RunError)
  | die

namespace WorkerPhase

/-- The worker has claimed the job, and runs. -/
def owns : WorkerPhase → Bool
  | .generating | .saving _ _ | .saved _ | .finalizing _ _ | .superseded | .dropped | .failing _
  | .cleaned _ | .requeueing _ _ | .terminating _ => true
  | _ => false

/-- The worker has claimed the job, and has not run to completion: it runs, or its process
died. -/
def unfinished : WorkerPhase → Bool
  | .died claimed => claimed
  | phase => phase.owns

/-- Where an exception leads: out of the task before the claim is committed and inside the failure
handler, and into the handler in between. -/
def onRaise (error : RunError) : WorkerPhase → Option WorkerPhase
  | .delivered | .loaded | .claiming _ | .cleaned _ | .requeueing _ _ | .terminating _ =>
    some (.ended .raised)
  | .generating | .saving _ _ | .saved _ | .finalizing _ _ | .superseded | .dropped =>
    some (.failing error)
  | _ => none

/-- What the death of the process leaves. -/
def onDeath : WorkerPhase → Option WorkerPhase
  | .idle | .ended _ | .died _ => none
  | phase => some (.died phase.owns)

end WorkerPhase

/-- The program of `_run_export_job` and `_handle_run_failure`. The worker's copy of the row is
read only for columns that no transaction changes, so they are read from the row. -/
def runExportJob (settings : Settings) (r : JobRecord) (worker : Worker) :
    WorkerEvent → Option (WorkerPhase × Effect)
  | .deliver _ => if worker.phase = .idle then some (.delivered, .silent) else none
  | .load =>
    match worker.phase with
    | .delivered =>
      if r.job.status = .ready then some (.ended .ready, .silent) else some (.loaded, .silent)
    | _ => none
  | .claim =>
    match worker.phase with
    | .loaded =>
      let claimed := (claim r.job).map fun job => { r with job }
      some (.claiming claimed.isSome, .ofUpdate claimed)
    | _ => none
  | .openFile =>
    match worker.phase, settings.exportStorageBackend with
    -- `open("wb")` truncates. S3 shows nothing before the upload is complete.
    | .generating, .localExportStorage => some (.saving [] true, .put (fileKey r.job) [])
    | .generating, .s3ExportStorage => some (.saving [] false, .silent)
    | _, _ => none
  | .write chunk =>
    match worker.phase, settings.exportStorageBackend with
    | .saving written true, .localExportStorage =>
      some (.saving (written ++ [chunk]) true, .append (fileKey r.job) chunk)
    | .saving written false, .s3ExportStorage =>
      some (.saving (written ++ [chunk]) false, .silent)
    | _, _ => none
  | .upload =>
    match worker.phase with
    | .saving written false => some (.saving written true, .put (fileKey r.job) written)
    | _ => none
  | .close =>
    match worker.phase with
    | .saving written true => some (.saved written, .silent)
    | _ => none
  | .finalize now noted =>
    match worker.phase with
    | .saved output =>
      let finalized := (finalize (fileKey r.job) (now + settings.exportJobTtlSeconds) r.job).map
        (announce noted true none r)
      some (.finalizing output finalized.isSome, .ofUpdate finalized)
    | _ => none
  | .deleteFile =>
    match worker.phase with
    | .superseded => some (.dropped, .delete (fileKey r.job))
    | .failing error => some (.cleaned error, .delete (fileKey r.job))
    | _ => none
  | .refresh => if worker.phase = .dropped then some (.ended .superseded, .silent) else none
  | .requeue =>
    match worker.phase with
    | .cleaned error =>
      if retries? error worker.retries then
        let requeued := (requeue r.job).map fun job => { r with job }
        some (.requeueing error requeued.isSome, .ofUpdate requeued)
      else none
    | _ => none
  | .terminate now noted =>
    match worker.phase with
    | .cleaned error =>
      if retries? error worker.retries then none
      else
        let message := failureMessage error
        let terminated := (terminate message (now + settings.exportJobTtlSeconds) r.job).map
          (announce noted false (some message) r)
        some (.terminating terminated.isSome, .ofUpdate terminated)
    | _ => none
  | .commit =>
    match worker.phase with
    | .claiming true => some (.generating, .commit)
    | .claiming false => some (.ended .skipped, .commit)
    | .finalizing output true => some (.ended (.finalized output), .commit)
    | .finalizing _ false => some (.superseded, .commit)
    | .requeueing error true => some (.ended (.requeued error), .commit)
    | .requeueing _ false => some (.ended .retrySuperseded, .commit)
    | .terminating terminated => some (.ended (.failed terminated), .commit)
    | _ => none
  | .raise error => (worker.phase.onRaise error).map fun phase => (phase, .rollback)
  | .die => worker.phase.onDeath.map fun phase => (phase, .rollback)

/-! ### `reap_expired_export_jobs` and `delete_export_job_endpoint` -/

/-- A run of the reaper, or a request to delete the job. The reaper reads its clock once. -/
inductive Deletion
  | reap (now : Time)
  | request (caller : UUID) (canManage : Bool)
deriving DecidableEq

/-- Who deletes: nobody, for the reaper. -/
def Deletion.byId : Deletion → Option UUID
  | .reap _ => none
  | .request caller _ => some caller

/-- Where a deletion is. `softDeleted loaded current` is after `soft_delete_export_job`, before
its flush. `removed` says that a file was deleted. `lost` is a rollback, or the death of the
process. -/
inductive DeletionPhase
  | idle
  | begun (deletion : Deletion)
  | selected (deletion : Deletion) (target : Option ExportJob)
  | softDeleted (deletion : Deletion) (loaded current : ExportJob)
  | updated (removed : Bool)
  | committed
  | refused (error : ApiError)
  | lost (removed : Bool)
deriving DecidableEq

/-- The next action of a deletion. -/
inductive DeletionEvent
  | begin (deletion : Deletion)
  | select
  | softDelete (now : Time)
  | update (noted : Bool)
  | commit
  | fail

/-- `get_export_job`, and the check of the endpoint that the job is finished. -/
def getDeletable (job : ExportJob) (caller : UUID)
    (canManage : Bool) : Except ApiError ExportJob := do
  check (job.live && (canManage || job.requestedById == caller))
    (.notFound ("Export job " ++ toString job.id ++ " not found."))
  check job.status.finished
    (.conflict ("Export job is still " ++ job.status.value
      ++ "; wait for it to finish before deleting."))
  return job

/-- The row is selected by the expiry sweep. -/
def isExpired (now : Time) (job : ExportJob) : Bool :=
  job.live && job.expiresAt.any fun t => decide (t < now)

/-- The text of the stuck sweep. -/
def timeoutMessage : String := "Export timed out."

/-- The stuck sweep, with its announcement. -/
def stuckSweep (settings : Settings) (now : Time) (noted : Bool) (r : JobRecord) :
    Option JobRecord :=
  (failStuck (now - settings.exportStuckTtlSeconds) timeoutMessage
    (now + settings.exportJobTtlSeconds) r.job).map (announce noted false (some timeoutMessage) r)

/-- The updates of a deletion: the flush of the soft delete, if there is one, and the stuck sweep
of the reaper. `none` when no update hits the row. -/
def deletionUpdates (settings : Settings) (noted : Bool) (r : JobRecord) :
    Deletion → Option (ExportJob × ExportJob) → Option JobRecord
  | .reap now, none => stuckSweep settings now noted r
  | .reap now, some (loaded, current) =>
    let flushed := { r with job := flushJob loaded current r.job }
    some ((stuckSweep settings now noted flushed).getD flushed)
  | .request _ _, none => none
  | .request _ _, some (loaded, current) => some { r with job := flushJob loaded current r.job }

/-- The program of `_reap_expired_export_jobs` and of `delete_export_job_endpoint`. -/
def deleteExportJob (settings : Settings) (r : JobRecord) (phase : DeletionPhase) :
    DeletionEvent → Option (DeletionPhase × Effect)
  | .begin deletion => if phase = .idle then some (.begun deletion, .silent) else none
  | .select =>
    match phase with
    | .begun (.reap now) =>
      some (.selected (.reap now) (if isExpired now r.job then some r.job else none), .silent)
    | .begun (.request caller canManage) =>
      match getDeletable r.job caller canManage with
      | .ok job => some (.selected (.request caller canManage) (some job), .silent)
      | .error error => some (.refused error, .silent)
    | _ => none
  | .softDelete now =>
    match phase with
    | .selected deletion (some job) =>
      let current := softDeleteExportJob deletion.byId now job
      some (.softDeleted deletion job current, job.fileRef.elim .silent .delete)
    | _ => none
  | .update noted =>
    match phase with
    | .selected deletion none =>
      some (.updated false, .ofUpdate (deletionUpdates settings noted r deletion none))
    | .softDeleted deletion loaded current =>
      some (.updated loaded.fileRef.isSome,
        .ofUpdate (deletionUpdates settings noted r deletion (some (loaded, current))))
    | _ => none
  | .commit =>
    match phase with
    | .updated _ => some (.committed, .commit)
    | _ => none
  | .fail =>
    match phase with
    | .begun _ | .selected _ _ => some (.lost false, .rollback)
    | .softDeleted _ loaded _ => some (.lost loaded.fileRef.isSome, .rollback)
    | .updated removed => some (.lost removed, .rollback)
    | _ => none

/-- The deletion has deleted the file, and has not committed. -/
def DeletionPhase.removed : DeletionPhase → Bool
  | .softDeleted _ loaded _ => loaded.fileRef.isSome
  | .updated removed => removed
  | .lost removed => removed
  | _ => false

/-! ### The system -/

/-- Who runs a transaction. -/
inductive Party
  | worker (w : Nat)
  | deletion (d : Nat)
deriving DecidableEq

/-- The row with its announcements, the stored files, and the programs. -/
structure State where
  row : Versioned JobRecord Party
  files : Files
  workers : Nat → Worker := fun _ => {}
  deletions : Nat → DeletionPhase := fun _ => .idle

namespace State

/-- The committed job. -/
def job (s : State) : ExportJob := s.row.committed.job

/-- The phase of a delivery. -/
def phase (s : State) (w : Nat) : WorkerPhase := (s.workers w).phase

/-- The effect of an action. An update waits for the transaction that holds the row. -/
def perform (s : State) (p : Party) : Effect → Option State
  | .silent => some s
  | .put key chunks => some { s with files := s.files.put key chunks }
  | .append key chunk => some { s with files := s.files.append key chunk }
  | .delete key => some { s with files := s.files.delete key }
  | .update version => (s.row.write p version).map fun row => { s with row }
  | .commit => some { s with row := s.row.commit p }
  | .rollback => some { s with row := s.row.rollback p }

/-- Move a delivery to a phase. Its first action sets the number of retries. -/
def setWorker (s : State) (w : Nat) (event : WorkerEvent) (phase : WorkerPhase) : State :=
  let retries := match event with
    | .deliver retries => retries
    | _ => (s.workers w).retries
  { s with workers := Function.update s.workers w { retries, phase } }

/-- Move a deletion to a phase. -/
def setDeletion (s : State) (d : Nat) (phase : DeletionPhase) : State :=
  { s with deletions := Function.update s.deletions d phase }

/-- The state after `create_export_job` and its commit. -/
def start (job : ExportJob) (files : Files) : State where
  row := { committed := { job } }
  files := files

end State

/-- The next action of one of the programs. -/
inductive Label
  | worker (w : Nat) (event : WorkerEvent)
  | deletion (d : Nat) (event : DeletionEvent)

/-- A step of the system. -/
def step (settings : Settings) (s : State) : Label → Option State
  | .worker w event =>
    (runExportJob settings s.row.committed (s.workers w) event).bind fun next =>
      (s.perform (.worker w) next.2).map fun s => s.setWorker w event next.1
  | .deletion d event =>
    (deleteExportJob settings s.row.committed (s.deletions d) event).bind fun next =>
      (s.perform (.deletion d) next.2).map fun s => s.setDeletion d next.1

end RedTeaming.Exports
