import RedTeaming.AiGateway.Models
import RedTeaming.Library.Records
import RedTeaming.Library.Transition
import RedTeaming.Library.Versions

/-!
# `RedTeaming.AiGateway.Health`: health checks beside updates of one model

The parties that write one row of `ai_models`: the task `run_health_check`, the patch with its
`_autocheck`, and the manual check. Any number of them is in flight. A step is one statement, one
probe, or one commit of a party.

- `get_model(for_update=True)` and an `UPDATE` take the lock of the row, which is held to the
  commit. An `UPDATE` whose `WHERE` does not hold of the row it reads takes no lock.
- A task reads the row, ends that transaction, and probes the endpoint. Nothing is locked
  meanwhile. A task may run at any time: it was sent by a route, or it is delivered again.
- A patch that has to start a check commits first. Then it sends the task, and stamps the row in a
  second transaction.

`probes` lists the image probes that reached a conclusion. A party can end by `abort` at any time:
an error, a deadlock, or a lost worker. `other` is what the other services commit to the other
columns of the row.
-/

set_option autoImplicit false

namespace RedTeaming.AiGateway

open RedTeaming.Library

abbrev PartyId := Nat

/-- Result of probing an endpoint for readiness. -/
inductive WarmupStatus
  | ready | starting | error
deriving DecidableEq, Repr

/-- What the image probe ends in: the endpoint took the image, or refused it with a text, or
failed in a way that says nothing. -/
inductive ImageAnswer
  | accepted
  | refused (text : String)
  | failed

/-- Width of `capability_mismatch`. -/
def mismatchMaxLen : Nat := 255

/-- The text of a refusal, cut to the column with a mark. -/
def cutReason (text : String) : String :=
  if text.length ≤ mismatchMaxLen then text else (text.take (mismatchMaxLen - 1)).toString ++ "…"

/-- `dispatch_capability_probe`: whether the probe is conclusive, and then the finding. -/
def ImageAnswer.finding : ImageAnswer → Option (Option String)
  | .accepted => some none
  | .refused text => some (some (cutReason text))
  | .failed => none

/-- What the loop over the liveness probe ends in. -/
structure Liveness where
  alive : Bool
  reason : Option String
  served : Bool

/-- The in-flight check is owned by a task that could still settle it. -/
def checkInFlight (env : Env) (now : Time) (model : AiModel) : Bool :=
  model.healthCheckStatus == some .checking &&
    model.lastHealthCheckAt.any fun at_ =>
      decide (now < at_ + env.healthCheckTaskTimeLimitSeconds)

/-- `start_health_check` on the loaded row `model`. The flush writes the columns that moved. -/
def startHealthCheck (now : Time) (model current : AiModel) : AiModel :=
  { current with
      healthCheckStatus :=
        if model.healthCheckStatus = some .checking then current.healthCheckStatus
        else some .checking
      lastHealthCheckAt := some now }

/-- Something can authenticate a call to the model. -/
def hasResolvableCredential (env : Env) (model : AiModel) : Bool :=
  model.apiKeyEncrypted.isSome || model.provider == .awsBedrock ||
    env.hasPlatformKey model.provider

/-- The gate of `_autocheck`: the row is enabled, and there is something to call. -/
def autocheck (env : Env) (model : AiModel) : Bool :=
  !model.isDisabled && (hasResolvableCredential env model || model.inferenceEndpoint.isSome)

/-- The patch moved a part of the probed call, or enabled the row again. -/
def startsCheck (before after : AiModel) : Bool :=
  after.probedCall != before.probedCall || before.isDisabled && !after.isDisabled

/-- Where a party is. The first four are a patch: it holds the row, has written it, has to send a
task, and has sent it. `stamped` is a patch or a manual check with a written start stamp. The
others are a task, with the row as it read it. -/
inductive Phase
  | loaded (model : AiModel) (changes : AiModelUpdateChanges)
  | patched (model : AiModel) (starts : Bool)
  | enqueuing (model : AiModel)
  | stamping (model : AiModel)
  | stamped
  | probing (model : AiModel)
  | answered (model : AiModel) (liveness : Liveness)
  | concluded (model : AiModel) (liveness : Liveness) (finding : Option (Option String))
  | settling (model : AiModel) (finding : Option (Option String))
  | settled

/-- A conclusive image probe, with the call it was made with and its finding. -/
structure Probe where
  call : ProbedCall
  mismatch : Option String

/-- The row, the parties, and the conclusive probes so far. -/
structure State where
  row : Versioned AiModel PartyId
  parties : Records PartyId Phase := fun _ => none
  probes : List Probe := []
  now : Time := 0

namespace State

/-- Write the record of a party. -/
def setPhase (s : State) (p : PartyId) (phase : Phase) : State :=
  { s with parties := s.parties.set p phase }

/-- A party is done. -/
def leave (s : State) (p : PartyId) : State := { s with parties := s.parties.drop p }

/-- An error ends a party, and takes back what it has not committed. -/
def abort (s : State) (p : PartyId) : State := { s with row := s.row.rollback p }.leave p

/-! ### The patch -/

/-- `get_model(for_update=True)` of a patch. -/
def patch (s : State) (p : PartyId) (changes : AiModelUpdateChanges) : Option State := do
  guard (s.parties p).isNone
  guard s.row.committed.live
  let row ← s.row.write p s.row.committed
  return { s with row }.setPhase p (.loaded s.row.committed changes)

/-- `update_model` on the locked row. -/
def apply (env : Env) (s : State) (p : PartyId) : Phase → Option State
  | .loaded model changes => do
    let model' ← (updateModel env s.now model changes).toOption
    let row ← s.row.rewrite p model'
    let starts := startsCheck model model' && autocheck env model'
    return { s with row }.setPhase p (.patched model' starts)
  | _ => none

/-- Send the task. When the broker fails, no check starts. -/
def enqueue (s : State) (p : PartyId) (sent : Bool) : Phase → Option State
  | .enqueuing model => some (if sent then s.setPhase p (.stamping model) else s.leave p)
  | _ => none

/-- `start_health_check` of the second transaction of a patch. -/
def stamp (s : State) (p : PartyId) : Phase → Option State
  | .stamping model => do
    let row ← s.row.rewrite p (startHealthCheck s.now model (s.row.view p))
    return { s with row }.setPhase p .stamped
  | _ => none

/-! ### The manual check -/

/-- `get_model(for_update=True)`, the check in flight, and `start_health_check`. -/
def checkNow (env : Env) (s : State) (p : PartyId) : Option State := do
  guard (s.parties p).isNone
  guard s.row.committed.live
  guard !checkInFlight env s.now s.row.committed
  let model := s.row.committed
  let row ← s.row.write p (startHealthCheck s.now model model)
  return { s with row }.setPhase p .stamped

/-! ### The task -/

/-- Read the row, and end the transaction of the read. -/
def start (s : State) (p : PartyId) : Option State := do
  guard (s.parties p).isNone
  guard s.row.committed.live
  return s.setPhase p (.probing s.row.committed)

/-- One liveness probe, with its status and reason. `late` says that the deadline has passed. A
cold endpoint is probed again before it. -/
def probe (s : State) (p : PartyId) (status : WarmupStatus) (reason : Option String)
    (late : Bool) :
    Phase → Option State
  | .probing model =>
    match status, late with
    | .ready, _ => some (s.setPhase p (.answered model ⟨true, none, reason.isNone⟩))
    | .error, _ => some (s.setPhase p (.answered model ⟨false, reason, false⟩))
    | .starting, true =>
      some (s.setPhase p (.answered model ⟨false, some "cold/deadline", false⟩))
    | .starting, false => some s
  | _ => none

/-- The image probe, of an endpoint that was served and a row that declares image input. -/
def probeImage (s : State) (p : PartyId) (answer : ImageAnswer) : Phase → Option State
  | .answered model liveness =>
    if liveness.served && model.inputModalities.contains .image then
      let finding := answer.finding
      let made := finding.toList.map fun mismatch => ⟨model.probedCall, mismatch⟩
      some ({ s with probes := s.probes ++ made }.setPhase p (.concluded model liveness finding))
    else some (s.setPhase p (.concluded model liveness none))
  | _ => none

/-- The row after the first statement of the settle. -/
def settledRow (now : Time) (liveness : Liveness) (current : AiModel) : AiModel :=
  { current with
      healthCheckStatus := some (if liveness.alive then .alive else .dead)
      lastHealthReason := liveness.reason
      lastHealthyAt := if liveness.alive then some now else current.lastHealthyAt }

/-- The first statement of the settle: the status, if no newer check has stamped the row. -/
def settle (s : State) (p : PartyId) : Phase → Option State
  | .concluded model liveness finding =>
    let current := s.row.view p
    if current.lastHealthCheckAt = model.lastHealthCheckAt then do
      let row ← s.row.rewrite p (settledRow s.now liveness current)
      return { s with row }.setPhase p (.settling model finding)
    else some (s.setPhase p (.settling model finding))
  | _ => none

/-- The second statement of the settle: the finding, if in addition the probed call is the one of
the row. -/
def settleFinding (s : State) (p : PartyId) : Phase → Option State
  | .settling _ none => some (s.setPhase p .settled)
  | .settling model (some mismatch) =>
    let current := s.row.view p
    if current.lastHealthCheckAt = model.lastHealthCheckAt ∧
        current.probedCall = model.probedCall then do
      let row ← s.row.rewrite p { current with capabilityMismatch := mismatch }
      return { s with row }.setPhase p .settled
    else some (s.setPhase p .settled)
  | _ => none

/-! ### Commits -/

/-- The commit of a transaction. A patch goes on when it has to start a check. -/
def commit (s : State) (p : PartyId) : Phase → Option State
  | .patched model true => some ({ s with row := s.row.commit p }.setPhase p (.enqueuing model))
  | .patched _ false | .stamped | .settled => some ({ s with row := s.row.commit p }.leave p)
  | _ => none

/-- Another service commits other columns of the row. -/
def other (s : State) (model : AiModel) : Option State := do
  guard s.row.pending.isNone
  guard (model.probedCall = s.row.committed.probedCall ∧
    model.capabilityMismatch = s.row.committed.capabilityMismatch)
  return { s with row := { committed := model } }

end State

/-- A label: a step of a party, a commit of another service, or the passing of a second. -/
inductive Label
  | tick
  | other (model : AiModel)
  | patch (p : PartyId) (changes : AiModelUpdateChanges)
  | apply (p : PartyId)
  | enqueue (p : PartyId) (sent : Bool)
  | stamp (p : PartyId)
  | checkNow (p : PartyId)
  | start (p : PartyId)
  | probe (p : PartyId) (status : WarmupStatus) (reason : Option String) (late : Bool)
  | probeImage (p : PartyId) (answer : ImageAnswer)
  | settle (p : PartyId)
  | settleFinding (p : PartyId)
  | commit (p : PartyId)
  | abort (p : PartyId)

/-- One step of the system. -/
def step (env : Env) (s : State) : Label → Option State
  | .tick => some { s with now := s.now + 1 }
  | .other model => s.other model
  | .patch p changes => s.patch p changes
  | .apply p => (s.parties p).bind (State.apply env s p)
  | .enqueue p sent => (s.parties p).bind (s.enqueue p sent)
  | .stamp p => (s.parties p).bind (s.stamp p)
  | .checkNow p => State.checkNow env s p
  | .start p => s.start p
  | .probe p status reason late => (s.parties p).bind (s.probe p status reason late)
  | .probeImage p answer => (s.parties p).bind (s.probeImage p answer)
  | .settle p => (s.parties p).bind (s.settle p)
  | .settleFinding p => (s.parties p).bind (s.settleFinding p)
  | .commit p => (s.parties p).bind (s.commit p)
  | .abort p => (s.parties p).map fun _ => s.abort p

end RedTeaming.AiGateway
