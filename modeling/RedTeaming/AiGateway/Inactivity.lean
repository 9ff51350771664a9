import RedTeaming.AiGateway.Models
import RedTeaming.Library.Latch
import RedTeaming.Library.Locks
import RedTeaming.Library.Records

/-!
# `RedTeaming.AiGateway.Inactivity`: the inactivity sweep, and who re-arms it

`core/ai_gateway/services/inactivity.py`, the stamps of `dispatch.py`, and the writers of the
registry that silence an alert or re-arm it. A sweep reads its clock, lists the quiet models, and
claims one after the other. A claim is an update under the whole predicate, and it is committed
before the next one.

Any number of parties run interleaved, with any readings of their clocks. An update takes the lock
of its row and sees the committed version. A party that finds the lock taken waits: it has no
step. A save reads its row under the lock. A crash ends a party at any point (`abort`).

`State.log` is a ghost: the committed writes, each with the row before it and after it.
-/

set_option autoImplicit false

namespace RedTeaming.AiGateway.Inactivity

open RedTeaming.Library

/-- `_SECONDS_PER_HOUR`. -/
def secondsPerHour : Nat := 3600

/-- `_WARMUP_STAMP_INTERVAL`, in seconds. -/
def warmupStampInterval : Nat := 5 * 60

/-- `idle_since`: the last use. A model that was never used counts from its creation. -/
def idleSince (model : AiModel) : Time := model.lastUsedAt.getD model.createdAt

/-- `_inactive_predicate`. The interval is signed in the source, so it is a sum here. -/
def inactivePredicate (now : Time) (model : AiModel) : Bool :=
  model.warmupEnabled && model.disabledAt.isNone && model.inactivityAlertedAt.isNone &&
    model.inactivityAlertHours.any fun hours => idleSince model + hours * secondsPerHour ≤ now

/-- `find_inactive_models`. -/
def findInactiveModels (models : Table AiModel) (now : Time) : List AiModel :=
  (liveSelect models).filter (inactivePredicate now)

/-- `_claim`: the row with the alert stamped, when it is still alertable. -/
def claim (now : Time) (model : AiModel) : Option AiModel :=
  if model.live && inactivePredicate now model then
    some { model with inactivityAlertedAt := some now }
  else none

/-! ### The writers -/

/-- A stamp of the dispatch, with the reading of its clock. -/
inductive Stamp
  | usage (now : Time)
  | warmup (now : Time)

/-- `_stamp_usage` and `_stamp_warmup`: the row with the stamp. A warm-up probe that comes soon
after another one is not stamped. -/
def Stamp.apply : Stamp → AiModel → Option AiModel
  | .usage now, model => some { model with lastUsedAt := some now, inactivityAlertedAt := none }
  | .warmup now, model =>
    if model.lastWarmupAt.all fun last => last + warmupStampInterval < now then
      some { model with lastWarmupAt := some now }
    else none

/-- An admin's request for one model, with the time of the server, or the start of the restore
window. -/
inductive Action
  | update (now : Time) (changes : AiModelUpdateChanges)
  | delete (now : Time) (byId : UUID)
  | restore (cutoff : Time)

/-- What the locked read of a request finds: `get_model`, or `get_restorable_model`. -/
def Action.load (models : Table AiModel) (modelId : UUID) : Action → Option AiModel
  | .update .. | .delete .. => findLive models modelId
  | .restore cutoff => findRestorable models cutoff none modelId

/-- A live row, other than `row`, has the value of `row` in the field. -/
def clashes (models : Table AiModel) (field : AiModel → String) (row : AiModel) : Bool :=
  (liveSelect models).any fun other => other.id != row.id && field other == field row

/-- The unique indexes of the live rows. -/
def checkUnique (models : Table AiModel) (row : AiModel) : Except ApiError Unit := do
  check (!clashes models AiModel.name row) (.conflict "A model with this name already exists.")
  check (!clashes models AiModel.modelAlias row)
    (.conflict "A model with this model_alias already exists.")

/-- The message of a restore whose name or alias is taken. -/
def takenMessage (field value : String) : String :=
  "A live model already uses the " ++ field ++ " " ++ quoted value ++ "; rename it and retry."

/-- The row that a request writes: `update_model`, `soft_delete_model`, or `restore_model`. -/
def Action.apply (env : Env) (models : Table AiModel) (model : AiModel) :
    Action → Except ApiError AiModel
  | .update now changes => do
    let updated ← updateModel env now model changes
    checkUnique models updated
    return updated
  | .delete now byId => .ok (softDelete now byId model)
  | .restore _ => do
    check (!clashes models AiModel.name model) (.conflict (takenMessage "name" model.name))
    check (!clashes models AiModel.modelAlias model)
      (.conflict (takenMessage "model_alias" model.modelAlias))
    return model.restore

/-! ### The history -/

/-- Why a row was written. -/
inductive Cause
  | stamp (stamp : Stamp)
  | action (action : Action)
  | claim (now : Time)
  | other

/-- A committed write. -/
structure Entry where
  cause : Cause
  before : AiModel
  after : AiModel

/-- A knob that silences the alert is off after the write, and was on before: the flag, the
warm-up, the threshold, or the tombstone. -/
def restoresKnob (before after : AiModel) : Bool :=
  before.disabledAt.isSome && after.disabledAt.isNone ||
    !before.warmupEnabled && after.warmupEnabled ||
    before.inactivityAlertHours.isNone && after.inactivityAlertHours.isSome ||
    !before.live && after.live

/-- The write is real traffic. -/
def Cause.isUsage : Cause → Bool
  | .stamp (.usage _) => true
  | _ => false

/-- The write re-arms the alert: it is real traffic, or it restores a knob. -/
def Entry.rearms (e : Entry) : Bool := e.cause.isUsage || restoresKnob e.before e.after

/-- The write claims the alert of the model, at a reading of the clock. -/
def Entry.Claims (e : Entry) (modelId : UUID) (now : Time) : Prop :=
  e.before.id = modelId ∧ e.cause = .claim now

/-- The write re-arms the alert of the model. -/
def Entry.Rearms (e : Entry) (modelId : UUID) : Prop := e.before.id = modelId ∧ e.rearms = true

/-- The reading of a usage stamp of the model. -/
def Entry.usedAt (modelId : UUID) (e : Entry) : Option Time :=
  if e.before.id = modelId then
    match e.cause with
    | .stamp (.usage now) => some now
    | _ => none
  else none

/-- The last usage stamp of the model in a history. -/
def lastUse (log : List Entry) (modelId : UUID) : Option Time :=
  (log.filterMap (Entry.usedAt modelId)).getLast?

/-! ### The system -/

abbrev PartyId := Nat

/-- Where a party is. `written` has updated a row and has to commit. A sweep goes on with
`rest`. -/
inductive Phase
  | stamping (modelId : UUID) (stamp : Stamp)
  | loaded (model : AiModel) (action : Action)
  | selecting (now : Time) (recipients : Bool)
  | sweeping (now : Time) (candidates : List UUID)
  | written (cause : Cause) (after : AiModel) (rest : Option (Time × List UUID))

/-- The committed rows, the locks, the parties, and the committed writes. -/
structure State where
  models : Table AiModel
  locks : Locks UUID PartyId := fun _ => none
  parties : Records PartyId Phase := fun _ => none
  log : List Entry := []

/-- A step. -/
inductive Event
  | create (modelId : UUID) (now : Time) (payload : AiModelCreate)
  | stamp (p : PartyId) (modelId : UUID) (stamp : Stamp)
  | load (p : PartyId) (modelId : UUID) (action : Action)
  | sweep (p : PartyId) (now : Time) (recipients : Bool)
  | statement (p : PartyId)
  | commit (p : PartyId)
  | abort (p : PartyId)
  | other (model : AiModel)

namespace State
variable (s : State)

/-- Write the record of a party. -/
def setPhase (p : PartyId) (phase : Phase) : State := { s with parties := s.parties.set p phase }

/-- A party is done, or fails. Its locks are released. -/
def leave (p : PartyId) : State :=
  { s with parties := s.parties.drop p, locks := s.locks.release p }

/-- The party takes the lock of a row, unless it has to wait for it. -/
def lock (p : PartyId) (modelId : UUID) : Option State :=
  if s.locks.mayTake modelId p then some { s with locks := s.locks.take modelId p } else none

end State

/-- The next statement of a party. One that raises has no step, nor has one that waits. -/
def statement (env : Env) (s : State) (p : PartyId) : Phase → Option State
  | .stamping modelId stamp =>
    match (s.models.find? modelId).bind stamp.apply with
    | some after =>
      (s.lock p modelId).map fun locked => locked.setPhase p (.written (.stamp stamp) after none)
    | none => some (s.leave p)
  | .loaded model action =>
    (action.apply env s.models model).toOption.map fun after =>
      s.setPhase p (.written (.action action) after none)
  -- Without anybody to tell, the sweep claims nothing.
  | .selecting now recipients =>
    some (if recipients then
      s.setPhase p (.sweeping now ((findInactiveModels s.models now).map key))
    else s.leave p)
  | .sweeping _ [] => some (s.leave p)
  | .sweeping now (modelId :: rest) =>
    match (s.models.find? modelId).bind (claim now) with
    | some after =>
      (s.lock p modelId).map fun locked =>
        locked.setPhase p (.written (.claim now) after (some (now, rest)))
    -- The row is no longer alertable.
    | none => some (s.setPhase p (.sweeping now rest))
  | .written .. => none

/-- The commit of a write. A sweep goes on with its next candidate. -/
def commit (s : State) (p : PartyId) : Phase → Option State
  | .written cause after rest =>
    (s.models.find? (key after)).map fun before =>
      let committed :=
        { s.leave p with
            models := s.models.overwrite [after]
            log := s.log ++ [⟨cause, before, after⟩] }
      match rest with
      | some (now, candidates) => committed.setPhase p (.sweeping now candidates)
      | none => committed
  | _ => none

/-- Another service writes other columns: the knobs, the stamps, and the times are as they
were. -/
def leavesAlert (before after : AiModel) : Bool :=
  decide (after.toBaseModel = before.toBaseModel) && after.disabledAt == before.disabledAt &&
    after.warmupEnabled == before.warmupEnabled &&
    after.inactivityAlertHours == before.inactivityAlertHours &&
    after.lastUsedAt == before.lastUsedAt && after.lastWarmupAt == before.lastWarmupAt &&
    after.inactivityAlertedAt == before.inactivityAlertedAt

/-- One step. -/
def step (env : Env) (s : State) : Event → Option State
  | .create modelId now payload =>
    (do
      let model ← createModel env modelId now payload
      checkUnique s.models model
      flush s.models [model]).toOption.map fun models => { s with models }
  | .stamp p modelId stamp =>
    if (s.parties p).isNone then some (s.setPhase p (.stamping modelId stamp)) else none
  | .load p modelId action =>
    if (s.parties p).isNone then
      (s.lock p modelId).bind fun locked =>
        (action.load s.models modelId).map fun model => locked.setPhase p (.loaded model action)
    else none
  | .sweep p now recipients =>
    if (s.parties p).isNone then some (s.setPhase p (.selecting now recipients)) else none
  | .statement p => (s.parties p).bind (statement env s p)
  | .commit p => (s.parties p).bind (commit s p)
  | .abort p => (s.parties p).map fun _ => s.leave p
  | .other model =>
    (s.models.find? (key model)).bind fun before =>
      if (s.locks (key model)).isNone && leavesAlert before model then
        some { s with
          models := s.models.overwrite [model]
          log := s.log ++ [⟨.other, before, model⟩] }
      else none

end RedTeaming.AiGateway.Inactivity
