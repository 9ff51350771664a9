import RedTeaming.Evaluations.Rows
import RedTeaming.Library.Locks
import RedTeaming.Library.Records
import RedTeaming.Library.Transition

/-!
# `RedTeaming.Evaluations.Scenarios`: concurrent writes to the order of scenarios

The writes of `services/scenarios.py` that create, delete, restore and reorder scenarios, as
concurrent transactions. A step is one database statement of one transaction, or the lock of one
row by such a statement.

- A statement reads the committed rows of its moment (READ COMMITTED). No statement of these
  transactions selects a row that its own transaction wrote, but for the last select of a reorder,
  which only makes the response.
- `SELECT ... FOR UPDATE` fixes the rows it wants when it starts, and then locks them one by one,
  in any order. It waits for a row that another transaction holds. Then it reads the row again,
  and passes over one that it does not want any more.
- A create and a restore lock the row of the evaluation. A delete, a restore and a reorder lock
  the scenarios that they write, and a reorder does not lock the evaluation.
- Locks are held to the end of the transaction.

A transaction can end by `abort` at any time: an error of the service, or a deadlock. The routes
assert the write access to the parent group before. No request here writes an evaluation or a
group, so these tables are fixed.
-/

set_option autoImplicit false

namespace RedTeaming.Evaluations.Scenarios

open RedTeaming.Library

abbrev TxnId := Nat

/-- The tables of the parents. -/
structure Env where
  evaluations : Table Evaluation
  groups : Table EvaluationGroup

/-- `ScenarioCreate`. -/
structure ScenarioCreate where
  name : String
  description : String
  requiredReviews : Nat := 1

/-- `ScenarioReorderRequest`: a nonempty list of ids without duplicates. -/
structure ScenarioReorderRequest where
  scenarioIds : List UUID
  nonempty : scenarioIds ≠ []
  nodup : scenarioIds.Nodup

/-! ### `services/scenarios.py` -/

/-- The live scenarios of an evaluation. -/
def liveOf (rows : Table Scenario) (evaluationId : UUID) : List Scenario :=
  (liveSelect rows).filter fun row => row.evaluationId == evaluationId

/-- `_next_position`: the position that appends after the last live scenario. -/
def nextPosition (rows : Table Scenario) (evaluationId : UUID) : Nat :=
  match ((liveOf rows evaluationId).map Scenario.position).max? with
  | none => 0
  | some maxPosition => maxPosition + 1

/-- The row that `create_scenario` makes. -/
def newScenario (rows : Table Scenario) (now : Time) (id evaluationId : UUID)
    (payload : ScenarioCreate) : Scenario where
  id
  createdAt := now
  evaluationId
  name := payload.name
  description := payload.description
  position := nextPosition rows evaluationId
  requiredReviews := payload.requiredReviews

/-- The row that `restore_scenario` makes of a tombstone: live again, and last. -/
def restoreScenario (rows : Table Scenario) (row : Scenario) : Scenario :=
  restore { row with position := nextPosition rows row.evaluationId }

/-- `get_scenario` without a caller: the live scenario of the evaluation with the id. -/
def getScenario (rows : Table Scenario) (evaluationId scenarioId : UUID) : Option Scenario :=
  (findLive rows scenarioId).filter fun row => row.evaluationId == evaluationId

/-- The evaluation and its group are live. -/
def parentsLive (env : Env) (evaluationId : UUID) : Bool :=
  (findLive env.evaluations evaluationId).any fun evaluation =>
    (findLive env.groups evaluation.evaluationGroupId).isSome

/-- `get_restorable_scenario`: the tombstone of the evaluation that this caller may restore. -/
def getRestorableScenario (env : Env) (rows : Table Scenario) (evaluationId scenarioId : UUID)
    (callerId : UUID) (canManage : Bool) (deletedCutoff : Time) : Option Scenario :=
  (findRestorable rows deletedCutoff (if canManage then none else some callerId)
    scenarioId).filter
    fun row => row.evaluationId == evaluationId && parentsLive env evaluationId

/-- A list of ids, sorted and printed as strings. -/
def printIds (ids : List UUID) : String :=
  let names := (ids.map toString).mergeSort fun a b => decide (a ≤ b)
  "[" ++ ", ".intercalate (names.map quoted) ++ "]"

/-- The checks and the writes of `reorder_scenarios` on the rows that it locked. An unknown id is
reported before an omitted one. -/
def reorderScenarios (evaluationId : UUID) (scenarioIds : List UUID) (rows : List Scenario) :
    Except ApiError (List Scenario) := do
  let unknown := scenarioIds.filter fun id => !(rows.map key).contains id
  check unknown.isEmpty (.notFound
    ("Scenarios not found in evaluation " ++ toString evaluationId ++ ": " ++ printIds unknown ++
      "."))
  check (rows.all fun row => scenarioIds.contains (key row))
    (.conflict "scenario_ids must list every scenario in the evaluation exactly once.")
  return rows.map fun row => { row with position := scenarioIds.idxOf (key row) }

/-! ### The transactions -/

/-- A request. The id of a new scenario is made by the client. -/
inductive Request
  | create (evaluationId : UUID) (payload : ScenarioCreate)
  | delete (evaluationId scenarioId : UUID) (callerId : UUID)
  | restore (evaluationId scenarioId : UUID) (callerId : UUID) (canManage : Bool)
      (deletedCutoff : Time)
  | reorder (evaluationId : UUID) (payload : ScenarioReorderRequest)

/-- Where a transaction is.

- A create goes from `begun` over `evaluationLocked` to `inserted`.
- A delete goes from `begun` over `found` to `deleted`.
- A restore goes from `begun` over `tombstoneFound` and `appending` to `restored`.
- A reorder goes from `begun` over `selecting` to `reordered`. Its `FOR UPDATE` still wants the
  rows `wanted`, and holds the rows `got`.

The last phase of each holds the new versions of the rows. -/
inductive Phase
  | begun
  | evaluationLocked
  | inserted (row : Scenario)
  | found (row : Scenario)
  | deleted (row : Scenario)
  | tombstoneFound (row : Scenario)
  | appending (row : Scenario)
  | restored (row : Scenario)
  | selecting (wanted : List UUID) (got : List Scenario)
  | reordered (rows : List Scenario)

/-- An open transaction. -/
structure Txn where
  request : Request
  phase : Phase := .begun

/-- The committed scenarios, the open transactions, and the locks. -/
structure State where
  rows : Table Scenario
  txns : Records TxnId Txn := fun _ => none
  evaluationLock : Locks UUID TxnId := fun _ => none
  scenarioLock : Locks UUID TxnId := fun _ => none

namespace State

/-- Write the record of a transaction. -/
def setTxn (s : State) (t : TxnId) (txn : Txn) : State := { s with txns := s.txns.set t txn }

/-- Start a request. -/
def begin (s : State) (t : TxnId) (request : Request) : Option State :=
  match s.txns t with
  | none => some (s.setTxn t { request })
  | some _ => none

/-- `get_evaluation(for_update=True)`, for a create, and for a restore that holds its
tombstone. -/
def lockEvaluation (env : Env) (s : State) (t : TxnId) (txn : Txn) : Option State :=
  match txn.phase, txn.request with
  | .begun, .create evaluationId _ =>
    if (findLive env.evaluations evaluationId).isSome ∧
      s.evaluationLock.mayTake evaluationId t then
      some ({ s with evaluationLock := s.evaluationLock.take evaluationId t }.setTxn t
        { txn with phase := .evaluationLocked })
    else none
  | .tombstoneFound row, .restore _ _ _ _ _ =>
    if (findLive env.evaluations row.evaluationId).isSome ∧
        s.evaluationLock.mayTake row.evaluationId t then
      some ({ s with evaluationLock := s.evaluationLock.take row.evaluationId t }.setTxn t
        { txn with phase := .appending row })
    else none
  | _, _ => none

/-- `get_scenario(for_update=True)` of a delete, and `get_restorable_scenario` of a restore. -/
def lockScenario (env : Env) (s : State) (t : TxnId) (txn : Txn) : Option State :=
  match txn.phase, txn.request with
  | .begun, .delete evaluationId scenarioId _ =>
    match getScenario s.rows evaluationId scenarioId with
    | some row =>
      if s.scenarioLock.mayTake (key row) t then
        some ({ s with scenarioLock := s.scenarioLock.take (key row) t }.setTxn t
          { txn with phase := .found row })
      else none
    | none => none
  | .begun, .restore evaluationId scenarioId callerId canManage deletedCutoff =>
    match getRestorableScenario env s.rows evaluationId scenarioId callerId canManage
      deletedCutoff with
    | some row =>
      if s.scenarioLock.mayTake (key row) t then
        some ({ s with scenarioLock := s.scenarioLock.take (key row) t }.setTxn t
          { txn with phase := .tombstoneFound row })
      else none
    | none => none
  | _, _ => none

/-- The start of the `FOR UPDATE` of a reorder: it wants the rows that are live now. -/
def select (s : State) (t : TxnId) (txn : Txn) : Option State :=
  match txn.phase, txn.request with
  | .begun, .reorder evaluationId _ =>
    some (s.setTxn t { txn with phase := .selecting ((liveOf s.rows evaluationId).map key) [] })
  | _, _ => none

/-- The `FOR UPDATE` of a reorder comes to a row. It takes the committed version, and passes over
a row that is not live any more. -/
def lockNext (s : State) (id : UUID) (t : TxnId) (txn : Txn) : Option State :=
  match txn.phase, txn.request with
  | .selecting wanted got, .reorder evaluationId _ =>
    if id ∈ wanted ∧ s.scenarioLock.mayTake id t then
      match getScenario s.rows evaluationId id with
      | some row =>
        some ({ s with scenarioLock := s.scenarioLock.take id t }.setTxn t
          { txn with phase := .selecting (wanted.erase id) (row :: got) })
      | none => some (s.setTxn t { txn with phase := .selecting (wanted.erase id) got })
    else none
  | _, _ => none

/-- The statements that write. A create and a restore read the next position first. -/
def write (s : State) (now : Time) (id : UUID) (t : TxnId) (txn : Txn) : Option State :=
  match txn.phase, txn.request with
  | .evaluationLocked, .create evaluationId payload =>
    some (s.setTxn t
      { txn with phase := .inserted (newScenario s.rows now id evaluationId payload) })
  | .found row, .delete _ _ callerId =>
    some (s.setTxn t { txn with phase := .deleted (softDelete now callerId row) })
  | .appending row, .restore _ _ _ _ _ =>
    some (s.setTxn t { txn with phase := .restored (restoreScenario s.rows row) })
  | .selecting [] got, .reorder evaluationId payload =>
    match reorderScenarios evaluationId payload.scenarioIds got with
    | .ok rows => some (s.setTxn t { txn with phase := .reordered rows })
    | .error _ => none
  | _, _ => none

/-- End a transaction: drop its record and its locks. -/
def finish (s : State) (t : TxnId) : State :=
  { s with
      txns := s.txns.drop t
      evaluationLock := s.evaluationLock.release t
      scenarioLock := s.scenarioLock.release t }

/-- Commit. A create with a taken id violates the primary key. -/
def commit (s : State) (t : TxnId) (txn : Txn) : Option State :=
  match txn.phase with
  | .inserted row => (s.rows.insertAll [row]).map fun rows => State.finish { s with rows } t
  | .deleted row | .restored row => some ({ s with rows := s.rows.overwrite [row] }.finish t)
  | .reordered rows => some ({ s with rows := s.rows.overwrite rows }.finish t)
  | _ => none

end State

/-- A label: a step of a transaction. -/
inductive Label
  | begin (t : TxnId) (request : Request)
  | lockEvaluation (t : TxnId)
  | lockScenario (t : TxnId)
  | select (t : TxnId)
  | lockNext (t : TxnId) (id : UUID)
  | write (t : TxnId) (now : Time) (id : UUID)
  | commit (t : TxnId)
  | abort (t : TxnId)

/-- One step of the system. -/
def step (env : Env) (s : State) : Label → Option State
  | .begin t request => s.begin t request
  | .lockEvaluation t => (s.txns t).bind (State.lockEvaluation env s t)
  | .lockScenario t => (s.txns t).bind (State.lockScenario env s t)
  | .select t => (s.txns t).bind (s.select t)
  | .lockNext t id => (s.txns t).bind (s.lockNext id t)
  | .write t now id => (s.txns t).bind (s.write now id t)
  | .commit t => (s.txns t).bind (s.commit t)
  | .abort t => (s.txns t).map fun _ => s.finish t

end RedTeaming.Evaluations.Scenarios
