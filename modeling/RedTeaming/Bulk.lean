import Mathlib.Data.List.Basic
import RedTeaming.Library.Savepoints

/-!
# `RedTeaming.Bulk`: bulk requests

`core/bulk.py`, and `api_error_to_problem` of `core/error_handlers.py`. `applyBulk` runs a
processor over the rows of a request, each row under a savepoint. An `APIError` fails its row. Any
other exception ends the request, and the session is closed without a commit.

A processor is a parameter. It reads the session and writes to it, so it is a function of what the
session shows: the writes that it makes, and how it ends after them. It may raise after any of its
writes. A flush that fails when the savepoint is released is one more exception of the row.

`rowRuns` says what the rows do one after the other, with no session and no savepoint.
`apply_bulk_isolates` relates the two.
-/

set_option autoImplicit false

namespace RedTeaming.Bulk

open RedTeaming.Library

/-! ### Problems -/

/-- A part of a location: a key, or an index. -/
inductive LocPart
  | key (name : String)
  | index (n : Nat)
deriving DecidableEq

/-- `ProblemErrorItem`. -/
structure ProblemErrorItem where
  loc : List LocPart
  msg : String
  type : String
deriving DecidableEq

/-- `Problem`. -/
structure Problem where
  type : String
  title : String
  status : Nat
  detail : Option String
  inst : Option String
  errors : Option (List ProblemErrorItem)
deriving DecidableEq

/-- `APIError`. -/
structure APIError where
  statusCode : Nat
  title : String
  type : String
  detail : Option String
  errors : Option (List ProblemErrorItem)
deriving DecidableEq

/-- `api_error_to_problem`. -/
def apiErrorToProblem (exc : APIError) (inst : Option String) : Problem :=
  { type := exc.type, title := exc.title, status := exc.statusCode, detail := exc.detail, inst,
    errors := exc.errors }

/-- Where the payload of a row is in the request. -/
def rowLoc (index : Nat) : List LocPart := [.key "body", .key "rows", .index index, .key "data"]

/-- `_row_relative_problem`. -/
def rowRelativeProblem (problem : Problem) (index : Nat) : Problem :=
  match problem.errors with
  | none => problem
  | some errors =>
    { problem with errors := some (errors.map fun item =>
        { item with loc := rowLoc index ++ item.loc.drop 1 }) }

/-! ### Requests and responses -/

/-- `BulkRow`. -/
structure BulkRow (T : Type) where
  rowKey : String
  data : T

/-- `BulkRequest`. -/
structure BulkRequest (T : Type) where
  rows : List (BulkRow T)
  dryRun : Bool

/-- The status of a row. -/
inductive RowStatus
  | ok
  | failed
deriving DecidableEq

/-- `BulkRowResult`. -/
structure BulkRowResult (R : Type) where
  rowKey : String
  status : RowStatus
  data : Option R
  error : Option Problem

/-- `BulkResponse`. -/
structure BulkResponse (R : Type) where
  dryRun : Bool
  total : Nat
  succeeded : Nat
  failed : Nat
  results : List (BulkRowResult R)

/-- What a processor raises. -/
inductive Raised (ε : Type)
  | api (exc : APIError)
  | other (exc : ε)

/-- What a processor does to a database that it reads: its writes, and how it ends after them. -/
abbrev Processor (σ ω T R ε : Type) := σ → T → List ω × Except (Raised ε) R

/-- What the loop has collected. -/
structure Collected (R : Type) where
  results : List (BulkRowResult R) := []
  succeeded : Nat := 0
  failed : Nat := 0

section
variable {σ ω T R ε : Type} (apply : σ → ω → σ) (processor : Processor σ ω T R ε)

/-- `await processor(session, row.data)`. -/
def call (data : T) (s : Session σ) : Session σ × Except (Raised ε) R :=
  (s.write apply (processor s.working data).1, (processor s.working data).2)

/-- The loop over the rows. -/
def bulkLoop : Nat → List (BulkRow T) → Collected R → Session σ →
    Session σ × Except ε (Collected R)
  | _, [], acc, s => (s, .ok acc)
  | index, row :: rows, acc, s =>
    match s.nested (call apply processor row.data) with
    | (s, .error (.other exc)) => (s, .error exc)
    | (s, .error (.api exc)) =>
      let result := {
        rowKey := row.rowKey
        status := .failed
        data := none
        error := some (rowRelativeProblem (apiErrorToProblem exc none) index) }
      bulkLoop (index + 1) rows
        { acc with results := acc.results ++ [result], failed := acc.failed + 1 } s
    | (s, .ok data) =>
      let result := { rowKey := row.rowKey, status := .ok, data := some data, error := none }
      bulkLoop (index + 1) rows
        { acc with results := acc.results ++ [result], succeeded := acc.succeeded + 1 } s

/-- `apply_bulk`. -/
def applyBulk (request : BulkRequest T) (s : Session σ) :
    Session σ × Except ε (BulkResponse R) :=
  match bulkLoop apply processor 0 request.rows {} s with
  | (s, .error exc) => (s, .error exc)
  | (s, .ok acc) =>
    (if request.dryRun then s.rollback else s.commit, .ok {
      dryRun := request.dryRun
      total := request.rows.length
      succeeded := acc.succeeded
      failed := acc.failed
      results := acc.results })

/-! ### What the rows do -/

/-- A row that is run on a database: its writes, and how it ends. -/
abbrev RowRun (ω R ε : Type) := List ω × Except (Raised ε) R

/-- The writes that a row leaves: all of them when it returned, and none otherwise. -/
def RowRun.kept (run : RowRun ω R ε) : List ω :=
  match run.2 with
  | .ok _ => run.1
  | .error _ => []

/-- The row raised another exception than an `APIError`. -/
def RowRun.Aborted (run : RowRun ω R ε) : Prop := ∃ exc, run.2 = .error (.other exc)

/-- The rows one after the other. A row sees the writes of the rows before it that returned. -/
def rowRuns : σ → List (BulkRow T) → List (RowRun ω R ε)
  | _, [] => []
  | db, row :: rows =>
    let run : RowRun ω R ε := processor db row.data
    run :: rowRuns (run.kept.foldl apply db) rows

/-- The result of a row says how the row ended. -/
def IsResult (index : Nat) (row : BulkRow T) (run : RowRun ω R ε)
    (result : BulkRowResult R) : Prop :=
  match run.2 with
  | .ok data => result = ⟨row.rowKey, .ok, some data, none⟩
  | .error (.api exc) => result = ⟨row.rowKey, .failed, none,
      some (rowRelativeProblem (apiErrorToProblem exc none) index)⟩
  | .error (.other _) => False

/-- The results of some rows, the first of them at `index`. -/
inductive AreResults :
    Nat → List (BulkRow T) → List (RowRun ω R ε) → List (BulkRowResult R) → Prop
  | nil {index : Nat} : AreResults index [] [] []
  | cons {index : Nat} {row : BulkRow T} {rows : List (BulkRow T)} {run : RowRun ω R ε}
      {runs : List (RowRun ω R ε)} {result : BulkRowResult R} {results : List (BulkRowResult R)}
      (head : IsResult index row run result) (tail : AreResults (index + 1) rows runs results) :
      AreResults index (row :: rows) (run :: runs) (result :: results)

end

/-! ### Locations -/

/-- A location of a problem of a row points into the payload of the row. -/
theorem rowLoc_isPrefix {problem : Problem} {index : Nat} {items : List ProblemErrorItem}
    (h : (rowRelativeProblem problem index).errors = some items) :
    ∀ item ∈ items, rowLoc index <+: item.loc := by
  unfold rowRelativeProblem at h
  split at h
  · rename_i hnone
    rw [hnone] at h
    cases h
  · cases h
    intro item hitem
    obtain ⟨source, -, rfl⟩ := List.mem_map.mp hitem
    exact List.prefix_append _ _

/-! ### The loop -/

section
variable {σ ω T R ε : Type} {apply : σ → ω → σ} {processor : Processor σ ω T R ε}
  {index : Nat} {rows : List (BulkRow T)} {runs : List (RowRun ω R ε)}
  {results : List (BulkRowResult R)}

/-- The problem of a row points into its payload. -/
theorem IsResult.loc {row : BulkRow T} {run : RowRun ω R ε} {result : BulkRowResult R}
    (h : IsResult index row run result) {problem : Problem}
    (hproblem : result.error = some problem) {items : List ProblemErrorItem}
    (hitems : problem.errors = some items) :
    ∀ item ∈ items, rowLoc index <+: item.loc := by
  unfold IsResult at h
  split at h
  · rw [h] at hproblem
    cases hproblem
  · rw [h] at hproblem
    cases hproblem
    exact rowLoc_isPrefix hitems
  · exact h.elim

/-- Each problem points into the payload of its own row. -/
theorem AreResults.loc (h : AreResults index rows runs results) {i : Nat}
    {result : BulkRowResult R} (hresult : results[i]? = some result) {problem : Problem}
    (hproblem : result.error = some problem) {items : List ProblemErrorItem}
    (hitems : problem.errors = some items) :
    ∀ item ∈ items, rowLoc (index + i) <+: item.loc := by
  induction h generalizing i with
  | nil => cases hresult
  | @cons index _ _ _ _ _ _ head tail ih =>
    cases i with
    | zero =>
      cases hresult
      exact head.loc hproblem hitems
    | succ i =>
      have hrest := ih hresult
      rw [Nat.add_right_comm] at hrest
      exact hrest

/-- There is one result for each row, and each is counted once. -/
theorem AreResults.counts (h : AreResults index rows runs results) :
    results.length = rows.length ∧
      results.countP (fun result => result.status == .ok) +
        results.countP (fun result => result.status == .failed) = rows.length := by
  induction h with
  | nil => exact ⟨rfl, rfl⟩
  | @cons index row rows run runs result results head tail ih =>
    have hstatus : (result.status == .ok) = !(result.status == .failed) := by
      cases result.status <;> rfl
    -- The first result is counted on one side.
    rw [List.countP_cons, List.countP_cons, List.length_cons, List.length_cons, hstatus]
    refine ⟨congrArg (· + 1) ih.1, ?_⟩
    cases result.status == .failed
    · simp only [Bool.not_false, if_pos, if_neg, Bool.false_eq_true, not_false_eq_true]
      omega
    · simp only [Bool.not_true, if_pos, if_neg, Bool.false_eq_true, not_false_eq_true]
      omega

/-- A row under its savepoint. -/
theorem nested_call (s : Session σ) (data : T) :
    s.nested (call apply processor data) =
      match (processor s.working data).2 with
      | .ok result => (s.write apply (processor s.working data).1, .ok result)
      | .error exc => (s, .error exc) := by
  have hcall : s.nested (call apply processor data) =
      s.nested fun s' =>
        (s'.write apply (processor s.working data).1, (processor s.working data).2) := rfl
  rw [hcall, Session.nested_write]
  cases (processor s.working data).2 <;> rfl

/-- What is collected with the results of some more rows. -/
def Collected.add (acc : Collected R) (results : List (BulkRowResult R)) : Collected R where
  results := acc.results ++ results
  succeeded := acc.succeeded + results.countP fun result => result.status == .ok
  failed := acc.failed + results.countP fun result => result.status == .failed

theorem Collected.add_cons (acc : Collected R) (result : BulkRowResult R) :
    (acc.add [result]).add results = acc.add (result :: results) := by
  simp only [Collected.add, List.append_assoc, List.singleton_append, List.countP_cons,
    List.countP_nil, Nat.zero_add, Nat.add_assoc]
  simp only [Nat.add_comm]

/-- The loop ends with an exception exactly when a row aborts, and it has committed nothing. When
no row aborts, the session has the writes of the rows that returned, and there is a result for
each row. -/
theorem bulkLoop_spec (apply : σ → ω → σ) (processor : Processor σ ω T R ε) (index : Nat)
    (rows : List (BulkRow T)) (acc : Collected R) (s : Session σ) :
    let runs := rowRuns apply processor s.working rows
    (∃ s' exc, bulkLoop apply processor index rows acc s = (s', .error exc) ∧ s'.close = s.close ∧
        ∃ run ∈ runs, run.Aborted) ∨
      ∃ results, AreResults index rows runs results ∧
        bulkLoop apply processor index rows acc s =
          (s.write apply (runs.flatMap RowRun.kept), .ok (acc.add results)) := by
  induction rows generalizing index acc s with
  | nil => exact .inr ⟨[], .nil, by simp [bulkLoop, rowRuns, Collected.add]⟩
  | cons row rows ih =>
    -- The rows after this one start from what it has left, so the statement is for every session.
    have hruns : rowRuns apply processor s.working (row :: rows) = processor s.working row.data ::
        rowRuns apply processor
          ((RowRun.kept (processor s.working row.data)).foldl apply s.working) rows := rfl
    rw [bulkLoop, nested_call, hruns]
    cases hend : (processor s.working row.data).2 with
    | error raised =>
      have hkept : RowRun.kept (processor s.working row.data) = [] := by rw [RowRun.kept, hend]
      rw [hkept]
      cases raised with
      | other exc =>
        -- The exception leaves the loop, after the savepoint has taken the writes of the row
        -- back.
        exact .inl ⟨s, exc, rfl, rfl, _, List.mem_cons_self, exc, hend⟩
      | api exc =>
        dsimp only
        -- The row has a failed result, and the rows after it see the session as it was.
        rcases ih (index + 1) _ s with ⟨s', exc', herror, hclose, run, hrun, habort⟩ |
          ⟨results, hresults, hloop⟩
        · exact .inl ⟨s', exc', herror, hclose, run, List.mem_cons_of_mem _ hrun, habort⟩
        · refine .inr ⟨_ :: results, .cons (by rw [IsResult, hend]) hresults, ?_⟩
          rw [hloop, ← Collected.add_cons, List.flatMap_cons, hkept, List.nil_append]
          rfl
    | ok data =>
      have hkept : RowRun.kept (processor s.working row.data) =
          (processor s.working row.data).1 := by rw [RowRun.kept, hend]
      rw [hkept]
      dsimp only
      -- The savepoint is released, and the rows after it see the writes.
      rcases ih (index + 1) _ (s.write apply (processor s.working row.data).1) with
        ⟨s', exc', herror, hclose, run, hrun, habort⟩ | ⟨results, hresults, hloop⟩
      · exact .inl ⟨s', exc', herror, hclose, run, List.mem_cons_of_mem _ hrun, habort⟩
      · refine .inr ⟨_ :: results, .cons (by rw [IsResult, hend]) hresults, ?_⟩
        rw [hloop, Session.write_write, ← Collected.add_cons, List.flatMap_cons, hkept]
        rfl

/-- A row that aborts has no result. -/
theorem AreResults.not_aborted (h : AreResults index rows runs results) {run : RowRun ω R ε}
    (hrun : run ∈ runs) : ¬ run.Aborted := by
  induction h with
  | nil => cases hrun
  | @cons index row rows run' runs result results head tail ih =>
    rcases List.mem_cons.mp hrun with rfl | hrun
    · rintro ⟨exc, hexc⟩
      rw [IsResult, hexc] at head
      exact head
    · exact ih hrun

/-- A request ends with an exception and nothing to commit, or it has a result for each row. -/
theorem applyBulk_cases (apply : σ → ω → σ) (processor : Processor σ ω T R ε)
    (request : BulkRequest T) (db : σ) :
    let runs := rowRuns apply processor db request.rows
    (∃ s exc, applyBulk apply processor request (.start db) = (s, .error exc) ∧ s.close = db ∧
        ∃ run ∈ runs, run.Aborted) ∨
      ∃ results, AreResults 0 request.rows runs results ∧
        applyBulk apply processor request (.start db) =
          (if request.dryRun then .start db
            else (Session.start ((runs.flatMap RowRun.kept).foldl apply db)), .ok {
            dryRun := request.dryRun
            total := request.rows.length
            succeeded := results.countP fun result => result.status == .ok
            failed := results.countP fun result => result.status == .failed
            results }) := by
  intro runs
  have hspec := bulkLoop_spec apply processor 0 request.rows {} (.start db)
  rcases hspec with ⟨s, exc, herror, hclose, habort⟩ | ⟨results, hresults, hloop⟩
  · exact .inl ⟨s, exc, by rw [applyBulk, herror], hclose, habort⟩
  · refine .inr ⟨results, hresults, ?_⟩
    rw [applyBulk, hloop, Collected.add]
    simp only [List.nil_append, Nat.zero_add]
    -- The end of the request is a rollback or a commit of the session of the loop.
    cases request.dryRun <;> rfl

/-- A dry run answers as the committing run does. -/
theorem dryRun_response {request : BulkRequest T} {s : Session σ} :
    (applyBulk apply processor { request with dryRun := true } s).2 =
      (applyBulk apply processor { request with dryRun := false } s).2.map
        fun response => { response with dryRun := true } := by
  unfold applyBulk
  obtain ⟨s', outcome⟩ := bulkLoop apply processor 0 request.rows {} s
  cases outcome <;> rfl

end

/-- After a bulk request, the database has the writes of the rows that returned, in order, and of
no other row. An exception that is no `APIError` leaves it as it was. There is one result for each
row, in order, and a problem points into the payload of its row. A dry run gives the same response
and commits nothing. -/
theorem apply_bulk_isolates {σ ω T R ε : Type} (apply : σ → ω → σ)
    (processor : Processor σ ω T R ε) (request : BulkRequest T) (db : σ) :
    let runs := rowRuns apply processor db request.rows
    let out := applyBulk apply processor request (.start db)
    ((∃ exc, out.2 = .error exc) ↔ ∃ run ∈ runs, run.Aborted) ∧
    (∀ exc, out.2 = .error exc → out.1.close = db) ∧
    (∀ response, out.2 = .ok response →
      out.1.close = (if request.dryRun then db else (runs.flatMap RowRun.kept).foldl apply db) ∧
      AreResults 0 request.rows runs response.results ∧
      response.total = request.rows.length ∧
      response.results.length = response.total ∧
      response.succeeded + response.failed = response.total ∧
      ∀ i result problem items, response.results[i]? = some result → result.error = some problem →
        problem.errors = some items → ∀ item ∈ items, rowLoc i <+: item.loc) ∧
    (applyBulk apply processor { request with dryRun := true } (.start db)).1.close = db ∧
    (applyBulk apply processor { request with dryRun := true } (.start db)).2 =
      (applyBulk apply processor { request with dryRun := false } (.start db)).2.map
        fun response => { response with dryRun := true } := by
  refine ⟨?_, ?_, ?_, ?_, dryRun_response⟩
  · rcases applyBulk_cases apply processor request db with
      ⟨s, exc, hout, -, habort⟩ | ⟨results, hresults, hout⟩
    · rw [hout]
      exact iff_of_true ⟨exc, rfl⟩ habort
    · rw [hout]
      refine iff_of_false (fun ⟨exc, hexc⟩ => by cases hexc) ?_
      rintro ⟨run, hrun, habort⟩
      exact hresults.not_aborted hrun habort
  · intro exc hexc
    rcases applyBulk_cases apply processor request db with
      ⟨s, exc', hout, hclose, -⟩ | ⟨results, -, hout⟩
    · rw [hout]
      exact hclose
    · rw [hout] at hexc
      cases hexc
  · intro response hresponse
    rcases applyBulk_cases apply processor request db with
      ⟨s, exc, hout, -, -⟩ | ⟨results, hresults, hout⟩
    · rw [hout] at hresponse
      cases hresponse
    · rw [hout] at hresponse ⊢
      cases hresponse
      obtain ⟨hlength, hcounts⟩ := hresults.counts
      refine ⟨?_, hresults, rfl, hlength, hcounts, fun i result problem items hresult => ?_⟩
      · cases request.dryRun <;> rfl
      · intro hproblem hitems
        have hloc := hresults.loc hresult hproblem hitems
        rw [Nat.zero_add] at hloc
        exact hloc
  · rcases applyBulk_cases apply processor { request with dryRun := true } db
      with ⟨s, exc, hout, hclose, -⟩ | ⟨results, -, hout⟩
    · rw [hout]
      exact hclose
    · rw [hout]
      rfl

end RedTeaming.Bulk
