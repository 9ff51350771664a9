import Mathlib.Data.List.Basic

/-!
# `RedTeaming.Library.Savepoints`: a transaction with savepoints

A session is one open transaction of a database. It works on its own version, and the others read
the committed one. A savepoint remembers the version at its time. `release` forgets the savepoint
and keeps the writes, and `rollbackTo` goes back to it.

`nested` runs a body under a savepoint, which is released when the body returns and rolled back
when it raises. For a body that only writes, `nested_write` says what is left: the writes of a
body that returned, and nothing of one that raised.

Nothing here names a program. The versions, the writes and the exceptions are parameters.
-/

set_option autoImplicit false

namespace RedTeaming.Library

/-- A session of a database: the committed version, the one of the open transaction, and the
savepoints, the last one first. -/
structure Session (σ : Type) where
  committed : σ
  working : σ
  savepoints : List σ

namespace Session

variable {σ ω ε α : Type}

/-- A session that has just begun. -/
def start (db : σ) : Session σ := ⟨db, db, []⟩

/-- Run some writes. -/
def write (apply : σ → ω → σ) (s : Session σ) (writes : List ω) : Session σ :=
  { s with working := writes.foldl apply s.working }

/-- `SAVEPOINT`. -/
def beginNested (s : Session σ) : Session σ := { s with savepoints := s.working :: s.savepoints }

/-- `RELEASE SAVEPOINT`. -/
def release (s : Session σ) : Session σ := { s with savepoints := s.savepoints.tail }

/-- `ROLLBACK TO SAVEPOINT`, and the savepoint is gone. -/
def rollbackTo (s : Session σ) : Session σ :=
  { s with working := s.savepoints.headD s.working, savepoints := s.savepoints.tail }

/-- `COMMIT`. -/
def commit (s : Session σ) : Session σ := ⟨s.working, s.working, []⟩

/-- `ROLLBACK`. -/
def rollback (s : Session σ) : Session σ := ⟨s.committed, s.committed, []⟩

/-- The end of a session. What is not committed is lost. -/
def close (s : Session σ) : σ := s.rollback.committed

/-- Run a body under a savepoint. -/
def nested (body : Session σ → Session σ × Except ε α) (s : Session σ) : Session σ × Except ε α :=
  match body s.beginNested with
  | (s, .ok a) => (s.release, .ok a)
  | (s, .error e) => (s.rollbackTo, .error e)

@[simp] theorem close_start (db : σ) : (start db).close = db := rfl

@[simp] theorem close_write (apply : σ → ω → σ) (s : Session σ) (writes : List ω) :
    (s.write apply writes).close = s.close := rfl

@[simp] theorem close_rollback (s : Session σ) : s.rollback.close = s.close := rfl

@[simp] theorem close_commit (s : Session σ) : s.commit.close = s.working := rfl

@[simp] theorem write_nil (apply : σ → ω → σ) (s : Session σ) : s.write apply [] = s := rfl

/-- Two lists of writes are one. -/
theorem write_write (apply : σ → ω → σ) (s : Session σ) (writes more : List ω) :
    (s.write apply writes).write apply more = s.write apply (writes ++ more) := by
  rw [write, write, write, List.foldl_append]

/-- A body that writes and returns keeps its writes, and one that writes and raises leaves
none. -/
theorem nested_write (apply : σ → ω → σ) (s : Session σ) (writes : List ω)
    (outcome : Except ε α) :
    nested (fun s => (s.write apply writes, outcome)) s =
      match outcome with
      | .ok a => (s.write apply writes, .ok a)
      | .error e => (s, .error e) := by
  cases outcome <;> rfl

end Session

end RedTeaming.Library
