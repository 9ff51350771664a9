import RedTeaming.Auth.ObjectRoles
import RedTeaming.Library.Locks
import RedTeaming.Library.Lookup
import RedTeaming.Library.Transition

/-!
# `RedTeaming.Auth.OwnerSystem`: concurrent changes of group members

The requests that take the protected role from somebody run as concurrent transactions:
`set_member_roles`, `remove_member`, and the deletion of a user (`delete_user_endpoint` with
`objects_solely_held_by`). `add_member` runs beside them. A step is one database statement of one
transaction, or the lock of one row by such a statement.

- A statement reads the committed rows of its moment (READ COMMITTED). The reads of a transaction
  come before its writes, so no read sees a write of its own.
- `SELECT ... FOR UPDATE` fixes the rows it wants when it starts, and then locks them one by one.
  It waits for a row that another transaction holds, and passes over one that is a tombstone by
  then.
- A write locks the row it writes. Locks are held to the end of the transaction.
- An insert waits, or fails, where a live row or an open insert has its key.

A transaction can end by `abort` at any time: an error of the service, a violated index, or a
deadlock. The role rows do not change in these runs, so the catalog is a parameter.
-/

set_option autoImplicit false

namespace RedTeaming.Auth.Owners

open RedTeaming.Library

abbrev RowId := Nat
abbrev TxnId := Nat

/-- What the requests read of the role table: the id of the protected role, and the roles that the
API projection hides. -/
structure Catalog where
  owner : RoleId
  hidden : RoleId → Bool

/-- A request. -/
inductive Request
  | setRoles (o : ObjectId) (u : UserId) (roles : List RoleId)
  | remove (o : ObjectId) (u : UserId)
  | add (o : ObjectId) (u : UserId) (roles : List RoleId)
  | delete (u : UserId)
deriving DecidableEq

/-- The user that the request is about. -/
def Request.user : Request → UserId
  | .setRoles _ u _ => u
  | .remove _ u => u
  | .add _ u _ => u
  | .delete u => u

/-- The object whose members the request changes. -/
def Request.object? : Request → Option ObjectId
  | .setRoles o _ _ => some o
  | .remove o _ => some o
  | .add o _ _ => some o
  | .delete _ => none

/-- Where a transaction is. `locking todo` is a `FOR UPDATE` that still wants the rows of `todo`.
`checked` is past the guard. -/
inductive Phase
  | begun
  | loaded
  | read
  | locking (todo : List RowId)
  | checked
deriving DecidableEq

/-- An open transaction. `own` are the live rows of the protected role that it is about to take
from the user, `snapshot` the rows that its `FOR UPDATE` started with. `drops` and `grants` are
writes still to do, and the last three fields the writes done. -/
structure Txn where
  request : Request
  phase : Phase
  own : List RowId := []
  snapshot : List RowId := []
  drops : List RowId := []
  grants : List RoleId := []
  tombstoned : List RowId := []
  inserted : List Assignment := []
  deletedUser : Bool := false
deriving DecidableEq

/-- The committed rows, the open transactions, and the locks. `begun` lists the ids of the
transactions begun so far, for a statement that looks at all open ones. -/
structure State where
  rows : List Assignment
  liveUser : UserId → Bool
  txns : TxnId → Option Txn
  begun : List TxnId
  rowLock : Locks RowId TxnId
  userLock : Locks UserId TxnId
  now : Nat

/-- The ids of the live rows that a predicate selects. -/
def select (rows : List Assignment) (p : Assignment → Bool) : List RowId :=
  (List.range rows.length).filter fun i =>
    match rows[i]? with
    | some a => a.live && p a
    | none => false

/-- A selected id is one of a live row. -/
theorem mem_select {rows : List Assignment} {p : Assignment → Bool} {i : RowId} :
    i ∈ select rows p ↔ ∃ a, rows[i]? = some a ∧ a.live = true ∧ p a = true := by
  rw [select, List.mem_filter, List.mem_range]
  cases hi : rows[i]? with
  | none => simp
  | some a =>
    have hlt : i < rows.length := (List.getElem?_eq_some_iff.mp hi).1
    simp [hlt]

/-- The row belongs to a user on an object. -/
def isMember (o : ObjectId) (u : UserId) (a : Assignment) : Bool := a.object == o && a.user == u

/-- The row stays when the user's roles become `roles`: it is one of them, or hidden. -/
def stays (cat : Catalog) (roles : List RoleId) (a : Assignment) : Bool :=
  roles.contains a.role || cat.hidden a.role

/-- What a request plans from the committed rows: the rows it will drop and the roles it will
grant. `none` when its own check of the membership fails. -/
def plan (cat : Catalog) (rows : List Assignment) : Request → Option (List RowId × List RoleId)
  | .setRoles o u roles =>
    if select rows (isMember o u) = [] then none
    else some (select rows fun a => isMember o u a && !stays cat roles a,
      roles.filter fun r => select rows (fun a => isMember o u a && a.role == r) == [])
  | .remove o u =>
    if select rows (isMember o u) = [] then none else some (select rows (isMember o u), [])
  | .add o u roles => if select rows (isMember o u) = [] then some ([], roles) else none
  | .delete _ => some ([], [])

/-- The rows of the protected role that a request takes away from its user, by a drop or by the
deletion of the user. -/
def ownerRows (cat : Catalog) (rows : List Assignment) : Request → List RowId
  | .setRoles o u roles =>
    select rows fun a => isMember o u a && !stays cat roles a && a.role == cat.owner
  | .remove o u => select rows fun a => isMember o u a && a.role == cat.owner
  | .add _ _ _ => []
  | .delete u => select rows fun a => a.user == u && a.role == cat.owner

/-- The objects of some rows. -/
def objectsOf (rows : List Assignment) (ids : List RowId) : List ObjectId :=
  ids.filterMap fun i => (rows[i]?).map Assignment.object

/-- A live user other than `u` holds the protected role on the object. -/
def otherOwner (cat : Catalog) (s : State) (o : ObjectId) (u : UserId) : Bool :=
  s.rows.any fun a =>
    a.live && a.object == o && a.role == cat.owner && a.user != u && s.liveUser a.user

namespace State

/-- Write the record of a transaction. -/
def setTxn (s : State) (t : TxnId) (txn : Txn) : State :=
  { s with txns := Function.update s.txns t (some txn) }

@[simp, grind =] theorem setTxn_rows (s : State) (t : TxnId) (txn : Txn) :
    (s.setTxn t txn).rows = s.rows := rfl

@[simp, grind =] theorem setTxn_liveUser (s : State) (t : TxnId) (txn : Txn) :
    (s.setTxn t txn).liveUser = s.liveUser := rfl

@[simp, grind =] theorem setTxn_begun (s : State) (t : TxnId) (txn : Txn) :
    (s.setTxn t txn).begun = s.begun := rfl

/-- The records of the other transactions stay. -/
@[simp, grind =] theorem setTxn_txns_of_ne {s : State} {t t' : TxnId} {txn : Txn} (h : t' ≠ t) :
    (s.setTxn t txn).txns t' = s.txns t' := Function.update_of_ne h _ _

/-- Start a request. Removing a member does not load the user. -/
def begin (s : State) (t : TxnId) (request : Request) : Option State :=
  match s.txns t with
  | some _ => none
  | none =>
    let phase := match request with
      | .remove _ _ => Phase.loaded
      | _ => Phase.begun
    some ({ s with begun := t :: s.begun }.setTxn t { request, phase })

/-- `get_user`: the user must be live. -/
def loadUser (s : State) (t : TxnId) (txn : Txn) : Option State :=
  if txn.phase = .begun ∧ s.liveUser txn.request.user then
    some (s.setTxn t { txn with phase := .loaded })
  else none

/-- Read the rows that the request decides on. Without a row of the protected role to take away
there is nothing to guard. -/
def read (cat : Catalog) (s : State) (t : TxnId) (txn : Txn) : Option State :=
  if txn.phase = .loaded then
    match plan cat s.rows txn.request with
    | none => none
    | some (drops, grants) =>
      let own := ownerRows cat s.rows txn.request
      some (s.setTxn t
        { txn with drops, grants, own, phase := if own = [] then .checked else .read })
  else none

/-- Start the `FOR UPDATE` over the live rows of the protected role on the objects at stake. -/
def beginLock (cat : Catalog) (s : State) (t : TxnId) (txn : Txn) : Option State :=
  if txn.phase = .read then
    let objects := objectsOf s.rows txn.own
    let snapshot := select s.rows fun a => objects.contains a.object && a.role == cat.owner
    some (s.setTxn t { txn with snapshot, phase := .locking snapshot })
  else none

/-- The row is live. -/
def isLive (s : State) (i : RowId) : Bool := (s.rows[i]?).any Assignment.live

/-- Lock the next row, wait for it, or pass over a tombstone. -/
def lockRow (s : State) (t : TxnId) (txn : Txn) : Option State :=
  match txn.phase with
  | .locking (i :: todo) =>
    if s.isLive i then
      if s.rowLock.mayTake i t then
        some ({ s with rowLock := s.rowLock.take i t }.setTxn t
          { txn with phase := .locking todo })
      else none
    else some (s.setTxn t { txn with phase := .locking todo })
  | _ => none

/-- The guard, after the locks: every object at stake has another live owner. -/
def check (cat : Catalog) (s : State) (t : TxnId) (txn : Txn) : Option State :=
  if txn.phase = .locking [] ∧
      (objectsOf s.rows txn.own).all (fun o => otherOwner cat s o txn.request.user) then
    some (s.setTxn t { txn with phase := .checked })
  else none

/-- Tombstone the next row. -/
def drop (s : State) (t : TxnId) (txn : Txn) : Option State :=
  match txn.phase, txn.drops with
  | .checked, i :: drops =>
    if s.rowLock.mayTake i t then
      some ({ s with rowLock := s.rowLock.take i t }.setTxn t
        { txn with drops, tombstoned := i :: txn.tombstoned })
    else none
  | _, _ => none

/-- Tombstone the user of a deletion. -/
def deleteUser (s : State) (t : TxnId) (txn : Txn) : Option State :=
  match txn.phase, txn.request with
  | .checked, .delete u =>
    if s.userLock.mayTake u t then
      some ({ s with userLock := s.userLock.take u t }.setTxn t { txn with deletedUser := true })
    else none
  | _, _ => none

/-- An open insert has the key of a row. -/
def openInsert (s : State) (a : Assignment) : Bool :=
  s.begun.any fun t => (s.txns t).any fun txn => txn.inserted.contains a

/-- Insert the next granted role. The unique index lets no live row repeat a key, apart from one
that this transaction tombstoned. -/
def grant (s : State) (t : TxnId) (txn : Txn) : Option State :=
  match txn.phase, txn.drops, txn.grants, txn.request.object? with
  | .checked, [], r :: grants, some o =>
    let a : Assignment := { object := o, user := txn.request.user, role := r }
    let clash := select s.rows fun b => b.object == o && b.user == a.user && b.role == r
    if clash.all txn.tombstoned.contains && !s.openInsert a then
      some (s.setTxn t { txn with grants, inserted := a :: txn.inserted })
    else none
  | _, _, _, _ => none

/-- The committed rows after the writes of a transaction. -/
def written (s : State) (txn : Txn) : List Assignment :=
  (s.rows.mapIdx fun i a => if i ∈ txn.tombstoned then a.softDelete s.now else a) ++ txn.inserted

/-- The live users after the writes of a transaction. -/
def writtenUsers (s : State) (txn : Txn) (u : UserId) : Bool :=
  s.liveUser u && !(txn.deletedUser && txn.request.user == u)

/-- Every write is done. -/
def isDone (txn : Txn) : Bool :=
  txn.phase = .checked && txn.drops = [] && txn.grants = [] &&
    (txn.deletedUser || txn.request.object?.isSome)

/-- End a transaction: drop its record and its locks. -/
def finish (s : State) (t : TxnId) : State :=
  { s with
      txns := Function.update s.txns t none
      rowLock := s.rowLock.release t
      userLock := s.userLock.release t }

/-- Commit. -/
def commit (s : State) (t : TxnId) (txn : Txn) : Option State :=
  if isDone txn then
    some ({ s with rows := s.written txn, liveUser := s.writtenUsers txn }.finish t)
  else none

end State

/-- A label: a step of a transaction, or the passing of a second. -/
inductive Label
  | tick
  | begin (t : TxnId) (request : Request)
  | loadUser (t : TxnId)
  | read (t : TxnId)
  | beginLock (t : TxnId)
  | lockRow (t : TxnId)
  | check (t : TxnId)
  | drop (t : TxnId)
  | deleteUser (t : TxnId)
  | grant (t : TxnId)
  | commit (t : TxnId)
  | abort (t : TxnId)
deriving DecidableEq

/-- One step of the system. -/
def step (cat : Catalog) (s : State) : Label → Option State
  | .tick => some { s with now := s.now + 1 }
  | .begin t request => s.begin t request
  | .loadUser t => (s.txns t).bind (s.loadUser t)
  | .read t => (s.txns t).bind (s.read cat t)
  | .beginLock t => (s.txns t).bind (s.beginLock cat t)
  | .lockRow t => (s.txns t).bind (s.lockRow t)
  | .check t => (s.txns t).bind (s.check cat t)
  | .drop t => (s.txns t).bind (s.drop t)
  | .deleteUser t => (s.txns t).bind (s.deleteUser t)
  | .grant t => (s.txns t).bind (s.grant t)
  | .commit t => (s.txns t).bind (s.commit t)
  | .abort t => (s.txns t).map fun _ => s.finish t

end RedTeaming.Auth.Owners
