import RedTeaming.Evaluations.EvaluationSpecs
import RedTeaming.Evaluations.System
import RedTeaming.Library.Locks
import RedTeaming.Library.Paths

/-!
# `RedTeaming.Evaluations.Publication`: transitions and edits of a group, statement by statement

Six transitions move a group along `_PUBLICATION_TRANSITIONS`, and a `PATCH` edits it. Each of the
seven reads the row `FOR UPDATE`, then asks for the caller's role, then checks, then writes, and
commits. An `Action` is one of the seven, cut into these statements, and `step` runs them
interleaved. Every statement reads what is committed at its time. `perform_eq_ok` says that an
action without interleaving is the request of `RedTeaming.Evaluations.System`.

A group is created by a request of its own, in one step. `elsewhere` stands for all that the rest
of the application commits between two statements: it may leave any row in any table but
`evaluation_groups`.

`publication_lifecycle` is the main result. A step does one of four things to the groups and to
the answers (`Effect`), and every part of the result follows from that.
-/

set_option autoImplicit false

namespace RedTeaming.Evaluations.Publication

open RedTeaming.Auth
open RedTeaming.Library

/-- A transition of the publication lifecycle. -/
inductive Transition
  | submit | approve | requestChanges | reject (rejectionReason : NonEmptyString) |
      publish | finish

namespace Transition

/-- The request that asks for it. -/
def request (groupId : UUID) : Transition → Request
  | .submit => .submit groupId
  | .approve => .approve groupId
  | .requestChanges => .requestChanges groupId
  | .reject rejectionReason => .reject groupId rejectionReason
  | .publish => .publish groupId
  | .finish => .finish groupId

/-- The status that it enters. -/
def target : Transition → PublicationStatus
  | .submit => .pendingApproval
  | .approve => .approved
  | .requestChanges => .changesRequested
  | .reject _ => .notApproved
  | .publish => .published
  | .finish => .inactive

/-- A verdict of the moderator. Its route takes the break-glass permission, so no role is asked
for. -/
def moderates : Transition → Bool
  | .requestChanges | .reject _ => true
  | .submit | .approve | .publish | .finish => false

/-- What it makes of the rejection reason. -/
def reason : Transition → Option String → Option String
  | .approve | .requestChanges => fun _ => none
  | .reject rejectionReason => fun _ => some rejectionReason.val
  | .submit | .publish | .finish => id

/-- The completeness that it demands. -/
def assertComplete (db : Database) (today : Date) (group : EvaluationGroup) :
    Transition → Except ApiError Unit
  | .submit => assertGroupSubmittable db today group
  | .publish => assertGroupPublishable db group
  | .approve | .requestChanges | .reject _ | .finish => .ok ()

end Transition

/-- A request that locks the row of a group. -/
inductive Action
  | transition (transition : Transition)
  | edit (changes : EvaluationGroupUpdate)

/-- The columns that a patch writes. Their values come from the row that the request loaded, and a
column that was not sent stays. -/
def editedRow (settings : Settings) (changes : EvaluationGroupUpdate)
    (loaded group : EvaluationGroup) : EvaluationGroup :=
  { changes.applyTo group with
      dataLicenseId := (changes.derivedLicense settings loaded).or
        (changes.applyTo group).dataLicenseId }

namespace Action

/-- The request of the action. -/
def request (groupId : UUID) : Action → Request
  | .transition t => t.request groupId
  | .edit changes => .updateGroup groupId changes

/-- The caller needs no role on the group. -/
def moderates : Action → Bool
  | .transition t => t.moderates
  | .edit _ => false

/-- The gate of the route, and the read of the row. -/
def load (db : Database) (ctx : Context) (groupId : UUID) (action : Action) :
    Except ApiError EvaluationGroup := do
  (action.request groupId).authorize ctx.caller
  getEvaluationGroup db groupId ctx.callerId (action.moderates || ctx.canManage)

/-- The role that the caller needs on the group. -/
def authorise (db : Database) (ctx : Context) (group : EvaluationGroup) (action : Action) :
    Except ApiError Unit :=
  if action.moderates then .ok ()
  else assertGroupWriteAccess db group.id ctx.callerId ctx.canManage .evaluationGroupsUpdate
    ("Evaluation group " ++ toString group.id ++ " not found.")

/-- The rules about the organization of the row that a patch leaves. -/
def assertOrganization (db : Database) (ctx : Context) (group updated : EvaluationGroup) :
    Except ApiError Unit := do
  validateGroupOrg db updated.accessLevel updated.organizationId
  if updated.organizationId ≠ group.organizationId then
    assertMayAssignOrg? db ctx updated.organizationId

/-- What the action checks of the row that it loaded. -/
def assess (settings : Settings) (db : Database) (ctx : Context) (group : EvaluationGroup) :
    Action → Except ApiError Unit
  | .transition t => do
    assertTransition group t.target
    t.assertComplete db ctx.today group
  | .edit changes => do
    let updated := editedRow settings changes group group
    validateLicense? db changes.dataLicenseId
    assertDerivedLicense db (changes.derivedLicense settings group)
    check (datesInOrder updated.startDate updated.endDate)
      (.badRequest "end_date must be after start_date.")
    assertOrganization db ctx group updated

/-- What the action writes. -/
def write (settings : Settings) (db : Database) (ctx : Context) (group : EvaluationGroup) :
    Action → Except ApiError Database
  | .transition t => .ok (setStatus db group.id t.target t.reason)
  | .edit changes => do
    let db ← syncModels? db ctx group.id changes.allowedModelIds
    return { db with
      groups := db.groups.modify group.id (editedRow settings changes group) fun _ => rfl }

end Action

/-! ### The system -/

abbrev TxnId := Nat

/-- How far a transaction is. -/
inductive Phase
  | loaded | authorised | assessed
deriving DecidableEq, Repr

/-- An open transaction, which holds the lock of the row that it loaded. -/
structure Txn where
  ctx : Context
  action : Action
  group : EvaluationGroup
  phase : Phase

/-- A transition that succeeded. `previousStatus` is what its handler returns, and `move` what its
commit did to the committed row. -/
structure Answer where
  groupId : UUID
  previousStatus : PublicationStatus
  move : Move PublicationStatus
deriving DecidableEq

/-- The committed tables, the open transactions, the row locks, and the answers so far. -/
structure State where
  db : Database
  txns : TxnId → Option Txn
  locks : Locks UUID TxnId
  answers : List Answer

/-- One step of the system. -/
inductive Label
  | load (t : TxnId) (ctx : Context) (groupId : UUID) (action : Action)
  | authorise (t : TxnId)
  | assess (t : TxnId)
  | commit (t : TxnId)
  | abort (t : TxnId)
  | create (l : Evaluations.Label)
  | elsewhere (db : Database)

/-- The request creates a group. -/
def createsGroup : Request → Bool
  | .createGroup _ | .createDraft _ | .duplicateGroup .. => true
  | _ => false

/-- The committed status of a group. -/
def statusOf (db : Database) (groupId : UUID) : Option PublicationStatus :=
  (db.groups.find? groupId).map EvaluationGroup.status

/-- What a commit answers: a transition returns the status of the row that it loaded. -/
def Txn.answer (x : Txn) (before after : Database) : List Answer :=
  match x.action, statusOf before x.group.id, statusOf after x.group.id with
  | .transition _, some left, some entered =>
    [{ groupId := x.group.id, previousStatus := x.group.status, move := ⟨left, entered⟩ }]
  | _, _, _ => []

namespace State
variable (s : State)

/-- The state after the transaction ended. -/
def close (t : TxnId) : State :=
  { s with txns := Function.update s.txns t none, locks := s.locks.release t }

/-- A transaction passes a check that its phase has ahead of it. -/
def advance (t : TxnId) (phase next : Phase) (passes : Txn → Except ApiError Unit) :
    Option State :=
  match s.txns t with
  | some x =>
    if x.phase = phase ∧ (passes x).toOption.isSome then
      some { s with txns := Function.update s.txns t (some { x with phase := next }) }
    else none
  | none => none

end State

/-- One step. A read of a row that somebody has locked waits, and a check that fails leaves the
abort. -/
def step (settings : Settings) (s : State) : Label → Option State
  | .load t ctx groupId action =>
    if s.txns t = none ∧ s.locks.mayTake groupId t then
      (action.load s.db ctx groupId).toOption.map fun group =>
        { s with
            txns := Function.update s.txns t (some ⟨ctx, action, group, .loaded⟩)
            locks := s.locks.take groupId t }
    else none
  | .authorise t => s.advance t .loaded .authorised fun x => x.action.authorise s.db x.ctx x.group
  | .assess t =>
    s.advance t .authorised .assessed fun x => x.action.assess settings s.db x.ctx x.group
  | .commit t =>
    match s.txns t with
    | some x =>
      if x.phase = .assessed then
        (x.action.write settings s.db x.ctx x.group).toOption.map fun db =>
          { (s.close t) with db, answers := s.answers ++ x.answer s.db db }
      else none
    | none => none
  | .abort t => if (s.txns t).isSome then some (s.close t) else none
  | .create l =>
    if createsGroup l.request then
      (perform settings s.db l).toOption.map fun db => { s with db }
    else none
  | .elsewhere db => some { s with db := { db with groups := s.db.groups } }

/-! ### What a step does -/

section
variable {settings : Settings} {db db' : Database} {ctx : Context} {group : EvaluationGroup}
  {groupId : UUID} {action : Action} {s s' : State} {l : Label}

/-- The row that an action loads is live. -/
theorem Action.findLive_of_load (h : action.load db ctx groupId = .ok group) :
    findLive db.groups groupId = some group := by
  simp only [Action.load, bind_eq_ok] at h
  obtain ⟨-, -, hget⟩ := h
  exact findLive_of_getEvaluationGroup hget

/-- What an action writes to the groups: a transition the status of its row, and a patch other
columns. -/
theorem Action.write_spec (h : action.write settings db ctx group = .ok db') :
    (∃ t, action = .transition t ∧ db' = setStatus db group.id t.target t.reason) ∨
      (∃ changes, action = .edit changes ∧ db'.groups =
        db.groups.modify group.id (editedRow settings changes group) fun _ => rfl) := by
  cases action with
  | transition t =>
    cases h
    exact .inl ⟨t, rfl, rfl⟩
  | edit changes =>
    simp only [Action.write, bind_eq_ok] at h
    obtain ⟨db₁, hsync, h⟩ := h
    cases h
    have hgroups : db₁.groups = db.groups := by rw [syncModels?_spec hsync]
    refine .inr ⟨changes, rfl, ?_⟩
    simp only [hgroups]

/-- A transition that was assessed is along the table. -/
theorem Action.edge_of_assess {t : Transition} {u : Unit}
    (h : (Action.transition t).assess settings db ctx group = .ok u) :
    t.target ∈ publicationTransitions group.status := by
  simp only [Action.assess, bind_eq_ok] at h
  obtain ⟨_, hedge, -⟩ := h
  exact assertTransition_eq_ok.mp hedge

/-- A check that a transaction passes moves it one phase on. -/
theorem State.advance_eq_some {t : TxnId} {phase next : Phase}
    {passes : Txn → Except ApiError Unit} (h : s.advance t phase next passes = some s') :
    ∃ x, s.txns t = some x ∧ x.phase = phase ∧ passes x = .ok () ∧
      s' = { s with txns := Function.update s.txns t (some { x with phase := next }) } := by
  unfold State.advance at h
  split at h
  · rename_i x hx
    split at h
    · rename_i hcond
      cases h
      obtain ⟨u, hu⟩ := Option.isSome_iff_exists.mp hcond.2
      cases hpasses : passes x with
      | error e =>
        rw [hpasses] at hu
        cases hu
      | ok u => exact ⟨x, hx, hcond.1, hpasses, rfl⟩
    · cases h
  · cases h

/-- An open transaction holds the lock of the row that it loaded, and the row is still as it was.
One that was assessed goes along the table. -/
structure Inv (s : State) : Prop where
  held : ∀ t x, s.txns t = some x → s.locks (key x.group) = some t
  loaded : ∀ t x, s.txns t = some x → x.group ∈ s.db.groups
  edge : ∀ t x transition, s.txns t = some x → x.phase = .assessed →
    x.action = .transition transition → transition.target ∈ publicationTransitions x.group.status

/-- A new group is a draft, or in review, and was never rejected. -/
structure NewGroup (group : EvaluationGroup) : Prop where
  status : group.status = .draft ∨ group.status = .pendingApproval
  reason : group.rejectionReason = none

/-- What a step does to the groups and to the answers: nothing, a new group, an edit that leaves
the status and the reason, or a transition of a committed row along the table. -/
inductive Effect (s s' : State) : Prop
  | quiet (groups : s'.db.groups = s.db.groups) (answers : s'.answers = s.answers)
  | created (row : EvaluationGroup) (new : NewGroup row)
      (groups : flush s.db.groups [row] = .ok s'.db.groups) (answers : s'.answers = s.answers)
  | edited (group : EvaluationGroup) (f : EvaluationGroup → EvaluationGroup)
      (hf : ∀ g, key (f g) = key g)
      (status : ∀ g, (f g).status = g.status ∧ (f g).rejectionReason = g.rejectionReason)
      (groups : s'.db.groups = s.db.groups.modify group.id f hf)
      (answers : s'.answers = s.answers)
  | moved (group : EvaluationGroup) (mem : group ∈ s.db.groups) (transition : Transition)
      (edge : transition.target ∈ publicationTransitions group.status)
      (db : s'.db = setStatus s.db group.id transition.target transition.reason)
      (answers : s'.answers = s.answers ++
        [{ groupId := group.id, previousStatus := group.status
           move := ⟨group.status, transition.target⟩ }])

/-- A request that creates a group inserts a new one. -/
theorem created_of_perform {r : Evaluations.Label} (hcreates : createsGroup r.request = true)
    (h : perform settings db r = .ok db') :
    ∃ row, NewGroup row ∧ flush db.groups [row] = .ok db'.groups := by
  obtain ⟨ctx, request⟩ := r
  obtain ⟨-, -, hhandle⟩ := bind_eq_ok.mp h
  clear h
  cases request <;> try cases hcreates
  case createGroup form =>
    -- A form creates a pending group.
    have h : createEvaluationGroup db settings ctx form = .ok db' := hhandle
    simp only [createEvaluationGroup, bind_eq_ok] at h
    obtain ⟨-, -, -, -, -, -, -, -, dataLicenseId, -, db₁, hpersist, hsync⟩ := h
    obtain ⟨groups, roleAssignments, hinsert, rfl⟩ := persistNewGroup_spec hpersist
    refine ⟨form.row ctx dataLicenseId, ⟨.inr rfl, rfl⟩, ?_⟩
    rw [(syncGroupModels_spec hsync).1]
    exact hinsert
  case createDraft form =>
    -- The other two create drafts.
    have h : createEvaluationGroupDraft db settings ctx form = .ok db' := hhandle
    simp only [createEvaluationGroupDraft, bind_eq_ok] at h
    obtain ⟨-, -, -, -, dataLicenseId, -, db₁, hpersist, hsync⟩ := h
    obtain ⟨groups, roleAssignments, hinsert, rfl⟩ := persistNewGroup_spec hpersist
    refine ⟨form.row ctx dataLicenseId, ⟨.inl rfl, rfl⟩, ?_⟩
    rw [(syncGroupModels_spec hsync).1]
    exact hinsert
  case duplicateGroup sourceGroupId includeChildren =>
    obtain ⟨source, -, hinsert, -⟩ := duplicateEvaluationGroup_spec hhandle
    exact ⟨copyGroup db ctx source, ⟨.inl rfl, rfl⟩, hinsert⟩

/-- The committed status of a group whose row is there. -/
theorem statusOf_eq_some {status : PublicationStatus} :
    statusOf db groupId = some status ↔
      ∃ group ∈ db.groups, key group = groupId ∧ group.status = status := by
  simp only [statusOf, Option.map_eq_some_iff, Table.find?_eq_some, and_assoc]

/-- The committed status of a group after a status write. -/
theorem statusOf_setStatus {status : PublicationStatus} {reason : Option String → Option String}
    (k : UUID) : statusOf (setStatus db groupId status reason) k =
      if k = groupId then (statusOf db k).map fun _ => status else statusOf db k := by
  unfold statusOf setStatus
  rw [Table.find?_modify]
  split
  · rw [Option.map_map, Option.map_map]
    rfl
  · rfl

/-- Every step has one of the four effects. -/
theorem effect_of_step (hinv : Inv s) (h : step settings s l = some s') : Effect s s' := by
  cases l with
  | load t ctx groupId action =>
    simp only [step] at h
    split at h
    · obtain ⟨group, -, rfl⟩ := Option.map_eq_some_iff.mp h
      exact .quiet rfl rfl
    · cases h
  | authorise t =>
    obtain ⟨x, -, -, -, rfl⟩ := State.advance_eq_some h
    exact .quiet rfl rfl
  | assess t =>
    obtain ⟨x, -, -, -, rfl⟩ := State.advance_eq_some h
    exact .quiet rfl rfl
  | commit t =>
    simp only [step] at h
    split at h
    · rename_i x hx
      split at h
      · rename_i hphase
        obtain ⟨db, hdb, rfl⟩ := Option.map_eq_some_iff.mp h
        have hwrite := toOption_eq_some.mp hdb
        have hmem := hinv.loaded t x hx
        rcases Action.write_spec hwrite with ⟨tr, haction, rfl⟩ | ⟨changes, haction, hgroups⟩
        · -- A transition writes the loaded row, which is still the committed one.
          have hbefore : statusOf s.db x.group.id = some x.group.status :=
            statusOf_eq_some.mpr ⟨x.group, hmem, rfl, rfl⟩
          have hafter : statusOf (setStatus s.db x.group.id tr.target tr.reason) x.group.id =
              some tr.target := by
            rw [statusOf_setStatus, if_pos rfl, hbefore]
            rfl
          refine .moved x.group hmem tr (hinv.edge t x tr hx hphase haction) rfl ?_
          simp [Txn.answer, haction, hbefore, hafter]
        · refine .edited x.group (editedRow settings changes x.group) (fun _ => rfl)
            (fun _ => ⟨rfl, rfl⟩) hgroups ?_
          simp [Txn.answer, haction]
      · cases h
    · cases h
  | abort t =>
    simp only [step] at h
    split at h
    · cases h
      exact .quiet rfl rfl
    · cases h
  | create r =>
    simp only [step] at h
    split at h
    · rename_i hcreates
      obtain ⟨db, hdb, rfl⟩ := Option.map_eq_some_iff.mp h
      obtain ⟨row, hnew, hflush⟩ := created_of_perform hcreates (toOption_eq_some.mp hdb)
      exact .created row hnew hflush rfl
    · cases h
  | elsewhere db =>
    cases h
    exact .quiet rfl rfl

/-! ### What holds along a run -/

/-- A write of an action leaves the rows of the other groups. -/
theorem Action.mem_of_write {other : EvaluationGroup}
    (h : action.write settings db ctx group = .ok db') (hmem : other ∈ db.groups)
    (hne : key other ≠ group.id) : other ∈ db'.groups := by
  rcases Action.write_spec h with ⟨t, -, rfl⟩ | ⟨changes, -, hgroups⟩
  · exact mem_setStatus.mpr (.inr ⟨hmem, hne⟩)
  · rw [hgroups]
    exact Table.mem_modify.mpr (.inr ⟨hmem, hne⟩)

/-- A transaction that moves one phase on keeps its row, its request, and its lock. -/
theorem Inv.advance {t : TxnId} {x : Txn} {next : Phase} (hinv : Inv s) (hx : s.txns t = some x)
    (hnext : ∀ transition, next = .assessed → x.action = .transition transition →
      transition.target ∈ publicationTransitions x.group.status) :
    Inv { s with txns := Function.update s.txns t (some { x with phase := next }) } := by
  have hcases : ∀ t' x', Function.update s.txns t (some { x with phase := next }) t' = some x' →
      (t' = t ∧ x' = { x with phase := next }) ∨ s.txns t' = some x' := by
    intro t' x' hx'
    by_cases ht : t' = t
    · subst ht
      rw [Function.update_self] at hx'
      exact .inl ⟨rfl, (Option.some.inj hx').symm⟩
    · rw [Function.update_of_ne ht] at hx'
      exact .inr hx'
  refine ⟨fun t' x' hx' => ?_, fun t' x' hx' => ?_, fun t' x' transition hx' hphase haction => ?_⟩
  · rcases hcases t' x' hx' with ⟨rfl, rfl⟩ | hold
    · exact hinv.held t' x hx
    · exact hinv.held t' x' hold
  · rcases hcases t' x' hx' with ⟨rfl, rfl⟩ | hold
    · exact hinv.loaded t' x hx
    · exact hinv.loaded t' x' hold
  · rcases hcases t' x' hx' with ⟨rfl, rfl⟩ | hold
    · exact hnext transition hphase haction
    · exact hinv.edge t' x' transition hold hphase haction

/-- The end of a transaction leaves the other ones, when their rows are still there. -/
theorem Inv.close {t : TxnId} {answers : List Answer} (hinv : Inv s)
    (hrows : ∀ t' x', t' ≠ t → s.txns t' = some x' → x'.group ∈ db.groups) :
    Inv { s.close t with db, answers } := by
  have hopen : ∀ t' x', (s.close t).txns t' = some x' → t' ≠ t ∧ s.txns t' = some x' := by
    intro t' x' hx'
    by_cases ht : t' = t
    · subst ht
      have hnone : (s.close t').txns t' = none := Function.update_self _ _ _
      rw [hnone] at hx'
      cases hx'
    · exact ⟨ht, (Function.update_of_ne ht _ _).symm.trans hx'⟩
  refine ⟨fun t' x' hx' => ?_, fun t' x' hx' => ?_, fun t' x' transition hx' => ?_⟩
  · obtain ⟨hne, hold⟩ := hopen t' x' hx'
    exact Locks.held_release hne (hinv.held t' x' hold)
  · obtain ⟨hne, hold⟩ := hopen t' x' hx'
    exact hrows t' x' hne hold
  · exact hinv.edge t' x' transition (hopen t' x' hx').2

/-- Rows that are added, and changes elsewhere, leave the transactions. -/
theorem Inv.of_subset (hinv : Inv s) (hrows : ∀ g ∈ s.db.groups, g ∈ db.groups) :
    Inv { s with db } :=
  ⟨hinv.held, fun t x hx => hrows _ (hinv.loaded t x hx), hinv.edge⟩

/-- Every step keeps the locks and the loaded rows. -/
theorem Inv.step (hinv : Inv s) (h : step settings s l = some s') : Inv s' := by
  cases l with
  | load t ctx groupId action =>
    simp only [Publication.step] at h
    split at h
    · rename_i hcond
      obtain ⟨group, hgroup, rfl⟩ := Option.map_eq_some_iff.mp h
      obtain ⟨hmem, hkey, -⟩ :=
        findLive_eq_some.mp (Action.findLive_of_load (toOption_eq_some.mp hgroup))
      have hcases : ∀ t' x',
          Function.update s.txns t (some ⟨ctx, action, group, .loaded⟩) t' = some x' →
            (t' = t ∧ x' = ⟨ctx, action, group, .loaded⟩) ∨ s.txns t' = some x' := by
        intro t' x' hx'
        by_cases ht : t' = t
        · subst ht
          rw [Function.update_self] at hx'
          exact .inl ⟨rfl, (Option.some.inj hx').symm⟩
        · rw [Function.update_of_ne ht] at hx'
          exact .inr hx'
      refine ⟨fun t' x' hx' => ?_, fun t' x' hx' => ?_, fun t' x' transition hx' hphase => ?_⟩
      · rcases hcases t' x' hx' with ⟨rfl, rfl⟩ | hold
        · show s.locks.take groupId t' (key group) = some t'
          rw [hkey]
          exact Locks.take_self _ _ _
        · exact Locks.held_take hcond.2 (hinv.held t' x' hold)
      · rcases hcases t' x' hx' with ⟨rfl, rfl⟩ | hold
        · exact hmem
        · exact hinv.loaded t' x' hold
      · rcases hcases t' x' hx' with ⟨rfl, rfl⟩ | hold
        · cases hphase
        · exact hinv.edge t' x' transition hold hphase
    · cases h
  | authorise t =>
    obtain ⟨x, hx, -, -, rfl⟩ := State.advance_eq_some h
    exact hinv.advance hx nofun
  | assess t =>
    obtain ⟨x, hx, -, hassess, rfl⟩ := State.advance_eq_some h
    refine hinv.advance hx fun transition _ haction => ?_
    rw [haction] at hassess
    exact Action.edge_of_assess hassess
  | commit t =>
    simp only [Publication.step] at h
    split at h
    · rename_i x hx
      split at h
      · obtain ⟨db, hdb, rfl⟩ := Option.map_eq_some_iff.mp h
        refine hinv.close fun t' x' hne hx' => ?_
        -- The other transaction holds another lock, so its row is another one.
        refine Action.mem_of_write (toOption_eq_some.mp hdb) (hinv.loaded t' x' hx') fun hkey =>
          ?_
        have hheld := hinv.held t' x' hx'
        have hself : s.locks x.group.id = some t := hinv.held t x hx
        rw [hkey, hself] at hheld
        exact hne (Option.some.inj hheld).symm
      · cases h
    · cases h
  | abort t =>
    simp only [Publication.step] at h
    split at h
    · cases h
      exact hinv.close fun t' x' _ hx' => hinv.loaded t' x' hx'
    · cases h
  | create r =>
    simp only [Publication.step] at h
    split at h
    · rename_i hcreates
      obtain ⟨db, hdb, rfl⟩ := Option.map_eq_some_iff.mp h
      obtain ⟨row, -, hflush⟩ := created_of_perform hcreates (toOption_eq_some.mp hdb)
      exact hinv.of_subset fun g hg => (mem_flush hflush).mpr (.inl hg)
    · cases h
  | elsewhere db =>
    cases h
    exact hinv.of_subset fun g hg => hg

/-! ### What the answers say -/

/-- The table has an edge. -/
def Edge (a b : PublicationStatus) : Prop := b ∈ publicationTransitions a

instance (a b : PublicationStatus) : Decidable (Edge a b) :=
  inferInstanceAs (Decidable (b ∈ publicationTransitions a))

/-- No edge stays where it is. -/
theorem not_edge_self (a : PublicationStatus) : ¬ Edge a a := by
  cases a <;> decide

/-- The moves of a group, in the order of the commits. -/
def movesOf (answers : List Answer) (groupId : UUID) : List (Move PublicationStatus) :=
  (answers.filter fun a => a.groupId == groupId).map Answer.move

@[simp] theorem movesOf_append {answers answers' : List Answer} :
    movesOf (answers ++ answers') groupId = movesOf answers groupId ++
      movesOf answers' groupId := by
  simp [movesOf]

/-- A move of the group is one of an answer about it. -/
theorem mem_movesOf {answers : List Answer} {m : Move PublicationStatus} :
    m ∈ movesOf answers groupId ↔ ∃ a ∈ answers, a.groupId = groupId ∧ a.move = m := by
  simp only [movesOf, List.mem_map, List.mem_filter, beq_iff_eq, and_assoc]

/-- An answer about the group adds its move. -/
theorem movesOf_cons_self {a : Answer} {answers : List Answer} (h : a.groupId = groupId) :
    movesOf (a :: answers) groupId = a.move :: movesOf answers groupId := by
  simp [movesOf, h]

/-- An answer about another group adds none. -/
theorem movesOf_cons_of_ne {a : Answer} {answers : List Answer} (h : a.groupId ≠ groupId) :
    movesOf (a :: answers) groupId = movesOf answers groupId := by
  simp [movesOf, h]

/-- The rejection reason of a group is there when the group was rejected, and only then. -/
def ReasonOk (group : EvaluationGroup) : Prop :=
  group.rejectionReason ≠ none ↔ group.status = .notApproved

/-- A group in review, or before or after it, has no reason, and a transition writes one with the
status that it goes with. -/
theorem Transition.reason_iff {t : Transition} (hedge : Edge group.status t.target)
    (h : ReasonOk group) : t.reason group.rejectionReason ≠ none ↔ t.target = .notApproved := by
  have hlive : group.status ≠ .notApproved := by
    intro hterminal
    rw [hterminal] at hedge
    cases hedge
  have hnone : group.rejectionReason = none := by
    by_contra hsome
    exact hlive (h.mp hsome)
  rw [hnone]
  cases t <;> simp [Transition.reason, Transition.target]

/-- The answers tell the history of the groups. -/
structure History (s : State) : Prop where
  reason : ∀ group ∈ s.db.groups, ReasonOk group
  previous : ∀ a ∈ s.answers, a.previousStatus = a.move.left
  known : ∀ a ∈ s.answers, ∃ group ∈ s.db.groups, key group = a.groupId
  path : ∀ group ∈ s.db.groups, ∃ birth, (birth = .draft ∨ birth = .pendingApproval) ∧
    IsPath Edge birth (movesOf s.answers group.id) group.status

/-- A group whose row was changed, without its status and reason, has its history still. -/
theorem History.edited {f : EvaluationGroup → EvaluationGroup} {hf : ∀ g, key (f g) = key g}
    (hhistory : History s)
    (hstatus : ∀ g, (f g).status = g.status ∧ (f g).rejectionReason = g.rejectionReason)
    (hgroups : s'.db.groups = s.db.groups.modify groupId f hf)
    (hanswers : s'.answers = s.answers) :
    History s' := by
  -- Each row has one of before with its id, its status, and its reason.
  have hold : ∀ g ∈ s'.db.groups, ∃ g₀ ∈ s.db.groups, key g = key g₀ ∧ g.status = g₀.status ∧
      g.rejectionReason = g₀.rejectionReason := by
    intro g hg
    rw [hgroups] at hg
    rcases Table.mem_modify.mp hg with ⟨g₀, hg₀, -, rfl⟩ | ⟨hg, -⟩
    · exact ⟨g₀, hg₀, hf g₀, hstatus g₀⟩
    · exact ⟨g, hg, rfl, rfl, rfl⟩
  refine ⟨fun g hg => ?_, fun a ha => ?_, fun a ha => ?_, fun g hg => ?_⟩
  · obtain ⟨g₀, hg₀, -, hsame, hreason⟩ := hold g hg
    unfold ReasonOk
    rw [hsame, hreason]
    exact hhistory.reason g₀ hg₀
  · rw [hanswers] at ha
    exact hhistory.previous a ha
  · rw [hanswers] at ha
    obtain ⟨g, hg, hkey⟩ := hhistory.known a ha
    rw [hgroups]
    by_cases hk : key g = groupId
    · exact ⟨f g, Table.mem_modify.mpr (.inl ⟨g, hg, hk, rfl⟩), (hf g).trans hkey⟩
    · exact ⟨g, Table.mem_modify.mpr (.inr ⟨hg, hk⟩), hkey⟩
  · obtain ⟨g₀, hg₀, hkey, hsame, -⟩ := hold g hg
    have hid : g.id = g₀.id := hkey
    rw [hanswers, hid, hsame]
    exact hhistory.path g₀ hg₀

/-- A new group has no history. -/
theorem History.created {row : EvaluationGroup} (hhistory : History s) (hnew : NewGroup row)
    (hflush : flush s.db.groups [row] = .ok s'.db.groups) (hanswers : s'.answers = s.answers) :
    History s' := by
  have hmem : ∀ g, g ∈ s'.db.groups ↔ g ∈ s.db.groups ∨ g = row := by
    intro g
    rw [mem_flush hflush, List.mem_singleton]
  refine ⟨fun g hg => ?_, fun a ha => ?_, fun a ha => ?_, fun g hg => ?_⟩
  · rcases (hmem g).mp hg with hold | rfl
    · exact hhistory.reason g hold
    · rcases hnew.status with hstatus | hstatus <;> simp [ReasonOk, hnew.reason, hstatus]
  · rw [hanswers] at ha
    exact hhistory.previous a ha
  · rw [hanswers] at ha
    obtain ⟨g, hg, hkey⟩ := hhistory.known a ha
    exact ⟨g, (hmem g).mpr (.inl hg), hkey⟩
  · rw [hanswers]
    rcases (hmem g).mp hg with hold | rfl
    · exact hhistory.path g hold
    · refine ⟨g.status, hnew.status, ?_⟩
      -- An answer names a group of before, and the new id was free.
      have hnone : movesOf s.answers g.id = [] := by
        rw [List.eq_nil_iff_forall_not_mem]
        intro m hm
        obtain ⟨a, ha, hgroup, -⟩ := mem_movesOf.mp hm
        obtain ⟨g₀, hg₀, hkey⟩ := hhistory.known a ha
        have hsame : g = g₀ := by
          refine (mem_of_key_eq_flush hflush hg₀ hg ?_)
          rw [hkey, hgroup]
          rfl
        rw [hsame] at hflush
        exact key_ne_of_flush hflush hg₀ (List.mem_singleton.mpr rfl) rfl
      rw [hnone]
      rfl

/-- A transition adds its move to the history of its group. -/
theorem History.moved {t : Transition} (hhistory : History s) (hmem : group ∈ s.db.groups)
    (hedge : Edge group.status t.target)
    (hdb : s'.db = setStatus s.db group.id t.target t.reason)
    (hanswers : s'.answers = s.answers ++
      [{ groupId := group.id, previousStatus := group.status,
         move := ⟨group.status, t.target⟩ }]) :
    History s' := by
  -- One row has moved, and the others are as they were.
  have hrows : ∀ g ∈ s'.db.groups,
      g = { group with status := t.target, rejectionReason := t.reason group.rejectionReason } ∨
        g ∈ s.db.groups ∧ key g ≠ group.id := by
    intro g hg
    rw [hdb] at hg
    rcases mem_setStatus.mp hg with ⟨g₀, hg₀, hkey, rfl⟩ | hother
    · have hsame : g₀ = group := Table.eq_of_key_eq hg₀ hmem hkey
      rw [hsame]
      exact .inl rfl
    · exact .inr hother
  refine ⟨fun g hg => ?_, fun a ha => ?_, fun a ha => ?_, fun g hg => ?_⟩
  · rcases hrows g hg with rfl | ⟨hold, -⟩
    · exact Transition.reason_iff hedge (hhistory.reason group hmem)
    · exact hhistory.reason g hold
  · rw [hanswers] at ha
    rcases List.mem_append.mp ha with hold | hnew
    · exact hhistory.previous a hold
    · rw [List.mem_singleton.mp hnew]
  · have hknown : ∃ g ∈ s.db.groups, key g = a.groupId := by
      rw [hanswers] at ha
      rcases List.mem_append.mp ha with hold | hnew
      · exact hhistory.known a hold
      · rw [List.mem_singleton.mp hnew]
        exact ⟨group, hmem, rfl⟩
    obtain ⟨g, hg, hkey⟩ := hknown
    rw [hdb]
    by_cases hk : key g = group.id
    · exact ⟨_, mem_setStatus.mpr (.inl ⟨g, hg, hk, rfl⟩), hkey⟩
    · exact ⟨g, mem_setStatus.mpr (.inr ⟨hg, hk⟩), hkey⟩
  · rw [hanswers, movesOf_append]
    rcases hrows g hg with rfl | ⟨hold, hne⟩
    · -- The path of the moved group gets the new edge at its end.
      obtain ⟨birth, hbirth, hpath⟩ := hhistory.path group hmem
      refine ⟨birth, hbirth, ?_⟩
      rw [movesOf_cons_self rfl]
      exact hpath.concat hedge
    · rw [movesOf_cons_of_ne fun h => hne h.symm]
      simpa [movesOf] using hhistory.path g hold

/-- Every effect keeps the history. -/
theorem History.effect (hhistory : History s) (h : Effect s s') : History s' := by
  cases h with
  | quiet hgroups hanswers =>
    exact ⟨by rw [hgroups]; exact hhistory.reason, by rw [hanswers]; exact hhistory.previous,
      by rw [hgroups, hanswers]; exact hhistory.known, by
        rw [hgroups, hanswers]; exact hhistory.path⟩
  | created row hnew hflush hanswers => exact hhistory.created hnew hflush hanswers
  | edited group f hf hstatus hgroups hanswers => exact hhistory.edited hstatus hgroups hanswers
  | moved group hmem t hedge hdb hanswers => exact hhistory.moved hmem hedge hdb hanswers

/-- An effect keeps the status of a group, or moves it along an edge. -/
theorem Effect.statusOf {a : PublicationStatus} (h : Effect s s')
    (ha : statusOf s.db groupId = some a) :
    ∃ b, statusOf s'.db groupId = some b ∧ (b = a ∨ Edge a b) := by
  -- Only a transition changes a status, and it follows an edge.
  cases h with
  | quiet hgroups hanswers =>
    refine ⟨a, ?_, .inl rfl⟩
    unfold Publication.statusOf at ha ⊢
    rw [hgroups]
    exact ha
  | created row hnew hflush hanswers =>
    obtain ⟨g, hg, hkey, hstatus⟩ := statusOf_eq_some.mp ha
    exact ⟨a, statusOf_eq_some.mpr ⟨g, (mem_flush hflush).mpr (.inl hg), hkey, hstatus⟩, .inl rfl⟩
  | edited group f hf hsame hgroups hanswers =>
    refine ⟨a, ?_, .inl rfl⟩
    obtain ⟨g, hg, hkey, hstatus⟩ := statusOf_eq_some.mp ha
    rw [statusOf_eq_some, hgroups]
    by_cases hk : key g = group.id
    · exact ⟨f g, Table.mem_modify.mpr (.inl ⟨g, hg, hk, rfl⟩), (hf g).trans hkey,
        (hsame g).1.trans hstatus⟩
    · exact ⟨g, Table.mem_modify.mpr (.inr ⟨hg, hk⟩), hkey, hstatus⟩
  | moved group hmem t hedge hdb hanswers =>
    rw [hdb, statusOf_setStatus, ha]
    by_cases hk : groupId = group.id
    · obtain ⟨g, hg, hkey, hstatus⟩ := statusOf_eq_some.mp ha
      have hsame : g = group := Table.eq_of_key_eq hg hmem (hkey.trans hk)
      subst hsame
      rw [if_pos hk, ← hstatus]
      exact ⟨t.target, rfl, .inr hedge⟩
    · rw [if_neg hk]
      exact ⟨a, rfl, .inl rfl⟩

end

/-! ### An action without interleaving -/

/-- The whole action, with every statement on the same tables. -/
def Action.perform (settings : Settings) (db : Database) (ctx : Context) (groupId : UUID)
    (action : Action) : Except ApiError Database := do
  let group ← action.load db ctx groupId
  action.authorise db ctx group
  action.assess settings db ctx group
  action.write settings db ctx group

/-- The steps of an action, one after the other. -/
def serially (t : TxnId) (ctx : Context) (groupId : UUID) (action : Action) : List Label :=
  [.load t ctx groupId action, .authorise t, .assess t, .commit t]

section
variable {settings : Settings} {db db' : Database} {ctx : Context} {group : EvaluationGroup}
  {groupId : UUID} {action : Action} {s : State} {t : TxnId}

/-- A request whose statements are not interleaved with others does what the action does. -/
theorem run_serially (hfree : s.txns t = none) (hlock : s.locks.mayTake groupId t = true) :
    (run (step settings) s (serially t ctx groupId action)).map State.db =
      (action.perform settings s.db ctx groupId).toOption := by
  simp only [serially, run_cons, run_nil, step, hfree, hlock, and_self, if_true, Action.perform]
  cases hload : action.load s.db ctx groupId with
  | error e => rfl
  | ok group =>
    simp only [Except.toOption, Option.map_some, Option.bind_some, State.advance,
      Function.update_self, true_and, bind, Except.bind]
    cases hauthorise : action.authorise s.db ctx group with
    | error e => simp
    | ok u =>
      simp only [Option.isSome_some, if_true, Option.bind_some, Function.update_self, true_and]
      cases hassess : action.assess settings s.db ctx group with
      | error e => simp
      | ok u =>
        simp only [Option.isSome_some, if_true, Option.bind_some, Function.update_self]
        cases action.write settings s.db ctx group <;> simp

/-- The handler of a transition reads, asks for the role, checks, and writes. -/
theorem handle_transition (transition : Transition) :
    (transition.request groupId).handle settings ctx db = .ok db' ↔
      ∃ group,
        getEvaluationGroup db groupId ctx.callerId (transition.moderates || ctx.canManage) =
          .ok group ∧
        (Action.transition transition).authorise db ctx group = .ok () ∧
        assertTransition group transition.target = .ok () ∧
        transition.assertComplete db ctx.today group = .ok () ∧
        setStatus db group.id transition.target transition.reason = db' := by
  cases transition <;>
    simp [Transition.request, Request.handle, submitEvaluationGroup, approveEvaluationGroup,
      requestChangesForEvaluationGroup, rejectEvaluationGroup, publishEvaluationGroup,
      finishEvaluationGroup, writableGroup, Action.authorise, Action.moderates,
      Transition.moderates, Transition.target, Transition.reason, Transition.assertComplete,
      bind_eq_ok, exists_unit, pure, Except.pure]

/-- The handler of a patch checks, replaces the subset, and writes the merged row. -/
theorem updateEvaluationGroup_eq_ok {changes : EvaluationGroupUpdate} :
    updateEvaluationGroup db settings ctx groupId changes = .ok db' ↔
      ∃ group db₁, writableGroup db ctx groupId = .ok group ∧
        (Action.edit changes).assess settings db ctx group = .ok () ∧
        syncModels? db ctx group.id changes.allowedModelIds = .ok db₁ ∧
        { db₁ with groups := db₁.groups.modify group.id (changes.row settings) fun _ => rfl } =
          db' := by
  simp only [updateEvaluationGroup, Action.assess, Action.assertOrganization,
    bind_eq_ok, exists_unit]
  constructor
  · rintro ⟨group, hgroup, hlicense, hderived, db₁, hsync, hdates, horganization, h⟩
    refine ⟨group, db₁, hgroup, ⟨hlicense, hderived, hdates, ?_, ?_⟩, hsync, ?_⟩
    -- The subset is no part of the organization rules.
    · rw [syncModels?_spec hsync] at horganization
      exact horganization
    · show
        (if (changes.row settings group).organizationId ≠ group.organizationId then _ else _) = _
      split at h
      · rename_i hmoved
        obtain ⟨⟨⟩, hassign, -⟩ := bind_eq_ok.mp h
        rw [if_pos hmoved]
        rw [syncModels?_spec hsync] at hassign
        exact hassign
      · rename_i hkept
        rw [if_neg hkept]
        rfl
    · split at h
      · obtain ⟨_, _, h⟩ := bind_eq_ok.mp h
        exact Except.ok.inj h
      · exact Except.ok.inj h
  · rintro ⟨group, db₁, hgroup, ⟨hlicense, hderived, hdates, horganization, hassign⟩, hsync, rfl⟩
    refine ⟨group, hgroup, hlicense, hderived, db₁, hsync, hdates, ?_, ?_⟩
    · rw [syncModels?_spec hsync]
      exact horganization
    · replace hassign :
        (if (changes.row settings group).organizationId ≠ group.organizationId then
          assertMayAssignOrg? db ctx (changes.row settings group).organizationId
          else pure ()) = .ok () := hassign
      split at hassign
      · rename_i hmoved
        rw [if_pos hmoved, bind_eq_ok, exists_unit]
        refine ⟨?_, rfl⟩
        rw [syncModels?_spec hsync]
        exact hassign
      · rename_i hkept
        rw [if_neg hkept]
        rfl

/-- The row that is locked is the row that was loaded, so the patch writes the merged row. -/
theorem modify_editedRow {changes : EvaluationGroupUpdate} {modelIds : Option NonEmptyIds}
    (hfind : findLive db.groups groupId = some group)
    (hsync : syncModels? db ctx group.id modelIds = .ok db') :
    db'.groups.modify group.id (editedRow settings changes group) (fun _ => rfl) =
      db'.groups.modify group.id (changes.row settings) fun _ => rfl := by
  apply Table.modify_congr
  intro row hrow hkey
  have hgroups : db'.groups = db.groups := by rw [syncModels?_spec hsync]
  rw [hgroups] at hrow
  have hsame : row = group := Table.eq_of_key_eq hrow (mem_of_findLive hfind) hkey
  rw [hsame]
  rfl

/-- An action without interleaving is its request. -/
theorem perform_eq_ok : action.perform settings db ctx groupId = .ok db' ↔
    Evaluations.perform settings db { toContext := ctx, request := action.request groupId } =
      .ok db' := by
  cases action with
  | transition transition =>
    have hright : Evaluations.perform settings db
        { toContext := ctx, request := transition.request groupId } = .ok db' ↔
          (transition.request groupId).authorize ctx.caller = .ok () ∧
            (transition.request groupId).handle settings ctx db = .ok db' := by
      simp only [Evaluations.perform, bind_eq_ok, exists_unit]
    show _ ↔ Evaluations.perform settings db
      { toContext := ctx, request := transition.request groupId } = .ok db'
    rw [hright, handle_transition]
    simp [Action.perform, Action.load, Action.request, Action.assess, Action.write,
      Action.moderates, bind_eq_ok, exists_unit]
  | edit changes =>
    have hright : Evaluations.perform settings db
        { toContext := ctx, request := .updateGroup groupId changes } = .ok db' ↔
          (Request.updateGroup groupId changes).authorize ctx.caller = .ok () ∧
            updateEvaluationGroup db settings ctx groupId changes = .ok db' := by
      simp only [Evaluations.perform, Request.handle, bind_eq_ok, exists_unit]
    show _ ↔ Evaluations.perform settings db
      { toContext := ctx, request := .updateGroup groupId changes } = .ok db'
    rw [hright, updateEvaluationGroup_eq_ok]
    simp only [Action.perform, Action.load, Action.request, Action.write, Action.moderates,
      Action.authorise, Bool.false_or, Bool.false_eq_true, if_false, writableGroup, bind_eq_ok,
      exists_unit]
    -- The action finds the row twice, and the request once, but nothing happens in between.
    constructor
    · rintro ⟨group, ⟨hroute, hget⟩, hauthorise, hassess, db₁, hsync, hdb'⟩
      refine ⟨hroute, group, db₁, ⟨group, hget, hauthorise, rfl⟩, hassess, hsync, ?_⟩
      rw [← Except.ok.inj hdb', modify_editedRow (findLive_of_getEvaluationGroup hget) hsync]
    · rintro ⟨hroute, group, db₁, ⟨group', hget, hauthorise, hsame⟩, hassess, hsync, rfl⟩
      cases hsame
      refine ⟨group, ⟨hroute, hget⟩, hauthorise, hassess, db₁, hsync, ?_⟩
      rw [modify_editedRow (findLive_of_getEvaluationGroup hget) hsync]
      rfl

/-! ### The blockers that the group shows -/

/-- The caller may submit and publish the group: the route lets the caller in, and the caller has
the break-glass, or a role on the group that grants the permission. -/
structure Authorised (db : Database) (ctx : Context) (group : EvaluationGroup) : Prop where
  route : .evaluationGroupsUpdate ∈ ctx.caller.permissions
  role : ctx.canManage = true ∨ .evaluationGroupsUpdate ∈
    objectPermissions db.auth db.roleAssignments group.id ctx.callerId

/-- An authorised caller sees the group: a role on it is an assignment. -/
theorem Authorised.getEvaluationGroup (h : Authorised db ctx group)
    (hfind : findLive db.groups groupId = some group) :
    Evaluations.getEvaluationGroup db groupId ctx.callerId ctx.canManage = .ok group := by
  have hsees : (ctx.canManage || Sql.selects (db.groupVisibleTo ctx.callerId group)) = true := by
    rw [Bool.or_eq_true]
    refine h.role.imp_right fun hrole => selects_groupVisibleTo.mpr (.inr (.inl ?_))
    obtain ⟨a, ha, hlive, hobject, huser, -⟩ := mem_objectPermissions.mp hrole
    exact Database.mem_memberGroupIds.mpr ⟨a, ha, huser, hlive, hobject⟩
  have hfilter : (findLive db.groups groupId).filter (fun group =>
      ctx.canManage || Sql.selects (db.groupVisibleTo ctx.callerId group)) = some group :=
    Option.filter_eq_some_iff.mpr ⟨hfind, hsees⟩
  unfold Evaluations.getEvaluationGroup
  rw [hfilter]

/-- An authorised caller passes the write gate. -/
theorem Authorised.assertGroupWriteAccess (h : Authorised db ctx group) (missing : String) :
    Evaluations.assertGroupWriteAccess db group.id ctx.callerId ctx.canManage
      .evaluationGroupsUpdate
      missing = .ok () := by
  unfold Evaluations.assertGroupWriteAccess
  rcases h.role with hmanage | hrole
  · rw [if_pos hmanage]
    rfl
  · split
    · rfl
    · rfl

/-- A transition of an authorised caller in a status that it starts from succeeds when the group
is complete enough. -/
theorem perform_transition {transition : Transition}
    (hfind : findLive db.groups groupId = some group) (hauth : Authorised db ctx group)
    (hroute : (transition.request groupId).permission = some .evaluationGroupsUpdate)
    (hrole : transition.moderates = false) (hedge : Edge group.status transition.target) :
    ((Action.transition transition).perform settings db ctx groupId).toOption.isSome = true ↔
      transition.assertComplete db ctx.today group = .ok () := by
  have hload : (Action.transition transition).load db ctx groupId = .ok group := by
    have hgate : (transition.request groupId).authorize ctx.caller = .ok () := by
      simp only [Request.authorize, hroute, requirePermission, check_eq_ok, decide_eq_true_eq]
      exact hauth.route
    have hget := hauth.getEvaluationGroup hfind
    simp only [Action.load, Action.request, Action.moderates, hrole, Bool.false_or, bind_eq_ok,
      exists_unit]
    exact ⟨hgate, hget⟩
  have hauthorise : (Action.transition transition).authorise db ctx group = .ok () := by
    simp only [Action.authorise, Action.moderates, hrole, Bool.false_eq_true, if_false]
    exact hauth.assertGroupWriteAccess _
  have htransition : assertTransition group transition.target = .ok () :=
    assertTransition_eq_ok.mpr hedge
  rw [Option.isSome_iff_exists]
  simp only [toOption_eq_some, Action.perform, bind_eq_ok, exists_unit, hload, Except.ok.injEq,
    exists_eq_left', hauthorise, true_and, Action.assess, htransition, Action.write,
    exists_and_left, exists_eq', and_true]

/-- A submission succeeds when the group shows no blockers. -/
theorem submit_isSome_iff (hfind : findLive db.groups groupId = some group)
    (hauth : Authorised db ctx group)
    (hstatus : group.status = .draft ∨ group.status = .changesRequested) :
    ((Action.transition .submit).perform settings db ctx groupId).toOption.isSome = true ↔
      collectPublicationBlockers db ctx.today group = [] := by
  have hedge : Edge group.status Transition.submit.target := by
    rcases hstatus with h | h <;> rw [h] <;> decide
  have hblockers : collectPublicationBlockers db ctx.today group =
      collectSubmitBlockers db ctx.today group := by
    rcases hstatus with h | h <;> rw [collectPublicationBlockers, h]
  rw [perform_transition hfind hauth rfl rfl hedge, hblockers]
  show assertGroupSubmittable db ctx.today group = .ok () ↔ _
  rw [assertGroupSubmittable, check_eq_ok, List.isEmpty_iff]

/-- A publication succeeds when the group shows no blockers. -/
theorem publish_isSome_iff (hfind : findLive db.groups groupId = some group)
    (hauth : Authorised db ctx group) (hstatus : group.status = .approved) :
    ((Action.transition .publish).perform settings db ctx groupId).toOption.isSome = true ↔
      collectPublicationBlockers db ctx.today group = [] := by
  have hedge : Edge group.status Transition.publish.target := by
    rw [hstatus]
    decide
  have hblockers : collectPublicationBlockers db ctx.today group =
      collectPublishBlockers db group := by
    rw [collectPublicationBlockers, hstatus]
  rw [perform_transition hfind hauth rfl rfl hedge, hblockers]
  show assertGroupPublishable db group = .ok () ↔ _
  rw [assertGroupPublishable, check_eq_ok, List.isEmpty_iff]

end

/-! ### The lifecycle -/

/-- The statuses of a group in the states that a run passes, from the state on that has the
group. -/
def statuses (settings : Settings) (s : State) (ls : List Label) (groupId : UUID) :
    List PublicationStatus :=
  (states (step settings) s ls).filterMap fun s' => statusOf s'.db groupId

/-- The system before its first group: nobody has read anything, and nothing was answered. -/
structure Start (s : State) : Prop where
  groups : s.db.groups.rows = []
  txns : ∀ t, s.txns t = none
  locks : ∀ groupId, s.locks groupId = none
  answers : s.answers = []

/-- What a run of the system keeps.
* `path`: the committed statuses of a group go along the table.
* `terminal`: a status without outgoing edges is never left.
* `once`: two transitions that succeeded left one status only if a third entered it anew in
  between.
* `history`: the transitions that succeeded on a group lead from its first status to its status.
* `previous`: the status that a transition returns is the one that its commit left.
* `reason`: a group has a rejection reason exactly when its status is `not_approved`. -/
structure Lifecycle (settings : Settings) (s₀ : State) (ls : List Label) (s : State) : Prop where
  path : ∀ groupId, (statuses settings s₀ ls groupId).IsChain fun a b => b = a ∨ Edge a b
  terminal : ∀ groupId before a after, statuses settings s₀ ls groupId = before ++ a :: after →
    publicationTransitions a = [] → ∀ b ∈ after, b = a
  once : ∀ before (a : Answer) between (b : Answer) after,
    s.answers = before ++ a :: (between ++ b :: after) → a.groupId = b.groupId →
      a.move.left = b.move.left →
        ∃ c ∈ between, c.groupId = b.groupId ∧ c.move.entered = b.move.left
  history : ∀ group ∈ s.db.groups, ∃ birth, (birth = .draft ∨ birth = .pendingApproval) ∧
    IsPath Edge birth (movesOf s.answers group.id) group.status
  previous : ∀ a ∈ s.answers, a.previousStatus = a.move.left
  reason : ∀ group ∈ s.db.groups, group.rejectionReason ≠ none ↔ group.status = .notApproved

/-- A submission, or a publication, that nobody interrupts succeeds exactly when the group shows
no blockers. The caller is authorised, and the group is in a status that the transition starts
from. -/
def BlockersDecide (settings : Settings) (s : State) : Prop :=
  ∀ t ctx groupId group, s.txns t = none → s.locks.mayTake groupId t = true →
    findLive s.db.groups groupId = some group → Authorised s.db ctx group →
      (group.status = .draft ∨ group.status = .changesRequested →
        ((run (step settings) s (serially t ctx groupId (.transition .submit))).isSome = true ↔
          collectPublicationBlockers s.db ctx.today group = [])) ∧
      (group.status = .approved →
        ((run (step settings) s (serially t ctx groupId (.transition .publish))).isSome = true ↔
          collectPublicationBlockers s.db ctx.today group = []))

section
variable {settings : Settings} {s₀ s s' : State} {ls : List Label} {l : Label}

/-- Before the first group, there is nothing to keep. -/
theorem Start.inv (h : Start s) : Inv s := by
  refine ⟨fun t x hx => ?_, fun t x hx => ?_, fun t x transition hx => ?_⟩ <;>
    · rw [h.txns t] at hx
      cases hx

theorem Start.history (h : Start s) : History s := by
  have hnone : ∀ g, ¬ g ∈ s.db.groups := by
    intro g hg
    rw [← Table.mem_rows, h.groups] at hg
    cases hg
  refine ⟨fun g hg => absurd hg (hnone g), ?_, ?_, fun g hg => absurd hg (hnone g)⟩ <;>
    · rw [h.answers]
      nofun

/-- Every step has its effect, and keeps the locks. -/
theorem step_effect (hinv : Inv s) (h : step settings s l = some s') : Inv s' ∧ Effect s s' :=
  ⟨hinv.step h, effect_of_step hinv h⟩

/-- The committed statuses of a group go along the table. -/
theorem isChain_statuses (hinv : Inv s) (groupId : UUID) :
    (statuses settings s ls groupId).IsChain fun a b => b = a ∨ Edge a b :=
  isChain_filterMap (fun _ _ _ heffect ha => heffect.statusOf ha)
    (isChain_states (fun _ _ _ hI hstep => step_effect hI hstep) hinv)

/-- Along a chain, what follows a status without outgoing edges is that status. -/
theorem eq_of_terminal {before after : List PublicationStatus} {a : PublicationStatus}
    (hchain : (before ++ a :: after).IsChain fun a b => b = a ∨ Edge a b)
    (hterminal : publicationTransitions a = []) : ∀ b ∈ after, b = a := by
  have hlater := hchain.right_of_append
  clear hchain
  induction after with
  | nil => nofun
  | cons b after ih =>
    rw [List.isChain_cons_cons] at hlater
    obtain ⟨hsame | hedge, hrest⟩ := hlater
    · subst hsame
      intro c hc
      rcases List.mem_cons.mp hc with rfl | hc
      · rfl
      · exact ih hrest c hc
    · rw [Edge, hterminal] at hedge
      cases hedge

/-- Two answers about a group left one status only if a third entered it in between. -/
theorem History.entered_again {before between after : List Answer} {a b : Answer} (h : History s)
    (hanswers : s.answers = before ++ a :: (between ++ b :: after))
    (hgroup : a.groupId = b.groupId) (hleft : a.move.left = b.move.left) :
    ∃ c ∈ between, c.groupId = b.groupId ∧ c.move.entered = b.move.left := by
  have hb : b ∈ s.answers := by
    rw [hanswers]
    simp
  obtain ⟨group, hmem, hkey⟩ := h.known b hb
  obtain ⟨birth, -, hpath⟩ := h.path group hmem
  have hid : group.id = b.groupId := hkey
  rw [hid, hanswers, movesOf_append, movesOf_cons_self hgroup, movesOf_append,
    movesOf_cons_self rfl] at hpath
  obtain ⟨m, hm, hentered⟩ := hpath.entered_again not_edge_self hleft
  obtain ⟨c, hc, hgroupc, rfl⟩ := mem_movesOf.mp hm
  exact ⟨c, hc, hgroupc, hentered⟩

/-- **The publication lifecycle.** In every run from the system without groups, whatever is
interleaved, the groups keep their lifecycle, and in every state that a run reaches the blockers
that a group shows decide about its next step. -/
theorem publication_lifecycle (hstart : Start s₀) (hrun : run (step settings) s₀ ls = some s) :
    Lifecycle settings s₀ ls s ∧ BlockersDecide settings s := by
  -- The invariant and the history go together over the run.
  have hkeep : ∀ s₁ l s₂, Inv s₁ ∧ History s₁ → step settings s₁ l = some s₂ →
      Inv s₂ ∧ History s₂ := by
    intro s₁ l s₂ hI hstep
    obtain ⟨hinv, heffect⟩ := step_effect hI.1 hstep
    exact ⟨hinv, hI.2.effect heffect⟩
  have hall : Inv s ∧ History s := run_invariant hkeep ⟨hstart.inv, hstart.history⟩ hrun
  constructor
  · exact
      { path := isChain_statuses hstart.inv
        terminal := fun groupId before a after hsplit hterminal => by
          have hchain : (statuses settings s₀ ls groupId).IsChain fun a b => b = a ∨ Edge a b :=
            isChain_statuses hstart.inv groupId
          rw [hsplit] at hchain
          exact eq_of_terminal hchain hterminal
        once := fun before a between b after => hall.2.entered_again
        history := hall.2.path
        previous := hall.2.previous
        reason := hall.2.reason }
  · intro t ctx groupId group hfree hlock hfind hauth
    -- An action that runs alone is enabled exactly when its request succeeds.
    have hserial : ∀ action,
        (run (step settings) s (serially t ctx groupId action)).isSome =
          (action.perform settings s.db ctx groupId).toOption.isSome := by
      intro action
      rw [← run_serially hfree hlock, Option.isSome_map]
    refine ⟨fun hstatus => ?_, fun hstatus => ?_⟩
    · rw [hserial]
      exact submit_isSome_iff hfind hauth hstatus
    · rw [hserial]
      exact publish_isSome_iff hfind hauth hstatus

end

/-! ### A race -/

/-- The system around a deployment. -/
def desk : State where
  db := deployed
  txns _ := none
  locks _ := none
  answers := []

/-- A request context of the admin. -/
def rootCtx : Context := (Evaluations.Label.byRoot 31 (.submit 30)).toContext

/-- Two admins approve the group 30. The second one reads the row when the first one has
committed, and gives up. Then the title is changed. -/
def race : List Label :=
  [.create (.byRoot 30 (.createGroup challenge)), .load 1 rootCtx 30 (.transition .approve),
    .authorise 1, .assess 1, .elsewhere deployed, .commit 1,
    .load 2 rootCtx 30 (.transition .approve), .authorise 2, .abort 2] ++
    serially 3 rootCtx 30 (.edit { title := some trial.title })

/-- The group is approved, once. -/
theorem publication_lifecycle_of_race : ∃ s, run (step thirtyDays) desk race = some s ∧
    Lifecycle thirtyDays desk race s ∧ BlockersDecide thirtyDays s := by
  have hsome : (run (step thirtyDays) desk race).isSome = true := by decide +kernel
  obtain ⟨s, hrun⟩ := Option.isSome_iff_exists.mp hsome
  exact ⟨s, hrun, publication_lifecycle ⟨rfl, fun _ => rfl, fun _ => rfl, rfl⟩ hrun⟩

end RedTeaming.Evaluations.Publication
