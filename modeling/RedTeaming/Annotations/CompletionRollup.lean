import RedTeaming.Annotations.TaskCompletions
import RedTeaming.Conversations.Ownership

/-!
# `RedTeaming.Annotations.CompletionRollup`: the numbers of a conversation group

`rollup_counts_conversations` is about every state that a run reaches: the total of the roll-up is
the number of the conversations of the group that the caller reads, and the count of a task is the
number of those whose list has the task.

The total is scoped by the owner and the evaluation of a conversation, and the counts by the
copies on the completions. They agree because the copies do not get stale (`CopiesConversation`):
conversations keep both, wherever they move. And a count of rows counts conversations because a
conversation has one live completion of a task (`OneLive`). The index keeps that: who has inserted
a row holds its key until the commit (`Inserted`).
-/

set_option autoImplicit false

namespace RedTeaming.Annotations.TaskCompletions

open RedTeaming.Auth
open RedTeaming.Conversations (Conversation liveMembers mem_liveMembers)
open RedTeaming.Conversations.Groups (IsVersion KeepsOwners Versions keepsOwners_of_step)
open RedTeaming.Evaluations (joinVisibleEvaluationGroup)
open RedTeaming.Library

/-- The caller sees the group of the conversation, and it is the caller's own unless that is
lifted. -/
def readable (s : State) (callerId : UserId) (canManage : Bool)
    (conversation : Conversation) : Bool :=
  (joinVisibleEvaluationGroup s.base callerId canManage conversation.evaluationId).isSome &&
    (canManage || conversation.userId == callerId)

/-- The live conversations that are in a group now, in the scope of the caller. -/
def groupConversations (s : State) (conversationGroupId : UUID) (callerId : UserId)
    (canManage : Bool) : List Conversation :=
  (liveMembers s.conversations conversationGroupId).filter (readable s callerId canManage)

/-- The row copies the owner and the evaluation of its conversation. -/
def CopiesConversation (rows : Table Conversation) (row : TaskCompletion) : Prop :=
  ∃ conversation : Conversation, conversation ∈ rows ∧ key conversation = row.conversationId ∧
    conversation.userId = row.createdById ∧ conversation.evaluationId = row.evaluationId

/-- A conversation has one live completion of a task at most. -/
def OneLive (completions : Table TaskCompletion) : Prop :=
  ∀ row ∈ completions, ∀ row' ∈ completions, live row = true → live row' = true →
    row.conversationId = row'.conversationId → row.taskId = row'.taskId → row = row'

/-- What a transaction knows of a row that it has inserted: it holds the key, and nobody has a
live row of it. -/
structure Inserted (s : State) (t : TxnId) (row : TaskCompletion) : Prop where
  copies : CopiesConversation s.conversations row
  locked : s.locks row.pair = some t
  free : ∀ other ∈ s.completions, live other = true → other.pair ≠ row.pair

/-- The conversation that a transaction has resolved is the caller's own. -/
def Resolved (s : State) (callerId : UserId) : Phase → Prop
  | .checkTask conversation _ | .findExisting conversation _ | .insert conversation _ =>
    conversation.userId = callerId ∧ IsVersion s.conversations conversation
  | _ => True

/-- What a transaction knows of what it has read and written. -/
structure Known (s : State) (t : TxnId) (x : Txn) : Prop where
  phase : Resolved s x.ctx.callerId x.phase
  write : ∀ row, x.write = some (.insert row) → Inserted s t row

/-- What holds between two steps. -/
structure Inv (s : State) : Prop where
  copies : ∀ row ∈ s.completions, CopiesConversation s.conversations row
  unique : OneLive s.completions
  txns : ∀ t x, s.txns t = some x → Known s t x
  groups : Versions s.groups

/-- Nothing is checked off, and nothing is open. The conversations and the rest are arbitrary. -/
structure Start (s : State) : Prop where
  completions : s.completions = .empty
  txns : ∀ t, s.txns t = none
  groups : ∀ t, s.groups.txns t = none

/-- What another step cannot take away from `t`. A new live row has a key that `t` does not
hold. -/
structure Keeps (s s' : State) (t : TxnId) : Prop where
  conversations : KeepsOwners s.conversations s'.conversations
  locks : ∀ k, s.locks k = some t → s'.locks k = some t
  rows : ∀ row ∈ s'.completions, live row = true → row ∈ s.completions ∨ s.locks row.pair ≠ some t

/-- The transaction goes on as `x`, and may take a lock. -/
structure Goes (s : State) (t : TxnId) (x : Txn) (s' : State) : Prop where
  completions : s'.completions = s.completions
  groups : s'.groups = s.groups
  txns : s'.txns = s.txns.set t x
  locks : ∀ k t', s.locks k = some t' → s'.locks k = some t'

section
variable {s s' : State} {t t' : TxnId} {x x' : Txn} {row row' : TaskCompletion}

/-! ### What stays -/

/-- Two rows have one key exactly when they agree in the conversation and the task. -/
theorem pair_eq_iff :
    row.pair = row'.pair ↔ row.conversationId = row'.conversationId ∧
      row.taskId = row'.taskId := by
  rw [TaskCompletion.pair, TaskCompletion.pair, LockKey.pair.injEq]

/-- The conversations that stay are copied still. -/
theorem CopiesConversation.keep {rows rows' : Table Conversation}
    (h : CopiesConversation rows row) (hkeeps : KeepsOwners rows rows') :
    CopiesConversation rows' row := by
  obtain ⟨conversation, hmem, hkey, howner, hevaluation⟩ := h
  obtain ⟨now, hnow, hkey', howner', hevaluation'⟩ := hkeeps conversation hmem
  exact ⟨now, hnow, hkey'.trans hkey, howner'.trans howner, hevaluation'.trans hevaluation⟩

theorem Inserted.keep (h : Inserted s t row) (hkeeps : Keeps s s' t) : Inserted s' t row where
  copies := h.copies.keep hkeeps.conversations
  locked := hkeeps.locks _ h.locked
  free := by
    intro other hother hlive hsame
    rcases hkeeps.rows other hother hlive with hold | hnot
    · exact h.free other hold hlive hsame
    · rw [hsame] at hnot
      exact hnot h.locked

theorem Resolved.keep {callerId : UserId} {phase : Phase} (h : Resolved s callerId phase)
    (hkeeps : Keeps s s' t) : Resolved s' callerId phase := by
  cases phase with
  | checkTask conversation groupId => exact ⟨h.1, h.2.keep hkeeps.conversations⟩
  | findExisting conversation groupId => exact ⟨h.1, h.2.keep hkeeps.conversations⟩
  | insert conversation groupId => exact ⟨h.1, h.2.keep hkeeps.conversations⟩
  | _ => trivial

theorem Known.keep (h : Known s t x) (hkeeps : Keeps s s' t) : Known s' t x :=
  ⟨h.phase.keep hkeeps, fun row hrow => (h.write row hrow).keep hkeeps⟩

/-- A step that commits nothing leaves everything. -/
theorem Goes.keeps (h : Goes s t x s') (t' : TxnId) : Keeps s s' t' where
  conversations := by
    rw [State.conversations, State.conversations, h.groups]
    exact KeepsOwners.refl _
  locks := fun k hheld => h.locks k t' hheld
  rows := by
    rw [h.completions]
    exact fun _ hrow _ => .inl hrow

/-- A statement keeps the invariant when the transaction knows enough after it. -/
theorem Inv.goes (h : Inv s) (hgoes : Goes s t x s') (hknown : Known s' t x) : Inv s' where
  copies := by
    rw [hgoes.completions, State.conversations, hgoes.groups]
    exact h.copies
  unique := by
    rw [hgoes.completions]
    exact h.unique
  txns := by
    rw [hgoes.txns]
    exact Records.forall_set hknown fun t' x' _ hx' => (h.txns t' x' hx').keep (hgoes.keeps t')
  groups := by
    rw [hgoes.groups]
    exact h.groups

/-! ### Statements -/

theorem goes_put (t : TxnId) (x : Txn) : Goes s t x (s.put t x) := ⟨rfl, rfl, rfl, fun _ _ h => h⟩

/-- A transaction goes on with another statement. -/
theorem Inv.goto {phase : Phase} (h : Inv s) (hx : s.txns t = some x)
    (hphase : Resolved s x.ctx.callerId phase) : Inv (s.goto t x phase) := by
  have hgoes : Goes s t { x with phase } (s.goto t x phase) := goes_put t _
  have hknown : Known s t { x with phase } := ⟨hphase, (h.txns t x hx).write⟩
  exact h.goes hgoes (hknown.keep (hgoes.keeps t))

/-- A lock is all that `State.lock` takes. -/
theorem lock_spec {k : LockKey} {locked : State} (h : s.lock t k = some locked) :
    locked = { s with locks := s.locks.take k t } ∧
      ∀ k' t', s.locks k' = some t' → locked.locks k' = some t' := by
  unfold State.lock at h
  split at h
  · rename_i hmay
    cases h
    exact ⟨rfl, fun _ _ hheld => Locks.held_take hmay hheld⟩
  · cases h

/-- The resolved conversation is a committed one of the caller. -/
theorem of_resolveConversationContext {callerId : UserId} {conversationId : UUID}
    {context : Conversation × UUID}
    (h : resolveConversationContext s callerId conversationId = some context) :
    context.1.userId = callerId ∧ IsVersion s.conversations context.1 := by
  simp only [resolveConversationContext, Option.bind_eq_bind, Option.bind_eq_some_iff,
    Option.filter_eq_some_iff, beq_iff_eq] at h
  obtain ⟨conversation, ⟨hfind, howner⟩, group, -, hpair⟩ := h
  cases hpair
  exact ⟨howner, Conversations.Groups.isVersion_of_mem (findLive_eq_some.mp hfind).1⟩

/-- The insert of a completion that the index takes. -/
theorem Inv.insert {conversation : Conversation} {groupId : UUID} {locked : State} (h : Inv s)
    (hresolved : Resolved s x.ctx.callerId (.insert conversation groupId))
    (hlock : s.lock t (x.newCompletion conversation groupId).pair = some locked)
    (hfree : ¬ taken s (x.newCompletion conversation groupId) = true) :
    Inv (locked.put t
      { x with phase := .finished,
               write := some (.insert (x.newCompletion conversation groupId)) }) := by
  obtain ⟨rfl, hheld⟩ := lock_spec hlock
  refine h.goes ⟨rfl, rfl, rfl, hheld⟩ ⟨trivial, ?_⟩
  intro row hrow
  cases hrow
  -- The row copies the conversation that was resolved, and the caller is its owner.
  obtain ⟨howner, committed, hmem, hkey, howner', hevaluation⟩ := hresolved
  refine ⟨⟨committed, hmem, hkey, howner'.trans howner, hevaluation⟩, Locks.take_self _ _ _, ?_⟩
  -- The index had no live row of the key when the statement ran.
  intro other hother hlive hsame
  exact hfree
    (List.any_eq_true.mpr ⟨other, mem_liveSelect.mpr ⟨hother, hlive⟩, beq_iff_eq.mpr hsame⟩)

/-- The tombstone of a completion is no insert. -/
theorem Inv.softDelete {id : UUID} {locks : Locks LockKey TxnId} (h : Inv s)
    (hlocks : ∀ k t', s.locks k = some t' → locks k = some t') :
    Inv (State.put { s with locks } t
      { x with phase := .finished, write := some (.softDelete id) }) := by
  refine h.goes ⟨rfl, rfl, rfl, hlocks⟩ ⟨trivial, ?_⟩
  intro row hrow
  cases hrow

/-- One statement keeps the invariant. -/
theorem Inv.statement (h : Inv s) (hx : s.txns t = some x) (hstep : statement s t x = some s') :
    Inv s' := by
  have hknown := h.txns t x hx
  unfold TaskCompletions.statement at hstep
  cases hphase : x.phase with
  | resolveConversation =>
    simp only [hphase] at hstep
    obtain ⟨context, hcontext, rfl⟩ := Option.map_eq_some_iff.mp hstep
    split
    · exact h.goto hx (of_resolveConversationContext hcontext)
    · -- An uncomplete keeps nothing of the conversation.
      exact h.goto hx trivial
  | checkTask conversation groupId =>
    simp only [hphase] at hstep
    have hresolved := hknown.phase
    rw [hphase] at hresolved
    split at hstep
    · cases hstep
      exact h.goto hx hresolved
    · cases hstep
  | findExisting conversation groupId =>
    simp only [hphase] at hstep
    have hresolved := hknown.phase
    rw [hphase] at hresolved
    split at hstep
    · cases hstep
      exact h.goto hx hresolved
    · cases hstep
      exact h.goto hx trivial
    · cases hstep
  | insert conversation groupId =>
    simp only [hphase] at hstep
    have hresolved := hknown.phase
    rw [hphase] at hresolved
    obtain ⟨locked, hlock, rfl⟩ := Option.map_eq_some_iff.mp hstep
    split
    · exact h.goto hx trivial
    · rename_i hfree
      -- The lock of the key is held, and the index takes the row.
      exact h.insert hresolved hlock hfree
  | rereadWon =>
    simp only [hphase] at hstep
    split at hstep
    · cases hstep
      exact h.goto hx trivial
    · cases hstep
  | findLive =>
    simp only [hphase] at hstep
    split at hstep
    · cases hstep
      exact h.goto hx trivial
    · cases hstep
      exact h.goto hx trivial
    · cases hstep
  | softDelete row =>
    simp only [hphase] at hstep
    obtain ⟨locked, hlock, hstep⟩ := Option.bind_eq_some_iff.mp hstep
    obtain ⟨locked', hlock', rfl⟩ := Option.map_eq_some_iff.mp hstep
    obtain ⟨rfl, hheld⟩ := lock_spec hlock
    split at hlock'
    · obtain ⟨rfl, hheld'⟩ := lock_spec hlock'
      exact h.softDelete fun k t' hk => hheld' k t' (hheld k t' hk)
    · cases hlock'
      exact h.softDelete hheld
  | finished =>
    simp only [hphase] at hstep
    cases hstep

/-! ### Commits -/

/-- The end of a transaction leaves the others what they know. -/
theorem Known.close {completions : Table TaskCompletion} (h : Known s t' x') (hne : t' ≠ t)
    (hrows : ∀ row ∈ completions, live row = true → row ∈ s.completions ∨
      s.locks row.pair ≠ some t') :
    Known { (s.close t) with completions } t' x' :=
  h.keep
    { conversations := KeepsOwners.refl _
      locks := fun _ hheld => Locks.held_release hne hheld
      rows := hrows }

/-- A transaction that has written nothing ends. -/
theorem Inv.close (h : Inv s) : Inv (s.close t) where
  copies := h.copies
  unique := h.unique
  txns := Records.forall_drop fun t' x' hne hx' =>
    (h.txns t' x' hx').close (t := t) hne fun _ hrow _ => .inl hrow
  groups := h.groups

/-- The inserted row is the only live one of its key, and nobody else has inserted one. -/
theorem Inv.commit_insert {completions : Table TaskCompletion} (h : Inv s)
    (hinserted : Inserted s t row) (hinsert : s.completions.insertAll [row] = some completions) :
    Inv { (s.close t) with completions } := by
  have hmem : ∀ row', row' ∈ completions ↔ row' ∈ s.completions ∨ row' = row := by
    intro row'
    rw [Table.mem_insertAll hinsert, List.mem_singleton]
  constructor
  · intro row' hrow'
    rcases (hmem row').mp hrow' with hold | rfl
    · exact h.copies row' hold
    · exact hinserted.copies
  · intro row₁ hrow₁ row₂ hrow₂ hlive₁ hlive₂ hconversation htask
    -- Of two rows of one key, one is the new row, and the key was free.
    have hpair : row₁.pair = row₂.pair := pair_eq_iff.mpr ⟨hconversation, htask⟩
    rcases (hmem row₁).mp hrow₁ with hold₁ | rfl
    · rcases (hmem row₂).mp hrow₂ with hold₂ | rfl
      · exact h.unique row₁ hold₁ row₂ hold₂ hlive₁ hlive₂ hconversation htask
      · exact absurd hpair (hinserted.free row₁ hold₁ hlive₁)
    · rcases (hmem row₂).mp hrow₂ with hold₂ | rfl
      · exact absurd hpair.symm (hinserted.free row₂ hold₂ hlive₂)
      · rfl
  · apply Records.forall_drop
    intro t' x' hne hx'
    refine (h.txns t' x' hx').close (t := t) hne fun row' hrow' _ => ?_
    rcases (hmem row').mp hrow' with hold | rfl
    · exact .inl hold
    · -- Another transaction does not hold the key of the new row.
      rw [hinserted.locked]
      exact .inr fun hsame => hne (Option.some.inj hsame).symm
  · exact h.groups

/-- A tombstone leaves the other rows, and has the ids of its row. -/
theorem Inv.commit_softDelete {now : Time} {byId id : UUID} (h : Inv s) :
    Inv { (s.close t) with completions := softDeleteRow s.completions now byId id } := by
  have hlive : ∀ row ∈ softDeleteRow s.completions now byId id, live row = true →
      row ∈ s.completions :=
    fun row hrow hlive => ((mem_softDeleteRow hlive).mp hrow).1
  constructor
  · intro row hrow
    have hrow : row ∈ softDeleteRow s.completions now byId id := hrow
    -- The tombstone copies what its row did.
    rw [softDeleteRow, Table.mem_modify] at hrow
    rcases hrow with ⟨old, hold, -, rfl⟩ | ⟨hold, -⟩
    · exact h.copies old hold
    · exact h.copies row hold
  · intro row₁ hrow₁ row₂ hrow₂ hlive₁ hlive₂
    exact h.unique row₁ (hlive row₁ hrow₁ hlive₁) row₂ (hlive row₂ hrow₂ hlive₂) hlive₁ hlive₂
  · exact Records.forall_drop fun t' x' hne hx' =>
      (h.txns t' x' hx').close (t := t) hne fun row hrow hrowLive =>
        .inl (hlive row hrow hrowLive)
  · exact h.groups

/-- A commit keeps the invariant. -/
theorem Inv.commit (h : Inv s) (hx : s.txns t = some x) {completions : Table TaskCompletion}
    (hwrite : commitWrite s.completions x.ctx x.write = some completions) :
    Inv { (s.close t) with completions } := by
  have hknown := h.txns t x hx
  cases hcase : x.write with
  | none =>
    rw [hcase] at hwrite
    cases hwrite
    exact h.close
  | some write =>
    rw [hcase] at hwrite
    cases write with
    | insert row => exact h.commit_insert (hknown.write row hcase) hwrite
    | softDelete id =>
      cases hwrite
      exact h.commit_softDelete

/-! ### Runs -/

/-- The conversations go on beside the completions. -/
theorem Inv.conversations {base : Evaluations.Database}
    {groups : Conversations.Groups.State} (h : Inv s)
    (hkeeps : KeepsOwners s.conversations groups.conversations) (hversions : Versions groups) :
    Inv { s with base, groups } where
  copies := fun row hrow => (h.copies row hrow).keep hkeeps
  unique := h.unique
  txns := fun t x hx =>
    (h.txns t x hx).keep ⟨hkeeps, fun _ hheld => hheld, fun _ hrow _ => .inl hrow⟩
  groups := hversions

/-- The check of the rest of the application. -/
theorem keepsOwners_of_keepsConversations {rows rows' : Table Conversation}
    (h : keepsConversations rows rows' = true) : KeepsOwners rows rows' := by
  intro row hrow
  obtain ⟨now, hnow, hsame⟩ := List.any_eq_true.mp (List.all_eq_true.mp h row hrow)
  simp only [Bool.and_eq_true, beq_iff_eq] at hsame
  exact ⟨now, hnow, hsame.1.1, hsame.1.2, hsame.2⟩

/-- One step keeps the invariant. -/
theorem Inv.step {settings : Conversations.Groups.Settings} {event : Event} (h : Inv s)
    (hstep : step settings s event = some s') : Inv s' := by
  cases event with
  | start t ctx request =>
    simp only [TaskCompletions.step] at hstep
    split at hstep
    · cases hstep
      refine h.goes (goes_put t _) ⟨trivial, ?_⟩
      intro row hrow
      cases hrow
    · cases hstep
  | statement t =>
    obtain ⟨x, hx, hstep⟩ := Option.bind_eq_some_iff.mp hstep
    exact h.statement hx hstep
  | commit t =>
    simp only [TaskCompletions.step] at hstep
    split at hstep
    · rename_i hx
      obtain ⟨completions, hwrite, rfl⟩ := Option.map_eq_some_iff.mp hstep
      exact h.commit hx hwrite
    · cases hstep
  | abort t =>
    simp only [TaskCompletions.step] at hstep
    split at hstep
    · cases hstep
      exact h.close
    · cases hstep
  | conversations label =>
    obtain ⟨groups, hgroups, rfl⟩ := Option.map_eq_some_iff.mp hstep
    obtain ⟨hversions, hkeeps⟩ := keepsOwners_of_step h.groups hgroups
    exact h.conversations hkeeps hversions
  | elsewhere base rows =>
    simp only [TaskCompletions.step] at hstep
    split at hstep
    · rename_i hkept
      cases hstep
      have hkeeps := keepsOwners_of_keepsConversations hkept
      exact h.conversations hkeeps fun t txn ht row hrow =>
        (h.groups t txn ht row hrow).keep hkeeps
    · cases hstep

/-- The invariant holds in every state that a run reaches, from one without completions. -/
theorem inv_of_run {settings : Conversations.Groups.Settings} {events : List Event}
    (hstart : Start s) (hrun : run (step settings) s events = some s') : Inv s' := by
  have hnone : ∀ row, row ∉ s.completions := by
    intro row
    rw [hstart.completions]
    exact Table.not_mem_empty
  have hinv : Inv s := by
    constructor
    · exact fun row hrow => absurd hrow (hnone row)
    · exact fun row hrow => absurd hrow (hnone row)
    · intro t x hx
      rw [hstart.txns t] at hx
      cases hx
    · intro t txn ht
      rw [hstart.groups t] at ht
      cases ht
  exact run_invariant (fun _ _ _ hinv hstep => hinv.step hstep) hinv hrun

/-! ### What is counted -/

variable {conversationGroupId taskId : UUID} {callerId : UserId} {canManage : Bool}

/-- The total is the number of conversations. -/
theorem total_groupCompletionRollup :
    (groupCompletionRollup s conversationGroupId callerId canManage).1 =
    (groupConversations s conversationGroupId callerId canManage).length := by
  rw [groupConversations, liveMembers, liveSelect, List.filter_filter, List.filter_filter,
    ← List.countP_eq_length_filter]
  show s.conversations.rows.countP _ = _
  -- The statement and the list ask for the same four conditions.
  apply List.countP_congr
  intro conversation _
  simp only [readable, Bool.and_eq_true]
  tauto

/-- A row that the roll-up counts for a task. -/
def countsFor (s : State) (conversationGroupId taskId : UUID) (callerId : UserId)
    (canManage : Bool) (row : TaskCompletion) : Bool :=
  inScope s callerId canManage row && inGroup s conversationGroupId row && row.taskId == taskId

/-- The count of a task is the number of its rows. -/
theorem count_groupCompletionRollup :
    valueAt (groupCompletionRollup s conversationGroupId callerId canManage).2 taskId 0 =
      ((liveSelect s.completions).filter
        (countsFor s conversationGroupId taskId callerId canManage)).length := by
  have hvalue := valueAt_aggregate TaskCompletion.taskId
    ((liveSelect s.completions).filter fun row =>
      inScope s callerId canManage row && inGroup s conversationGroupId row) List.length taskId
  refine hvalue.trans ?_
  rw [List.filter_filter]
  congr 1
  apply List.filter_congr
  intro row _
  rw [countsFor, Bool.and_comm, Bool.beq_eq_decide_eq]

/-- What the list of a conversation has. -/
theorem any_listConversationCompletions {conversationId : UUID} :
    (listConversationCompletions s conversationId callerId canManage).any
    (fun row => row.taskId == taskId) =
        true ↔
      ∃ row ∈ s.completions, live row = true ∧ row.conversationId = conversationId ∧
        inScope s callerId canManage row = true ∧ row.taskId = taskId := by
  simp only [listConversationCompletions, List.any_eq_true, List.mem_mergeSort, List.mem_filter,
    mem_liveSelect, Bool.and_eq_true, beq_iff_eq, and_assoc]

/-- The rows that are counted for a task, by their parts. -/
theorem mem_counted :
    row ∈ (liveSelect s.completions).filter
      (countsFor s conversationGroupId taskId callerId canManage) ↔
      row ∈ s.completions ∧ live row = true ∧ inScope s callerId canManage row = true ∧
        inGroup s conversationGroupId row = true ∧ row.taskId = taskId := by
  simp only [List.mem_filter, mem_liveSelect, countsFor, Bool.and_eq_true, beq_iff_eq, and_assoc]

/-- The conversations that are counted for a task: of the group, readable, and with the task in
the list. -/
def checkedConversations (s : State) (conversationGroupId taskId : UUID) (callerId : UserId)
    (canManage : Bool) : List Conversation :=
  (groupConversations s conversationGroupId callerId canManage).filter fun conversation =>
    (listConversationCompletions s conversation.id callerId canManage).any fun row =>
      row.taskId == taskId

theorem mem_checkedConversations {conversation : Conversation} :
    conversation ∈ checkedConversations s conversationGroupId taskId callerId canManage ↔
      conversation ∈ s.conversations ∧ live conversation = true ∧
        conversation.conversationGroupId = conversationGroupId ∧
        readable s callerId canManage conversation = true ∧
        ∃ row ∈ s.completions, live row = true ∧ row.conversationId = conversation.id ∧
          inScope s callerId canManage row = true ∧ row.taskId = taskId := by
  rw [checkedConversations, List.mem_filter, any_listConversationCompletions, groupConversations,
    List.mem_filter, mem_liveMembers]
  simp only [and_assoc]

/-- The conversation of a counted row is in the group and readable. The row copies what decides
that. -/
theorem conversation_of_counted (h : Inv s) (hrow : row ∈ s.completions) (hlive : live row = true)
    (hscope : inScope s callerId canManage row = true)
    (hgroup : inGroup s conversationGroupId row = true) (htask : row.taskId = taskId) :
    ∃ conversation ∈ checkedConversations s conversationGroupId taskId callerId canManage,
      key conversation = row.conversationId := by
  obtain ⟨conversation, hmem, hkey, howner, hevaluation⟩ := h.copies row hrow
  rw [inGroup, Option.any_eq_true] at hgroup
  obtain ⟨found, hfound, hsame⟩ := hgroup
  obtain ⟨hfoundMem, hfoundKey, hfoundLive⟩ := findLive_eq_some.mp hfound
  -- The conversation that the statement joins is the one that the row copies.
  have hone : found = conversation :=
    Table.eq_of_key_eq hfoundMem hmem (hfoundKey.trans hkey.symm)
  subst hone
  refine ⟨found, mem_checkedConversations.mpr ?_, hkey⟩
  have hreadable : readable s callerId canManage found = true := by
    simp only [inScope, Bool.and_eq_true] at hscope
    rw [readable, howner, hevaluation, Bool.and_eq_true]
    exact ⟨hscope.1.1, hscope.2⟩
  exact ⟨hmem, hfoundLive, beq_iff_eq.mp hsame, hreadable, row, hrow, hlive, hkey.symm,
    hscope, htask⟩

/-- The rows that are counted for a task have the conversations that are counted. -/
theorem perm_counted (h : Inv s) :
    (((liveSelect s.completions).filter
        (countsFor s conversationGroupId taskId callerId canManage)).map
          TaskCompletion.conversationId).Perm
      ((checkedConversations s conversationGroupId taskId callerId canManage).map key) := by
  have hrows : (((liveSelect s.completions).filter
      (countsFor s conversationGroupId taskId callerId canManage)).map
        TaskCompletion.conversationId).Nodup := by
    refine List.Nodup.map_on ?_ ((s.completions.nodup.of_map.filter _).filter _)
    intro row hrow row' hrow' hsame
    obtain ⟨hmem, hlive, -, -, htask⟩ := mem_counted.mp hrow
    obtain ⟨hmem', hlive', -, -, htask'⟩ := mem_counted.mp hrow'
    exact h.unique row hmem row' hmem' hlive hlive' hsame (htask.trans htask'.symm)
  have hconversations :
      ((checkedConversations s conversationGroupId taskId callerId canManage).map key).Nodup := by
    have hsub : (checkedConversations s conversationGroupId taskId callerId canManage).Sublist
        s.conversations.rows :=
      ((List.filter_sublist.trans List.filter_sublist).trans List.filter_sublist).trans
        List.filter_sublist
    exact (hsub.map key).nodup s.conversations.nodup
  -- Neither side repeats a conversation, so it is enough to compare what is in them.
  rw [List.perm_ext_iff_of_nodup hrows hconversations]
  intro id
  rw [List.mem_map, List.mem_map]
  constructor
  · rintro ⟨row, hrow, rfl⟩
    obtain ⟨hmem, hlive, hscope, hgroup, htask⟩ := mem_counted.mp hrow
    exact conversation_of_counted h hmem hlive hscope hgroup htask
  · rintro ⟨conversation, hconversation, rfl⟩
    obtain ⟨hmem, hlive, hgroup, -, row, hrow, hrowLive, hid, hscope, htask⟩ :=
      mem_checkedConversations.mp hconversation
    refine ⟨row, mem_counted.mpr ⟨hrow, hrowLive, hscope, ?_, htask⟩, hid⟩
    have hfind : RedTeaming.findLive s.conversations row.conversationId = some conversation :=
      findLive_eq_some.mpr ⟨hmem, hid.symm, hlive⟩
    rw [inGroup, hfind]
    exact beq_iff_eq.mpr hgroup

/-- The count of a task is the number of the conversations with the task. -/
theorem count_eq_conversations (h : Inv s) :
    valueAt (groupCompletionRollup s conversationGroupId callerId canManage).2 taskId 0 =
      (checkedConversations s conversationGroupId taskId callerId canManage).length := by
  rw [count_groupCompletionRollup]
  calc ((liveSelect s.completions).filter
    (countsFor s conversationGroupId taskId callerId canManage)).length
      = (((liveSelect s.completions).filter
          (countsFor s conversationGroupId taskId callerId canManage)).map
            TaskCompletion.conversationId).length := (List.length_map _).symm
    _ = ((checkedConversations s conversationGroupId taskId callerId canManage).map key).length :=
        (perm_counted h).length_eq
    _ = (checkedConversations s conversationGroupId taskId callerId canManage).length :=
      List.length_map _

/-- In every state that a run reaches, for every group and caller: the total is the number of the
live conversations of the group that the caller reads, and the count of a task is the number of
those whose list has the task, so that it is at most the total. A conversation has one live
completion of a task at most. -/
theorem rollup_counts_conversations {settings : Conversations.Groups.Settings}
    {events : List Event} (hstart : Start s)
    (hrun : run (TaskCompletions.step settings) s events = some s') :
    (∀ conversationGroupId callerId canManage,
      (groupCompletionRollup s' conversationGroupId callerId canManage).1 =
        (groupConversations s' conversationGroupId callerId canManage).length ∧
      ((groupCompletionRollup s' conversationGroupId callerId canManage).2.map Prod.fst).Nodup ∧
      ∀ taskId,
        valueAt (groupCompletionRollup s' conversationGroupId callerId canManage).2 taskId 0 =
          ((groupConversations s' conversationGroupId callerId canManage).filter
            fun conversation =>
              (listConversationCompletions s' conversation.id callerId canManage).any fun row =>
                row.taskId == taskId).length ∧
        valueAt (groupCompletionRollup s' conversationGroupId callerId canManage).2 taskId 0 ≤
          (groupCompletionRollup s' conversationGroupId callerId canManage).1) ∧
    OneLive s'.completions := by
  have hinv := inv_of_run hstart hrun
  refine ⟨fun conversationGroupId callerId canManage => ?_, hinv.unique⟩
  refine ⟨total_groupCompletionRollup, ?_, fun taskId => ?_⟩
  · rw [groupCompletionRollup, List.map_map]
    exact nodup_keys_groupBy _ _
  · -- The conversations with the task are some of the conversations of the group.
    refine ⟨count_eq_conversations hinv, ?_⟩
    rw [count_eq_conversations hinv, total_groupCompletionRollup]
    exact List.length_filter_le _ _

end

/-! ### Two clicks and a move -/

/-- Two groups of conversations with one conversation each, in a public evaluation with one
task. -/
def unchecked : State where
  base :=
    { Evaluations.deployed with
      groups := .single
        { id := 30, createdAt := 0, createdById := 1, accessLevel := .public,
          status := .published }
      evaluations := .single
        { id := 10, createdAt := 0, title := "Trial", createdById := 1, evaluationGroupId := 30 }
      tasks := .single
        { id := 33, createdAt := 0, name := "First", description := "Ask", scenarioId := 40 } }
  groups :=
    { groups := ⟨[Conversations.Groups.group, { Conversations.Groups.group with id := 6 }], by
        decide⟩
      conversations :=
        ⟨[Conversations.Groups.member 60,
          { Conversations.Groups.member 61 with conversationGroupId := 6 }], by decide⟩ }
  completions := .empty
  locks := fun _ => none
  txns := fun _ => none

/-- A request of the owner of the conversations, who draws the id `row`. -/
def byOwner (row : UUID) : Evaluations.Context where
  caller := Accounts.rootSession
  now := 1000
  fresh :=
    { row
      allowedModel := id
      evaluation := id
      assignment := id
      tagKey := id
      scenario := id
      task := id }

/-- Two requests check off the task in the conversation 60. The second one finds nothing either,
and its insert is refused. Then the conversation moves to the other group. -/
def clicksAndMove : List Event :=
  [.start 1 (byOwner 70) (.complete 60 33), .statement 1, .statement 1, .statement 1,
    .start 2 (byOwner 71) (.complete 60 33), .statement 2, .statement 2, .statement 2,
    .statement 1, .commit 1, .statement 2, .statement 2, .commit 2,
    .conversations (.begin 1 (.move 10 60 6 1 false)), .conversations (.lockConversation 1),
    .conversations (.lockGroup 1), .conversations (.write 1 7 0), .conversations (.decide 1),
    .conversations (.prune 1 8), .conversations (.commit 1)]

/-- The other group has the completion then, once. -/
theorem rollup_counts_conversations_clicksAndMove :
    ∃ s', run (step Conversations.Groups.settings) unchecked clicksAndMove = some s' ∧
      groupCompletionRollup s' 6 1 false = (2, [(33, 1)]) ∧
      ((∀ conversationGroupId callerId canManage,
        (groupCompletionRollup s' conversationGroupId callerId canManage).1 =
          (groupConversations s' conversationGroupId callerId canManage).length ∧
        ((groupCompletionRollup s' conversationGroupId callerId canManage).2.map Prod.fst).Nodup ∧
        ∀ taskId,
          valueAt (groupCompletionRollup s' conversationGroupId callerId canManage).2 taskId 0 =
            ((groupConversations s' conversationGroupId callerId canManage).filter
              fun conversation =>
                (listConversationCompletions s' conversation.id callerId canManage).any fun row =>
                  row.taskId == taskId).length ∧
          valueAt (groupCompletionRollup s' conversationGroupId callerId canManage).2 taskId 0 ≤
            (groupCompletionRollup s' conversationGroupId callerId canManage).1) ∧
      OneLive s'.completions) := by
  have hany : (run (step Conversations.Groups.settings) unchecked clicksAndMove).any (fun s =>
      decide (groupCompletionRollup s 6 1 false = (2, [(33, 1)]))) = true := by
    decide +kernel
  obtain ⟨s', hrun, hrollup⟩ := exists_run_of_any hany
  have hstart : Start unchecked := ⟨rfl, fun _ => rfl, fun _ => rfl⟩
  exact ⟨s', hrun, of_decide_eq_true hrollup, rollup_counts_conversations hstart hrun⟩

end RedTeaming.Annotations.TaskCompletions
