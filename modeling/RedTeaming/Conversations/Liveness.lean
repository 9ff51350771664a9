import RedTeaming.Conversations.LivenessSystem

/-!
# `RedTeaming.Conversations.Liveness`: when the liveness chain holds

A live assignment should name a live model, and a live conversation a live assignment (`Chain`).
`chain_iff_in_time` says when a run keeps it: each row that is made live commits while its parent
is live, and no delete of a parent commits beside a child that was made live after its cascade
started and that the cascade did not reach.

Both happen. A request that makes a row live checks the parent in an earlier statement, and does
not lock it. A cascade wants the rows that are live when it starts. `Covered` says that this is
the only gap: a live child of a parent that is being deleted has its tombstone, is still wanted,
or was made live since.
-/

set_option autoImplicit false

namespace RedTeaming.Conversations.Liveness

open RedTeaming.Auth
open RedTeaming.Evaluations
open RedTeaming.Library

/-- A live assignment has a live model, and a live conversation a live assignment. -/
structure Chain (db : Tables) : Prop where
  assignment : ∀ row ∈ db.assignments, live row = true → (findLive db.models row.modelId).isSome
  conversation : ∀ row ∈ db.conversations, live row = true →
    (findLive db.assignments row.evaluationAiModelId).isSome

/-- A live child of the parents that are deleted, which was made live after the cascade started,
and which the cascade did not reach. -/
inductive Missed (db : Tables) (removal : Removal) : Prop
  | assignment (row : EvaluationAiModel) (model : AiModel) (hrow : row ∈ db.assignments)
      (hlive : live row = true) (hmodel : removal.model = some model)
      (hchild : row.modelId = key model)
      (hlate : key row ∈ db.assignmentLog.drop removal.assignmentMark)
      (hleft : key row ∉ removal.assignments.map key)
  | conversation (row : Conversation) (hrow : row ∈ db.conversations) (hlive : live row = true)
      (hchild : row.evaluationAiModelId ∈ removal.assignments.map key)
      (hlate : key row ∈ db.conversationLog.drop removal.conversationMark)
      (hleft : key row ∉ removal.conversations.map key)

/-- What a transaction commits is in time: the parent of the row that it makes live is live, and a
delete misses no child. -/
def PhaseInTime (db : Tables) : Phase → Prop
  | .assigned row | .assignmentRestored row => (findLive db.models row.modelId).isSome
  | .created row | .conversationRestored row =>
    (findLive db.assignments row.evaluationAiModelId).isSome
  | .cascading removal _ => ¬ Missed db removal
  | _ => True

/-- A commit is in time. -/
def InTime (s : State) : Label → Prop
  | .commit t => ∀ txn, s.txns t = some txn → PhaseInTime s.toTables txn.phase
  | _ => True

/-- Whether a delete missed an assignment or a conversation is a search of the rows. -/
theorem missed_iff {db : Tables} {removal : Removal} :
    Missed db removal ↔
      (∃ row ∈ db.assignments.rows, live row = true ∧ row.modelId ∈ removal.model.map key ∧
        key row ∈ db.assignmentLog.drop removal.assignmentMark ∧
        key row ∉ removal.assignments.map key) ∨
      (∃ row ∈ db.conversations.rows, live row = true ∧
        row.evaluationAiModelId ∈ removal.assignments.map key ∧
        key row ∈ db.conversationLog.drop removal.conversationMark ∧
        key row ∉ removal.conversations.map key) := by
  constructor
  · intro h
    cases h with
    | assignment row model hrow hlive hmodel hchild hlate hleft =>
      exact .inl ⟨row, hrow, hlive, by simp [hmodel, hchild], hlate, hleft⟩
    | conversation row hrow hlive hchild hlate hleft =>
      exact .inr ⟨row, hrow, hlive, hchild, hlate, hleft⟩
  · rintro (⟨row, hrow, hlive, hmodel, hlate, hleft⟩ | ⟨row, hrow, hlive, hchild, hlate, hleft⟩)
    · obtain ⟨model, hmodel, hchild⟩ := Option.mem_map.mp hmodel
      exact .assignment row model hrow hlive hmodel hchild.symm hlate hleft
    · exact .conversation row hrow hlive hchild hlate hleft

instance (db : Tables) (removal : Removal) : Decidable (Missed db removal) :=
  decidable_of_iff _ missed_iff.symm

instance (db : Tables) : DecidablePred (PhaseInTime db)
  | .assigned row | .assignmentRestored row =>
    inferInstanceAs (Decidable ((findLive db.models row.modelId).isSome = true))
  | .created row | .conversationRestored row =>
    inferInstanceAs (Decidable ((findLive db.assignments row.evaluationAiModelId).isSome = true))
  | .cascading removal _ => inferInstanceAs (Decidable (¬ Missed db removal))
  | .begun | .checked | .modelFound _ | .assignmentFound _ | .conversationFound _
  | .conversationDeleted _ | .modelRestored _ | .removing _ | .unassigning _ _ => .isTrue trivial

instance (s : State) : DecidablePred (InTime s)
  | .commit t =>
    match ht : s.txns t with
    | none => .isTrue fun txn h => by cases ht.symm.trans h
    | some txn =>
      decidable_of_iff (PhaseInTime s.toTables txn.phase)
        ⟨fun hphase _ h => by cases ht.symm.trans h; exact hphase, fun h => h txn ht⟩
  | .begin _ _ | .check _ | .lockModel _ | .lockAssignment _ | .lockConversation _ | .write _ _ _
  | .startUnassign _ | .unassignNext _ _ _ | .startCascade _ | .cascadeNext _ _ _ | .abort _ =>
    .isTrue trivial

/-- Nothing is open, and the chain holds. -/
structure Start (s : State) : Prop where
  txns : ∀ t, s.txns t = none
  chain : Chain s.toTables

/-! ### What a transaction knows where it is -/

/-- The rows that a delete wrote are tombstones. It deletes the model of its request, and
assignments of that model. -/
structure RemovalOk (db : Tables) (request : Request) (removal : Removal) : Prop where
  model : ∀ model, removal.model = some model → live model = false ∧
    ∃ callerId, request = .deleteModel (key model) callerId
  assignments : ∀ row ∈ removal.assignments, live row = false ∧
    (∃ row₀ ∈ db.assignments, key row₀ = key row) ∧
    ∀ model, removal.model = some model → row.modelId = key model
  conversations : ∀ row ∈ removal.conversations, live row = false

/-- A live assignment of the deleted model is still wanted, has its tombstone, or was made live
since. -/
structure AssignmentsCovered (db : Tables) (removal : Removal) (wanted : List UUID) : Prop where
  mark : removal.assignmentMark ≤ db.assignmentLog.length
  covered : ∀ row ∈ db.assignments, live row = true →
    ∀ model, removal.model = some model → row.modelId = key model →
      key row ∈ wanted ∨ key row ∈ removal.assignments.map key ∨
        key row ∈ db.assignmentLog.drop removal.assignmentMark

/-- A live conversation of a deleted assignment is still wanted, has its tombstone, or was made
live since. -/
structure ConversationsCovered (db : Tables) (removal : Removal) (wanted : List UUID) : Prop where
  mark : removal.conversationMark ≤ db.conversationLog.length
  covered : ∀ row ∈ db.conversations, live row = true →
    row.evaluationAiModelId ∈ removal.assignments.map key →
      key row ∈ wanted ∨ key row ∈ removal.conversations.map key ∨
        key row ∈ db.conversationLog.drop removal.conversationMark

/-- What holds of a transaction where it is. -/
def PhaseOk (db : Tables) (request : Request) : Phase → Prop
  | .assigned row => live row = true
  | .assignmentRestored row => live row = true ∧ ∃ row₀ ∈ db.assignments, key row₀ = key row
  | .created row => live row = true
  | .conversationRestored row => live row = true ∧ ∃ row₀ ∈ db.conversations, key row₀ = key row
  | .conversationDeleted row => live row = false
  | .modelRestored row => live row = true
  | .removing removal => RemovalOk db request removal ∧ removal.assignmentMark = 0
  | .unassigning removal wanted => RemovalOk db request removal ∧
      AssignmentsCovered db removal wanted
  | .cascading removal wanted => RemovalOk db request removal ∧ AssignmentsCovered db removal [] ∧
      ConversationsCovered db removal wanted
  | .modelFound row => ∀ modelId callerId, request = .deleteModel modelId callerId →
      key row = modelId
  | .assignmentFound row => ∃ row₀ ∈ db.assignments, key row₀ = key row
  | .conversationFound row => ∃ row₀ ∈ db.conversations, key row₀ = key row
  | .begun | .checked => True

/-- Every open transaction is where it says. -/
def Inv (s : State) : Prop :=
  ∀ t txn, s.txns t = some txn → PhaseOk s.toTables txn.request txn.phase

/-! ### What every step leaves -/

/-- A step makes a row live only under its log, and takes no row away. -/
structure Grows (db db' : Tables) : Prop where
  assignments : ∃ new, db'.assignmentLog = db.assignmentLog ++ new ∧
    ∀ row ∈ db'.assignments, live row = true → row ∈ db.assignments ∨ key row ∈ new
  conversations : ∃ new, db'.conversationLog = db.conversationLog ++ new ∧
    ∀ row ∈ db'.conversations, live row = true → row ∈ db.conversations ∨ key row ∈ new
  assignmentKeys : ∀ row ∈ db.assignments, ∃ row' ∈ db'.assignments, key row' = key row
  conversationKeys : ∀ row ∈ db.conversations, ∃ row' ∈ db'.conversations, key row' = key row

section
variable {db db' : Tables} {request : Request} {removal : Removal} {wanted : List UUID}

theorem Grows.refl : Grows db db where
  assignments := ⟨[], (List.append_nil _).symm, fun _ hrow _ => Or.inl hrow⟩
  conversations := ⟨[], (List.append_nil _).symm, fun _ hrow _ => Or.inl hrow⟩
  assignmentKeys row hrow := ⟨row, hrow, rfl⟩
  conversationKeys row hrow := ⟨row, hrow, rfl⟩

theorem Grows.assignmentKey (hg : Grows db db') {id : UUID}
    (h : ∃ row ∈ db.assignments, key row = id) : ∃ row ∈ db'.assignments, key row = id := by
  obtain ⟨row, hrow, rfl⟩ := h
  exact hg.assignmentKeys row hrow

theorem Grows.conversationKey (hg : Grows db db') {id : UUID}
    (h : ∃ row ∈ db.conversations, key row = id) : ∃ row ∈ db'.conversations, key row = id := by
  obtain ⟨row, hrow, rfl⟩ := h
  exact hg.conversationKeys row hrow

/-- What was in the log after a mark is there in a longer log, and so is what was added. -/
theorem mem_drop_append {log new : List UUID} {mark : Nat} (hmark : mark ≤ log.length) {id : UUID}
    (h : id ∈ log.drop mark ∨ id ∈ new) : id ∈ (log ++ new).drop mark := by
  rw [List.drop_append_of_le_length hmark]
  exact List.mem_append.mpr h

theorem RemovalOk.grow (h : RemovalOk db request removal) (hg : Grows db db') :
    RemovalOk db' request removal where
  model := h.model
  conversations := h.conversations
  assignments row hrow := by
    obtain ⟨hdead, hkey, hmodel⟩ := h.assignments row hrow
    exact ⟨hdead, hg.assignmentKey hkey, hmodel⟩

theorem AssignmentsCovered.grow (h : AssignmentsCovered db removal wanted) (hg : Grows db db') :
    AssignmentsCovered db' removal wanted := by
  obtain ⟨new, hlog, hnew⟩ := hg.assignments
  constructor
  · rw [hlog, List.length_append]
    exact Nat.le_add_right_of_le h.mark
  · intro row hrow hlive model hmodel hchild
    rw [hlog]
    rcases hnew row hrow hlive with hold | hmade
    · rcases h.covered row hold hlive model hmodel hchild with hin | hin | hin
      · exact Or.inl hin
      · exact Or.inr (Or.inl hin)
      · exact Or.inr (Or.inr (mem_drop_append h.mark (Or.inl hin)))
    · exact Or.inr (Or.inr (mem_drop_append h.mark (Or.inr hmade)))

theorem ConversationsCovered.grow (h : ConversationsCovered db removal wanted)
    (hg : Grows db db') : ConversationsCovered db' removal wanted := by
  obtain ⟨new, hlog, hnew⟩ := hg.conversations
  constructor
  · rw [hlog, List.length_append]
    exact Nat.le_add_right_of_le h.mark
  · intro row hrow hlive hchild
    rw [hlog]
    rcases hnew row hrow hlive with hold | hmade
    · rcases h.covered row hold hlive hchild with hin | hin | hin
      · exact Or.inl hin
      · exact Or.inr (Or.inl hin)
      · exact Or.inr (Or.inr (mem_drop_append h.mark (Or.inl hin)))
    · exact Or.inr (Or.inr (mem_drop_append h.mark (Or.inr hmade)))

theorem PhaseOk.grow {phase : Phase} (h : PhaseOk db request phase) (hg : Grows db db') :
    PhaseOk db' request phase := by
  cases phase with
  | assignmentFound row => exact hg.assignmentKey h
  | conversationFound row => exact hg.conversationKey h
  | assignmentRestored row => exact ⟨h.1, hg.assignmentKey h.2⟩
  | conversationRestored row => exact ⟨h.1, hg.conversationKey h.2⟩
  | removing removal => exact ⟨h.1.grow hg, h.2⟩
  | unassigning removal wanted => exact ⟨h.1.grow hg, h.2.grow hg⟩
  | cascading removal wanted => exact ⟨h.1.grow hg, h.2.1.grow hg, h.2.2.grow hg⟩
  | _ => exact h

end

/-! ### Steps that do not commit -/

section
variable {s s' : State} {t : TxnId} {txn : Txn}

/-- A step that only moves `t` on, and may take a lock. -/
theorem Inv.goto {phase : Phase} {modelLock assignmentLock conversationLock : Locks UUID TxnId}
    (h : Inv s) (hok : PhaseOk s.toTables txn.request phase) :
    Inv (State.goto { s with modelLock, assignmentLock, conversationLock } t txn phase) :=
  Records.forall_set hok fun t' txn' _ ht' => h t' txn' ht'

/-- A step that ends `t`. -/
theorem Inv.finish {db : Tables} (h : Inv s) (hg : Grows s.toTables db) :
    Inv (State.finish { s with toTables := db } t) :=
  Records.forall_drop fun t' txn' _ ht' => (h t' txn' ht').grow hg

theorem inv_begin {request : Request} (h : Inv s) (hstep : s.begin t request = some s') :
    Inv s' := by
  unfold State.begin at hstep
  split at hstep
  · cases hstep
    exact Records.forall_set trivial fun t' txn' _ ht' => h t' txn' ht'
  · cases hstep

theorem inv_check (h : Inv s) (hstep : s.check t txn = some s') : Inv s' := by
  unfold State.check at hstep
  split at hstep
  · split at hstep <;> cases hstep
    exact h.goto trivial
  · split at hstep <;> cases hstep
    exact h.goto trivial
  · split at hstep <;> cases hstep
    exact h.goto trivial
  · split at hstep <;> cases hstep
    exact h.goto trivial
  · cases hstep

theorem inv_lockModel (h : Inv s) (hstep : s.lockModel t txn = some s') : Inv s' := by
  unfold State.lockModel at hstep
  split at hstep
  · rename_i modelId callerId hphase hrequest
    split at hstep
    · rename_i row hrow
      split at hstep <;> cases hstep
      apply h.goto
      intro modelId' callerId' hsame
      rw [hrequest] at hsame
      cases hsame
      exact (findLive_eq_some.mp hrow).2.1
    · cases hstep
  · rename_i hphase hrequest
    split at hstep
    · split at hstep <;> cases hstep
      apply h.goto
      intro modelId callerId hsame
      rw [hrequest] at hsame
      cases hsame
    · cases hstep
  · cases hstep

theorem inv_lockAssignment (h : Inv s) (hstep : s.lockAssignment t txn = some s') : Inv s' := by
  unfold State.lockAssignment at hstep
  split at hstep
  · split at hstep
    · rename_i row hrow
      split at hstep <;> cases hstep
      have hfound := (Option.filter_eq_some_iff.mp hrow).1
      exact h.goto ⟨row, (findLive_eq_some.mp hfound).1, rfl⟩
    · cases hstep
  · split at hstep
    · rename_i row hrow
      split at hstep <;> cases hstep
      have hfound := (Option.filter_eq_some_iff.mp hrow).1
      exact h.goto ⟨row, (findRestorable_eq_some.mp hfound).1, rfl⟩
    · cases hstep
  · cases hstep

theorem inv_lockConversation (h : Inv s) (hstep : s.lockConversation t txn = some s') :
    Inv s' := by
  unfold State.lockConversation at hstep
  split at hstep
  · split at hstep
    · rename_i row hrow
      split at hstep <;> cases hstep
      have hfound := (Option.filter_eq_some_iff.mp hrow).1
      exact h.goto ⟨row, (findLive_eq_some.mp hfound).1, rfl⟩
    · cases hstep
  · split at hstep
    · rename_i row hrow
      split at hstep <;> cases hstep
      have hfound := (Option.filter_eq_some_iff.mp hrow).1
      exact h.goto ⟨row, (findRestorable_eq_some.mp hfound).1, rfl⟩
    · cases hstep
  · cases hstep

/-- The row of a request is written. A delete starts with the tombstone of its model or of its
assignment. -/
theorem inv_write {now : Time} {id : UUID} (h : Inv s) (ht : s.txns t = some txn)
    (hstep : s.write now id t txn = some s') : Inv s' := by
  have hok := h t txn ht
  unfold State.write at hstep
  split at hstep
  · -- a new assignment
    cases hstep
    exact h.goto rfl
  · -- a new conversation
    cases hstep
    exact h.goto rfl
  · -- a delete of a model, which so far has no children
    rename_i row modelId callerId hphase hrequest
    rw [hphase] at hok
    cases hstep
    apply h.goto
    refine ⟨⟨?_, ?_, ?_⟩, rfl⟩
    · intro model hmodel
      cases hmodel
      refine ⟨live_softDelete _ _ _, callerId, ?_⟩
      rw [hrequest, key_softDelete, hok modelId callerId hrequest]
    · intro row hrow
      cases hrow
    · intro row hrow
      cases hrow
  · -- a restore of a model
    split at hstep <;> cases hstep
    exact h.goto (live_restore _)
  · -- a delete of an assignment
    rename_i row _ _ callerId hphase hrequest
    rw [hphase] at hok
    cases hstep
    apply h.goto
    refine ⟨⟨?_, ?_, ?_⟩, rfl⟩
    · intro model hmodel
      cases hmodel
    · intro row' hrow
      obtain rfl := List.mem_singleton.mp hrow
      refine ⟨live_softDelete _ _ _, ?_, fun model hmodel => by cases hmodel⟩
      rw [key_softDelete]
      exact hok
    · intro row hrow
      cases hrow
  · -- a restore of an assignment
    rename_i row _ _ _ hphase hrequest
    rw [hphase] at hok
    split at hstep <;> cases hstep
    apply h.goto
    show live (restore row) = true ∧ ∃ row₀ ∈ s.assignments, key row₀ = key (restore row)
    rw [key_restore]
    exact ⟨live_restore _, hok⟩
  · -- a delete of a conversation
    cases hstep
    exact h.goto (live_softDelete _ _ _)
  · -- a restore of a conversation
    rename_i row _ _ _ _ _ hphase hrequest
    rw [hphase] at hok
    cases hstep
    apply h.goto
    show live (restore row) = true ∧ ∃ row₀ ∈ s.conversations, key row₀ = key (restore row)
    rw [key_restore]
    exact ⟨live_restore _, hok⟩
  · cases hstep

/-- `unassign_models_for_model` starts: it wants all that there is. -/
theorem inv_startUnassign (h : Inv s) (ht : s.txns t = some txn)
    (hstep : s.startUnassign t txn = some s') : Inv s' := by
  have hok := h t txn ht
  unfold State.startUnassign at hstep
  split at hstep
  · rename_i removal hphase
    rw [hphase] at hok
    obtain ⟨hok, -⟩ := hok
    split at hstep
    · rename_i model hmodel
      cases hstep
      apply h.goto
      refine ⟨⟨hok.model, hok.assignments, hok.conversations⟩, Nat.le_refl _, ?_⟩
      intro row hrow hlive model' hmodel' hchild
      have hsame : model = model' := Option.some.inj (hmodel.symm.trans hmodel')
      left
      apply List.mem_map_of_mem
      rw [List.mem_filter, mem_liveSelect, beq_iff_eq, hsame]
      exact ⟨⟨hrow, hlive⟩, hchild⟩
    · cases hstep
  · cases hstep

/-- What is wanted after a row was taken from it. -/
theorem mem_erase_of_covered {wanted : List UUID} {id id' : UUID} {P : Prop} (hne : id' ≠ id)
    (h : id' ∈ wanted ∨ P) : id' ∈ wanted.erase id ∨ P := by
  rcases h with hin | hP
  · exact Or.inl ((List.mem_erase_of_ne hne).mpr hin)
  · exact Or.inr hP

/-- The next assignment gets its tombstone, or is not live any more. -/
theorem inv_unassignNext {id : UUID} {now : Time} (h : Inv s) (ht : s.txns t = some txn)
    (hstep : s.unassignNext id now t txn = some s') : Inv s' := by
  have hok := h t txn ht
  unfold State.unassignNext at hstep
  split at hstep
  · rename_i removal wanted modelId callerId hphase hrequest
    rw [hphase] at hok
    obtain ⟨hremoval, hcovered⟩ := hok
    have hmodelId : ∀ model, removal.model = some model → modelId = key model := by
      intro model hmodel
      obtain ⟨-, callerId', hsame⟩ := hremoval.model model hmodel
      rw [hrequest] at hsame
      cases hsame
      rfl
    split at hstep
    · split at hstep
      · rename_i row hrow
        obtain ⟨hfound, hmodel⟩ := Option.filter_eq_some_iff.mp hrow
        obtain ⟨hmem, hkey, -⟩ := findLive_eq_some.mp hfound
        cases hstep
        apply h.goto
        refine ⟨⟨hremoval.model, ?_, hremoval.conversations⟩, hcovered.mark, ?_⟩
        · intro row' hrow'
          rcases List.mem_cons.mp hrow' with rfl | hrow'
          · refine ⟨live_softDelete _ _ _, ⟨row, hmem, (key_softDelete _ _ _).symm⟩, ?_⟩
            intro model hsome
            rw [← hmodelId model hsome]
            exact beq_iff_eq.mp hmodel
          · exact hremoval.assignments row' hrow'
        · intro row' hrow' hlive model hsome hchild
          by_cases hid : key row' = id
          · -- the row that was just reached
            right
            left
            rw [List.map_cons, key_softDelete, hkey, hid]
            exact List.mem_cons_self
          · rcases mem_erase_of_covered hid
              (hcovered.covered row' hrow' hlive model hsome hchild) with
              hin | hin | hin
            · exact Or.inl hin
            · exact Or.inr (Or.inl (List.mem_cons_of_mem _ hin))
            · exact Or.inr (Or.inr hin)
      · rename_i hnone
        cases hstep
        apply h.goto
        refine ⟨hremoval, hcovered.mark, ?_⟩
        intro row' hrow' hlive model hsome hchild
        have hid : key row' ≠ id := by
          intro hid
          have hfound : findLive s.assignments id = some row' :=
            findLive_eq_some.mpr ⟨hrow', hid, hlive⟩
          have hsame : (row'.modelId == modelId) = true := by
            rw [hchild, hmodelId model hsome]
            exact beq_self_eq_true _
          rw [hfound, Option.filter_some, if_pos hsame] at hnone
          cases hnone
        exact mem_erase_of_covered hid (hcovered.covered row' hrow' hlive model hsome hchild)
    · cases hstep
  · cases hstep

/-- The assignments that were deleted are targets of the cascade. -/
theorem mem_targets {db : Tables} {request : Request} {removal : Removal}
    (h : RemovalOk db request removal) {id : UUID} (hid : id ∈ removal.assignments.map key) :
    id ∈ targets db removal := by
  unfold targets
  split
  · exact hid
  · rename_i model hmodel
    obtain ⟨row, hrow, hkey⟩ := List.mem_map.mp hid
    obtain ⟨-, ⟨row₀, hrow₀, hkey₀⟩, -⟩ := h.assignments row hrow
    obtain ⟨row', hrow', hkey'⟩ := Table.exists_overwrite removal.assignments hrow₀
    have hsame : key row = key row' := (hkey'.trans hkey₀).symm
    rcases Table.overwrite_cases hrow' with hnew | ⟨-, hne⟩
    · refine List.mem_map.mpr ⟨row', List.mem_filter.mpr ⟨hrow', ?_⟩, hsame.symm.trans hkey⟩
      exact beq_iff_eq.mpr ((h.assignments row' hnew).2.2 model hmodel)
    · exact absurd hsame (hne row hrow)

/-- The cascade starts: it wants all that there is. -/
theorem conversationsCovered_start {db : Tables} {request : Request} {removal : Removal}
    (h : RemovalOk db request removal) :
    ConversationsCovered db { removal with conversationMark := db.conversationLog.length }
      (((liveSelect db.conversations).filter fun row =>
        (targets db removal).contains row.evaluationAiModelId).map key) where
  mark := Nat.le_refl _
  covered row hrow hlive hchild := by
    left
    apply List.mem_map_of_mem
    rw [List.mem_filter, mem_liveSelect, List.contains_iff_mem]
    exact ⟨⟨hrow, hlive⟩, mem_targets h hchild⟩

theorem inv_startCascade (h : Inv s) (ht : s.txns t = some txn)
    (hstep : s.startCascade t txn = some s') : Inv s' := by
  have hok := h t txn ht
  unfold State.startCascade at hstep
  split at hstep
  · rename_i removal _ _ _ hphase hrequest
    rw [hphase] at hok
    obtain ⟨hok, hmark⟩ := hok
    cases hstep
    apply h.goto
    -- an unassign deletes no model
    have hnone : ∀ model, removal.model ≠ some model := by
      intro model hmodel
      obtain ⟨-, callerId', hsame⟩ := hok.model model hmodel
      rw [hrequest] at hsame
      cases hsame
    refine ⟨⟨hok.model, hok.assignments, hok.conversations⟩, ⟨?_, ?_⟩,
      conversationsCovered_start hok⟩
    · show removal.assignmentMark ≤ s.assignmentLog.length
      omega
    · intro row hrow hlive model hmodel
      exact absurd hmodel (hnone model)
  · rename_i removal _ _ hphase hrequest
    rw [hphase] at hok
    obtain ⟨hremoval, hcovered⟩ := hok
    cases hstep
    apply h.goto
    exact ⟨⟨hremoval.model, hremoval.assignments, hremoval.conversations⟩,
      ⟨hcovered.mark, hcovered.covered⟩, conversationsCovered_start hremoval⟩
  · cases hstep

/-- What the cascade still wants of its rows, whoever asked for the delete. -/
theorem inv_cascadeRow {id : UUID} {now : Time} {callerId : UserId} {removal : Removal}
    {wanted : List UUID} (h : Inv s)
    (hok : PhaseOk s.toTables txn.request (.cascading removal wanted))
    (hstep : (if id ∈ wanted ∧ s.conversationLock.mayTake id t then
      match findLive s.conversations id with
      | some row =>
        some ({ s with conversationLock := s.conversationLock.take id t }.goto t txn
          (.cascading
            { removal with conversations := softDelete now callerId row :: removal.conversations }
            (wanted.erase id)))
      | none => some (s.goto t txn (.cascading removal (wanted.erase id)))
    else none) = some s') : Inv s' := by
  obtain ⟨hremoval, hassignments, hcovered⟩ := hok
  split at hstep
  · split at hstep
    · rename_i row hrow
      obtain ⟨-, hkey, -⟩ := findLive_eq_some.mp hrow
      cases hstep
      apply h.goto
      refine ⟨⟨hremoval.model, hremoval.assignments, ?_⟩,
        ⟨hassignments.mark, hassignments.covered⟩, hcovered.mark, ?_⟩
      · intro row' hrow'
        rcases List.mem_cons.mp hrow' with rfl | hrow'
        · exact live_softDelete _ _ _
        · exact hremoval.conversations row' hrow'
      · intro row' hrow' hlive hchild
        by_cases hid : key row' = id
        · -- the row that was just reached
          right
          left
          rw [List.map_cons, key_softDelete, hkey, hid]
          exact List.mem_cons_self
        · rcases mem_erase_of_covered hid (hcovered.covered row' hrow' hlive hchild) with
            hin | hin | hin
          · exact Or.inl hin
          · exact Or.inr (Or.inl (List.mem_cons_of_mem _ hin))
          · exact Or.inr (Or.inr hin)
    · rename_i hnone
      cases hstep
      apply h.goto
      refine ⟨hremoval, hassignments, hcovered.mark, ?_⟩
      intro row' hrow' hlive hchild
      have hid : key row' ≠ id := by
        intro hid
        rw [findLive_eq_some.mpr ⟨hrow', hid, hlive⟩] at hnone
        cases hnone
      exact mem_erase_of_covered hid (hcovered.covered row' hrow' hlive hchild)
  · cases hstep

theorem inv_cascadeNext {id : UUID} {now : Time} (h : Inv s) (ht : s.txns t = some txn)
    (hstep : s.cascadeNext id now t txn = some s') : Inv s' := by
  have hok := h t txn ht
  unfold State.cascadeNext at hstep
  split at hstep
  · rename_i hphase hrequest
    rw [hphase] at hok
    exact inv_cascadeRow h hok hstep
  · rename_i hphase hrequest
    rw [hphase] at hok
    exact inv_cascadeRow h hok hstep
  · cases hstep

end

/-! ### Commits -/

section
variable {db : Tables}

/-- An assignment that is made live keeps the chain when its model is live. -/
theorem chain_assignment_iff {row : EvaluationAiModel} {rows : Table EvaluationAiModel}
    {log : List UUID} (hchain : Chain db) (hputs : Puts db.assignments rows row)
    (hlive : live row = true) :
    Chain { db with assignments := rows, assignmentLog := log } ↔
      (findLive db.models row.modelId).isSome := by
  constructor
  · intro h
    exact h.assignment row hputs.mem hlive
  · intro hmodel
    constructor
    · intro r hr hrlive
      rcases hputs.cases r hr with rfl | hold
      · exact hmodel
      · exact hchain.assignment r hold hrlive
    · intro r hr hrlive
      exact hputs.isSome hlive (hchain.conversation r hr hrlive)

/-- A conversation that is made live keeps the chain when its assignment is live. -/
theorem chain_conversation_iff {row : Conversation} {rows : Table Conversation}
    {log : List UUID} (hchain : Chain db) (hputs : Puts db.conversations rows row)
    (hlive : live row = true) :
    Chain { db with conversations := rows, conversationLog := log } ↔
      (findLive db.assignments row.evaluationAiModelId).isSome := by
  constructor
  · intro h
    exact h.conversation row hputs.mem hlive
  · intro hassignment
    constructor
    · exact hchain.assignment
    · intro r hr hrlive
      rcases hputs.cases r hr with rfl | hold
      · exact hassignment
      · exact hchain.conversation r hold hrlive

/-- The tables after the commit of a delete. -/
def removed (db : Tables) (removal : Removal) : Tables :=
  { db with
      models := db.models.overwrite removal.model.toList
      assignments := db.assignments.overwrite removal.assignments
      conversations := db.conversations.overwrite removal.conversations }

/-- A delete keeps the chain when it misses no child. -/
theorem chain_removed_iff {request : Request} {removal : Removal} (hchain : Chain db)
    (hremoval : RemovalOk db request removal) (hassignments : AssignmentsCovered db removal [])
    (hconversations : ConversationsCovered db removal []) :
    Chain (removed db removal) ↔ ¬ Missed db removal := by
  have hmodelDead : ∀ n ∈ removal.model.toList, live n = false := by
    intro n hn
    exact (hremoval.model n (Option.mem_toList.mp hn)).1
  have hassignmentDead : ∀ n ∈ removal.assignments, live n = false :=
    fun n hn => (hremoval.assignments n hn).1
  constructor
  · intro h hmissed
    cases hmissed with
    | assignment row model hrow hlive hmodel hchild hlate hleft =>
      -- the child is not written by the delete, so it stays live and asks for the parent that is
      -- gone
      have hstays : row ∈ db.assignments.overwrite removal.assignments :=
        Table.mem_overwrite_of_ne hrow fun n hn hkey => hleft (hkey ▸ List.mem_map_of_mem hn)
      obtain ⟨r, hr, hkey, hrlive⟩ := isSome_findLive.mp (h.assignment row hstays hlive)
      obtain ⟨-, hne⟩ := live_of_overwrite hmodelDead hr hrlive
      exact hne model (Option.mem_toList.mpr hmodel) (hchild.symm.trans hkey.symm)
    | conversation row hrow hlive hchild hlate hleft =>
      have hstays : row ∈ db.conversations.overwrite removal.conversations :=
        Table.mem_overwrite_of_ne hrow fun n hn hkey => hleft (hkey ▸ List.mem_map_of_mem hn)
      obtain ⟨r, hr, hkey, hrlive⟩ := isSome_findLive.mp (h.conversation row hstays hlive)
      obtain ⟨-, hne⟩ := live_of_overwrite hassignmentDead hr hrlive
      obtain ⟨n, hn, hnkey⟩ := List.mem_map.mp hchild
      exact hne n hn (hnkey.trans hkey.symm)
  · intro hmissed
    constructor
    · intro row hrow hlive
      obtain ⟨hold, hleft⟩ := live_of_overwrite hassignmentDead hrow hlive
      obtain ⟨r, hr, hkey, hrlive⟩ := isSome_findLive.mp (hchain.assignment row hold hlive)
      refine isSome_findLive.mpr ⟨r, Table.mem_overwrite_of_ne hr ?_, hkey, hrlive⟩
      intro model hmodel hsame
      have hmodel : removal.model = some model := Option.mem_toList.mp hmodel
      have hchild : row.modelId = key model := (hsame.trans hkey).symm
      have hnot : key row ∉ removal.assignments.map key := by
        intro hin
        obtain ⟨n, hn, hnkey⟩ := List.mem_map.mp hin
        exact hleft n hn hnkey
      -- the delete wanted the child, wrote it, or the child came after the select
      rcases hassignments.covered row hold hlive model hmodel hchild with hin | hin | hin
      · cases hin
      · exact hnot hin
      · exact hmissed (.assignment row model hold hlive hmodel hchild hin hnot)
    · intro row hrow hlive
      obtain ⟨hold, hleft⟩ := live_of_overwrite hremoval.conversations hrow hlive
      obtain ⟨r, hr, hkey, hrlive⟩ := isSome_findLive.mp (hchain.conversation row hold hlive)
      refine isSome_findLive.mpr ⟨r, Table.mem_overwrite_of_ne hr ?_, hkey, hrlive⟩
      intro n hn hsame
      have hchild : row.evaluationAiModelId ∈ removal.assignments.map key := by
        rw [← hkey, ← hsame]
        exact List.mem_map_of_mem hn
      have hnot : key row ∉ removal.conversations.map key := by
        intro hin
        obtain ⟨m, hm, hmkey⟩ := List.mem_map.mp hin
        exact hleft m hm hmkey
      rcases hconversations.covered row hold hlive hchild with hin | hin | hin
      · cases hin
      · exact hnot hin
      · exact hmissed (.conversation row hold hlive hchild hin hnot)

/-! ### What the commits leave -/

theorem grows_assignment {row : EvaluationAiModel} {rows : Table EvaluationAiModel}
    (hputs : Puts db.assignments rows row) :
    Grows db { db with assignments := rows, assignmentLog := db.assignmentLog ++ [key row] } where
  assignments := by
    refine ⟨[key row], rfl, fun r hr _ => ?_⟩
    rcases hputs.cases r hr with rfl | hold
    · exact Or.inr List.mem_cons_self
    · exact Or.inl hold
  conversations := Grows.refl.conversations
  assignmentKeys := hputs.keys
  conversationKeys := Grows.refl.conversationKeys

theorem grows_conversation {row : Conversation} {rows : Table Conversation}
    (hputs : Puts db.conversations rows row) :
    Grows db
      { db with conversations := rows, conversationLog := db.conversationLog ++ [key row] } where
  assignments := Grows.refl.assignments
  conversations := by
    refine ⟨[key row], rfl, fun r hr _ => ?_⟩
    rcases hputs.cases r hr with rfl | hold
    · exact Or.inr List.mem_cons_self
    · exact Or.inl hold
  assignmentKeys := Grows.refl.assignmentKeys
  conversationKeys := hputs.keys

/-- Tombstones make nothing live. -/
theorem grows_dead {models : Table AiModel} {assignments : List EvaluationAiModel}
    {conversations : List Conversation} (hassignments : ∀ n ∈ assignments, live n = false)
    (hconversations : ∀ n ∈ conversations, live n = false) :
    Grows db
      { db with
          models
          assignments := db.assignments.overwrite assignments
          conversations := db.conversations.overwrite conversations } where
  assignments := by
    refine ⟨[], (List.append_nil _).symm, fun row hrow hlive => Or.inl ?_⟩
    exact (live_of_overwrite hassignments hrow hlive).1
  conversations := by
    refine ⟨[], (List.append_nil _).symm, fun row hrow hlive => Or.inl ?_⟩
    exact (live_of_overwrite hconversations hrow hlive).1
  assignmentKeys row hrow := Table.exists_overwrite _ hrow
  conversationKeys row hrow := Table.exists_overwrite _ hrow

end

section
variable {s s' : State} {t : TxnId} {txn : Txn}

/-- What each commit does to the tables, and to the chain. -/
theorem commit_spec (h : Inv s) (hchain : Chain s.toTables) (ht : s.txns t = some txn)
    (hstep : s.commit t txn = some s') :
    ∃ db, s' = State.finish { s with toTables := db } t ∧ Grows s.toTables db ∧
      (Chain db ↔ PhaseInTime s.toTables txn.phase) := by
  have hok := h t txn ht
  unfold State.commit at hstep
  split at hstep
  · rename_i row hphase
    rw [hphase] at hok
    rw [hphase]
    split at hstep
    · cases hstep
    · obtain ⟨rows, hinsert, rfl⟩ := Option.map_eq_some_iff.mp hstep
      have hputs := puts_insert hinsert
      exact ⟨_, rfl, grows_assignment hputs, chain_assignment_iff hchain hputs hok⟩
  · rename_i row hphase
    rw [hphase] at hok
    rw [hphase]
    split at hstep <;> cases hstep
    have hputs := puts_overwrite hok.2
    exact ⟨_, rfl, grows_assignment hputs, chain_assignment_iff hchain hputs hok.1⟩
  · rename_i row hphase
    rw [hphase] at hok
    rw [hphase]
    obtain ⟨rows, hinsert, rfl⟩ := Option.map_eq_some_iff.mp hstep
    have hputs := puts_insert hinsert
    exact ⟨_, rfl, grows_conversation hputs, chain_conversation_iff hchain hputs hok⟩
  · rename_i row hphase
    rw [hphase] at hok
    rw [hphase]
    cases hstep
    have hputs := puts_overwrite hok.2
    exact ⟨_, rfl, grows_conversation hputs, chain_conversation_iff hchain hputs hok.1⟩
  · rename_i row hphase
    rw [hphase] at hok
    rw [hphase]
    cases hstep
    have hdead : ∀ n ∈ [row], live n = false := by
      intro n hn
      rw [List.mem_singleton.mp hn]
      exact hok
    refine ⟨_, rfl, ⟨Grows.refl.assignments, ⟨[], (List.append_nil _).symm, ?_⟩,
      Grows.refl.assignmentKeys, fun _ hrow => Table.exists_overwrite _ hrow⟩, ?_⟩
    · intro r hr hlive
      exact Or.inl (live_of_overwrite hdead hr hlive).1
    · refine iff_of_true ⟨hchain.assignment, ?_⟩ trivial
      intro r hr hlive
      exact hchain.conversation r (live_of_overwrite hdead hr hlive).1 hlive
  · rename_i row hphase
    rw [hphase] at hok
    rw [hphase]
    split at hstep <;> cases hstep
    refine ⟨_, rfl, ⟨Grows.refl.assignments, Grows.refl.conversations,
      Grows.refl.assignmentKeys, Grows.refl.conversationKeys⟩, ?_⟩
    refine iff_of_true ⟨?_, hchain.conversation⟩ trivial
    intro r hr hlive
    -- the model was found before, so its new version is found
    obtain ⟨m, hm, hkey, hmlive⟩ := isSome_findLive.mp (hchain.assignment r hr hlive)
    by_cases hsame : key row = key m
    · have hkeys : ∃ r ∈ s.models, key r = key row := ⟨m, hm, hsame.symm⟩
      have hputs := puts_overwrite hkeys
      exact isSome_findLive.mpr ⟨row, hputs.mem, hsame.trans hkey, hok⟩
    · refine isSome_findLive.mpr ⟨m, Table.mem_overwrite_of_ne hm ?_, hkey, hmlive⟩
      intro n hn
      rw [List.mem_singleton.mp hn]
      exact hsame
  · rename_i removal hphase
    rw [hphase] at hok
    rw [hphase]
    obtain ⟨hremoval, hassignments, hconversations⟩ := hok
    cases hstep
    refine ⟨removed s.toTables removal, rfl, ?_,
      chain_removed_iff hchain hremoval hassignments hconversations⟩
    exact grows_dead (fun n hn => (hremoval.assignments n hn).1) hremoval.conversations
  · cases hstep

theorem inv_commit (h : Inv s) (hchain : Chain s.toTables) (ht : s.txns t = some txn)
    (hstep : s.commit t txn = some s') : Inv s' := by
  obtain ⟨db, rfl, hg, -⟩ := commit_spec h hchain ht hstep
  exact h.finish hg

/-- What a step from a chain keeps. -/
theorem Inv.of_step {l : Label} (h : Inv s) (hchain : Chain s.toTables)
    (hstep : step s l = some s') : Inv s' := by
  cases l with
  | begin t request => exact inv_begin h hstep
  | check t =>
    obtain ⟨txn, -, hstep⟩ := Option.bind_eq_some_iff.mp hstep
    exact inv_check h hstep
  | lockModel t =>
    obtain ⟨txn, -, hstep⟩ := Option.bind_eq_some_iff.mp hstep
    exact inv_lockModel h hstep
  | lockAssignment t =>
    obtain ⟨txn, -, hstep⟩ := Option.bind_eq_some_iff.mp hstep
    exact inv_lockAssignment h hstep
  | lockConversation t =>
    obtain ⟨txn, -, hstep⟩ := Option.bind_eq_some_iff.mp hstep
    exact inv_lockConversation h hstep
  | write t now id =>
    obtain ⟨txn, ht, hstep⟩ := Option.bind_eq_some_iff.mp hstep
    exact inv_write h ht hstep
  | startUnassign t =>
    obtain ⟨txn, ht, hstep⟩ := Option.bind_eq_some_iff.mp hstep
    exact inv_startUnassign h ht hstep
  | unassignNext t id now =>
    obtain ⟨txn, ht, hstep⟩ := Option.bind_eq_some_iff.mp hstep
    exact inv_unassignNext h ht hstep
  | startCascade t =>
    obtain ⟨txn, ht, hstep⟩ := Option.bind_eq_some_iff.mp hstep
    exact inv_startCascade h ht hstep
  | cascadeNext t id now =>
    obtain ⟨txn, ht, hstep⟩ := Option.bind_eq_some_iff.mp hstep
    exact inv_cascadeNext h ht hstep
  | commit t =>
    obtain ⟨txn, ht, hstep⟩ := Option.bind_eq_some_iff.mp hstep
    exact inv_commit h hchain ht hstep
  | abort t =>
    obtain ⟨txn, -, rfl⟩ := Option.map_eq_some_iff.mp hstep
    exact h.finish .refl

/-! ### The chain along a run -/

/-- Only a commit writes a table, and a step writes only the record of its transaction. -/
theorem frame_of_step {l : Label} (hstep : step s l = some s') :
    ((∀ t, l ≠ .commit t) → s'.toTables = s.toTables) ∧
      ∀ t', t' ≠ l.txn → s'.txns t' = s.txns t' := by
  cases l with
  | begin t request =>
    simp only [step, State.begin] at hstep
    split at hstep
    · cases hstep
      exact ⟨fun _ => rfl, fun _ hne => Records.set_of_ne hne⟩
    · cases hstep
  | check t =>
    obtain ⟨txn, -, hstep⟩ := Option.bind_eq_some_iff.mp hstep
    unfold State.check at hstep
    (repeat' split at hstep) <;> cases hstep <;> exact ⟨fun _ => rfl, fun _ hne =>
      Records.set_of_ne hne⟩
  | lockModel t =>
    obtain ⟨txn, -, hstep⟩ := Option.bind_eq_some_iff.mp hstep
    unfold State.lockModel at hstep
    (repeat' split at hstep) <;> cases hstep <;> exact ⟨fun _ => rfl, fun _ hne =>
      Records.set_of_ne hne⟩
  | lockAssignment t =>
    obtain ⟨txn, -, hstep⟩ := Option.bind_eq_some_iff.mp hstep
    unfold State.lockAssignment at hstep
    (repeat' split at hstep) <;> cases hstep <;> exact ⟨fun _ => rfl, fun _ hne =>
      Records.set_of_ne hne⟩
  | lockConversation t =>
    obtain ⟨txn, -, hstep⟩ := Option.bind_eq_some_iff.mp hstep
    unfold State.lockConversation at hstep
    (repeat' split at hstep) <;> cases hstep <;> exact ⟨fun _ => rfl, fun _ hne =>
      Records.set_of_ne hne⟩
  | write t now id =>
    obtain ⟨txn, -, hstep⟩ := Option.bind_eq_some_iff.mp hstep
    unfold State.write at hstep
    (repeat' split at hstep) <;> cases hstep <;> exact ⟨fun _ => rfl, fun _ hne =>
      Records.set_of_ne hne⟩
  | startUnassign t =>
    obtain ⟨txn, -, hstep⟩ := Option.bind_eq_some_iff.mp hstep
    unfold State.startUnassign at hstep
    split at hstep
    · split at hstep <;> cases hstep
      exact ⟨fun _ => rfl, fun _ hne => Records.set_of_ne hne⟩
    · cases hstep
  | unassignNext t id now =>
    obtain ⟨txn, -, hstep⟩ := Option.bind_eq_some_iff.mp hstep
    unfold State.unassignNext at hstep
    (repeat' split at hstep) <;> cases hstep <;> exact ⟨fun _ => rfl, fun _ hne =>
      Records.set_of_ne hne⟩
  | startCascade t =>
    obtain ⟨txn, -, hstep⟩ := Option.bind_eq_some_iff.mp hstep
    unfold State.startCascade at hstep
    (repeat' split at hstep) <;> cases hstep <;> exact ⟨fun _ => rfl, fun _ hne =>
      Records.set_of_ne hne⟩
  | cascadeNext t id now =>
    obtain ⟨txn, -, hstep⟩ := Option.bind_eq_some_iff.mp hstep
    unfold State.cascadeNext at hstep
    (repeat' split at hstep) <;> cases hstep <;> exact ⟨fun _ => rfl, fun _ hne =>
      Records.set_of_ne hne⟩
  | commit t =>
    obtain ⟨txn, -, hstep⟩ := Option.bind_eq_some_iff.mp hstep
    refine ⟨fun hcommit => absurd rfl (hcommit t), fun t' hne => ?_⟩
    have hdrop : s'.txns = s.txns.drop t := by
      unfold State.commit at hstep
      (repeat' split at hstep) <;>
        first
          | (obtain ⟨rows, -, rfl⟩ := Option.map_eq_some_iff.mp hstep; rfl)
          | (cases hstep; rfl)
          | cases hstep
    rw [hdrop]
    exact Records.drop_of_ne hne
  | abort t =>
    obtain ⟨txn, -, rfl⟩ := Option.map_eq_some_iff.mp hstep
    exact ⟨fun _ => rfl, fun _ hne => Records.drop_of_ne hne⟩

/-- A step from a chain leads to a chain exactly when its commit is in time. -/
theorem chain_step_iff {l : Label} (h : Inv s) (hchain : Chain s.toTables)
    (hstep : step s l = some s') : Chain s'.toTables ↔ InTime s l := by
  by_cases hcommit : ∀ t, l ≠ .commit t
  · rw [(frame_of_step hstep).1 hcommit]
    refine iff_of_true hchain ?_
    cases l with
    | commit t => exact absurd rfl (hcommit t)
    | _ => trivial
  · obtain ⟨t, hl⟩ := not_forall.mp hcommit
    have hl : l = .commit t := not_not.mp hl
    subst hl
    obtain ⟨txn, ht, hstep⟩ := Option.bind_eq_some_iff.mp hstep
    obtain ⟨db, rfl, -, hiff⟩ := commit_spec h hchain ht hstep
    refine Iff.trans hiff ⟨?_, fun htime => htime txn ht⟩
    intro hphase txn' ht'
    rw [ht] at ht'
    cases ht'
    exact hphase

/-- A run from a chain keeps it exactly when all its commits are in time. -/
theorem chain_iff_in_time {ls : List Label} (hstart : Start s) (hrun : run step s ls = some s') :
    Always step (fun s => Chain s.toTables) s ls ↔ Along step InTime s ls := by
  have hinv : Inv s := by
    intro t txn ht
    rw [hstart.txns t] at ht
    cases ht
  exact always_iff_along (I := Inv) (fun _ _ _ h hchain hstep => h.of_step hchain hstep)
    (fun _ _ _ h hchain hstep => chain_step_iff h hchain hstep) hinv hstart.chain hrun

end

/-! ### Runs -/

/-- The model 20, and its assignment 30 to the evaluation 10. -/
def oneAssignment : State where
  models := ⟨[{ id := 20, createdAt := 0, name := "Sonnet", modelAlias := "sonnet" }], by decide⟩
  assignments := ⟨[{ id := 30, createdAt := 0, modelId := 20, evaluationId := 10 }], by decide⟩
  conversations := .empty

theorem start_oneAssignment : Start oneAssignment where
  txns _ := rfl
  chain := by
    constructor
    · decide
    · intro row hrow
      exact absurd hrow Table.not_mem_empty

/-- A conversation with the assignment. -/
def withSonnet : ConversationCreate where
  userId := 1
  evaluationId := 10
  evaluationAiModelId := 30
  scenarioId := 40
  conversationGroupId := 50

/-- A create inserts its conversation while an unassign is open, and before its cascade starts.
The cascade reaches the conversation. -/
def reached : List Label :=
  [.begin 1 (.createConversation withSonnet), .check 1,
    .begin 2 (.unassignModel 10 30 1), .lockAssignment 2, .write 2 5 0,
    .write 1 6 60, .commit 1, .startCascade 2, .cascadeNext 2 60 7, .commit 2]

/-- The create and the unassign are both in time, so the chain holds along the run. At its end the
conversation is a tombstone. -/
theorem chain_iff_in_time_reached :
    ∃ s', run step oneAssignment reached = some s' ∧
      s'.conversations.rows.map live = [false] ∧
      Along step InTime oneAssignment reached ∧
      Always step (fun s => Chain s.toTables) oneAssignment reached := by
  have hany : (run step oneAssignment reached).any
      (fun s => s.conversations.rows.map live == [false]) = true := by
    decide +kernel
  have htime : Along step InTime oneAssignment reached := by decide +kernel
  obtain ⟨s', hrun, hdead⟩ := exists_run_of_any hany
  exact ⟨s', hrun, eq_of_beq hdead, htime,
    (chain_iff_in_time start_oneAssignment hrun).mpr htime⟩

/-- A create checks the assignment. Before it inserts the conversation, an unassign takes the
assignment away, and finds no conversation. -/
def orphaned : List Label :=
  [.begin 1 (.createConversation withSonnet), .check 1,
    .begin 2 (.unassignModel 10 30 1), .lockAssignment 2, .write 2 5 0,
    .startCascade 2, .commit 2, .write 1 6 60, .commit 1]

/-- All transactions ended, and a live conversation has no live assignment. -/
theorem conversation_orphaned :
    ¬ ∀ (s s' : State) (ls : List Label), Start s → run step s ls = some s' →
      (∀ t, s'.txns t = none) → Chain s'.toTables := by
  intro hall
  have hany : (run step oneAssignment orphaned).any (fun s =>
      (s.txns 1).isNone && (s.txns 2).isNone && s.conversations.rows.any fun row =>
        live row && (findLive s.assignments row.evaluationAiModelId).isNone) = true := by
    decide +kernel
  obtain ⟨s', hrun, hbad⟩ := exists_run_of_any hany
  simp only [Bool.and_eq_true, Option.isNone_iff_eq_none, List.any_eq_true] at hbad
  obtain ⟨⟨h₁, h₂⟩, row, hrow, hlive, hnone⟩ := hbad
  have hended : ∀ t, s'.txns t = none := by
    intro t
    by_cases h : t = 1 ∨ t = 2
    · rcases h with rfl | rfl
      · exact h₁
      · exact h₂
    · obtain ⟨hne₁, hne₂⟩ := not_or.mp h
      have hframe : ∀ s l s' t', step s l = some s' → t' ≠ Label.txn l →
          State.txns s' t' = State.txns s t' :=
        fun _ _ _ t' hstep hne => (frame_of_step hstep).2 t' hne
      have hother : ∀ l ∈ orphaned, t ≠ Label.txn l := by
        simp [orphaned, Label.txn, hne₁, hne₂]
      rw [Records.eq_of_run hframe hother hrun]
      exact start_oneAssignment.txns t
  have hfound := (hall oneAssignment s' orphaned start_oneAssignment hrun hended).conversation row
    hrow hlive
  rw [hnone] at hfound
  cases hfound

end RedTeaming.Conversations.Liveness
