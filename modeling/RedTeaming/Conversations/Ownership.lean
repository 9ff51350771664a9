import RedTeaming.Conversations.GroupMembers

/-!
# `RedTeaming.Conversations.Ownership`: a conversation keeps its owner and its evaluation

The rows that hang on a conversation copy its owner and its evaluation when they are made, and
read the copies from then on. No step of `RedTeaming.Conversations.Groups` makes them stale,
whatever runs interleaved: a conversation may move, be deleted, and come back, but
`keepsOwners_of_step` says that it stays, with its owner and its evaluation.

A transaction writes the rows that it has read earlier. `Versions` is the invariant: these rows
are versions of committed ones.
-/

set_option autoImplicit false

namespace RedTeaming.Conversations.Groups

open RedTeaming.Library

/-- The rows have a conversation with the id, the owner, and the evaluation of this one. -/
def IsVersion (rows : Table Conversation) (row : Conversation) : Prop :=
  ∃ committed : Conversation, committed ∈ rows ∧ key committed = key row ∧
    committed.userId = row.userId ∧ committed.evaluationId = row.evaluationId

/-- The conversations of `rows` are in `rows'`, with their owners and evaluations. -/
def KeepsOwners (rows rows' : Table Conversation) : Prop := ∀ row ∈ rows, IsVersion rows' row

/-- The rows that a transaction may still write over committed ones. -/
def Phase.carried : Phase → List Conversation
  | .found row | .targetLocked row _ | .tombstoneFound row | .roomLocked row _ | .revived row _
  | .restored row _ => [row]
  | .removed _ new | .spared _ new | .pruning _ new | .pruned _ new _ => [new]
  | .cascading _ _ got | .groupDeleted _ got => got
  | .begun | .groupLocked _ | .created _ | .groupFound _ => []

/-- The rows are versions of committed ones. -/
def AllVersions (rows : Table Conversation) (new : List Conversation) : Prop := ∀ row ∈ new,
    IsVersion rows row

/-- Each open transaction writes versions of committed rows. -/
def Versions (s : State) : Prop :=
  ∀ t txn, s.txns t = some txn → AllVersions s.conversations txn.phase.carried

section
variable {s s' : State} {t : TxnId} {txn : Txn} {rows rows' : Table Conversation}
  {row : Conversation} {new : List Conversation}

/-! ### Versions -/

/-- A committed row is a version of itself. -/
theorem isVersion_of_mem (h : row ∈ rows) : IsVersion rows row := ⟨row, h, rfl, rfl, rfl⟩

/-- A row with the same id, owner, and evaluation is a version too. -/
theorem IsVersion.of_eq {row' : Conversation} (h : IsVersion rows row) (hkey : key row' = key row)
    (howner : row'.userId = row.userId) (hevaluation : row'.evaluationId = row.evaluationId) :
    IsVersion rows row' := by
  obtain ⟨committed, hmem, hkey', howner', hevaluation'⟩ := h
  exact ⟨committed, hmem, hkey'.trans hkey.symm, howner'.trans howner.symm,
    hevaluation'.trans hevaluation.symm⟩

theorem KeepsOwners.refl (rows : Table Conversation) :
    KeepsOwners rows rows := fun _ => isVersion_of_mem

theorem IsVersion.keep (h : IsVersion rows row) (hkeeps : KeepsOwners rows rows') :
    IsVersion rows' row := by
  obtain ⟨committed, hmem, hkey, howner, hevaluation⟩ := h
  obtain ⟨now, hnow, hkey', howner', hevaluation'⟩ := hkeeps committed hmem
  exact ⟨now, hnow, hkey'.trans hkey, howner'.trans howner, hevaluation'.trans hevaluation⟩

theorem allVersions_nil : AllVersions rows [] := fun _ h => absurd h List.not_mem_nil

theorem allVersions_singleton : AllVersions rows [row] ↔ IsVersion rows row :=
  List.forall_mem_singleton

/-- An insert keeps the conversations. -/
theorem keepsOwners_insertAll (h : rows.insertAll new = some rows') : KeepsOwners rows rows' :=
  fun _ hrow => isVersion_of_mem ((Table.mem_insertAll h).mpr (.inl hrow))

/-- New versions keep the owners. -/
theorem keepsOwners_overwrite (h : AllVersions rows new) :
    KeepsOwners rows (rows.overwrite new) := by
  intro row hrow
  obtain ⟨now, hnow, hkey⟩ := Table.exists_overwrite new hrow
  refine ⟨now, hnow, hkey, ?_⟩
  -- The row was overwritten by a version of itself, or stayed.
  rcases Table.overwrite_cases hnow with hnew | ⟨hold, -⟩
  · obtain ⟨committed, hmem, hkey', howner, hevaluation⟩ := h now hnew
    rw [Table.eq_of_key_eq hmem hrow (hkey'.trans hkey)] at howner hevaluation
    exact ⟨howner.symm, hevaluation.symm⟩
  · rw [Table.eq_of_key_eq hold hrow hkey]
    exact ⟨rfl, rfl⟩

/-! ### Statements -/

/-- A statement that moves a transaction on leaves it with versions. -/
theorem Versions.goto {phase : Phase} {groupLock conversationLock : Locks UUID TxnId}
    (h : Versions s) (hphase : AllVersions s.conversations phase.carried) :
    Versions (State.goto { s with groupLock, conversationLock } t txn phase) := by
  have hself : AllVersions s.conversations { txn with phase }.phase.carried := hphase
  exact Records.forall_set hself fun t' txn' _ ht' => h t' txn' ht'

theorem versions_begin {request : Request} (h : Versions s)
    (hstep : s.begin t request = some s') :
    Versions s' := by
  unfold State.begin at hstep
  split at hstep
  · cases hstep
    exact Records.forall_set allVersions_nil fun t' txn' _ ht' => h t' txn' ht'
  · cases hstep

/-- What is locked is committed. -/
theorem versions_lockConversation (h : Versions s) (hstep : s.lockConversation t txn = some s') :
    Versions s' := by
  -- A locked row is read from the committed ones.
  have hlive : ∀ row evaluationId conversationId callerId canManage,
      getConversation s.conversations evaluationId conversationId callerId canManage = some row →
      IsVersion s.conversations row := fun row _ _ _ _ hrow =>
    isVersion_of_mem (findLive_eq_some.mp (Option.filter_eq_some_iff.mp hrow).1).1
  unfold State.lockConversation at hstep
  split at hstep
  · split at hstep
    · rename_i row hrow
      split at hstep
      · cases hstep
        exact h.goto (allVersions_singleton.mpr (hlive row _ _ _ _ hrow))
      · cases hstep
    · cases hstep
  · split at hstep
    · rename_i row hrow
      split at hstep
      · cases hstep
        exact h.goto (allVersions_singleton.mpr (hlive row _ _ _ _ hrow))
      · cases hstep
    · cases hstep
  · split at hstep
    · rename_i row hrow
      have hmem := (findRestorable_eq_some.mp (Option.filter_eq_some_iff.mp hrow).1).1
      split at hstep
      · cases hstep
        exact h.goto (allVersions_singleton.mpr (isVersion_of_mem hmem))
      · cases hstep
    · cases hstep
  · cases hstep

/-- The lock of a group leaves the conversation as it was read. -/
theorem versions_lockGroup (h : Versions s) (ht : s.txns t = some txn)
    (hstep : s.lockGroup t txn = some s') : Versions s' := by
  have hcarried := h t txn ht
  unfold State.lockGroup at hstep
  split at hstep
  · split at hstep
    · split at hstep
      · cases hstep
        exact h.goto allVersions_nil
      · cases hstep
    · cases hstep
  · rename_i hphase _
    rw [hphase] at hcarried
    split at hstep
    · cases hstep
    · split at hstep
      · split at hstep
        · cases hstep
          exact h.goto hcarried
        · cases hstep
      · cases hstep
  · rename_i hphase _
    rw [hphase] at hcarried
    split at hstep
    · split at hstep
      · cases hstep
        exact h.goto hcarried
      · cases hstep
    · cases hstep
  · split at hstep
    · split at hstep
      · cases hstep
        exact h.goto allVersions_nil
      · cases hstep
    · cases hstep
  · cases hstep

/-- A move, a delete, and a restore leave the owner and the evaluation. -/
theorem versions_write {settings : Settings} {now : Time} {id : UUID} (h : Versions s)
    (ht : s.txns t = some txn) (hstep : State.write settings s now id t txn = some s') :
    Versions s' := by
  have hcarried := h t txn ht
  unfold State.write at hstep
  split at hstep
  · split at hstep
    · cases hstep
      exact h.goto allVersions_nil
    · cases hstep
  · rename_i hphase _
    rw [hphase] at hcarried
    -- A move changes the group only.
    have hmoved := (allVersions_singleton.mp hcarried).of_eq rfl rfl rfl
    split at hstep
    · cases hstep
      exact h.goto (allVersions_singleton.mpr hmoved)
    · cases hstep
  · rename_i hphase _
    rw [hphase] at hcarried
    -- A delete changes the tombstone only, and so does a restore.
    have hdeleted := (allVersions_singleton.mp hcarried).of_eq rfl rfl rfl
    cases hstep
    exact h.goto (allVersions_singleton.mpr hdeleted)
  · rename_i hphase _
    rw [hphase] at hcarried
    have hrestored := (allVersions_singleton.mp hcarried).of_eq rfl rfl rfl
    split at hstep
    · cases hstep
      exact h.goto (allVersions_singleton.mpr hrestored)
    · cases hstep
  · cases hstep

/-- The look for an empty group leaves the conversation as it was written. -/
theorem versions_decide (h : Versions s) (ht : s.txns t = some txn)
    (hstep : s.decide t txn = some s') :
    Versions s' := by
  have hcarried := h t txn ht
  unfold State.decide at hstep
  split at hstep
  · rename_i hphase
    rw [hphase] at hcarried
    split at hstep
    · cases hstep
      exact h.goto hcarried
    · cases hstep
      exact h.goto hcarried
  · cases hstep

theorem versions_prune {now : Time} (h : Versions s) (ht : s.txns t = some txn)
    (hstep : s.prune now t txn = some s') : Versions s' := by
  have hcarried := h t txn ht
  unfold State.prune at hstep
  split at hstep
  · rename_i hphase
    rw [hphase] at hcarried
    split at hstep
    · split at hstep
      · cases hstep
        exact h.goto hcarried
      · cases hstep
        exact h.goto hcarried
    · cases hstep
  · cases hstep

theorem versions_revive (h : Versions s) (ht : s.txns t = some txn)
    (hstep : s.revive t txn = some s') :
    Versions s' := by
  have hcarried := h t txn ht
  unfold State.revive at hstep
  split at hstep
  · rename_i hphase
    rw [hphase] at hcarried
    cases hstep
    exact h.goto hcarried
  · cases hstep

theorem versions_startCascade (h : Versions s) (hstep : s.startCascade t txn = some s') :
    Versions s' := by
  unfold State.startCascade at hstep
  split at hstep
  · cases hstep
    exact h.goto allVersions_nil
  · cases hstep

/-- A member that the cascade reaches is committed. -/
theorem versions_cascadeNext {id : UUID} {now : Time} (h : Versions s) (ht : s.txns t = some txn)
    (hstep : s.cascadeNext id now t txn = some s') : Versions s' := by
  have hcarried := h t txn ht
  unfold State.cascadeNext at hstep
  split at hstep
  · rename_i hphase
    rw [hphase] at hcarried
    split at hstep
    · split at hstep
      · rename_i row hrow
        -- The cascade adds the tombstone of one more committed row.
        have hmem := (findLive_eq_some.mp (Option.filter_eq_some_iff.mp hrow).1).1
        cases hstep
        exact h.goto (List.forall_mem_cons.mpr ⟨⟨row, hmem, rfl, rfl, rfl⟩, hcarried⟩)
      · cases hstep
        exact h.goto hcarried
    · cases hstep
  · cases hstep

theorem versions_deleteGroup {now : Time} (h : Versions s) (ht : s.txns t = some txn)
    (hstep : s.deleteGroup now t txn = some s') : Versions s' := by
  have hcarried := h t txn ht
  unfold State.deleteGroup at hstep
  split at hstep
  · rename_i hphase
    rw [hphase] at hcarried
    cases hstep
    exact h.goto hcarried
  · cases hstep

/-! ### Commits -/

/-- The end of a transaction leaves the others with versions. -/
theorem Versions.finish {db : Tables} (h : Versions s)
    (hkeeps : KeepsOwners s.conversations db.conversations) :
    Versions (State.finish { s with toTables := db } t) :=
  Records.forall_drop fun t' txn' _ ht' row hrow => (h t' txn' ht' row hrow).keep hkeeps

/-- A commit writes versions, or a new row. -/
theorem keepsOwners_commit (h : Versions s) (ht : s.txns t = some txn)
    (hstep : s.commit t txn = some s') :
    KeepsOwners s.conversations s'.conversations ∧
    ∃ db : Tables, s' = State.finish { s with toTables := db } t := by
  have hcarried := h t txn ht
  unfold State.commit at hstep
  split at hstep
  · -- A create inserts a row.
    obtain ⟨rows, hinsert, rfl⟩ := Option.map_eq_some_iff.mp hstep
    exact ⟨keepsOwners_insertAll hinsert, ⟨s.groups, rows⟩, rfl⟩
  all_goals
    -- The other requests write over rows that they carry, or have no commit here.
    first
      | (rename_i hphase
         rw [hphase] at hcarried
         cases hstep
         exact ⟨keepsOwners_overwrite hcarried, ⟨_, _⟩, rfl⟩)
      | cases hstep

/-- One step keeps the conversations, their owners, and their evaluations. -/
theorem keepsOwners_of_step {settings : Settings} {l : Label} (h : Versions s)
    (hstep : step settings s l = some s') :
    Versions s' ∧ KeepsOwners s.conversations s'.conversations := by
  by_cases hcommit : ∀ t, l ≠ .commit t
  · -- Only a commit writes, and the versions of the open transactions are left to show.
    have htables := (writes_of_step hstep).1 hcommit
    have hrows : s'.conversations = s.conversations := congrArg Tables.conversations htables
    have hkeeps : KeepsOwners s.conversations s'.conversations := by
      rw [hrows]
      exact KeepsOwners.refl _
    refine ⟨?_, hkeeps⟩
    cases l with
    | begin t request => exact versions_begin h hstep
    | lockConversation t =>
      obtain ⟨txn, -, hstep⟩ := Option.bind_eq_some_iff.mp hstep
      exact versions_lockConversation h hstep
    | lockGroup t =>
      obtain ⟨txn, ht, hstep⟩ := Option.bind_eq_some_iff.mp hstep
      exact versions_lockGroup h ht hstep
    | write t now id =>
      obtain ⟨txn, ht, hstep⟩ := Option.bind_eq_some_iff.mp hstep
      exact versions_write h ht hstep
    | decide t =>
      obtain ⟨txn, ht, hstep⟩ := Option.bind_eq_some_iff.mp hstep
      exact versions_decide h ht hstep
    | prune t now =>
      obtain ⟨txn, ht, hstep⟩ := Option.bind_eq_some_iff.mp hstep
      exact versions_prune h ht hstep
    | revive t =>
      obtain ⟨txn, ht, hstep⟩ := Option.bind_eq_some_iff.mp hstep
      exact versions_revive h ht hstep
    | startCascade t =>
      obtain ⟨txn, -, hstep⟩ := Option.bind_eq_some_iff.mp hstep
      exact versions_startCascade h hstep
    | cascadeNext t id now =>
      obtain ⟨txn, ht, hstep⟩ := Option.bind_eq_some_iff.mp hstep
      exact versions_cascadeNext h ht hstep
    | deleteGroup t now =>
      obtain ⟨txn, ht, hstep⟩ := Option.bind_eq_some_iff.mp hstep
      exact versions_deleteGroup h ht hstep
    | commit t => exact absurd rfl (hcommit t)
    | abort t =>
      obtain ⟨txn, -, rfl⟩ := Option.map_eq_some_iff.mp hstep
      exact h.finish (KeepsOwners.refl _)
  · obtain ⟨t, rfl⟩ := not_forall_not.mp hcommit
    obtain ⟨txn, ht, hstep⟩ := Option.bind_eq_some_iff.mp hstep
    obtain ⟨hkeeps, db, rfl⟩ := keepsOwners_commit h ht hstep
    exact ⟨h.finish hkeeps, hkeeps⟩

end

end RedTeaming.Conversations.Groups
