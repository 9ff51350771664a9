import RedTeaming.Conversations.GroupSystem

/-!
# `RedTeaming.Conversations.GroupMembers`: groups are not empty, and not gone

A live conversation should be in a live group, and a live group should have a live conversation
(`Sound`). `sound_iff_prunes_right` says when a run keeps it.

Most commits keep it whatever happens beside them. Who attaches a conversation holds the lock of
the group, so the group stays, and nobody else attaches to it. For the same reason the delete of a
group reaches all its members (`Cascades`).

The prune after a delete or a move is different. It decides on what its statement sees, and takes
no lock for that. Two requests that remove the last two conversations each see the one of the
other, and both spare the group. And a conversation can enter the group after a prune decided on
it. `PrunesRight` is the condition: a prune was right at the commit.
-/

set_option autoImplicit false

namespace RedTeaming.Conversations.Groups

open RedTeaming.Library

/-- A live conversation is in a live group, and a live group has a live conversation. -/
structure Sound (db : Tables) : Prop where
  grouped : ∀ row ∈ db.conversations, live row = true →
    (findLive db.groups row.conversationGroupId).isSome
  nonempty : ∀ group ∈ db.groups, live group = true →
    ∃ row ∈ db.conversations, live row = true ∧ row.conversationGroupId = key group

/-- The group that `old` leaves has another live conversation. -/
def HasOther (db : Tables) (old : Conversation) : Prop :=
  ∃ row ∈ db.conversations, live row = true ∧
    row.conversationGroupId = old.conversationGroupId ∧ key row ≠ key old

/-- A request that spared a group commits while the group has another live conversation, and one
that pruned it while it has none. -/
def PhaseRight (db : Tables) : Phase → Prop
  | .spared old _ => HasOther db old
  | .pruned old _ _ => ¬ HasOther db old
  | _ => True

/-- The prune of the request that commits with this label was right. -/
def PrunesRight (s : State) : Label → Prop
  | .commit t => ∀ txn, s.txns t = some txn → PhaseRight s.toTables txn.phase
  | _ => True

instance (db : Tables) (old : Conversation) : Decidable (HasOther db old) :=
  inferInstanceAs (Decidable (∃ row ∈ db.conversations.rows, live row = true ∧
    row.conversationGroupId = old.conversationGroupId ∧ key row ≠ key old))

instance (db : Tables) : DecidablePred (PhaseRight db)
  | .spared old _ => inferInstanceAs (Decidable (HasOther db old))
  | .pruned old _ _ => inferInstanceAs (Decidable (¬ HasOther db old))
  | .begun | .groupLocked _ | .created _ | .found _ | .targetLocked _ _ | .removed _ _
  | .pruning _ _ | .tombstoneFound _ | .roomLocked _ _ | .revived _ _ | .restored _ _
  | .groupFound _ | .cascading _ _ _ | .groupDeleted _ _ => .isTrue trivial

instance (s : State) : DecidablePred (PrunesRight s)
  | .commit t =>
    match ht : s.txns t with
    | none => .isTrue fun txn h => by cases ht.symm.trans h
    | some txn =>
      decidable_of_iff (PhaseRight s.toTables txn.phase)
        ⟨fun hright _ h => by cases ht.symm.trans h; exact hright, fun h => h txn ht⟩
  | .begin _ _ | .lockConversation _ | .lockGroup _ | .write _ _ _ | .decide _ | .prune _ _
  | .revive _ | .startCascade _ | .cascadeNext _ _ _ | .deleteGroup _ _ | .abort _ =>
    .isTrue trivial

/-- Nothing is open, and the groups are sound. -/
structure Start (s : State) : Prop where
  txns : ∀ t, s.txns t = none
  sound : Sound s.toTables

/-! ### What a transaction knows where it is -/

/-- The group is the committed one, and locked. -/
structure HoldsGroup (s : State) (t : TxnId) (group : ConversationGroup) : Prop where
  mem : group ∈ s.groups
  lock : s.groupLock (key group) = some t

/-- The conversation is the committed one, and locked. -/
structure HoldsConversation (s : State) (t : TxnId) (row : Conversation) : Prop where
  mem : row ∈ s.conversations
  lock : s.conversationLock (key row) = some t

/-- A live conversation leaves its group. When it stays live, it enters another live group, which
is locked. -/
structure Leaves (s : State) (t : TxnId) (old new : Conversation) : Prop where
  held : HoldsConversation s t old
  wasLive : live old = true
  same : key new = key old
  enters : live new = true → ∃ target, HoldsGroup s t target ∧ live target = true ∧
    key target = new.conversationGroupId ∧ new.conversationGroupId ≠ old.conversationGroupId

/-- A tombstone is made live again. Its group is locked. -/
structure Revives (s : State) (t : TxnId) (new : Conversation) (group : ConversationGroup) :
    Prop where
  held : ∃ old, HoldsConversation s t old ∧ live old = false ∧ key new = key old
  isLive : live new = true
  holds : HoldsGroup s t group
  member : new.conversationGroupId = key group

/-- The delete of a group reached these members, and still wants the others. -/
structure Cascades (s : State) (t : TxnId) (group : ConversationGroup) (wanted : List UUID)
    (got : List Conversation) : Prop where
  holds : HoldsGroup s t group
  reached : ∀ n ∈ got, live n = false ∧ ∃ old, HoldsConversation s t old ∧
    old.conversationGroupId = key group ∧ key n = key old
  covered : ∀ row ∈ s.conversations, live row = true → row.conversationGroupId = key group →
    key row ∈ wanted ∨ key row ∈ got.map key

/-- What holds of a transaction where it is. -/
def PhaseOk (s : State) (t : TxnId) (request : Request) : Phase → Prop
  | .begun => True
  | .groupLocked group => HoldsGroup s t group ∧ live group = true ∧
      ∀ payload canManage, request = .create payload canManage →
        key group = payload.conversationGroupId
  | .groupFound group => HoldsGroup s t group ∧ live group = true
  | .created row => live row = true ∧ ∃ group, HoldsGroup s t group ∧ live group = true ∧
      key group = row.conversationGroupId
  | .found row => HoldsConversation s t row ∧ live row = true
  | .targetLocked row target => (HoldsConversation s t row ∧ live row = true) ∧
      HoldsGroup s t target ∧ live target = true ∧ key target ≠ row.conversationGroupId
  | .removed old new | .spared old new | .pruning old new => Leaves s t old new
  | .pruned old new group => Leaves s t old new ∧ live group = false ∧
      key group = old.conversationGroupId ∧ s.groupLock (key group) = some t
  | .tombstoneFound row => HoldsConversation s t row ∧ live row = false
  | .roomLocked row group => (HoldsConversation s t row ∧ live row = false) ∧
      HoldsGroup s t group ∧ row.conversationGroupId = key group
  | .revived row group => Revives s t row group
  | .restored row new => ∃ group, Revives s t row group ∧ key new = key group ∧ live new = true
  | .cascading group wanted got => Cascades s t group wanted got
  | .groupDeleted new got => ∃ group, Cascades s t group [] got ∧ key new = key group ∧
      live new = false

/-- Every open transaction is where it says. -/
def Inv (s : State) : Prop := ∀ t txn, s.txns t = some txn → PhaseOk s t txn.request txn.phase

/-! ### What a step leaves to the others -/

/-- A step leaves a transaction its locks, and the rows that it holds, and attaches no
conversation to a group that it holds. -/
structure Keeps (s s' : State) (t : TxnId) : Prop where
  groupLock : ∀ id, s.groupLock id = some t → s'.groupLock id = some t
  conversationLock : ∀ id, s.conversationLock id = some t → s'.conversationLock id = some t
  groups : ∀ group, HoldsGroup s t group → group ∈ s'.groups
  conversations : ∀ row, HoldsConversation s t row → row ∈ s'.conversations
  members : ∀ row ∈ s'.conversations, live row = true →
    s.groupLock row.conversationGroupId = some t → row ∈ s.conversations

section
variable {s s' : State} {t t' : TxnId} {txn : Txn} {group target : ConversationGroup}
  {row old new : Conversation} {wanted : List UUID} {got : List Conversation}

theorem HoldsGroup.keep (h : HoldsGroup s t group) (hk : Keeps s s' t) : HoldsGroup s' t group :=
  ⟨hk.groups group h, hk.groupLock _ h.lock⟩

theorem HoldsConversation.keep (h : HoldsConversation s t row) (hk : Keeps s s' t) :
    HoldsConversation s' t row :=
  ⟨hk.conversations row h, hk.conversationLock _ h.lock⟩

theorem Leaves.keep (h : Leaves s t old new) (hk : Keeps s s' t) : Leaves s' t old new where
  held := h.held.keep hk
  wasLive := h.wasLive
  same := h.same
  enters hlive := by
    obtain ⟨target, htarget, hrest⟩ := h.enters hlive
    exact ⟨target, htarget.keep hk, hrest⟩

theorem Revives.keep (h : Revives s t new group) (hk : Keeps s s' t) :
    Revives s' t new group where
  held := by
    obtain ⟨old, hold, hrest⟩ := h.held
    exact ⟨old, hold.keep hk, hrest⟩
  isLive := h.isLive
  holds := h.holds.keep hk
  member := h.member

theorem Cascades.keep (h : Cascades s t group wanted got) (hk : Keeps s s' t) :
    Cascades s' t group wanted got where
  holds := h.holds.keep hk
  reached n hn := by
    obtain ⟨hdead, old, hold, hrest⟩ := h.reached n hn
    exact ⟨hdead, old, hold.keep hk, hrest⟩
  covered row hrow hlive hmember := by
    have hlock : s.groupLock row.conversationGroupId = some t := by
      rw [hmember]
      exact h.holds.lock
    exact h.covered row (hk.members row hrow hlive hlock) hlive hmember

theorem PhaseOk.keep {request : Request} {phase : Phase} (h : PhaseOk s t request phase)
    (hk : Keeps s s' t) : PhaseOk s' t request phase := by
  -- Every part is about rows that the transaction has locked, and those stay.
  cases phase with
  | begun => trivial
  | groupLocked group => exact ⟨h.1.keep hk, h.2⟩
  | groupFound group => exact ⟨h.1.keep hk, h.2⟩
  | created row =>
    obtain ⟨hlive, group, hgroup, hrest⟩ := h
    exact ⟨hlive, group, hgroup.keep hk, hrest⟩
  | found row => exact ⟨h.1.keep hk, h.2⟩
  | targetLocked row target =>
    obtain ⟨⟨hrow, hlive⟩, htarget, hrest⟩ := h
    exact ⟨⟨hrow.keep hk, hlive⟩, htarget.keep hk, hrest⟩
  | removed old new => exact Leaves.keep h hk
  | spared old new => exact Leaves.keep h hk
  | pruning old new => exact Leaves.keep h hk
  | pruned old new group =>
    obtain ⟨hleaves, hdead, hkey, hlock⟩ := h
    exact ⟨hleaves.keep hk, hdead, hkey, hk.groupLock _ hlock⟩
  | tombstoneFound row => exact ⟨h.1.keep hk, h.2⟩
  | roomLocked row group =>
    obtain ⟨⟨hrow, hdead⟩, hgroup, hmember⟩ := h
    exact ⟨⟨hrow.keep hk, hdead⟩, hgroup.keep hk, hmember⟩
  | revived row group => exact Revives.keep h hk
  | restored row new =>
    obtain ⟨group, hrevives, hrest⟩ := h
    exact ⟨group, hrevives.keep hk, hrest⟩
  | cascading group wanted got => exact Cascades.keep h hk
  | groupDeleted new got =>
    obtain ⟨group, hcascades, hrest⟩ := h
    exact ⟨group, hcascades.keep hk, hrest⟩

/-- A step that leaves the tables, and takes no lock away, leaves everything. -/
theorem Keeps.of_tables (htables : s'.toTables = s.toTables)
    (hgroup : ∀ id, s.groupLock id = some t → s'.groupLock id = some t)
    (hconversation : ∀ id, s.conversationLock id = some t → s'.conversationLock id = some t) :
    Keeps s s' t := by
  have hgroups : s'.groups = s.groups := congrArg Tables.groups htables
  have hconversations : s'.conversations = s.conversations :=
    congrArg Tables.conversations htables
  refine ⟨hgroup, hconversation, ?_, ?_, ?_⟩
  · intro group h
    rw [hgroups]
    exact h.mem
  · intro row h
    rw [hconversations]
    exact h.mem
  · intro row hrow _ _
    rw [hconversations] at hrow
    exact hrow

/-- A step that only moves `t` on, and may take a lock. -/
theorem Inv.goto {phase : Phase} {groupLock conversationLock : Locks UUID TxnId} (h : Inv s)
    (hgroup : ∀ t' id, s.groupLock id = some t' → groupLock id = some t')
    (hconversation : ∀ t' id, s.conversationLock id = some t' → conversationLock id = some t')
    (hok : PhaseOk (State.goto { s with groupLock, conversationLock } t txn phase) t txn.request
      phase) :
    Inv (State.goto { s with groupLock, conversationLock } t txn phase) := by
  have hother : ∀ t' txn', t' ≠ t → s.txns t' = some txn' →
      PhaseOk (State.goto { s with groupLock, conversationLock } t txn phase) t' txn'.request
        txn'.phase := by
    intro t' txn' _ ht'
    exact (h t' txn' ht').keep (.of_tables rfl (hgroup t') (hconversation t'))
  have hself : PhaseOk (State.goto { s with groupLock, conversationLock } t txn phase) t
      { txn with phase }.request { txn with phase }.phase := hok
  exact Records.forall_set hself hother

/-- A step that takes no lock. -/
theorem Inv.setPhase {phase : Phase} (h : Inv s) (hok : PhaseOk s t txn.request phase) :
    Inv (s.goto t txn phase) := by
  have hk : Keeps s (s.goto t txn phase) t := .of_tables rfl (fun _ h => h) (fun _ h => h)
  exact h.goto (fun _ _ h => h) (fun _ _ h => h) (hok.keep hk)

/-- A step that locks a group. -/
theorem Inv.takeGroup {phase : Phase} {id : UUID} (h : Inv s)
    (hmay : s.groupLock.mayTake id t = true)
    (hok : PhaseOk ({ s with groupLock := s.groupLock.take id t }.goto t txn phase) t txn.request
      phase) :
    Inv ({ s with groupLock := s.groupLock.take id t }.goto t txn phase) :=
  h.goto (fun _ _ hheld => Locks.held_take hmay hheld) (fun _ _ h => h) hok

/-- A step that locks a conversation. -/
theorem Inv.takeConversation {phase : Phase} {id : UUID} (h : Inv s)
    (hmay : s.conversationLock.mayTake id t = true)
    (hok :
      PhaseOk ({ s with conversationLock := s.conversationLock.take id t }.goto t txn phase) t
      txn.request phase) :
    Inv ({ s with conversationLock := s.conversationLock.take id t }.goto t txn phase) :=
  h.goto (fun _ _ h => h) (fun _ _ hheld => Locks.held_take hmay hheld) hok

/-! ### Steps that do not commit -/

theorem inv_begin {request : Request} (h : Inv s) (hstep : s.begin t request = some s') :
    Inv s' := by
  unfold State.begin at hstep
  split at hstep
  · cases hstep
    exact Records.forall_set trivial fun t' txn' _ ht' =>
      (h t' txn' ht').keep (.of_tables rfl (fun _ h => h) fun _ h => h)
  · cases hstep

/-- A live conversation is found and locked, or a tombstone. -/
theorem inv_lockConversation (h : Inv s) (hstep : s.lockConversation t txn = some s') :
    Inv s' := by
  have hfound : ∀ row evaluationId conversationId callerId canManage,
      getConversation s.conversations evaluationId conversationId callerId canManage = some row →
      s.conversationLock.mayTake (key row) t = true →
      Inv ({ s with conversationLock := s.conversationLock.take (key row) t }.goto t txn
        (.found row)) := by
    intro row evaluationId conversationId callerId canManage hrow hfree
    obtain ⟨hmem, -, hlive⟩ := findLive_eq_some.mp (Option.filter_eq_some_iff.mp hrow).1
    exact h.takeConversation hfree ⟨⟨hmem, Locks.take_self _ _ _⟩, hlive⟩
  unfold State.lockConversation at hstep
  split at hstep
  · -- A move.
    split at hstep
    · rename_i row hrow
      split at hstep
      · rename_i hfree
        cases hstep
        exact hfound row _ _ _ _ hrow hfree
      · cases hstep
    · cases hstep
  · -- A delete.
    split at hstep
    · rename_i row hrow
      split at hstep
      · rename_i hfree
        cases hstep
        exact hfound row _ _ _ _ hrow hfree
      · cases hstep
    · cases hstep
  · split at hstep
    · rename_i row hrow
      -- A restore, which finds a tombstone.
      have htombstone := (Option.filter_eq_some_iff.mp hrow).1
      split at hstep
      · rename_i hfree
        cases hstep
        apply h.takeConversation hfree
        exact ⟨⟨(findRestorable_eq_some.mp htombstone).1, Locks.take_self _ _ _⟩,
          not_live_of_findRestorable htombstone⟩
      · cases hstep
    · cases hstep
  · cases hstep

/-- What `get_conversation_group` finds is a live group. -/
theorem of_getConversationGroup {rows : Table ConversationGroup} {evaluationId groupId : UUID}
    {callerId : RedTeaming.Auth.UserId} {canManage : Bool}
    (h : getConversationGroup rows evaluationId groupId callerId canManage = some group) :
    group ∈ rows ∧ key group = groupId ∧ live group = true :=
  findLive_eq_some.mp (Option.filter_eq_some_iff.mp h).1

theorem inv_lockGroup (h : Inv s) (ht : s.txns t = some txn)
    (hstep : s.lockGroup t txn = some s') : Inv s' := by
  have hok := h t txn ht
  unfold State.lockGroup at hstep
  split at hstep
  · -- A create locks the group that it will enter.
    rename_i payload canManage hphase hrequest
    split at hstep
    · rename_i group hgroup
      obtain ⟨hmem, hkey, hlive⟩ := of_getConversationGroup hgroup
      split at hstep
      · rename_i hfree
        cases hstep
        apply h.takeGroup hfree
        refine ⟨⟨hmem, Locks.take_self _ _ _⟩, hlive, fun payload' canManage' hsame => ?_⟩
        rw [hrequest] at hsame
        cases hsame
        exact hkey
      · cases hstep
    · cases hstep
  · -- A move locks its target, which is another group.
    rename_i row _ _ newGroupId _ _ hphase hrequest
    rw [hphase] at hok
    split at hstep
    · cases hstep
    · rename_i hmoves
      split at hstep
      · rename_i group hgroup
        obtain ⟨hmem, hkey, hlive⟩ := of_getConversationGroup hgroup
        split at hstep
        · rename_i hfree
          cases hstep
          apply h.takeGroup hfree
          refine ⟨⟨⟨hok.1.mem, hok.1.lock⟩, hok.2⟩, ⟨hmem, Locks.take_self _ _ _⟩, hlive, ?_⟩
          rw [hkey]
          exact hmoves
        · cases hstep
      · cases hstep
  · -- A restore locks the group of the tombstone, live or not.
    rename_i row _ _ _ _ _ hphase hrequest
    rw [hphase] at hok
    split at hstep
    · rename_i group hgroup
      obtain ⟨hmem, hkey⟩ := Table.find?_eq_some.mp hgroup
      split at hstep
      · rename_i hfree
        cases hstep
        apply h.takeGroup hfree
        exact ⟨⟨⟨hok.1.mem, hok.1.lock⟩, hok.2⟩, ⟨hmem, Locks.take_self _ _ _⟩, hkey.symm⟩
      · cases hstep
    · cases hstep
  · split at hstep
    · rename_i group hgroup
      -- A delete of a whole group.
      obtain ⟨hmem, -, hlive⟩ := of_getConversationGroup hgroup
      split at hstep
      · rename_i hfree
        cases hstep
        exact h.takeGroup hfree ⟨⟨hmem, Locks.take_self _ _ _⟩, hlive⟩
      · cases hstep
    · cases hstep
  · cases hstep

theorem inv_write {settings : Settings} {now : Time} {id : UUID} (h : Inv s)
    (ht : s.txns t = some txn) (hstep : State.write settings s now id t txn = some s') :
    Inv s' := by
  have hok := h t txn ht
  unfold State.write at hstep
  split at hstep
  · -- A create. Its group is locked and live.
    rename_i group payload canManage hphase hrequest
    rw [hphase] at hok
    split at hstep
    · cases hstep
      apply h.setPhase
      obtain ⟨hgroup, hlive, hkey⟩ := hok
      exact ⟨rfl, group, hgroup, hlive, hkey payload canManage hrequest⟩
    · cases hstep
  · -- A move. Its row enters the locked target.
    rename_i row target _ _ _ _ _ hphase hrequest
    rw [hphase] at hok
    obtain ⟨⟨hrow, hlive⟩, htarget, htargetLive, hne⟩ := hok
    split at hstep
    · cases hstep
      apply h.setPhase
      exact ⟨hrow, hlive, rfl, fun _ => ⟨target, htarget, htargetLive, rfl, hne⟩⟩
    · cases hstep
  · -- A delete. The row leaves, and enters no other group.
    rename_i row _ _ _ _ hphase hrequest
    rw [hphase] at hok
    cases hstep
    apply h.setPhase
    refine ⟨hok.1, hok.2, key_softDelete _ _ _, fun hlive => ?_⟩
    rw [live_softDelete] at hlive
    cases hlive
  · -- A restore. The group has room, and is locked.
    rename_i row group _ _ _ _ _ hphase hrequest
    rw [hphase] at hok
    obtain ⟨⟨hrow, hdead⟩, hgroup, hmember⟩ := hok
    split at hstep
    · cases hstep
      apply h.setPhase
      exact ⟨⟨row, hrow, hdead, key_restore row⟩, live_restore row, hgroup, hmember⟩
    · cases hstep
  · cases hstep

theorem inv_decide (h : Inv s) (ht : s.txns t = some txn) (hstep : s.decide t txn = some s') :
    Inv s' := by
  have hok := h t txn ht
  unfold State.decide at hstep
  split at hstep
  · rename_i old new hphase
    rw [hphase] at hok
    split at hstep
    · cases hstep
      exact h.setPhase hok
    · cases hstep
      exact h.setPhase hok
  · cases hstep

/-- The group that is pruned is locked, and gets its tombstone. -/
theorem inv_prune {now : Time} (h : Inv s) (ht : s.txns t = some txn)
    (hstep : s.prune now t txn = some s') : Inv s' := by
  have hok := h t txn ht
  unfold State.prune at hstep
  split at hstep
  · rename_i old new hphase
    rw [hphase] at hok
    split at hstep
    · rename_i hfree
      split at hstep
      · rename_i group hgroup
        obtain ⟨-, hkey, -⟩ := findLive_eq_some.mp hgroup
        cases hstep
        apply h.takeGroup hfree
        -- The lock of the group is new, and nothing else has changed.
        have hk : Keeps s ({ s with
            groupLock := s.groupLock.take old.conversationGroupId t }.goto t txn
              (.pruned old new (softDelete now txn.request.callerId group))) t :=
          .of_tables rfl (fun _ hheld => Locks.held_take hfree hheld) fun _ h => h
        refine ⟨Leaves.keep hok hk, live_softDelete _ _ _, ?_, ?_⟩
        · rw [key_softDelete, hkey]
        · rw [key_softDelete, hkey]
          exact Locks.take_self _ _ _
      · cases hstep
        exact h.setPhase hok
    · cases hstep
  · cases hstep

theorem inv_revive (h : Inv s) (ht : s.txns t = some txn) (hstep : s.revive t txn = some s') :
    Inv s' := by
  have hok := h t txn ht
  unfold State.revive at hstep
  split at hstep
  · rename_i row group hphase
    rw [hphase] at hok
    cases hstep
    apply h.setPhase
    by_cases hlive : live group = true
    · rw [if_pos hlive]
      exact ⟨group, hok, rfl, hlive⟩
    · rw [if_neg hlive]
      exact ⟨group, hok, key_restore group, live_restore group⟩
  · cases hstep

/-- The delete of a group starts: it wants all the members. -/
theorem inv_startCascade (h : Inv s) (ht : s.txns t = some txn)
    (hstep : s.startCascade t txn = some s') : Inv s' := by
  have hok := h t txn ht
  unfold State.startCascade at hstep
  split at hstep
  · rename_i group hphase
    rw [hphase] at hok
    cases hstep
    apply h.setPhase
    refine ⟨hok.1, ?_, ?_⟩
    · intro n hn
      cases hn
    · intro row hrow hlive hmember
      exact Or.inl (List.mem_map_of_mem (mem_liveMembers.mpr ⟨hrow, hlive, hmember⟩))
  · cases hstep

/-- A member gets its tombstone, or is not a live member any more. -/
theorem inv_cascadeNext {id : UUID} {now : Time} (h : Inv s) (ht : s.txns t = some txn)
    (hstep : s.cascadeNext id now t txn = some s') : Inv s' := by
  have hok := h t txn ht
  unfold State.cascadeNext at hstep
  split at hstep
  · rename_i group wanted got hphase
    rw [hphase] at hok
    have hcovered : ∀ row ∈ s.conversations, live row = true →
        row.conversationGroupId = key group → key row ≠ id →
          key row ∈ wanted.erase id ∨ key row ∈ got.map key := by
      intro row hrow hlive hmember hne
      rcases hok.covered row hrow hlive hmember with hin | hin
      · exact Or.inl ((List.mem_erase_of_ne hne).mpr hin)
      · exact Or.inr hin
    split at hstep
    · rename_i hfree
      split at hstep
      · rename_i row hrow
        obtain ⟨hfound, hmember⟩ := Option.filter_eq_some_iff.mp hrow
        obtain ⟨hmem, hkey, -⟩ := findLive_eq_some.mp hfound
        cases hstep
        apply h.takeConversation hfree.2
        have hk : Keeps s ({ s with conversationLock := s.conversationLock.take id t }.goto t txn
            (.cascading group (wanted.erase id)
              (softDelete now txn.request.callerId row :: got))) t :=
          .of_tables rfl (fun _ h => h) fun _ hheld => Locks.held_take hfree.2 hheld
        refine ⟨hok.holds.keep hk, ?_, ?_⟩
        · intro n hn
          rcases List.mem_cons.mp hn with rfl | hn
          · refine ⟨live_softDelete _ _ _, row, ⟨hmem, ?_⟩, beq_iff_eq.mp hmember,
              key_softDelete _ _ _⟩
            rw [hkey]
            exact Locks.take_self _ _ _
          · obtain ⟨hdead, old, hold, hrest⟩ := hok.reached n hn
            exact ⟨hdead, old, hold.keep hk, hrest⟩
        · intro row' hrow' hlive hmember'
          rw [List.map_cons, key_softDelete, hkey]
          by_cases hid : key row' = id
          · -- the member that was just reached
            rw [hid]
            exact Or.inr List.mem_cons_self
          · rcases hcovered row' hrow' hlive hmember' hid with hin | hin
            · exact Or.inl hin
            · exact Or.inr (List.mem_cons_of_mem _ hin)
      · rename_i hnone
        cases hstep
        apply h.setPhase
        refine ⟨hok.holds, hok.reached, fun row hrow hlive hmember => ?_⟩
        apply hcovered row hrow hlive hmember
        intro hid
        have hsome : (findLive s.conversations id).filter
            (fun row => row.conversationGroupId == key group) = some row :=
          Option.filter_eq_some_iff.mpr
            ⟨findLive_eq_some.mpr ⟨hrow, hid, hlive⟩, beq_iff_eq.mpr hmember⟩
        rw [hsome] at hnone
        cases hnone
    · cases hstep
  · cases hstep

theorem inv_deleteGroup {now : Time} (h : Inv s) (ht : s.txns t = some txn)
    (hstep : s.deleteGroup now t txn = some s') : Inv s' := by
  have hok := h t txn ht
  unfold State.deleteGroup at hstep
  split at hstep
  · rename_i group got hphase
    rw [hphase] at hok
    cases hstep
    apply h.setPhase
    exact ⟨group, hok, key_softDelete _ _ _, live_softDelete _ _ _⟩
  · cases hstep

/-! ### Commits, and the others -/

/-- A row that another transaction holds is not one that `t` writes. -/
theorem mem_overwrite_of_lock {ρ : Type} [Entity ρ] {rows : Table ρ} {new : List ρ} {r : ρ}
    {locks : Locks UUID TxnId} (hne : t' ≠ t) (hnew : ∀ n ∈ new, locks (key n) = some t)
    (hr : r ∈ rows) (hlock : locks (key r) = some t') : r ∈ rows.overwrite new := by
  apply Table.mem_overwrite_of_ne hr
  intro n hn hkey
  have hmine := hnew n hn
  rw [hkey, hlock] at hmine
  exact hne (Option.some.inj hmine)

/-- The commit of `t` leaves the others what they hold. -/
theorem Inv.of_commit {db : Tables} (h : Inv s)
    (hgroups : ∀ t' group, t' ≠ t → HoldsGroup s t' group → group ∈ db.groups)
    (hconversations : ∀ t' row, t' ≠ t → HoldsConversation s t' row → row ∈ db.conversations)
    (hmembers : ∀ row ∈ db.conversations, live row = true →
      row ∈ s.conversations ∨ s.groupLock row.conversationGroupId = some t) :
    Inv (State.finish { s with toTables := db } t) := by
  apply Records.forall_drop
  intro t' txn' hne ht'
  have hk : Keeps s (State.finish { s with toTables := db } t) t' := {
    groupLock := fun _ hheld => Locks.held_release hne hheld
    conversationLock := fun _ hheld => Locks.held_release hne hheld
    groups := fun group hgroup => hgroups t' group hne hgroup
    conversations := fun row hrow => hconversations t' row hne hrow
    members := by
      intro row hrow hlive hheld
      rcases hmembers row hrow hlive with hold | hlock
      · exact hold
      · rw [hheld] at hlock
        exact absurd (Option.some.inj hlock) hne }
  exact (h t' txn' ht').keep hk

/-- The live conversations after one was overwritten. -/
theorem overwrite_one_cases {rows : Table Conversation} (hrow : row ∈ rows.overwrite [new]) :
    row = new ∨ (row ∈ rows ∧ key row ≠ key new) := by
  rcases Table.overwrite_cases hrow with hnew | ⟨hold, hne⟩
  · exact Or.inl (List.mem_singleton.mp hnew)
  · exact Or.inr ⟨hold, fun hkey => hne new List.mem_cons_self hkey.symm⟩

/-- The lock of a group that a conversation enters. -/
theorem Leaves.lock (h : Leaves s t old new) (hlive : live new = true) :
    s.groupLock new.conversationGroupId = some t := by
  obtain ⟨target, htarget, -, hkey, -⟩ := h.enters hlive
  rw [← hkey]
  exact htarget.lock

/-- The conversation that leaves is locked. -/
theorem Leaves.newLock (h : Leaves s t old new) :
    ∀ n ∈ [new], s.conversationLock (key n) = some t := by
  intro n hn
  rw [List.mem_singleton.mp hn, h.same]
  exact h.held.lock

theorem Leaves.members (h : Leaves s t old new) :
    ∀ row ∈ s.conversations.overwrite [new], live row = true →
      row ∈ s.conversations ∨ s.groupLock row.conversationGroupId = some t := by
  intro row hrow hlive
  rcases overwrite_one_cases hrow with rfl | ⟨hold, -⟩
  · exact Or.inr (h.lock hlive)
  · exact Or.inl hold

theorem inv_commit (h : Inv s) (ht : s.txns t = some txn) (hstep : s.commit t txn = some s') :
    Inv s' := by
  have hok := h t txn ht
  unfold State.commit at hstep
  split at hstep
  · -- A create puts its row into a group that it holds.
    rename_i row hphase
    rw [hphase] at hok
    obtain ⟨-, group, hgroup, -, hkey⟩ := hok
    obtain ⟨rows, hinsert, rfl⟩ := Option.map_eq_some_iff.mp hstep
    have hputs := puts_insert hinsert
    apply h.of_commit
    · intro t' group' _ hheld
      exact hheld.mem
    · intro t' row' _ hheld
      exact (Table.mem_insertAll hinsert).mpr (Or.inl hheld.mem)
    · intro row' hrow' _
      rcases hputs.cases row' hrow' with rfl | hold
      · right
        rw [← hkey]
        exact hgroup.lock
      · exact Or.inl hold
  · -- A move or a delete that has spared the old group.
    rename_i old new hphase
    rw [hphase] at hok
    cases hstep
    exact h.of_commit (fun _ _ _ hheld => hheld.mem)
      (fun t' row' hne hheld => mem_overwrite_of_lock hne hok.newLock hheld.mem hheld.lock)
      hok.members
  · -- A move or a delete that has pruned the old group, which it holds.
    rename_i old new group hphase
    rw [hphase] at hok
    obtain ⟨hleaves, -, -, hlock⟩ := hok
    cases hstep
    apply h.of_commit
    · intro t' group' hne hheld
      refine mem_overwrite_of_lock hne ?_ hheld.mem hheld.lock
      intro n hn
      rw [List.mem_singleton.mp hn]
      exact hlock
    · intro t' row' hne hheld
      exact mem_overwrite_of_lock hne hleaves.newLock hheld.mem hheld.lock
    · exact hleaves.members
  · -- A restore writes the group and the row, and holds both.
    rename_i row new hphase
    rw [hphase] at hok
    obtain ⟨group, hrevives, hkey, -⟩ := hok
    obtain ⟨old, hold, -, hsame⟩ := hrevives.held
    cases hstep
    apply h.of_commit
    · intro t' group' hne hheld
      refine mem_overwrite_of_lock hne ?_ hheld.mem hheld.lock
      intro n hn
      rw [List.mem_singleton.mp hn, hkey]
      exact hrevives.holds.lock
    · intro t' row' hne hheld
      refine mem_overwrite_of_lock hne ?_ hheld.mem hheld.lock
      intro n hn
      rw [List.mem_singleton.mp hn, hsame]
      exact hold.lock
    · intro row' hrow' _
      rcases overwrite_one_cases hrow' with rfl | ⟨hmem, -⟩
      · right
        rw [hrevives.member]
        exact hrevives.holds.lock
      · exact Or.inl hmem
  · -- A cascade writes the group and all members that it has reached. Nothing becomes live.
    rename_i new got hphase
    rw [hphase] at hok
    obtain ⟨group, hcascades, hkey, -⟩ := hok
    cases hstep
    apply h.of_commit
    · intro t' group' hne hheld
      refine mem_overwrite_of_lock hne ?_ hheld.mem hheld.lock
      intro n hn
      rw [List.mem_singleton.mp hn, hkey]
      exact hcascades.holds.lock
    · intro t' row' hne hheld
      refine mem_overwrite_of_lock hne ?_ hheld.mem hheld.lock
      intro n hn
      obtain ⟨-, old, hold, -, hsame⟩ := hcascades.reached n hn
      rw [hsame]
      exact hold.lock
    · intro row' hrow' hlive
      exact Or.inl (live_of_overwrite (fun n hn => (hcascades.reached n hn).1) hrow' hlive).1
  · cases hstep

theorem inv_abort (h : Inv s) : Inv (s.finish t) :=
  h.of_commit (fun _ _ _ hheld => hheld.mem) (fun _ _ _ hheld => hheld.mem)
    fun _ hrow _ => Or.inl hrow

/-! ### Commits, and the groups -/

/-- A new member of a live group. -/
theorem sound_created {rows : Table Conversation} (h : Sound s.toTables)
    (hputs : Puts s.conversations rows row)
    (hlive : (findLive s.groups row.conversationGroupId).isSome)
    (hstays : ∀ r ∈ s.conversations, live r = true → r ∈ rows) :
    Sound { s.toTables with conversations := rows } where
  grouped r hr hrlive := by
    rcases hputs.cases r hr with rfl | hold
    · exact hlive
    · exact h.grouped r hold hrlive
  nonempty g hg hglive := by
    obtain ⟨r, hr, hrlive, hmember⟩ := h.nonempty g hg hglive
    exact ⟨r, hstays r hr hrlive, hrlive, hmember⟩

/-- The group of the conversation that leaves is live. -/
theorem Leaves.group_live (h : Leaves s t old new) (hsound : Sound s.toTables) :
    ∃ group ∈ s.groups, key group = old.conversationGroupId ∧ live group = true :=
  isSome_findLive.mp (hsound.grouped old h.held.mem h.wasLive)

/-- Another member than the one that leaves stays. -/
theorem Leaves.stays (h : Leaves s t old new) (hrow : row ∈ s.conversations)
    (hne : key row ≠ key old) : row ∈ s.conversations.overwrite [new] := by
  apply Table.mem_overwrite_of_ne hrow
  intro n hn hkey
  rw [List.mem_singleton.mp hn, h.same] at hkey
  exact hne hkey.symm

/-- A live member of the old group is another one. -/
theorem Leaves.other (h : Leaves s t old new) (hrow : row ∈ s.conversations.overwrite [new])
    (hlive : live row = true) (hmember : row.conversationGroupId = old.conversationGroupId) :
    row ∈ s.conversations ∧ key row ≠ key old := by
  rcases overwrite_one_cases hrow with rfl | ⟨hold, hne⟩
  · obtain ⟨-, -, -, -, hmoved⟩ := h.enters hlive
    exact absurd hmember hmoved
  · rw [h.same] at hne
    exact ⟨hold, hne⟩

/-- A request that spared the group keeps the groups sound when the group has another member. -/
theorem sound_spared_iff (h : Sound s.toTables) (hleaves : Leaves s t old new) :
    Sound { s.toTables with conversations := s.conversations.overwrite [new] } ↔
      HasOther s.toTables old := by
  obtain ⟨group, hgroup, hkey, hglive⟩ := hleaves.group_live h
  constructor
  · intro hafter
    obtain ⟨row, hrow, hlive, hmember⟩ := hafter.nonempty group hgroup hglive
    rw [hkey] at hmember
    obtain ⟨hold, hne⟩ := hleaves.other hrow hlive hmember
    exact ⟨row, hold, hlive, hmember, hne⟩
  · rintro ⟨other, hother, hotherLive, hotherMember, hne⟩
    constructor
    · intro row hrow hlive
      rcases overwrite_one_cases hrow with rfl | ⟨hold, -⟩
      · obtain ⟨target, htarget, htargetLive, htargetKey, -⟩ := hleaves.enters hlive
        exact isSome_findLive.mpr ⟨target, htarget.mem, htargetKey, htargetLive⟩
      · exact h.grouped row hold hlive
    · intro g hg hglive
      obtain ⟨row, hrow, hlive, hmember⟩ := h.nonempty g hg hglive
      by_cases hsame : key row = key old
      · have hold : row = old := Table.eq_of_key_eq hrow hleaves.held.mem hsame
        rw [hold] at hmember
        exact ⟨other, hleaves.stays hother hne, hotherLive, hotherMember.trans hmember⟩
      · exact ⟨row, hleaves.stays hrow hsame, hlive, hmember⟩

/-- A group that got its tombstone is found no more, and the other ones are. -/
theorem isSome_overwrite_dead {rows : Table ConversationGroup} {dead : ConversationGroup}
    (hdead : live dead = false) {id : UUID} :
    (findLive (rows.overwrite [dead]) id).isSome ↔ (findLive rows id).isSome ∧ id ≠ key dead := by
  have hall : ∀ n ∈ [dead], live n = false := by
    intro n hn
    rw [List.mem_singleton.mp hn]
    exact hdead
  rw [isSome_findLive, isSome_findLive]
  constructor
  · rintro ⟨r, hr, rfl, hlive⟩
    obtain ⟨hold, hne⟩ := live_of_overwrite hall hr hlive
    exact ⟨⟨r, hold, rfl, hlive⟩, (hne dead List.mem_cons_self).symm⟩
  · rintro ⟨⟨r, hr, rfl, hlive⟩, hne⟩
    refine ⟨r, Table.mem_overwrite_of_ne hr ?_, rfl, hlive⟩
    intro n hn
    rw [List.mem_singleton.mp hn]
    exact hne.symm

/-- A request that pruned the group keeps the groups sound when the group has no other member. -/
theorem sound_pruned_iff (h : Sound s.toTables) (hleaves : Leaves s t old new)
    (hdead : live group = false) (hkey : key group = old.conversationGroupId) :
    Sound
        { groups := s.groups.overwrite [group],
          conversations := s.conversations.overwrite [new] } ↔
      ¬ HasOther s.toTables old := by
  constructor
  · rintro hafter ⟨row, hrow, hlive, hmember, hne⟩
    -- A member that stays would be in a dead group.
    have hfound := hafter.grouped row (hleaves.stays hrow hne) hlive
    exact ((isSome_overwrite_dead hdead).mp hfound).2 (hmember.trans hkey.symm)
  · intro hnone
    constructor
    · intro row hrow hlive
      apply (isSome_overwrite_dead hdead).mpr
      rcases overwrite_one_cases hrow with rfl | ⟨hold, hne⟩
      · -- The row that moved is in its target, which is not the pruned group.
        obtain ⟨target, htarget, htargetLive, htargetKey, hmoved⟩ := hleaves.enters hlive
        rw [hkey]
        exact ⟨isSome_findLive.mpr ⟨target, htarget.mem, htargetKey, htargetLive⟩, hmoved⟩
      · refine ⟨h.grouped row hold hlive, fun hmember => hnone ?_⟩
        rw [hleaves.same] at hne
        exact ⟨row, hold, hlive, hmember.trans hkey, hne⟩
    · intro g hg hglive
      have hfound := isSome_findLive.mpr ⟨g, hg, rfl, hglive⟩
      obtain ⟨hbefore, hne⟩ := (isSome_overwrite_dead hdead).mp hfound
      obtain ⟨g₀, hg₀, hg₀key, hg₀live⟩ := isSome_findLive.mp hbefore
      obtain ⟨row, hrow, hlive, hmember⟩ := h.nonempty g₀ hg₀ hg₀live
      rw [hg₀key] at hmember
      refine ⟨row, hleaves.stays hrow ?_, hlive, hmember⟩
      -- The row that left cannot have been the only member of another group.
      intro hsame
      have hold : row = old := Table.eq_of_key_eq hrow hleaves.held.mem hsame
      rw [hold, ← hkey] at hmember
      exact hne hmember.symm

/-- A restore brings its group back. -/
theorem sound_restored {new : Conversation} {group' : ConversationGroup} (h : Sound s.toTables)
    (hrevives : Revives s t new group) (hkey : key group' = key group)
    (hlive : live group' = true) :
    Sound
      { groups := s.groups.overwrite [group'],
        conversations := s.conversations.overwrite [new] } := by
  obtain ⟨old, hold, holdDead, hsame⟩ := hrevives.held
  have hgroups : Puts s.groups (s.groups.overwrite [group']) group' :=
    puts_overwrite ⟨group, hrevives.holds.mem, hkey.symm⟩
  have hconversations : Puts s.conversations (s.conversations.overwrite [new]) new :=
    puts_overwrite ⟨old, hold.mem, hsame.symm⟩
  constructor
  · intro row hrow hrowLive
    rcases hconversations.cases row hrow with rfl | hmem
    · exact isSome_findLive.mpr ⟨group', hgroups.mem, hkey.trans hrevives.member.symm, hlive⟩
    · exact hgroups.isSome hlive (h.grouped row hmem hrowLive)
  · intro g hg hglive
    rcases hgroups.cases g hg with rfl | hmem
    · exact ⟨new, hconversations.mem, hrevives.isLive, hrevives.member.trans hkey.symm⟩
    · obtain ⟨row, hrow, hrowLive, hmember⟩ := h.nonempty g hmem hglive
      refine ⟨row, Table.mem_overwrite_of_ne hrow ?_, hrowLive, hmember⟩
      intro n hn hnkey
      rw [List.mem_singleton.mp hn, hsame] at hnkey
      have hrowOld : old = row := Table.eq_of_key_eq hold.mem hrow hnkey
      rw [hrowOld, hrowLive] at holdDead
      cases holdDead

/-- The delete of a group takes all its members along, and no other conversation. -/
theorem sound_groupDeleted {dead : ConversationGroup} (h : Sound s.toTables)
    (hcascades : Cascades s t group [] got) (hkey : key dead = key group)
    (hdead : live dead = false) :
    Sound
      { groups := s.groups.overwrite [dead],
        conversations := s.conversations.overwrite got } where
  grouped row hrow hlive := by
    obtain ⟨hold, hne⟩ :=
      live_of_overwrite (fun n hn => (hcascades.reached n hn).1) hrow hlive
    refine (isSome_overwrite_dead hdead).mpr ⟨h.grouped row hold hlive, fun hmember => ?_⟩
    rcases hcascades.covered row hold hlive (hmember.trans hkey) with hin | hin
    · cases hin
    · obtain ⟨n, hn, hnkey⟩ := List.mem_map.mp hin
      exact hne n hn hnkey
  nonempty g hg hglive := by
    have hfound := isSome_findLive.mpr ⟨g, hg, rfl, hglive⟩
    obtain ⟨hbefore, hne⟩ := (isSome_overwrite_dead hdead).mp hfound
    obtain ⟨g₀, hg₀, hg₀key, hg₀live⟩ := isSome_findLive.mp hbefore
    obtain ⟨row, hrow, hlive, hmember⟩ := h.nonempty g₀ hg₀ hg₀live
    rw [hg₀key] at hmember
    refine ⟨row, Table.mem_overwrite_of_ne hrow ?_, hlive, hmember⟩
    intro n hn hnkey
    -- a member that the cascade reached is a member of the deleted group
    obtain ⟨-, old, hold, holdMember, hsame⟩ := hcascades.reached n hn
    have hrowOld : old = row := Table.eq_of_key_eq hold.mem hrow (hsame.symm.trans hnkey)
    rw [hrowOld, hmember, ← hkey] at holdMember
    exact hne holdMember

/-- What each commit does to the groups. -/
theorem sound_commit_iff (h : Inv s) (hsound : Sound s.toTables) (ht : s.txns t = some txn)
    (hstep : s.commit t txn = some s') :
    Sound s'.toTables ↔ PhaseRight s.toTables txn.phase := by
  have hok := h t txn ht
  unfold State.commit at hstep
  split at hstep
  · rename_i row hphase
    rw [hphase] at hok
    rw [hphase]
    obtain ⟨-, group, hgroup, hlive, hkey⟩ := hok
    obtain ⟨rows, hinsert, rfl⟩ := Option.map_eq_some_iff.mp hstep
    refine iff_of_true ?_ trivial
    apply sound_created hsound (puts_insert hinsert)
    · exact isSome_findLive.mpr ⟨group, hgroup.mem, hkey, hlive⟩
    · intro r hr _
      exact (Table.mem_insertAll hinsert).mpr (Or.inl hr)
  · rename_i old new hphase
    rw [hphase] at hok
    rw [hphase]
    cases hstep
    exact sound_spared_iff hsound hok
  · rename_i old new group hphase
    rw [hphase] at hok
    rw [hphase]
    obtain ⟨hleaves, hdead, hkey, -⟩ := hok
    cases hstep
    exact sound_pruned_iff hsound hleaves hdead hkey
  · rename_i row new hphase
    rw [hphase] at hok
    rw [hphase]
    obtain ⟨group, hrevives, hkey, hlive⟩ := hok
    cases hstep
    exact iff_of_true (sound_restored hsound hrevives hkey hlive) trivial
  · rename_i new got hphase
    rw [hphase] at hok
    rw [hphase]
    obtain ⟨group, hcascades, hkey, hdead⟩ := hok
    cases hstep
    exact iff_of_true (sound_groupDeleted hsound hcascades hkey hdead) trivial
  · cases hstep

/-! ### The groups along a run -/

/-- What a step keeps. -/
theorem Inv.of_step {settings : Settings} {l : Label} (h : Inv s)
    (hstep : step settings s l = some s') : Inv s' := by
  cases l with
  | begin t request => exact inv_begin h hstep
  | lockConversation t =>
    obtain ⟨txn, -, hstep⟩ := Option.bind_eq_some_iff.mp hstep
    exact inv_lockConversation h hstep
  | lockGroup t =>
    obtain ⟨txn, ht, hstep⟩ := Option.bind_eq_some_iff.mp hstep
    exact inv_lockGroup h ht hstep
  | write t now id =>
    obtain ⟨txn, ht, hstep⟩ := Option.bind_eq_some_iff.mp hstep
    exact inv_write h ht hstep
  | decide t =>
    obtain ⟨txn, ht, hstep⟩ := Option.bind_eq_some_iff.mp hstep
    exact inv_decide h ht hstep
  | prune t now =>
    obtain ⟨txn, ht, hstep⟩ := Option.bind_eq_some_iff.mp hstep
    exact inv_prune h ht hstep
  | revive t =>
    obtain ⟨txn, ht, hstep⟩ := Option.bind_eq_some_iff.mp hstep
    exact inv_revive h ht hstep
  | startCascade t =>
    obtain ⟨txn, ht, hstep⟩ := Option.bind_eq_some_iff.mp hstep
    exact inv_startCascade h ht hstep
  | cascadeNext t id now =>
    obtain ⟨txn, ht, hstep⟩ := Option.bind_eq_some_iff.mp hstep
    exact inv_cascadeNext h ht hstep
  | deleteGroup t now =>
    obtain ⟨txn, ht, hstep⟩ := Option.bind_eq_some_iff.mp hstep
    exact inv_deleteGroup h ht hstep
  | commit t =>
    obtain ⟨txn, ht, hstep⟩ := Option.bind_eq_some_iff.mp hstep
    exact inv_commit h ht hstep
  | abort t =>
    obtain ⟨txn, -, rfl⟩ := Option.map_eq_some_iff.mp hstep
    exact inv_abort h

/-- What a step writes besides the locks: the tables at a commit, and the record of its
transaction. -/
def Writes (s s' : State) (l : Label) : Prop :=
  ((∀ t, l ≠ .commit t) → s'.toTables = s.toTables) ∧
    ∀ t', t' ≠ l.txn → s'.txns t' = s.txns t'

/-- A statement that moves a transaction on writes its record. -/
theorem writes_goto {l : Label} {phase : Phase} {groupLock conversationLock : Locks UUID TxnId}
    (ht : l.txn = t) :
    Writes s (State.goto { s with groupLock, conversationLock } t txn phase) l := by
  refine ⟨fun _ => rfl, fun t' hne => ?_⟩
  rw [ht] at hne
  exact Records.set_of_ne hne

/-- Only a commit writes a table, and a step writes only the record of its transaction. -/
theorem writes_of_step {settings : Settings} {l : Label} (hstep : step settings s l = some s') :
    Writes s s' l := by
  cases l with
  | begin t request =>
    simp only [step, State.begin] at hstep
    split at hstep
    · cases hstep
      exact ⟨fun _ => rfl, fun _ hne => Records.set_of_ne hne⟩
    · cases hstep
  | lockConversation t =>
    obtain ⟨txn, -, hstep⟩ := Option.bind_eq_some_iff.mp hstep
    unfold State.lockConversation at hstep
    (repeat' split at hstep) <;> cases hstep <;> exact writes_goto rfl
  | lockGroup t =>
    obtain ⟨txn, -, hstep⟩ := Option.bind_eq_some_iff.mp hstep
    unfold State.lockGroup at hstep
    (repeat' split at hstep) <;> cases hstep <;> exact writes_goto rfl
  | write t now id =>
    obtain ⟨txn, -, hstep⟩ := Option.bind_eq_some_iff.mp hstep
    unfold State.write at hstep
    (repeat' split at hstep) <;> cases hstep <;> exact writes_goto rfl
  | decide t =>
    obtain ⟨txn, -, hstep⟩ := Option.bind_eq_some_iff.mp hstep
    unfold State.decide at hstep
    (repeat' split at hstep) <;> cases hstep <;> exact writes_goto rfl
  | prune t now =>
    obtain ⟨txn, -, hstep⟩ := Option.bind_eq_some_iff.mp hstep
    unfold State.prune at hstep
    (repeat' split at hstep) <;> cases hstep <;> exact writes_goto rfl
  | revive t =>
    obtain ⟨txn, -, hstep⟩ := Option.bind_eq_some_iff.mp hstep
    unfold State.revive at hstep
    split at hstep <;> cases hstep
    exact writes_goto rfl
  | startCascade t =>
    obtain ⟨txn, -, hstep⟩ := Option.bind_eq_some_iff.mp hstep
    unfold State.startCascade at hstep
    split at hstep <;> cases hstep
    exact writes_goto rfl
  | cascadeNext t id now =>
    obtain ⟨txn, -, hstep⟩ := Option.bind_eq_some_iff.mp hstep
    unfold State.cascadeNext at hstep
    (repeat' split at hstep) <;> cases hstep <;> exact writes_goto rfl
  | deleteGroup t now =>
    obtain ⟨txn, -, hstep⟩ := Option.bind_eq_some_iff.mp hstep
    unfold State.deleteGroup at hstep
    split at hstep <;> cases hstep
    exact writes_goto rfl
  | commit t =>
    obtain ⟨txn, -, hstep⟩ := Option.bind_eq_some_iff.mp hstep
    have hdrop : s'.txns = s.txns.drop t := by
      unfold State.commit at hstep
      (repeat' split at hstep) <;>
        first
          | (obtain ⟨rows, -, rfl⟩ := Option.map_eq_some_iff.mp hstep; rfl)
          | (cases hstep; rfl)
          | cases hstep
    refine ⟨fun hcommit => absurd rfl (hcommit t), fun t' hne => ?_⟩
    rw [hdrop]
    exact Records.drop_of_ne hne
  | abort t =>
    obtain ⟨txn, -, rfl⟩ := Option.map_eq_some_iff.mp hstep
    exact ⟨fun _ => rfl, fun _ hne => Records.drop_of_ne hne⟩

/-- A step from sound groups leads to sound groups exactly when its prune was right. -/
theorem sound_step_iff {settings : Settings} {l : Label} (h : Inv s) (hsound : Sound s.toTables)
    (hstep : step settings s l = some s') : Sound s'.toTables ↔ PrunesRight s l := by
  by_cases hcommit : ∀ t, l ≠ .commit t
  · rw [(writes_of_step hstep).1 hcommit]
    refine iff_of_true hsound ?_
    cases l with
    | commit t => exact absurd rfl (hcommit t)
    | _ => trivial
  · obtain ⟨t, hl⟩ := not_forall.mp hcommit
    have hl : l = .commit t := not_not.mp hl
    subst hl
    obtain ⟨txn, ht, hstep⟩ := Option.bind_eq_some_iff.mp hstep
    refine Iff.trans (sound_commit_iff h hsound ht hstep) ⟨?_, fun hright => hright txn ht⟩
    intro hphase txn' ht'
    rw [ht] at ht'
    cases ht'
    exact hphase

/-- A run from sound groups keeps them sound exactly when all its prunes are right. -/
theorem sound_iff_prunes_right {settings : Settings} {ls : List Label} (hstart : Start s)
    (hrun : run (step settings) s ls = some s') :
    Always (step settings) (fun s => Sound s.toTables) s ls ↔
      Along (step settings) PrunesRight s ls := by
  have hinv : Inv s := by
    intro t txn ht
    rw [hstart.txns t] at ht
    cases ht
  exact always_iff_along (I := Inv) (fun _ _ _ h _ hstep => h.of_step hstep)
    (fun _ _ _ h hsound hstep => sound_step_iff h hsound hstep) hinv hstart.sound hrun

end

/-! ### Runs -/

/-- The group 5 of the user 1. -/
def group : ConversationGroup where
  id := 5
  createdAt := 0
  userId := 1
  evaluationId := 10
  scenarioId := 40
  name := "Attempts"

/-- A conversation in the group 5. -/
def member (id : UUID) : Conversation where
  id
  createdAt := 0
  userId := 1
  evaluationId := 10
  evaluationAiModelId := 30
  scenarioId := 40
  conversationGroupId := 5

/-- The group with two conversations. -/
def pair : State where
  groups := ⟨[group], by decide⟩
  conversations := ⟨[member 60, member 61], by decide⟩

theorem start_pair : Start pair where
  txns _ := rfl
  sound := by
    constructor
    · decide
    · intro g hg _
      refine ⟨member 60, List.mem_cons_self, rfl, ?_⟩
      rw [List.mem_singleton.mp hg]
      rfl

def settings : Settings := ⟨20⟩

/-- The last but one conversation is deleted, and then the last one. -/
def oneByOne : List Label :=
  [.begin 1 (.delete 10 60 1 false), .lockConversation 1, .write 1 7 0, .decide 1, .commit 1,
    .begin 2 (.delete 10 61 1 false), .lockConversation 2, .write 2 8 0, .decide 2, .prune 2 8,
    .commit 2]

/-- When the deletes come one after the other, the prunes are right, so the groups stay sound. -/
theorem sound_iff_prunes_right_one_by_one :
    ∃ s', run (step settings) pair oneByOne = some s' ∧ findLive s'.groups 5 = none ∧
      Along (step settings) PrunesRight pair oneByOne ∧
      Always (step settings) (fun s => Sound s.toTables) pair oneByOne := by
  have hany :
      (run (step settings) pair oneByOne).any (fun s => (findLive s.groups 5).isNone) = true := by
    decide +kernel
  have hright : Along (step settings) PrunesRight pair oneByOne := by decide +kernel
  obtain ⟨s', hrun, hgone⟩ := exists_run_of_any hany
  exact ⟨s', hrun, Option.isNone_iff_eq_none.mp hgone, hright,
    (sound_iff_prunes_right start_pair hrun).mpr hright⟩

/-- Both conversations are deleted, and each delete looks for an empty group while the other one
is open. -/
def together : List Label :=
  [.begin 1 (.delete 10 60 1 false), .lockConversation 1, .write 1 7 0, .decide 1,
    .begin 2 (.delete 10 61 1 false), .lockConversation 2, .write 2 7 0, .decide 2,
    .commit 1, .commit 2]

/-- All transactions ended, and a live group is empty. -/
theorem group_lingers_empty :
    ¬ ∀ (settings : Settings) (s s' : State) (ls : List Label), Start s →
      run (step settings) s ls = some s' → (∀ t, s'.txns t = none) → Sound s'.toTables := by
  intro hall
  have hany : (run (step settings) pair together).any (fun s =>
      (s.txns 1).isNone && (s.txns 2).isNone && (findLive s.groups 5).isSome &&
        (s.conversations.rows.all fun row => !live row)) = true := by
    decide +kernel
  obtain ⟨s', hrun, hbad⟩ := exists_run_of_any hany
  simp only [Bool.and_eq_true, Option.isNone_iff_eq_none, List.all_eq_true,
    Bool.not_eq_true', isSome_findLive] at hbad
  obtain ⟨⟨⟨h₁, h₂⟩, emptied, hemptied, -, hstays⟩, hdead⟩ := hbad
  have hended : ∀ t, s'.txns t = none := by
    intro t
    by_cases h : t = 1 ∨ t = 2
    · rcases h with rfl | rfl
      · exact h₁
      · exact h₂
    · -- The labels of the run name two transactions, and no other one ever begins.
      obtain ⟨hne₁, hne₂⟩ := not_or.mp h
      have hframe : ∀ s l s' t', step settings s l = some s' → t' ≠ Label.txn l →
          State.txns s' t' = State.txns s t' :=
        fun _ _ _ t' hstep hne => (writes_of_step hstep).2 t' hne
      have hother : ∀ l ∈ together, t ≠ Label.txn l := by
        simp [together, Label.txn, hne₁, hne₂]
      rw [Records.eq_of_run hframe hother hrun]
      exact start_pair.txns t
  have hsound := hall settings pair s' together start_pair hrun hended
  obtain ⟨row, hrow, hlive, -⟩ := hsound.nonempty emptied hemptied hstays
  rw [hdead row hrow] at hlive
  cases hlive

end RedTeaming.Conversations.Groups
