import RedTeaming.Auth.OwnerSystem

/-!
# `RedTeaming.Auth.Ownership`: every group keeps an owner

`HasOwner s o` says that a live user holds a live row of the protected role on `o`. Two removals
of owners of one object cannot both pass their guard: the `FOR UPDATE` that starts later finds the
row that the other one takes away, so they wait for each other (`Inv.exclusive`). Between its
guard and its commit, the other owner that a removal counted is therefore safe from every other
removal.

The argument needs each removal to know the rows it takes away. `set_member_roles` and
`remove_member` tombstone the rows they read. A deletion takes away every row of its user, also
one that was granted after it read them. Such a grant escapes its locks and its guard. `Settled`
is the condition that leaves it out, and `keeps_owner` the invariant under it. `loses_owner` is a
run with such a grant that leaves an object without an owner.
-/

set_option autoImplicit false

namespace RedTeaming.Auth.Owners

open RedTeaming.Library

/-- A live user holds a live row of the protected role on the object. -/
def HasOwner (cat : Catalog) (s : State) (o : ObjectId) : Prop :=
  ∃ a ∈ s.rows, a.live = true ∧ a.object = o ∧ a.role = cat.owner ∧ s.liveUser a.user = true

instance (cat : Catalog) (s : State) (o : ObjectId) : Decidable (HasOwner cat s o) := by
  unfold HasOwner
  infer_instance

/-- The same, with a user other than `u`. -/
def HasOtherOwner (cat : Catalog) (s : State) (o : ObjectId) (u : UserId) : Prop :=
  ∃ a ∈ s.rows, a.live = true ∧ a.object = o ∧ a.role = cat.owner ∧ a.user ≠ u ∧
    s.liveUser a.user = true

/-- The transaction has read the rows it decides on. -/
def Txn.hasRead (txn : Txn) : Prop := txn.phase ≠ .begun ∧ txn.phase ≠ .loaded

/-- The row of an id is live. -/
def Live (s : State) (i : RowId) (a : Assignment) : Prop := s.rows[i]? = some a ∧ a.live = true

/-- The rows of the protected role that the deletion of a user takes away. -/
def Request.takes (cat : Catalog) (rows : List Assignment) : Request → List RowId
  | .delete u => select rows fun a => a.user == u && a.role == cat.owner
  | _ => []

/-- The condition on a step: a deletion that commits has read every live row of the protected role
that its user holds. So no grant of the role to the user came after its read. -/
def Settled (cat : Catalog) (s : State) : Label → Prop
  | .commit t => ∀ txn ∈ s.txns t, txn.request.takes cat s.rows ⊆ txn.own
  | _ => True

instance (cat : Catalog) (s : State) (l : Label) : Decidable (Settled cat s l) := by
  cases l <;> unfold Settled <;> infer_instance

/-- No transaction is open yet. -/
def Start (s : State) : Prop := ∀ t, s.txns t = none

/-- The `FOR UPDATE` of the transaction has started, or it has nothing to lock. -/
def Txn.started (txn : Txn) : Prop := (∃ todo, txn.phase = .locking todo) ∨ txn.phase = .checked

/-- What holds of an open transaction. -/
structure TxnOk (cat : Catalog) (s : State) (t : TxnId) (txn : Txn) : Prop where
  /-- The rows at stake are rows of its user. -/
  own_row : ∀ i ∈ txn.own, ∃ a, s.rows[i]? = some a ∧ a.role = cat.owner ∧
    a.user = txn.request.user
  /-- The rows it drops are of its user, and those of the protected role are at stake. -/
  drop_row : ∀ i, i ∈ txn.drops ∨ i ∈ txn.tombstoned → ∃ a, s.rows[i]? = some a ∧
    a.user = txn.request.user ∧ (a.role = cat.owner → i ∈ txn.own)
  /-- The rows it wants to lock are rows. -/
  snapshot_row : ∀ i ∈ txn.snapshot, i < s.rows.length
  /-- Its `FOR UPDATE` starts with the rows at stake. -/
  own_snapshot : txn.started → ∀ i ∈ txn.own, ∀ a, Live s i a → i ∈ txn.snapshot
  /-- It holds the rows that it does not want any more. -/
  locking : ∀ todo, txn.phase = .locking todo → ∀ i ∈ txn.snapshot, ∀ a, Live s i a →
    i ∈ todo ∨ s.rowLock i = some t
  locked : txn.phase = .checked → ∀ i ∈ txn.snapshot, ∀ a, Live s i a → s.rowLock i = some t
  /-- Past the guard, each object at stake has another owner. -/
  guarded : txn.phase = .checked → ∀ i ∈ txn.own, ∀ a, Live s i a →
    HasOtherOwner cat s a.object txn.request.user
  /-- Only a deletion takes a user away. -/
  deletes : txn.deletedUser = true → ∃ u, txn.request = .delete u
  /-- Nothing is planned before the read. -/
  unread : ¬ txn.hasRead → txn.own = [] ∧ txn.snapshot = [] ∧ txn.drops = [] ∧
    txn.tombstoned = [] ∧ txn.deletedUser = false

/-- What holds in every reachable state: each transaction is as it should be, and of two that lock
for rows of one object, one finds the row of the other. -/
structure Inv (cat : Catalog) (s : State) : Prop where
  txn : ∀ t txn, s.txns t = some txn → TxnOk cat s t txn
  pair : ∀ t t' txn txn', t ≠ t' → s.txns t = some txn → s.txns t' = some txn' → txn.started →
    txn'.started → ∀ i ∈ txn.own, ∀ j ∈ txn'.own, ∀ a b, Live s i a → Live s j b →
    a.object = b.object → i ∈ txn'.snapshot ∨ j ∈ txn.snapshot

section
variable {cat : Catalog} {s s' : State} {t : TxnId} {txn txn' : Txn}

/-- The row of an id is unique. -/
theorem Live.eq {i : RowId} {a b : Assignment} (h : Live s i a) (h' : s.rows[i]? = some b) :
    a = b := by
  have := h.1.symm.trans h'
  exact Option.some.inj this

/-- Two transactions past their guards take away rows of different objects. -/
theorem Inv.exclusive (h : Inv cat s) {t t' : TxnId} {txn txn' : Txn} (hne : t ≠ t')
    (ht : s.txns t = some txn) (ht' : s.txns t' = some txn') (hphase : txn.phase = .checked)
    (hphase' : txn'.phase = .checked) {i j : RowId} {a b : Assignment} (hi : i ∈ txn.own)
    (hj : j ∈ txn'.own) (hlive : Live s i a) (hlive' : Live s j b) : a.object ≠ b.object := by
  intro hobject
  have hok := h.txn t txn ht
  have hok' := h.txn t' txn' ht'
  have hstart : txn.started := Or.inr hphase
  have hstart' : txn'.started := Or.inr hphase'
  -- The row that both snapshots have would be locked by both.
  rcases h.pair t t' txn txn' hne ht ht' hstart hstart' i hi j hj a b hlive hlive' hobject with
    hmem | hmem
  · have h₁ := hok.locked hphase i (hok.own_snapshot hstart i hi a hlive) a hlive
    have h₂ := hok'.locked hphase' i hmem a hlive
    exact hne (Option.some.inj (h₁.symm.trans h₂))
  · have h₁ := hok.locked hphase j hmem b hlive'
    have h₂ := hok'.locked hphase' j (hok'.own_snapshot hstart' j hj b hlive') b hlive'
    exact hne (Option.some.inj (h₁.symm.trans h₂))

/-- What a step that writes no row does: the record of `t` changes, and the others keep their
locks. -/
structure Quiet (s s' : State) (t : TxnId) (txn' : Txn) : Prop where
  rows : s'.rows = s.rows
  liveUser : s'.liveUser = s.liveUser
  txns : s'.txns = Function.update s.txns t (some txn')
  locks : ∀ i t', t' ≠ t → s.rowLock i = some t' → s'.rowLock i = some t'

theorem Quiet.live (hq : Quiet s s' t txn') {i : RowId} {a : Assignment} :
    Live s' i a ↔ Live s i a := by
  rw [Live, Live, hq.rows]

theorem Quiet.hasOtherOwner (hq : Quiet s s' t txn') {o : ObjectId} {u : UserId} :
    HasOtherOwner cat s' o u ↔ HasOtherOwner cat s o u := by
  rw [HasOtherOwner, HasOtherOwner, hq.rows, hq.liveUser]

/-- A step of another transaction leaves a record right when it moves no row, revives none, takes
no lock away, and leaves the guarded objects their owners. -/
theorem TxnOk.frame (h : TxnOk cat s t txn)
    (hrows : ∀ (i : RowId) (a : Assignment), s.rows[i]? = some a →
      ∃ b, s'.rows[i]? = some b ∧ b.role = a.role ∧ b.user = a.user)
    (hlive : ∀ i b, i < s.rows.length → Live s' i b → Live s i b)
    (hlocks : ∀ i, s.rowLock i = some t → s'.rowLock i = some t)
    (hguarded : txn.phase = .checked → ∀ i ∈ txn.own, ∀ a, Live s' i a → Live s i a →
      HasOtherOwner cat s' a.object txn.request.user) : TxnOk cat s' t txn := by
  -- No step revives a row, so what is live now was live before.
  have hown : ∀ i ∈ txn.own, ∀ b, Live s' i b → Live s i b := by
    intro i hi b hb
    obtain ⟨a, ha, -, -⟩ := h.own_row i hi
    exact hlive i b (List.getElem?_eq_some_iff.mp ha).1 hb
  have hsnapshot : ∀ i ∈ txn.snapshot, ∀ b, Live s' i b → Live s i b := by
    intro i hi b hb
    exact hlive i b (h.snapshot_row i hi) hb
  refine
    { own_row := ?_, drop_row := ?_, snapshot_row := ?_, own_snapshot := ?_, locking := ?_
      locked := ?_, guarded := ?_, deletes := h.deletes, unread := h.unread }
  · intro i hi
    obtain ⟨a, ha, howner, huser⟩ := h.own_row i hi
    obtain ⟨b, hb, hrole, huser'⟩ := hrows i a ha
    exact ⟨b, hb, hrole.trans howner, huser'.trans huser⟩
  · intro i hi
    obtain ⟨a, ha, huser, howner⟩ := h.drop_row i hi
    obtain ⟨b, hb, hrole, huser'⟩ := hrows i a ha
    rw [← hrole] at howner
    exact ⟨b, hb, huser'.trans huser, howner⟩
  · intro i hi
    have hlt := h.snapshot_row i hi
    obtain ⟨b, hb, -, -⟩ := hrows i s.rows[i] (List.getElem?_eq_getElem hlt)
    exact (List.getElem?_eq_some_iff.mp hb).1
  · intro hstart i hi b hb
    exact h.own_snapshot hstart i hi b (hown i hi b hb)
  · intro todo hphase i hi b hb
    -- A row that was locked is locked still.
    rcases h.locking todo hphase i hi b (hsnapshot i hi b hb) with hmem | hheld
    · exact Or.inl hmem
    · exact Or.inr (hlocks i hheld)
  · intro hphase i hi b hb
    exact hlocks i (h.locked hphase i hi b (hsnapshot i hi b hb))
  · intro hphase i hi b hb
    exact hguarded hphase i hi b hb (hown i hi b hb)

/-- A quiet step of another transaction. -/
theorem TxnOk.quiet {t₁ : TxnId} {txn₁ : Txn} (h : TxnOk cat s t₁ txn₁) (hq : Quiet s s' t txn')
    (hne : t₁ ≠ t) : TxnOk cat s' t₁ txn₁ := by
  apply h.frame
  · intro i a ha
    rw [hq.rows]
    exact ⟨a, ha, rfl, rfl⟩
  · intro i b _ hb
    exact hq.live.mp hb
  · exact fun i => hq.locks i t₁ hne
  · intro hphase i hi a _ ha
    exact hq.hasOtherOwner.mpr (h.guarded hphase i hi a ha)

/-- A quiet step keeps the invariant when the record of `t` is right after it, and meets the rows
of the other transactions. -/
theorem Inv.quiet (h : Inv cat s) (hq : Quiet s s' t txn') (hok : TxnOk cat s' t txn')
    (hpair : txn'.started → ∀ t₁ txn₁, t₁ ≠ t → s.txns t₁ = some txn₁ → txn₁.started →
      ∀ i ∈ txn'.own, ∀ j ∈ txn₁.own, ∀ a b, Live s i a → Live s j b → a.object = b.object →
      i ∈ txn₁.snapshot ∨ j ∈ txn'.snapshot) : Inv cat s' where
  txn t₁ txn₁ ht₁ := by
    rw [hq.txns, update_some_eq_some] at ht₁
    rcases ht₁ with ⟨rfl, rfl⟩ | ⟨hne, ht₁⟩
    · exact hok
    · exact (h.txn t₁ txn₁ ht₁).quiet hq hne
  pair t₁ t₂ txn₁ txn₂ hne ht₁ ht₂ hstart₁ hstart₂ i hi j hj a b ha hb hobject := by
    rw [hq.live] at ha hb
    rw [hq.txns, update_some_eq_some] at ht₁ ht₂
    rcases ht₁ with ⟨rfl, rfl⟩ | ⟨hne₁, ht₁⟩
    · rcases ht₂ with ⟨rfl, rfl⟩ | ⟨hne₂, ht₂⟩
      · exact absurd rfl hne
      · exact hpair hstart₁ t₂ txn₂ hne₂ ht₂ hstart₂ i hi j hj a b ha hb hobject
    · rcases ht₂ with ⟨rfl, rfl⟩ | ⟨hne₂, ht₂⟩
      · exact (hpair hstart₂ t₁ txn₁ hne₁ ht₁ hstart₁ j hj i hi b a hb ha hobject.symm).symm
      · exact h.pair t₁ t₂ txn₁ txn₂ hne ht₁ ht₂ hstart₁ hstart₂ i hi j hj a b ha hb hobject

/-- A quiet step that keeps the rows at stake and the snapshot of a started transaction. -/
theorem Inv.quiet_same (h : Inv cat s) (hq : Quiet s s' t txn') (ht : s.txns t = some txn)
    (hstart : txn.started) (hown : txn'.own = txn.own) (hsnapshot : txn'.snapshot = txn.snapshot)
    (hok : TxnOk cat s' t txn') : Inv cat s' := by
  refine h.quiet hq hok ?_
  intro _ t₁ txn₁ hne ht₁ hstart₁ i hi j hj a b ha hb hobject
  rw [hown] at hi
  rw [hsnapshot]
  exact h.pair t t₁ txn txn₁ hne.symm ht ht₁ hstart hstart₁ i hi j hj a b ha hb hobject

/-! ### What a request reads -/

/-- A row of the protected role that a request takes away is a live row of its user. -/
theorem mem_ownerRows {rows : List Assignment} {request : Request} {i : RowId}
    (h : i ∈ ownerRows cat rows request) :
    ∃ a, rows[i]? = some a ∧ a.live = true ∧ a.role = cat.owner ∧ a.user = request.user := by
  cases request with
  | setRoles o u roles =>
    obtain ⟨a, ha, hlive, hp⟩ := mem_select.mp h
    simp only [isMember, Bool.and_eq_true, beq_iff_eq] at hp
    exact ⟨a, ha, hlive, hp.2, hp.1.1.2⟩
  | remove o u =>
    obtain ⟨a, ha, hlive, hp⟩ := mem_select.mp h
    simp only [isMember, Bool.and_eq_true, beq_iff_eq] at hp
    exact ⟨a, ha, hlive, hp.2, hp.1.2⟩
  | add o u roles => cases h
  | delete u =>
    obtain ⟨a, ha, hlive, hp⟩ := mem_select.mp h
    simp only [Bool.and_eq_true, beq_iff_eq] at hp
    exact ⟨a, ha, hlive, hp.2, hp.1⟩

/-- A row that a request plans to drop is a row of its user, and is at stake when it has the
protected role. -/
theorem mem_drops_of_plan {rows : List Assignment} {request : Request}
    {drops : List RowId} {grants : List RoleId} (h : plan cat rows request = some (drops, grants))
    {i : RowId} (hi : i ∈ drops) : ∃ a, rows[i]? = some a ∧ a.user = request.user ∧
      (a.role = cat.owner → i ∈ ownerRows cat rows request) := by
  cases request with
  | setRoles o u roles =>
    simp only [plan] at h
    split at h
    · cases h
    · cases h
      -- A dropped row is a row of the user. With the protected role it is an owner row, too.
      obtain ⟨a, ha, hlive, hp⟩ := mem_select.mp hi
      have hmember := hp
      simp only [isMember, Bool.and_eq_true, beq_iff_eq] at hmember
      refine ⟨a, ha, hmember.1.2, fun howner => mem_select.mpr ⟨a, ha, hlive, ?_⟩⟩
      rw [hp, howner, beq_self_eq_true]
      rfl
  | remove o u =>
    simp only [plan] at h
    split at h
    · cases h
    · cases h
      obtain ⟨a, ha, hlive, hp⟩ := mem_select.mp hi
      have hmember := hp
      simp only [isMember, Bool.and_eq_true, beq_iff_eq] at hmember
      refine ⟨a, ha, hmember.2, fun howner => mem_select.mpr ⟨a, ha, hlive, ?_⟩⟩
      rw [hp, howner, beq_self_eq_true]
      rfl
  | add o u roles =>
    simp only [plan] at h
    split at h
    · cases h
      cases hi
    · cases h
  | delete u =>
    cases h
    cases hi

/-- The object of a row at stake is locked and guarded. -/
theorem mem_objectsOf {rows : List Assignment} {ids : List RowId} {i : RowId} {a : Assignment}
    (hi : i ∈ ids) (ha : rows[i]? = some a) : a.object ∈ objectsOf rows ids :=
  List.mem_filterMap.mpr ⟨i, hi, by rw [ha]; rfl⟩

/-! ### The steps that write no row -/

/-- A record that has read nothing is right. -/
theorem TxnOk.of_unread (hown : txn.own = []) (hsnapshot : txn.snapshot = [])
    (hdrops : txn.drops = []) (htomb : txn.tombstoned = []) (hdeleted : txn.deletedUser = false) :
    TxnOk cat s t txn where
  own_row i hi := by
    rw [hown] at hi
    cases hi
  drop_row i hi := by
    rw [hdrops, htomb] at hi
    rcases hi with hi | hi <;> cases hi
  snapshot_row i hi := by
    rw [hsnapshot] at hi
    cases hi
  own_snapshot _ i hi := by
    rw [hown] at hi
    cases hi
  locking _ _ i hi := by
    rw [hsnapshot] at hi
    cases hi
  locked _ i hi := by
    rw [hsnapshot] at hi
    cases hi
  guarded _ i hi := by
    rw [hown] at hi
    cases hi
  deletes h := by
    rw [hdeleted] at h
    cases h
  unread _ := ⟨hown, hsnapshot, hdrops, htomb, hdeleted⟩

/-- A record that has read nothing has not started its `FOR UPDATE`. -/
theorem Txn.not_started (hread : ¬ txn.hasRead) : ¬ txn.started := by
  intro hstart
  apply hread
  rcases hstart with ⟨todo, hphase⟩ | hphase
  · exact ⟨by rw [hphase]; exact fun h => (nomatch h), by rw [hphase]; exact fun h => (nomatch h)⟩
  · exact ⟨by rw [hphase]; exact fun h => (nomatch h), by rw [hphase]; exact fun h => (nomatch h)⟩

theorem Inv.begin {request : Request} (h : Inv cat s) (hstep : s.begin t request = some s') :
    Inv cat s' := by
  unfold State.begin at hstep
  split at hstep
  · cases hstep
  · cases hstep
    refine h.quiet ⟨rfl, rfl, rfl, fun _ _ _ hheld => hheld⟩ ?_ ?_
    · exact .of_unread rfl rfl rfl rfl rfl
    · intro hstart
      refine absurd hstart (Txn.not_started ?_)
      rintro ⟨hbegun, hloaded⟩
      cases request with
      | remove o u => exact hloaded rfl
      | setRoles o u roles => exact hbegun rfl
      | add o u roles => exact hbegun rfl
      | delete u => exact hbegun rfl

theorem Inv.loadUser (h : Inv cat s) (ht : s.txns t = some txn)
    (hstep : s.loadUser t txn = some s') : Inv cat s' := by
  unfold State.loadUser at hstep
  split at hstep
  · rename_i hphase
    cases hstep
    have hunread : ¬ txn.hasRead := fun hread => hread.1 hphase.1
    obtain ⟨hown, hsnapshot, hdrops, htomb, hdeleted⟩ := (h.txn t txn ht).unread hunread
    have hread : ¬ Txn.hasRead { txn with phase := .loaded } := fun hread => hread.2 rfl
    refine h.quiet ⟨rfl, rfl, rfl, fun _ _ _ hheld => hheld⟩ ?_ ?_
    · exact .of_unread hown hsnapshot hdrops htomb hdeleted
    · exact fun hstart => absurd hstart (Txn.not_started hread)
  · cases hstep

theorem Inv.read (h : Inv cat s) (ht : s.txns t = some txn) (hstep : s.read cat t txn = some s') :
    Inv cat s' := by
  unfold State.read at hstep
  split at hstep
  · rename_i hphase
    split at hstep
    · cases hstep
    · rename_i drops grants hplan
      cases hstep
      have hunread : ¬ txn.hasRead := fun hread => hread.2 hphase
      obtain ⟨-, hsnapshot, -, htomb, hdeleted⟩ := (h.txn t txn ht).unread hunread
      -- A transaction that goes on without the `FOR UPDATE` has no row at stake.
      have hnone : ∀ {txn' : Txn}, txn'.own = ownerRows cat s.rows txn.request →
          txn'.phase = (if ownerRows cat s.rows txn.request = [] then .checked else .read) →
          txn'.started → txn'.own = [] := by
        intro txn' hown hphase' hstart
        by_cases hempty : ownerRows cat s.rows txn.request = []
        · rw [hown, hempty]
        · rw [if_neg hempty] at hphase'
          rcases hstart with ⟨todo, hlock⟩ | hcheck
          · rw [hphase'] at hlock
            cases hlock
          · rw [hphase'] at hcheck
            cases hcheck
      refine h.quiet ⟨rfl, rfl, rfl, fun _ _ _ hheld => hheld⟩ ?_ ?_
      · refine
          { own_row := ?_, drop_row := ?_, snapshot_row := ?_, own_snapshot := ?_, locking := ?_
            locked := ?_, guarded := ?_, deletes := ?_, unread := ?_ }
        · intro i hi
          obtain ⟨a, ha, -, howner, huser⟩ := mem_ownerRows hi
          exact ⟨a, ha, howner, huser⟩
        · rintro i (hi | hi)
          · exact mem_drops_of_plan hplan hi
          · rw [htomb] at hi
            cases hi
        · intro i hi
          rw [hsnapshot] at hi
          cases hi
        · intro hstart i hi
          rw [hnone rfl rfl hstart] at hi
          cases hi
        · intro _ _ i hi
          rw [hsnapshot] at hi
          cases hi
        · intro _ i hi
          rw [hsnapshot] at hi
          cases hi
        · intro hcheck i hi
          rw [hnone rfl rfl (Or.inr hcheck)] at hi
          cases hi
        · intro hdel
          rw [hdeleted] at hdel
          cases hdel
        · intro hread
          refine absurd ?_ hread
          show (if _ then Phase.checked else Phase.read) ≠ _ ∧
            (if _ then Phase.checked else Phase.read) ≠ _
          split
          · exact ⟨fun h => (nomatch h), fun h => (nomatch h)⟩
          · exact ⟨fun h => (nomatch h), fun h => (nomatch h)⟩
      · intro hstart _ _ _ _ _ i hi
        rw [hnone rfl rfl hstart] at hi
        cases hi
  · cases hstep

theorem Inv.beginLock (h : Inv cat s) (ht : s.txns t = some txn)
    (hstep : s.beginLock cat t txn = some s') : Inv cat s' := by
  unfold State.beginLock at hstep
  split at hstep
  · rename_i hphase
    cases hstep
    have hok := h.txn t txn ht
    -- Every live row of the protected role on an object at stake is in the snapshot.
    have hmem : ∀ i ∈ txn.own, ∀ a, Live s i a → ∀ j b, Live s j b → b.role = cat.owner →
        a.object = b.object → j ∈ select s.rows fun a =>
          (objectsOf s.rows txn.own).contains a.object && a.role == cat.owner := by
      intro i hi a ha j b hb howner hobject
      have hcontains : (objectsOf s.rows txn.own).contains b.object = true := by
        rw [List.contains_iff_mem, ← hobject]
        exact mem_objectsOf hi ha.1
      refine mem_select.mpr ⟨b, hb.1, hb.2, ?_⟩
      rw [hcontains, howner, beq_self_eq_true]
      rfl
    have hrole : ∀ {t₁ : TxnId} {txn₁ : Txn}, s.txns t₁ = some txn₁ → ∀ j ∈ txn₁.own, ∀ b,
        Live s j b → b.role = cat.owner := by
      intro t₁ txn₁ ht₁ j hj b hb
      obtain ⟨a, ha, howner, -⟩ := (h.txn t₁ txn₁ ht₁).own_row j hj
      rw [hb.eq ha]
      exact howner
    refine h.quiet ⟨rfl, rfl, rfl, fun _ _ _ hheld => hheld⟩ ?_ ?_
    · refine
        { own_row := hok.own_row, drop_row := hok.drop_row, snapshot_row := ?_, own_snapshot := ?_
          locking := ?_, locked := fun hcheck => (nomatch hcheck)
          guarded := fun hcheck => (nomatch hcheck), deletes := hok.deletes, unread := ?_ }
      · intro i hi
        obtain ⟨a, ha, -, -⟩ := mem_select.mp hi
        exact (List.getElem?_eq_some_iff.mp ha).1
      · intro _ i hi a ha
        exact hmem i hi a ha i a ha (hrole ht i hi a ha) rfl
      · intro todo htodo i hi a _
        cases htodo
        exact Or.inl hi
      · intro hread
        exact absurd ⟨fun h => (nomatch h), fun h => (nomatch h)⟩ hread
    · intro _ t₁ txn₁ _ ht₁ _ i hi j hj a b ha hb hobject
      exact Or.inr (hmem i hi a ha j b hb (hrole ht₁ j hj b hb) hobject)
  · cases hstep

/-- A transaction that has started its `FOR UPDATE` has read. -/
theorem Txn.started.hasRead (h : txn.started) : txn.hasRead := by
  by_contra hread
  exact Txn.not_started hread h

/-- A started transaction goes on: its plan gets no new row, and the locks and the guard are as
its phase wants. -/
theorem TxnOk.advance (h : TxnOk cat s t txn) (hq : Quiet s s' t txn') (hstart : txn.started)
    (hstart' : txn'.started) (hrequest : txn'.request = txn.request) (hown : txn'.own = txn.own)
    (hsnapshot : txn'.snapshot = txn.snapshot)
    (hdrops : ∀ i, i ∈ txn'.drops ∨ i ∈ txn'.tombstoned → i ∈ txn.drops ∨ i ∈ txn.tombstoned)
    (hlocking : ∀ todo, txn'.phase = .locking todo → ∀ i ∈ txn.snapshot, ∀ a, Live s i a →
      i ∈ todo ∨ s'.rowLock i = some t)
    (hlocked : txn'.phase = .checked → ∀ i ∈ txn.snapshot, ∀ a, Live s i a →
      s'.rowLock i = some t)
    (hguarded : txn'.phase = .checked → ∀ i ∈ txn.own, ∀ a, Live s i a →
      HasOtherOwner cat s a.object txn.request.user)
    (hdeletes : txn'.deletedUser = true → ∃ u, txn.request = .delete u) :
    TxnOk cat s' t txn' where
  -- No row has changed, so each part is that of the phase before, or one of the hypotheses.
  own_row := by
    rw [hq.rows, hown, hrequest]
    exact h.own_row
  drop_row i hi := by
    rw [hq.rows, hown, hrequest]
    exact h.drop_row i (hdrops i hi)
  snapshot_row := by
    rw [hq.rows, hsnapshot]
    exact h.snapshot_row
  own_snapshot _ := by
    rw [hown, hsnapshot]
    intro i hi a ha
    exact h.own_snapshot hstart i hi a (hq.live.mp ha)
  locking todo htodo i hi a ha := by
    rw [hsnapshot] at hi
    exact hlocking todo htodo i hi a (hq.live.mp ha)
  locked hphase i hi a ha := by
    rw [hsnapshot] at hi
    exact hlocked hphase i hi a (hq.live.mp ha)
  guarded hphase i hi a ha := by
    rw [hown] at hi
    rw [hrequest]
    exact hq.hasOtherOwner.mpr (hguarded hphase i hi a (hq.live.mp ha))
  deletes hdel := by
    rw [hrequest]
    exact hdeletes hdel
  unread hread := absurd hstart'.hasRead hread

theorem Inv.lockRow (h : Inv cat s) (ht : s.txns t = some txn)
    (hstep : s.lockRow t txn = some s') : Inv cat s' := by
  unfold State.lockRow at hstep
  split at hstep
  · rename_i i todo hphase
    have hok := h.txn t txn ht
    have hstart : txn.started := Or.inl ⟨_, hphase⟩
    split at hstep
    · split at hstep
      · rename_i hfree
        cases hstep
        have hq : Quiet s ({ s with rowLock := s.rowLock.take i t }.setTxn t
            { txn with phase := .locking todo }) t { txn with phase := .locking todo } :=
          ⟨rfl, rfl, rfl, fun _ _ _ hheld => Locks.held_take hfree hheld⟩
        apply h.quiet_same hq ht hstart rfl rfl
        apply hok.advance hq hstart (Or.inl ⟨todo, rfl⟩) rfl rfl rfl (fun _ hi => hi)
        · intro todo' htodo j hj a ha
          cases htodo
          rcases hok.locking _ hphase j hj a ha with hmem | hheld
          · rcases List.mem_cons.mp hmem with rfl | hmem
            · exact Or.inr (Locks.take_self _ _ _)
            · exact Or.inl hmem
          · exact Or.inr (Locks.held_take hfree hheld)
        · exact fun hcheck => (nomatch hcheck)
        · exact fun hcheck => (nomatch hcheck)
        · exact hok.deletes
      · cases hstep
    · rename_i htombstone
      cases hstep
      have hq : Quiet s (s.setTxn t { txn with phase := .locking todo }) t
          { txn with phase := .locking todo } := ⟨rfl, rfl, rfl, fun _ _ _ hheld => hheld⟩
      apply h.quiet_same hq ht hstart rfl rfl
      apply hok.advance hq hstart (Or.inl ⟨todo, rfl⟩) rfl rfl rfl (fun _ hi => hi)
      · intro todo' htodo j hj a ha
        cases htodo
        rcases hok.locking _ hphase j hj a ha with hmem | hheld
        · rcases List.mem_cons.mp hmem with rfl | hmem
          · -- The row is a tombstone, so there is nothing to lock.
            refine absurd ?_ htombstone
            rw [State.isLive, ha.1]
            exact ha.2
          · exact Or.inl hmem
        · exact Or.inr hheld
      · exact fun hcheck => (nomatch hcheck)
      · exact fun hcheck => (nomatch hcheck)
      · exact hok.deletes
  · cases hstep

/-- The guard of the code finds another owner. -/
theorem hasOtherOwner_of_otherOwner {o : ObjectId} {u : UserId}
    (h : otherOwner cat s o u = true) :
    HasOtherOwner cat s o u := by
  obtain ⟨a, hmem, ha⟩ := List.any_eq_true.mp h
  simp only [Bool.and_eq_true, beq_iff_eq, bne_iff_ne, ne_eq] at ha
  exact ⟨a, hmem, ha.1.1.1.1, ha.1.1.1.2, ha.1.1.2, ha.1.2, ha.2⟩

theorem Inv.check (h : Inv cat s) (ht : s.txns t = some txn)
    (hstep : s.check cat t txn = some s') : Inv cat s' := by
  unfold State.check at hstep
  split at hstep
  · rename_i hguard
    cases hstep
    have hok := h.txn t txn ht
    have hstart : txn.started := Or.inl ⟨_, hguard.1⟩
    have hq : Quiet s (s.setTxn t { txn with phase := .checked }) t
        { txn with phase := .checked } := ⟨rfl, rfl, rfl, fun _ _ _ hheld => hheld⟩
    apply h.quiet_same hq ht hstart rfl rfl
    apply hok.advance hq hstart (Or.inr rfl) rfl rfl rfl (fun _ hi => hi)
    · exact fun _ htodo => (nomatch htodo)
    · intro _ i hi a ha
      rcases hok.locking _ hguard.1 i hi a ha with hmem | hheld
      · cases hmem
      · exact hheld
    · intro _ i hi a ha
      have hmem := mem_objectsOf hi ha.1
      exact hasOtherOwner_of_otherOwner (List.all_eq_true.mp hguard.2 _ hmem)
    · exact hok.deletes
  · cases hstep

/-- A step past the guard: its plan gets no new row, and no lock is lost. -/
theorem Inv.checked (h : Inv cat s) (ht : s.txns t = some txn)
    (htxns : s'.txns = Function.update s.txns t (some txn')) (hphase : txn.phase = .checked)
    (hphase' : txn'.phase = .checked) (hrequest : txn'.request = txn.request)
    (hown : txn'.own = txn.own) (hsnapshot : txn'.snapshot = txn.snapshot)
    (hdrops : ∀ i, i ∈ txn'.drops ∨ i ∈ txn'.tombstoned → i ∈ txn.drops ∨ i ∈ txn.tombstoned)
    (hdeletes : txn'.deletedUser = true → ∃ u, txn.request = .delete u) (hrows : s'.rows = s.rows)
    (hliveUser : s'.liveUser = s.liveUser)
    (hlocks : ∀ i t', s.rowLock i = some t' → s'.rowLock i = some t') : Inv cat s' := by
  have hok := h.txn t txn ht
  have hq : Quiet s s' t txn' := ⟨hrows, hliveUser, htxns, fun i t' _ => hlocks i t'⟩
  apply h.quiet_same hq ht (Or.inr hphase) hown hsnapshot
  apply hok.advance hq (Or.inr hphase) (Or.inr hphase') hrequest hown hsnapshot hdrops
  · intro todo htodo
    rw [hphase'] at htodo
    cases htodo
  · intro _ i hi a ha
    exact hlocks i t (hok.locked hphase i hi a ha)
  · exact fun _ => hok.guarded hphase
  · exact hdeletes

theorem Inv.drop (h : Inv cat s) (ht : s.txns t = some txn) (hstep : s.drop t txn = some s') :
    Inv cat s' := by
  unfold State.drop at hstep
  split at hstep
  · rename_i i drops hphase hdrops
    split at hstep
    · rename_i hfree
      cases hstep
      refine h.checked ht rfl hphase hphase rfl rfl rfl ?_ (h.txn t txn ht).deletes rfl rfl
        fun _ _ hheld => Locks.held_take hfree hheld
      intro j hj
      rw [hdrops]
      rcases hj with hj | hj
      · exact Or.inl (List.mem_cons_of_mem _ hj)
      · rcases List.mem_cons.mp hj with rfl | hj
        · exact Or.inl List.mem_cons_self
        · exact Or.inr hj
    · cases hstep
  · cases hstep

theorem Inv.deleteUser (h : Inv cat s) (ht : s.txns t = some txn)
    (hstep : s.deleteUser t txn = some s') : Inv cat s' := by
  unfold State.deleteUser at hstep
  split at hstep
  · rename_i u hphase hrequest
    split at hstep
    · cases hstep
      exact h.checked ht rfl hphase hphase rfl rfl rfl (fun _ hj => hj) (fun _ => ⟨u, hrequest⟩)
        rfl rfl fun _ _ hheld => hheld
    · cases hstep
  · cases hstep

theorem Inv.grant (h : Inv cat s) (ht : s.txns t = some txn) (hstep : s.grant t txn = some s') :
    Inv cat s' := by
  unfold State.grant at hstep
  split at hstep
  · rename_i r grants o hphase hdrops hgrants hobject
    dsimp only at hstep
    split at hstep
    · cases hstep
      exact h.checked ht rfl hphase hphase rfl rfl rfl (fun _ hj => hj) (h.txn t txn ht).deletes
        rfl rfl fun _ _ hheld => hheld
    · cases hstep
  · cases hstep

/-! ### The end of a transaction -/

/-- A row after a commit: its tombstone, or the row. -/
theorem getElem?_written {i : RowId} {a : Assignment} (ha : s.rows[i]? = some a) :
    (s.written txn)[i]? = some (if i ∈ txn.tombstoned then a.softDelete s.now else a) := by
  have hlt := (List.getElem?_eq_some_iff.mp ha).1
  rw [State.written, List.getElem?_append_left (by simpa using hlt), List.getElem?_mapIdx, ha]
  rfl

/-- A live row after a commit is a row from before that was not tombstoned, or an inserted one. -/
theorem live_of_written {i : RowId} {b : Assignment} (hb : (s.written txn)[i]? = some b)
    (hlive : b.live = true) (hlt : i < s.rows.length) : Live s i b ∧ i ∉ txn.tombstoned := by
  have ha : s.rows[i]? = some s.rows[i] := List.getElem?_eq_getElem hlt
  rw [getElem?_written ha] at hb
  cases hb
  by_cases hmem : i ∈ txn.tombstoned
  · rw [if_pos hmem] at hlive
    cases hlive
  · rw [if_neg hmem] at hlive ⊢
    exact ⟨⟨ha, hlive⟩, hmem⟩

/-- The removal of the others at its end. -/
structure Ended (cat : Catalog) (s s' : State) (t : TxnId) : Prop where
  txns : s'.txns = Function.update s.txns t none
  row : ∀ (i : RowId) (a : Assignment), s.rows[i]? = some a →
    ∃ b, s'.rows[i]? = some b ∧ b.role = a.role ∧ b.user = a.user
  live : ∀ i b, i < s.rows.length → Live s' i b → Live s i b
  locks : ∀ i t', t' ≠ t → s.rowLock i = some t' → s'.rowLock i = some t'

/-- The end of a transaction keeps the invariant when the guarded objects of the others keep their
owners. -/
theorem Inv.ended (h : Inv cat s) (he : Ended cat s s' t)
    (hguarded : ∀ t₁ txn₁, t₁ ≠ t → s.txns t₁ = some txn₁ → txn₁.phase = .checked →
      ∀ i ∈ txn₁.own, ∀ a, Live s' i a → Live s i a →
      HasOtherOwner cat s' a.object txn₁.request.user) : Inv cat s' where
  txn t₁ txn₁ ht₁ := by
    rw [he.txns, update_none_eq_some] at ht₁
    exact (h.txn t₁ txn₁ ht₁.2).frame he.row he.live (fun i => he.locks i t₁ ht₁.1)
      (hguarded t₁ txn₁ ht₁.1 ht₁.2)
  pair t₁ t₂ txn₁ txn₂ hne ht₁ ht₂ hstart₁ hstart₂ i hi j hj a b ha hb hobject := by
    rw [he.txns, update_none_eq_some] at ht₁ ht₂
    have hlive : ∀ {t₃ : TxnId} {txn₃ : Txn}, s.txns t₃ = some txn₃ → ∀ k ∈ txn₃.own, ∀ c,
        Live s' k c → Live s k c := by
      intro t₃ txn₃ ht₃ k hk c hc
      obtain ⟨d, hd, -, -⟩ := (h.txn t₃ txn₃ ht₃).own_row k hk
      exact he.live k c (List.getElem?_eq_some_iff.mp hd).1 hc
    exact h.pair t₁ t₂ txn₁ txn₂ hne ht₁.2 ht₂.2 hstart₁ hstart₂ i hi j hj a b
      (hlive ht₁.2 i hi a ha) (hlive ht₂.2 j hj b hb) hobject

theorem Inv.abort (h : Inv cat s) : Inv cat (s.finish t) := by
  refine h.ended ⟨rfl, fun i a ha => ⟨a, ha, rfl, rfl⟩, fun i b _ hb => hb, ?_⟩ ?_
  · exact fun i t' hne hheld => Locks.held_release hne hheld
  · exact fun t₁ txn₁ _ ht₁ hphase i hi a _ ha => (h.txn t₁ txn₁ ht₁).guarded hphase i hi a ha

theorem Inv.tick (h : Inv cat s) : Inv cat { s with now := s.now + 1 } where
  txn t₁ txn₁ ht₁ := by
    have hok := h.txn t₁ txn₁ ht₁
    exact hok.frame (fun i a ha => ⟨a, ha, rfl, rfl⟩) (fun i b _ hb => hb)
      (fun i hheld => hheld) (fun hphase i hi a _ ha => hok.guarded hphase i hi a ha)
  pair := h.pair

/-- A row that a commit does not tombstone is still there. -/
theorem mem_written {k : RowId} {a : Assignment} (ha : Live s k a) (hk : k ∉ txn.tombstoned) :
    a ∈ s.written txn := by
  have hget : (s.written txn)[k]? = _ := getElem?_written ha.1
  rw [if_neg hk] at hget
  exact List.mem_of_getElem? hget

/-- An owner that a commit does not leave is one whose row is at stake. -/
theorem Inv.kept_or_own (h : Inv cat s) (ht : s.txns t = some txn)
    (hsettled : Settled cat s (.commit t)) {k : RowId} {a : Assignment} (ha : Live s k a)
    (howner : a.role = cat.owner) (huser : s.liveUser a.user = true) :
    a ∈ s.written txn ∧ s.writtenUsers txn a.user = true ∨ k ∈ txn.own := by
  have hok := h.txn t txn ht
  by_cases hmem : k ∈ txn.tombstoned
  · obtain ⟨b, hb, -, hown⟩ := hok.drop_row k (Or.inr hmem)
    rw [← ha.eq hb] at hown
    exact Or.inr (hown howner)
  · cases hgone : s.writtenUsers txn a.user with
    | true =>
      exact Or.inl ⟨mem_written ha hmem, rfl⟩
    | false =>
      rw [State.writtenUsers, huser, Bool.true_and, Bool.not_eq_false', Bool.and_eq_true,
        beq_iff_eq] at hgone
      obtain ⟨u, hu⟩ := hok.deletes hgone.1
      rw [hu] at hgone
      apply Or.inr
      apply hsettled txn ht
      rw [hu]
      refine mem_select.mpr ⟨a, ha.1, ha.2, ?_⟩
      rw [← hgone.2, howner, beq_self_eq_true, Bool.and_true]
      exact beq_self_eq_true u

/-- A transaction takes no owner other than its user away. -/
theorem Inv.other_kept (h : Inv cat s) (ht : s.txns t = some txn) {k : RowId} {a : Assignment}
    (ha : Live s k a) (huser : s.liveUser a.user = true) (hne : a.user ≠ txn.request.user) :
    a ∈ s.written txn ∧ s.writtenUsers txn a.user = true := by
  have hmem : k ∉ txn.tombstoned := by
    intro hmem
    obtain ⟨b, hb, hown, -⟩ := (h.txn t txn ht).drop_row k (Or.inr hmem)
    rw [← ha.eq hb] at hown
    exact hne hown
  refine ⟨mem_written ha hmem, ?_⟩
  rw [State.writtenUsers, huser, beq_false_of_ne (Ne.symm hne), Bool.and_false]
  rfl

/-- A committing transaction is past its guard. -/
theorem phase_of_commit (hstep : s.commit t txn = some s') : txn.phase = .checked ∧
    s' = { s with rows := s.written txn, liveUser := s.writtenUsers txn }.finish t := by
  unfold State.commit at hstep
  split at hstep
  · rename_i hdone
    cases hstep
    simp only [State.isDone, Bool.and_eq_true, decide_eq_true_eq] at hdone
    exact ⟨hdone.1.1.1, rfl⟩
  · cases hstep

theorem Inv.commit (h : Inv cat s) (hsettled : Settled cat s (.commit t))
    (ht : s.txns t = some txn) (hstep : s.commit t txn = some s') : Inv cat s' := by
  obtain ⟨hphase, rfl⟩ := phase_of_commit hstep
  refine h.ended ⟨rfl, ?_, ?_, ?_⟩ ?_
  · intro i a ha
    refine ⟨_, getElem?_written ha, ?_⟩
    split
    · exact ⟨rfl, rfl⟩
    · exact ⟨rfl, rfl⟩
  · exact fun i b hlt hb => (live_of_written hb.1 hb.2 hlt).1
  · exact fun i t' hne hheld => Locks.held_release hne hheld
  · intro t₁ txn₁ hne ht₁ hphase₁ i hi a _ ha
    obtain ⟨b, hmem, hb, hobject, howner, huser, hlive⟩ :=
      (h.txn t₁ txn₁ ht₁).guarded hphase₁ i hi a ha
    obtain ⟨k, hk⟩ := List.mem_iff_getElem?.mp hmem
    rcases h.kept_or_own ht hsettled ⟨hk, hb⟩ howner hlive with hkept | hown
    · exact ⟨b, hkept.1, hb, hobject, howner, huser, hkept.2⟩
    · -- Both transactions are past their guards on one object.
      exact absurd hobject.symm (h.exclusive hne ht₁ ht hphase₁ hphase hi hown ha ⟨hk, hb⟩)

/-- A commit leaves every object an owner. -/
theorem Inv.hasOwner_commit (h : Inv cat s) (hsettled : Settled cat s (.commit t))
    (ht : s.txns t = some txn) (hstep : s.commit t txn = some s') {o : ObjectId}
    (ho : HasOwner cat s o) : HasOwner cat s' o := by
  obtain ⟨hphase, rfl⟩ := phase_of_commit hstep
  obtain ⟨a, hmem, ha, hobject, howner, hlive⟩ := ho
  obtain ⟨k, hk⟩ := List.mem_iff_getElem?.mp hmem
  rcases h.kept_or_own ht hsettled ⟨hk, ha⟩ howner hlive with hkept | hown
  · exact ⟨a, hkept.1, ha, hobject, howner, hkept.2⟩
  · -- The guard has found an owner whom this transaction does not touch.
    obtain ⟨b, hmem', hb, hobject', howner', huser, hlive'⟩ :=
      (h.txn t txn ht).guarded hphase k hown a ⟨hk, ha⟩
    obtain ⟨j, hj⟩ := List.mem_iff_getElem?.mp hmem'
    have hkept := h.other_kept ht ⟨hj, hb⟩ hlive' huser
    exact ⟨b, hkept.1, hb, hobject'.trans hobject, howner', hkept.2⟩

end

/-! ### Runs -/

/-- A statement is one of an open transaction. -/
theorem exists_txn {s s' : State} {t : TxnId} {f : Txn → Option State}
    (hstep : (s.txns t).bind f = some s') : ∃ txn, s.txns t = some txn ∧ f txn = some s' :=
  Option.bind_eq_some_iff.mp hstep

/-- The transaction whose statement, short of the commit, a label is. -/
def Label.statement : Label → Option TxnId
  | .loadUser t | .read t | .beginLock t | .lockRow t | .check t | .drop t | .deleteUser t
  | .grant t => some t
  | _ => none

/-- A statement commits nothing, and touches the record of its own transaction only. -/
theorem frame_of_statement {cat : Catalog} {s s' : State} {l : Label} {t : TxnId}
    (hl : l.statement = some t) (hstep : step cat s l = some s') :
    (∃ txn, s.txns t = some txn) ∧ s'.rows = s.rows ∧ s'.liveUser = s.liveUser ∧
      s'.begun = s.begun ∧ ∀ t', t' ≠ t → s'.txns t' = s.txns t' := by
  -- Each statement is one or two record updates, which its definition shows.
  cases l with
  | loadUser t =>
    cases hl
    obtain ⟨txn, ht, h⟩ := exists_txn hstep
    refine ⟨⟨txn, ht⟩, ?_⟩
    grind [State.loadUser]
  | read t =>
    cases hl
    obtain ⟨txn, ht, h⟩ := exists_txn hstep
    refine ⟨⟨txn, ht⟩, ?_⟩
    grind [State.read]
  | beginLock t =>
    cases hl
    obtain ⟨txn, ht, h⟩ := exists_txn hstep
    refine ⟨⟨txn, ht⟩, ?_⟩
    grind [State.beginLock]
  | lockRow t =>
    cases hl
    obtain ⟨txn, ht, h⟩ := exists_txn hstep
    refine ⟨⟨txn, ht⟩, ?_⟩
    grind [State.lockRow]
  | check t =>
    cases hl
    obtain ⟨txn, ht, h⟩ := exists_txn hstep
    refine ⟨⟨txn, ht⟩, ?_⟩
    grind [State.check]
  | drop t =>
    cases hl
    obtain ⟨txn, ht, h⟩ := exists_txn hstep
    refine ⟨⟨txn, ht⟩, ?_⟩
    grind [State.drop]
  | deleteUser t =>
    cases hl
    obtain ⟨txn, ht, h⟩ := exists_txn hstep
    refine ⟨⟨txn, ht⟩, ?_⟩
    grind [State.deleteUser]
  | grant t =>
    cases hl
    obtain ⟨txn, ht, h⟩ := exists_txn hstep
    refine ⟨⟨txn, ht⟩, ?_⟩
    grind [State.grant]
  | tick => cases hl
  | begin t request => cases hl
  | commit t => cases hl
  | abort t => cases hl

/-- The start of a request commits nothing. -/
theorem frame_of_begin {s s' : State} {t : TxnId} {request : Request}
    (hstep : s.begin t request = some s') : s'.rows = s.rows ∧ s'.liveUser = s.liveUser ∧
      s'.begun = t :: s.begun ∧ ∀ t', t' ≠ t → s'.txns t' = s.txns t' := by
  unfold State.begin at hstep
  split at hstep
  · cases hstep
  · cases hstep
    exact ⟨rfl, rfl, rfl, fun t' hne => State.setTxn_txns_of_ne hne⟩

theorem Inv.step {cat : Catalog} {s s' : State} {l : Label} (h : Inv cat s)
    (hsettled : Settled cat s l) (hstep : step cat s l = some s') : Inv cat s' := by
  cases l with
  | tick =>
    cases hstep
    exact h.tick
  | begin t request => exact h.begin hstep
  | loadUser t =>
    obtain ⟨txn, ht, hload⟩ := exists_txn hstep
    exact h.loadUser ht hload
  | read t =>
    obtain ⟨txn, ht, hread⟩ := exists_txn hstep
    exact h.read ht hread
  | beginLock t =>
    obtain ⟨txn, ht, hlock⟩ := exists_txn hstep
    exact h.beginLock ht hlock
  | lockRow t =>
    obtain ⟨txn, ht, hlock⟩ := exists_txn hstep
    exact h.lockRow ht hlock
  | check t =>
    obtain ⟨txn, ht, hcheck⟩ := exists_txn hstep
    exact h.check ht hcheck
  | drop t =>
    obtain ⟨txn, ht, hdrop⟩ := exists_txn hstep
    exact h.drop ht hdrop
  | deleteUser t =>
    obtain ⟨txn, ht, hdelete⟩ := exists_txn hstep
    exact h.deleteUser ht hdelete
  | grant t =>
    obtain ⟨txn, ht, hgrant⟩ := exists_txn hstep
    exact h.grant ht hgrant
  | commit t =>
    obtain ⟨txn, ht, hcommit⟩ := exists_txn hstep
    exact h.commit hsettled ht hcommit
  | abort t =>
    obtain ⟨txn, ht, rfl⟩ := Option.map_eq_some_iff.mp hstep
    exact h.abort

/-- A step leaves every object an owner. -/
theorem Inv.hasOwner_step {cat : Catalog} {s s' : State} {l : Label} (h : Inv cat s)
    (hsettled : Settled cat s l) (hstep : Owners.step cat s l = some s') {o : ObjectId}
    (ho : HasOwner cat s o) : HasOwner cat s' o := by
  have hsame : s'.rows = s.rows ∧ s'.liveUser = s.liveUser → HasOwner cat s' o := by
    rintro ⟨hrows, hliveUser⟩
    rw [HasOwner, hrows, hliveUser]
    exact ho
  cases hl : l.statement with
  | some t =>
    obtain ⟨-, hrows, hliveUser, -⟩ := frame_of_statement hl hstep
    exact hsame ⟨hrows, hliveUser⟩
  | none =>
    cases l with
    | tick =>
      cases hstep
      exact ho
    | begin t request =>
      obtain ⟨hrows, hliveUser, -⟩ := frame_of_begin hstep
      exact hsame ⟨hrows, hliveUser⟩
    | commit t =>
      obtain ⟨txn, ht, hcommit⟩ := exists_txn hstep
      exact h.hasOwner_commit hsettled ht hcommit ho
    | abort t =>
      obtain ⟨txn, -, rfl⟩ := Option.map_eq_some_iff.mp hstep
      exact ho
    | _ => cases hl

/-- Nothing is open at the start. -/
theorem Start.inv {cat : Catalog} {s : State} (h : Start s) : Inv cat s where
  txn t txn ht := by
    rw [h t] at ht
    cases ht
  pair t t' txn txn' _ ht := by
    rw [h t] at ht
    cases ht

/-- The open transactions are listed, so `openInsert` sees all of them. -/
def Listed (s : State) : Prop := ∀ t, s.txns t ≠ none → t ∈ s.begun

theorem Listed.step {cat : Catalog} {s s' : State} {l : Label} (h : Listed s)
    (hstep : step cat s l = some s') : Listed s' := by
  intro t' hopen
  -- The end of a transaction leaves no record that was not there.
  have hfinish : ∀ t, (s.finish t).txns t' ≠ none → t' ∈ s.begun := by
    intro t hend
    by_cases hne : t' = t
    · exact absurd (by rw [hne]; exact Function.update_self _ _ _) hend
    · have hsame : (s.finish t).txns t' = s.txns t' := Function.update_of_ne hne _ _
      rw [hsame] at hend
      exact h t' hend
  cases hl : l.statement with
  | some t =>
    obtain ⟨⟨txn, ht⟩, -, -, hbegun, hother⟩ := frame_of_statement hl hstep
    rw [hbegun]
    apply h t'
    by_cases hne : t' = t
    · rw [hne, ht]
      exact Option.some_ne_none txn
    · rwa [hother t' hne] at hopen
  | none =>
    cases l with
    | tick =>
      cases hstep
      exact h t' hopen
    | begin t request =>
      obtain ⟨-, -, hbegun, hother⟩ := frame_of_begin hstep
      rw [hbegun]
      by_cases hne : t' = t
      · rw [hne]
        exact List.mem_cons_self
      · rw [hother t' hne] at hopen
        exact List.mem_cons_of_mem t (h t' hopen)
    | commit t =>
      obtain ⟨txn, -, hcommit⟩ := exists_txn hstep
      obtain ⟨-, rfl⟩ := phase_of_commit hcommit
      exact hfinish t hopen
    | abort t =>
      obtain ⟨txn, -, rfl⟩ := Option.map_eq_some_iff.mp hstep
      exact hfinish t hopen
    | _ => cases hl

/-- **Every object keeps an owner.** In a run where every deletion that commits has read the rows
of its user, an object that starts with an owner has one in each state that the run reaches. -/
theorem keeps_owner {cat : Catalog} {s₀ s : State} {ls : List Label} (hstart : Start s₀)
    (hsettled : Along (step cat) (Settled cat) s₀ ls) (hrun : run (step cat) s₀ ls = some s)
    (o : ObjectId) (ho : HasOwner cat s₀ o) : HasOwner cat s o := by
  have hkeep : ∀ s l s', Inv cat s ∧ HasOwner cat s o → Settled cat s l →
      step cat s l = some s' → Inv cat s' ∧ HasOwner cat s' o :=
    fun s l s' h hl hstep => ⟨h.1.step hl hstep, h.1.hasOwner_step hl hstep h.2⟩
  exact (run_invariant_along hkeep ⟨hstart.inv, ho⟩ hsettled hrun).2

/-- Users 1 and 2 are live. User 1 owns object 7. -/
def oneOwner : State where
  rows := [{ object := 7, user := 1, role := 0 }]
  liveUser u := u == 1 || u == 2
  txns _ := none
  begun := []
  rowLock _ := none
  userLock _ := none
  now := 0

/-- Role 0 is the protected role, and no role is hidden. -/
def ownerRole : Catalog := { owner := 0, hidden := fun _ => false }

/-- User 1 hands object 7 over to user 2, and is deleted. -/
def handover : List Label :=
  [.begin 0 (.add 7 2 [0]), .loadUser 0, .read 0, .grant 0, .commit 0,
    .begin 1 (.delete 1), .loadUser 1, .read 1, .beginLock 1, .lockRow 1, .lockRow 1, .check 1,
    .deleteUser 1, .commit 1]

theorem keeps_owner_of_handover : ∃ s, run (step ownerRole) oneOwner handover = some s ∧
    s.liveUser 1 = false ∧ HasOwner ownerRole s 7 := by
  have hany : (run (step ownerRole) oneOwner handover).any (fun s => !s.liveUser 1) = true := by
    decide
  obtain ⟨s, hrun, hgone⟩ := exists_run_of_any hany
  have howner : HasOwner ownerRole oneOwner 7 := by decide
  exact ⟨s, hrun, by simpa using hgone, keeps_owner (fun _ => rfl) (by decide) hrun 7 howner⟩

/-- User 2 becomes an owner while the deletion of user 2 is open. So user 1 can be removed, and
the deletion, which has read that user 2 owns nothing, ends. -/
def grantDuringDeletion : List Label :=
  [.begin 0 (.delete 2), .loadUser 0, .read 0,
    .begin 1 (.add 7 2 [0]), .loadUser 1, .read 1, .grant 1, .commit 1,
    .begin 2 (.remove 7 1), .read 2, .beginLock 2, .lockRow 2, .lockRow 2, .check 2, .drop 2,
    .commit 2, .deleteUser 0, .commit 0]

/-- **An object can lose its last owner.** At the end no transaction is open, and object 7 has no
owner. -/
theorem loses_owner : ∃ s, Start oneOwner ∧ HasOwner ownerRole oneOwner 7 ∧
    run (step ownerRole) oneOwner grantDuringDeletion = some s ∧ Start s ∧
    ¬ HasOwner ownerRole s 7 := by
  have hany : (run (step ownerRole) oneOwner grantDuringDeletion).any
      (fun s => s.begun.all (fun t => (s.txns t).isNone) && !decide (HasOwner ownerRole s 7)) =
      true := by
    decide
  obtain ⟨s, hrun, hend⟩ := exists_run_of_any hany
  rw [Bool.and_eq_true, List.all_eq_true, Bool.not_eq_true', decide_eq_false_iff_not] at hend
  have hlisted :
      Listed s := run_invariant (fun _ _ _ => Listed.step) (fun _ h => absurd rfl h) hrun
  refine ⟨s, fun _ => rfl, by decide, hrun, ?_, hend.2⟩
  intro t
  by_contra hopen
  exact hopen (Option.isNone_iff_eq_none.mp (hend.1 t (hlisted t hopen)))

end RedTeaming.Auth.Owners
