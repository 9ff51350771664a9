import RedTeaming.Conversations.MessageStore

/-!
# `RedTeaming.Conversations.MessageInvariant`: what holds of the writers

`Inv` is the invariant of the system. Its part about one open transaction is `TxnOk`: the
transaction holds the lock of its conversation, the keys of the rows it inserted, and the rows it
updated, and what it will commit fits the committed store. `TxnOk.frame` says that no step of
another transaction breaks this, and one lemma for each statement says the same of the
transaction's own step.
-/

set_option autoImplicit false

namespace RedTeaming.Conversations

open RedTeaming.Library

/-- The keys of the rows that the transaction inserted. -/
def Txn.keys (txn : Txn) : List Key :=
  txn.turns.flatMap Turn.keys ++ txn.messages.flatMap Message.keys

/-- An update of the sweep seals the text again that its row has: the row is terminal, and sealed
while it has the ciphertext that the sweep read. -/
structure RewrapOk (env : Env) (store : Store) (id : MessageId) (stale fresh : String)
    (encrypted : Bool) : Prop where
  nonempty : stale ≠ ""
  text : unsealContent env.primitives env.settings fresh encrypted =
    unsealContent env.primitives env.settings stale true
  sealed : encrypted = true ∨ fresh = ""
  exists_row : ∃ m ∈ store.messages, m.id = id
  row : ∀ m ∈ store.messages, m.id = id →
    m.status ≠ .streaming ∧ (m.content = stale → m.contentEncrypted = true)

/-- An update of the sweep is right. The others need their guard only. -/
def WriteOk (env : Env) (store : Store) : MessageId × Write → Prop
  | (id, .rewrap stale fresh encrypted) => RewrapOk env store id stale fresh encrypted
  | _ => True

/-- The transaction has inserted no turn and no message. -/
def NoRows (txn : Txn) : Prop := txn.turns = [] ∧ txn.messages = []

/-- The transaction has inserted the next turn of its conversation. -/
def OpensTurn (store : Store) (txn : Txn) (turn : TurnId) : Prop :=
  ∃ e c, State.lockTarget txn.request = some (e, c) ∧
    txn.turns = [{ id := turn, conversation := c, index := (store.turnsOf c).length }]

/-- It has inserted the prompt and the first reply, too. -/
def OpensMessages (txn : Txn) (turn : TurnId) : Prop :=
  ∃ prompt reply, txn.messages = [reply, prompt] ∧ Opens turn prompt reply ∧
    reply.keys.Disjoint prompt.keys

/-- The reply to supersede is there, and has ended if it had. -/
def Target (store : Store) (m : Message) : Prop :=
  ∃ m' ∈ store.messages, m'.id = m.id ∧ m'.turn = m.turn ∧ m'.role = .assistant ∧
    (m.status ≠ .streaming → m'.status ≠ .streaming)

/-- It has ended, or ends with the transaction. -/
def Flipped (store : Store) (txn : Txn) (m : Message) : Prop :=
  ∀ m' ∈ store.messages, m'.id = m.id → (txn.view m').status ≠ .streaming

/-- The transaction has inserted the placeholder that supersedes a reply. -/
def Supersedes (store : Store) (txn : Txn) : Prop :=
  txn.turns = [] ∧ ∃ p m, txn.messages = [p] ∧ IsPlaceholder p ∧ p.turn = m.turn ∧
    p.replaces = some m.id ∧ Target store m ∧ Flipped store txn m

/-- The rows that the transaction inserted fit its phase. -/
def InsertsOk (store : Store) (txn : Txn) : Prop :=
  match txn.phase with
  | .failed _ => True
  | .numbered index => NoRows txn ∧ ∃ e c, State.lockTarget txn.request = some (e, c) ∧
      index = (store.turnsOf c).length
  | .opened turn => txn.messages = [] ∧ OpensTurn store txn turn
  | .prompted turn _ | .illustrated turn | .ready (.opened turn) =>
    OpensTurn store txn turn ∧ OpensMessages txn turn
  | .target m | .latest m => NoRows txn ∧ Target store m
  | .flipping m => NoRows txn ∧ Target store m ∧
      (txn.todo = [] ∧ Flipped store txn m ∨
        ∃ content encrypted status extra,
          txn.todo = [(m.id, .finalize content encrypted status extra)])
  | .ready (.replaced _) => Supersedes store txn
  | _ => NoRows txn

/-- The transaction is past the lock of its conversation, and goes on. -/
def Phase.isLocked : Phase → Bool
  | .begun => false
  | .failed _ => false
  | _ => true

/-- What holds of an open transaction. -/
structure TxnOk (env : Env) (s : State) (t : TxnId) (txn : Txn) : Prop where
  locked : txn.phase.isLocked = true → ∀ e c, State.lockTarget txn.request = some (e, c) →
    s.conversationLock c = some t
  keys : ∀ k ∈ txn.keys, s.keyLock k = some t ∧ k ∉ s.store.keys
  updates : ∀ u ∈ txn.updates, s.rowLock u.1 = some t ∧ ∃ m ∈ s.store.messages, m.id = u.1
  writes : ∀ u, u ∈ txn.todo ∨ u ∈ txn.updates → WriteOk env s.store u
  view : ∀ m ∈ s.store.messages, Evolves env m (txn.view m)
  inserts : InsertsOk s.store txn

/-- What holds in every reachable state. -/
structure Inv (env : Env) (s : State) : Prop where
  store : StoreOk s.store
  txn : ∀ t txn, s.txns t = some txn → TxnOk env s t txn

section
variable {env : Env} {s s' : State} {t t₁ : TxnId} {txn txn' : Txn}

/-! ### The row as a transaction sees it -/

/-- A row that the transaction did not update is as it is. -/
theorem view_eq_self {m : Message} (h : ∀ u ∈ txn.updates, u.1 ≠ m.id) : txn.view m = m := by
  rw [Txn.view]
  revert h
  induction txn.updates with
  | nil => exact fun _ => rfl
  | cons u us ih =>
    intro h
    rw [List.foldr_cons, if_neg (h u List.mem_cons_self)]
    exact ih fun u' hu' => h u' (List.mem_cons_of_mem _ hu')

/-- A guarded update lets the row evolve. -/
theorem Evolves.apply {store : Store} {m : Message} {w : Write} (hm : m ∈ store.messages)
    (hview : Evolves env m (txn.view m)) (hw : WriteOk env store (m.id, w))
    (hguard : w.guard (txn.view m) = true) : Evolves env m (w.apply (txn.view m)) := by
  cases w with
  | finalize content encrypted status extra =>
    have hstreaming : (txn.view m).status = .streaming := by simpa [Write.guard] using hguard
    have hsame := hview.streaming hstreaming
    rw [hsame] at hstreaming ⊢
    exact .of_ended hstreaming rfl rfl rfl rfl rfl status.2
  | reap cutoff =>
    have hstreaming : (txn.view m).status = .streaming := by
      simp only [Write.guard, Bool.and_eq_true, beq_iff_eq] at hguard
      exact hguard.1
    have hsame := hview.streaming hstreaming
    rw [hsame] at hstreaming ⊢
    exact .of_ended hstreaming rfl rfl rfl rfl rfl MessageStatus.noConfusion
  | rewrap stale fresh encrypted =>
    have hok : RewrapOk env store m.id stale fresh encrypted := hw
    have hterminal := (hok.row m hm rfl).1
    have hcontent : (txn.view m).content = stale := by simpa [Write.guard] using hguard
    -- The row has the ciphertext that the sweep read, so it is sealed.
    have hsealed : (txn.view m).contentEncrypted = true := by
      rcases hview.sealed hterminal with ⟨hsame, hflag⟩ | ⟨-, hflag | hempty⟩
      · rw [hflag]
        exact (hok.row m hm rfl).2 (hsame.symm.trans hcontent)
      · exact hflag
      · exact absurd (hcontent.symm.trans hempty) hok.nonempty
    have hstep :
        Evolves env (txn.view m) (Write.apply (.rewrap stale fresh encrypted) (txn.view m)) :=
      { id := rfl, turn := rfl, role := rfl, replaces := rfl, clientMessageId := rfl
        status := fun _ => rfl, extra := fun _ => rfl
        text := fun _ => by
          rw [Env.text, Env.text, hsealed, hcontent]
          exact hok.text
        sealed := fun _ => Or.inr ⟨hsealed, hok.sealed⟩
        streaming := fun hstreaming => absurd hstreaming (hview.terminal hterminal) }
    exact hview.trans hstep

/-! ### Steps of the others -/

/-- What a step of another transaction leaves to `t`. Each committed row evolves, and stays when
`t` has locked it. A new row has a new id. The conversations that `t` has locked get no turn, and
nobody commits a key that `t` holds. -/
structure Frame (env : Env) (s s' : State) (t : TxnId) : Prop where
  old : ∀ m ∈ s.store.messages, ∃ m' ∈ s'.store.messages, Evolves env m m'
  new : ∀ m' ∈ s'.store.messages, (∃ m ∈ s.store.messages, Evolves env m m' ∧
    (s.rowLock m.id = some t → m' = m)) ∨ ∀ m ∈ s.store.messages, m.id ≠ m'.id
  turns : ∀ c, s.conversationLock c = some t → s'.store.turnsOf c = s.store.turnsOf c
  keys : ∀ k, s.keyLock k = some t → k ∉ s.store.keys → k ∉ s'.store.keys
  conversationLock : ∀ c, s.conversationLock c = some t → s'.conversationLock c = some t
  rowLock : ∀ id, s.rowLock id = some t → s'.rowLock id = some t
  keyLock : ∀ k, s.keyLock k = some t → s'.keyLock k = some t

/-- A step that commits nothing. -/
theorem Frame.of_store (hstore : s'.store = s.store)
    (hconversation : ∀ c, s.conversationLock c = some t → s'.conversationLock c = some t)
    (hrow : ∀ id, s.rowLock id = some t → s'.rowLock id = some t)
    (hkey : ∀ k, s.keyLock k = some t → s'.keyLock k = some t) : Frame env s s' t where
  old m hm := by
    rw [hstore]
    exact ⟨m, hm, .refl env m⟩
  new m' hm' := by
    rw [hstore] at hm'
    exact Or.inl ⟨m', hm', .refl env m', fun _ => rfl⟩
  turns c _ := by rw [hstore]
  keys k _ hk := by
    rw [hstore]
    exact hk
  conversationLock := hconversation
  rowLock := hrow
  keyLock := hkey

/-- The row behind a committed row whose id was there before. -/
theorem Frame.old_of_id (hf : Frame env s s' t) {m' : Message} (hm' : m' ∈ s'.store.messages)
    {id : MessageId} (hid : m'.id = id) (hex : ∃ m ∈ s.store.messages, m.id = id) :
    ∃ m ∈ s.store.messages, m.id = id ∧ Evolves env m m' ∧
      (s.rowLock m.id = some t → m' = m) := by
  rcases hf.new m' hm' with ⟨m, hm, hevolves, hlocked⟩ | hnew
  · exact ⟨m, hm, hevolves.id.symm.trans hid, hevolves, hlocked⟩
  · obtain ⟨m, hm, hmid⟩ := hex
    exact absurd (hmid.trans hid.symm) (hnew m hm)

/-- The transaction sees a row that it did not update as it is. -/
theorem TxnOk.view_of_not_locked (h : TxnOk env s t txn) {m : Message}
    (hlock : s.rowLock m.id ≠ some t) : txn.view m = m := by
  apply view_eq_self
  intro u hu hid
  apply hlock
  rw [← hid]
  exact (h.updates u hu).1

theorem Target.frame {m : Message} (h : Target s.store m) (hf : Frame env s s' t) :
    Target s'.store m := by
  obtain ⟨m₁, hm₁, hid, hturn, hrole, hended⟩ := h
  obtain ⟨m₂, hm₂, hevolves⟩ := hf.old m₁ hm₁
  exact ⟨m₂, hm₂, hevolves.id.trans hid, hevolves.turn.trans hturn, hevolves.role.trans hrole,
    fun hm => hevolves.terminal (hended hm)⟩

theorem Flipped.frame {m : Message} (h : Flipped s.store txn m) (hok : TxnOk env s t txn)
    (htarget : Target s.store m) (hf : Frame env s s' t) : Flipped s'.store txn m := by
  intro m' hm' hid
  obtain ⟨m₀, hm₀, hid₀, -⟩ := htarget
  obtain ⟨m₁, hm₁, hid₁, hevolves, hlocked⟩ := hf.old_of_id hm' hid ⟨m₀, hm₀, hid₀⟩
  by_cases hlock : s.rowLock m₁.id = some t
  · rw [hlocked hlock]
    exact h m₁ hm₁ hid₁
  · have hterminal := h m₁ hm₁ hid₁
    rw [hok.view_of_not_locked hlock] at hterminal
    have hlock' : s.rowLock m'.id ≠ some t := by
      rw [hevolves.id]
      exact hlock
    rw [hok.view_of_not_locked hlock']
    exact hevolves.terminal hterminal

theorem OpensTurn.frame {turn : TurnId} (h : OpensTurn s.store txn turn) (hok : TxnOk env s t txn)
    (hphase : txn.phase.isLocked = true) (hf : Frame env s s' t) :
    OpensTurn s'.store txn turn := by
  obtain ⟨e, c, htarget, hturns⟩ := h
  refine ⟨e, c, htarget, ?_⟩
  rw [hf.turns c (hok.locked hphase e c htarget)]
  exact hturns

theorem TxnOk.inserts_frame (hok : TxnOk env s t txn) (hf : Frame env s s' t) :
    InsertsOk s'.store txn := by
  have h := hok.inserts
  have hopens : ∀ turn, txn.phase.isLocked = true → OpensTurn s.store txn turn →
      OpensTurn s'.store txn turn := fun turn hphase hturn => hturn.frame hok hphase hf
  -- What a phase knows of the store is kept by what another transaction may change.
  cases hphase : txn.phase with
  | numbered index =>
    simp only [InsertsOk, hphase] at h ⊢
    obtain ⟨hnone, e, c, htarget, hindex⟩ := h
    have hlocked : txn.phase.isLocked = true := by rw [hphase]; rfl
    refine ⟨hnone, e, c, htarget, ?_⟩
    rw [hf.turns c (hok.locked hlocked e c htarget)]
    exact hindex
  | opened turn =>
    simp only [InsertsOk, hphase] at h ⊢
    exact ⟨h.1, hopens turn (by rw [hphase]; rfl) h.2⟩
  | prompted turn message =>
    simp only [InsertsOk, hphase] at h ⊢
    exact ⟨hopens turn (by rw [hphase]; rfl) h.1, h.2⟩
  | illustrated turn =>
    simp only [InsertsOk, hphase] at h ⊢
    exact ⟨hopens turn (by rw [hphase]; rfl) h.1, h.2⟩
  | target m =>
    simp only [InsertsOk, hphase] at h ⊢
    exact ⟨h.1, h.2.frame hf⟩
  | latest m =>
    simp only [InsertsOk, hphase] at h ⊢
    exact ⟨h.1, h.2.frame hf⟩
  | flipping m =>
    simp only [InsertsOk, hphase] at h ⊢
    obtain ⟨hnone, htarget, ⟨htodo, hflipped⟩ | hflip⟩ := h
    · exact ⟨hnone, htarget.frame hf, Or.inl ⟨htodo, hflipped.frame hok htarget hf⟩⟩
    · exact ⟨hnone, htarget.frame hf, Or.inr hflip⟩
  | ready response =>
    cases response with
    | opened turn =>
      simp only [InsertsOk, hphase] at h ⊢
      exact ⟨hopens turn (by rw [hphase]; rfl) h.1, h.2⟩
    | replaced message =>
      simp only [InsertsOk, hphase] at h ⊢
      obtain ⟨hturns, p, m, hmessages, hp, hturn, hreplaces, htarget, hflipped⟩ := h
      exact ⟨hturns, p, m, hmessages, hp, hturn, hreplaces, htarget.frame hf,
        hflipped.frame hok htarget hf⟩
    | _ =>
      simp only [InsertsOk, hphase] at h ⊢
      exact h
  | failed error =>
    rw [InsertsOk, hphase]
    trivial
  | _ =>
    simp only [InsertsOk, hphase] at h ⊢
    exact h

theorem WriteOk.frame {u : MessageId × Write} (h : WriteOk env s.store u)
    (hf : Frame env s s' t) : WriteOk env s'.store u := by
  obtain ⟨id, w⟩ := u
  cases w with
  | finalize content encrypted status extra => trivial
  | reap cutoff => trivial
  | rewrap stale fresh encrypted =>
    have hok : RewrapOk env s.store id stale fresh encrypted := h
    refine
      { nonempty := hok.nonempty, text := hok.text, sealed := hok.sealed, exists_row := ?_
        row := ?_ }
    · obtain ⟨m, hm, hid⟩ := hok.exists_row
      obtain ⟨m', hm', hevolves⟩ := hf.old m hm
      exact ⟨m', hm', hevolves.id.trans hid⟩
    · intro m' hm' hid
      obtain ⟨m, hm, hmid, hevolves, -⟩ := hf.old_of_id hm' hid hok.exists_row
      obtain ⟨hterminal, hflag⟩ := hok.row m hm hmid
      refine ⟨hevolves.terminal hterminal, ?_⟩
      intro hcontent
      rcases hevolves.sealed hterminal with ⟨hsame, hsameFlag⟩ | ⟨-, hsealed | hempty⟩
      · rw [hsameFlag]
        exact hflag (hsame.symm.trans hcontent)
      · exact hsealed
      · exact absurd (hcontent.symm.trans hempty) hok.nonempty

/-- No step of another transaction breaks what holds of a transaction. -/
theorem TxnOk.frame (h : TxnOk env s t txn) (hf : Frame env s s' t) : TxnOk env s' t txn where
  locked hphase e c htarget := hf.conversationLock c (h.locked hphase e c htarget)
  keys k hk := by
    obtain ⟨hheld, hfree⟩ := h.keys k hk
    exact ⟨hf.keyLock k hheld, hf.keys k hheld hfree⟩
  updates u hu := by
    obtain ⟨hheld, m, hm, hid⟩ := h.updates u hu
    obtain ⟨m', hm', hevolves⟩ := hf.old m hm
    exact ⟨hf.rowLock u.1 hheld, m', hm', hevolves.id.trans hid⟩
  writes u hu := (h.writes u hu).frame hf
  view m' hm' := by
    by_cases hlock : s.rowLock m'.id = some t
    · rcases hf.new m' hm' with ⟨m, hm, hevolves, hsame⟩ | hnew
      · rw [hevolves.id] at hlock
        rw [hsame hlock]
        exact h.view m hm
      · -- A new row has no update, because its id is new.
        have hself : txn.view m' = m' := by
          apply view_eq_self
          intro u hu hid
          obtain ⟨-, m, hm, hmid⟩ := h.updates u hu
          exact hnew m hm (hmid.trans hid)
        rw [hself]
        exact .refl env m'
    · rw [h.view_of_not_locked hlock]
      exact .refl env m'
  inserts := h.inserts_frame hf

/-! ### Own steps that write no row -/

/-- A step that changes the record of `t`, and takes locks from nobody. -/
theorem Inv.own (h : Inv env s) (hstore : s'.store = s.store)
    (htxns : s'.txns = Function.update s.txns t (some txn'))
    (hconversation : ∀ c t', s.conversationLock c = some t' → s'.conversationLock c = some t')
    (hrow : ∀ id t', s.rowLock id = some t' → s'.rowLock id = some t')
    (hkey : ∀ k t', s.keyLock k = some t' → s'.keyLock k = some t')
    (hok : TxnOk env s' t txn') : Inv env s' where
  store := by
    rw [hstore]
    exact h.store
  txn t₁ txn₁ ht₁ := by
    rw [htxns, update_some_eq_some] at ht₁
    rcases ht₁ with ⟨rfl, rfl⟩ | ⟨-, ht₁⟩
    · exact hok
    · exact (h.txn t₁ txn₁ ht₁).frame (.of_store hstore (fun c => hconversation c t₁)
        (fun id => hrow id t₁) (fun k => hkey k t₁))

/-- The transaction goes on to a phase that its rows fit. -/
theorem Inv.goOn (h : Inv env s) (ht : s.txns t = some txn)
    (hrequest : txn'.request = txn.request) (hupdates : txn'.updates = txn.updates)
    (hturns : txn'.turns = txn.turns) (hmessages : txn'.messages = txn.messages)
    (hlocked : txn'.phase.isLocked = true → txn.phase.isLocked = true ∨
      State.lockTarget txn.request = none)
    (htodo : ∀ u ∈ txn'.todo, WriteOk env s.store u) (hinserts : InsertsOk s.store txn') :
    Inv env (s.setTxn t txn') := by
  have hok := h.txn t txn ht
  have hkeys : txn'.keys = txn.keys := by rw [Txn.keys, Txn.keys, hturns, hmessages]
  have hview : ∀ m, txn'.view m = txn.view m := fun m => by rw [Txn.view, Txn.view, hupdates]
  -- The store and the locks are as they were, so only the record of the transaction is in
  -- question.
  refine h.own rfl rfl (fun _ _ hheld => hheld) (fun _ _ hheld => hheld)
    (fun _ _ hheld => hheld) ?_
  refine
    { locked := ?_, keys := ?_, updates := ?_, writes := ?_, view := ?_, inserts := hinserts }
  · intro hphase e c htarget
    rw [hrequest] at htarget
    rcases hlocked hphase with hbefore | hnone
    · exact hok.locked hbefore e c htarget
    · rw [hnone] at htarget
      cases htarget
  · rw [hkeys]
    exact hok.keys
  · rw [hupdates]
    exact hok.updates
  · rintro u (hu | hu)
    · exact htodo u hu
    · rw [hupdates] at hu
      exact hok.writes u (Or.inr hu)
  · intro m hm
    rw [hview]
    exact hok.view m hm

/-- An exception keeps the invariant. -/
theorem Inv.fail (h : Inv env s) (ht : s.txns t = some txn) (error : ApiError) :
    Inv env (s.fail t txn error) := by
  refine h.goOn ht rfl rfl rfl rfl (fun hphase => nomatch hphase) ?_ ?_
  · exact fun u hu => (h.txn t txn ht).writes u (Or.inl hu)
  · trivial

/-- A transaction without rows goes on to another phase without rows. -/
theorem Inv.goOn_empty (h : Inv env s) (ht : s.txns t = some txn) (hnone : NoRows txn)
    (hrequest : txn'.request = txn.request) (hupdates : txn'.updates = txn.updates)
    (hturns : txn'.turns = txn.turns) (hmessages : txn'.messages = txn.messages)
    (hlocked : txn'.phase.isLocked = true → txn.phase.isLocked = true ∨
      State.lockTarget txn.request = none)
    (htodo : ∀ u ∈ txn'.todo, WriteOk env s.store u)
    (hphase : NoRows txn' → InsertsOk s.store txn') : Inv env (s.setTxn t txn') := by
  refine h.goOn ht hrequest hupdates hturns hmessages hlocked htodo (hphase ?_)
  exact ⟨hturns.trans hnone.1, hmessages.trans hnone.2⟩

theorem Inv.begin {request : Request} (h : Inv env s) (hstep : s.begin t request = some s') :
    Inv env s' := by
  unfold State.begin at hstep
  split at hstep
  · cases hstep
    refine h.own rfl rfl (fun _ _ hheld => hheld) (fun _ _ hheld => hheld)
      (fun _ _ hheld => hheld) ?_
    refine
      { locked := fun hphase => (nomatch hphase), keys := fun k hk => (nomatch hk)
        updates := fun u hu => (nomatch hu), writes := ?_, view := fun m _ => .refl env m
        inserts := ⟨rfl, rfl⟩ }
    rintro u (hu | hu) <;> cases hu
  · cases hstep

theorem Inv.lock {visible : Bool} (h : Inv env s) (ht : s.txns t = some txn)
    (hstep : s.lock t txn visible = some s') : Inv env s' := by
  have hok := h.txn t txn ht
  unfold State.lock at hstep
  split at hstep
  · rename_i evaluation c hphase htarget
    split at hstep
    · cases hstep
      exact h.fail ht _
    · split at hstep
      · rename_i hfree
        cases hstep
        have hinserts := hok.inserts
        simp only [InsertsOk, hphase] at hinserts
        refine h.own rfl rfl (fun _ _ hheld => Locks.held_take hfree hheld)
          (fun _ _ hheld => hheld) (fun _ _ hheld => hheld) ?_
        refine
          { locked := ?_, keys := hok.keys, updates := hok.updates, writes := hok.writes
            view := hok.view, inserts := hinserts }
        intro _ e c' htarget'
        rw [show State.lockTarget txn.request = _ from htarget] at htarget'
        cases htarget'
        exact Locks.take_self _ _ _
      · cases hstep
  · cases hstep

theorem Inv.attach {assets : List MediaAsset} (h : Inv env s) (ht : s.txns t = some txn)
    (hstep : s.attach t txn assets = some s') : Inv env s' := by
  have hok := h.txn t txn ht
  unfold State.attach at hstep
  split at hstep
  · rename_i hphase _
    have hnone := hok.inserts
    simp only [InsertsOk, hphase] at hnone
    split at hstep
    · cases hstep
      refine h.goOn_empty ht hnone rfl rfl rfl rfl (fun _ => Or.inl ?_)
        (fun u hu => hok.writes u (Or.inl hu)) fun hrows => hrows
      rw [hphase]
      rfl
    · cases hstep
      exact h.fail ht _
  · cases hstep

theorem Inv.replay (h : Inv env s) (ht : s.txns t = some txn)
    (hstep : s.replay t txn = some s') : Inv env s' := by
  have hok := h.txn t txn ht
  unfold State.replay at hstep
  split at hstep
  · rename_i c clientMessageId _ _ _ hphase _
    have hnone := hok.inserts
    simp only [InsertsOk, hphase] at hnone
    have hlocked : txn.phase.isLocked = true := by rw [hphase]; rfl
    have hgo : ∀ phase, (NoRows { txn with phase } → InsertsOk s.store { txn with phase }) →
        Inv env (s.setTxn t { txn with phase }) := fun phase hrows =>
      h.goOn_empty ht hnone rfl rfl rfl rfl (fun _ => Or.inl hlocked)
        (fun u hu => hok.writes u (Or.inl hu)) hrows
    split at hstep
    · cases hstep
      exact hgo .fresh fun hrows => hrows
    · split at hstep
      · cases hstep
        exact hgo .fresh fun hrows => hrows
      · rename_i turn _
        cases hstep
        exact hgo (.ready (.replayed turn)) fun hrows => hrows
      · cases hstep
        exact h.fail ht _
  · cases hstep

/-- The next index of a conversation is the number of its turns. -/
theorem StoreOk.nextIndex_eq {store : Store} (h : StoreOk store) (c : ConversationId) :
    store.nextIndex c = (store.turnsOf c).length := by
  rw [Store.nextIndex, h.indexes c]
  cases hn : (store.turnsOf c).length with
  | zero => rfl
  | succ n =>
    have hmax : (List.range (n + 1)).reverse.max? = some n := by
      rw [List.max?_eq_some_iff]
      constructor
      · simp
      · intro i hi
        simp only [List.mem_reverse, List.mem_range] at hi
        omega
    rw [hmax]

theorem Inv.number (h : Inv env s) (ht : s.txns t = some txn)
    (hstep : s.number t txn = some s') : Inv env s' := by
  have hok := h.txn t txn ht
  unfold State.number at hstep
  split at hstep
  · rename_i evaluation c _ _ _ _ _ _ hphase hrequest
    cases hstep
    have hnone := hok.inserts
    simp only [InsertsOk, hphase] at hnone
    refine h.goOn_empty ht hnone rfl rfl rfl rfl (fun _ => Or.inl ?_)
      (fun u hu => hok.writes u (Or.inl hu)) ?_
    · rw [hphase]
      rfl
    · intro hrows
      refine ⟨hrows, evaluation, c, ?_, h.store.nextIndex_eq c⟩
      show State.lockTarget txn.request = _
      rw [hrequest]
      rfl
  · cases hstep

theorem Inv.insertImages (h : Inv env s) (ht : s.txns t = some txn)
    (hstep : s.insertImages t txn = some s') : Inv env s' := by
  have hok := h.txn t txn ht
  unfold State.insertImages at hstep
  split at hstep
  · rename_i hphase _
    cases hstep
    have hinserts := hok.inserts
    simp only [InsertsOk, hphase] at hinserts
    refine h.goOn ht rfl rfl rfl rfl (fun _ => Or.inl ?_)
      (fun u hu => hok.writes u (Or.inl hu)) hinserts
    rw [hphase]
    rfl
  · cases hstep

theorem Inv.allowTags {policy : Option TagPolicy} (h : Inv env s) (ht : s.txns t = some txn)
    (hstep : s.allowTags t txn policy = some s') : Inv env s' := by
  have hok := h.txn t txn ht
  unfold State.allowTags at hstep
  split at hstep
  · rename_i hphase _
    have hinserts := hok.inserts
    simp only [InsertsOk, hphase] at hinserts
    split at hstep
    · cases hstep
      refine h.goOn ht rfl rfl rfl rfl (fun _ => Or.inl ?_)
        (fun u hu => hok.writes u (Or.inl hu)) hinserts
      rw [hphase]
      rfl
    · cases hstep
      exact h.fail ht _
  · cases hstep

/-- The message that a conversation has under an id. -/
theorem conversationMessage_spec {store : Store} {c : ConversationId}
    {id : MessageId} {m : Message} (h : store.conversationMessage c id = .ok m) :
    m ∈ store.messages ∧ m.id = id := by
  unfold Store.conversationMessage at h
  dsimp only at h
  split at h
  · rename_i hfound
    cases h
    have hid := List.find?_some hfound
    simp only [Bool.and_eq_true, beq_iff_eq] at hid
    exact ⟨List.mem_of_find?_eq_some hfound, hid.1⟩
  · cases h

theorem Inv.readTarget (h : Inv env s) (ht : s.txns t = some txn)
    (hstep : s.readTarget t txn = some s') : Inv env s' := by
  have hok := h.txn t txn ht
  unfold State.readTarget at hstep
  split at hstep
  · rename_i hphase _
    have hnone := hok.inserts
    simp only [InsertsOk, hphase] at hnone
    split at hstep
    · cases hstep
      exact h.fail ht _
    · rename_i m hfound
      split at hstep
      · cases hstep
        exact h.fail ht _
      · rename_i hrole
        cases hstep
        refine h.goOn_empty ht hnone rfl rfl rfl rfl (fun _ => Or.inl ?_)
          (fun u hu => hok.writes u (Or.inl hu)) ?_
        · rw [hphase]
          rfl
        · intro hrows
          exact ⟨hrows, m, (conversationMessage_spec hfound).1, rfl, rfl, not_not.mp hrole,
            fun hm => hm⟩
  · cases hstep

theorem Inv.readLatest (h : Inv env s) (ht : s.txns t = some txn)
    (hstep : s.readLatest t txn = some s') : Inv env s' := by
  have hok := h.txn t txn ht
  unfold State.readLatest at hstep
  split at hstep
  · rename_i hphase _
    have hinserts := hok.inserts
    simp only [InsertsOk, hphase] at hinserts
    split at hstep
    · cases hstep
    · split at hstep
      · cases hstep
        exact h.fail ht _
      · cases hstep
        refine h.goOn ht rfl rfl rfl rfl (fun _ => Or.inl ?_)
          (fun u hu => hok.writes u (Or.inl hu)) hinserts
        rw [hphase]
        rfl
  · cases hstep

theorem Inv.readSuccessor (h : Inv env s) (ht : s.txns t = some txn)
    (hstep : s.readSuccessor t txn = some s') : Inv env s' := by
  have hok := h.txn t txn ht
  unfold State.readSuccessor at hstep
  split at hstep
  · rename_i m _ _ _ hphase _
    have hinserts := hok.inserts
    simp only [InsertsOk, hphase] at hinserts
    obtain ⟨hnone, htarget⟩ := hinserts
    have hlocked : txn.phase.isLocked = true := by rw [hphase]; rfl
    split at hstep
    · cases hstep
      exact h.fail ht _
    · cases hstep
      by_cases hstreaming : m.status = .streaming
      · -- The reply is streaming, so the flip is still to be done.
        rw [if_pos hstreaming]
        refine h.goOn ht rfl rfl rfl rfl (fun _ => Or.inl hlocked) ?_
          ⟨hnone, htarget, Or.inr ⟨_, _, _, _, rfl⟩⟩
        intro u hu
        rw [List.mem_singleton] at hu
        rw [hu]
        trivial
      · rw [if_neg hstreaming]
        refine h.goOn ht rfl rfl rfl rfl (fun _ => Or.inl hlocked) (fun u hu => (nomatch hu))
          ⟨hnone, htarget, Or.inl ⟨rfl, ?_⟩⟩
        -- The reply has ended, and an ended status does not change in the view.
        intro m' hm' hid
        obtain ⟨m₁, hm₁, hid₁, -, -, hended⟩ := htarget
        have hsame := h.store.eq_of_id hm' hm₁ (hid.trans hid₁.symm)
        apply (hok.view m' hm').terminal
        rw [hsame]
        exact hended hstreaming
  · cases hstep

/-- The message of an id. -/
theorem message?_spec {store : Store} {id : MessageId} {m : Message}
    (h : store.message? id = some m) : m ∈ store.messages ∧ m.id = id :=
  ⟨List.mem_of_find?_eq_some h, by simpa using List.find?_some h⟩

/-- The sweep seals the text that it has opened. -/
theorem rewrapOk_of_open {store : Store} (h : StoreOk store) {m : Message} {nonce : Nonce}
    {opened fresh : String} {encrypted : Bool} (hm : m ∈ store.messages)
    (hflag : m.contentEncrypted = true)
    (hopen : unsealContent env.primitives env.settings m.content true = .ok opened)
    (hseal : sealContent env.primitives env.settings nonce opened true = .ok (fresh, encrypted)) :
    RewrapOk env store m.id m.content fresh encrypted where
  nonempty := ne_empty_of_unsealContent hopen
  text := (unsealContent_sealContent hseal).trans hopen.symm
  sealed := sealed_or_empty hseal
  exists_row := ⟨m, hm, rfl⟩
  row m' hm' hid := by
    have hsame := h.eq_of_id hm' hm hid
    rw [hsame]
    refine ⟨?_, fun _ => hflag⟩
    intro hstreaming
    have hplain := (h.streaming m hm hstreaming).plain
    rw [hflag] at hplain
    cases hplain

/-- The updates of a job are right when it starts. -/
theorem jobUpdates_ok {store : Store} (h : StoreOk store) {request : Request}
    {u : MessageId × Write} (hu : u ∈ State.jobUpdates env store request) :
    WriteOk env store u := by
  cases request with
  | send => cases hu
  | replace => cases hu
  | finalize message content encrypted status extra =>
    rw [List.mem_singleton.mp hu]
    trivial
  | reap cutoff =>
    obtain ⟨m, -, rfl⟩ := List.mem_map.mp hu
    trivial
  | rewrap rows =>
    obtain ⟨row, -, hrow⟩ := List.mem_filterMap.mp hu
    obtain ⟨m, hm, hrow⟩ := Option.bind_eq_some_iff.mp hrow
    split at hrow
    · rename_i hflag
      split at hrow
      · cases hrow
      · rename_i opened hopen
        split at hrow
        · cases hrow
        · rename_i fresh encrypted hseal
          cases hrow
          exact rewrapOk_of_open h (message?_spec hm).1 hflag hopen hseal
    · cases hrow

theorem Inv.startJob (h : Inv env s) (ht : s.txns t = some txn)
    (hstep : s.startJob env t txn = some s') : Inv env s' := by
  have hok := h.txn t txn ht
  unfold State.startJob at hstep
  split at hstep
  · rename_i hphase htarget
    cases hstep
    have hnone := hok.inserts
    simp only [InsertsOk, hphase] at hnone
    refine h.goOn_empty ht hnone rfl rfl rfl rfl (fun _ => Or.inr htarget)
      (fun u hu => jobUpdates_ok h.store hu) fun hrows => hrows
  · cases hstep

theorem Inv.endJob (h : Inv env s) (ht : s.txns t = some txn)
    (hstep : s.endJob t txn = some s') : Inv env s' := by
  have hok := h.txn t txn ht
  unfold State.endJob at hstep
  split at hstep
  · rename_i hphase _
    cases hstep
    have hnone := hok.inserts
    simp only [InsertsOk, hphase] at hnone
    refine h.goOn_empty ht hnone rfl rfl rfl rfl (fun _ => Or.inl ?_)
      (fun u hu => hok.writes u (Or.inl hu)) fun hrows => hrows
    rw [hphase]
    rfl
  · cases hstep

/-! ### Inserts -/

/-- An insert that goes through has new keys that nobody else holds. -/
theorem insertOutcome_inserts {keys : List Key} (h : s.insertOutcome t keys = .inserts) :
    (∀ k ∈ keys, k ∉ s.store.keys) ∧ keys.Nodup ∧ ∀ k ∈ keys, s.keyLock.mayTake k t = true := by
  unfold State.insertOutcome at h
  split at h
  · cases h
  · rename_i hviolates
    split at h
    · rename_i hfree
      simp only [Bool.or_eq_true, Bool.not_eq_true', decide_eq_false_iff_not, not_or,
        not_not, Bool.not_eq_true, List.any_eq_false, List.contains_iff_mem] at hviolates
      exact ⟨hviolates.1, hviolates.2, List.all_eq_true.mp hfree⟩
    · cases h

/-- A transaction that inserts rows takes their keys. -/
theorem Inv.insert {keys : List Key} (h : Inv env s) (ht : s.txns t = some txn)
    (hinsert : s.insertOutcome t keys = .inserts) (hrequest : txn'.request = txn.request)
    (hupdates : txn'.updates = txn.updates) (htodo : txn'.todo = txn.todo)
    (hlocked : txn.phase.isLocked = true) (hkeys : ∀ k ∈ txn'.keys, k ∈ txn.keys ∨ k ∈ keys)
    (hinserts : InsertsOk s.store txn') : Inv env ((s.takeKeys t keys).setTxn t txn') := by
  obtain ⟨hnew, -, hfree⟩ := insertOutcome_inserts hinsert
  have hok := h.txn t txn ht
  have hview : ∀ m, txn'.view m = txn.view m := fun m => by rw [Txn.view, Txn.view, hupdates]
  refine h.own rfl rfl (fun _ _ hheld => hheld) (fun _ _ hheld => hheld)
    (fun _ _ hheld => Locks.held_takeAll hfree hheld) ?_
  refine
    { locked := ?_, keys := ?_, updates := ?_, writes := ?_, view := ?_, inserts := hinserts }
  · intro _ e c htarget
    rw [hrequest] at htarget
    exact hok.locked hlocked e c htarget
  · -- An old key is still held, and a new one is taken now and free in the store.
    intro k hk
    rcases hkeys k hk with hold | hmem
    · obtain ⟨hheld, hfresh⟩ := hok.keys k hold
      exact ⟨Locks.held_takeAll hfree hheld, hfresh⟩
    · exact ⟨Locks.takeAll_self hfree hmem, hnew k hmem⟩
  · rw [hupdates]
    exact hok.updates
  · rw [hupdates, htodo]
    exact hok.writes
  · intro m hm
    rw [hview]
    exact hok.view m hm

theorem Inv.insertTurn {id : TurnId} (h : Inv env s) (ht : s.txns t = some txn)
    (hstep : s.insertTurn t txn id = some s') : Inv env s' := by
  have hok := h.txn t txn ht
  unfold State.insertTurn at hstep
  split at hstep
  · rename_i index _ _ _ _ _ _ _ _ hphase hrequest
    have hinserts := hok.inserts
    simp only [InsertsOk, hphase] at hinserts
    obtain ⟨hnone, e, c, htarget, hindex⟩ := hinserts
    dsimp only at hstep
    split at hstep
    · cases hstep
      exact h.fail ht _
    · cases hstep
    · rename_i hinsert
      cases hstep
      refine h.insert ht hinsert rfl rfl rfl ?_ ?_ ?_
      · rw [hphase]
        rfl
      · -- The turn is the first row that the transaction inserts.
        intro k hk
        right
        simpa [Txn.keys, hnone.2] using hk
      · refine ⟨hnone.2, e, c, htarget, ?_⟩
        rw [hrequest] at htarget
        cases htarget
        rw [← hindex]
  · cases hstep

theorem Inv.insertMessages {promptId replyId : MessageId} (h : Inv env s)
    (ht : s.txns t = some txn) (hstep : s.insertMessages env t txn promptId replyId = some s') :
    Inv env s' := by
  have hok := h.txn t txn ht
  unfold State.insertMessages at hstep
  split at hstep
  · rename_i turn _ _ _ _ _ _ _ _ hphase hrequest
    have hinserts := hok.inserts
    simp only [InsertsOk, hphase] at hinserts
    obtain ⟨hnone, hturn⟩ := hinserts
    dsimp only at hstep
    split at hstep
    · cases hstep
      exact h.fail ht _
    · split at hstep
      · cases hstep
        exact h.fail ht _
      · cases hstep
      · rename_i hinsert
        cases hstep
        refine h.insert ht hinsert rfl rfl rfl ?_ ?_ ?_
        · rw [hphase]
          rfl
        · -- The keys are those of the turn, the prompt, and the reply.
          intro k hk
          simp only [Txn.keys, List.mem_append, List.flatMap_cons, List.flatMap_nil,
            List.append_nil] at hk ⊢
          rcases hk with hk | hk | hk
          · exact Or.inl (Or.inl hk)
          · exact Or.inr (Or.inr hk)
          · exact Or.inr (Or.inl hk)
        · refine ⟨hturn, _, _, rfl, ⟨rfl, rfl, rfl, rfl, rfl, rfl, ⟨rfl, rfl, rfl, rfl⟩, rfl⟩, ?_⟩
          have hnodup := (insertOutcome_inserts hinsert).2.1
          exact fun k hreply hprompt => (List.nodup_append.mp hnodup).2.2 k hprompt k hreply rfl
  · cases hstep

theorem Inv.insertReplacement {id : MessageId} (h : Inv env s) (ht : s.txns t = some txn)
    (hstep : s.insertReplacement t txn id = some s') : Inv env s' := by
  have hok := h.txn t txn ht
  unfold State.insertReplacement at hstep
  split at hstep
  · rename_i m hphase htodo
    have hinserts := hok.inserts
    simp only [InsertsOk, hphase, htodo] at hinserts
    obtain ⟨hnone, htarget, ⟨-, hflipped⟩ | ⟨_, _, _, _, hflip⟩⟩ := hinserts
    · dsimp only at hstep
      split at hstep
      · cases hstep
        exact h.fail ht _
      · cases hstep
      · rename_i hinsert
        cases hstep
        refine h.insert ht hinsert rfl rfl rfl ?_ ?_ ?_
        · rw [hphase]
          rfl
        · intro k hk
          right
          simpa [Txn.keys, hnone.1] using hk
        · exact ⟨hnone.1, _, m, rfl, ⟨rfl, rfl, rfl, rfl⟩, rfl, rfl, htarget, hflipped⟩
    · cases hflip
  · cases hstep

/-! ### Updates -/

/-- After an update, the rows that the transaction inserted still fit its phase. A finalize must
leave its row terminal. -/
theorem InsertsOk.after_update {store : Store} {id : MessageId} {w : Write}
    {todo updates : List (MessageId × Write)} (h : InsertsOk store txn)
    (hphase : txn.phase.isUpdating = true) (htodo : txn.todo = (id, w) :: todo)
    (hended : ∀ content encrypted status extra, w = .finalize content encrypted status extra →
      ∀ m ∈ store.messages, m.id = id →
        (Txn.view { txn with todo, updates } m).status ≠ .streaming) :
    InsertsOk store { txn with todo, updates } := by
  cases hp : txn.phase with
  | flipping m =>
    simp only [InsertsOk, hp, htodo] at h ⊢
    obtain ⟨hnone, htarget, ⟨hempty, -⟩ | ⟨content, encrypted, status, extra, hflip⟩⟩ := h
    · cases hempty
    · obtain ⟨hhead, hrest⟩ := List.cons.inj hflip
      cases hhead
      exact ⟨hnone, htarget, Or.inl ⟨hrest, hended content encrypted status extra rfl⟩⟩
  | updating =>
    simp only [InsertsOk, hp] at h ⊢
    exact h
  | _ =>
    rw [hp] at hphase
    cases hphase

theorem isLocked_of_isUpdating {phase : Phase} (h : phase.isUpdating = true) :
    phase.isLocked = true := by
  cases phase with
  | flipping m => rfl
  | updating => rfl
  | _ => cases h

theorem Inv.update (h : Inv env s) (ht : s.txns t = some txn)
    (hstep : s.update t txn = some s') : Inv env s' := by
  have hok := h.txn t txn ht
  unfold State.update at hstep
  split at hstep
  · cases hstep
  · cases hstep
  · rename_i id w todo hphase htodo
    have hrest : ∀ u ∈ todo, WriteOk env s.store u := by
      intro u hu
      apply hok.writes u
      rw [htodo]
      exact Or.inl (List.mem_cons_of_mem _ hu)
    have hlocked := isLocked_of_isUpdating hphase
    split at hstep
    · rename_i hnone
      cases hstep
      refine h.goOn ht rfl rfl rfl rfl (fun _ => Or.inl hlocked) hrest
        (hok.inserts.after_update hphase htodo ?_)
      -- There is no row to update, so nothing has to have changed.
      intro _ _ _ _ _ m hm hid
      have hno := List.find?_eq_none.mp hnone m hm
      exact absurd (beq_iff_eq.mpr hid) hno
    · rename_i m hfound
      obtain ⟨hm, hid⟩ := message?_spec hfound
      have honly : ∀ m' ∈ s.store.messages, m'.id = id → m' = m :=
        fun m' hm' hid' => h.store.eq_of_id hm' hm (hid'.trans hid.symm)
      split at hstep
      · rename_i hguard
        split at hstep
        · rename_i hfree
          cases hstep
          have hself : ∀ m', Txn.view { txn with todo, updates := (id, w) :: txn.updates } m' =
              if id = m'.id then w.apply (txn.view m') else txn.view m' := fun _ => rfl
          refine h.own rfl rfl (fun _ _ hheld => hheld)
            (fun _ _ hheld => Locks.held_take hfree hheld) (fun _ _ hheld => hheld) ?_
          refine
            { locked := hok.locked, keys := hok.keys, updates := ?_, writes := ?_, view := ?_
              inserts := hok.inserts.after_update hphase htodo ?_ }
          · intro u hu
            rcases List.mem_cons.mp hu with rfl | hu
            · exact ⟨Locks.take_self _ _ _, m, hm, hid⟩
            · obtain ⟨hheld, hex⟩ := hok.updates u hu
              exact ⟨Locks.held_take hfree hheld, hex⟩
          · rintro u (hu | hu)
            · exact hrest u hu
            · rcases List.mem_cons.mp hu with rfl | hu
              · apply hok.writes
                rw [htodo]
                exact Or.inl List.mem_cons_self
              · exact hok.writes u (Or.inr hu)
          · intro m' hm'
            rw [hself]
            split
            · rename_i hid'
              have hsame := honly m' hm' hid'.symm
              rw [hsame]
              -- The guard of the update holds of the view, so the row moves along its life cycle.
              refine Evolves.apply hm (hok.view m hm) ?_ hguard
              rw [hid]
              apply hok.writes
              rw [htodo]
              exact Or.inl List.mem_cons_self
            · exact hok.view m' hm'
          · intro content encrypted status extra hw m' _ hid'
            rw [hself, if_pos hid'.symm, hw]
            exact status.2
        · cases hstep
      · rename_i hguard
        cases hstep
        refine h.goOn ht rfl rfl rfl rfl (fun _ => Or.inl hlocked) hrest
          (hok.inserts.after_update hphase htodo ?_)
        -- The guard has failed, so the row is not streaming any more.
        intro content encrypted status extra hw m' hm' hid' hstreaming
        rw [honly m' hm' hid'] at hstreaming
        rw [hw] at hguard
        apply hguard
        exact beq_iff_eq.mpr hstreaming

/-! ### The end of a transaction -/

/-- The end of a transaction keeps the invariant of the others. -/
theorem Inv.finish {store : Store} {answer : Request × Response} (h : Inv env s)
    (hstore : StoreOk store) (hframe : ∀ t₁ txn₁, t₁ ≠ t → s.txns t₁ = some txn₁ →
      Frame env s ({ s with store }.finish t answer) t₁) :
    Inv env ({ s with store }.finish t answer) where
  store := hstore
  txn t₁ txn₁ ht₁ := by
    obtain ⟨hne, ht₁⟩ := update_none_eq_some.mp ht₁
    exact (h.txn t₁ txn₁ ht₁).frame (hframe t₁ txn₁ hne ht₁)

theorem Inv.abort (h : Inv env s) (t : TxnId) (txn : Txn) : Inv env (s.abort t txn) := by
  have hfinish : ∀ answer, Inv env (s.finish t answer) := by
    intro answer
    refine h.finish h.store fun t₁ txn₁ hne _ => .of_store rfl ?_ ?_ ?_
    · exact fun c hheld => Locks.held_release hne hheld
    · exact fun id hheld => Locks.held_release hne hheld
    · exact fun k hheld => Locks.held_release hne hheld
  unfold State.abort
  split
  · exact hfinish _
  · exact hfinish _

/-- The turns that a finished transaction has inserted are of conversations that it has locked. -/
theorem TxnOk.turn_locked (h : TxnOk env s t txn) {response : Response}
    (hphase : txn.phase = .ready response) {turn : Turn} (hturn : turn ∈ txn.turns) :
    s.conversationLock turn.conversation = some t := by
  have hinserts := h.inserts
  cases response with
  | opened id =>
    simp only [InsertsOk, hphase] at hinserts
    obtain ⟨⟨e, c, htarget, hturns⟩, -⟩ := hinserts
    rw [hturns, List.mem_singleton] at hturn
    rw [hturn]
    exact h.locked (by rw [hphase]; rfl) e c htarget
  | replaced id =>
    simp only [InsertsOk, hphase] at hinserts
    rw [hinserts.1] at hturn
    cases hturn
  | _ =>
    simp only [InsertsOk, hphase] at hinserts
    rw [hinserts.1] at hturn
    cases hturn

/-- The keys of the store after a commit. -/
theorem mem_keys_written (h : TxnOk env s t txn) {k : Key} (hk : k ∈ (s.written txn).keys) :
    k ∈ txn.keys ∨ k ∈ s.store.keys := by
  simp only [Store.keys, State.written, Txn.keys, List.flatMap_append, List.mem_append] at hk ⊢
  rcases hk with (hk | hk) | (hk | hk)
  · exact Or.inl (Or.inl hk)
  · exact Or.inr (Or.inl hk)
  · exact Or.inl (Or.inr hk)
  · obtain ⟨m', hm', hk⟩ := List.mem_flatMap.mp hk
    obtain ⟨m, hm, rfl⟩ := List.mem_map.mp hm'
    rw [(h.view m hm).keys] at hk
    exact Or.inr (Or.inr (List.mem_flatMap.mpr ⟨m, hm, hk⟩))

/-- The commit of a transaction, for the others. -/
theorem TxnOk.frame_commit (h : TxnOk env s t txn) {response : Response}
    (hphase : txn.phase = .ready response) (answer : Request × Response) (hne : t₁ ≠ t) :
    Frame env s ({ s with store := s.written txn }.finish t answer) t₁ where
  old m hm := ⟨txn.view m, List.mem_append_right _ (List.mem_map_of_mem hm), h.view m hm⟩
  new m' hm' := by
    rcases List.mem_append.mp hm' with hnew | hold
    · right
      intro m hm hid
      -- The other rows were there, or have a key that the transaction held alone.
      have hkey : Key.message m'.id ∈ txn.keys :=
        List.mem_append_right _ (List.mem_flatMap.mpr ⟨m', hnew, List.mem_cons_self⟩)
      apply (h.keys _ hkey).2
      rw [← hid]
      exact List.mem_append_right _ (List.mem_flatMap.mpr ⟨m, hm, List.mem_cons_self⟩)
    · obtain ⟨m, hm, rfl⟩ := List.mem_map.mp hold
      refine Or.inl ⟨m, hm, h.view m hm, fun hlock => h.view_of_not_locked ?_⟩
      rw [hlock]
      exact fun heq => hne (Option.some.inj heq)
  turns c hc := by
    show (txn.turns ++ s.store.turns).filter _ = _
    rw [List.filter_append]
    -- A turn is inserted behind the lock of its conversation, which another transaction does not
    -- hold.
    have hnone : txn.turns.filter (fun turn => turn.conversation == c) = [] := by
      rw [List.filter_eq_nil_iff]
      intro turn hturn heq
      have hmine := h.turn_locked hphase hturn
      rw [beq_iff_eq.mp heq, hc] at hmine
      exact hne (Option.some.inj hmine)
    rw [hnone]
    rfl
  keys k hheld hfree hk := by
    rcases mem_keys_written h hk with hmine | hold
    · have hlock := (h.keys k hmine).1
      rw [hheld] at hlock
      exact hne (Option.some.inj hlock)
    · exact hfree hold
  conversationLock c hheld := Locks.held_release hne hheld
  rowLock id hheld := Locks.held_release hne hheld
  keyLock k hheld := Locks.held_release hne hheld

/-- The images are no part of the shape. -/
theorem StoreOk.with_images {store : Store} (h : StoreOk store) (images : List MessageImage) :
    StoreOk { store with images } where
  turn_keys := h.turn_keys
  message_keys := h.message_keys
  indexes := h.indexes
  turns turn hturn := ⟨(h.turns turn hturn).prompt, (h.turns turn hturn).chain,
    (h.turns turn hturn).ended⟩
  message_turn := h.message_turn
  streaming := h.streaming
  replaces := h.replaces

/-- A row that the transaction inserted shares no key with a committed one. -/
theorem TxnOk.disjoint_message (h : TxnOk env s t txn) {ks : List Key}
    (hks : ∀ k ∈ ks, k ∈ txn.keys) {other : Message}
    (hother : other ∈ (s.store.mapMessages txn.view).messages) :
    ks.Disjoint other.keys := by
  intro k hk hk'
  obtain ⟨m, hm, rfl⟩ := List.mem_map.mp hother
  rw [(h.view m hm).keys] at hk'
  exact (h.keys k (hks k hk)).2 (List.mem_append_right _ (List.mem_flatMap.mpr ⟨m, hm, hk'⟩))

/-- A commit keeps the shape of the store. -/
theorem Inv.store_commit (h : Inv env s) (ht : s.txns t = some txn) {response : Response}
    (hphase : txn.phase = .ready response) : StoreOk (s.written txn) := by
  have hok := h.txn t txn ht
  have hinserts := hok.inserts
  have hevolved : StoreOk (s.store.mapMessages txn.view) := h.store.evolve hok.view
  -- Without new rows, the commit is what the views have become.
  have hnone : NoRows txn → StoreOk (s.written txn) := by
    intro hrows
    have hwritten : s.written txn = { s.store.mapMessages txn.view with
        images := txn.images ++ s.store.images } := by
      rw [State.written, hrows.1, hrows.2]
      rfl
    rw [hwritten]
    exact hevolved.with_images _
  cases response with
  | opened id =>
    simp only [InsertsOk, hphase] at hinserts
    obtain ⟨⟨e, c, -, hturns⟩, prompt, reply, hmessages, hopens, hpair⟩ := hinserts
    -- A send opens a turn, with its prompt and its reply.
    have hwritten : s.written txn = (s.store.mapMessages txn.view).openTurn
        { id, conversation := c, index := (s.store.turnsOf c).length } prompt reply
          txn.images := by
      rw [State.written, hturns, hmessages]
      rfl
    rw [hwritten]
    refine hevolved.openTurn hopens rfl ?_ (fun other => hok.disjoint_message ?_)
      (fun other => hok.disjoint_message ?_) hpair
    · intro other hother k hk hk'
      have hmine : k ∈ txn.keys := by
        rw [Txn.keys, hturns]
        exact List.mem_append_left _ (by simpa using hk)
      exact (hok.keys k hmine).2
        (List.mem_append_left _ (List.mem_flatMap.mpr ⟨other, hother, hk'⟩))
    · intro k hk
      rw [Txn.keys, hmessages]
      exact List.mem_append_right _ (by simp [hk])
    · intro k hk
      rw [Txn.keys, hmessages]
      exact List.mem_append_right _ (by simp [hk])
  | replaced id =>
    simp only [InsertsOk, hphase] at hinserts
    obtain ⟨hturns, p, m, hmessages, hp, hturn, hreplaces, ⟨m₀, hm₀, hid, hturn₀, hrole, -⟩,
      hflipped⟩ := hinserts
    have hwritten : s.written txn = { s.store.mapMessages txn.view with
        messages := p :: (s.store.mapMessages txn.view).messages
        images := txn.images ++ s.store.images } := by
      rw [State.written, hturns, hmessages]
      rfl
    -- A regenerate adds a reply to the turn of the one that it supersedes.
    have hview := hok.view m₀ hm₀
    rw [hwritten]
    refine (hevolved.supersede (m := txn.view m₀) (List.mem_map_of_mem hm₀)
      (hview.role.trans hrole)
      (hflipped m₀ hm₀ hid) hp ?_ ?_ fun other => hok.disjoint_message ?_).with_images _
    · rw [hturn, hview.turn, hturn₀]
    · rw [hreplaces, hview.id, hid]
    · intro k hk
      rw [Txn.keys, hmessages]
      exact List.mem_append_right _ (by simp [hk])
  | _ =>
    simp only [InsertsOk, hphase] at hinserts
    exact hnone hinserts

theorem Inv.commit (h : Inv env s) (ht : s.txns t = some txn)
    (hstep : s.commit t txn = some s') : Inv env s' := by
  unfold State.commit at hstep
  split at hstep
  · rename_i response hphase
    cases hstep
    exact h.finish (h.store_commit ht hphase) fun t₁ txn₁ hne _ =>
      (h.txn t txn ht).frame_commit hphase _ hne
  · cases hstep

theorem Inv.tick (h : Inv env s) : Inv env { s with now := s.now + 1 } where
  store := h.store
  txn t₁ txn₁ ht₁ := (h.txn t₁ txn₁ ht₁).frame
    (.of_store rfl (fun _ hheld => hheld) (fun _ hheld => hheld) (fun _ hheld => hheld))

/-- A statement is one of an open transaction. -/
theorem exists_txn {f : Txn → Option State} (hstep : (s.txns t).bind f = some s') :
    ∃ txn, s.txns t = some txn ∧ f txn = some s' := Option.bind_eq_some_iff.mp hstep

/-- Every step keeps the invariant. -/
theorem Inv.step {l : Label} (h : Inv env s) (hstep : step env s l = some s') : Inv env s' := by
  cases l with
  | tick =>
    cases hstep
    exact h.tick
  | begin t request => exact h.begin hstep
  | lock t visible =>
    obtain ⟨txn, ht, hstep⟩ := exists_txn hstep
    exact h.lock ht hstep
  | attach t assets =>
    obtain ⟨txn, ht, hstep⟩ := exists_txn hstep
    exact h.attach ht hstep
  | replay t =>
    obtain ⟨txn, ht, hstep⟩ := exists_txn hstep
    exact h.replay ht hstep
  | number t =>
    obtain ⟨txn, ht, hstep⟩ := exists_txn hstep
    exact h.number ht hstep
  | insertTurn t id =>
    obtain ⟨txn, ht, hstep⟩ := exists_txn hstep
    exact h.insertTurn ht hstep
  | insertMessages t promptId replyId =>
    obtain ⟨txn, ht, hstep⟩ := exists_txn hstep
    exact h.insertMessages ht hstep
  | insertImages t =>
    obtain ⟨txn, ht, hstep⟩ := exists_txn hstep
    exact h.insertImages ht hstep
  | allowTags t policy =>
    obtain ⟨txn, ht, hstep⟩ := exists_txn hstep
    exact h.allowTags ht hstep
  | readTarget t =>
    obtain ⟨txn, ht, hstep⟩ := exists_txn hstep
    exact h.readTarget ht hstep
  | readLatest t =>
    obtain ⟨txn, ht, hstep⟩ := exists_txn hstep
    exact h.readLatest ht hstep
  | readSuccessor t =>
    obtain ⟨txn, ht, hstep⟩ := exists_txn hstep
    exact h.readSuccessor ht hstep
  | insertReplacement t id =>
    obtain ⟨txn, ht, hstep⟩ := exists_txn hstep
    exact h.insertReplacement ht hstep
  | startJob t =>
    obtain ⟨txn, ht, hstep⟩ := exists_txn hstep
    exact h.startJob ht hstep
  | update t =>
    obtain ⟨txn, ht, hstep⟩ := exists_txn hstep
    exact h.update ht hstep
  | endJob t =>
    obtain ⟨txn, ht, hstep⟩ := exists_txn hstep
    exact h.endJob ht hstep
  | commit t =>
    obtain ⟨txn, ht, hstep⟩ := exists_txn hstep
    exact h.commit ht hstep
  | abort t =>
    obtain ⟨txn, ht, rfl⟩ := Option.map_eq_some_iff.mp hstep
    exact h.abort t txn

end

end RedTeaming.Conversations
