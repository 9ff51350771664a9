import RedTeaming.Conversations.MessageInvariant

/-!
# `RedTeaming.Conversations.MessageHistory`: the message store over whole runs

What the invariant of the writers says to a reader of the committed store: the turns of a
conversation are numbered without gaps, the replies of a turn are a linear history with one live
reply, and a message that has ended stays what it is.
-/

set_option autoImplicit false

namespace RedTeaming.Conversations

open RedTeaming.Library

/-- A turn as a reader finds it. `chain` is about its replies, newest first. -/
structure Linear (store : Store) (turn : TurnId) : Prop where
  prompt : ∃ m, store.prompts turn = [m]
  chain : IsChain (store.replies turn)
  once : ∀ m ∈ store.replies turn, ∀ a ∈ store.messages, ∀ b ∈ store.messages,
    a.replaces = some m.id → b.replaces = some m.id → a = b
  live : ∃ m ∈ store.replies turn, store.isSuperseded m.id = false ∧
    (∀ m' ∈ store.replies turn, store.isSuperseded m'.id = false → m' = m) ∧
    ∀ m' ∈ store.messagesOf turn, m'.status = .streaming → m' = m

/-- The store as a reader finds it. -/
structure Ordered (store : Store) : Prop where
  indexes : ∀ c, ((store.turnsOf c).map Turn.index).Perm (List.range (store.turnsOf c).length)
  linear : ∀ turn ∈ store.turns, Linear store turn.id

/-- What a terminal message keeps. -/
structure Settled (env : Env) (m m' : Message) : Prop where
  id : m'.id = m.id
  status : m'.status = m.status
  text : env.text m' = env.text m
  extra : m'.extra = m.extra

section
variable {store : Store} {turn : TurnId} {m : Message}

/-- In a chain, a reply that supersedes something is followed by what it supersedes. -/
theorem IsChain.exists_next {ms : List Message} (h : IsChain ms) (hm : m ∈ ms) {id : MessageId}
    (hid : m.replaces = some id) : ∃ y ∈ ms.tail, y.id = id := by
  induction ms with
  | nil => cases hm
  | cons x ms ih =>
    cases ms with
    | nil =>
      rw [List.mem_singleton] at hm
      rw [hm, show x.replaces = none from h] at hid
      cases hid
    | cons y rest =>
      rcases List.mem_cons.mp hm with rfl | hm
      · rw [h.1] at hid
        cases hid
        exact ⟨y, List.mem_cons_self, rfl⟩
      · obtain ⟨z, hz, hzid⟩ := ih h.2 hm
        exact ⟨z, List.mem_cons_of_mem _ hz, hzid⟩

/-- The newest reply of a turn is not superseded. -/
theorem StoreOk.head_live (h : StoreOk store) {rest : List Message}
    (hreplies : store.replies turn = m :: rest) : store.isSuperseded m.id = false := by
  rw [Store.isSuperseded, List.any_eq_false]
  intro x hx hsucc
  have hsucc : x.replaces = some m.id := beq_iff_eq.mp hsucc
  have hrole : x.role = .assistant := by
    by_contra hnot
    rw [h.replaces x hx hnot] at hsucc
    cases hsucc
  obtain ⟨other, hother, hid⟩ := h.message_turn x hx
  have hmem : x ∈ store.replies other.id := mem_replies.mpr ⟨hx, hid.symm, hrole⟩
  obtain ⟨y, hy, hyid⟩ := (h.turns other hother).chain.exists_next hmem hsucc
  -- What `x` supersedes is the newest reply of its turn, so it is not behind `x`.
  have hm : m ∈ store.replies turn := by
    rw [hreplies]
    exact List.mem_cons_self
  have hymem := mem_replies.mp (List.mem_of_mem_tail hy)
  have hsame : y = m := h.eq_of_id hymem.1 (mem_replies.mp hm).1 hyid
  have hturn : other.id = turn := by
    rw [← hymem.2.1, hsame]
    exact (mem_replies.mp hm).2.1
  have hpairwise : (store.replies turn).Pairwise fun a b => a.keys.Disjoint b.keys :=
    (h.message_keys.sublist List.filter_sublist).sublist List.filter_sublist
  rw [hturn, hreplies, hsame] at hy
  rw [hreplies, List.pairwise_cons] at hpairwise
  have hkey : Key.message m.id ∈ m.keys := List.mem_cons_self
  exact hpairwise.1 m hy hkey hkey

/-- A turn of a store of the right shape is a linear history. -/
theorem StoreOk.linear (h : StoreOk store) {turn : Turn} (hturn : turn ∈ store.turns) :
    Linear store turn.id := by
  have hok := h.turns turn hturn
  refine ⟨List.length_eq_one_iff.mp hok.prompt, hok.chain, ?_, ?_⟩
  · intro m _ a ha b hb hreplaces hreplaces'
    exact h.eq_of_replaces ha hb hreplaces hreplaces'
  · cases hreplies : store.replies turn.id with
    | nil =>
      have hchain := hok.chain
      rw [hreplies] at hchain
      cases hchain
    | cons m rest =>
      refine ⟨m, List.mem_cons_self, h.head_live hreplies, ?_, ?_⟩
      · intro m' hm' hlive
        rw [← hreplies] at hm'
        have hnone : ∀ x ∈ store.replies turn.id, x.replaces ≠ some m'.id := by
          intro x hx hsucc
          have hno := List.any_eq_false.mp hlive x (mem_replies.mp hx).1
          exact hno (beq_iff_eq.mpr hsucc)
        obtain ⟨rest', hrest'⟩ := hok.chain.head_of_live hm' hnone
        rw [hreplies] at hrest'
        exact (List.cons.inj hrest').1.symm
      · intro m' hm' hstreaming
        simp only [Store.messagesOf, List.mem_filter, beq_iff_eq] at hm'
        have hrole := (h.streaming m' hm'.1 hstreaming).role
        have hmem : m' ∈ store.replies turn.id := mem_replies.mpr ⟨hm'.1, hm'.2, hrole⟩
        rw [hreplies] at hmem
        rcases List.mem_cons.mp hmem with rfl | htail
        · rfl
        · have hended := hok.ended
          rw [hreplies] at hended
          exact absurd hstreaming (hended m' htail)

theorem StoreOk.ordered (h : StoreOk store) : Ordered store where
  indexes c := by
    rw [h.indexes c]
    exact List.reverse_perm _
  linear _ hturn := h.linear hturn

end

/-! ### Runs -/

/-- A store of the right shape, and no open transaction. -/
structure Start (s : State) : Prop where
  store : StoreOk s.store
  txns : ∀ t, s.txns t = none

theorem Start.inv {env : Env} {s : State} (h : Start s) : Inv env s where
  store := h.store
  txn t txn ht := by
    rw [h.txns t] at ht
    cases ht

section
variable {env : Env} {s s' : State} {t : TxnId}

/-- The transaction whose statement, short of its end, a label is. -/
def Label.statement : Label → Option TxnId
  | .lock t _ | .attach t _ | .replay t | .number t | .insertTurn t _ | .insertMessages t _ _
  | .insertImages t | .allowTags t _ | .readTarget t | .readLatest t | .readSuccessor t
  | .insertReplacement t _ | .startJob t | .update t | .endJob t => some t
  | _ => none

/-- What a statement leaves: it commits nothing, ends nothing, and touches the record of its own
transaction only. -/
structure Statement (s s' : State) (t : TxnId) : Prop where
  store : s'.store = s.store
  answers : s'.answers = s.answers
  request : (s'.txns t).map Txn.request = (s.txns t).map Txn.request
  others : ∀ t', t' ≠ t → s'.txns t' = s.txns t'

/-- A write of the record of `t` is a statement. -/
theorem Statement.of_setTxn {x : State} {txn txn' : Txn} (ht : s.txns t = some txn)
    (hrequest : txn'.request = txn.request) (hstore : x.store = s.store)
    (hanswers : x.answers = s.answers) (htxns : x.txns = s.txns) :
    Statement s (x.setTxn t txn') t where
  store := hstore
  answers := hanswers
  request := by
    rw [State.setTxn_txns_self, ht, Option.map_some, Option.map_some, hrequest]
  others t' hne := by
    rw [State.setTxn_txns_of_ne hne, htxns]

theorem statement_of_step {l : Label} (hl : l.statement = some t)
    (hstep : step env s l = some s') : Statement s s' t := by
  cases l with
  | lock t visible =>
    cases hl
    obtain ⟨txn, ht, h⟩ := exists_txn hstep
    constructor <;> grind [State.lock, State.fail]
  | attach t assets =>
    cases hl
    obtain ⟨txn, ht, h⟩ := exists_txn hstep
    constructor <;> grind [State.attach, State.fail]
  | replay t =>
    cases hl
    obtain ⟨txn, ht, h⟩ := exists_txn hstep
    unfold State.replay at h
    split at h
    · split at h
      · cases h
        exact .of_setTxn ht rfl rfl rfl rfl
      · split at h
        · cases h
          exact .of_setTxn ht rfl rfl rfl rfl
        · cases h
          exact .of_setTxn ht rfl rfl rfl rfl
        · cases h
          exact .of_setTxn ht rfl rfl rfl rfl
    · cases h
  | number t =>
    cases hl
    obtain ⟨txn, ht, h⟩ := exists_txn hstep
    constructor <;> grind [State.number]
  | insertTurn t id =>
    cases hl
    obtain ⟨txn, ht, h⟩ := exists_txn hstep
    constructor <;> grind [State.insertTurn, State.fail]
  | insertMessages t promptId replyId =>
    cases hl
    obtain ⟨txn, ht, h⟩ := exists_txn hstep
    unfold State.insertMessages at h
    split at h
    · split at h
      · cases h
        exact .of_setTxn ht rfl rfl rfl rfl
      · dsimp only at h
        split at h
        · cases h
          exact .of_setTxn ht rfl rfl rfl rfl
        · cases h
        · cases h
          exact .of_setTxn ht rfl rfl rfl rfl
    · cases h
  | insertImages t =>
    cases hl
    obtain ⟨txn, ht, h⟩ := exists_txn hstep
    constructor <;> grind [State.insertImages]
  | allowTags t policy =>
    cases hl
    obtain ⟨txn, ht, h⟩ := exists_txn hstep
    constructor <;> grind [State.allowTags, State.fail]
  | readTarget t =>
    cases hl
    obtain ⟨txn, ht, h⟩ := exists_txn hstep
    constructor <;> grind [State.readTarget, State.fail]
  | readLatest t =>
    cases hl
    obtain ⟨txn, ht, h⟩ := exists_txn hstep
    constructor <;> grind [State.readLatest, State.fail]
  | readSuccessor t =>
    cases hl
    obtain ⟨txn, ht, h⟩ := exists_txn hstep
    constructor <;> grind [State.readSuccessor, State.fail]
  | insertReplacement t id =>
    cases hl
    obtain ⟨txn, ht, h⟩ := exists_txn hstep
    constructor <;> grind [State.insertReplacement, State.fail]
  | startJob t =>
    cases hl
    obtain ⟨txn, ht, h⟩ := exists_txn hstep
    constructor <;> grind [State.startJob]
  | update t =>
    cases hl
    obtain ⟨txn, ht, h⟩ := exists_txn hstep
    constructor <;> grind [State.update]
  | endJob t =>
    cases hl
    obtain ⟨txn, ht, h⟩ := exists_txn hstep
    constructor <;> grind [State.endJob]
  | _ => cases hl

/-- Only a commit writes. -/
theorem store_of_step {l : Label} (hstep : step env s l = some s') (hl : ∀ t, l ≠ .commit t) :
    s'.store = s.store := by
  cases hstatement : l.statement with
  | some t => exact (statement_of_step hstatement hstep).store
  | none =>
    cases l with
    | tick =>
      cases hstep
      rfl
    | begin t request => grind [step, State.begin]
    | commit t => exact absurd rfl (hl t)
    | abort t =>
      obtain ⟨txn, -, rfl⟩ := Option.map_eq_some_iff.mp hstep
      grind [State.abort, State.finish]
    | _ => cases hstatement

/-- A step lets each message evolve. -/
theorem Inv.evolves_step {l : Label} (h : Inv env s)
    (hstep : Conversations.step env s l = some s') {m : Message}
    (hm : m ∈ s.store.messages) : ∃ m' ∈ s'.store.messages, Evolves env m m' := by
  by_cases hl : ∃ t, l = .commit t
  · obtain ⟨t, rfl⟩ := hl
    obtain ⟨txn, ht, hcommit⟩ := exists_txn hstep
    unfold State.commit at hcommit
    split at hcommit
    · cases hcommit
      exact ⟨txn.view m, List.mem_append_right _ (List.mem_map_of_mem hm),
        (h.txn t txn ht).view m hm⟩
    · cases hcommit
  · rw [store_of_step hstep fun t ht => hl ⟨t, ht⟩]
    exact ⟨m, hm, .refl env m⟩

/-- A run lets each message evolve. -/
theorem Inv.evolves_run {ls : List Label} (h : Inv env s)
    (hrun : run (Conversations.step env) s ls = some s')
    {m : Message} (hm : m ∈ s.store.messages) : ∃ m' ∈ s'.store.messages, Evolves env m m' := by
  have hkeep : ∀ s₁ l s₂, Inv env s₁ ∧ (∃ m' ∈ s₁.store.messages, Evolves env m m') →
      Conversations.step env s₁ l = some s₂ → Inv env s₂ ∧ ∃ m' ∈ s₂.store.messages,
        Evolves env m m' := by
    rintro s₁ l s₂ ⟨hinv, m₁, hm₁, hevolves⟩ hstep
    obtain ⟨m₂, hm₂, hnext⟩ := hinv.evolves_step hstep hm₁
    exact ⟨hinv.step hstep, m₂, hm₂, hevolves.trans hnext⟩
  exact (run_invariant hkeep ⟨h, m, hm, .refl env m⟩ hrun).2

end

/-- **The message store.** In every reachable state the turns are numbered without gaps, each is a
linear history with one live reply, and in whatever the run goes on to, a message that has ended
keeps its status, its text and its `extra`. -/
theorem message_store {env : Env} {s₀ s s' : State} {ls ls' : List Label} (hstart : Start s₀)
    (hrun : run (step env) s₀ ls = some s) (hrun' : run (step env) s ls' = some s') :
    Ordered s.store ∧ ∀ m ∈ s.store.messages, m.status ≠ .streaming →
      ∃ m' ∈ s'.store.messages, Settled env m m' := by
  have hinv : Inv env s := run_invariant (fun _ _ _ => Inv.step) hstart.inv hrun
  refine ⟨hinv.store.ordered, ?_⟩
  intro m hm hended
  obtain ⟨m', hm', hevolves⟩ := hinv.evolves_run hrun' hm
  exact ⟨m', hm', hevolves.id, hevolves.status hended, hevolves.text hended,
    hevolves.extra hended⟩

/-- A deployment whose conversations are not protected. -/
def openEnv : Env where
  primitives := plainPrimitives
  settings := { secretsKey := "k", secretsKeyRetired := none }
  contentProtected _ := false
  ring := _
  ring_eq := rfl

/-- An empty database. -/
def emptyState : State where
  store := { turns := [], messages := [], images := [] }
  txns _ := none
  answers _ := none
  conversationLock _ := none
  rowLock _ := none
  keyLock _ := none
  now := 0

theorem start_emptyState : Start emptyState where
  store :=
    { turn_keys := List.Pairwise.nil, message_keys := List.Pairwise.nil, indexes := fun _ => rfl
      turns := fun _ h => absurd h List.not_mem_nil
      message_turn := fun _ h => absurd h List.not_mem_nil
      streaming := fun _ h => absurd h List.not_mem_nil
      replaces := fun _ h => absurd h List.not_mem_nil }
  txns _ := rfl

/-- A send, its reply, and a request to generate the reply again. -/
def sendAndRegenerate : List Label :=
  [.begin 0 (.send 1 5 9 "hi" (some 77) [] [] zeroNonce), .lock 0 true,
    .attach 0 [], .replay 0, .number 0, .insertTurn 0 100, .insertMessages 0 200 201,
    .insertImages 0, .allowTags 0 none, .commit 0,
    .begin 1 (.finalize 201 "hello" false ⟨.complete, nofun⟩ (some [])), .startJob 1, .update 1,
    .endJob 1, .commit 1,
    .begin 2 (.replace 1 5 201), .lock 2 true, .readTarget 2, .readLatest 2, .readSuccessor 2,
    .insertReplacement 2 202, .commit 2]

/-- A late end of the first stream, and the reaper. -/
def finalizeAndReap : List Label :=
  [.begin 3 (.finalize 201 "late" false ⟨.error, nofun⟩ (some [])), .startJob 3, .update 3,
    .endJob 3, .commit 3, .tick, .begin 4 (.reap 1), .startJob 4, .update 4, .endJob 4, .commit 4]

theorem message_store_of_regenerate : ∃ s s',
    run (step openEnv) emptyState sendAndRegenerate = some s ∧
    run (step openEnv) s finalizeAndReap = some s' ∧ (s.store.replies 100).length = 2 ∧
    Ordered s.store ∧ ∀ m ∈ s.store.messages, m.status ≠ .streaming →
      ∃ m' ∈ s'.store.messages, Settled openEnv m m' := by
  have hany : (run (step openEnv) emptyState (sendAndRegenerate ++ finalizeAndReap)).any
      (fun s => s.store.messages.all fun m => m.status ≠ .streaming) = true := by decide +kernel
  obtain ⟨s', hrun, -⟩ := exists_run_of_any hany
  obtain ⟨s, hfirst, hrest⟩ := (run_append_eq_some (step openEnv)).mp hrun
  have hreplies : (run (step openEnv) emptyState sendAndRegenerate).any
      (fun s => (s.store.replies 100).length == 2) = true := by decide +kernel
  rw [hfirst] at hreplies
  exact ⟨s, s', hfirst, hrest, beq_iff_eq.mp hreplies,
    message_store start_emptyState hfirst hrest⟩

end RedTeaming.Conversations
