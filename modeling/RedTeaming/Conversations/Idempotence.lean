import RedTeaming.Conversations.Sending

/-!
# `RedTeaming.Conversations.Idempotence`: sends over whole runs

`SendInv` adds to the invariant of the writers what each open send knows about its key. From it
follows how a send ends whose key is on a committed message (`RepeatEnds`), and that only a send
that answers with a turn of its own writes anything (`send_idempotent`).
-/

set_option autoImplicit false

namespace RedTeaming.Conversations

open RedTeaming.Library

/-! ### The steps by what they leave -/

/-- A step is a statement, or it begins or ends a transaction. -/
inductive Move (s : State) : Label → State → Prop
  | tick : Move s .tick { s with now := s.now + 1 }
  | statement (l : Label) (t : TxnId) (s' : State) (hl : l.statement = some t)
      (h : Statement s s' t) : Move s l s'
  | begin (t : TxnId) (request : Request) (ht : s.txns t = none) (ha : s.answers t = none) :
      Move s (.begin t request) (s.setTxn t { request, phase := .begun, startedAt := s.now })
  | commit (t : TxnId) (txn : Txn) (r : Response) (ht : s.txns t = some txn)
      (hphase : txn.phase = .ready r) :
      Move s (.commit t) ({ s with store := s.written txn }.finish t (txn.request, r))
  | abort (t : TxnId) (txn : Txn) (r : Response) (ht : s.txns t = some txn)
      (hr : r = .lost ∨ ∃ e, txn.phase = .failed e ∧ r = .refused e) :
      Move s (.abort t) (s.finish t (txn.request, r))

section
variable {env : Env} {s s' : State} {t : TxnId} {txn : Txn} {store : Store} {c : ConversationId}
  {key : Option Nat} {k : Nat}

theorem move_of_step {l : Label} (hstep : step env s l = some s') : Move s l s' := by
  cases hl : l.statement with
  | some t => exact .statement l t s' hl (statement_of_step hl hstep)
  | none =>
    cases l with
    | tick =>
      cases hstep
      exact .tick
    | begin t request =>
      have hbegin : s.begin t request = some s' := hstep
      unfold State.begin at hbegin
      split at hbegin
      · rename_i ht ha
        cases hbegin
        exact .begin t request ht ha
      · cases hbegin
    | commit t =>
      obtain ⟨txn, ht, hcommit⟩ := exists_txn hstep
      unfold State.commit at hcommit
      split at hcommit
      · rename_i r hphase
        cases hcommit
        exact .commit t txn r ht hphase
      · cases hcommit
    | abort t =>
      obtain ⟨txn, ht, rfl⟩ := Option.map_eq_some_iff.mp hstep
      -- an abort answers with the refusal of the transaction, or the connection is lost
      unfold State.abort
      split
      · rename_i e hphase
        exact .abort t txn (.refused e) ht (Or.inr ⟨e, hphase, rfl⟩)
      · exact .abort t txn .lost ht (Or.inl rfl)
    | _ => cases hl

/-! ### Commits of the others -/

/-- A message with a client message id that a transaction inserts is in the turn that it
inserts. -/
theorem TxnOk.keyed_turn (h : TxnOk env s t txn) {r : Response} (hphase : txn.phase = .ready r)
    {m : Message} (hm : m ∈ txn.messages) (hkey : m.clientMessageId = some k) :
    Key.turn m.turn ∈ txn.keys := by
  have hinserts := h.inserts
  cases r with
  | opened id =>
    simp only [InsertsOk, hphase] at hinserts
    obtain ⟨⟨e, c, -, hturns⟩, prompt, reply, hmessages, hopens, -⟩ := hinserts
    have hturn : m.turn = id := by
      rw [hmessages] at hm
      rcases List.mem_cons.mp hm with rfl | hprompt
      · exact hopens.reply_turn
      · rw [List.mem_singleton.mp hprompt]
        exact hopens.prompt_turn
    rw [hturn]
    simp [Txn.keys, hturns, Turn.keys]
  | replaced id =>
    simp only [InsertsOk, hphase] at hinserts
    obtain ⟨-, p, -, hmessages, hp, -⟩ := hinserts
    rw [hmessages, List.mem_singleton] at hm
    rw [hm, hp.unkeyed] at hkey
    cases hkey
  | _ =>
    simp only [InsertsOk, hphase] at hinserts
    rw [hinserts.2] at hm
    cases hm

/-- A key stays unused in a conversation while another transaction than the committing one holds
the lock of the conversation. -/
theorem Unused.commit (h : Unused s.store c k) (hok : TxnOk env s t txn) {r : Response}
    (hphase : txn.phase = .ready r) (hlock : s.conversationLock c ≠ some t) :
    Unused (s.written txn) c k := by
  intro m hm hkey turn hturn hid hconversation
  rcases List.mem_append.mp hturn with hnew | hold
  · -- The committing transaction holds the lock of its turn's conversation.
    have hmine := hok.turn_locked hphase hnew
    rw [hconversation] at hmine
    exact hlock hmine
  · rcases List.mem_append.mp hm with hnew | hrow
    · have hfree := (hok.keys _ (hok.keyed_turn hphase hnew hkey)).2
      apply hfree
      rw [← hid]
      exact List.mem_append_left _ (List.mem_flatMap.mpr ⟨turn, hold, List.mem_cons_self⟩)
    · obtain ⟨m₀, hm₀, rfl⟩ := List.mem_map.mp hrow
      have hevolves := hok.view m₀ hm₀
      have hkey₀ : m₀.clientMessageId = some k := hevolves.clientMessageId.symm.trans hkey
      exact h m₀ hm₀ hkey₀ turn hold (hid.trans hevolves.turn) hconversation

/-- The turn of a key stays. -/
theorem OpenedWith.commit {id : TurnId} (h : OpenedWith s.store c k id)
    (hok : TxnOk env s t txn) :
    OpenedWith (s.written txn) c k id := by
  obtain ⟨m, hm, hkey, hturn, turn, hmem, hid, hconversation⟩ := h
  have hevolves := hok.view m hm
  exact ⟨txn.view m, List.mem_append_right _ (List.mem_map_of_mem hm),
    hevolves.clientMessageId.trans hkey, hevolves.turn.trans hturn, turn,
    List.mem_append_right _ hmem, hid, hconversation⟩

/-- A commit of another transaction does not change what an open send knows. -/
theorem KeyOk.commit {txn₁ : Txn} (h : KeyOk s.store c key txn₁) (hok : TxnOk env s t txn)
    {r : Response} (hphase : txn.phase = .ready r)
    (hlock : txn₁.phase.isLocked = true → s.conversationLock c ≠ some t) :
    KeyOk (s.written txn) c key txn₁ := by
  -- before the turn is decided the send holds the lock, and the committed transaction cannot hold
  -- it too
  have hunused : txn₁.phase.isLocked = true → (∀ k, key = some k → Unused s.store c k) →
      ∀ k, key = some k → Unused (s.written txn) c k := by
    intro hlocked hall k hk
    exact (hall k hk).commit hok hphase (hlock hlocked)
  cases hphase₁ : txn₁.phase with
  | fresh =>
    simp only [KeyOk, hphase₁] at h ⊢
    exact hunused (by rw [hphase₁]; rfl) h
  | numbered index =>
    simp only [KeyOk, hphase₁] at h ⊢
    exact hunused (by rw [hphase₁]; rfl) h
  | opened turn =>
    simp only [KeyOk, hphase₁] at h ⊢
    exact hunused (by rw [hphase₁]; rfl) h
  | ready r₁ =>
    cases r₁ with
    | replayed id =>
      simp only [KeyOk, hphase₁] at h ⊢
      obtain ⟨k, hk, hopened⟩ := h
      exact ⟨k, hk, hopened.commit hok⟩
    | _ =>
      rw [KeyOk, hphase₁] at h ⊢
      exact h
  | _ =>
    rw [KeyOk, hphase₁] at h ⊢
    exact h

end

/-! ### The invariant -/

/-- What holds in every reachable state, with the sends. -/
structure SendInv (env : Env) (s : State) : Prop where
  inv : Inv env s
  send : ∀ t txn c key, s.txns t = some txn → txn.request.sendTarget = some (c, key) →
    SendOk s.store c key txn
  unanswered : ∀ t txn, s.txns t = some txn → s.answers t = none

section
variable {env : Env} {s s' : State} {t : TxnId} {txn : Txn} {c : ConversationId}
  {key : Option Nat} {k : Nat}

theorem Start.sendInv (h : Start s) : SendInv env s where
  inv := h.inv
  send t txn c key ht := by
    rw [h.txns t] at ht
    cases ht
  unanswered t txn ht := by
    rw [h.txns t] at ht
    cases ht

/-- The conversation that a send locks. -/
theorem lockTarget_of_sendTarget {request : Request} (h : request.sendTarget = some (c, key)) :
    ∃ evaluation, State.lockTarget request = some (evaluation, c) := by
  cases request with
  | send evaluation c' caller content clientMessageId imageKeys tags nonce =>
    cases h
    exact ⟨evaluation, rfl⟩
  | _ => cases h

theorem SendInv.step {l : Label} (h : SendInv env s)
    (hstep : Conversations.step env s l = some s') : SendInv env s' := by
  have hinv' : Inv env s' := h.inv.step hstep
  cases move_of_step hstep with
  | tick => exact ⟨hinv', h.send, h.unanswered⟩
  | statement l t s' hl hmove =>
    refine ⟨hinv', ?_, ?_⟩
    · intro t₁ txn₁ c key ht₁ htarget
      by_cases hne : t₁ = t
      · -- the transaction that makes the step: its own statement keeps what it knows
        subst hne
        have hrequest := hmove.request
        rw [ht₁] at hrequest
        obtain ⟨txn, ht, hsame⟩ := Option.map_eq_some_iff.mp hrequest.symm
        rw [← hsame] at htarget
        obtain ⟨txn', ht', hsend⟩ :=
          (h.send t₁ txn c key ht htarget).statement h.inv ht htarget hl hstep
        rw [ht₁] at ht'
        cases ht'
        rw [hmove.store]
        exact hsend.ok
      · rw [hmove.others t₁ hne] at ht₁
        rw [hmove.store]
        exact h.send t₁ txn₁ c key ht₁ htarget
    · intro t₁ txn₁ ht₁
      rw [hmove.answers]
      by_cases hne : t₁ = t
      · subst hne
        have hrequest := hmove.request
        rw [ht₁] at hrequest
        obtain ⟨txn, ht, -⟩ := Option.map_eq_some_iff.mp hrequest.symm
        exact h.unanswered t₁ txn ht
      · rw [hmove.others t₁ hne] at ht₁
        exact h.unanswered t₁ txn₁ ht₁
  | begin t request ht ha =>
    refine ⟨hinv', ?_, ?_⟩
    · intro t₁ txn₁ c key ht₁ htarget
      rcases (update_some_eq_some.mp ht₁) with ⟨rfl, rfl⟩ | ⟨hne, ht₁⟩
      · exact ⟨rfl, rfl, fun _ => rfl, trivial⟩
      · exact h.send t₁ txn₁ c key ht₁ htarget
    · intro t₁ txn₁ ht₁
      rcases (update_some_eq_some.mp ht₁) with ⟨rfl, rfl⟩ | ⟨hne, ht₁⟩
      · exact ha
      · exact h.unanswered t₁ txn₁ ht₁
  | commit t txn r ht hphase =>
    have hok := h.inv.txn t txn ht
    refine ⟨hinv', ?_, ?_⟩
    · intro t₁ txn₁ c key ht₁ htarget
      obtain ⟨hne, ht₁⟩ := update_none_eq_some.mp ht₁
      have hsend := h.send t₁ txn₁ c key ht₁ htarget
      refine ⟨hsend.todo, hsend.updates, hsend.images, ?_⟩
      apply hsend.key.commit hok hphase
      intro hlocked hlock
      obtain ⟨evaluation, htarget'⟩ := lockTarget_of_sendTarget htarget
      -- two transactions would hold the lock of one conversation
      have hmine := (h.inv.txn t₁ txn₁ ht₁).locked hlocked evaluation c htarget'
      rw [hmine] at hlock
      exact hne (Option.some.inj hlock)
    · intro t₁ txn₁ ht₁
      obtain ⟨hne, ht₁⟩ := update_none_eq_some.mp ht₁
      rw [State.finish_answers_of_ne hne]
      exact h.unanswered t₁ txn₁ ht₁
  | abort t txn r ht hr =>
    refine ⟨hinv', ?_, ?_⟩
    · intro t₁ txn₁ c key ht₁ htarget
      obtain ⟨hne, ht₁⟩ := update_none_eq_some.mp ht₁
      exact h.send t₁ txn₁ c key ht₁ htarget
    · intro t₁ txn₁ ht₁
      obtain ⟨hne, ht₁⟩ := update_none_eq_some.mp ht₁
      rw [State.finish_answers_of_ne hne]
      exact h.unanswered t₁ txn₁ ht₁

/-- An answer is final. -/
theorem SendInv.answer_kept {l : Label} (h : SendInv env s)
    (hstep : Conversations.step env s l = some s') {a : Request × Response}
    (ha : s.answers t = some a) : s'.answers t = some a := by
  have hdone : ∀ t₁ txn, s.txns t₁ = some txn → t ≠ t₁ := by
    intro t₁ txn ht heq
    rw [heq, h.unanswered t₁ txn ht] at ha
    cases ha
  cases move_of_step hstep with
  | tick => exact ha
  | statement l t₁ s' hl hmove =>
    rw [hmove.answers]
    exact ha
  | begin t₁ request ht hnone => exact ha
  | commit t₁ txn r ht hphase =>
    rw [State.finish_answers_of_ne (hdone t₁ txn ht)]
    exact ha
  | abort t₁ txn r ht hr =>
    rw [State.finish_answers_of_ne (hdone t₁ txn ht)]
    exact ha

/-- A run keeps the invariant and the answers. -/
theorem SendInv.run {ls : List Label} (h : SendInv env s)
    (hrun : Library.run (Conversations.step env) s ls = some s') :
    SendInv env s' ∧ ∀ t a, s.answers t = some a → s'.answers t = some a := by
  have hkeep : ∀ s₁ l s₂, (SendInv env s₁ ∧ ∀ t a, s.answers t = some a → s₁.answers t = some a) →
      Conversations.step env s₁ l = some s₂ →
      SendInv env s₂ ∧ ∀ t a, s.answers t = some a → s₂.answers t = some a := by
    rintro s₁ l s₂ ⟨hinv, hanswers⟩ hstep
    exact ⟨hinv.step hstep, fun t a ha => hinv.answer_kept hstep (hanswers t a ha)⟩
  exact run_invariant hkeep ⟨h, fun _ _ ha => ha⟩ hrun

/-! ### What the answers name -/

/-- The turn that an answer names. -/
def Response.turn? : Response → Option TurnId
  | .opened id => some id
  | .replayed id => some id
  | _ => none

/-- A send with a key answers with the turn of that key. -/
def AnswerOk (store : Store) (request : Request) (r : Response) : Prop :=
  ∀ c k id, request.sendTarget = some (c, some k) → r.turn? = some id → OpenedWith store c k id

/-- What a send commits that opened a turn. -/
theorem TxnOk.openedWith (h : TxnOk env s t txn) {id : TurnId}
    (htarget : txn.request.sendTarget = some (c, some k))
    (hphase : txn.phase = .ready (.opened id))
    (hkey : Key.clientMessageId k ∈ txn.keys) : OpenedWith (s.written txn) c k id := by
  have hinserts := h.inserts
  simp only [InsertsOk, hphase] at hinserts
  obtain ⟨⟨e, c', hlock, hturns⟩, prompt, reply, hmessages, hopens, -⟩ := hinserts
  obtain ⟨evaluation, hlock'⟩ := lockTarget_of_sendTarget htarget
  rw [hlock'] at hlock
  cases hlock
  have hprompt : prompt.clientMessageId = some k := by
    simpa [Txn.keys, hturns, hmessages, Turn.keys, Message.keys, hopens.reply_placeholder.unkeyed]
      using hkey
  have hmem : prompt ∈ (s.written txn).messages := by
    simp [State.written, hmessages]
  have hturn : { id, conversation := c, index := (s.store.turnsOf c).length } ∈
      (s.written txn).turns := by
    simp [State.written, hturns]
  exact ⟨prompt, hmem, hprompt, hopens.prompt_turn, _, hturn, rfl, rfl⟩

/-- What a send knows of its key when it commits. -/
theorem SendInv.answerOk_commit (h : SendInv env s) (ht : s.txns t = some txn) {r : Response}
    (hphase : txn.phase = .ready r) : AnswerOk (s.written txn) txn.request r := by
  intro c k id htarget hid
  have hok := h.inv.txn t txn ht
  have hkey := (h.send t txn c (some k) ht htarget).key
  cases r with
  | opened id' =>
    cases hid
    simp only [KeyOk, hphase] at hkey
    exact hok.openedWith htarget hphase (hkey k rfl)
  | replayed id' =>
    cases hid
    simp only [KeyOk, hphase] at hkey
    obtain ⟨k', hk', hopened⟩ := hkey
    cases hk'
    exact hopened.commit hok
  | _ => cases hid

/-- A step keeps what the answers say, and adds only answers that are right. -/
theorem SendInv.answerOk_step {l : Label} (h : SendInv env s)
    (hstep : Conversations.step env s l = some s') {old : TxnId → Option (Request × Response)}
    (hold : ∀ t request r, old t = none → s.answers t = some (request, r) →
      AnswerOk s.store request r) :
    ∀ t request r, old t = none → s'.answers t = some (request, r) →
      AnswerOk s'.store request r := by
  intro t request r hnew ha
  cases move_of_step hstep with
  | tick => exact hold t request r hnew ha
  | statement l t₁ s' hl hmove =>
    rw [hmove.answers] at ha
    rw [hmove.store]
    exact hold t request r hnew ha
  | begin t₁ request₁ ht hnone => exact hold t request r hnew ha
  | commit t₁ txn r₁ ht hphase =>
    rcases update_some_eq_some.mp ha with ⟨rfl, hsame⟩ | ⟨hne, ha⟩
    · cases hsame
      exact h.answerOk_commit ht hphase
    · intro c k id htarget hid
      exact (hold t request r hnew ha c k id htarget hid).commit (h.inv.txn t₁ txn ht)
  | abort t₁ txn r₁ ht hr =>
    rcases update_some_eq_some.mp ha with ⟨rfl, hsame⟩ | ⟨hne, ha⟩
    · cases hsame
      intro c k id htarget hid
      rcases hr with rfl | ⟨e, -, rfl⟩
      · cases hid
      · cases hid
    · exact hold t request r hnew ha

/-! ### A repeat -/

/-- How a send to the conversation `c` ends whose key has opened `turn`. -/
inductive RepeatEnds (turn : Turn) (c : ConversationId) (request : Request) : Response → Prop
  | replayed (h : turn.conversation = c) : RepeatEnds turn c request (.replayed turn.id)
  | conflict (h : turn.conversation ≠ c) (msg : String) :
      RepeatEnds turn c request (.refused (.conflict msg))
  | refused (e : ApiError) (h : RefusedBefore request e) : RepeatEnds turn c request (.refused e)
  | lost : RepeatEnds turn c request .lost

/-- The turn `turn` has the key `k`, and the request `t` ends as a repeat if it is one. -/
structure Repeat (s : State) (t : TxnId) (c : ConversationId) (k : Nat) (turn : Turn) : Prop where
  message : ∃ m ∈ s.store.messages, m.clientMessageId = some k ∧ m.turn = turn.id
  stored : turn ∈ s.store.turns
  failed : ∀ txn e, s.txns t = some txn → txn.request.sendTarget = some (c, some k) →
    txn.phase = .failed e → RepeatEnds turn c txn.request (.refused e)
  answer : ∀ request r, s.answers t = some (request, r) →
    request.sendTarget = some (c, some k) → RepeatEnds turn c request r

section
variable {turn : Turn}

/-- The key is committed, so no open transaction holds it. -/
theorem Repeat.not_mem_keys (hr : Repeat s t c k turn) (hok : TxnOk env s t txn) :
    Key.clientMessageId k ∉ txn.keys := by
  intro hmem
  obtain ⟨m, hm, hkey, -⟩ := hr.message
  apply (hok.keys _ hmem).2
  apply List.mem_append_right
  exact List.mem_flatMap.mpr ⟨m, hm, by simp [Message.keys, hkey]⟩

/-- The key is used, where its turn is. -/
theorem Repeat.conversation_ne (hr : Repeat s t c k turn) (hunused : Unused s.store c k) :
    turn.conversation ≠ c := by
  obtain ⟨m, hm, hkey, hturn⟩ := hr.message
  exact hunused m hm hkey turn hr.stored hturn.symm

/-- A repeat that commits replays the turn. -/
theorem Repeat.ready (hr : Repeat s t c k turn) (h : SendInv env s) (ht : s.txns t = some txn)
    (htarget : txn.request.sendTarget = some (c, some k)) {r : Response}
    (hphase : txn.phase = .ready r) : RepeatEnds turn c txn.request r := by
  have hkey := (h.send t txn c (some k) ht htarget).key
  cases r with
  | opened id =>
    simp only [KeyOk, hphase] at hkey
    -- it cannot have opened a turn: the key is taken by the first send
    exact absurd (hkey k rfl) (hr.not_mem_keys (h.inv.txn t txn ht))
  | replayed id =>
    simp only [KeyOk, hphase] at hkey
    obtain ⟨k', hk', m', hm', hkey', hid, turn', hturn', hid', hconversation⟩ := hkey
    cases hk'
    obtain ⟨m, hm, hmkey, hmturn⟩ := hr.message
    have hsame : m' = m := h.inv.store.eq_of_clientMessageId hm' hm hkey' hmkey
    have hturnId : turn.id = id := by
      rw [← hmturn, ← hsame, hid]
    have hturns : turn' = turn :=
      h.inv.store.eq_of_turn_id hturn' hr.stored (hid'.trans hturnId.symm)
    rw [← hturnId]
    rw [hturns] at hconversation
    exact .replayed hconversation
  | _ => simp only [KeyOk, hphase] at hkey

/-- A repeat fails before it looks at its key, or because the key is another conversation's. -/
theorem Repeat.refused (hr : Repeat s t c k turn) (hok : TxnOk env s t txn) {txn' : Txn}
    (hsend : SendStep s.store c (some k) txn txn') {e : ApiError} (he : txn'.phase = .failed e) :
    RepeatEnds turn c txn'.request (.refused e) := by
  rw [hsend.request]
  rcases hsend.refused e he with hbefore | ⟨⟨msg, rfl⟩, hunused⟩ | hheld
  · exact .refused e hbefore
  · exact .conflict (hr.conversation_ne (hunused k rfl)) msg
  · exact absurd (hheld k rfl) (hr.not_mem_keys hok)

theorem Repeat.step {l : Label} (hr : Repeat s t c k turn) (h : SendInv env s)
    (hstep : Conversations.step env s l = some s') : Repeat s' t c k turn := by
  cases move_of_step hstep with
  | tick => exact ⟨hr.message, hr.stored, hr.failed, hr.answer⟩
  | statement l t₁ s' hl hmove =>
    refine ⟨by rw [hmove.store]; exact hr.message, by rw [hmove.store]; exact hr.stored, ?_, ?_⟩
    · intro txn' e ht' htarget he
      by_cases hne : t = t₁
      · subst hne
        have hrequest := hmove.request
        rw [ht'] at hrequest
        obtain ⟨txn, ht, hsame⟩ := Option.map_eq_some_iff.mp hrequest.symm
        have htarget₀ := htarget
        rw [← hsame] at htarget₀
        obtain ⟨txn₁, ht₁, hsend⟩ :=
          (h.send t txn c (some k) ht htarget₀).statement h.inv ht htarget₀ hl hstep
        rw [ht'] at ht₁
        cases ht₁
        exact hr.refused (h.inv.txn t txn ht) hsend he
      · rw [hmove.others t hne] at ht'
        exact hr.failed txn' e ht' htarget he
    · intro request r ha
      rw [hmove.answers] at ha
      exact hr.answer request r ha
  | begin t₁ request ht hnone =>
    refine ⟨hr.message, hr.stored, ?_, hr.answer⟩
    intro txn e ht' htarget he
    rcases update_some_eq_some.mp ht' with ⟨rfl, rfl⟩ | ⟨hne, ht'⟩
    · cases he
    · exact hr.failed txn e ht' htarget he
  | commit t₁ txn₁ r₁ ht₁ hphase =>
    have hok := h.inv.txn t₁ txn₁ ht₁
    refine ⟨?_, List.mem_append_right _ hr.stored, ?_, ?_⟩
    · obtain ⟨m, hm, hkey, hturn⟩ := hr.message
      -- the stored message with the key may be rewritten by the commit, but keeps its key and its
      -- turn
      have hevolves := hok.view m hm
      exact ⟨txn₁.view m, List.mem_append_right _ (List.mem_map_of_mem hm),
        hevolves.clientMessageId.trans hkey, hevolves.turn.trans hturn⟩
    · intro txn e ht htarget he
      exact hr.failed txn e (update_none_eq_some.mp ht).2 htarget he
    · intro request r ha htarget
      rcases update_some_eq_some.mp ha with ⟨rfl, hsame⟩ | ⟨hne, ha⟩
      · cases hsame
        exact hr.ready h ht₁ htarget hphase
      · exact hr.answer request r ha htarget
  | abort t₁ txn₁ r₁ ht₁ hcause =>
    refine ⟨hr.message, hr.stored, ?_, ?_⟩
    · intro txn e ht htarget he
      exact hr.failed txn e (update_none_eq_some.mp ht).2 htarget he
    · intro request r ha htarget
      rcases update_some_eq_some.mp ha with ⟨rfl, hsame⟩ | ⟨hne, ha⟩
      · cases hsame
        rcases hcause with rfl | ⟨e, hphase, rfl⟩
        · exact .lost
        · exact hr.failed txn₁ e ht₁ htarget hphase
      · exact hr.answer request r ha htarget

end

/-! ### What a send leaves behind -/

/-- The transaction that a label is of. -/
def Label.owner : Label → Option TxnId
  | .begin t _ | .commit t | .abort t => some t
  | l => l.statement

/-- No step of the transaction `t` along the run writes a row. -/
def LeavesNothing (env : Env) (t : TxnId) (s : State) (ls : List Label) : Prop :=
  Along (step env) (fun s₁ l => l.owner = some t → ∀ s₂, step env s₁ l = some s₂ →
    s₂.store = s₁.store) s ls

/-- A send that does not open a turn commits nothing. -/
theorem SendInv.written_eq (h : SendInv env s) (ht : s.txns t = some txn)
    (htarget : txn.request.sendTarget = some (c, key)) {r : Response}
    (hphase : txn.phase = .ready r) (hr : ∀ id, r ≠ .opened id) : s.written txn = s.store := by
  have hsend := h.send t txn c key ht htarget
  have hkey := hsend.key
  have hinserts := (h.inv.txn t txn ht).inserts
  cases r with
  | opened id => exact absurd rfl (hr id)
  | replayed id =>
    have himages : txn.images = [] := hsend.images (by rw [hphase]; rfl)
    simp only [InsertsOk, hphase] at hinserts
    rw [written_of_no_inserts hinserts.1 hinserts.2 himages]
    apply Store.mapMessages_of_forall
    intro m _
    rw [Txn.view, hsend.updates]
    rfl
  | _ => simp only [KeyOk, hphase] at hkey

/-- A send that does not open a turn leaves nothing behind. -/
theorem SendInv.leavesNothing {ls : List Label} (h : SendInv env s)
    (hrun : Library.run (Conversations.step env) s ls = some s') {request : Request}
    {r : Response} (ha : s'.answers t = some (request, r))
    (htarget : request.sendTarget = some (c, key))
    (hr : ∀ id, r ≠ .opened id) : LeavesNothing env t s ls := by
  induction ls generalizing s with
  | nil => trivial
  | cons l ls ih =>
    obtain ⟨s₁, hfirst, hrest⟩ := (run_cons_eq_some _).mp hrun
    refine ⟨?_, ?_⟩
    · intro hl s₂ hstep
      rw [hfirst] at hstep
      cases hstep
      cases move_of_step hfirst with
      | tick => rfl
      | statement l t₁ s₁ hstatement hmove => exact hmove.store
      | begin t₁ request₁ ht hnone => rfl
      | commit t₁ txn r₁ ht hphase =>
        cases hl
        -- Its answer is the one that the run ends with.
        have hfinal :=
          ((h.step hfirst).run hrest).2 t (txn.request, r₁) (State.finish_answers_self _ _ _)
        rw [ha] at hfinal
        cases hfinal
        exact h.written_eq ht htarget hphase hr
      | abort t₁ txn r₁ ht hcause => rfl
    · intro s₂ hstep
      rw [hfirst] at hstep
      cases hstep
      exact ih (h.step hfirst) hrest

end

/-! ### The result -/

/-- The request has not ended, and is not about to fail. -/
def IsOpen (s : State) (t : TxnId) : Prop :=
  s.answers t = none ∧ ∀ txn, s.txns t = some txn → ∀ e, txn.phase ≠ .failed e

/-- What a run from `s₀` by `s` to `s'` does with the client message ids. An id is on one message
at most, now and later. Each send with a key that answers with a turn answers with the turn of the
key. A send that is open while the key is on a message, or that comes later, replays the turn in
the conversation of the turn, and ends in a conflict in another one, if it comes as far as its
key. A send that does not open a turn writes nothing. -/
structure Idempotent (env : Env) (s₀ s s' : State) (ls : List Label) : Prop where
  unique : ∀ k, ∀ m ∈ s.store.messages, ∀ m' ∈ s'.store.messages, m.clientMessageId = some k →
    m'.clientMessageId = some k → m'.id = m.id ∧ m'.turn = m.turn
  answers : ∀ t request r, s₀.answers t = none → s.answers t = some (request, r) →
    AnswerOk s.store request r
  repeats : ∀ t request r c k, s'.answers t = some (request, r) →
    request.sendTarget = some (c, some k) → IsOpen s t →
    ∀ m ∈ s.store.messages, m.clientMessageId = some k →
      ∃ turn ∈ s.store.turns, turn.id = m.turn ∧ RepeatEnds turn c request r
  leaves : ∀ t request r target, s'.answers t = some (request, r) →
    request.sendTarget = some target → (∀ id, r ≠ .opened id) → LeavesNothing env t s₀ ls

/-- **Sending is idempotent**, in every run and between any two of its states. -/
theorem send_idempotent {env : Env} {s₀ s s' : State} {ls ls' : List Label} (hstart : Start s₀)
    (hrun : run (step env) s₀ ls = some s) (hrun' : run (step env) s ls' = some s') :
    Idempotent env s₀ s s' (ls ++ ls') := by
  have hinv : SendInv env s := (hstart.sendInv.run hrun).1
  have hinv' : SendInv env s' := (hinv.run hrun').1
  refine ⟨?_, ?_, ?_, ?_⟩
  · intro k m hm m' hm' hkey hkey'
    obtain ⟨m₁, hm₁, hevolves⟩ := hinv.inv.evolves_run hrun' hm
    have hsame : m' = m₁ :=
      hinv'.inv.store.eq_of_clientMessageId hm' hm₁ hkey' (hevolves.clientMessageId.trans hkey)
    rw [hsame]
    exact ⟨hevolves.id, hevolves.turn⟩
  · have hkeep : ∀ s₁ l s₂, (SendInv env s₁ ∧ ∀ t request r, s₀.answers t = none →
        s₁.answers t = some (request, r) → AnswerOk s₁.store request r) →
        step env s₁ l = some s₂ → SendInv env s₂ ∧ ∀ t request r, s₀.answers t = none →
        s₂.answers t = some (request, r) → AnswerOk s₂.store request r := by
      rintro s₁ l s₂ ⟨hinv₁, hanswers⟩ hstep
      exact ⟨hinv₁.step hstep, hinv₁.answerOk_step hstep hanswers⟩
    have hfirst : ∀ t request r, s₀.answers t = none → s₀.answers t = some (request, r) →
        AnswerOk s₀.store request r := by
      intro t request r hnone ha
      rw [hnone] at ha
      cases ha
    exact (run_invariant hkeep ⟨hstart.sendInv, hfirst⟩ hrun).2
  · intro t request r c k ha htarget hopen m hm hkey
    obtain ⟨turn, hturn, hid⟩ := hinv.inv.store.message_turn m hm
    refine ⟨turn, hturn, hid, ?_⟩
    have hrepeat : Repeat s t c k turn :=
      { message := ⟨m, hm, hkey, hid.symm⟩
        stored := hturn
        failed := fun txn e ht _ he => absurd he (hopen.2 txn ht e)
        answer := fun request' r' ha' => absurd (hopen.1.symm.trans ha') nofun }
    have hkeep : ∀ s₁ l s₂, SendInv env s₁ ∧ Repeat s₁ t c k turn → step env s₁ l = some s₂ →
        SendInv env s₂ ∧ Repeat s₂ t c k turn := by
      rintro s₁ l s₂ ⟨hinv₁, hrepeat₁⟩ hstep
      exact ⟨hinv₁.step hstep, hrepeat₁.step hinv₁ hstep⟩
    exact (run_invariant hkeep ⟨hinv, hrepeat⟩ hrun').2.answer request r ha htarget
  · intro t request r target ha htarget hr
    have hall : run (step env) s₀ (ls ++ ls') = some s' :=
      (run_append_eq_some _).mpr ⟨s, hrun, hrun'⟩
    obtain ⟨c, key⟩ := target
    exact hstart.sendInv.leavesNothing hall ha htarget hr

/-- Three sends with one key: one opens a turn, one waits for the lock of the same conversation,
and one in another conversation has found the key free. -/
def threeSends : List Label :=
  [.begin 0 (.send 1 5 9 "hi" (some 77) [] [] zeroNonce), .lock 0 true,
    .attach 0 [], .replay 0,
    .begin 1 (.send 1 5 9 "hi again" (some 77) [] [] zeroNonce),
    .begin 2 (.send 1 6 9 "hi" (some 77) [] [] zeroNonce), .lock 2 true,
    .attach 2 [], .replay 2, .number 2, .insertTurn 2 101, .number 0, .insertTurn 0 100,
    .insertMessages 0 200 201, .insertImages 0, .allowTags 0 none, .commit 0]

/-- How the other two go on. -/
def twoRepeats : List Label :=
  [.insertMessages 2 300 301, .abort 2, .lock 1 true, .attach 1 [], .replay 1, .commit 1]

theorem send_idempotent_of_three : ∃ s s',
    run (step openEnv) emptyState threeSends = some s ∧
    run (step openEnv) s twoRepeats = some s' ∧
    (s'.answers 0).map Prod.snd = some (.opened 100) ∧
    (s'.answers 1).map Prod.snd = some (.replayed 100) ∧
    (s'.answers 2).map Prod.snd = some (.refused (.conflict
      "Concurrent submission of the same client_message_id; retry the request.")) ∧
    Idempotent openEnv emptyState s s' (threeSends ++ twoRepeats) := by
  have hany : (run (step openEnv) emptyState (threeSends ++ twoRepeats)).any (fun s =>
      (s.answers 0).map Prod.snd == some (.opened 100) &&
      ((s.answers 1).map Prod.snd == some (.replayed 100) &&
      (s.answers 2).map Prod.snd == some (.refused (.conflict
        "Concurrent submission of the same client_message_id; retry the request.")))) = true := by
    decide +kernel
  obtain ⟨s', hrun, hanswers⟩ := exists_run_of_any hany
  obtain ⟨s, hfirst, hrest⟩ := (run_append_eq_some (step openEnv)).mp hrun
  simp only [Bool.and_eq_true, beq_iff_eq] at hanswers
  obtain ⟨hopened, hreplayed, hconflict⟩ := hanswers
  exact ⟨s, s', hfirst, hrest, hopened, hreplayed, hconflict,
    send_idempotent start_emptyState hfirst hrest⟩

end RedTeaming.Conversations
