import RedTeaming.Conversations.MessageHistory

/-!
# `RedTeaming.Conversations.Sending`: one turn for each `client_message_id`

A send checks its key before it opens a turn, under the lock of its conversation. So two sends to
one conversation are ordered, and the later one finds the turn of the earlier one. Two sends to
different conversations are not ordered by a lock. There the unique index lets one of them insert
its message, and the other one ends in a conflict.

`SendOk` is what a send knows about its key from the check on. `send_idempotent` says how every
send ends whose key is taken before it has ended.
-/

set_option autoImplicit false

namespace RedTeaming.Conversations

open RedTeaming.Library

/-- The conversation and the key of a send. -/
def Request.sendTarget : Request → Option (ConversationId × Option Nat)
  | .send _ c _ _ clientMessageId _ _ _ => some (c, clientMessageId)
  | _ => none

/-- No turn of the conversation was opened with the key. -/
def Unused (store : Store) (c : ConversationId) (k : Nat) : Prop :=
  ∀ m ∈ store.messages, m.clientMessageId = some k → ∀ turn ∈ store.turns, turn.id = m.turn →
    turn.conversation ≠ c

/-- The turn of the conversation that was opened with the key. -/
def OpenedWith (store : Store) (c : ConversationId) (k : Nat) (id : TurnId) : Prop :=
  ∃ m ∈ store.messages, m.clientMessageId = some k ∧ m.turn = id ∧
    ∃ turn ∈ store.turns, turn.id = id ∧ turn.conversation = c

/-- The errors of a send before it looks at its key: the conversation is not visible, or an
attachment is not valid. -/
inductive RefusedBefore : Request → ApiError → Prop
  | hidden (request : Request) (evaluation : Nat) (c : ConversationId)
      (h : State.lockTarget request = some (evaluation, c)) :
      RefusedBefore request (.notFound ("Conversation " ++ toString c
        ++ " not found in evaluation " ++ toString evaluation ++ "."))
  | attachment (evaluation : Nat) (c : ConversationId) (caller : Nat) (content : String)
      (clientMessageId : Option Nat) (imageKeys : List String) (tags : List (String × String))
      (nonce : Nonce) (assets : List MediaAsset) (error : ApiError)
      (h : validateAttachments assets caller imageKeys = .error error) :
      RefusedBefore (.send evaluation c caller content clientMessageId imageKeys tags nonce) error

/-- The transaction may have inserted images, or has rolled them back. -/
def Phase.hasImages : Phase → Bool
  | .illustrated _ => true
  | .ready (.opened _) => true
  | .failed _ => true
  | _ => false

/-- What an open send knows about its key. -/
def KeyOk (store : Store) (c : ConversationId) (key : Option Nat) (txn : Txn) : Prop :=
  match txn.phase with
  | .begun | .locked | .attached | .failed _ => True
  | .fresh | .numbered _ | .opened _ => ∀ k, key = some k → Unused store c k
  | .prompted _ _ | .illustrated _ | .ready (.opened _) =>
    ∀ k, key = some k → Key.clientMessageId k ∈ txn.keys
  | .ready (.replayed id) => ∃ k, key = some k ∧ OpenedWith store c k id
  | _ => False

/-- What holds of an open send. -/
structure SendOk (store : Store) (c : ConversationId) (key : Option Nat) (txn : Txn) : Prop where
  todo : txn.todo = []
  updates : txn.updates = []
  images : txn.phase.hasImages = false → txn.images = []
  key : KeyOk store c key txn

/-- What a statement of a send does. A new refusal has one of three causes: it came before the
key, the key is not one of this conversation, or the message with the key is inserted. -/
structure SendStep (store : Store) (c : ConversationId) (key : Option Nat) (txn txn' : Txn) :
    Prop where
  request : txn'.request = txn.request
  ok : SendOk store c key txn'
  refused : ∀ e, txn'.phase = .failed e → RefusedBefore txn.request e ∨
    ((∃ msg, e = .conflict msg) ∧ ∀ k, key = some k → Unused store c k) ∨
    ∀ k, key = some k → Key.clientMessageId k ∈ txn.keys

section
variable {env : Env} {s s' : State} {t : TxnId} {txn txn' : Txn} {store : Store}
  {c : ConversationId} {key : Option Nat}

/-! ### The check of the key -/

/-- Without a message that has the key, it is unused. -/
theorem replay_fresh {k : Nat} (h : store.replay c k = .ok none) : Unused store c k := by
  intro m hm hkey
  unfold Store.replay at h
  split at h
  · rename_i hnone
    have hno := List.find?_eq_none.mp hnone m hm
    exact absurd (beq_iff_eq.mpr hkey) hno
  · dsimp only at h
    split at h <;> cases h

/-- A replay gives the turn that was opened with the key. -/
theorem replay_found {k : Nat} {id : TurnId} (h : store.replay c k = .ok (some id)) :
    OpenedWith store c k id := by
  unfold Store.replay at h
  split at h
  · cases h
  · rename_i m hfound
    dsimp only at h
    split at h
    · rename_i hown
      cases h
      obtain ⟨turn, hturn, hconversation⟩ := (Option.any_eq_true _ _).mp hown
      have hid := List.find?_some hturn
      have hkey := List.find?_some hfound
      exact ⟨m, List.mem_of_find?_eq_some hfound, beq_iff_eq.mp hkey, rfl, turn,
        List.mem_of_find?_eq_some hturn, beq_iff_eq.mp hid, beq_iff_eq.mp hconversation⟩
    · cases h

/-- A key of another conversation is a conflict. -/
theorem replay_refused (hstore : StoreOk store) {k : Nat} {e : ApiError}
    (h : store.replay c k = .error e) : (∃ msg, e = .conflict msg) ∧ Unused store c k := by
  unfold Store.replay at h
  split at h
  · cases h
  · rename_i m hfound
    dsimp only at h
    split at h
    · cases h
    · rename_i hforeign
      cases h
      refine ⟨⟨_, rfl⟩, ?_⟩
      intro m' hm' hkey turn hturn hid hconversation
      have hfind := List.find?_some hfound
      have hmkey : m.clientMessageId = some k := beq_iff_eq.mp hfind
      have hsame := hstore.eq_of_clientMessageId hm' (List.mem_of_find?_eq_some hfound) hkey hmkey
      apply hforeign
      rw [hsame] at hid
      rw [← hid, hstore.turn?_eq hturn, Option.any_some]
      exact beq_iff_eq.mpr hconversation

/-! ### A statement of a send -/

/-- A send goes on with its writes. -/
theorem SendOk.goOn (h : SendOk store c key txn) (hrequest : txn'.request = txn.request)
    (htodo : txn'.todo = txn.todo) (hupdates : txn'.updates = txn.updates)
    (himages : txn'.phase.hasImages = false → txn'.images = [])
    (hkey : KeyOk store c key txn') (hphase : ∀ e, txn'.phase ≠ .failed e) :
    SendStep store c key txn txn' where
  request := hrequest
  ok := ⟨htodo.trans h.todo, hupdates.trans h.updates, himages, hkey⟩
  refused e he := absurd he (hphase e)

/-- A send is refused. -/
theorem SendOk.fail (h : SendOk store c key txn) {e : ApiError}
    (hcause : RefusedBefore txn.request e ∨
      ((∃ msg, e = .conflict msg) ∧ ∀ k, key = some k → Unused store c k) ∨
      ∀ k, key = some k → Key.clientMessageId k ∈ txn.keys) :
    SendStep store c key txn { txn with phase := .failed e } where
  request := rfl
  ok := ⟨h.todo, h.updates, fun hphase => (nomatch hphase), trivial⟩
  refused e' he' := by
    cases he'
    exact hcause

/-- The transaction is open after a step, and the step was one of a send. -/
def Takes (store : Store) (c : ConversationId) (key : Option Nat) (txn : Txn) (t : TxnId)
    (s' : State) : Prop :=
  ∃ txn', s'.txns t = some txn' ∧ SendStep store c key txn txn'

/-- A send that a statement refuses. -/
theorem SendOk.takes_fail (h : SendOk store c key txn) {e : ApiError}
    (hcause : RefusedBefore txn.request e ∨
      ((∃ msg, e = .conflict msg) ∧ ∀ k, key = some k → Unused store c k) ∨
      ∀ k, key = some k → Key.clientMessageId k ∈ txn.keys) :
    Takes store c key txn t (s.fail t txn e) :=
  ⟨_, State.setTxn_txns_self _ _ _, h.fail hcause⟩

/-- A send whose statement reads. Its images do not change before their insert. -/
theorem SendOk.takes_phase (h : SendOk store c key txn) (hphase : txn.phase.hasImages = false)
    {phase : Phase} (hkey : KeyOk store c key { txn with phase })
    (hopen : ∀ e, phase ≠ .failed e) :
    Takes store c key txn t (s.setTxn t { txn with phase }) :=
  ⟨_, State.setTxn_txns_self _ _ _, h.goOn rfl rfl rfl (fun _ => h.images hphase) hkey hopen⟩

theorem SendOk.lock (h : SendOk s.store c key txn) {visible : Bool}
    (hstep : s.lock t txn visible = some s') : Takes s.store c key txn t s' := by
  unfold State.lock at hstep
  split at hstep
  · rename_i evaluation c' hphase hlock
    split at hstep
    · cases hstep
      exact h.takes_fail (Or.inl (.hidden _ evaluation c' hlock))
    · split at hstep
      · cases hstep
        exact ⟨_, State.setTxn_txns_self _ _ _,
          h.goOn rfl rfl rfl (fun _ => h.images (by rw [hphase]; rfl)) trivial
            (fun _ => Phase.noConfusion)⟩
      · cases hstep
  · cases hstep

theorem SendOk.attach (h : SendOk s.store c key txn) {assets : List MediaAsset}
    (hstep : s.attach t txn assets = some s') : Takes s.store c key txn t s' := by
  unfold State.attach at hstep
  split at hstep
  · rename_i hphase hrequest
    split at hstep
    · cases hstep
      exact h.takes_phase (by rw [hphase]; rfl) trivial (fun _ => Phase.noConfusion)
    · rename_i e hinvalid
      cases hstep
      apply h.takes_fail
      rw [hrequest]
      exact Or.inl (.attachment _ _ _ _ _ _ _ _ assets e hinvalid)
  · cases hstep

/-- The check of the key: what it reads is what the send knows from then on. -/
theorem SendOk.replay (h : SendOk s.store c key txn) (hstore : StoreOk s.store)
    (htarget : txn.request.sendTarget = some (c, key)) (hstep : s.replay t txn = some s') :
    Takes s.store c key txn t s' := by
  unfold State.replay at hstep
  split at hstep
  · rename_i hphase hrequest
    have himages : txn.phase.hasImages = false := by rw [hphase]; rfl
    rw [hrequest] at htarget
    cases htarget
    split at hstep
    · cases hstep
      exact h.takes_phase himages (fun _ hk => (nomatch hk)) (fun _ => Phase.noConfusion)
    · rename_i k
      split at hstep
      · rename_i hfresh
        cases hstep
        refine h.takes_phase himages ?_ (fun _ => Phase.noConfusion)
        intro k' hk'
        cases hk'
        exact replay_fresh hfresh
      · rename_i turn hfound
        cases hstep
        exact h.takes_phase himages ⟨k, rfl, replay_found hfound⟩ (fun _ => Phase.noConfusion)
      · rename_i e hrefused
        cases hstep
        obtain ⟨hconflict, hunused⟩ := replay_refused hstore hrefused
        refine h.takes_fail (Or.inr (Or.inl ⟨hconflict, ?_⟩))
        intro k' hk'
        cases hk'
        exact hunused
  · cases hstep

theorem SendOk.number (h : SendOk s.store c key txn) (hstep : s.number t txn = some s') :
    Takes s.store c key txn t s' := by
  have hkey := h.key
  unfold State.number at hstep
  split at hstep
  · rename_i hphase _
    cases hstep
    simp only [KeyOk, hphase] at hkey
    exact h.takes_phase (by rw [hphase]; rfl) hkey (fun _ => Phase.noConfusion)
  · cases hstep

theorem SendOk.insertTurn (h : SendOk s.store c key txn) {id : TurnId}
    (hstep : s.insertTurn t txn id = some s') : Takes s.store c key txn t s' := by
  have hkey := h.key
  unfold State.insertTurn at hstep
  split at hstep
  · rename_i hphase _
    simp only [KeyOk, hphase] at hkey
    dsimp only at hstep
    split at hstep
    · cases hstep
      exact h.takes_fail (Or.inr (Or.inl ⟨⟨_, rfl⟩, hkey⟩))
    · cases hstep
    · cases hstep
      exact ⟨_, State.setTxn_txns_self _ _ _,
        h.goOn rfl rfl rfl (fun _ => h.images (by rw [hphase]; rfl)) hkey
          (fun _ => Phase.noConfusion)⟩
  · cases hstep

/-- The insert of the two messages: the prompt takes the key of the send in the unique index. -/
theorem SendOk.insertMessages (h : SendOk s.store c key txn)
    (htarget : txn.request.sendTarget = some (c, key)) {promptId replyId : MessageId}
    (hstep : s.insertMessages env t txn promptId replyId = some s') :
    Takes s.store c key txn t s' := by
  have hkey := h.key
  unfold State.insertMessages at hstep
  split at hstep
  · rename_i hphase hrequest
    simp only [KeyOk, hphase] at hkey
    rw [hrequest] at htarget
    cases htarget
    split at hstep
    · -- The key ring was checked when the process started.
      rename_i e hseal
      obtain ⟨stored, encrypted, hok⟩ := exists_seal env.ring_eq _ _ _
      rw [hok] at hseal
      cases hseal
    · dsimp only at hstep
      split at hstep
      · cases hstep
        exact h.takes_fail (Or.inr (Or.inl ⟨⟨_, rfl⟩, hkey⟩))
      · cases hstep
      · cases hstep
        refine ⟨_, State.setTxn_txns_self _ _ _,
          h.goOn rfl rfl rfl (fun _ => h.images (by rw [hphase]; rfl)) ?_
            (fun _ => Phase.noConfusion)⟩
        intro k hk
        simp [Txn.keys, Message.keys, hk]
  · cases hstep

theorem SendOk.insertImages (h : SendOk s.store c key txn)
    (hstep : s.insertImages t txn = some s') :
    Takes s.store c key txn t s' := by
  have hkey := h.key
  unfold State.insertImages at hstep
  split at hstep
  · rename_i hphase _
    cases hstep
    simp only [KeyOk, hphase] at hkey
    exact ⟨_, State.setTxn_txns_self _ _ _,
      h.goOn rfl rfl rfl (fun hphase => (nomatch hphase)) hkey (fun _ => Phase.noConfusion)⟩
  · cases hstep

theorem SendOk.allowTags (h : SendOk s.store c key txn) {policy : Option TagPolicy}
    (hstep : s.allowTags t txn policy = some s') : Takes s.store c key txn t s' := by
  have hkey := h.key
  unfold State.allowTags at hstep
  split at hstep
  · rename_i hphase _
    simp only [KeyOk, hphase] at hkey
    split at hstep
    · cases hstep
      exact ⟨_, State.setTxn_txns_self _ _ _,
        h.goOn rfl rfl rfl (fun hphase => (nomatch hphase)) hkey (fun _ => Phase.noConfusion)⟩
    · cases hstep
      exact h.takes_fail (Or.inr (Or.inr hkey))
  · cases hstep

/-- What a statement of a send does. -/
theorem SendOk.statement (h : SendOk s.store c key txn) (hinv : Inv env s)
    (ht : s.txns t = some txn) (htarget : txn.request.sendTarget = some (c, key)) {l : Label}
    (hl : l.statement = some t) (hstep : step env s l = some s') :
    ∃ txn', s'.txns t = some txn' ∧ SendStep s.store c key txn txn' := by
  have hown : ∀ {f : Txn → Option State}, (s.txns t).bind f = some s' → f txn = some s' := by
    intro f hf
    rw [ht] at hf
    exact hf
  have hkey := h.key
  cases l with
  | lock t' visible =>
    cases hl
    exact h.lock (hown hstep)
  | attach t' assets =>
    cases hl
    exact h.attach (hown hstep)
  | replay t' =>
    cases hl
    exact h.replay hinv.store htarget (hown hstep)
  | number t' =>
    cases hl
    exact h.number (hown hstep)
  | insertTurn t' id =>
    cases hl
    exact h.insertTurn (hown hstep)
  | insertMessages t' promptId replyId =>
    cases hl
    exact h.insertMessages htarget (hown hstep)
  | insertImages t' =>
    cases hl
    exact h.insertImages (hown hstep)
  | allowTags t' policy =>
    cases hl
    exact h.allowTags (hown hstep)
  -- The other statements are those of a replacement, and of the jobs.
  | readTarget t' =>
    cases hl
    have hstep := hown hstep
    unfold State.readTarget at hstep
    split at hstep
    · rename_i hrequest
      rw [hrequest] at htarget
      cases htarget
    · cases hstep
  | readLatest t' =>
    cases hl
    have hstep := hown hstep
    unfold State.readLatest at hstep
    split at hstep
    · rename_i hrequest
      rw [hrequest] at htarget
      cases htarget
    · cases hstep
  | readSuccessor t' =>
    cases hl
    have hstep := hown hstep
    unfold State.readSuccessor at hstep
    split at hstep
    · rename_i hrequest
      rw [hrequest] at htarget
      cases htarget
    · cases hstep
  | insertReplacement t' id =>
    cases hl
    have hstep := hown hstep
    unfold State.insertReplacement at hstep
    split at hstep
    · rename_i hphase _
      simp only [KeyOk, hphase] at hkey
    · cases hstep
  | startJob t' =>
    cases hl
    have hstep := hown hstep
    unfold State.startJob at hstep
    split at hstep
    · rename_i hlock
      cases hrequest : txn.request with
      | send =>
        rw [hrequest] at hlock
        cases hlock
      | _ =>
        rw [hrequest] at htarget
        cases htarget
    · cases hstep
  | update t' =>
    cases hl
    have hstep := hown hstep
    unfold State.update at hstep
    rw [h.todo] at hstep
    split at hstep
    · cases hstep
    · cases hstep
    · rename_i htodo
      cases htodo
  | endJob t' =>
    cases hl
    have hstep := hown hstep
    unfold State.endJob at hstep
    split at hstep
    · rename_i hphase _
      simp only [KeyOk, hphase] at hkey
    · cases hstep
  | _ => cases hl

end

end RedTeaming.Conversations
