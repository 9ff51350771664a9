import Mathlib.Data.List.Nodup
import Mathlib.Data.List.Pairwise
import RedTeaming.Conversations.MessageSystem

/-!
# `RedTeaming.Conversations.MessageStore`: the shape of the message store

`StoreOk` is what the committed store always looks like: dense turn indexes, one prompt in a turn,
and replies that form one chain of supersession, of which only the newest may still stream. The
chain is `IsChain` of the replies of a turn, newest first.

Three lemmas carry it over the commits. `StoreOk.evolve` is about updates of rows: each row
`Evolves`, so a terminal row keeps its status, its text and its `extra`. `StoreOk.openTurn` and
`StoreOk.supersede` are about the two kinds of inserts.
-/

set_option autoImplicit false

namespace RedTeaming.Conversations

open RedTeaming.Library

/-- The text of a row under the keys of the deployment. -/
def Env.text (env : Env) (m : Message) : Except CryptoError String :=
  unsealContent env.primitives env.settings m.content m.contentEncrypted

/-- The row is a placeholder: a reply without text, and not of a client's own making. -/
structure IsPlaceholder (m : Message) : Prop where
  role : m.role = .assistant
  content : m.content = ""
  plain : m.contentEncrypted = false
  unkeyed : m.clientMessageId = none

/-- Replies, newest first, each superseding the next one. The oldest supersedes nothing. -/
def IsChain : List Message → Prop
  | [] => False
  | [m] => m.replaces = none
  | m :: m' :: rest => m.replaces = some m'.id ∧ IsChain (m' :: rest)

/-- A turn has one prompt, and a chain of replies that have ended, apart from the newest. -/
structure TurnOk (store : Store) (turn : TurnId) : Prop where
  prompt : (store.prompts turn).length = 1
  chain : IsChain (store.replies turn)
  ended : ∀ m ∈ (store.replies turn).tail, m.status ≠ .streaming

/-- The shape of the committed store. -/
structure StoreOk (store : Store) : Prop where
  turn_keys : store.turns.Pairwise fun a b => a.keys.Disjoint b.keys
  message_keys : store.messages.Pairwise fun a b => a.keys.Disjoint b.keys
  indexes : ∀ c, (store.turnsOf c).map Turn.index = (List.range (store.turnsOf c).length).reverse
  turns : ∀ turn ∈ store.turns, TurnOk store turn.id
  message_turn : ∀ m ∈ store.messages, ∃ turn ∈ store.turns, turn.id = m.turn
  streaming : ∀ m ∈ store.messages, m.status = .streaming → IsPlaceholder m
  replaces : ∀ m ∈ store.messages, m.role ≠ .assistant → m.replaces = none

/-! ### Updates of a row -/

/-- What updates do to a row. A terminal row keeps its status, its `extra` and its text, and a
re-sealed one stays sealed unless it is empty. -/
structure Evolves (env : Env) (m m' : Message) : Prop where
  id : m'.id = m.id
  turn : m'.turn = m.turn
  role : m'.role = m.role
  replaces : m'.replaces = m.replaces
  clientMessageId : m'.clientMessageId = m.clientMessageId
  status : m.status ≠ .streaming → m'.status = m.status
  extra : m.status ≠ .streaming → m'.extra = m.extra
  text : m.status ≠ .streaming → env.text m' = env.text m
  sealed : m.status ≠ .streaming →
    m'.content = m.content ∧ m'.contentEncrypted = m.contentEncrypted ∨
      m.contentEncrypted = true ∧ (m'.contentEncrypted = true ∨ m'.content = "")
  streaming : m'.status = .streaming → m' = m

section
variable {env : Env} {m m' m'' : Message}

theorem Evolves.refl (env : Env) (m : Message) : Evolves env m m :=
  ⟨rfl, rfl, rfl, rfl, rfl, fun _ => rfl, fun _ => rfl, fun _ => rfl, fun _ => Or.inl ⟨rfl, rfl⟩,
    fun _ => rfl⟩

theorem Evolves.keys (h : Evolves env m m') : m'.keys = m.keys := by
  rw [Message.keys, Message.keys, h.id, h.clientMessageId, h.replaces]

/-- A row does not start to stream again. -/
theorem Evolves.terminal (h : Evolves env m m') (hm : m.status ≠ .streaming) :
    m'.status ≠ .streaming := by
  rw [h.status hm]
  exact hm

theorem Evolves.trans (h : Evolves env m m') (h' : Evolves env m' m'') : Evolves env m m'' where
  id := h'.id.trans h.id
  turn := h'.turn.trans h.turn
  role := h'.role.trans h.role
  replaces := h'.replaces.trans h.replaces
  clientMessageId := h'.clientMessageId.trans h.clientMessageId
  status hm := (h'.status (h.terminal hm)).trans (h.status hm)
  extra hm := (h'.extra (h.terminal hm)).trans (h.extra hm)
  text hm := (h'.text (h.terminal hm)).trans (h.text hm)
  sealed hm := by
    rcases h'.sealed (h.terminal hm) with ⟨hcontent, hflag⟩ | ⟨hflag, hsealed⟩
    · rw [hcontent, hflag]
      exact h.sealed hm
    · rcases h.sealed hm with ⟨-, hsame⟩ | ⟨hfirst, -⟩
      · exact Or.inr ⟨hsame.symm.trans hflag, hsealed⟩
      · exact Or.inr ⟨hfirst, hsealed⟩
  streaming hm := by
    have hlast := h'.streaming hm
    rw [hlast]
    rw [hlast] at hm
    exact h.streaming hm

/-- A write that wants a streaming row ends it. -/
theorem Evolves.of_ended (hm : m.status = .streaming) (hid : m'.id = m.id)
    (hturn : m'.turn = m.turn) (hrole : m'.role = m.role) (hreplaces : m'.replaces = m.replaces)
    (hclient : m'.clientMessageId = m.clientMessageId) (hended : m'.status ≠ .streaming) :
    Evolves env m m' where
  id := hid
  turn := hturn
  role := hrole
  replaces := hreplaces
  clientMessageId := hclient
  status h := absurd hm h
  extra h := absurd hm h
  text h := absurd hm h
  sealed h := absurd hm h
  streaming h := absurd h hended

end

/-! ### Rows by their keys -/

section
variable {store : Store}

/-- Two messages with a key in common are one. -/
theorem StoreOk.eq_of_key (h : StoreOk store) {m m' : Message} (hm : m ∈ store.messages)
    (hm' : m' ∈ store.messages) {k : Key} (hk : k ∈ m.keys) (hk' : k ∈ m'.keys) : m = m' := by
  by_contra hne
  have hsymm : Std.Symm fun a b : Message => a.keys.Disjoint b.keys :=
    ⟨fun _ _ h _ ha hb => h hb ha⟩
  exact h.message_keys.forall hm hm' hne hk hk'

/-- Message ids are unique. -/
theorem StoreOk.eq_of_id (h : StoreOk store) {m m' : Message} (hm : m ∈ store.messages)
    (hm' : m' ∈ store.messages) (hid : m.id = m'.id) : m = m' := by
  apply h.eq_of_key hm hm' (k := .message m.id)
  · exact List.mem_cons_self
  · rw [hid]
    exact List.mem_cons_self

/-- The list of the ids has no repeats. -/
theorem StoreOk.ids (h : StoreOk store) : (store.messages.map Message.id).Nodup := by
  rw [List.Nodup, List.pairwise_map]
  apply h.message_keys.imp
  intro a b hdisjoint hid
  have hmem : Key.message a.id ∈ b.keys := by
    rw [hid]
    exact List.mem_cons_self
  exact hdisjoint List.mem_cons_self hmem

/-- A message has at most one successor. -/
theorem StoreOk.eq_of_replaces (h : StoreOk store) {m m' : Message} (hm : m ∈ store.messages)
    (hm' : m' ∈ store.messages) {id : MessageId} (hid : m.replaces = some id)
    (hid' : m'.replaces = some id) : m = m' := by
  apply h.eq_of_key hm hm' (k := .replaces id)
  · simp [Message.keys, hid]
  · simp [Message.keys, hid']

/-- A client message id is on one message. -/
theorem StoreOk.eq_of_clientMessageId (h : StoreOk store) {m m' : Message}
    (hm : m ∈ store.messages) (hm' : m' ∈ store.messages) {k : Nat}
    (hk : m.clientMessageId = some k) (hk' : m'.clientMessageId = some k) : m = m' := by
  apply h.eq_of_key hm hm' (k := .clientMessageId k)
  · simp [Message.keys, hk]
  · simp [Message.keys, hk']

/-- Turn ids are unique. -/
theorem StoreOk.eq_of_turn_id (h : StoreOk store) {a b : Turn} (ha : a ∈ store.turns)
    (hb : b ∈ store.turns) (hid : a.id = b.id) : a = b := by
  by_contra hne
  have hsymm : Std.Symm fun a b : Turn => a.keys.Disjoint b.keys :=
    ⟨fun _ _ h _ ha hb => h hb ha⟩
  have hmem : Key.turn a.id ∈ b.keys := by
    rw [hid]
    exact List.mem_cons_self
  exact h.turn_keys.forall ha hb hne List.mem_cons_self hmem

/-- A turn is found under its id. -/
theorem StoreOk.turn?_eq (h : StoreOk store) {turn : Turn} (hturn : turn ∈ store.turns) :
    store.turn? turn.id = some turn := by
  cases hfound : store.turn? turn.id with
  | none =>
    have hno := List.find?_eq_none.mp hfound turn hturn
    exact absurd (beq_self_eq_true turn.id) hno
  | some other =>
    have hfind := List.find?_some hfound
    have hid : other.id = turn.id := beq_iff_eq.mp hfind
    rw [h.eq_of_turn_id (List.mem_of_find?_eq_some hfound) hturn hid]

end

/-! ### Updates -/

/-- The store after an update of its messages. -/
def Store.mapMessages (store : Store) (f : Message → Message) : Store :=
  { store with messages := store.messages.map f }

/-- What a transaction commits that has inserted nothing. -/
theorem written_of_no_inserts {s : State} {txn : Txn} (hturns : txn.turns = [])
    (hmessages : txn.messages = []) (himages : txn.images = []) :
    s.written txn = s.store.mapMessages txn.view := by
  rw [State.written, hturns, hmessages, himages]
  rfl

/-- An update that changes no row changes nothing. -/
theorem Store.mapMessages_of_forall {store : Store} {f : Message → Message}
    (h : ∀ m ∈ store.messages, f m = m) : store.mapMessages f = store := by
  rw [Store.mapMessages, List.map_congr_left h, List.map_id']

/-- A write keeps the id. -/
@[simp] theorem Write.apply_id (w : Write) (m : Message) : (w.apply m).id = m.id := by
  cases w <;> rfl

/-- A write keeps the ids. -/
theorem map_id_write (store : Store) (id : MessageId) (w : Write) :
    (store.write id w).1.messages.map Message.id = store.messages.map Message.id := by
  show (store.messages.map _).map Message.id = _
  rw [List.map_map]
  apply List.map_congr_left
  intro m _
  rw [Function.comp_apply]
  split
  · exact w.apply_id m
  · rfl

section
variable {store : Store} {id : MessageId} {w : Write} {m : Message}

/-- A row that is found, and that meets the guard, is written. -/
theorem message?_write (hm : store.message? id = some m) (hguard : w.guard m = true) :
    (store.write id w).1.message? id = some (w.apply m) := by
  have hid : m.id = id := by
    have hfind := List.find?_some hm
    exact beq_iff_eq.mp hfind
  have hsame : ((fun m : Message => m.id == id) ∘ fun m : Message =>
      if m.id == id && w.guard m then w.apply m else m) = fun m => m.id == id := by
    funext m
    rw [Function.comp_apply]
    split
    · rw [w.apply_id]
    · rfl
  show (store.messages.map _).find? _ = _
  rw [List.find?_map, hsame]
  show Option.map _ (store.message? id) = _
  rw [hm, Option.map_some]
  simp [hid, hguard]

/-- The other rows stay. -/
theorem mem_write_of_ne (hm : m ∈ store.messages) (hne : m.id ≠ id) :
    m ∈ (store.write id w).1.messages := by
  refine List.mem_map.mpr ⟨m, hm, ?_⟩
  simp [hne]

/-- Where ids are unique, a write is an update of the row that it finds. -/
theorem write_eq (hids : (store.messages.map Message.id).Nodup) (hm : m ∈ store.messages) :
    (store.write m.id w).1 =
      store.mapMessages fun m' => if m.id = m'.id ∧ w.guard m = true then w.apply m' else m' := by
  unfold Store.write Store.mapMessages
  dsimp only
  congr 1
  apply List.map_congr_left
  intro m' hm'
  by_cases hsame : m'.id = m.id
  · have heq : m' = m := List.inj_on_of_nodup_map hids hm' hm hsame
    subst heq
    simp
  · have hother : ¬ (m.id = m'.id ∧ w.guard m = true) := fun hboth => hsame hboth.1.symm
    rw [if_neg hother]
    simp [hsame]

/-- Nothing is updated under an id that is not there. -/
theorem write_of_none (h : store.message? id = none) : (store.write id w).1 = store := by
  apply Store.mapMessages_of_forall
  intro m hm
  have hne := List.find?_eq_none.mp h m hm
  simp only [Bool.not_eq_true] at hne
  simp [hne]

end

section
variable {env : Env} {store : Store} {f : Message → Message}

theorem messagesOf_mapMessages (hf : ∀ m ∈ store.messages, Evolves env m (f m)) (turn : TurnId) :
    (store.mapMessages f).messagesOf turn = (store.messagesOf turn).map f := by
  rw [Store.messagesOf, Store.messagesOf, Store.mapMessages, List.filter_map]
  congr 1
  apply List.filter_congr
  intro m hm
  rw [Function.comp_apply, (hf m hm).turn]

/-- A turn keeps its messages of each role. -/
theorem filter_role_mapMessages (hf : ∀ m ∈ store.messages, Evolves env m (f m)) (turn : TurnId)
    (role : MessageRole) :
    ((store.mapMessages f).messagesOf turn).filter (fun m => m.role == role) =
      ((store.messagesOf turn).filter fun m => m.role == role).map f := by
  rw [messagesOf_mapMessages hf, List.filter_map]
  congr 1
  apply List.filter_congr
  intro m hm
  rw [Function.comp_apply, (hf m (List.mem_of_mem_filter hm)).role]

/-- A chain stays a chain. -/
theorem IsChain.map {ms : List Message} (h : IsChain ms) (hf : ∀ m ∈ ms, Evolves env m (f m)) :
    IsChain (ms.map f) := by
  induction ms with
  | nil => exact h
  | cons m ms ih =>
    cases ms with
    | nil => exact (hf m List.mem_cons_self).replaces.trans h
    | cons m' rest =>
      have hm := hf m List.mem_cons_self
      have hm' := hf m' (List.mem_cons_of_mem _ List.mem_cons_self)
      refine ⟨?_, ih h.2 fun x hx => hf x (List.mem_cons_of_mem _ hx)⟩
      rw [hm.replaces, hm'.id]
      exact h.1

theorem mem_replies {turn : TurnId} {m : Message} :
    m ∈ store.replies turn ↔ m ∈ store.messages ∧ m.turn = turn ∧ m.role = .assistant := by
  simp only [Store.replies, Store.messagesOf, List.mem_filter, beq_iff_eq, and_assoc]

/-- Updates keep the shape of the store. -/
theorem StoreOk.evolve (h : StoreOk store) (hf : ∀ m ∈ store.messages, Evolves env m (f m)) :
    StoreOk (store.mapMessages f) where
  turn_keys := h.turn_keys
  message_keys := by
    rw [Store.mapMessages, List.pairwise_map]
    refine h.message_keys.imp_of_mem ?_
    intro a b ha hb hdisjoint
    rw [(hf a ha).keys, (hf b hb).keys]
    exact hdisjoint
  indexes := h.indexes
  turns turn hturn := by
    have hok := h.turns turn hturn
    have hreplies : (store.mapMessages f).replies turn.id = (store.replies turn.id).map f :=
      filter_role_mapMessages hf turn.id .assistant
    have hmem : ∀ m ∈ store.replies turn.id, Evolves env m (f m) :=
      fun m hm => hf m (mem_replies.mp hm).1
    refine ⟨?_, ?_, ?_⟩
    · rw [Store.prompts, filter_role_mapMessages hf, List.length_map]
      exact hok.prompt
    · rw [hreplies]
      exact hok.chain.map hmem
    · rw [hreplies, ← List.map_tail]
      intro m hm
      obtain ⟨m₀, hm₀, rfl⟩ := List.mem_map.mp hm
      exact (hmem m₀ (List.mem_of_mem_tail hm₀)).terminal (hok.ended m₀ hm₀)
  message_turn m hm := by
    obtain ⟨m₀, hm₀, rfl⟩ := List.mem_map.mp hm
    rw [(hf m₀ hm₀).turn]
    exact h.message_turn m₀ hm₀
  streaming m hm hstreaming := by
    obtain ⟨m₀, hm₀, rfl⟩ := List.mem_map.mp hm
    have hsame := (hf m₀ hm₀).streaming hstreaming
    rw [hsame] at hstreaming ⊢
    exact h.streaming m₀ hm₀ hstreaming
  replaces m hm hrole := by
    obtain ⟨m₀, hm₀, rfl⟩ := List.mem_map.mp hm
    rw [(hf m₀ hm₀).role] at hrole
    exact (hf m₀ hm₀).replaces.trans (h.replaces m₀ hm₀ hrole)

end

/-! ### Inserts -/

/-- The store with a new turn, its prompt and its first reply. -/
def Store.openTurn (store : Store) (turn : Turn) (prompt reply : Message)
    (images : List MessageImage) : Store where
  turns := turn :: store.turns
  messages := reply :: prompt :: store.messages
  images := images ++ store.images

/-- The prompt and the placeholder of a new turn. -/
structure Opens (turn : TurnId) (prompt reply : Message) : Prop where
  prompt_turn : prompt.turn = turn
  prompt_role : prompt.role = .user
  prompt_status : prompt.status = .complete
  prompt_replaces : prompt.replaces = none
  reply_turn : reply.turn = turn
  reply_status : reply.status = .streaming
  reply_placeholder : IsPlaceholder reply
  reply_replaces : reply.replaces = none

section
variable {store : Store}

theorem turnsOf_openTurn {turn : Turn} {prompt reply : Message} {images : List MessageImage}
    (c : ConversationId) : (store.openTurn turn prompt reply images).turnsOf c =
      if turn.conversation = c then turn :: store.turnsOf c else store.turnsOf c := by
  rw [Store.turnsOf, Store.openTurn, List.filter_cons]
  simp only [beq_iff_eq]
  rfl

/-- A turn that the store does not have has no messages. -/
theorem StoreOk.messagesOf_eq_nil (h : StoreOk store) {id : TurnId}
    (hnew : ∀ turn ∈ store.turns, turn.id ≠ id) : store.messagesOf id = [] := by
  rw [Store.messagesOf, List.filter_eq_nil_iff]
  intro m hm heq
  obtain ⟨turn, hturn, hid⟩ := h.message_turn m hm
  exact hnew turn hturn (hid.trans (beq_iff_eq.mp heq))

/-- A new turn with the next index keeps the shape of the store. -/
theorem StoreOk.openTurn (h : StoreOk store) {turn : Turn} {prompt reply : Message}
    {images : List MessageImage} (hopens : Opens turn.id prompt reply)
    (hindex : turn.index = (store.turnsOf turn.conversation).length)
    (hturn : ∀ other ∈ store.turns, turn.keys.Disjoint other.keys)
    (hprompt : ∀ other ∈ store.messages, prompt.keys.Disjoint other.keys)
    (hreply : ∀ other ∈ store.messages, reply.keys.Disjoint other.keys)
    (hpair : reply.keys.Disjoint prompt.keys) :
    StoreOk (store.openTurn turn prompt reply images) := by
  have hnew : ∀ other ∈ store.turns, other.id ≠ turn.id := by
    intro other hother hid
    apply hturn other hother (a := .turn turn.id) List.mem_cons_self
    rw [← hid]
    exact List.mem_cons_self
  have hold :
      ∀ other ∈ store.turns, (store.openTurn turn prompt reply images).messagesOf other.id =
      store.messagesOf other.id := by
    intro other hother
    have hne : (turn.id == other.id) = false := beq_false_of_ne (hnew other hother).symm
    simp only [Store.messagesOf, Store.openTurn, List.filter_cons, hopens.prompt_turn,
      hopens.reply_turn, hne]
    rfl
  have hmine : (store.openTurn turn prompt reply images).messagesOf turn.id =
      [reply, prompt] := by
    have hnil := h.messagesOf_eq_nil hnew
    rw [Store.messagesOf] at hnil
    simp [Store.messagesOf, Store.openTurn, hopens.prompt_turn,
      hopens.reply_turn, hnil]
  refine
    { turn_keys := List.pairwise_cons.mpr ⟨hturn, h.turn_keys⟩, message_keys := ?_, indexes := ?_
      turns := ?_, message_turn := ?_, streaming := ?_, replaces := ?_ }
  · refine List.pairwise_cons.mpr ⟨?_, List.pairwise_cons.mpr ⟨hprompt, h.message_keys⟩⟩
    intro other hother
    rcases List.mem_cons.mp hother with rfl | hother
    · exact hpair
    · exact hreply other hother
  · intro c
    rw [turnsOf_openTurn]
    split
    · rename_i hc
      rw [List.map_cons, List.length_cons, List.range_succ, List.reverse_append, h.indexes c,
        hindex, hc]
      rfl
    · exact h.indexes c
  · intro other hother
    rcases List.mem_cons.mp hother with rfl | hother
    · have hprompts : (store.openTurn other prompt reply images).prompts other.id = [prompt] := by
        simp [Store.prompts, hmine, hopens.prompt_role,
          hopens.reply_placeholder.role]
      have hreplies : (store.openTurn other prompt reply images).replies other.id = [reply] := by
        simp [Store.replies, hmine, hopens.prompt_role,
          hopens.reply_placeholder.role]
      refine ⟨by rw [hprompts]; rfl, ?_, ?_⟩
      · rw [hreplies]
        exact hopens.reply_replaces
      · rw [hreplies]
        exact fun m hm => nomatch hm
    · have hok := h.turns other hother
      refine ⟨?_, ?_, ?_⟩
      · rw [Store.prompts, hold other hother]
        exact hok.prompt
      · rw [Store.replies, hold other hother]
        exact hok.chain
      · rw [Store.replies, hold other hother]
        exact hok.ended
  · intro m hm
    rcases List.mem_cons.mp hm with rfl | hm
    · exact ⟨turn, List.mem_cons_self, hopens.reply_turn.symm⟩
    · rcases List.mem_cons.mp hm with rfl | hm
      · exact ⟨turn, List.mem_cons_self, hopens.prompt_turn.symm⟩
      · obtain ⟨other, hother, hid⟩ := h.message_turn m hm
        exact ⟨other, List.mem_cons_of_mem _ hother, hid⟩
  · intro m hm hstreaming
    rcases List.mem_cons.mp hm with rfl | hm
    · exact hopens.reply_placeholder
    · rcases List.mem_cons.mp hm with rfl | hm
      · rw [hopens.prompt_status] at hstreaming
        cases hstreaming
      · exact h.streaming m hm hstreaming
  · intro m hm hrole
    rcases List.mem_cons.mp hm with rfl | hm
    · exact hopens.reply_replaces
    · rcases List.mem_cons.mp hm with rfl | hm
      · exact hopens.prompt_replaces
      · exact h.replaces m hm hrole

/-- In a chain, the reply that nothing supersedes is the newest one. -/
theorem IsChain.head_of_live {m : Message} {ms : List Message} (h : IsChain ms) (hm : m ∈ ms)
    (hlive : ∀ x ∈ ms, x.replaces ≠ some m.id) : ∃ rest, ms = m :: rest := by
  induction ms with
  | nil => cases hm
  | cons x ms ih =>
    rcases List.mem_cons.mp hm with rfl | hm
    · exact ⟨ms, rfl⟩
    · cases ms with
      | nil => cases hm
      | cons y rest =>
        obtain ⟨rest', hrest⟩ := ih h.2 hm fun z hz => hlive z (List.mem_cons_of_mem _ hz)
        have hy : y = m := (List.cons.inj hrest).1
        exact absurd (hy ▸ h.1) (hlive x List.mem_cons_self)

/-- A placeholder that supersedes the newest reply of a turn keeps the shape of the store, when
that reply has ended. -/
theorem StoreOk.supersede (h : StoreOk store) {m p : Message} (hm : m ∈ store.messages)
    (hrole : m.role = .assistant) (hended : m.status ≠ .streaming) (hp : IsPlaceholder p)
    (hturn : p.turn = m.turn) (hreplaces : p.replaces = some m.id)
    (hkeys : ∀ other ∈ store.messages, p.keys.Disjoint other.keys) :
    StoreOk { store with messages := p :: store.messages } := by
  have hlive : ∀ x ∈ store.messages, x.replaces ≠ some m.id := by
    intro x hx hsucc
    apply hkeys x hx (a := .replaces m.id)
    · simp [Message.keys, hreplaces]
    · simp [Message.keys, hsucc]
  have hsame :
      ∀ id, id ≠ m.turn → ({ store with messages := p :: store.messages } : Store).messagesOf
      id = store.messagesOf id := by
    intro id hne
    have hfalse : (m.turn == id) = false := beq_false_of_ne hne.symm
    simp only [Store.messagesOf, List.filter_cons, hturn, hfalse]
    rfl
  have hmine : ({ store with messages := p :: store.messages } : Store).messagesOf m.turn =
      p :: store.messagesOf m.turn := by
    simp [Store.messagesOf, hturn]
  refine
    { turn_keys := h.turn_keys, message_keys := List.pairwise_cons.mpr ⟨hkeys, h.message_keys⟩
      indexes := h.indexes, turns := ?_, message_turn := ?_, streaming := ?_, replaces := ?_ }
  · intro turn hmem
    have hok := h.turns turn hmem
    by_cases hid : turn.id = m.turn
    · rw [hid] at hok ⊢
      obtain ⟨rest, hrest⟩ := hok.chain.head_of_live (mem_replies.mpr ⟨hm, rfl, hrole⟩)
        fun x hx => hlive x (mem_replies.mp hx).1
      have hreplies : ({ store with messages := p :: store.messages } : Store).replies m.turn =
          p :: store.replies m.turn := by
        simp [Store.replies, hmine, hp.role]
      refine ⟨?_, ?_, ?_⟩
      · have hprompts : ({ store with messages := p :: store.messages } : Store).prompts m.turn =
            store.prompts m.turn := by
          simp [Store.prompts, hmine, hp.role]
        rw [hprompts]
        exact hok.prompt
      · have hchain := hok.chain
        rw [hreplies]
        rw [hrest] at hchain ⊢
        exact ⟨hreplaces, hchain⟩
      · intro x hx
        rw [hreplies, List.tail_cons, hrest] at hx
        have hrestEnded := hok.ended
        rw [hrest] at hrestEnded
        rcases List.mem_cons.mp hx with rfl | hx
        · exact hended
        · exact hrestEnded x hx
    · refine ⟨?_, ?_, ?_⟩
      · rw [Store.prompts, hsame turn.id hid]
        exact hok.prompt
      · rw [Store.replies, hsame turn.id hid]
        exact hok.chain
      · rw [Store.replies, hsame turn.id hid]
        exact hok.ended
  · intro x hx
    rcases List.mem_cons.mp hx with rfl | hx
    · rw [hturn]
      exact h.message_turn m hm
    · exact h.message_turn x hx
  · intro x hx hstreaming
    rcases List.mem_cons.mp hx with rfl | hx
    · exact hp
    · exact h.streaming x hx hstreaming
  · intro x hx hnot
    rcases List.mem_cons.mp hx with rfl | hx
    · exact absurd hp.role hnot
    · exact h.replaces x hx hnot

end

end RedTeaming.Conversations
