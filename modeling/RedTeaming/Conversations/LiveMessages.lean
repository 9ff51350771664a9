import Mathlib.Data.List.Dedup
import Mathlib.Data.String.Basic
import Mathlib.Logic.Embedding.Basic
import Mathlib.Order.WithBot
import RedTeaming.Conversations.MessageHistory
import RedTeaming.Library.Listing

/-!
# `RedTeaming.Conversations.LiveMessages`: the readers of live messages

A message is live when no other one supersedes it. Three queries of `services/messages.py` read
live messages: those of a turn, those of a conversation, and those of several conversations at
once. Each one looks for superseding messages among its own rows, and orders its rows on its own.

A superseding message is of the same turn, so the three agree about what is live. The ids tell the
messages apart, so they agree about the order. The main result is `live_readers_agree`.

The order of two slots is that of the database's collation. `collate` embeds the texts into any
linear order. A null comes last.
-/

set_option autoImplicit false

namespace RedTeaming.Conversations

open RedTeaming.Library

section
variable {κ : Type} [LinearOrder κ] (collate : String ↪ κ)

/-! ### The queries -/

/-- The sort key of a slot. -/
def slotKey (m : Message) : WithTop κ :=
  match m.slot with
  | none => ⊤
  | some slot => (collate slot : WithTop κ)

/-- `MESSAGE_ROLE_ORDER`, `slot`, `id`. -/
def messageLe : Message → Message → Bool :=
  byKey (fun m => m.role.order) (byKey (slotKey collate) (byKey Message.id fun _ _ => true))

/-- The join of the messages with their turns. -/
def Store.joinTurns (store : Store) (keep : Turn → Bool) : List (Turn × Message) :=
  store.messages.filterMap fun m =>
    ((store.turn? m.turn).filter keep).map fun turn => (turn, m)

/-- Drop the rows whose message is superseded by one of the rows. -/
def notSuperseded {ρ : Type} (message : ρ → Message) (rows : List ρ) : List ρ :=
  let superseded := rows.filterMap fun row => (message row).replaces
  rows.filter fun row => !superseded.contains (message row).id

/-- `live_turn_messages`. -/
def Store.liveTurnMessages (store : Store) (turn : TurnId) : List Message :=
  orderBy (messageLe collate) (notSuperseded id (store.messagesOf turn))

/-- `_live_conversation_messages`. -/
def Store.liveConversationMessages (store : Store) (c : ConversationId) : List Message :=
  let rows := store.joinTurns fun turn => turn.conversation == c
  let le := byKey (fun row : Turn × Message => row.1.index) fun a b => messageLe collate a.2 b.2
  (orderBy le (notSuperseded Prod.snd rows)).map Prod.snd

/-- `live_messages_for_conversations`. -/
def Store.liveMessagesForConversations (store : Store) (ids : List ConversationId) :
    List (ConversationId × Message) :=
  let rows := store.joinTurns fun turn => ids.contains turn.conversation
  let le := byKey (fun row : Turn × Message => row.1.conversation)
    (byKey (fun row : Turn × Message => row.1.index) fun a b => messageLe collate a.2 b.2)
  (orderBy le (notSuperseded Prod.snd rows)).map fun row => (row.1.conversation, row.2)

/-- The turns of a conversation, in order. -/
def Store.turnsInOrder (store : Store) (c : ConversationId) : List Turn :=
  orderBy (fun a b => decide (a.index ≤ b.index)) (store.turnsOf c)

end

/-! ### The orders -/

section
variable {κ : Type} [LinearOrder κ] {collate : String ↪ κ}

theorem messageLe_trans (a b c : Message) (hab : messageLe collate a b)
    (hbc : messageLe collate b c) : messageLe collate a c :=
  byKey_trans (byKey_trans (byKey_trans fun _ _ _ _ _ => rfl)) a b c hab hbc

theorem messageLe_total (a b : Message) : messageLe collate a b || messageLe collate b a :=
  byKey_total (byKey_total (byKey_total fun _ _ => rfl)) a b

/-- Two messages that compare both ways have one id. -/
theorem id_eq_of_messageLe {a b : Message} (hab : messageLe collate a b)
    (hba : messageLe collate b a) : a.id = b.id := by
  obtain ⟨-, hab, hba⟩ := byKey_antisymm hab hba
  obtain ⟨-, hab, hba⟩ := byKey_antisymm hab hba
  exact (byKey_antisymm hab hba).1

end

/-! ### What is live -/

section
variable {store : Store} {keep : Turn → Bool}

/-- The rows of the join. -/
theorem mem_joinTurns (h : StoreOk store) {row : Turn × Message} :
    row ∈ store.joinTurns keep ↔
      row.2 ∈ store.messages ∧ row.1 ∈ store.turns ∧ row.1.id = row.2.turn ∧
        keep row.1 = true := by
  rw [Store.joinTurns, List.mem_filterMap]
  constructor
  · rintro ⟨m, hm, hrow⟩
    obtain ⟨turn, hturn, rfl⟩ := Option.map_eq_some_iff.mp hrow
    obtain ⟨hfound, hkeep⟩ := Option.filter_eq_some_iff.mp hturn
    have hid := List.find?_some hfound
    exact ⟨hm, List.mem_of_find?_eq_some hfound, beq_iff_eq.mp hid, hkeep⟩
  · rintro ⟨hm, hturn, hid, hkeep⟩
    refine ⟨row.2, hm, ?_⟩
    rw [← hid, h.turn?_eq hturn, Option.filter_some, if_pos hkeep, Option.map_some]

/-- A message that supersedes another one is of the same turn. -/
theorem StoreOk.turn_of_replaces (h : StoreOk store) {x m : Message} (hx : x ∈ store.messages)
    (hm : m ∈ store.messages) (hreplaces : x.replaces = some m.id) : x.turn = m.turn := by
  have hrole : x.role = .assistant := by
    by_contra hnot
    rw [h.replaces x hx hnot] at hreplaces
    cases hreplaces
  obtain ⟨turn, hturn, hid⟩ := h.message_turn x hx
  have hmem : x ∈ store.replies turn.id := mem_replies.mpr ⟨hx, hid.symm, hrole⟩
  obtain ⟨y, hy, hyid⟩ := (h.turns turn hturn).chain.exists_next hmem hreplaces
  obtain ⟨hymem, hyturn, -⟩ := mem_replies.mp (List.mem_of_mem_tail hy)
  rw [← h.eq_of_id hymem hm hyid, hyturn, hid]

/-- Among rows that bring all messages of the turn of each row, superseded is superseded in the
store. -/
theorem notSuperseded_eq (h : StoreOk store) {ρ : Type} {message : ρ → Message} {rows : List ρ}
    (hrows : ∀ r ∈ rows, message r ∈ store.messages)
    (hall : ∀ r ∈ rows, ∀ x ∈ store.messages, x.turn = (message r).turn → ∃ r' ∈ rows,
      message r' = x) :
    notSuperseded message rows = rows.filter fun r => !store.isSuperseded (message r).id := by
  apply List.filter_congr
  intro r hr
  congr 1
  rw [Bool.eq_iff_iff, List.contains_iff_mem, List.mem_filterMap, Store.isSuperseded,
    List.any_eq_true]
  constructor
  · rintro ⟨r', hr', hreplaces⟩
    exact ⟨message r', hrows r' hr', beq_iff_eq.mpr hreplaces⟩
  · rintro ⟨x, hx, hreplaces⟩
    have hreplaces : x.replaces = some (message r).id := beq_iff_eq.mp hreplaces
    obtain ⟨r', hr', rfl⟩ := hall r hr x hx (h.turn_of_replaces hx (hrows r hr) hreplaces)
    exact ⟨r', hr', hreplaces⟩

/-- The live messages of a turn. -/
theorem notSuperseded_messagesOf (h : StoreOk store) (turn : TurnId) :
    notSuperseded id (store.messagesOf turn) =
      (store.messagesOf turn).filter fun m => !store.isSuperseded m.id := by
  apply notSuperseded_eq h
  · exact fun m hm => (List.mem_filter.mp hm).1
  · intro m hm x hx hturn
    refine ⟨x, List.mem_filter.mpr ⟨hx, ?_⟩, rfl⟩
    have hmturn := (List.mem_filter.mp hm).2
    rw [show x.turn = m.turn from hturn]
    exact hmturn

/-- The live messages of some turns. -/
theorem notSuperseded_joinTurns (h : StoreOk store) :
    notSuperseded Prod.snd (store.joinTurns keep) =
      (store.joinTurns keep).filter fun row => !store.isSuperseded row.2.id := by
  apply notSuperseded_eq h
  · exact fun row hrow => ((mem_joinTurns h).mp hrow).1
  · intro row hrow x hx hturn
    obtain ⟨-, hmem, hid, hkeep⟩ := (mem_joinTurns h).mp hrow
    exact ⟨(row.1, x), (mem_joinTurns h).mpr ⟨hx, hmem, hid.trans hturn.symm, hkeep⟩, rfl⟩

end

/-! ### The readers agree -/

/-- The messages of a join, when a condition on the row is one on the message. -/
theorem map_snd_filterMap {α β : Type} (f : α → Option β) (q : β × α → Bool) (l : List α) :
    (((l.filterMap fun a => (f a).map fun b => (b, a)).filter q).map Prod.snd) =
      l.filter fun a => (f a).any fun b => q (b, a) := by
  induction l with
  | nil => rfl
  | cons a l ih =>
    cases hf : f a with
    | none =>
      rw [List.filterMap_cons_none (by rw [hf]; rfl), List.filter_cons_of_neg (by simp [hf])]
      exact ih
    | some b =>
      rw [List.filterMap_cons_some (by rw [hf]; rfl)]
      by_cases hq : q (b, a) = true
      · rw [List.filter_cons_of_pos hq, List.map_cons, ih,
          List.filter_cons_of_pos (by simp [hf, hq])]
      · rw [List.filter_cons_of_neg hq, ih, List.filter_cons_of_neg (by simp [hf, hq])]

section
variable {κ : Type} [LinearOrder κ] {collate : String ↪ κ} {store : Store} {c : ConversationId}

/-- The index tells the turns of a conversation apart. -/
theorem StoreOk.eq_of_index (h : StoreOk store) {a b : Turn} (ha : a ∈ store.turns)
    (hb : b ∈ store.turns) (hc : a.conversation = b.conversation) (hindex : a.index = b.index) :
    a = b := by
  by_contra hne
  have hsymm : Std.Symm fun a b : Turn => a.keys.Disjoint b.keys :=
    ⟨fun _ _ h _ ha hb => h hb ha⟩
  have hkey : ∀ turn : Turn, Key.turnIndex turn.conversation turn.index ∈ turn.keys :=
    fun turn => List.mem_cons_of_mem _ List.mem_cons_self
  have hmem : Key.turnIndex a.conversation a.index ∈ b.keys := by
    rw [hc, hindex]
    exact hkey b
  exact h.turn_keys.forall ha hb hne (hkey a) hmem

theorem mem_turnsInOrder {turn : Turn} :
    turn ∈ store.turnsInOrder c ↔ turn ∈ store.turns ∧ turn.conversation = c := by
  rw [Store.turnsInOrder, mem_orderBy, Store.turnsOf, List.mem_filter, beq_iff_eq]

/-- The turns in order have rising indexes. -/
theorem StoreOk.rising (h : StoreOk store) (c : ConversationId) :
    ((store.turnsInOrder c).map Turn.index).Pairwise (· < ·) := by
  have hnodup : ((store.turnsInOrder c).map Turn.index).Nodup := by
    have hperm := (orderBy_perm (fun a b : Turn => decide (a.index ≤ b.index))
      (store.turnsOf c)).map Turn.index
    rw [h.indexes c] at hperm
    exact hperm.nodup_iff.mpr (List.nodup_reverse.mpr List.nodup_range)
  have hsorted : ((store.turnsInOrder c).map Turn.index).Pairwise (· ≤ ·) := by
    rw [List.pairwise_map]
    have hpairwise := @pairwise_orderBy _ (fun a b : Turn => decide (a.index ≤ b.index))
      (fun a b c => by simpa using fun hab hbc => Nat.le_trans hab hbc)
      (fun a b => by simpa using Nat.le_total a.index b.index) (store.turnsOf c)
    exact hpairwise.imp fun hle => of_decide_eq_true hle
  exact (hsorted.and hnodup).imp fun ⟨hle, hne⟩ => Nat.lt_of_le_of_ne hle hne

/-- Among the live rows of a join, those of one turn are the live messages of the turn. -/
theorem orderBy_rows_of_turn (h : StoreOk store) {keep : Turn → Bool} {turn : Turn}
    (hturn : turn ∈ store.turns) (q : Turn → Bool)
    (hq : ∀ other ∈ store.turns, (keep other && q other) = true ↔ other = turn) :
    (orderBy (fun a b : Turn × Message => messageLe collate a.2 b.2)
        ((notSuperseded Prod.snd (store.joinTurns keep)).filter fun row => q row.1)).map
          Prod.snd =
      store.liveTurnMessages collate turn.id := by
  rw [map_orderBy Prod.snd fun _ _ _ _ => rfl, Store.liveTurnMessages, notSuperseded_messagesOf h,
    notSuperseded_joinTurns h, List.filter_filter, Store.joinTurns, map_snd_filterMap,
    Store.messagesOf, List.filter_filter]
  congr 1
  apply List.filter_congr
  intro m hm
  obtain ⟨other, hother, hid⟩ := h.message_turn m hm
  rw [← hid, h.turn?_eq hother, Bool.eq_iff_iff]
  have hsame := hq other hother
  -- The turn of the message is the one exactly when it is kept.
  by_cases heq : other = turn
  · rw [heq] at hsame ⊢
    obtain ⟨hkeep, hq⟩ := (Bool.and_eq_true _ _).mp (hsame.mpr rfl)
    simp [Option.filter_some, hkeep, hq]
  · have hne : other.id ≠ turn.id := fun hid => heq (h.eq_of_turn_id hother hturn hid)
    have hdrop : ¬ (keep other && q other) = true := fun hkeep => heq (hsame.mp hkeep)
    by_cases hkeep : keep other = true
    · have hq : q other = false := by simpa [hkeep] using hdrop
      simp [Option.filter_some, hkeep, hq, hne]
    · simp [Option.filter_some, hkeep, hne]

/-- The reader of a conversation lists the live messages of its turns, in order. -/
theorem liveConversationMessages_eq (h : StoreOk store) :
    store.liveConversationMessages collate c =
      (store.turnsInOrder c).flatMap fun turn => store.liveTurnMessages collate turn.id := by
  let rows := notSuperseded Prod.snd (store.joinTurns fun turn => turn.conversation == c)
  have hrows : ∀ row ∈ rows, row.2 ∈ store.messages ∧ row.1 ∈ store.turns ∧
      row.1.id = row.2.turn ∧ row.1.conversation = c := by
    intro row hrow
    obtain ⟨hm, hturn, hid, hc⟩ := (mem_joinTurns h).mp (List.mem_filter.mp hrow).1
    exact ⟨hm, hturn, hid, beq_iff_eq.mp hc⟩
  have hcover : ∀ row ∈ rows, row.1.index ∈ (store.turnsInOrder c).map Turn.index := by
    intro row hrow
    obtain ⟨-, hturn, -, hc⟩ := hrows row hrow
    exact List.mem_map_of_mem (mem_turnsInOrder.mpr ⟨hturn, hc⟩)
  have hanti : ∀ a ∈ rows, ∀ b ∈ rows, messageLe collate a.2 b.2 → messageLe collate b.2 a.2 →
      a = b := by
    intro a ha b hb hab hba
    obtain ⟨ham, hat, haid, -⟩ := hrows a ha
    obtain ⟨hbm, hbt, hbid, -⟩ := hrows b hb
    have hmessage : a.2 = b.2 := h.eq_of_id ham hbm (id_eq_of_messageLe hab hba)
    exact Prod.ext (h.eq_of_turn_id hat hbt (by rw [haid, hbid, hmessage])) hmessage
  show (orderBy (byKey _ fun a b => messageLe collate a.2 b.2) rows).map Prod.snd = _
  rw [orderBy_byKey (fun a b c => messageLe_trans a.2 b.2 c.2)
    (fun a b => messageLe_total a.2 b.2)
    (h.rising c) hcover hanti, List.map_flatMap, List.flatMap_map]
  apply List.flatMap_congr
  intro turn hmem
  obtain ⟨hturn, hc⟩ := mem_turnsInOrder.mp hmem
  apply orderBy_rows_of_turn h hturn fun other => decide (other.index = turn.index)
  intro other hother
  rw [Bool.and_eq_true, beq_iff_eq, decide_eq_true_eq]
  constructor
  · rintro ⟨hoc, hindex⟩
    exact h.eq_of_index hother hturn (hoc.trans hc.symm) hindex
  · rintro rfl
    exact ⟨hc, rfl⟩

/-- Narrowing a join by the turn is a join of fewer turns. -/
theorem filter_joinTurns (keep q : Turn → Bool) :
    ((store.joinTurns keep).filter fun row => q row.1) =
      store.joinTurns fun turn => keep turn && q turn := by
  unfold Store.joinTurns
  induction store.messages with
  | nil => rfl
  | cons m messages ih =>
    rw [List.filterMap_cons, List.filterMap_cons]
    cases hturn : store.turn? m.turn with
    | none => exact ih
    | some turn =>
      by_cases hkeep : keep turn = true
      · by_cases hq : q turn = true
        · simpa [Option.filter_some, hkeep, hq] using ih
        · simpa [Option.filter_some, hkeep, hq] using ih
      · simpa [Option.filter_some, hkeep] using ih

/-- The rows of the batch that are of one conversation are the rows of its own reader. -/
theorem filter_batch (h : StoreOk store) {ids : List ConversationId} (hc : c ∈ ids) :
    ((notSuperseded Prod.snd (store.joinTurns fun turn => ids.contains turn.conversation)).filter
        fun row => row.1.conversation = c) =
      notSuperseded Prod.snd (store.joinTurns fun turn => turn.conversation == c) := by
  have hkeep :
      (fun turn : Turn => ids.contains turn.conversation && decide (turn.conversation = c)) =
      fun turn => turn.conversation == c := by
    funext turn
    by_cases hturn : turn.conversation = c <;> simp [hturn, hc]
  rw [notSuperseded_joinTurns h, notSuperseded_joinTurns h, ← hkeep,
    ← filter_joinTurns _ fun turn => decide (turn.conversation = c), List.filter_filter,
    List.filter_filter]
  apply List.filter_congr
  intro row _
  exact Bool.and_comm _ _

/-- The batch lists the messages of each conversation, by the ids of the conversations. -/
theorem liveMessagesForConversations_eq (h : StoreOk store) (ids : List ConversationId) :
    store.liveMessagesForConversations collate ids =
      (orderBy (fun a b => decide (a ≤ b)) ids.dedup).flatMap fun c =>
        (store.liveConversationMessages collate c).map fun m => (c, m) := by
  let rows := notSuperseded Prod.snd (store.joinTurns fun turn => ids.contains turn.conversation)
  let rest := byKey (fun row : Turn × Message => row.1.index) fun a b => messageLe collate a.2 b.2
  have hrows : ∀ row ∈ rows, row.2 ∈ store.messages ∧ row.1 ∈ store.turns ∧
      row.1.id = row.2.turn ∧ row.1.conversation ∈ ids := by
    intro row hrow
    obtain ⟨hm, hturn, hid, hkeep⟩ := (mem_joinTurns h).mp (List.mem_filter.mp hrow).1
    exact ⟨hm, hturn, hid, List.contains_iff_mem.mp hkeep⟩
  have hrising : (orderBy (fun a b => decide (a ≤ b)) ids.dedup).Pairwise (· < ·) := by
    have hpairwise := @pairwise_orderBy _ (fun a b : ConversationId => decide (a ≤ b))
      (fun a b c => by simpa using fun hab hbc => Nat.le_trans hab hbc)
      (fun a b => by simpa using Nat.le_total a b) ids.dedup
    have hnodup :=
      (orderBy_perm (fun a b : ConversationId => decide (a ≤ b)) ids.dedup).nodup_iff.mpr
      (List.nodup_dedup ids)
    exact (hpairwise.and hnodup).imp fun ⟨hle, hne⟩ =>
      Nat.lt_of_le_of_ne (of_decide_eq_true hle) hne
  have hcover : ∀ row ∈ rows,
      row.1.conversation ∈ orderBy (fun a b => decide (a ≤ b)) ids.dedup := by
    intro row hrow
    rw [mem_orderBy, List.mem_dedup]
    exact (hrows row hrow).2.2.2
  have hanti : ∀ a ∈ rows, ∀ b ∈ rows, rest a b → rest b a → a = b := by
    intro a ha b hb hab hba
    obtain ⟨ham, hat, haid, -⟩ := hrows a ha
    obtain ⟨hbm, hbt, hbid, -⟩ := hrows b hb
    obtain ⟨-, hab, hba⟩ := byKey_antisymm hab hba
    have hmessage : a.2 = b.2 := h.eq_of_id ham hbm (id_eq_of_messageLe hab hba)
    exact Prod.ext (h.eq_of_turn_id hat hbt (by rw [haid, hbid, hmessage])) hmessage
  show (orderBy (byKey (fun row : Turn × Message => row.1.conversation) rest) rows).map
    (fun row => (row.1.conversation, row.2)) = _
  rw [orderBy_byKey
    (byKey_trans fun a b c => messageLe_trans a.2 b.2 c.2)
    (byKey_total fun a b => messageLe_total a.2 b.2) hrising hcover hanti, List.map_flatMap]
  apply List.flatMap_congr
  intro c hc
  have hmem : c ∈ ids := List.mem_dedup.mp (mem_orderBy.mp hc)
  rw [filter_batch h hmem, Store.liveConversationMessages, List.map_map]
  apply List.map_congr_left
  intro row hrow
  obtain ⟨-, -, -, hkeep⟩ := (mem_joinTurns h).mp (List.mem_filter.mp (mem_orderBy.mp hrow)).1
  show (row.1.conversation, row.2) = (c, row.2)
  rw [beq_iff_eq.mp hkeep]

end

section
variable {κ : Type} [LinearOrder κ]

/-- **The readers of live messages agree.** Of the batch, the rows of a conversation are what its
own reader lists, and they stand together. The reader of a conversation lists what the reader of a
turn does, turn after turn. -/
theorem live_readers_agree {env : Env} {s₀ s : State} {ls : List Label} (hstart : Start s₀)
    (hrun : run (step env) s₀ ls = some s) (collate : String ↪ κ) (ids : List ConversationId) :
    (∀ c ∈ ids, ((s.store.liveMessagesForConversations collate ids).filter fun row =>
        row.1 = c).map Prod.snd = s.store.liveConversationMessages collate c) ∧
      s.store.liveMessagesForConversations collate ids =
        (orderBy (fun a b => decide (a ≤ b)) ids.dedup).flatMap (fun c =>
          (s.store.liveConversationMessages collate c).map fun m => (c, m)) ∧
      ∀ c, s.store.liveConversationMessages collate c =
        (s.store.turnsInOrder c).flatMap fun turn =>
        s.store.liveTurnMessages collate turn.id := by
  have h : StoreOk s.store := (run_invariant (fun _ _ _ => Inv.step) hstart.inv hrun).store
  refine ⟨?_, liveMessagesForConversations_eq h ids, fun c => liveConversationMessages_eq h⟩
  intro c hc
  have hnodup : (orderBy (fun a b => decide (a ≤ b)) ids.dedup).Nodup :=
    (orderBy_perm _ ids.dedup).nodup_iff.mpr (List.nodup_dedup ids)
  have hmem : c ∈ orderBy (fun a b => decide (a ≤ b)) ids.dedup :=
    mem_orderBy.mpr (List.mem_dedup.mpr hc)
  rw [liveMessagesForConversations_eq h]
  exact filter_flatMap_pair (s.store.liveConversationMessages collate) hnodup hmem

end

/-- After a regenerated reply, the readers list the prompt and the newer reply. -/
theorem live_readers_agree_of_regenerate : ∃ s,
    run (step openEnv) emptyState sendAndRegenerate = some s ∧
    (∀ c ∈ [5, 7], ((s.store.liveMessagesForConversations (Function.Embedding.refl String)
        [5, 7]).filter fun row => row.1 = c).map Prod.snd =
          s.store.liveConversationMessages (Function.Embedding.refl String) c) ∧
      s.store.liveMessagesForConversations (Function.Embedding.refl String) [5, 7] =
        (orderBy (fun a b => decide (a ≤ b)) [5, 7].dedup).flatMap (fun c =>
          (s.store.liveConversationMessages (Function.Embedding.refl String) c).map
            fun m => (c, m)) ∧
      ∀ c, s.store.liveConversationMessages (Function.Embedding.refl String) c =
        (s.store.turnsInOrder c).flatMap fun turn =>
          s.store.liveTurnMessages (Function.Embedding.refl String) turn.id := by
  have hany : (run (step openEnv) emptyState sendAndRegenerate).any (fun s =>
      ((s.store.liveConversationMessages (Function.Embedding.refl String) 5).map Message.id) ==
        [200, 202]) = true := by decide +kernel
  obtain ⟨s, hrun, -⟩ := exists_run_of_any hany
  exact ⟨s, hrun,
    live_readers_agree start_emptyState hrun (Function.Embedding.refl String) [5, 7]⟩

end RedTeaming.Conversations
