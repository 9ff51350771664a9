import RedTeaming.Conversations.TagPolicy
import RedTeaming.Library.Transition
import Mathlib.Data.Finset.Sort

/-!
# `RedTeaming.Exports.EngagementReport`: the tags that no turn has sent

`_unsent_across_turns` of `core/exports/templates/engagement_report.py`. A row of the report
covers a whole conversation. Its tags and those of its messages are judged turn by turn: against
what a reply of the turn has recorded, or else against the policy as it stands. A key is sent once
some turn sent it.

`mem_unsentAcrossTurns` says which keys the loop reports. The loop counts a key for a turn only
when the key is among the tags that the turn has now, so a turn that sent a key of the
conversation is forgotten once the conversation has lost the key. `report_correct_iff` is the
exact condition under which the report is right, in every state that turns and edits lead to.
-/

set_option autoImplicit false

namespace RedTeaming.Exports.EngagementReport

open RedTeaming.Conversations
open RedTeaming.Conversations.Tags
open RedTeaming.Library

/-! ### The loop -/

/-- `by_turn` and `record_holder_by_turn`. -/
abbrev Layers := Dict TurnId (Dict String String) × Dict TurnId Message

/-- One message is added to its turn, and replaces the holder of the record when it has one. -/
def collect (layers : Layers) (message : Message) : Layers :=
  (layers.1.insert message.turn
      (((layers.1.get? message.turn).getD .empty).update message.tags),
    if (recordedTagContext message).isSome then layers.2.insert message.turn message
      else layers.2)

/-- One turn is judged. The sets are the authored keys, and those that a turn has sent. -/
def judge (fold : TagFoldPolicy) (conversationTags : Dict String String)
    (holders : Dict TurnId Message) (acc : Finset String × Finset String)
    (turn : Option TurnId × Dict String String) : Finset String × Finset String :=
  let merged := conversationTags.update turn.2.entries
  let turnUnsent := match turn.1.bind holders.get? with
    | some holder => fold.unsentForMessage holder merged
    | none => fold.unsent merged
  (acc.1 ∪ merged.keys.toFinset, acc.2 ∪ (merged.keys.toFinset \ turnUnsent.toFinset))

/-- `by_turn or {None: {}}`. -/
def turnsOf (byTurn : Dict TurnId (Dict String String)) :
    List (Option TurnId × Dict String String) :=
  if byTurn.entries.isEmpty then [(none, .empty)]
  else byTurn.entries.map fun entry => (some entry.1, entry.2)

/-- `_unsent_across_turns`. -/
def unsentAcrossTurns (fold : TagFoldPolicy) (conversationTags : Dict String String)
    (messages : List Message) : List String :=
  let layers := messages.foldl collect (.empty, .empty)
  let judged := (turnsOf layers.1).foldl (judge fold conversationTags layers.2)
    (conversationTags.keys.toFinset, ∅)
  (judged.1 \ judged.2).sort

/-! ### What the loop reads -/

/-- The messages of a turn. -/
def messagesOf (messages : List Message) (turn : TurnId) : List Message :=
  messages.filter fun m => m.turn == turn

/-- The tags of the messages of a turn. A later message wins per key. -/
def turnTags (messages : List Message) (turn : TurnId) : Dict String String :=
  Dict.empty.update ((messagesOf messages turn).flatMap Message.tags)

/-- The message that holds the record of a turn: the last one that has a record. -/
def recordHolder (messages : List Message) (turn : TurnId) : Option Message :=
  ((messagesOf messages turn).filter fun m => (recordedTagContext m).isSome).getLast?

/-- A message of another turn changes nothing about a turn. -/
theorem messagesOf_append_of_ne {messages : List Message} {message : Message} {turn : TurnId}
    (h : message.turn ≠ turn) :
    messagesOf (messages ++ [message]) turn = messagesOf messages turn := by
  rw [messagesOf, List.filter_append]
  simp [messagesOf, h]

/-- A message of the turn is added at the end. -/
theorem messagesOf_append_self (messages : List Message) (message : Message) :
    messagesOf (messages ++ [message]) message.turn =
      messagesOf messages message.turn ++ [message] := by
  rw [messagesOf, List.filter_append]
  simp [messagesOf]

/-- An update with two lists is two updates. -/
theorem update_append (d : Dict String String) (a b : List (String × String)) :
    d.update (a ++ b) = (d.update a).update b := List.foldl_append

/-- The loop over the messages collects the tags and the record holder of each turn. -/
theorem collect_spec (messages : List Message) (turn : TurnId) :
    (messages.foldl collect (.empty, .empty)).1.get? turn =
        (if turn ∈ messages.map Message.turn then some (turnTags messages turn) else none) ∧
      (messages.foldl collect (.empty, .empty)).2.get? turn = recordHolder messages turn := by
  induction messages using List.reverseRecOn with
  | nil => exact ⟨rfl, rfl⟩
  | append_singleton messages message ih =>
    rw [List.foldl_append, List.foldl_cons, List.foldl_nil]
    let layers := messages.foldl collect (.empty, .empty)
    by_cases hturn : turn = message.turn
    · subst hturn
      constructor
      · show (layers.1.insert _ _).get? message.turn = _
        rw [Dict.get?_insert, if_pos rfl, if_pos (by simp), turnTags, messagesOf_append_self,
          List.flatMap_append, update_append, ih.1]
        by_cases hmem : message.turn ∈ messages.map Message.turn
        · rw [if_pos hmem]
          simp [turnTags]
        · have hnone : messagesOf messages message.turn = [] := by
            rw [messagesOf, List.filter_eq_nil_iff]
            intro m hm heq
            exact hmem (List.mem_map.mpr ⟨m, hm, by simpa using heq⟩)
          rw [if_neg hmem, hnone]
          simp
      · show (if (recordedTagContext message).isSome then layers.2.insert _ _ else layers.2).get?
          message.turn = _
        rw [recordHolder, messagesOf_append_self, List.filter_append]
        by_cases hrecord : (recordedTagContext message).isSome = true
        · rw [if_pos hrecord, Dict.get?_insert, if_pos rfl]
          simp [hrecord]
        · rw [if_neg hrecord, ih.2]
          simp [hrecord, recordHolder]
    · have hne : message.turn ≠ turn := fun heq => hturn heq.symm
      constructor
      · show (layers.1.insert _ _).get? turn = _
        rw [Dict.get?_insert, if_neg hturn, ih.1, turnTags, turnTags, messagesOf_append_of_ne hne]
        simp [hturn]
      · show (if (recordedTagContext message).isSome then layers.2.insert _ _ else layers.2).get?
          turn = _
        rw [recordHolder, messagesOf_append_of_ne hne]
        split
        · rw [Dict.get?_insert, if_neg hturn]
          exact ih.2
        · exact ih.2

/-! ### A row of the report -/

/-- What the report reads of a conversation: its tags, and its live messages. -/
structure Row where
  tags : Dict String String
  messages : List Message

namespace Row

/-- The column of the report. -/
def report (row : Row) (fold : TagFoldPolicy) : List String :=
  unsentAcrossTurns fold row.tags row.messages

/-- The turns that are judged. A conversation without messages is judged as one turn without
tags. -/
def Judges (row : Row) : Option TurnId → Prop
  | some turn => turn ∈ row.messages.map Message.turn
  | none => row.messages = []

/-- The tags that the messages of a turn have. -/
def layer (row : Row) : Option TurnId → Dict String String
  | some turn => turnTags row.messages turn
  | none => .empty

/-- The tags of a turn: those of its messages over those of the conversation. -/
def merged (row : Row) (turn : Option TurnId) : Dict String String :=
  row.tags.update (row.layer turn).entries

/-- What a reply of the turn has recorded. -/
def record (row : Row) (turn : Option TurnId) : Option JsonObject :=
  (turn.bind (recordHolder row.messages)).bind recordedTagContext

/-- The turn sent the key: its record shows it, or without a record the policy sends it as it
stands. -/
def Sent (row : Row) (fold : TagFoldPolicy) (turn : Option TurnId) (key : String) : Prop :=
  match row.record turn with
  | some record => shows record key = true
  | none => key ∈ (row.merged turn).keys ∧ key ∉ fold.unsent (row.merged turn)

/-- The key is on the conversation, or on a message. -/
def Authored (row : Row) (key : String) : Prop :=
  key ∈ row.tags.keys ∨ ∃ m ∈ row.messages, key ∈ m.tags.map Prod.fst

/-- The loop counts the key as sent: some turn sent it, and has it now. -/
def Counted (row : Row) (fold : TagFoldPolicy) (key : String) : Prop :=
  ∃ turn, row.Judges turn ∧ key ∈ (row.merged turn).keys ∧ row.Sent fold turn key

/-! ### What the loop reports -/

/-- The loop judges exactly these turns, each with the tags of its messages. -/
theorem mem_turnsOf {row : Row} {turn : Option TurnId} {tags : Dict String String} :
    (turn, tags) ∈ turnsOf (row.messages.foldl collect (.empty, .empty)).1 ↔
      row.Judges turn ∧ tags = row.layer turn := by
  let byTurn := (row.messages.foldl collect (.empty, .empty)).1
  have hget (t : TurnId) : byTurn.get? t =
      if t ∈ row.messages.map Message.turn then some (turnTags row.messages t) else none :=
    (collect_spec row.messages t).1
  have hempty : byTurn.entries = [] ↔ row.messages = [] := by
    constructor
    · intro h
      rw [← List.map_eq_nil_iff (f := Message.turn), List.eq_nil_iff_forall_not_mem]
      intro t ht
      have hnone : byTurn.get? t = none := by
        rw [Dict.get?, h]
        rfl
      rw [hget, if_pos ht] at hnone
      exact nomatch hnone
    · intro h
      show (row.messages.foldl collect (.empty, .empty)).1.entries = []
      rw [h]
      rfl
  show (turn, tags) ∈ turnsOf byTurn ↔ _
  rw [turnsOf]
  by_cases hmessages : row.messages = []
  · rw [if_pos (by simpa using hempty.mpr hmessages), List.mem_singleton, Prod.mk.injEq]
    cases turn with
    | none => simp [Judges, layer, hmessages]
    | some t => simp [Judges, hmessages]
  · rw [if_neg (by simpa using fun h => hmessages (hempty.mp h)), List.mem_map]
    cases turn with
    | none => simp [Judges, hmessages]
    | some t =>
      have hentry : (t, tags) ∈ byTurn.entries ↔
          row.Judges (some t) ∧ tags = row.layer (some t) := by
        rw [← Dict.get?_eq_some, hget]
        show _ ↔ t ∈ row.messages.map Message.turn ∧ tags = turnTags row.messages t
        split
        · rename_i ht
          rw [Option.some_inj]
          exact ⟨fun h => ⟨ht, h.symm⟩, fun h => h.2.symm⟩
        · rename_i ht
          exact ⟨fun h => (nomatch h), fun h => absurd h.1 ht⟩
      rw [← hentry]
      constructor
      · intro ⟨entry, hmem, heq⟩
        cases heq
        exact hmem
      · exact fun h => ⟨(t, tags), h, rfl⟩

/-- The loop over the turns gathers the keys of each, and those that it does not report. -/
theorem mem_foldl_judge {fold : TagFoldPolicy} {tags : Dict String String}
    {holders : Dict TurnId Message} {turns : List (Option TurnId × Dict String String)}
    {acc : Finset String × Finset String} {key : String} :
    (key ∈ (turns.foldl (judge fold tags holders) acc).1 ↔
      key ∈ acc.1 ∨ ∃ turn ∈ turns, key ∈ (tags.update turn.2.entries).keys) ∧
    (key ∈ (turns.foldl (judge fold tags holders) acc).2 ↔
      key ∈ acc.2 ∨ ∃ turn ∈ turns, key ∈ (judge fold tags holders (∅, ∅) turn).2) := by
  induction turns generalizing acc with
  | nil => simp
  | cons turn turns ih =>
    rw [List.foldl_cons]
    constructor
    · rw [ih.1]
      simp [judge, or_assoc]
    · rw [ih.2]
      simp [judge, or_assoc]

/-- A turn counts the keys that it has and has sent. -/
theorem mem_judge {row : Row} {fold : TagFoldPolicy} {turn : Option TurnId} {key : String} :
    key ∈ (judge fold row.tags (row.messages.foldl collect (.empty, .empty)).2 (∅, ∅)
        (turn, row.layer turn)).2 ↔
      key ∈ (row.merged turn).keys ∧ row.Sent fold turn key := by
  have hholder : turn.bind (row.messages.foldl collect (.empty, .empty)).2.get? =
      turn.bind (recordHolder row.messages) := by
    cases turn with
    | none => rfl
    | some t => exact (collect_spec row.messages t).2
  simp only [judge, hholder, Finset.empty_union, Finset.mem_sdiff, List.mem_toFinset]
  show key ∈ (row.merged turn).keys ∧ _ ↔ _
  apply and_congr_right
  intro hkey
  rw [Sent, record]
  cases turn.bind (recordHolder row.messages) with
  | none => simp [merged] at hkey ⊢; exact fun _ => hkey
  | some holder =>
    show key ∉ fold.unsentForMessage holder (row.merged turn) ↔ _
    rw [TagFoldPolicy.unsentForMessage]
    show _ ↔ match recordedTagContext holder with
      | some record => shows record key = true
      | none => key ∈ (row.merged turn).keys ∧ key ∉ fold.unsent (row.merged turn)
    cases recordedTagContext holder with
    | none => exact ⟨fun h => ⟨hkey, h⟩, fun h => h.2⟩
    | some record => simp [sortedKeys, hkey]

/-- A key is authored when it is on the conversation, or among the tags of a judged turn. -/
theorem authored_iff {row : Row} {key : String} :
    row.Authored key ↔ key ∈ row.tags.keys ∨
      ∃ turn, row.Judges turn ∧ key ∈ (row.merged turn).keys := by
  constructor
  · rintro (h | ⟨m, hm, hkey⟩)
    · exact .inl h
    · refine .inr ⟨some m.turn, List.mem_map_of_mem hm, Dict.mem_keys_update.mpr (.inl ?_)⟩
      show key ∈ (turnTags row.messages m.turn).keys
      have hmem : m ∈ messagesOf row.messages m.turn := List.mem_filter.mpr ⟨hm, by simp⟩
      rw [turnTags, Dict.mem_keys_update, List.map_flatMap]
      exact .inl (List.mem_flatMap.mpr ⟨m, hmem, hkey⟩)
  · rintro (h | ⟨turn, hturn, hkey⟩)
    · exact .inl h
    · rcases Dict.mem_keys_update.mp hkey with hlayer | h
      · cases turn with
        | none => exact absurd hlayer List.not_mem_nil
        | some t =>
          have hlayer' : key ∈ (turnTags row.messages t).keys := hlayer
          rw [turnTags, Dict.mem_keys_update, List.map_flatMap] at hlayer'
          rcases hlayer' with h | h
          · have ⟨m, hm, hkey⟩ := List.mem_flatMap.mp h
            exact .inr ⟨m, (List.mem_filter.mp hm).1, hkey⟩
          · exact absurd h List.not_mem_nil
      · exact .inl h

/-- The report has the authored keys that no turn both sent and has now. -/
theorem mem_report {row : Row} {fold : TagFoldPolicy} {key : String} :
    key ∈ row.report fold ↔ row.Authored key ∧ ¬ row.Counted fold key := by
  rw [report, unsentAcrossTurns, Finset.mem_sort, Finset.mem_sdiff, mem_foldl_judge.1,
    mem_foldl_judge.2, authored_iff]
  have hkeys : (∃ turn ∈ turnsOf (row.messages.foldl collect (.empty, .empty)).1,
      key ∈ (row.tags.update turn.2.entries).keys) ↔
        ∃ turn, row.Judges turn ∧ key ∈ (row.merged turn).keys := by
    constructor
    · intro ⟨(turn, tags), hmem, hkey⟩
      have ⟨hturn, htags⟩ := mem_turnsOf.mp hmem
      rw [htags] at hkey
      exact ⟨turn, hturn, hkey⟩
    · intro ⟨turn, hturn, hkey⟩
      exact ⟨(turn, row.layer turn), mem_turnsOf.mpr ⟨hturn, rfl⟩, hkey⟩
  have hsent : (∃ turn ∈ turnsOf (row.messages.foldl collect (.empty, .empty)).1,
      key ∈ (judge fold row.tags (row.messages.foldl collect (.empty, .empty)).2 (∅, ∅) turn).2) ↔
        row.Counted fold key := by
    constructor
    · intro ⟨(turn, tags), hmem, hkey⟩
      have ⟨hturn, htags⟩ := mem_turnsOf.mp hmem
      rw [htags, mem_judge] at hkey
      exact ⟨turn, hturn, hkey⟩
    · intro ⟨turn, hturn, hkey⟩
      exact ⟨(turn, row.layer turn), mem_turnsOf.mpr ⟨hturn, rfl⟩, mem_judge.mpr hkey⟩
  rw [hkeys, hsent, List.mem_toFinset]
  simp

/-! ### Turns and edits -/

/-- What happens to a conversation. -/
inductive Change
  | appendTurn (turn : TurnId) (messages : List Message)
  | editTags (tags : Dict String String)

/-- One change. A turn that is appended is a new one. -/
def step (row : Row) : Change → Option Row
  | .appendTurn turn messages =>
    if turn ∉ row.messages.map Message.turn ∧ ∀ m ∈ messages, m.turn = turn then
      some { row with messages := row.messages ++ messages }
    else none
  | .editTags tags => some { row with tags }

/-- Messages of other turns change nothing about a turn. -/
theorem messagesOf_append {messages more : List Message} {turn : TurnId}
    (h : ∀ m ∈ more, m.turn ≠ turn) :
    messagesOf (messages ++ more) turn = messagesOf messages turn := by
  have hnone : more.filter (fun m => m.turn == turn) = [] := by
    rw [List.filter_eq_nil_iff]
    intro m hm heq
    exact h m hm (by simpa using heq)
  rw [messagesOf, List.filter_append, hnone, List.append_nil]
  rfl

/-- A turn with a record is a turn of the conversation. -/
theorem judges_of_record {row : Row} {turn : Option TurnId} {record : JsonObject}
    (h : row.record turn = some record) : row.Judges turn := by
  cases turn with
  | none => exact nomatch h
  | some t =>
    have ⟨holder, hholder, _⟩ := Option.bind_eq_some_iff.mp h
    have hmem := (List.mem_filter.mp (List.mem_of_getLast? hholder)).1
    have ⟨hmessage, heq⟩ := List.mem_filter.mp hmem
    exact List.mem_map.mpr ⟨holder, hmessage, by simpa using heq⟩

/-- The record of a turn stays, whatever happens to the conversation. -/
theorem record_of_run {row row' : Row} {changes : List Change}
    (h : run step row changes = some row') {turn : Option TurnId} {record : JsonObject}
    (hrecord : row.record turn = some record) : row'.record turn = some record := by
  refine run_invariant (I := fun row' => row'.record turn = some record) ?_ hrecord h
  intro row change row' hrecord hstep
  cases change with
  | editTags tags =>
    cases hstep
    exact hrecord
  | appendTurn new messages =>
    simp only [step] at hstep
    split at hstep
    · rename_i hnew
      cases hstep
      cases turn with
      | none => exact nomatch hrecord
      | some t =>
        have hold : t ∈ row.messages.map Message.turn := judges_of_record hrecord
        have hne : ∀ m ∈ messages, m.turn ≠ t := by
          intro m hm heq
          rw [← heq, hnew.2 m hm] at hold
          exact hnew.1 hold
        show (recordHolder (row.messages ++ messages) t).bind recordedTagContext = some record
        rw [recordHolder, messagesOf_append hne]
        exact hrecord
    · exact nomatch hstep

/-- The report is right about a conversation that came from another one by turns and edits. -/
structure Correct (fold : TagFoldPolicy) (row row' : Row) : Prop where
  /-- The reported keys are the authored ones that no turn has sent. -/
  reduction : ∀ key, key ∈ row'.report fold ↔
    row'.Authored key ∧ ¬ ∃ turn, row'.Judges turn ∧ row'.Sent fold turn key
  /-- The order of the turns does not matter. -/
  order : ∀ messages : List Message,
    (∀ turn, messagesOf messages turn = messagesOf row'.messages turn) →
      (Row.mk row'.tags messages).report fold = row'.report fold
  /-- No key is reported that the record of a turn showed. -/
  kept : ∀ turn record key, row.record turn = some record → shows record key = true →
    key ∉ row'.report fold

/-- A key that the record of a turn shows, and that is still authored, is among the tags of that
turn, or else of another turn that sent it. -/
def RecordsHeld (fold : TagFoldPolicy) (row : Row) : Prop :=
  ∀ turn record key, row.record turn = some record → shows record key = true →
    row.Authored key → key ∉ (row.merged turn).keys →
    ∃ other, row.Judges other ∧ key ∈ (row.merged other).keys ∧ row.Sent fold other key

/-- The report reads the turns one by one. -/
theorem report_congr {fold : TagFoldPolicy} {tags : Dict String String}
    {messages messages' : List Message}
    (h : ∀ turn, messagesOf messages' turn = messagesOf messages turn) :
    (Row.mk tags messages').report fold = (Row.mk tags messages).report fold := by
  have hmem (m : Message) : m ∈ messages' ↔ m ∈ messages := by
    have hturn (l : List Message) : m ∈ messagesOf l m.turn ↔ m ∈ l := by
      simp [messagesOf]
    rw [← hturn, h, hturn]
  have hjudges (turn : Option TurnId) :
      (Row.mk tags messages').Judges turn ↔ (Row.mk tags messages).Judges turn := by
    cases turn with
    | none =>
      show messages' = [] ↔ messages = []
      rw [List.eq_nil_iff_forall_not_mem, List.eq_nil_iff_forall_not_mem]
      simp only [hmem]
    | some t =>
      show t ∈ messages'.map Message.turn ↔ t ∈ messages.map Message.turn
      simp only [List.mem_map, hmem]
  have hmerged (turn : Option TurnId) :
      (Row.mk tags messages').merged turn = (Row.mk tags messages).merged turn := by
    cases turn with
    | none => rfl
    | some t => simp only [merged, layer, turnTags, h]
  have hsent (turn : Option TurnId) (key : String) :
      (Row.mk tags messages').Sent fold turn key ↔ (Row.mk tags messages).Sent fold turn key := by
    have hrecord : (Row.mk tags messages').record turn = (Row.mk tags messages).record turn := by
      cases turn with
      | none => rfl
      | some t => simp only [record, Option.bind_some, recordHolder, h]
    rw [Sent, Sent, hrecord, hmerged]
  have hauthored (key : String) :
      (Row.mk tags messages').Authored key ↔ (Row.mk tags messages).Authored key := by
    simp only [Authored, hmem]
  have hset : ∀ key, key ∈ (Row.mk tags messages').report fold ↔
      key ∈ (Row.mk tags messages).report fold := by
    intro key
    simp only [mem_report, Counted, hjudges, hmerged, hsent, hauthored]
  -- Both reports are the sorted list of one set.
  have hfinset : ((Row.mk tags messages').report fold).toFinset =
      ((Row.mk tags messages).report fold).toFinset := by
    ext key
    rw [List.mem_toFinset, List.mem_toFinset]
    exact hset key
  rw [report, report, unsentAcrossTurns, unsentAcrossTurns, Finset.sort_toFinset,
    Finset.sort_toFinset] at hfinset
  rw [report, report, unsentAcrossTurns, unsentAcrossTurns, hfinset]

/-- The report of a conversation is right exactly when each key that a record shows is held. -/
theorem report_correct_iff (fold : TagFoldPolicy) (row row' : Row) (changes : List Change)
    (h : run step row changes = some row') : Correct fold row row' ↔ RecordsHeld fold row' := by
  constructor
  · intro hcorrect turn record key hrecord hshows hauthored _
    have hsent : row'.Sent fold turn key := by
      rw [Sent, hrecord]
      exact hshows
    have hnot : key ∉ row'.report fold := fun hreport =>
      ((hcorrect.reduction key).mp hreport).2 ⟨turn, judges_of_record hrecord, hsent⟩
    rw [mem_report] at hnot
    by_contra hcounted
    exact hnot ⟨hauthored, hcounted⟩
  · intro hheld
    have hreduction : ∀ key, key ∈ row'.report fold ↔
        row'.Authored key ∧ ¬ ∃ turn, row'.Judges turn ∧ row'.Sent fold turn key := by
      intro key
      rw [mem_report]
      apply and_congr_right
      intro hauthored
      apply not_congr
      constructor
      · exact fun ⟨turn, hturn, _, hsent⟩ => ⟨turn, hturn, hsent⟩
      · intro ⟨turn, hturn, hsent⟩
        by_cases hhas : key ∈ (row'.merged turn).keys
        · exact ⟨turn, hturn, hhas, hsent⟩
        · -- A turn that does not have the key sent it by its record.
          cases hrecord : row'.record turn with
          | none =>
            rw [Sent, hrecord] at hsent
            exact absurd hsent.1 hhas
          | some record =>
            have hshows : shows record key = true := by
              rw [Sent, hrecord] at hsent
              exact hsent
            exact hheld turn record key hrecord hshows hauthored hhas
    constructor
    · exact hreduction
    · exact fun messages hmessages => report_congr hmessages
    · intro turn record key hrecord hshows hreport
      have hrecord' := record_of_run h hrecord
      have hsent : row'.Sent fold turn key := by
        rw [Sent, hrecord']
        exact hshows
      exact ((hreduction key).mp hreport).2 ⟨turn, judges_of_record hrecord', hsent⟩

end Row

/-! ### A forgotten record -/

/-- A policy without restriction. -/
def openPolicy : TagFoldPolicy where
  enabled := true
  restricted := false
  allowed := []

/-- A conversation with `env` as its tag. The first turn sent it, and the second one blanked
it. -/
def blankedRow : Row where
  tags := ⟨[("env", "prod")], by decide⟩
  messages := [{ id := 0, turn := 0, role := .user, status := .complete, createdAt := 0 },
    { id := 1, turn := 0, role := .assistant, status := .complete, createdAt := 0
      extra := [(tagContextExtraKey, .obj [("env", .str "prod")])] },
    { id := 2, turn := 1, role := .user, status := .complete, createdAt := 1,
      tags := [("env", "")] },
    { id := 3, turn := 1, role := .assistant, status := .complete, createdAt := 1 }]

/-- The tags of the conversation are cleared after that, and `env` is reported as not sent. -/
theorem report_forgets_record :
    ¬ ∀ (fold : TagFoldPolicy) (row row' : Row) (changes : List Row.Change),
    run Row.step row changes = some row' → Row.Correct fold row row' := by
  intro hall
  have hcorrect := hall openPolicy blankedRow _ [.editTags .empty] rfl
  refine hcorrect.kept (some 0) [("env", .str "prod")] "env" rfl (by decide) ?_
  rw [Row.report, unsentAcrossTurns, Finset.mem_sort]
  decide +kernel

/-- With another value of `env` instead, the report is right. -/
theorem report_correct_iff_edited : Row.Correct openPolicy blankedRow
    { blankedRow with tags := ⟨[("env", "staging")], by decide⟩ } := by
  refine (Row.report_correct_iff openPolicy blankedRow _
    [.editTags ⟨[("env", "staging")], by decide⟩] rfl).mpr ?_
  intro turn record key _ _ hauthored hnot
  have hkey : key = "env" := by
    simpa [Row.Authored, Dict.keys, blankedRow] using hauthored
  rw [hkey, Row.merged, Dict.mem_keys_update] at hnot
  exact absurd (.inr (by decide)) hnot

end RedTeaming.Exports.EngagementReport
