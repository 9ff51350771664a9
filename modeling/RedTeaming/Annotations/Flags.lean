import RedTeaming.Annotations.Annotate
import RedTeaming.Evaluations.System
import RedTeaming.Library.Grouping
import RedTeaming.Library.Joins
import RedTeaming.Library.Listing
import RedTeaming.Library.Transition

/-!
# `RedTeaming.Annotations.Flags`: the badges of a message, and the lists behind them

`core/annotations/services/message_flags.py`, the requests of `api/v1/message_flags.py`, and the
read of one conversation that the message history starts with. A flag selects messages of one
conversation: its link rows are in `flagged_messages`, one for each message.

The message history shows a number at each message. `flagCountsByMessage` counts link rows, and
checks no more than the conversation and the author of a flag, since the history has read the
conversation. `listFlags` checks the ancestors too, from the evaluation that the flag carries.

`badges_equal_lists` says that the two agree in every state with `Inv`: a flag carries the
evaluation of its conversation, so that who may read the conversation sees the group of the flag.
The create writes it so, and every step keeps it (`inv_of_run`). The schema does not, and
`flag_of_another_evaluation` is a row that it admits.
-/

set_option autoImplicit false

namespace RedTeaming.Annotations

open RedTeaming.Auth
open RedTeaming.Conversations (Conversation)
open RedTeaming.Evaluations (joinVisibleEvaluationGroup listedRows requireObjectOrGlobal)
open RedTeaming.Library

namespace Flags

/-- A row of `message_flags` with its group and its content. -/
structure Flag extends MessageFlag where
  evaluationGroupId : UUID
  reason : String
  redFlagged : Bool := true
  comment : Option String := none
deriving DecidableEq

instance : Entity Flag :=
  ⟨(·.toBaseModel), fun r b => { r with toBaseModel := b }, fun _ _ => rfl⟩

/-- The primary key of a link row is the pair. -/
instance : Keyed FlaggedMessage (UUID × UUID) :=
  ⟨fun link => (link.messageFlagId, link.messageId)⟩

/-- The tables. -/
structure State where
  around : Surroundings
  flags : Table Flag
  links : Table FlaggedMessage

/-- `ILIKE` of a text anywhere. -/
abbrev Contains := String → String → Bool

section
variable (s : State) (settings : Evaluations.Settings) (ctx : Evaluations.Context)

/-! ### Reads -/

/-- `get_conversation` with `read_any`: a live conversation of the evaluation, of a group that the
caller sees, that is the caller's own, or whose group grants the read of all. -/
def getConversation (evaluationId conversationId : UUID) : Except ApiError Conversation :=
  found ((findLive s.around.conversations conversationId).filter fun row =>
    row.evaluationId == evaluationId &&
      (joinVisibleEvaluationGroup s.around.base ctx.callerId ctx.canManage row.evaluationId).any
        fun group => ctx.canManage || row.userId == ctx.callerId ||
          (s.around.base.groupsGranting .conversationsReadAny ctx.callerId).contains group.id)
    (.notFound ("Conversation " ++ toString conversationId ++ " not found in evaluation "
      ++ toString evaluationId ++ "."))

/-- `_scope`: `join_conversation_scoped` with the author. -/
def inFlagScope (flag : Flag) : Bool :=
  (joinVisibleEvaluationGroup s.around.base ctx.callerId ctx.canManage
    flag.evaluationId).isSome && (findLive s.around.conversations flag.conversationId).isSome &&
      (ctx.canManage || flag.createdById == ctx.callerId)

/-- `MessageFlagFilters`. -/
structure MessageFlagFilters where
  conversationId : Option UUID := none
  evaluationId : Option UUID := none
  evaluationGroupId : Option UUID := none
  scenarioId : Option UUID := none
  taskId : Option UUID := none
  createdById : Option UserId := none
  createdFrom : Option Time := none
  createdTo : Option Time := none
  messageId : Option UUID := none
  status : Option FlagStatus := none
  redFlagged : Option Bool := none
  search : Option String := none
  deleted : Bool := false

/-- The link rows have the flag with the message. -/
def selects (flagId messageId : UUID) : Bool :=
  s.links.rows.any fun link => link.messageFlagId == flagId && link.messageId == messageId

/-- The filters of the request. -/
def MessageFlagFilters.keeps (contains : Contains) (filters : MessageFlagFilters)
    (flag : Flag) : Bool :=
  filters.conversationId.all (flag.conversationId == ·) &&
    filters.evaluationId.all (flag.evaluationId == ·) &&
    filters.evaluationGroupId.all (flag.evaluationGroupId == ·) &&
    filters.scenarioId.all (flag.scenarioId == some ·) &&
    filters.taskId.all (flag.taskId == some ·) &&
    filters.createdById.all (flag.createdById == ·) &&
    filters.createdFrom.all (fun time => decide (time ≤ flag.createdAt)) &&
    filters.createdTo.all (fun time => decide (flag.createdAt ≤ time)) &&
    filters.messageId.all (selects s flag.id) &&
    filters.status.all (flag.status == ·) &&
    filters.redFlagged.all (flag.redFlagged == ·) &&
    filters.search.all fun text => contains flag.reason text || flag.comment.any (contains · text)

/-- `list_flags`. -/
def listFlags (contains : Contains) (filters : MessageFlagFilters) (orderBy : Flag → Flag → Bool)
    (limit offset : Nat) : Page Flag :=
  ListQuery.page
    { deleted := filters.deleted, keep := filters.keeps s contains, le := orderBy, limit, offset }
    ((listedRows settings ctx filters.deleted s.flags).filter (inFlagScope s ctx))

/-- The condition of the join: the flag of a link row. -/
def ofFlag (link : FlaggedMessage) (flag : Flag) : Bool := flag.id == link.messageFlagId

/-- `WHERE`: a live flag on the conversation, of the author unless that is lifted, with one of the
messages. -/
def counted (conversationId : UUID) (messageIds : List UUID) (callerId : UserId)
    (canManage : Bool) (row : FlaggedMessage × Flag) : Bool :=
  row.2.conversationId == conversationId && live row.2 && messageIds.contains row.1.messageId &&
    (canManage || row.2.createdById == callerId)

/-- `flag_counts_by_message`: a message with the number of its rows. -/
def flagCountsByMessage (conversationId : UUID) (messageIds : List UUID) (callerId : UserId)
    (canManage : Bool) : List (UUID × Nat) :=
  if messageIds.isEmpty then []
  else
    (groupBy (fun row : FlaggedMessage × Flag => row.1.messageId)
      ((innerJoin ofFlag s.links.rows s.flags.rows).filter
        (counted conversationId messageIds callerId canManage))).map
      fun group => (group.1, group.2.length)

/-- The message of a flag that the caller cannot see. -/
def flagNotFound (flagId : UUID) : ApiError :=
  .notFound ("Message flag " ++ toString flagId ++ " not found.")

/-- `get_flag`. -/
def getFlag (flagId : UUID) : Except ApiError Flag :=
  found ((findLive s.flags flagId).filter (inFlagScope s ctx)) (flagNotFound flagId)

/-- `get_restorable_flag`. -/
def getRestorableFlag (flagId : UUID) : Except ApiError Flag :=
  found
    ((findRestorable s.flags (ctx.restoreCutoff settings) ctx.deletedBy flagId).filter
      (inFlagScope s ctx))
    (.notFound ("No restorable message flag " ++ toString flagId
      ++ " was deleted within the restore window."))

/-! ### Writes -/

/-- The payload of a flag. -/
structure MessageFlagCreate where
  conversationId : UUID
  messageIds : List UUID
  reason : String
  redFlagged : Bool := true
  comment : Option String := none
  taskId : Option UUID := none

/-- The validators of the payload. -/
def MessageFlagCreate.validate (payload : MessageFlagCreate) : Except ApiError Unit := do
  check (!payload.messageIds.isEmpty)
    (.validationError "List should have at least 1 item after validation, not 0")
  check (decide payload.messageIds.Nodup)
    (.validationError "must not contain duplicate message ids")
  check (!payload.reason.isEmpty) (.validationError "String should have at least 1 character")

/-- What an edit brings. A field that is left out stays. -/
structure MessageFlagUpdate where
  reason : Option String := none
  redFlagged : Option Bool := none
  comment : Option (Option String) := none

/-- The validator of the payload. -/
def MessageFlagUpdate.validate (payload : MessageFlagUpdate) : Except ApiError Unit :=
  check (payload.reason.all (!·.isEmpty))
    (.validationError "String should have at least 1 character")

/-- `update_flag`, on the row. -/
def MessageFlagUpdate.apply (changes : MessageFlagUpdate) (flag : Flag) : Flag :=
  { flag with
    reason := changes.reason.getD flag.reason
    redFlagged := changes.redFlagged.getD flag.redFlagged
    comment := changes.comment.getD flag.comment }

/-- `resolve_conversation_context`: the caller's own live conversation, with its group. -/
def resolveConversationContext (conversationId : UUID) : Except ApiError (Conversation × UUID) :=
  found (do
    let conversation ← (findLive s.around.conversations conversationId).filter fun row =>
      row.userId == ctx.callerId
    let group ← joinVisibleEvaluationGroup s.around.base ctx.callerId false
        conversation.evaluationId
    return (conversation, group.id))
    (.notFound ("Conversation " ++ toString conversationId ++ " not found."))

/-- The id is that of a live message of the conversation. -/
def inConversation (conversationId messageId : UUID) : Bool :=
  ((findLive s.around.messages messageId).bind fun message =>
    findLive s.around.turns message.turnId).any fun turn => turn.conversationId == conversationId

/-- The `repr` of a sorted set of ids. -/
def sortedIds (ids : List UUID) : String :=
  "[" ++ ", ".intercalate
    (((ids.map toString).dedup.mergeSort fun a b => decide (¬ b < a)).map quoted) ++ "]"

/-- `assert_messages_in_conversation`. -/
def assertMessagesInConversation (conversationId : UUID)
    (messageIds : List UUID) : Except ApiError Unit :=
  let missing := messageIds.filter fun messageId => !inConversation s conversationId messageId
  check missing.isEmpty
    (.notFound ("Messages not found in conversation " ++ toString conversationId ++ ": "
      ++ sortedIds missing ++ "."))

/-- The task is a live one of the scenario. -/
def assertTaskOfScenario (taskId : Option UUID) (scenarioId : UUID) : Except ApiError Unit :=
  check (taskId.all fun id => (findLive s.around.base.tasks id).any fun task =>
    task.scenarioId == scenarioId)
    (.notFound ("Task " ++ toString (taskId.getD 0) ++ " not found in scenario " ++
      toString scenarioId ++ "."))

/-- The insert of link rows. -/
def insertLinks (links : Table FlaggedMessage) (new : List FlaggedMessage) :
    Except ApiError (Table FlaggedMessage) :=
  found (links.insertAll new) (.runtimeError "duplicate key value violates unique constraint")

/-- The row that `create_flag` makes. -/
def newFlag (draft : MessageFlagCreate) (conversation : Conversation)
    (evaluationGroupId : UUID) : Flag where
  toBaseModel := ctx.newRow ctx.fresh.row
  createdById := ctx.callerId
  conversationId := conversation.id
  evaluationId := conversation.evaluationId
  scenarioId := some conversation.scenarioId
  taskId := draft.taskId
  evaluationGroupId
  reason := draft.reason
  redFlagged := draft.redFlagged
  comment := draft.comment

/-- `create_flag`. -/
def createFlag (draft : MessageFlagCreate) : Except ApiError State := do
  let (conversation, evaluationGroupId) ← resolveConversationContext s ctx draft.conversationId
  assertMessagesInConversation s draft.conversationId draft.messageIds
  assertTaskOfScenario s draft.taskId conversation.scenarioId
  let flag := newFlag ctx draft conversation evaluationGroupId
  let flags ← flush s.flags [flag]
  let links ← insertLinks s.links (draft.messageIds.map fun messageId => ⟨flag.id, messageId⟩)
  return { s with flags, links }

/-! ### The routes -/

/-- `require_flag_create_permission`: the global permission, or that of a role on any group. -/
def requireFlagCreatePermission (p : Permission) : Except ApiError Unit :=
  check (decide (p ∈ ctx.caller.permissions) ||
      !(s.around.base.groupsGranting p ctx.callerId).isEmpty)
    (.forbidden ("Caller lacks the " ++ quoted p.value ++ " permission."))

/-- `require_flag_permission`: the global permission, or that of a role on the group of the
flag. -/
def requireFlagPermission (p : Permission) (flagId : UUID) : Except ApiError Unit :=
  requireObjectOrGlobal s.around.base ctx.caller p
    (.ok ((s.flags.find? flagId).map fun flag => flag.evaluationGroupId))

/-- The endpoint that flags messages. -/
def createMessageFlagEndpoint (payload : MessageFlagCreate) : Except ApiError State := do
  requireFlagCreatePermission s ctx .flagsCreate
  payload.validate
  createFlag s ctx payload

/-- The endpoint that edits a flag. -/
def updateMessageFlagEndpoint (flagId : UUID) (payload : MessageFlagUpdate) :
    Except ApiError State := do
  requireFlagPermission s ctx .flagsUpdate flagId
  payload.validate
  let flag ← getFlag s ctx flagId
  return { s with flags := s.flags.modify flag.id payload.apply fun _ => rfl }

/-- The endpoint that deletes a flag. Its link rows stay. -/
def deleteMessageFlagEndpoint (flagId : UUID) : Except ApiError State := do
  requireFlagPermission s ctx .flagsDelete flagId
  let flag ← getFlag s ctx flagId
  return { s with flags := softDeleteRow s.flags ctx.now ctx.callerId flag.id }

/-- The endpoint that restores a flag. -/
def restoreMessageFlagEndpoint (flagId : UUID) : Except ApiError State := do
  requireFlagPermission s ctx .flagsDelete flagId
  let flag ← getRestorableFlag s settings ctx flagId
  return { s with flags := restoreRow s.flags flag.id }

end

/-! ### Runs -/

/-- One step. `elsewhere` is a commit of the rest of the application. -/
inductive Event
  | create (ctx : Evaluations.Context) (payload : MessageFlagCreate)
  | update (ctx : Evaluations.Context) (flagId : UUID) (payload : MessageFlagUpdate)
  | delete (ctx : Evaluations.Context) (flagId : UUID)
  | restore (ctx : Evaluations.Context) (flagId : UUID)
  | elsewhere (around : Surroundings)

/-- No conversation is removed, or moved to another evaluation. -/
def keepsConversations (rows rows' : Table Conversation) : Bool :=
  rows.rows.all fun row => rows'.rows.any fun row' =>
    row'.id == row.id && row'.evaluationId == row.evaluationId

/-- One step. A request that is refused changes nothing, and has no step. -/
def step (settings : Evaluations.Settings) (s : State) : Event → Option State
  | .create ctx payload => (createMessageFlagEndpoint s ctx payload).toOption
  | .update ctx flagId payload => (updateMessageFlagEndpoint s ctx flagId payload).toOption
  | .delete ctx flagId => (deleteMessageFlagEndpoint s ctx flagId).toOption
  | .restore ctx flagId => (restoreMessageFlagEndpoint s settings ctx flagId).toOption
  | .elsewhere around =>
    if keepsConversations s.around.conversations around.conversations
      then some { s with around } else none

/-- The flag carries the evaluation of its conversation. -/
def CopiesEvaluation (conversations : Table Conversation) (flag : Flag) : Prop :=
  ∃ conversation ∈ conversations, key conversation = flag.conversationId ∧
    conversation.evaluationId = flag.evaluationId

/-- The flags carry the evaluations of their conversations, as their creation writes them. -/
def Inv (s : State) : Prop := ∀ flag ∈ s.flags, CopiesEvaluation s.around.conversations flag

section
variable {s s' : State} {settings : Evaluations.Settings} {ctx : Evaluations.Context}
  {flag flag' : Flag} {conversationId messageId : UUID} {messageIds : List UUID}
  {callerId : UserId} {canManage : Bool}

/-! ### What a step keeps -/

/-- A flag of the same conversation and evaluation carries it too. -/
theorem CopiesEvaluation.of_eq {conversations : Table Conversation}
    (h : CopiesEvaluation conversations flag)
    (hconversation : flag'.conversationId = flag.conversationId)
    (hevaluation : flag'.evaluationId = flag.evaluationId) :
    CopiesEvaluation conversations flag' := by
  have ⟨conversation, hmem, hkey, hsame⟩ := h
  exact ⟨conversation, hmem, hkey.trans hconversation.symm, hsame.trans hevaluation.symm⟩

/-- A write of one flag that keeps its references keeps the invariant. -/
theorem Inv.modify (h : Inv s) (id : UUID) (f : Flag → Flag) (hf : ∀ r, key (f r) = key r)
    (hconversation : ∀ r, (f r).conversationId = r.conversationId)
    (hevaluation : ∀ r, (f r).evaluationId = r.evaluationId) :
    Inv { s with flags := s.flags.modify id f hf } := by
  intro flag hmem
  have hmem : flag ∈ s.flags.modify id f hf := hmem
  rw [Table.mem_modify] at hmem
  rcases hmem with ⟨old, hold, -, rfl⟩ | ⟨hold, -⟩
  · exact (h old hold).of_eq (hconversation old) (hevaluation old)
  · exact h flag hold

/-- A new flag is the flag of a conversation, and copies its evaluation. -/
theorem createFlag_spec {draft : MessageFlagCreate} (h : createFlag s ctx draft = .ok s') :
    ∃ conversation ∈ s.around.conversations, ∃ groupId flags links,
      flush s.flags [newFlag ctx draft conversation groupId] = .ok flags ∧
        s' = { s with flags, links } := by
  simp only [createFlag, bind_eq_ok, exists_unit] at h
  obtain ⟨⟨conversation, groupId⟩, hcontext, -, -, flags, hflush, links, -, h⟩ := h
  cases h
  have hfound := found_eq_ok.mp hcontext
  simp only [Option.bind_eq_bind, Option.bind_eq_some_iff, Option.filter_eq_some_iff] at hfound
  obtain ⟨row, ⟨hrow, -⟩, group, -, hpair⟩ := hfound
  cases hpair
  exact ⟨conversation, (findLive_eq_some.mp hrow).1, group.id, flags, links, hflush, rfl⟩

/-- One step keeps the invariant. -/
theorem Inv.step (hinv : Inv s) {event : Event} (hstep : step settings s event = some s') :
    Inv s' := by
  cases event with
  | create ctx payload =>
    simp only [Flags.step, toOption_eq_some, createMessageFlagEndpoint, bind_eq_ok,
      exists_unit] at hstep
    obtain ⟨conversation, hmem, groupId, flags, links, hflush, hsame⟩ := createFlag_spec hstep.2.2
    subst hsame
    intro flag hflag
    rcases (mem_of_flush_singleton hflush).mp hflag with hold | rfl
    · exact hinv flag hold
    · exact ⟨conversation, hmem, rfl, rfl⟩
  | update ctx flagId payload =>
    simp only [Flags.step, toOption_eq_some, updateMessageFlagEndpoint, bind_eq_ok,
      exists_unit] at hstep
    obtain ⟨-, -, flag, -, h⟩ := hstep
    cases h
    exact hinv.modify flag.id payload.apply (fun _ => rfl) (fun _ => rfl) fun _ => rfl
  | delete ctx flagId =>
    simp only [Flags.step, toOption_eq_some, deleteMessageFlagEndpoint, bind_eq_ok,
      exists_unit] at hstep
    obtain ⟨-, flag, -, h⟩ := hstep
    cases h
    exact hinv.modify flag.id (softDelete ctx.now ctx.callerId)
      (key_softDelete ctx.now ctx.callerId)
      (fun _ => rfl) fun _ => rfl
  | restore ctx flagId =>
    simp only [Flags.step, toOption_eq_some, restoreMessageFlagEndpoint, bind_eq_ok,
      exists_unit] at hstep
    obtain ⟨-, flag, -, h⟩ := hstep
    cases h
    exact hinv.modify flag.id RedTeaming.restore key_restore (fun _ => rfl) fun _ => rfl
  | elsewhere around =>
    simp only [Flags.step] at hstep
    split at hstep
    · rename_i hkeeps
      cases hstep
      intro flag hflag
      obtain ⟨conversation, hmem, hkey, hsame⟩ := hinv flag hflag
      -- The conversation of the flag is still there, in its evaluation.
      obtain ⟨row, hrow, hrowSame⟩ :=
        List.any_eq_true.mp (List.all_eq_true.mp hkeeps conversation hmem)
      rw [Bool.and_eq_true, beq_iff_eq, beq_iff_eq] at hrowSame
      exact ⟨row, hrow, Eq.trans hrowSame.1 hkey, hrowSame.2.trans hsame⟩
    · cases hstep

/-- The invariant holds in every state that a run reaches, from one without flags. -/
theorem inv_of_run {events : List Event} (hstart : s.flags = .empty)
    (hrun : run (Flags.step settings) s events = some s') : Inv s' := by
  have hinv : Inv s := by
    intro flag hflag
    rw [hstart] at hflag
    exact absurd hflag Table.not_mem_empty
  exact run_invariant (fun _ _ _ hinv hstep => hinv.step hstep) hinv hrun

/-! ### What is counted -/

/-- Link rows of one flag and one message are one row. -/
theorem eq_of_link {link link' : FlaggedMessage} (h : link ∈ s.links) (h' : link' ∈ s.links)
    (hflag : link.messageFlagId = link'.messageFlagId)
    (hmessage : link.messageId = link'.messageId) :
    link = link' := Table.eq_of_key_eq h h' (Prod.ext hflag hmessage)

/-- A badge counts the flags that select the message, though it counts link rows. -/
theorem valueAt_flagCountsByMessage (h : messageId ∈ messageIds) :
    valueAt (flagCountsByMessage s conversationId messageIds callerId canManage) messageId 0 =
      s.flags.rows.countP fun flag => flag.conversationId == conversationId && live flag &&
        (canManage || flag.createdById == callerId) && selects s flag.id messageId := by
  have hsome : ¬ messageIds.isEmpty = true := by
    intro hempty
    rw [List.isEmpty_iff.mp hempty] at h
    exact List.not_mem_nil h
  have hvalue := valueAt_aggregate (fun row : FlaggedMessage × Flag => row.1.messageId)
    ((innerJoin ofFlag s.links.rows s.flags.rows).filter
      (counted conversationId messageIds callerId canManage)) List.length messageId
  rw [flagCountsByMessage, if_neg hsome]
  refine hvalue.trans ?_
  rw [List.filter_filter, ← List.countP_eq_length_filter, countP_innerJoin s.links.nodup.of_map]
  · apply List.countP_congr
    intro flag _
    simp only [List.any_eq_true, ofFlag, counted, selects, Bool.and_eq_true, beq_iff_eq,
      decide_eq_true_eq]
    constructor
    · intro ⟨link, hlink, hflag, hmessage, ⟨⟨hconversation, hlive⟩, _⟩, hauthor⟩
      exact ⟨⟨⟨hconversation, hlive⟩, hauthor⟩, link, hlink, hflag.symm, hmessage⟩
    · intro ⟨⟨⟨hconversation, hlive⟩, hauthor⟩, link, hlink, hflag, hmessage⟩
      have hshown : messageIds.contains link.messageId = true := by
        rw [hmessage]
        exact List.contains_iff_mem.mpr h
      exact ⟨link, hlink, hflag.symm, hmessage, ⟨⟨hconversation, hlive⟩, hshown⟩, hauthor⟩
  · intro flag link hlink link' hlink' hpair hpair'
    simp only [ofFlag, Bool.and_eq_true, beq_iff_eq, decide_eq_true_eq] at hpair hpair'
    exact eq_of_link hlink hlink' (hpair.1.symm.trans hpair'.1) (hpair.2.1.trans hpair'.2.1.symm)

/-- The total of a list counts the flags that the caller sees and the filters keep. -/
theorem total_listFlags {contains : Contains} {filters : MessageFlagFilters}
    {orderBy : Flag → Flag → Bool} {limit offset : Nat} (hlive : filters.deleted = false) :
    (listFlags s settings ctx contains filters orderBy limit offset).total =
      s.flags.rows.countP fun flag => live flag && inFlagScope s ctx flag &&
        filters.keeps s contains flag := by
  show ((((listedRows settings ctx filters.deleted s.flags).filter (inFlagScope s ctx)).filter
    (filters.keeps s contains)).mergeSort orderBy).length = _
  rw [List.length_mergeSort, hlive]
  show (((s.flags.rows.filter fun flag => live flag).filter (inFlagScope s ctx)).filter
    (filters.keeps s contains)).length = _
  rw [List.filter_filter, List.filter_filter, List.countP_eq_length_filter]
  congr 1
  apply List.filter_congr
  intro flag _
  cases live flag <;> simp [Bool.and_comm]

/-- Who reads the conversation of a flag sees the flag, but for the author of it. -/
theorem inFlagScope_eq (hinv : Inv s) {evaluationId : UUID} {conversation : Conversation}
    (hread : getConversation s ctx evaluationId conversationId = .ok conversation)
    (hflag : flag ∈ s.flags) (hconversation : flag.conversationId = conversationId) :
    inFlagScope s ctx flag = (ctx.canManage || flag.createdById == ctx.callerId) := by
  have ⟨hfind, hsees⟩ := Option.filter_eq_some_iff.mp (found_eq_ok.mp hread)
  rw [Bool.and_eq_true, Option.any_eq_true] at hsees
  have ⟨_, group, hgroup, _⟩ := hsees
  -- The evaluation on the flag is that of the conversation.
  have ⟨row, hrow, hkey, hsame⟩ := hinv flag hflag
  have hfound := findLive_eq_some.mp hfind
  have hrow : row = conversation :=
    Table.eq_of_key_eq hrow hfound.1 (hkey.trans (hconversation.trans hfound.2.1.symm))
  rw [inFlagScope, ← hsame, hrow, hgroup, hconversation, hfind]
  rfl

/-- The groups of a badge query are distinct messages of the request. -/
theorem keys_flagCountsByMessage :
    ((flagCountsByMessage s conversationId messageIds callerId canManage).map Prod.fst).Nodup ∧
      ∀ messageId ∈
        (flagCountsByMessage s conversationId messageIds callerId canManage).map Prod.fst,
        messageId ∈ messageIds := by
  unfold flagCountsByMessage
  split
  · exact ⟨List.nodup_nil, fun _ h => absurd h List.not_mem_nil⟩
  · rw [List.map_map]
    refine ⟨nodup_keys_groupBy _ _, ?_⟩
    intro messageId hmem
    have ⟨row, hrow, hkey⟩ := mem_keys_groupBy.mp hmem
    have hcounted := (List.mem_filter.mp hrow).2
    simp only [counted, Bool.and_eq_true] at hcounted
    rw [← hkey]
    exact List.contains_iff_mem.mp hcounted.1.2

/-- In every state whose flags carry the evaluations of their conversations, for every caller who
may read a live conversation, and all messages asked for: the badge of a message is the total of
the list of its flags. The badges have one entry for a message at most. -/
theorem badges_equal_lists {evaluationId : UUID} {conversation : Conversation} (hinv : Inv s)
    (hread : getConversation s ctx evaluationId conversationId = .ok conversation)
    (settings : Evaluations.Settings) (messageIds : List UUID) :
    (∀ messageId ∈ messageIds, ∀ contains orderBy limit offset,
      valueAt (flagCountsByMessage s conversationId messageIds ctx.callerId ctx.canManage)
        messageId 0 = (listFlags s settings ctx contains
          { conversationId := some conversationId, messageId := some messageId } orderBy limit
          offset).total) ∧
    ((flagCountsByMessage s conversationId messageIds ctx.callerId ctx.canManage).map
      Prod.fst).Nodup ∧
      ∀ messageId ∈
        (flagCountsByMessage s conversationId messageIds ctx.callerId ctx.canManage).map Prod.fst,
        messageId ∈ messageIds := by
  refine ⟨?_, keys_flagCountsByMessage⟩
  intro messageId hmessage contains orderBy limit offset
  rw [valueAt_flagCountsByMessage hmessage, total_listFlags rfl]
  apply List.countP_congr
  intro flag hflag
  have hkeeps : MessageFlagFilters.keeps s contains
      { conversationId := some conversationId, messageId := some messageId } flag =
        (flag.conversationId == conversationId && selects s flag.id messageId) := by
    simp [MessageFlagFilters.keeps]
  rw [hkeeps]
  by_cases hconversation : flag.conversationId = conversationId
  · rw [inFlagScope_eq hinv hread hflag hconversation]
    simp [hconversation, and_assoc]
  · simp [hconversation]

end

/-! ### A conversation with two messages -/

/-- The evaluation 31 of a public group, and the conversation 41 of user 1 with the messages 91
and 92. -/
def twoMessages : State where
  around :=
    { base :=
        { Evaluations.deployed with
          groups := ⟨[{ id := 30, createdAt := 0, createdById := 1, status := .approved,
                        accessLevel := .public }], by decide⟩
          evaluations := ⟨[{ id := 31, createdAt := 0, title := "Trial", createdById := 1,
                             evaluationGroupId := 30 }], by decide⟩ }
      conversations := ⟨[{ id := 41, createdAt := 0, userId := 1, evaluationId := 31,
                           evaluationAiModelId := 32, conversationGroupId := 40,
                           scenarioId := 33 }], by simp⟩
      turns := ⟨[{ id := 81, createdAt := 0, conversationId := 41, turnIndex := 0 }], by decide⟩
      messages := ⟨[{ id := 91, createdAt := 0, turnId := 81 },
                    { id := 92, createdAt := 0, turnId := 81 }], by decide⟩ }
  flags := .empty
  links := .empty

/-- A request of the admin. -/
def byRoot (row : UUID) : Evaluations.Context :=
  (Evaluations.Label.byRoot row (.deleteModel 0)).toContext

/-- The admin flags both messages, and then the first, and deletes the second flag. -/
def flaggedTwice : List Event :=
  [.create (byRoot 50) { conversationId := 41, messageIds := [91, 92], reason := "exploit" },
    .create (byRoot 51) { conversationId := 41, messageIds := [91], reason := "exploit" },
    .delete (byRoot 52) 51]

/-- After that, the badge of the first message is one, and so is the total of its list. -/
theorem badges_equal_lists_flaggedTwice :
    ∃ s, run (Flags.step Evaluations.thirtyDays) twoMessages flaggedTwice = some s ∧
      valueAt (flagCountsByMessage s 41 [91, 92] 1 true) 91 0 = 1 ∧
      (listFlags s Evaluations.thirtyDays (byRoot 60) (fun text part => text == part)
        { conversationId := some 41, messageId := some 91 }
        (fun a b => decide (a.id ≤ b.id)) 10 0).total = 1 := by
  have hany : (run (Flags.step Evaluations.thirtyDays) twoMessages flaggedTwice).any (fun s =>
      valueAt (flagCountsByMessage s 41 [91, 92] 1 true) 91 0 == 1 &&
        (getConversation s (byRoot 60) 31 41).isOk) = true := by decide +kernel
  have ⟨s, hrun, hcheck⟩ := exists_run_of_any hany
  rw [Bool.and_eq_true, beq_iff_eq] at hcheck
  cases hread : getConversation s (byRoot 60) 31 41 with
  | error e => simp [hread, Except.isOk, Except.toBool] at hcheck
  | ok conversation =>
    have hagree :=
      (badges_equal_lists (inv_of_run rfl hrun) hread Evaluations.thirtyDays [91, 92]).1 91
      List.mem_cons_self (fun text part => text == part) (fun a b => decide (a.id ≤ b.id)) 10 0
    exact ⟨s, hrun, hcheck.1, hagree.symm.trans hcheck.1⟩

/-- The messages, with a second evaluation of the group that is deleted, and a flag on the
conversation that names it. -/
def strayFlag : State :=
  { twoMessages with
    around :=
      { twoMessages.around with
        base :=
          { twoMessages.around.base with
            evaluations := ⟨[{ id := 31, createdAt := 0, title := "Trial", createdById := 1,
                               evaluationGroupId := 30 },
                             { id := 35, createdAt := 0, title := "Trial 2", createdById := 1,
                               evaluationGroupId := 30, deletedAt := some 1 }], by decide⟩ } }
    flags := .single { id := 50, createdAt := 0, createdById := 1, conversationId := 41,
                       evaluationId := 35, evaluationGroupId := 30, reason := "exploit" }
    links := .single ⟨50, 91⟩ }

/-- A flag that names another evaluation than its conversation has a badge, and no list shows
it. -/
theorem flag_of_another_evaluation :
    (getConversation strayFlag (byRoot 60) 31 41).isOk = true ∧
      valueAt (flagCountsByMessage strayFlag 41 [91, 92] 1 true) 91 0 = 1 ∧
      (listFlags strayFlag Evaluations.thirtyDays (byRoot 60) (fun text part => text == part)
        { conversationId := some 41, messageId := some 91 } (fun a b => decide (a.id ≤ b.id)) 10
        0).total = 0 := by
  refine ⟨by decide +kernel, by decide +kernel, ?_⟩
  rw [total_listFlags rfl]
  decide +kernel

end Flags

end RedTeaming.Annotations
