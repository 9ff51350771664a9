import RedTeaming.Analytics.Breakdowns

/-!
# `RedTeaming.Analytics.Exploits`: the exploit distributions add up

The dashboard of an evaluation shows how many submissions were exploited, and splits the number in
two ways: by the prompts that each exploit took, and by the model that it broke.
`exploits_reconcile` says what the two splits add up to.

- By prompts, it is the exploited submissions that still select a live message. A live message is
  one of a live turn, as in every other metric (`selectsLive`).
- By model, it is the exploited submissions of the live assignments (`ofLiveAssignment`).

Where the rows refer to each other as every write leaves them (`References`), these are the
submissions that select a live message, and those whose assignment is live, with nothing else to
check.

The queries join a submission to its reviews, its messages, and its assignment. A submission with
several of one kind counts once. `exploitCost` is what an exploit cost, computed from the
messages: the average of a bucket is the mean of the costs.

A further confirming review changes neither split (`Reconfirmed`). It is enough that the new rows
are on submissions that are exploited already.
-/

set_option autoImplicit false

namespace RedTeaming.Analytics

open RedTeaming.Annotations RedTeaming.Auth RedTeaming.Conversations RedTeaming.Evaluations
open RedTeaming.Library RedTeaming.Reviews

/-! ### What the splits count -/

/-- The flag selects a live message of a live turn. -/
def selectsLive (db : Database) (flag : MessageFlag) : Bool :=
  db.flaggedMessages.any fun link =>
    decide (link.messageFlagId = flag.id) &&
      (findLive db.messages link.messageId).any fun message =>
      (findLive db.turns message.turnId).isSome

/-- The conversation of the submission is under a live assignment of the evaluation. -/
def ofLiveAssignment (db : Database) (evaluationId : UUID) (s : Submission) : Bool :=
  (findLive db.assignments s.conversation.evaluationAiModelId).any fun a =>
    decide (a.evaluationId = evaluationId) && (db.models.find? a.modelId).isSome

/-- The flag selects a live message. -/
def selectsMessage (db : Database) (flag : MessageFlag) : Bool :=
  db.flaggedMessages.any fun link =>
    decide (link.messageFlagId = flag.id) && (findLive db.messages link.messageId).isSome

/-- The assignment of the submission's conversation is live. -/
def hasLiveAssignment (db : Database) (s : Submission) : Bool :=
  (findLive db.assignments s.conversation.evaluationAiModelId).isSome

/-- How the rows refer to each other. No write deletes a turn, a model is a foreign key, and a
submission is copied the evaluation that its conversation was made under an assignment of. -/
structure References (db : Database) : Prop where
  turn : ∀ m ∈ db.messages, live m = true → (findLive db.turns m.turnId).isSome = true
  model : ∀ a ∈ db.assignments, (db.models.find? a.modelId).isSome = true
  evaluation : ∀ flag ∈ db.flags, ∀ c ∈ db.conversations, c.id = flag.conversationId →
    ∀ a ∈ db.assignments, a.id = c.evaluationAiModelId → a.evaluationId = flag.evaluationId

/-- The live messages of the turns of a conversation, up to a turn. -/
def messagesUpTo (db : Database) (conversationId : UUID) (index : Nat) : List LiveMessage :=
  db.liveMessages.filter fun m =>
    decide (m.turn.conversationId = conversationId) && decide (m.turn.turnIndex ≤ index)

/-- The total of a message. -/
def messageTotal (m : LiveMessage) : Nat := (messageTotalTokens m.message.extra).toOption.getD 0

/-- What an exploit cost: the totals of the messages up to its turn, unless none of them has
usage. -/
def exploitCost (db : Database) (row : Submission × Nat) : Option Nat :=
  let spent := messagesUpTo db row.1.conversation.id row.2
  if spent.any fun m => hasUsage m.message.extra then some (spent.map messageTotal).sum else none

/-- The exploits that took so many prompts. -/
def exploitsAt (db : Database) (evaluationId : UUID) (viewer : Option UserId)
    (promptCount : Nat) : List (Submission × Nat) :=
  (firstExploits db evaluationId viewer).filter fun row => row.2 + 1 = promptCount

/-- A bucket counts the exploits that took its prompts, and averages their costs. -/
structure BucketOf (exploits : List (Submission × Nat)) (cost : Submission × Nat → Option Nat)
    (bucket : ExploitPromptCountBucket) : Prop where
  count : bucket.exploitCount = exploits.length
  withTokens : bucket.exploitsWithTokens = (exploits.filterMap cost).length
  atMost : bucket.exploitsWithTokens ≤ bucket.exploitCount
  average : bucket.avgTokensToExploit =
    if (exploits.filterMap cost).isEmpty then none
    else some (((exploits.filterMap cost).sum : Rat) / (exploits.filterMap cost).length)

/-- The reviews after some that confirm exploits again: the confirmations stay, and what is new is
on submissions that are exploited already. -/
structure Reconfirmed (db : Database) (reviews : Table Review) : Prop where
  keeps : ∀ r ∈ db.reviews, live r = true → r.successfulExploit = some true → r ∈ reviews
  adds : ∀ r ∈ reviews, r ∈ db.reviews ∨
    ∃ flag, r.messageFlagId = flag.id ∧ hasSuccessfulExploitReview db flag none = true

/-- The database with other reviews. -/
def Database.withReviews (db : Database) (reviews : Table Review) : Database :=
  { db with reviews }

/-- The submission total of an evaluation. -/
def submissionTotal (db : Database) (evaluationId : UUID) (viewer : Option UserId) : Nat :=
  (submissionMetrics
    (valueAt (submissionBreakdown db [evaluationId] viewer).evalStatus evaluationId [])).total

section
variable {db : Database} {evaluationId : UUID} {viewer : Option UserId}

/-! ### By prompts -/

/-- A flag selects a live message when it has a selected turn. -/
theorem selectsLive_iff (flag : MessageFlag) :
    selectsLive db flag = true ↔ selectedTurns db flag ≠ [] := by
  rw [ne_eq, List.eq_nil_iff_forall_not_mem, not_forall]
  simp only [not_not, selectsLive, selectedTurns, List.any_eq_true, Bool.and_eq_true,
    decide_eq_true_eq, List.mem_filterMap, List.mem_filter, Option.any_eq_true,
    Option.isSome_iff_exists, Option.bind_eq_bind, Option.bind_eq_some_iff]
  constructor
  · rintro ⟨link, hlink, hflag, message, hmessage, turn, hturn⟩
    exact ⟨turn, link, ⟨hlink, hflag⟩, message, hmessage, hturn⟩
  · rintro ⟨turn, link, ⟨hlink, hflag⟩, message, hmessage, hturn⟩
    exact ⟨link, hlink, hflag, message, hmessage, turn, hturn⟩

/-- Each exploited submission that selects a live message has one first exploit. -/
theorem length_firstExploits :
    (firstExploits db evaluationId viewer).length =
      (exploitedSubmissions db evaluationId viewer).countP fun s => selectsLive db s.flag := by
  unfold firstExploits
  induction exploitedSubmissions db evaluationId viewer with
  | nil => rfl
  | cons s rest ih =>
    by_cases hs : selectsLive db s.flag = true
    · have hne := (selectsLive_iff s.flag).mp hs
      cases hmin : ((selectedTurns db s.flag).map fun turn => turn.turnIndex).min? with
      | none => exact absurd (List.map_eq_nil_iff.mp (List.min?_eq_none_iff.mp hmin)) hne
      | some index =>
        rw [List.countP_cons, if_pos hs, List.filterMap_cons_some (by rw [hmin]; rfl),
          List.length_cons, ih]
    · have hnil : selectedTurns db s.flag = [] := by
        by_contra hne
        exact hs ((selectsLive_iff s.flag).mpr hne)
      rw [List.countP_cons, if_neg hs, List.filterMap_cons_none (by rw [hnil]; rfl), ih]
      rfl

/-- The grouped exploits of the buckets. -/
theorem exploitsByPromptCount_eq_ok {buckets : List ExploitPromptCountBucket}
    (h : exploitsByPromptCount db evaluationId viewer = .ok buckets) :
    ∃ spend, turnSpend db ((firstExploits db evaluationId viewer).map fun row =>
        row.1.conversation.id) = .ok spend ∧
      buckets = (orderBy (fun a b => decide (a.1 ≤ b.1))
        (groupBy (fun row => row.2 + 1) (firstExploits db evaluationId viewer))).map fun group =>
          { promptCount := group.1
            exploitCount := group.2.length
            avgTokensToExploit :=
              if (group.2.filterMap (tokensToExploit spend)).isEmpty then none
              else some (((group.2.filterMap (tokensToExploit spend)).sum : Rat) /
                (group.2.filterMap (tokensToExploit spend)).length)
            exploitsWithTokens := (group.2.filterMap (tokensToExploit spend)).length } := by
  obtain ⟨spend, hspend, h⟩ := bind_eq_ok.mp h
  cases h
  exact ⟨spend, hspend, rfl⟩

/-- The buckets together hold each first exploit once. -/
theorem sum_exploitsByPromptCount {buckets : List ExploitPromptCountBucket}
    (h : exploitsByPromptCount db evaluationId viewer = .ok buckets) :
    (buckets.map fun bucket => bucket.exploitCount).sum =
      (exploitedSubmissions db evaluationId viewer).countP fun s => selectsLive db s.flag := by
  obtain ⟨spend, -, rfl⟩ := exploitsByPromptCount_eq_ok h
  have hall := length_groupBy (fun row : Submission × Nat => row.2 + 1) (fun _ => true)
    (firstExploits db evaluationId viewer)
  rw [List.filter_true, List.filter_true] at hall
  rw [← length_firstExploits, ← hall, List.map_map]
  exact ((orderBy_perm _ _).map _).sum_eq

/-! ### What an exploit cost -/

/-- The measured messages are the messages with their totals. -/
theorem measured_eq {rows : List LiveMessage} {measured : List Measured}
    (h : rows.mapM measure = .ok measured) :
    measured = rows.map fun m => ⟨m, messageTotal m⟩ := by
  induction rows generalizing measured with
  | nil =>
    cases h
    rfl
  | cons row rows ih =>
    rw [List.mapM_cons, bind_eq_ok] at h
    obtain ⟨m, hm, h⟩ := h
    obtain ⟨rest, hrest, h⟩ := bind_eq_ok.mp h
    cases h
    obtain ⟨hsource, htotal⟩ := measure_eq_ok.mp hm
    have hfirst : m = ⟨row, messageTotal row⟩ := by
      cases m
      cases hsource
      rw [messageTotal, htotal]
      rfl
    rw [List.map_cons, ← ih hrest, hfirst]

/-- A message without usage has the total 0. -/
theorem messageTotal_of_no_usage {m : LiveMessage} (h : hasUsage m.message.extra = false) :
    messageTotal m = 0 := by
  simp only [hasUsage, Bool.or_eq_false_iff, Option.isSome_eq_false_iff,
    Option.isNone_iff_eq_none] at h
  simp [messageTotal, messageTotalTokens, h, bigintAdd, Except.toOption]

/-- The total of a group is that of all its messages, when those without usage have none. -/
theorem totalTokens_eq {rows : List Measured}
    (h : ∀ row ∈ rows, hasUsage row.source.message.extra = false → row.total = 0) :
    (tokenAggregates rows).totalTokens = (rows.map fun row => row.total).sum := by
  show
    ((rows.filter fun row => hasUsage row.source.message.extra).map fun row => row.total).sum = _
  induction rows with
  | nil => rfl
  | cons row rows ih =>
    have hrest := ih fun r hr => h r (List.mem_cons_of_mem _ hr)
    cases hrow : hasUsage row.source.message.extra with
    | true =>
      rw [List.filter_cons, if_pos hrow, List.map_cons, List.sum_cons, hrest, List.map_cons,
        List.sum_cons]
    | false =>
      have hzero := h row List.mem_cons_self hrow
      rw [List.filter_cons, if_neg (by simp [hrow]), hrest, List.map_cons, List.sum_cons, hzero,
        Nat.zero_add]

/-- A group counts messages with usage when it has one. -/
theorem messagesWithUsage_ne_zero {rows : List Measured} :
    (tokenAggregates rows).messagesWithUsage ≠ 0 ↔
      ∃ row ∈ rows, hasUsage row.source.message.extra = true := by
  show (rows.filter fun row => hasUsage row.source.message.extra).length ≠ 0 ↔ _
  simp [List.length_eq_zero_iff]

/-- The spend of the turns up to one is that of the messages of these turns. -/
theorem tokensToExploit_eq {ids : List UUID} {spend : List ((UUID × Nat) × TokenAggregates)}
    (hspend : turnSpend db ids = .ok spend) {row : Submission × Nat}
    (hrow : row.1.conversation.id ∈ ids) : tokensToExploit spend row = exploitCost db row := by
  obtain ⟨measured, hmeasured, rfl⟩ := liveMessageTokens_eq_ok.mp hspend
  let key : Measured → UUID × Nat := fun m =>
      (m.source.turn.conversationId, m.source.turn.turnIndex)
  let upTo : UUID × Nat → Bool := fun k => decide (k.1 = row.1.conversation.id ∧ k.2 ≤ row.2)
  let spent := messagesUpTo db row.1.conversation.id row.2
  let kept : List Measured := spent.map fun m => ⟨m, messageTotal m⟩
  have hkept : measured.filter (fun m => upTo (key m)) = kept := by
    rw [measured_eq hmeasured, List.filter_map]
    show ((db.liveMessages.filter _).filter _).map _ = (db.liveMessages.filter _).map _
    rw [List.filter_filter]
    congr 1
    apply List.filter_congr
    intro m _
    by_cases hm : m.turn.conversationId = row.1.conversation.id
    · simp [upTo, key, hm, hrow]
    · simp [upTo, key, hm]
  have hgroups :
      (((groupBy key measured).map fun g => (g.1, tokenAggregates g.2)).filter fun item =>
        upTo item.1).map (fun item => item.2) =
          (groupBy key kept).map fun g => tokenAggregates g.2 := by
    rw [List.filter_map, List.map_map, ← hkept, groupBy_filter]
    rfl
  have hzero : ∀ m ∈ kept, hasUsage m.source.message.extra = false → m.total = 0 := by
    intro m hm husage
    obtain ⟨source, -, rfl⟩ := List.mem_map.mp hm
    exact messageTotal_of_no_usage husage
  have hrows : ∀ g ∈ groupBy key kept, g.2 = kept.filter fun m => key m = g.1 :=
    fun _ hg => mem_groupBy hg
  have hgroup : ∀ g ∈ groupBy key kept, ∀ m ∈ g.2, m ∈ kept := by
    intro g hg m hm
    rw [hrows g hg] at hm
    exact (List.mem_filter.mp hm).1
  have hany : ((groupBy key kept).map fun g => tokenAggregates g.2).any
      (fun a => decide (a.messagesWithUsage ≠ 0)) = spent.any fun m =>
        hasUsage m.message.extra := by
    rw [Bool.eq_iff_iff, List.any_eq_true, List.any_eq_true]
    constructor
    · intro ⟨a, ha, hne⟩
      obtain ⟨g, hg, rfl⟩ := List.mem_map.mp ha
      obtain ⟨m, hm, husage⟩ := messagesWithUsage_ne_zero.mp (of_decide_eq_true hne)
      obtain ⟨source, hsource, rfl⟩ := List.mem_map.mp (hgroup g hg m hm)
      exact ⟨source, hsource, husage⟩
    · intro ⟨m, hm, husage⟩
      have hmem : (⟨m, messageTotal m⟩ : Measured) ∈ kept := List.mem_map_of_mem hm
      have hkeys : key ⟨m, messageTotal m⟩ ∈ (groupBy key kept).map Prod.fst :=
        mem_keys_groupBy.mpr ⟨_, hmem, rfl⟩
      obtain ⟨g, hg, hkey⟩ := List.mem_map.mp hkeys
      refine ⟨tokenAggregates g.2, List.mem_map_of_mem hg, decide_eq_true ?_⟩
      refine messagesWithUsage_ne_zero.mpr ⟨⟨m, messageTotal m⟩, ?_, husage⟩
      rw [hrows g hg]
      exact List.mem_filter.mpr ⟨hmem, decide_eq_true hkey.symm⟩
  have hsum :
      (((groupBy key kept).map fun g => tokenAggregates g.2).map fun a => a.totalTokens).sum =
      (spent.map messageTotal).sum := by
    calc (((groupBy key kept).map fun g => tokenAggregates g.2).map fun a => a.totalTokens).sum
        = ((groupBy key kept).map fun g => (g.2.map fun m => m.total).sum).sum := by
          rw [List.map_map]
          congr 1
          apply List.map_congr_left
          intro g hg
          exact totalTokens_eq fun m hm => hzero m (hgroup g hg m hm)
      _ = (kept.map fun m => m.total).sum := sum_groupBy key _ kept
      _ = (spent.map messageTotal).sum := by
          rw [List.map_map]
          rfl
  unfold tokensToExploit exploitCost
  show (if (_ : List TokenAggregates).any _ then some _ else none) = _
  rw [hgroups, hany, hsum]

/-- Each bucket is one of the exploits that took its prompts. -/
theorem bucketOf_exploitsByPromptCount {buckets : List ExploitPromptCountBucket}
    (h : exploitsByPromptCount db evaluationId viewer = .ok buckets)
    {bucket : ExploitPromptCountBucket} (hbucket : bucket ∈ buckets) :
    BucketOf (exploitsAt db evaluationId viewer bucket.promptCount) (exploitCost db) bucket := by
  obtain ⟨spend, hspend, rfl⟩ := exploitsByPromptCount_eq_ok h
  obtain ⟨group, hgroup, rfl⟩ := List.mem_map.mp hbucket
  have hrows : group.2 = exploitsAt db evaluationId viewer group.1 :=
    mem_groupBy (mem_orderBy.mp hgroup)
  have hcosts : group.2.filterMap (tokensToExploit spend) =
      group.2.filterMap (exploitCost db) := by
    apply List.filterMap_congr
    intro row hrow
    rw [hrows] at hrow
    exact tokensToExploit_eq hspend (List.mem_map_of_mem (List.mem_filter.mp hrow).1)
  exact
    { count := congrArg List.length hrows
      withTokens := by rw [← hrows, ← hcosts]
      atMost := List.length_filterMap_le _ _
      average := by rw [← hrows, ← hcosts] }

/-! ### By model -/

/-- The assignments of the roster are distinct. -/
theorem nodup_liveAssignments :
    ((liveAssignments db evaluationId).map fun a => a.assignmentId).Nodup := by
  have hrows : ((liveSelect db.assignments).map fun a => a.id).Nodup :=
    db.assignments.nodup.sublist (List.filter_sublist.map _)
  refine nodup_map_filterMap ?_ hrows
  intro a b hb
  split at hb
  · obtain ⟨model, -, rfl⟩ := Option.map_eq_some_iff.mp hb
    rfl
  · cases hb

/-- The roster has the live assignments of the evaluation. -/
theorem ofLiveAssignment_iff (s : Submission) :
    ofLiveAssignment db evaluationId s = true ↔
      s.conversation.evaluationAiModelId ∈
        (liveAssignments db evaluationId).map fun a => a.assignmentId := by
  simp only [ofLiveAssignment, Option.any_eq_true, Bool.and_eq_true,
    decide_eq_true_eq, List.mem_map, liveAssignments, List.mem_filterMap, mem_liveSelect,
    findLive_eq_some, Option.isSome_iff_exists]
  constructor
  · intro ⟨a, ⟨ha, hid, hlive⟩, heval, model, hmodel⟩
    refine ⟨⟨a.id, model.modelAlias, a.modelDisplayMask⟩, ⟨a, ⟨ha, hlive⟩, ?_⟩, hid⟩
    rw [if_pos heval, hmodel]
    rfl
  · intro ⟨row, ⟨a, ⟨ha, hlive⟩, hrow⟩, hid⟩
    split at hrow
    · rename_i heval
      obtain ⟨model, hmodel, rfl⟩ := Option.map_eq_some_iff.mp hrow
      exact ⟨a, ⟨ha, hid, hlive⟩, heval, model, hmodel⟩
    · cases hrow

/-- The exploited submissions have distinct flags. -/
theorem nodup_exploitedSubmissions :
    ((exploitedSubmissions db evaluationId viewer).map fun s => s.flag.id).Nodup :=
  nodup_scopedSubmissions.sublist (List.filter_sublist.map _)

/-- The count of exploited submissions is their number. -/
theorem exploitedSubmissionCount_eq_length :
    exploitedSubmissionCount db evaluationId viewer =
      (exploitedSubmissions db evaluationId viewer).length := by
  rw [exploitedSubmissionCount, nodup_exploitedSubmissions.dedup, List.length_map]

/-- The entry of an assignment counts its exploited submissions. -/
theorem valueAt_exploits (assignmentId : UUID) :
    valueAt ((groupBy (fun s => s.conversation.evaluationAiModelId)
        (exploitedSubmissions db evaluationId viewer)).map fun g =>
          (g.1, (g.2.map fun s => s.flag.id).dedup.length)) assignmentId 0 =
      ((exploitedSubmissions db evaluationId viewer).filter fun s =>
        s.conversation.evaluationAiModelId = assignmentId).length := by
  have hnodup : ((exploitedSubmissions db evaluationId viewer).map fun s => s.flag.id).Nodup :=
    nodup_exploitedSubmissions
  have hentry := valueAt_aggregate (fun s : Submission => s.conversation.evaluationAiModelId)
    (exploitedSubmissions db evaluationId viewer)
    (fun rows => (rows.map fun s => s.flag.id).dedup.length) assignmentId
  refine hentry.trans ?_
  rw [(hnodup.sublist (List.filter_sublist.map _)).dedup, List.length_map]

/-- The counts by model add up to the exploited submissions of the live assignments. -/
theorem sum_exploitsByModel (mask : Bool) :
    ((exploitsByModel db evaluationId (liveAssignments db evaluationId) viewer mask).map
      fun row => row.exploitCount).sum =
      (exploitedSubmissions db evaluationId viewer).countP
      (ofLiveAssignment db evaluationId) := by
  let exploited := exploitedSubmissions db evaluationId viewer
  let ids := (liveAssignments db evaluationId).map fun a => a.assignmentId
  let known := exploited.filter fun s => decide (s.conversation.evaluationAiModelId ∈ ids)
  have hentry : ∀ id ∈ ids, (exploited.filter fun s => s.conversation.evaluationAiModelId = id) =
      known.filter fun s => s.conversation.evaluationAiModelId = id := by
    intro id hid
    rw [List.filter_filter]
    apply List.filter_congr
    intro s _
    by_cases hs : s.conversation.evaluationAiModelId = id <;> simp [hs, hid]
  have hcover : ∀ s ∈ known, s.conversation.evaluationAiModelId ∈ ids :=
    fun s hs => of_decide_eq_true (List.mem_filter.mp hs).2
  calc ((exploitsByModel db evaluationId (liveAssignments db evaluationId) viewer mask).map
    fun row => row.exploitCount).sum
      = (ids.map fun id => (exploited.filter fun s =>
          s.conversation.evaluationAiModelId = id).length).sum := by
        unfold exploitsByModel
        rw [((orderBy_perm _ _).map _).sum_eq, List.map_map, List.map_map]
        congr 1
        apply List.map_congr_left
        intro a _
        exact valueAt_exploits a.assignmentId
    _ = (ids.map fun id => (known.filter fun s =>
          s.conversation.evaluationAiModelId = id).length).sum := by
        congr 1
        apply List.map_congr_left
        intro id hid
        rw [hentry id hid]
    _ = known.length := length_fibers _ nodup_liveAssignments hcover
    _ = exploited.countP (ofLiveAssignment db evaluationId) := by
        rw [← List.countP_eq_length_filter]
        apply List.countP_congr
        intro s _
        rw [decide_eq_true_eq, ofLiveAssignment_iff]

/-! ### Where the rows refer to each other -/

/-- A live message has a live turn. -/
theorem selectsLive_of_references (h : References db) (flag : MessageFlag) :
    selectsLive db flag = selectsMessage db flag := by
  unfold selectsLive selectsMessage
  congr 1
  funext link
  cases hmessage : findLive db.messages link.messageId with
  | none => rfl
  | some message =>
    have hrow := findLive_eq_some.mp hmessage
    simp [h.turn message hrow.1 hrow.2.2]

/-- A live assignment of a submission in scope is of the evaluation, and has a model. -/
theorem ofLiveAssignment_of_references (h : References db) {s : Submission}
    (hs : s ∈ exploitedSubmissions db evaluationId viewer) :
    ofLiveAssignment db evaluationId s = hasLiveAssignment db s := by
  have hscoped := (List.mem_filter.mp hs).1
  have hflag := flag_mem_of_mem_scopedSubmissions hscoped
  have heval := List.mem_singleton.mp (evaluationId_mem_of_mem_scopedSubmissions hscoped)
  obtain ⟨hconversation, hanchor⟩ := conversation_of_mem_scopedSubmissions hscoped
  unfold ofLiveAssignment hasLiveAssignment
  cases hassignment : findLive db.assignments s.conversation.evaluationAiModelId with
  | none => rfl
  | some a =>
    have hrow := findLive_eq_some.mp hassignment
    have hsame := h.evaluation s.flag hflag s.conversation hconversation hanchor a hrow.1 hrow.2.1
    simp [hsame, heval, h.model a hrow.1]

/-! ### The totals -/

/-- An exploited submission is a submission. -/
theorem exploitedSubmissionCount_le :
    exploitedSubmissionCount db evaluationId viewer ≤ submissionTotal db evaluationId viewer := by
  have htotal : submissionTotal db evaluationId viewer =
      ((db.scopedSubmissions [evaluationId] viewer).filter fun s =>
        s.flag.evaluationId = evaluationId).length :=
    congrArg SubmissionMetrics.total (submissionMetrics_evalStatus evaluationId)
  have hall : ((db.scopedSubmissions [evaluationId] viewer).filter fun s =>
      s.flag.evaluationId = evaluationId) = db.scopedSubmissions [evaluationId] viewer := by
    rw [List.filter_eq_self]
    intro s hs
    exact decide_eq_true (List.mem_singleton.mp (evaluationId_mem_of_mem_scopedSubmissions hs))
  rw [htotal, hall, exploitedSubmissionCount_eq]
  exact List.countP_le_length

/-! ### Further confirmations -/

/-- A further confirmation exploits no further submission. -/
theorem hasSuccessfulExploitReview_withReviews {reviews : Table Review}
    (h : Reconfirmed db reviews) (flag : MessageFlag) :
    hasSuccessfulExploitReview (db.withReviews reviews) flag none =
      hasSuccessfulExploitReview db flag none := by
  have hiff : ∀ (db : Database) (flag : MessageFlag),
      hasSuccessfulExploitReview db flag none = true ↔
        ∃ r ∈ db.reviews, live r = true ∧ r.messageFlagId = flag.id ∧
          r.successfulExploit = some true := by
    intro db flag
    simp [hasSuccessfulExploitReview, and_assoc]
  rw [Bool.eq_iff_iff, hiff, hiff]
  constructor
  · intro ⟨r, hr, hlive, hflag, hexploit⟩
    rcases h.adds r hr with hold | ⟨exploited, hsame, hexploited⟩
    · exact ⟨r, hold, hlive, hflag, hexploit⟩
    · obtain ⟨r', hr', hlive', hflag', hexploit'⟩ := (hiff db exploited).mp hexploited
      exact ⟨r', hr', hlive', hflag'.trans (hsame.symm.trans hflag), hexploit'⟩
  · intro ⟨r, hr, hlive, hflag, hexploit⟩
    exact ⟨r, h.keeps r hr hlive hexploit, hlive, hflag, hexploit⟩

/-- The exploited submissions stay the same. -/
theorem exploitedSubmissions_withReviews {reviews : Table Review} (h : Reconfirmed db reviews) :
    exploitedSubmissions (db.withReviews reviews) evaluationId viewer =
      exploitedSubmissions db evaluationId viewer := by
  unfold exploitedSubmissions
  show (db.scopedSubmissions [evaluationId] viewer).filter _ = _
  apply List.filter_congr
  intro s _
  exact hasSuccessfulExploitReview_withReviews h s.flag

/-- The split by prompts stays the same. -/
theorem exploitsByPromptCount_withReviews {reviews : Table Review} (h : Reconfirmed db reviews) :
    exploitsByPromptCount (db.withReviews reviews) evaluationId viewer =
      exploitsByPromptCount db evaluationId viewer := by
  have hfirst : firstExploits (db.withReviews reviews) evaluationId viewer =
      firstExploits db evaluationId viewer := by
    unfold firstExploits
    rw [exploitedSubmissions_withReviews h]
    rfl
  unfold exploitsByPromptCount
  rw [hfirst]
  rfl

/-- The split by model stays the same. -/
theorem exploitsByModel_withReviews {reviews : Table Review} (h : Reconfirmed db reviews)
    (mask : Bool) :
    exploitsByModel (db.withReviews reviews) evaluationId
        (liveAssignments (db.withReviews reviews) evaluationId) viewer mask =
      exploitsByModel db evaluationId (liveAssignments db evaluationId) viewer mask := by
  unfold exploitsByModel
  rw [exploitedSubmissions_withReviews h]
  rfl

/-! ### The result -/

/-- The numbers of two databases that the splits are about. -/
structure SameExploits (db db' : Database) (evaluationId : UUID) (viewer : Option UserId)
    (mask : Bool) : Prop where
  byPrompt : exploitsByPromptCount db' evaluationId viewer =
    exploitsByPromptCount db evaluationId viewer
  byModel : exploitsByModel db' evaluationId (liveAssignments db' evaluationId) viewer mask =
    exploitsByModel db evaluationId (liveAssignments db evaluationId) viewer mask
  exploited : exploitedSubmissionCount db' evaluationId viewer =
    exploitedSubmissionCount db evaluationId viewer
  total : submissionTotal db' evaluationId viewer = submissionTotal db evaluationId viewer

/-- What the exploit distributions of an evaluation owe each other. -/
structure ExploitsReconcile (db : Database) (evaluationId : UUID) (viewer : Option UserId)
    (mask : Bool) : Prop where
  promptSum : ∀ buckets, exploitsByPromptCount db evaluationId viewer = .ok buckets →
    (buckets.map fun bucket => bucket.exploitCount).sum =
      (exploitedSubmissions db evaluationId viewer).countP fun s => selectsLive db s.flag
  modelSum :
    ((exploitsByModel db evaluationId (liveAssignments db evaluationId) viewer mask).map
      fun row => row.exploitCount).sum =
      (exploitedSubmissions db evaluationId viewer).countP (ofLiveAssignment db evaluationId)
  promptSum_of_references : References db →
    ∀ buckets, exploitsByPromptCount db evaluationId viewer = .ok buckets →
      (buckets.map fun bucket => bucket.exploitCount).sum =
        (exploitedSubmissions db evaluationId viewer).countP fun s => selectsMessage db s.flag
  modelSum_of_references : References db →
    ((exploitsByModel db evaluationId (liveAssignments db evaluationId) viewer mask).map
      fun row => row.exploitCount).sum =
      (exploitedSubmissions db evaluationId viewer).countP (hasLiveAssignment db)
  promptAtMost : ∀ buckets, exploitsByPromptCount db evaluationId viewer = .ok buckets →
    (buckets.map fun bucket => bucket.exploitCount).sum ≤
      exploitedSubmissionCount db evaluationId viewer
  modelAtMost :
    ((exploitsByModel db evaluationId (liveAssignments db evaluationId) viewer mask).map
      fun row => row.exploitCount).sum ≤ exploitedSubmissionCount db evaluationId viewer
  total : exploitedSubmissionCount db evaluationId viewer ≤ submissionTotal db evaluationId viewer
  reconfirmed : ∀ reviews, Reconfirmed db reviews →
    SameExploits db (db.withReviews reviews) evaluationId viewer mask
  buckets : ∀ buckets, exploitsByPromptCount db evaluationId viewer = .ok buckets →
    ∀ bucket ∈ buckets,
      BucketOf (exploitsAt db evaluationId viewer bucket.promptCount) (exploitCost db) bucket

end

/-- An evaluation with one exploit: a submission of one message, of a conversation with the only
model, that a review confirmed. -/
def oneExploit : Database where
  auth := ⟨fun _ => none, fun _ => none, [], [], Directory.mem_of_no_user,
    Directory.mem_of_no_role⟩
  roleAssignments := []
  models := ⟨[{
    id := 20
    createdAt := 0
    name := "Sonnet"
    modelAlias := "sonnet"
    provider := .anthropic
    providerModelId := "claude-sonnet-4-5" }], List.nodup_singleton _⟩
  evaluations := ⟨[{
    id := 2
    createdAt := 0
    title := "round"
    createdById := 1
    evaluationGroupId := 10 }], List.nodup_singleton _⟩
  assignments := ⟨[{ id := 60, createdAt := 0, modelId := 20, evaluationId := 2 }],
    List.nodup_singleton _⟩
  scenarios := Table.empty
  tasks := Table.empty
  conversations := ⟨[{
    id := 31
    createdAt := 0
    userId := 5
    evaluationId := 2
    evaluationAiModelId := 60
    conversationGroupId := 70
    scenarioId := 22 }], List.nodup_singleton _⟩
  turns := ⟨[{ id := 81, createdAt := 0, conversationId := 31, turnIndex := 0 }],
    List.nodup_singleton _⟩
  messages := ⟨[{ id := 91, createdAt := 0, turnId := 81 }], List.nodup_singleton _⟩
  flags := ⟨[{
    id := 41
    createdAt := 0
    createdById := 5
    conversationId := 31
    evaluationId := 2
    scenarioId := some 22 }], List.nodup_singleton _⟩
  flaggedMessages := [⟨41, 91⟩]
  reviews := ⟨[{
    id := 51
    createdAt := 0
    messageFlagId := 41
    evaluationId := 2
    status := .approved
    successfulExploit := some true }], List.nodup_singleton _⟩

/-- Its rows refer to each other as the writes leave them. -/
theorem references_oneExploit : References oneExploit :=
  ⟨by decide, by decide, by decide⟩

-- Both splits count the exploit.
example :
    (exploitsByPromptCount oneExploit 2 none).map (·.map (·.exploitCount)) = .ok [1] ∧
      (exploitsByModel oneExploit 2 (liveAssignments oneExploit 2) none false).map
        (·.exploitCount) = [1] := by
  decide +kernel

end RedTeaming.Analytics
