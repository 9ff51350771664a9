import RedTeaming.Analytics.Timeline
import RedTeaming.Analytics.Tokens

/-!
# `RedTeaming.Analytics.Metrics`: the dashboards of a group and of one evaluation

`evaluation_group_metrics` and `evaluation_metrics` of `core/analytics/services/metrics.py`, with
the breakdowns that they share. A breakdown is a grouped query folded into dictionaries, one entry
for each evaluation, scenario, or task. The group's dashboard runs each query over all its live
evaluations, and the dashboard of one evaluation runs it over that one.

A `viewer` narrows the contributions to those of one user. Where the source returns early for no
evaluations, the queries here are over no rows. The order of rows that no `ORDER BY` fixes is the
order of the table.
-/

set_option autoImplicit false

namespace RedTeaming.Analytics

open RedTeaming.Annotations RedTeaming.Auth RedTeaming.Conversations RedTeaming.Evaluations
open RedTeaming.Library RedTeaming.Reviews

/-! ### Responses -/

/-- `MetricsScope`. -/
inductive MetricsScope
  | full | personal
deriving DecidableEq, Repr

/-- `MemberMetrics`. -/
structure MemberMetrics where
  total : Nat
  byRole : List (String × Nat)
deriving DecidableEq

/-- `SubmissionMetrics`. -/
structure SubmissionMetrics where
  total : Nat
  pending : Nat
  approved : Nat
  rejected : Nat
deriving DecidableEq

/-- `ReviewMetrics`. -/
structure ReviewMetrics where
  total : Nat
  completed : Nat
  pending : Nat
  successfulExploit : Nat
  uniqueExploit : Nat
  validSubmission : Nat
deriving DecidableEq

/-- `ActivityMetrics`. -/
structure ActivityMetrics where
  conversations : Nat
  messages : Nat
deriving DecidableEq

/-- `TaskMetrics`. -/
structure TaskMetrics where
  taskId : UUID
  name : String
  submissionsTotal : Nat
deriving DecidableEq

/-- `ScenarioMetrics`. -/
structure ScenarioMetrics where
  scenarioId : UUID
  name : String
  submissionsTotal : Nat
  tasks : List TaskMetrics
  tokens : TokenMetrics
deriving DecidableEq

/-- `EvaluationMetrics`: the row of an evaluation in the dashboard of its group. -/
structure EvaluationMetrics where
  evaluationId : UUID
  title : String
  modelsAssigned : Nat
  submissions : SubmissionMetrics
  reviews : ReviewMetrics
  activity : ActivityMetrics
  tokens : TokenMetrics
  scenarios : List ScenarioMetrics
  submissionsByActiveDay : List DailySubmissionPoint
deriving DecidableEq

/-- `ExploitPromptCountBucket`. -/
structure ExploitPromptCountBucket where
  promptCount : Nat
  exploitCount : Nat
  avgTokensToExploit : Option Rat
  exploitsWithTokens : Nat
deriving DecidableEq

/-- `ExploitsByModelMetrics`. -/
structure ExploitsByModelMetrics where
  evaluationAiModelId : UUID
  modelAlias : Option String
  exploitCount : Nat
deriving DecidableEq

/-- `TokensByModelMetrics`. -/
structure TokensByModelMetrics where
  evaluationAiModelId : UUID
  modelAlias : Option String
  tokens : TokenMetrics
deriving DecidableEq

/-- `GroupTokensByModelMetrics`. -/
structure GroupTokensByModelMetrics where
  aiModelId : UUID
  modelAlias : String
  tokens : TokenMetrics
deriving DecidableEq

/-- `EvaluationGroupMetricsResponse`. -/
structure EvaluationGroupMetricsResponse where
  scope : MetricsScope
  groupId : UUID
  members : MemberMetrics
  submissions : SubmissionMetrics
  reviews : ReviewMetrics
  activity : ActivityMetrics
  tokens : TokenMetrics
  tokensByModel : List GroupTokensByModelMetrics
  tokensByModelWithheld : Bool
  evaluations : List EvaluationMetrics
  submissionsByDay : List DailySubmissionPoint
deriving DecidableEq

/-- `EvaluationMetricsResponse`. -/
structure EvaluationMetricsResponse where
  scope : MetricsScope
  evaluationId : UUID
  title : String
  modelsAssigned : Nat
  submissions : SubmissionMetrics
  reviews : ReviewMetrics
  activity : ActivityMetrics
  tokens : TokenMetrics
  exploitedSubmissions : Nat
  scenarios : List ScenarioMetrics
  submissionsByDay : List DailySubmissionPoint
  exploitsByPromptCount : List ExploitPromptCountBucket
  exploitsByModel : List ExploitsByModelMetrics
  tokensByModel : List TokensByModelMetrics
deriving DecidableEq

/-- `_ZERO_REVIEWS`. -/
def zeroReviews : ReviewMetrics := ⟨0, 0, 0, 0, 0, 0⟩

/-- The scope of a read. -/
def metricsScope (viewer : Option UserId) : MetricsScope :=
  if viewer.isSome then .personal else .full

/-! ### Members -/

/-- `_members`: the live users with a role in the group, and how many hold each role. -/
def members (db : Database) (groupId : UUID) : MemberMetrics :=
  let rows := db.roleAssignments.filterMap fun a =>
    if a.object = groupId && a.live && (db.auth.liveUser a.user).isSome then
      (db.auth.role a.role).map fun role => (a.user, role.name)
    else none
  { total := (rows.map Prod.fst).dedup.length
    byRole := (groupBy Prod.snd rows).map fun g => (g.1, (g.2.map Prod.fst).dedup.length) }

/-! ### Submissions -/

/-- What `_submission_breakdown` groups by. -/
structure SubmissionKey where
  evaluationId : UUID
  scenarioId : Option UUID
  taskId : Option UUID
  status : FlagStatus
deriving DecidableEq

/-- The grouping key of a submission. -/
def submissionKey (s : Submission) : SubmissionKey where
  evaluationId := s.flag.evaluationId
  scenarioId := s.flag.scenarioId
  taskId := s.flag.taskId
  status := s.flag.status

/-- The dictionaries of `_submission_breakdown`. -/
structure SubmissionBreakdown where
  groupStatus : List (FlagStatus × Nat)
  evalStatus : List (UUID × List (FlagStatus × Nat))
  scenarioTotal : List (UUID × Nat)
  taskTotal : List (UUID × Nat)

/-- `_submission_breakdown`: one grouped query, folded into every level. -/
def submissionBreakdown (db : Database) (evalIds : List UUID) (viewer : Option UserId) :
    SubmissionBreakdown :=
  let rows := (groupBy submissionKey (db.scopedSubmissions evalIds viewer)).map fun g =>
    (g.1, g.2.length)
  { groupStatus := collect (fun row => some row.1.status) 0 (fun row n => n + row.2) [] rows
    evalStatus := collect (fun row => some row.1.evaluationId) []
      (fun row byStatus => upsert byStatus row.1.status 0 fun n => n + row.2) [] rows
    scenarioTotal := collect (fun row => row.1.scenarioId) 0 (fun row n => n + row.2) [] rows
    taskTotal := collect (fun row => row.1.taskId) 0 (fun row n => n + row.2) [] rows }

/-- `_submissions`. -/
def submissionMetrics (byStatus : List (FlagStatus × Nat)) : SubmissionMetrics where
  total := (byStatus.map fun item => item.2).sum
  pending := valueAt byStatus .pending 0
  approved := valueAt byStatus .approved 0
  rejected := valueAt byStatus .rejected 0

/-- `_has_successful_exploit_review`: a live review of the flag confirmed the exploit. `evalIds`
narrows the reviews to those of the evaluations. -/
def hasSuccessfulExploitReview (db : Database) (flag : MessageFlag)
    (evalIds : Option (List UUID)) : Bool :=
  (liveSelect db.reviews).any fun review =>
    decide (review.messageFlagId = flag.id) && review.successfulExploit == some true
      && evalIds.all fun ids => decide (review.evaluationId ∈ ids)

/-- What `_submissions_by_day` groups by: the evaluation and the UTC day. -/
def dayKey (s : Submission) : UUID × Date := (s.flag.evaluationId, utcDay s.flag.createdAt)

/-- The count of one day: its submissions, and those with a confirmed exploit. -/
def dayCount (db : Database) (evalIds : List UUID) (rows : List Submission) : DayCount :=
  (rows.length, rows.countP fun s => hasSuccessfulExploitReview db s.flag (some evalIds))

/-- `_submissions_by_day`: the days of each evaluation. -/
def submissionsByDay (db : Database) (evalIds : List UUID) (viewer : Option UserId) :
    List (UUID × List (Date × DayCount)) :=
  let rows := (groupBy dayKey (db.scopedSubmissions evalIds viewer)).map fun g =>
    (g.1, dayCount db evalIds g.2)
  collect (fun row => some row.1.1) []
    (fun row perDay => upsert perDay row.1.2 (0, 0) fun _ => row.2) [] rows

/-- The days of all evaluations together. -/
def groupDays (evalDaily : List (UUID × List (Date × DayCount))) : List (Date × DayCount) :=
  collect (fun item => some item.1) (0, 0)
    (fun item running => (running.1 + item.2.1, running.2 + item.2.2)) []
    (evalDaily.flatMap fun item => item.2)

/-! ### Reviews, activity, and models -/

/-- The live reviews of live submissions, of the evaluations and of the viewer's submissions. -/
def scopedReviews (db : Database) (evalIds : List UUID) (viewer : Option UserId) : List Review :=
  (liveSelect db.reviews).filter fun review =>
    decide (review.evaluationId ∈ evalIds)
      && ((findLive db.flags review.messageFlagId).bind db.submission?).any fun s =>
        seenBy viewer s.flag.createdById

/-- The tallies of a group of reviews. -/
def reviewMetrics (rows : List Review) : ReviewMetrics :=
  let completed := rows.countP fun r => r.status == .approved || r.status == .rejected
  { total := rows.length
    completed
    pending := rows.length - completed
    successfulExploit := rows.countP fun r => r.successfulExploit == some true
    uniqueExploit := rows.countP fun r => r.uniqueExploit == some true
    validSubmission := rows.countP fun r => r.validSubmission == some true }

/-- `_review_breakdown`. -/
def reviewBreakdown (db : Database) (evalIds : List UUID) (viewer : Option UserId) :
    List (UUID × ReviewMetrics) :=
  (groupBy (fun review => review.evaluationId) (scopedReviews db evalIds viewer)).map fun g =>
    (g.1, reviewMetrics g.2)

/-- The live conversations of the evaluations that the viewer sees. -/
def scopedConversations (db : Database) (evalIds : List UUID) (viewer : Option UserId) :
    List Conversation :=
  (liveSelect db.conversations).filter fun c =>
    decide (c.evaluationId ∈ evalIds) && seenBy viewer c.userId

/-- `_activity_breakdown`: the conversations and the messages of each evaluation. -/
def activityBreakdown (db : Database) (evalIds : List UUID) (viewer : Option UserId) :
    List (UUID × Nat) × List (UUID × Nat) :=
  ((groupBy (fun c => c.evaluationId) (scopedConversations db evalIds viewer)).map fun g =>
      (g.1, g.2.length),
    (groupBy (fun m => m.conversation.evaluationId) (db.scopedMessages evalIds viewer)).map
      fun g => (g.1, g.2.length))

/-- The live assignments of the evaluations. -/
def scopedAssignments (db : Database) (evalIds : List UUID) : List EvaluationAiModel :=
  (liveSelect db.assignments).filter fun a => decide (a.evaluationId ∈ evalIds)

/-- `_models_breakdown`: the live assignments of each evaluation. -/
def modelsBreakdown (db : Database) (evalIds : List UUID) : List (UUID × Nat) :=
  (groupBy (fun a => a.evaluationId) (scopedAssignments db evalIds)).map fun g =>
    (g.1, g.2.length)

/-! ### Scenarios and tasks -/

/-- The order of the scenarios: by evaluation and position. -/
def scenarioLe (a b : Scenario) : Bool :=
  decide (a.evaluationId < b.evaluationId)
    || decide (a.evaluationId = b.evaluationId) && decide (a.position ≤ b.position)

/-- The order of the tasks: by scenario and `TASK_DEFAULT_ORDER`. -/
def taskLe (a b : Task) : Bool :=
  decide (a.scenarioId < b.scenarioId)
    || decide (a.scenarioId = b.scenarioId)
      && (decide (a.createdAt < b.createdAt)
        || decide (a.createdAt = b.createdAt) && decide (a.id ≤ b.id))

/-- `_scenario_structure`: the live scenarios and their live tasks. -/
def scenarioStructure (db : Database) (evalIds : List UUID) : List Scenario × List Task :=
  let scenarios := orderBy scenarioLe ((liveSelect db.scenarios).filter fun s =>
    decide (s.evaluationId ∈ evalIds))
  let scenarioIds : List UUID := scenarios.map fun s => s.id
  (scenarios,
    orderBy taskLe ((liveSelect db.tasks).filter fun t => decide (t.scenarioId ∈ scenarioIds)))

/-- `_scenario_metrics_for`: the scenario and task rows of one evaluation. -/
def scenarioMetricsFor (evaluationId : UUID) (scenariosByEvaluation : List (UUID × List Scenario))
    (tasksByScenario : List (UUID × List Task)) (scenarioTotal taskTotal : List (UUID × Nat))
    (scenarioTokens : List (UUID × TokenMetrics)) : List ScenarioMetrics :=
  (valueAt scenariosByEvaluation evaluationId []).map fun scenario =>
    { scenarioId := scenario.id
      name := scenario.name
      submissionsTotal := valueAt scenarioTotal scenario.id 0
      tokens := valueAt scenarioTokens scenario.id zeroTokens
      tasks := (valueAt tasksByScenario scenario.id []).map fun task =>
        { taskId := task.id
          name := task.name
          submissionsTotal := valueAt taskTotal task.id 0 } }

/-- The scenarios of each evaluation, in order. -/
def byEvaluation (scenarios : List Scenario) : List (UUID × List Scenario) :=
  collect (fun s => some s.evaluationId) [] (fun s rows => rows ++ [s]) [] scenarios

/-- The tasks of each scenario, in order. -/
def byScenario (tasks : List Task) : List (UUID × List Task) :=
  collect (fun t => some t.scenarioId) [] (fun t rows => rows ++ [t]) [] tasks

/-! ### The dashboard of a group -/

/-- `EVALUATION_DEFAULT_ORDER`. -/
def evaluationLe (a b : Evaluation) : Bool :=
  decide (a.createdAt < b.createdAt) || decide (a.createdAt = b.createdAt) && decide (a.id ≤ b.id)

/-- The live evaluations of a group, in order. -/
def groupEvaluations (db : Database) (groupId : UUID) : List Evaluation :=
  orderBy evaluationLe ((liveSelect db.evaluations).filter fun e =>
    decide (e.evaluationGroupId = groupId))

/-- By spend, then alias, then id. -/
def groupTokensLe (a b : GroupTokensByModelMetrics) : Bool :=
  decide (b.tokens.totalTokens < a.tokens.totalTokens)
    || decide (a.tokens.totalTokens = b.tokens.totalTokens)
      && (decide (a.modelAlias < b.modelAlias)
        || decide (a.modelAlias = b.modelAlias) && decide (a.aiModelId ≤ b.aiModelId))

/-- `_group_tokens_by_model`: the spend of each model assigned to a live evaluation. -/
def groupTokensByModel (db : Database) (evalIds : List UUID) (viewer : Option UserId) :
    Except ApiError (List GroupTokensByModelMetrics) := do
  let assignments := ((liveSelect db.assignments).filterMap fun a =>
    if a.evaluationId ∈ evalIds then
      (db.models.find? a.modelId).map fun model => (a.modelId, model.modelAlias)
    else none).dedup
  -- A conversation keeps the model of its assignment after the assignment is deleted.
  let rows := (db.scopedMessages evalIds viewer).filterMap fun m =>
    (db.assignments.find? m.conversation.evaluationAiModelId).map fun a => (m, a.modelId)
  let measured ← rows.mapM fun row => (·, row.2) <$> measure row.1
  let totals := (groupBy Prod.snd measured).map fun g =>
    (g.1, tokenMetrics (tokenAggregates (g.2.map Prod.fst)))
  return orderBy groupTokensLe (assignments.map fun assignment =>
    { aiModelId := assignment.1
      modelAlias := assignment.2
      tokens := valueAt totals assignment.1 zeroTokens })

/-- The spend by model, unless it is withheld. -/
def servedTokensByModel (db : Database) (evalIds : List UUID) (viewer : Option UserId)
    (withheld : Bool) : Except ApiError (List GroupTokensByModelMetrics) :=
  if withheld then .ok [] else groupTokensByModel db evalIds viewer

/-- The row of an evaluation, read out of the breakdowns over `evalIds`. -/
def evaluationRow (db : Database) (evalIds : List UUID) (viewer : Option UserId)
    (evalTokens scenarioTokens : List (UUID × TokenMetrics)) (evaluation : Evaluation) :
    EvaluationMetrics :=
  let structure_ := scenarioStructure db evalIds
  let breakdown := submissionBreakdown db evalIds viewer
  let activity := activityBreakdown db evalIds viewer
  { evaluationId := evaluation.id
    title := evaluation.title
    modelsAssigned := valueAt (modelsBreakdown db evalIds) evaluation.id 0
    submissions := submissionMetrics (valueAt breakdown.evalStatus evaluation.id [])
    reviews := valueAt (reviewBreakdown db evalIds viewer) evaluation.id zeroReviews
    activity := ⟨valueAt activity.1 evaluation.id 0, valueAt activity.2 evaluation.id 0⟩
    tokens := valueAt evalTokens evaluation.id zeroTokens
    scenarios := scenarioMetricsFor evaluation.id (byEvaluation structure_.1)
      (byScenario structure_.2) breakdown.scenarioTotal breakdown.taskTotal scenarioTokens
    submissionsByActiveDay :=
      evaluationSeries (valueAt (submissionsByDay db evalIds viewer) evaluation.id []) }

/-- `evaluation_group_metrics`: the totals of a group and the rows of its evaluations. -/
def evaluationGroupMetrics (db : Database) (group : EvaluationGroup) (viewer : Option UserId)
    (fullModelAccess : Bool) (today : Date) : Except ApiError EvaluationGroupMetricsResponse := do
  let evaluations := groupEvaluations db group.id
  let evalIds : List UUID := evaluations.map fun e => e.id
  let breakdown := submissionBreakdown db evalIds viewer
  let evalReviews := reviewBreakdown db evalIds viewer
  let (evalConversations, evalMessages) := activityBreakdown db evalIds viewer
  let (evalTokens, scenarioTokens) ← tokenBreakdown db evalIds viewer
  let evalDaily := submissionsByDay db evalIds viewer
  let groupDaily := groupDays evalDaily
  let window := timelineWindow group.startDate group.endDate (groupDaily.map Prod.fst) today
  let withheld := evaluations.any (fun e => e.maskModelsEnabled) && !fullModelAccess
  let tokensByModel ← servedTokensByModel db evalIds viewer withheld
  return {
    scope := metricsScope viewer
    groupId := group.id
    members := members db group.id
    submissions := submissionMetrics breakdown.groupStatus
    reviews := {
      total := (evalReviews.map fun item => item.2.total).sum
      completed := (evalReviews.map fun item => item.2.completed).sum
      pending := (evalReviews.map fun item => item.2.pending).sum
      successfulExploit := (evalReviews.map fun item => item.2.successfulExploit).sum
      uniqueExploit := (evalReviews.map fun item => item.2.uniqueExploit).sum
      validSubmission := (evalReviews.map fun item => item.2.validSubmission).sum }
    activity := {
      conversations := (evalConversations.map fun item => item.2).sum
      messages := (evalMessages.map fun item => item.2).sum }
    tokens := tokenMetrics {
      promptTokens := (evalTokens.map fun item => item.2.promptTokens).sum
      completionTokens := (evalTokens.map fun item => item.2.completionTokens).sum
      totalTokens := (evalTokens.map fun item => item.2.totalTokens).sum
      messagesWithUsage := (evalTokens.map fun item => item.2.messagesWithUsage).sum
      conversationsWithUsage := (evalTokens.map fun item => item.2.conversationsWithUsage).sum }
    tokensByModel
    tokensByModelWithheld := withheld
    evaluations := evaluations.map (evaluationRow db evalIds viewer evalTokens scenarioTokens)
    submissionsByDay := dailySeries groupDaily window }

/-! ### The dashboard of one evaluation -/

/-- The live submissions of an evaluation with a confirmed exploit. -/
def exploitedSubmissions (db : Database) (evaluationId : UUID) (viewer : Option UserId) :
    List Submission :=
  (db.scopedSubmissions [evaluationId] viewer).filter fun s =>
    hasSuccessfulExploitReview db s.flag none

/-- `_exploited_submission_count`. -/
def exploitedSubmissionCount (db : Database) (evaluationId : UUID)
    (viewer : Option UserId) : Nat :=
  ((exploitedSubmissions db evaluationId viewer).map fun s => s.flag.id).dedup.length

/-- The turns of the live messages that a flag selects. -/
def selectedTurns (db : Database) (flag : MessageFlag) : List Turn :=
  (db.flaggedMessages.filter fun link => link.messageFlagId = flag.id).filterMap fun link => do
    let message ← findLive db.messages link.messageId
    findLive db.turns message.turnId

/-- The exploited submissions that select a live message, with the index of the first turn. -/
def firstExploits (db : Database) (evaluationId : UUID) (viewer : Option UserId) :
    List (Submission × Nat) :=
  (exploitedSubmissions db evaluationId viewer).filterMap fun s =>
    ((selectedTurns db s.flag).map fun turn => turn.turnIndex).min?.map fun index => (s, index)

/-- `_turn_spend_for_conversations`: the spend of each turn of the conversations. -/
def turnSpend (db : Database) (conversationIds : List UUID) :
    Except ApiError (List ((UUID × Nat) × TokenAggregates)) :=
  liveMessageTokens (fun m => (m.turn.conversationId, m.turn.turnIndex))
    (db.liveMessages.filter fun m => decide (m.turn.conversationId ∈ conversationIds))

/-- What an exploit cost: the spend of the turns up to the exploiting one, unless none of them
reported usage. -/
def tokensToExploit (spend : List ((UUID × Nat) × TokenAggregates)) (row : Submission × Nat) :
    Option Nat :=
  let upTo := (spend.filter fun item =>
    item.1.1 = row.1.conversation.id ∧ item.1.2 ≤ row.2).map fun item => item.2
  if upTo.any fun a => a.messagesWithUsage ≠ 0 then some (upTo.map fun a => a.totalTokens).sum
  else none

/-- `_exploits_by_prompt_count`: how many prompts an exploit took, and what it cost. -/
def exploitsByPromptCount (db : Database) (evaluationId : UUID) (viewer : Option UserId) :
    Except ApiError (List ExploitPromptCountBucket) := do
  let rows := firstExploits db evaluationId viewer
  let spend ← turnSpend db (rows.map fun row => row.1.conversation.id)
  let buckets := orderBy (fun a b => decide (a.1 ≤ b.1)) (groupBy (fun row => row.2 + 1) rows)
  return buckets.map fun bucket =>
    let costs := bucket.2.filterMap (tokensToExploit spend)
    { promptCount := bucket.1
      exploitCount := bucket.2.length
      avgTokensToExploit := if costs.isEmpty then none
        else some ((costs.sum : Rat) / costs.length)
      exploitsWithTokens := costs.length }

/-- `LiveAssignment`. -/
structure LiveAssignment where
  assignmentId : UUID
  modelAlias : String
  modelDisplayMask : Option String

/-- `_live_assignments`: the live assignments of an evaluation. -/
def liveAssignments (db : Database) (evaluationId : UUID) : List LiveAssignment :=
  (liveSelect db.assignments).filterMap fun a =>
    if a.evaluationId = evaluationId then
      (db.models.find? a.modelId).map fun model => ⟨a.id, model.modelAlias, a.modelDisplayMask⟩
    else none

/-- The name that a row shows: the display mask when the names are masked. -/
def LiveAssignment.shownAlias (maskModelNames : Bool) (a : LiveAssignment) : Option String :=
  if maskModelNames then a.modelDisplayMask else some a.modelAlias

/-- By exploit count, then name. -/
def exploitsLe (a b : ExploitsByModelMetrics) : Bool :=
  decide (b.exploitCount < a.exploitCount)
    || decide (a.exploitCount = b.exploitCount)
      && decide (a.modelAlias.getD "" ≤ b.modelAlias.getD "")

/-- `_exploits_by_model`: the exploits of each live assignment. -/
def exploitsByModel (db : Database) (evaluationId : UUID) (assignments : List LiveAssignment)
    (viewer : Option UserId) (maskModelNames : Bool) : List ExploitsByModelMetrics :=
  let exploits := (groupBy (fun s => s.conversation.evaluationAiModelId)
    (exploitedSubmissions db evaluationId viewer)).map fun g =>
      (g.1, (g.2.map fun s => s.flag.id).dedup.length)
  orderBy exploitsLe (assignments.map fun a =>
    { evaluationAiModelId := a.assignmentId
      modelAlias := a.shownAlias maskModelNames
      exploitCount := valueAt exploits a.assignmentId 0 })

/-- By spend, then name, then id. -/
def tokensLe (a b : TokensByModelMetrics) : Bool :=
  decide (b.tokens.totalTokens < a.tokens.totalTokens)
    || decide (a.tokens.totalTokens = b.tokens.totalTokens)
      && (decide (a.modelAlias.getD "" < b.modelAlias.getD "")
        || decide (a.modelAlias.getD "" = b.modelAlias.getD "")
          && decide (a.evaluationAiModelId ≤ b.evaluationAiModelId))

/-- `_tokens_by_model`: the spend of each live assignment. -/
def tokensByModel (db : Database) (evaluationId : UUID) (assignments : List LiveAssignment)
    (viewer : Option UserId) (maskModelNames : Bool) :
    Except ApiError (List TokensByModelMetrics) := do
  let rows ← liveMessageTokens (fun m => m.conversation.evaluationAiModelId)
    (db.scopedMessages [evaluationId] viewer)
  let totals := rows.map fun row => (row.1, tokenMetrics row.2)
  return orderBy tokensLe (assignments.map fun a =>
    { evaluationAiModelId := a.assignmentId
      modelAlias := a.shownAlias maskModelNames
      tokens := valueAt totals a.assignmentId zeroTokens })

/-- `evaluation_metrics`: the numbers of one evaluation and its exploit distributions. -/
def evaluationMetrics (db : Database) (evaluation : Evaluation) (group : EvaluationGroup)
    (viewer : Option UserId) (maskModelNames : Bool) (today : Date) :
    Except ApiError EvaluationMetricsResponse := do
  check (group.id == evaluation.evaluationGroupId) (.runtimeError ("Group " ++ toString group.id
    ++ " is not the parent of evaluation " ++ toString evaluation.id ++ "."))
  let evalIds := [evaluation.id]
  let (scenarios, tasks) := scenarioStructure db evalIds
  let breakdown := submissionBreakdown db evalIds viewer
  let evalReviews := reviewBreakdown db evalIds viewer
  let (evalConversations, evalMessages) := activityBreakdown db evalIds viewer
  let (evalTokens, scenarioTokens) ← tokenBreakdown db evalIds viewer
  let evalModels := modelsBreakdown db evalIds
  let daily := valueAt (submissionsByDay db evalIds viewer) evaluation.id []
  let window := timelineWindow group.startDate group.endDate (daily.map Prod.fst) today
  let assignments := liveAssignments db evaluation.id
  let promptCounts ← exploitsByPromptCount db evaluation.id viewer
  let tokens ← tokensByModel db evaluation.id assignments viewer maskModelNames
  return {
    scope := metricsScope viewer
    evaluationId := evaluation.id
    title := evaluation.title
    modelsAssigned := valueAt evalModels evaluation.id 0
    submissions := submissionMetrics (valueAt breakdown.evalStatus evaluation.id [])
    reviews := valueAt evalReviews evaluation.id zeroReviews
    activity := ⟨valueAt evalConversations evaluation.id 0, valueAt evalMessages evaluation.id 0⟩
    tokens := valueAt evalTokens evaluation.id zeroTokens
    scenarios := scenarioMetricsFor evaluation.id (byEvaluation scenarios) (byScenario tasks)
      breakdown.scenarioTotal breakdown.taskTotal scenarioTokens
    submissionsByDay := dailySeries daily window
    exploitedSubmissions := exploitedSubmissionCount db evaluation.id viewer
    exploitsByPromptCount := promptCounts
    exploitsByModel := exploitsByModel db evaluation.id assignments viewer maskModelNames
    tokensByModel := tokens }

end RedTeaming.Analytics
