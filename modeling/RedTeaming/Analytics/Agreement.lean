import RedTeaming.Analytics.Breakdowns

/-!
# `RedTeaming.Analytics.Agreement`: the dashboards of a group and of its evaluations agree

Both dashboards fold the same grouped queries, one over all evaluations of the group and one over
a single evaluation. Where every flag and every conversation names a scenario of its own
evaluation, the row of an evaluation is what the queries over that evaluation alone give
(`evaluationRow_singleton`). Without this a submission counts for a scenario of another evaluation
on the group's dashboard only.

A review must carry the evaluation of its flag, as the assignment of a reviewer writes it, because
the daily series narrows the reviews by evaluation and the count of exploited submissions does
not.
-/

set_option autoImplicit false

namespace RedTeaming.Analytics

open RedTeaming.Annotations RedTeaming.Auth RedTeaming.Conversations RedTeaming.Evaluations
open RedTeaming.Library RedTeaming.Reviews

/-- Each review carries the evaluation of its flag. -/
def ReviewsCarryEvaluation (db : Database) : Prop :=
  ∀ review ∈ db.reviews, ∀ flag ∈ db.flags, review.messageFlagId = flag.id →
    review.evaluationId = flag.evaluationId

/-- Each conversation and each flag names a scenario, and each flag a task, of its own evaluation,
as their creation writes them. -/
structure Placed (db : Database) : Prop where
  conversation : ∀ c ∈ db.conversations, ∀ scenario ∈ db.scenarios, c.scenarioId = scenario.id →
    c.evaluationId = scenario.evaluationId
  flag : ∀ flag ∈ db.flags, ∀ scenario ∈ db.scenarios, flag.scenarioId = some scenario.id →
    flag.evaluationId = scenario.evaluationId
  task : ∀ flag ∈ db.flags, ∀ task ∈ db.tasks, flag.taskId = some task.id →
    ∀ scenario ∈ db.scenarios, task.scenarioId = scenario.id →
      flag.evaluationId = scenario.evaluationId

/-- The sums of the statuses. -/
def SubmissionMetrics.sum (rows : List SubmissionMetrics) : SubmissionMetrics where
  total := (rows.map fun r => r.total).sum
  pending := (rows.map fun r => r.pending).sum
  approved := (rows.map fun r => r.approved).sum
  rejected := (rows.map fun r => r.rejected).sum

/-- The sums of the tallies. -/
def ReviewMetrics.sum (rows : List ReviewMetrics) : ReviewMetrics where
  total := (rows.map fun r => r.total).sum
  completed := (rows.map fun r => r.completed).sum
  pending := (rows.map fun r => r.pending).sum
  successfulExploit := (rows.map fun r => r.successfulExploit).sum
  uniqueExploit := (rows.map fun r => r.uniqueExploit).sum
  validSubmission := (rows.map fun r => r.validSubmission).sum

/-- The sums of conversations and messages. -/
def ActivityMetrics.sum (rows : List ActivityMetrics) : ActivityMetrics where
  conversations := (rows.map fun r => r.conversations).sum
  messages := (rows.map fun r => r.messages).sum

/-- The sums of the token counts. -/
def TokenAggregates.sum (rows : List TokenAggregates) : TokenAggregates where
  promptTokens := (rows.map fun r => r.promptTokens).sum
  completionTokens := (rows.map fun r => r.completionTokens).sum
  totalTokens := (rows.map fun r => r.totalTokens).sum
  messagesWithUsage := (rows.map fun r => r.messagesWithUsage).sum
  conversationsWithUsage := (rows.map fun r => r.conversationsWithUsage).sum

/-- The totals of a group are the sums over the rows of its evaluations. -/
structure TotalsAreSums (g : EvaluationGroupMetricsResponse) : Prop where
  submissions : g.submissions = SubmissionMetrics.sum (g.evaluations.map fun r => r.submissions)
  reviews : g.reviews = ReviewMetrics.sum (g.evaluations.map fun r => r.reviews)
  activity : g.activity = ActivityMetrics.sum (g.evaluations.map fun r => r.activity)
  tokens : g.tokens.toTokenAggregates =
    TokenAggregates.sum (g.evaluations.map fun r => r.tokens.toTokenAggregates)

/-- The numbers of an evaluation are those of a row. -/
structure SameNumbers (m : EvaluationMetricsResponse) (row : EvaluationMetrics) : Prop where
  modelsAssigned : m.modelsAssigned = row.modelsAssigned
  submissions : m.submissions = row.submissions
  reviews : m.reviews = row.reviews
  activity : m.activity = row.activity
  tokens : m.tokens = row.tokens
  scenarios : m.scenarios = row.scenarios

/-- A daily series adds up to a number of submissions. -/
def SeriesSum (series : List DailySubmissionPoint) (total : Nat) : Prop :=
  (series.map fun point => point.submissions).sum = total

section
variable {db : Database} {evalIds : List UUID} {viewer : Option UserId}

/-! ### The row of an evaluation -/

/-- Under `Placed` the rows of the scenarios of one evaluation are the same from the breakdowns
over several evaluations. -/
theorem scenarioMetricsFor_singleton (hplaced : Placed db) {evaluationId : UUID}
    (h : evaluationId ∈ evalIds) {measured : List Measured}
    (hmeasured : (db.scopedMessages evalIds viewer).mapM measure = .ok measured) :
    let one := scenarioStructure db [evaluationId]
    let all := scenarioStructure db evalIds
    scenarioMetricsFor evaluationId (byEvaluation one.1) (byScenario one.2)
        (submissionBreakdown db [evaluationId] viewer).scenarioTotal
        (submissionBreakdown db [evaluationId] viewer).taskTotal
        (spendBy (fun m => m.conversation.scenarioId)
          (measured.filter fun row => row.source.conversation.evaluationId = evaluationId)) =
      scenarioMetricsFor evaluationId (byEvaluation all.1) (byScenario all.2)
        (submissionBreakdown db evalIds viewer).scenarioTotal
        (submissionBreakdown db evalIds viewer).taskTotal
        (spendBy (fun m => m.conversation.scenarioId) measured) := by
  intro one all
  have hself : evaluationId ∈ [evaluationId] := List.mem_singleton_self evaluationId
  unfold scenarioMetricsFor
  rw [valueAt_byEvaluation hself, valueAt_byEvaluation h]
  apply List.map_congr_left
  intro scenario hscenario
  have hrow := List.mem_filter.mp (mem_orderBy.mp hscenario)
  have heval : scenario.evaluationId = evaluationId := by simpa using hrow.2
  have hmem : scenario ∈ db.scenarios := (mem_liveSelect.mp hrow.1).1
  rw [valueAt_byScenario hself hscenario, valueAt_byScenario h hscenario]
  have htotal :
      valueAt (submissionBreakdown db [evaluationId] viewer).scenarioTotal scenario.id 0 =
      valueAt (submissionBreakdown db evalIds viewer).scenarioTotal scenario.id 0 := by
    rw [valueAt_scenarioTotal, valueAt_scenarioTotal, scopedSubmissions_singleton h,
      List.filter_filter]
    congr 1
    apply List.filter_congr
    intro s hs
    -- A submission of the scenario is one of the evaluation.
    by_cases hscen : s.flag.scenarioId = some scenario.id
    · have hflag := hplaced.flag s.flag (flag_mem_of_mem_scopedSubmissions hs) scenario hmem hscen
      simp [hscen, hflag, heval]
    · simp [hscen]
  have htokens : valueAt (spendBy (fun m => m.conversation.scenarioId)
      (measured.filter fun row => row.source.conversation.evaluationId = evaluationId))
        scenario.id zeroTokens =
      valueAt (spendBy (fun m => m.conversation.scenarioId) measured) scenario.id zeroTokens := by
    rw [valueAt_spendBy, valueAt_spendBy, List.filter_filter]
    congr 2
    apply List.filter_congr
    intro row hmeas
    by_cases hscen : row.source.conversation.scenarioId = scenario.id
    · have hconv := hplaced.conversation _
        (conversation_mem_of_mem_scopedMessages (source_mem_of_mapM_measure hmeasured hmeas))
        scenario hmem hscen
      simp [hscen, hconv, heval]
    · simp [hscen]
  have htasks : ∀ task ∈ tasksOf db scenario.id,
      valueAt (submissionBreakdown db [evaluationId] viewer).taskTotal task.id 0 =
        valueAt (submissionBreakdown db evalIds viewer).taskTotal task.id 0 := by
    intro task htask
    have htaskrow := List.mem_filter.mp (mem_orderBy.mp htask)
    have hscen : task.scenarioId = scenario.id := by simpa using htaskrow.2
    rw [valueAt_taskTotal, valueAt_taskTotal, scopedSubmissions_singleton h, List.filter_filter]
    congr 1
    apply List.filter_congr
    intro s hs
    by_cases hnamed : s.flag.taskId = some task.id
    · have hflag := hplaced.task s.flag (flag_mem_of_mem_scopedSubmissions hs) task
        (mem_liveSelect.mp htaskrow.1).1 hnamed scenario hmem hscen
      simp [hnamed, hflag, heval]
    · simp [hnamed]
  rw [htotal, htokens]
  congr 1
  apply List.map_congr_left
  intro task htask
  rw [htasks task htask]

/-- The reviews of a submission in scope are in scope. -/
theorem hasSuccessfulExploitReview_scope (hreviews : ReviewsCarryEvaluation db) {s : Submission}
    (hs : s ∈ db.scopedSubmissions evalIds viewer) :
    hasSuccessfulExploitReview db s.flag (some evalIds) =
      hasSuccessfulExploitReview db s.flag none := by
  have heval := evaluationId_mem_of_mem_scopedSubmissions hs
  have hflag := flag_mem_of_mem_scopedSubmissions hs
  unfold hasSuccessfulExploitReview
  rw [Bool.eq_iff_iff, List.any_eq_true, List.any_eq_true]
  constructor
  · rintro ⟨review, hreview, hconfirms⟩
    rw [Bool.and_eq_true] at hconfirms
    exact ⟨review, hreview, by simpa using hconfirms.1⟩
  · rintro ⟨review, hreview, hconfirms⟩
    simp only [Option.all_none, Bool.and_true, Bool.and_eq_true, decide_eq_true_eq] at hconfirms
    have hcarried := hreviews review (mem_liveSelect.mp hreview).1 s.flag hflag hconfirms.1
    refine ⟨review, hreview, ?_⟩
    simp only [Option.all_some, Bool.and_eq_true, decide_eq_true_eq]
    exact ⟨hconfirms, hcarried ▸ heval⟩

/-- The days of one evaluation are the same from the breakdown over several evaluations. -/
theorem submissionsByDay_singleton (hreviews : ReviewsCarryEvaluation db) {evaluationId : UUID}
    (h : evaluationId ∈ evalIds) :
    valueAt (submissionsByDay db [evaluationId] viewer) evaluationId [] =
      valueAt (submissionsByDay db evalIds viewer) evaluationId [] := by
  have hself : evaluationId ∈ [evaluationId] := List.mem_singleton_self evaluationId
  -- The groups of one evaluation are those that the filter leaves of all groups.
  have hgroups : ∀ ids, evaluationId ∈ ids →
      ((groupBy dayKey (db.scopedSubmissions ids viewer)).filter fun g =>
        g.1.1 = evaluationId) = groupBy dayKey (db.scopedSubmissions [evaluationId] viewer) := by
    intro ids hids
    rw [scopedSubmissions_singleton hids]
    exact (groupBy_filter dayKey (fun key => decide (key.1 = evaluationId)) _).symm
  rw [valueAt_submissionsByDay, valueAt_submissionsByDay, hgroups _ hself, hgroups _ h]
  apply List.map_congr_left
  intro g hg
  have hrows : ∀ s ∈ g.2, s ∈ db.scopedSubmissions [evaluationId] viewer := by
    intro s hs
    have hgroup := mem_groupBy hg
    rw [hgroup] at hs
    exact (List.mem_filter.mp hs).1
  -- Whether a submission was exploited does not depend on the scope of the reviews.
  have hcount : g.2.countP (fun s => hasSuccessfulExploitReview db s.flag (some [evaluationId])) =
      g.2.countP fun s => hasSuccessfulExploitReview db s.flag (some evalIds) := by
    apply List.countP_congr
    intro s hs
    have hone := hrows s hs
    have hall := hone
    rw [scopedSubmissions_singleton h] at hall
    rw [hasSuccessfulExploitReview_scope hreviews hone,
      hasSuccessfulExploitReview_scope hreviews (List.mem_filter.mp hall).1]
  unfold dayCount
  rw [hcount]

/-- The row of an evaluation is what the queries over that evaluation alone give. -/
theorem evaluationRow_singleton (hplaced : Placed db) (hreviews : ReviewsCarryEvaluation db)
    {evaluation : Evaluation} (h : evaluation.id ∈ evalIds) {measured : List Measured}
    (hmeasured : (db.scopedMessages evalIds viewer).mapM measure = .ok measured) :
    let part := measured.filter fun row => row.source.conversation.evaluationId = evaluation.id
    evaluationRow db [evaluation.id] viewer (spendBy (fun m => m.conversation.evaluationId) part)
        (spendBy (fun m => m.conversation.scenarioId) part) evaluation =
      evaluationRow db evalIds viewer (spendBy (fun m => m.conversation.evaluationId) measured)
        (spendBy (fun m => m.conversation.scenarioId) measured) evaluation := by
  intro part
  have hself : evaluation.id ∈ [evaluation.id] := List.mem_singleton_self _
  unfold evaluationRow
  dsimp only
  congr 1
  · rw [valueAt_modelsBreakdown, valueAt_modelsBreakdown, ← scopedAssignments_singleton hself,
      ← scopedAssignments_singleton h]
  · rw [submissionMetrics_evalStatus, submissionMetrics_evalStatus,
      ← scopedSubmissions_singleton hself, ← scopedSubmissions_singleton h]
  · rw [valueAt_reviewBreakdown, valueAt_reviewBreakdown, ← scopedReviews_singleton hself,
      ← scopedReviews_singleton h]
  · rw [valueAt_conversations, valueAt_conversations, valueAt_messages, valueAt_messages,
      ← scopedConversations_singleton hself, ← scopedConversations_singleton h,
      ← scopedMessages_singleton hself, ← scopedMessages_singleton h]
  · rw [valueAt_spendBy, valueAt_spendBy, List.filter_filter]
    simp only [Bool.and_self]
  · exact scenarioMetricsFor_singleton hplaced h hmeasured
  · rw [submissionsByDay_singleton hreviews h]

end

/-! ### The dashboard of a group -/

section
variable {db : Database} {group : EvaluationGroup} {viewer : Option UserId} {access mask : Bool}
  {today : Date} {g : EvaluationGroupMetricsResponse} {evaluation : Evaluation}
  {m : EvaluationMetricsResponse}

/-- The ids of the live evaluations of a group. -/
def groupIds (db : Database) (groupId : UUID) : List UUID :=
  (groupEvaluations db groupId).map fun e => e.id

/-- The evaluations of a group have distinct ids. -/
theorem nodup_groupIds (groupId : UUID) : (groupIds db groupId).Nodup := by
  have hperm := (orderBy_perm evaluationLe ((liveSelect db.evaluations).filter fun e =>
    decide (e.evaluationGroupId = groupId))).map fun e => e.id
  have hrows : (((liveSelect db.evaluations).filter fun e =>
      decide (e.evaluationGroupId = groupId)).map fun e => e.id).Nodup :=
    db.evaluations.nodup.sublist ((List.filter_sublist.trans List.filter_sublist).map _)
  exact hperm.nodup_iff.mpr hrows

/-- The live evaluations of a group are the evaluations of its dashboard. -/
theorem mem_groupEvaluations {groupId : UUID} :
    evaluation ∈ groupEvaluations db groupId ↔
      evaluation ∈ liveSelect db.evaluations ∧ evaluation.evaluationGroupId = groupId := by
  rw [groupEvaluations, mem_orderBy, List.mem_filter, decide_eq_true_eq]

/-- The statuses of submissions are the sums over their evaluations. -/
theorem statusCounts_fibers {ids : List UUID} (hnodup : ids.Nodup) {rows : List Submission}
    (hcover : ∀ s ∈ rows, s.flag.evaluationId ∈ ids) :
    statusCounts rows = SubmissionMetrics.sum (ids.map fun evaluationId =>
      statusCounts (rows.filter fun s => s.flag.evaluationId = evaluationId)) := by
  have hcount := fun q : Submission → Bool =>
    countP_fibers (fun s : Submission => s.flag.evaluationId) q hnodup hcover
  have hlength := length_fibers (fun s : Submission => s.flag.evaluationId) hnodup hcover
  simp only [SubmissionMetrics.sum, statusCounts, List.map_map, Function.comp_def,
    hcount, hlength]

/-- Adding up what the rows read by id is adding up a field of the rows. -/
theorem sum_evaluationRow {ν : Type} {evaluations : List Evaluation}
    {row : Evaluation → EvaluationMetrics} (field : EvaluationMetrics → ν) (read : UUID → ν)
    (hread : ∀ e, field (row e) = read e.id) (w : ν → Nat) :
    ((evaluations.map fun e => e.id).map fun id => w (read id)).sum =
      (((evaluations.map row).map field).map w).sum := by
  simp only [List.map_map, Function.comp_def, hread]

/-- The totals of a group are the sums over the rows of its evaluations. -/
theorem totalsAreSums (hg : evaluationGroupMetrics db group viewer access today = .ok g) :
    TotalsAreSums g := by
  have hnodup := @nodup_groupIds db group.id
  obtain ⟨⟨evalTokens, scenarioTokens⟩, htotals, hg⟩ := bind_eq_ok.mp hg
  obtain ⟨byModel, -, hg⟩ := bind_eq_ok.mp hg
  cases hg
  let rows := (groupEvaluations db group.id).map
    (evaluationRow db (groupIds db group.id) viewer evalTokens scenarioTokens)
  constructor
  case submissions =>
    have hgroup :
        submissionMetrics (submissionBreakdown db (groupIds db group.id) viewer).groupStatus =
        statusCounts (db.scopedSubmissions (groupIds db group.id) viewer) :=
      submissionMetrics_groupStatus
    have hrow : ∀ evaluationId, submissionMetrics (valueAt
        (submissionBreakdown db (groupIds db group.id) viewer).evalStatus evaluationId []) =
          statusCounts ((db.scopedSubmissions (groupIds db group.id) viewer).filter fun s =>
            s.flag.evaluationId = evaluationId) := submissionMetrics_evalStatus
    -- Each submission is in one evaluation, so the status counts add up.
    have hfibers := statusCounts_fibers hnodup fun s (hs : s ∈ db.scopedSubmissions
      (groupIds db group.id) viewer) => evaluationId_mem_of_mem_scopedSubmissions hs
    refine (hgroup.trans hfibers).trans ?_
    simp only [← hrow]
    show SubmissionMetrics.sum (((groupEvaluations db group.id).map fun e => e.id).map _) = _
    rw [List.map_map, List.map_map]
    rfl
  case reviews =>
    have hcover : ∀ r ∈ scopedReviews db (groupIds db group.id) viewer,
        r.evaluationId ∈ groupIds db group.id := fun r => evaluationId_mem_of_mem_scopedReviews
    -- One argument for each number of the reviews.
    have hsum : ∀ w : ReviewMetrics → Nat, w zeroReviews = 0 →
        ((reviewBreakdown db (groupIds db group.id) viewer).map fun item => w item.2).sum =
          ((rows.map fun r => r.reviews).map w).sum := fun w hw =>
      (sum_aggregate _ reviewMetrics w hw hnodup hcover).trans
        (sum_evaluationRow (fun r => r.reviews) _ (fun _ => rfl) w)
    show ReviewMetrics.mk _ _ _ _ _ _ = ReviewMetrics.mk _ _ _ _ _ _
    rw [ReviewMetrics.mk.injEq]
    exact ⟨hsum (fun r => r.total) rfl, hsum (fun r => r.completed) rfl,
      hsum (fun r => r.pending) rfl, hsum (fun r => r.successfulExploit) rfl,
      hsum (fun r => r.uniqueExploit) rfl, hsum (fun r => r.validSubmission) rfl⟩
  case activity =>
    have hconversations : ∀ c ∈ scopedConversations db (groupIds db group.id) viewer,
        c.evaluationId ∈ groupIds db group.id :=
      fun c => evaluationId_mem_of_mem_scopedConversations
    have hmessages : ∀ row ∈ db.scopedMessages (groupIds db group.id) viewer,
        row.conversation.evaluationId ∈ groupIds db group.id :=
      fun row => evaluationId_mem_of_mem_scopedMessages
    let activity := activityBreakdown db (groupIds db group.id) viewer
    -- The two numbers of a row are read from the two breakdowns.
    have hread : ∀ w : ActivityMetrics → Nat, ((groupIds db group.id).map fun id =>
        w ⟨valueAt activity.1 id 0, valueAt activity.2 id 0⟩).sum =
          ((rows.map fun r => r.activity).map w).sum :=
      sum_evaluationRow (fun r => r.activity)
        (fun id => ⟨valueAt activity.1 id 0, valueAt activity.2 id 0⟩) (fun _ => rfl)
    show ActivityMetrics.mk _ _ = ActivityMetrics.mk _ _
    rw [ActivityMetrics.mk.injEq]
    exact ⟨(sum_aggregate _ List.length (fun n : Nat => n) rfl hnodup hconversations).trans
        (hread fun a => a.conversations),
      (sum_aggregate _ List.length (fun n : Nat => n) rfl hnodup hmessages).trans
        (hread fun a => a.messages)⟩
  case tokens =>
    -- The tokens are spent by the measured messages, each in one evaluation.
    obtain ⟨measured, hmeasured, htokens⟩ := spendBy_of_tokenBreakdown htotals
    cases htokens
    have hcover : ∀ row ∈ measured,
        row.source.conversation.evaluationId ∈ groupIds db group.id := fun row hrow =>
      evaluationId_mem_of_mem_scopedMessages (source_mem_of_mapM_measure hmeasured hrow)
    have hsum : ∀ w : TokenAggregates → Nat, w zeroTokens.toTokenAggregates = 0 →
        ((spendBy (fun row => row.conversation.evaluationId) measured).map fun item =>
          w item.2.toTokenAggregates).sum =
            ((rows.map fun r => r.tokens.toTokenAggregates).map w).sum := fun w hw =>
      (sum_aggregate _ (fun group => tokenMetrics (tokenAggregates group))
        (fun t => w t.toTokenAggregates) hw hnodup hcover).trans
          (sum_evaluationRow (fun r => r.tokens.toTokenAggregates) _ (fun _ => rfl) w)
    show TokenAggregates.mk _ _ _ _ _ = TokenAggregates.mk _ _ _ _ _
    rw [TokenAggregates.mk.injEq]
    exact ⟨hsum (fun a => a.promptTokens) rfl, hsum (fun a => a.completionTokens) rfl,
      hsum (fun a => a.totalTokens) rfl, hsum (fun a => a.messagesWithUsage) rfl,
      hsum (fun a => a.conversationsWithUsage) rfl⟩

/-- The series of a group adds up to its submissions. -/
theorem groupSeries_sum (hg : evaluationGroupMetrics db group viewer access today = .ok g) :
    SeriesSum g.submissionsByDay g.submissions.total := by
  have hnodup := @nodup_groupIds db group.id
  obtain ⟨⟨evalTokens, scenarioTokens⟩, -, hg⟩ := bind_eq_ok.mp hg
  obtain ⟨byModel, -, hg⟩ := bind_eq_ok.mp hg
  cases hg
  let evalDaily := submissionsByDay db (groupIds db group.id) viewer
  have hkeys : ((groupDays evalDaily).map Prod.fst).Nodup := by
    apply nodup_keys_collect
    exact List.nodup_nil
  have hseries := (sum_dailySeries_timelineWindow hkeys group.startDate group.endDate today).1
  have htotal :
      submissionMetrics (submissionBreakdown db (groupIds db group.id) viewer).groupStatus =
      statusCounts (db.scopedSubmissions (groupIds db group.id) viewer) :=
    submissionMetrics_groupStatus
  exact (hseries.trans (sum_groupDays hnodup)).trans
    (congrArg SubmissionMetrics.total htotal).symm

/-! ### The dashboard of one evaluation -/

/-- The series of an evaluation adds up to its submissions, and to the exploited ones. -/
theorem evaluationSeries_sum (hreviews : ReviewsCarryEvaluation db)
    (hm : evaluationMetrics db evaluation group viewer mask today = .ok m) :
    SeriesSum m.submissionsByDay m.submissions.total ∧
      (m.submissionsByDay.map fun point => point.exploitedSubmissions).sum =
        m.exploitedSubmissions := by
  have hself : evaluation.id ∈ [evaluation.id] := List.mem_singleton_self _
  obtain ⟨_, _, hm⟩ := bind_eq_ok.mp hm
  obtain ⟨⟨evalTokens, scenarioTokens⟩, -, hm⟩ := bind_eq_ok.mp hm
  obtain ⟨promptCounts, -, hm⟩ := bind_eq_ok.mp hm
  obtain ⟨byModel, -, hm⟩ := bind_eq_ok.mp hm
  cases hm
  have hkeys : ((valueAt (submissionsByDay db [evaluation.id] viewer) evaluation.id []).map
    Prod.fst).Nodup := nodup_days_submissionsByDay evaluation.id
  -- The series has every day with a submission, so it sums to the days.
  have hseries := sum_dailySeries_timelineWindow hkeys group.startDate group.endDate today
  have hsums := @sum_valueAt_submissionsByDay db [evaluation.id] viewer evaluation.id
  dsimp only at hsums
  rw [← scopedSubmissions_singleton hself] at hsums
  constructor
  · have htotal : submissionMetrics (valueAt
        (submissionBreakdown db [evaluation.id] viewer).evalStatus evaluation.id []) =
          statusCounts (db.scopedSubmissions [evaluation.id] viewer) := by
      rw [submissionMetrics_evalStatus, ← scopedSubmissions_singleton hself]
    exact (hseries.1.trans hsums.1).trans (congrArg SubmissionMetrics.total htotal).symm
  · have hcount : (db.scopedSubmissions [evaluation.id] viewer).countP (fun s =>
        hasSuccessfulExploitReview db s.flag (some [evaluation.id])) =
          exploitedSubmissionCount db evaluation.id viewer := by
      rw [exploitedSubmissionCount_eq]
      apply List.countP_congr
      intro s hs
      rw [hasSuccessfulExploitReview_scope hreviews hs]
    exact (hseries.2.trans hsums.2).trans hcount

/-- What the dashboard of an evaluation shows are the numbers of its row on the dashboard of the
group. -/
theorem sameNumbers (hplaced : Placed db) (hreviews : ReviewsCarryEvaluation db)
    (hlive : evaluation ∈ groupEvaluations db group.id)
    (hg : evaluationGroupMetrics db group viewer access today = .ok g)
    (hm : evaluationMetrics db evaluation group viewer mask today = .ok m) :
    ∃ row, (g.evaluations.filter fun r => r.evaluationId = evaluation.id) = [row] ∧
      SameNumbers m row := by
  have hid : evaluation.id ∈ groupIds db group.id := List.mem_map_of_mem hlive
  obtain ⟨⟨evalTokens, scenarioTokens⟩, htotals, hg⟩ := bind_eq_ok.mp hg
  obtain ⟨byModel, -, hg⟩ := bind_eq_ok.mp hg
  cases hg
  obtain ⟨_, _, hm⟩ := bind_eq_ok.mp hm
  obtain ⟨⟨evalTokens', scenarioTokens'⟩, htotals', hm⟩ := bind_eq_ok.mp hm
  obtain ⟨promptCounts, -, hm⟩ := bind_eq_ok.mp hm
  obtain ⟨byModel', -, hm⟩ := bind_eq_ok.mp hm
  cases hm
  obtain ⟨measured, hmeasured, htokens⟩ := spendBy_of_tokenBreakdown htotals
  obtain ⟨measured', hmeasured', htokens'⟩ := spendBy_of_tokenBreakdown htotals'
  -- The messages of the evaluation are measured the same on both sides.
  have hpart : measured' = measured.filter fun row =>
      row.source.conversation.evaluationId = evaluation.id := by
    rw [scopedMessages_singleton hid] at hmeasured'
    exact Except.ok.inj (hmeasured'.symm.trans (mapM_measure_filter hmeasured _))
  cases htokens
  cases htokens'
  subst hpart
  let toRow := evaluationRow db (groupIds db group.id) viewer
    (spendBy (fun row => row.conversation.evaluationId) measured)
    (spendBy (fun row => row.conversation.scenarioId) measured)
  have hrow : _ = toRow evaluation := evaluationRow_singleton hplaced hreviews hid hmeasured
  have hfilter : (((groupEvaluations db group.id).map toRow).filter fun r =>
      r.evaluationId = evaluation.id) = [toRow evaluation] := by
    rw [List.filter_map]
    exact congrArg (List.map toRow)
      (filter_label_eq_singleton (nodup_groupIds group.id) hlive)
  refine ⟨toRow evaluation, hfilter, ?_⟩
  rw [← hrow]
  exact ⟨rfl, rfl, rfl, rfl, rfl, rfl⟩

/-- What the two dashboards of a group and its evaluations owe each other, where they answer. -/
def Agree (db : Database) (group : EvaluationGroup) (viewer : Option UserId) (access mask : Bool)
    (today : Date) : Prop :=
  (∀ g, evaluationGroupMetrics db group viewer access today = .ok g →
    TotalsAreSums g ∧ SeriesSum g.submissionsByDay g.submissions.total) ∧
  ∀ evaluation ∈ liveSelect db.evaluations, evaluation.evaluationGroupId = group.id →
    ∀ m, evaluationMetrics db evaluation group viewer mask today = .ok m →
      SeriesSum m.submissionsByDay m.submissions.total ∧
      (m.submissionsByDay.map fun point => point.exploitedSubmissions).sum =
        m.exploitedSubmissions ∧
      ∀ g, evaluationGroupMetrics db group viewer access today = .ok g →
        ∃ row, (g.evaluations.filter fun r => r.evaluationId = evaluation.id) = [row] ∧
          SameNumbers m row

/-- Where each review carries its flag's evaluation, and each flag and conversation names a
scenario of its own evaluation, the dashboards agree. -/
theorem dashboards_agree (hreviews : ReviewsCarryEvaluation db) (hplaced : Placed db)
    (group : EvaluationGroup) (viewer : Option UserId) (access mask : Bool) (today : Date) :
    Agree db group viewer access mask today := by
  constructor
  · intro g hg
    exact ⟨totalsAreSums hg, groupSeries_sum hg⟩
  · intro evaluation hlive hgroup m hm
    have hmem : evaluation ∈ groupEvaluations db group.id :=
      mem_groupEvaluations.mpr ⟨hlive, hgroup⟩
    have hseries := evaluationSeries_sum hreviews hm
    exact ⟨hseries.1, hseries.2, fun g hg => sameNumbers hplaced hreviews hmem hg hm⟩

end

/-! ### A submission of another evaluation's scenario -/

/-- A group. -/
def sampleGroup : EvaluationGroup := { id := 10, createdAt := 0, createdById := 1 }

/-- An evaluation of the group. -/
def sampleEvaluation (id : UUID) : Evaluation :=
  { id, createdAt := 0, title := "round", createdById := 1, evaluationGroupId := 10 }

/-- A scenario of an evaluation. -/
def sampleScenario (id evaluationId : UUID) : Scenario :=
  { id, createdAt := 0, name := "case", description := "", evaluationId, position := 0 }

/-- A conversation in the second evaluation. -/
def sampleConversation : Conversation where
  id := 31
  createdAt := 0
  userId := 5
  evaluationId := 2
  evaluationAiModelId := 60
  conversationGroupId := 70
  scenarioId := 22

/-- The submission of the conversation, which names the scenario `scenarioId`. -/
def sampleFlag (scenarioId : UUID) : MessageFlag where
  id := 41
  createdAt := 90000
  createdById := 5
  conversationId := 31
  evaluationId := 2
  scenarioId := some scenarioId

/-- The review that confirms the submission. -/
def sampleReview : Review where
  id := 51
  createdAt := 0
  messageFlagId := 41
  evaluationId := 2
  status := .approved
  successfulExploit := some true

/-- Two evaluations of a group, with the scenarios 21 and 22, and one submission of the second
evaluation that names the scenario `scenarioId`. -/
def twoEvaluations (scenarioId : UUID) : Database where
  auth := ⟨fun _ => none, fun _ => none, [], [], by simp, Directory.mem_of_no_role⟩
  roleAssignments := []
  models := Table.empty
  evaluations := ⟨[sampleEvaluation 1, sampleEvaluation 2], by decide⟩
  assignments := Table.empty
  scenarios := ⟨[sampleScenario 21 1, sampleScenario 22 2], by decide⟩
  tasks := Table.empty
  conversations := ⟨[sampleConversation], by decide⟩
  turns := ⟨[{ id := 81, createdAt := 0, conversationId := 31, turnIndex := 0 }], by decide⟩
  messages := ⟨[{ id := 91, createdAt := 0, turnId := 81 }], by decide⟩
  flags := ⟨[sampleFlag scenarioId], by simp⟩
  flaggedMessages := [⟨41, 91⟩]
  reviews := ⟨[sampleReview], by decide⟩

/-- Both dashboards answer for the submission that names its own scenario, and they agree. -/
theorem dashboards_agree_two :
    (evaluationGroupMetrics (twoEvaluations 22) sampleGroup none true 1).isOk = true ∧
      (evaluationMetrics (twoEvaluations 22) (sampleEvaluation 2) sampleGroup none false 1).isOk =
        true ∧
      Agree (twoEvaluations 22) sampleGroup none true false 1 := by
  have hreviews : ReviewsCarryEvaluation (twoEvaluations 22) := by
    unfold ReviewsCarryEvaluation
    decide
  refine ⟨by decide +kernel, by decide +kernel, ?_⟩
  exact dashboards_agree hreviews ⟨by decide, by decide, by decide⟩ sampleGroup none true false 1

/-- A submission that names the scenario of another evaluation counts there on the dashboard of
the group, and not on the dashboard of that evaluation. -/
theorem scenario_of_another_evaluation :
    ¬ ∀ db, ReviewsCarryEvaluation db → ∀ group viewer access mask today,
      Agree db group viewer access mask today := by
  intro h
  have hreviews : ReviewsCarryEvaluation (twoEvaluations 21) := by
    unfold ReviewsCarryEvaluation
    decide
  have hlive : sampleEvaluation 1 ∈ liveSelect (twoEvaluations 21).evaluations := by
    rw [mem_liveSelect]
    exact ⟨List.mem_cons_self, rfl⟩
  have hgroup : (evaluationGroupMetrics (twoEvaluations 21) sampleGroup none true 1).map (fun g =>
      g.evaluations.map fun r => (r.evaluationId, r.scenarios.map fun s => s.submissionsTotal)) =
        .ok [(1, [1]), (2, [0])] := by decide +kernel
  have hone : (evaluationMetrics (twoEvaluations 21) (sampleEvaluation 1) sampleGroup none false
      1).map (fun m => m.scenarios.map fun s => s.submissionsTotal) = .ok [0] := by decide +kernel
  -- Both dashboards are there, and the numbers of one scenario differ.
  cases hg : evaluationGroupMetrics (twoEvaluations 21) sampleGroup none true 1 with
  | error e =>
    rw [hg] at hgroup
    cases hgroup
  | ok g =>
    cases hm : evaluationMetrics (twoEvaluations 21) (sampleEvaluation 1) sampleGroup
      none false 1 with
    | error e =>
      rw [hm] at hone
      cases hone
    | ok m =>
      rw [hg] at hgroup
      rw [hm] at hone
      have hrows : (g.evaluations.map fun r =>
          (r.evaluationId, r.scenarios.map fun s => s.submissionsTotal)) = [(1, [1]), (2, [0])] :=
        Except.ok.inj hgroup
      have htotals : (m.scenarios.map fun s => s.submissionsTotal) = [0] := Except.ok.inj hone
      have hagree := h _ hreviews sampleGroup none true false 1
      obtain ⟨-, -, hsame⟩ := hagree.2 (sampleEvaluation 1) hlive rfl m hm
      obtain ⟨row, hrow, hnumbers⟩ := hsame g hg
      have hmem : row ∈ g.evaluations.filter fun r =>
          r.evaluationId = (sampleEvaluation 1).id := by
        rw [hrow]
        exact List.mem_singleton_self row
      have hpair := List.mem_map_of_mem
        (f := fun r : EvaluationMetrics =>
          (r.evaluationId, r.scenarios.map fun s => s.submissionsTotal))
            (List.mem_filter.mp hmem).1
      have hid : row.evaluationId = 1 := of_decide_eq_true (List.mem_filter.mp hmem).2
      rw [hrows, hid, ← hnumbers.scenarios, htotals] at hpair
      simp at hpair

end RedTeaming.Analytics
