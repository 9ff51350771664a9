import RedTeaming.Analytics.Metrics
import RedTeaming.Library.Distinct
import RedTeaming.Library.Listing

/-!
# `RedTeaming.Analytics.Breakdowns`: what each entry of a breakdown counts

One lemma for each breakdown of the metrics. It says what an entry counts among the rows in scope,
with no dictionary and no grouping left. Over the evaluations of a group and over one of them, the
rows in scope of that one are the same (`scopedSubmissions_singleton`,
`scopedMessages_singleton`), so the entries are.
-/

set_option autoImplicit false

namespace RedTeaming.Analytics

open RedTeaming.Annotations RedTeaming.Auth RedTeaming.Conversations RedTeaming.Evaluations
open RedTeaming.Library RedTeaming.Reviews

variable {db : Database} {evalIds : List UUID} {viewer : Option UserId}

/-! ### Submissions -/

/-- How many submissions there are, and how many of each status. -/
def statusCounts (rows : List Submission) : SubmissionMetrics where
  total := rows.length
  pending := rows.countP fun s => s.flag.status = .pending
  approved := rows.countP fun s => s.flag.status = .approved
  rejected := rows.countP fun s => s.flag.status = .rejected

/-- The counted rows of the submission query. -/
def submissionRows (rows : List Submission) : List (SubmissionKey × Nat) :=
  (groupBy submissionKey rows).map fun g => (g.1, g.2.length)

/-- The rows whose key satisfies `p` count the submissions whose key does. -/
theorem sum_submissionRows (rows : List Submission) (p : SubmissionKey → Bool) :
    (((submissionRows rows).filter fun row => p row.1).map fun row => row.2).sum =
      (rows.filter fun s => p (submissionKey s)).length := by
  rw [submissionRows, List.filter_map, List.map_map, ← length_groupBy submissionKey p rows]
  rfl

/-- The statuses folded from the rows whose key satisfies `p` are those of the submissions whose
key does. -/
theorem submissionMetrics_collect (rows : List Submission) (p : SubmissionKey → Bool) :
    submissionMetrics (collect (fun row => some row.1.status) 0 (fun row n => n + row.2) []
      ((submissionRows rows).filter fun row => p row.1)) =
      statusCounts (rows.filter fun s => p (submissionKey s)) := by
  have htotal : ((collect (fun row : SubmissionKey × Nat => some row.1.status) 0
      (fun row n => n + row.2) [] ((submissionRows rows).filter fun row => p row.1)).map
        fun item => item.2).sum = (rows.filter fun s => p (submissionKey s)).length := by
    rw [sum_collect (fun row : SubmissionKey × Nat => row.1.status) (fun n : Nat => n) rfl _
      (fun row => row.2) (fun _ _ => rfl), sum_submissionRows]
    simp
  have hstatus : ∀ status, valueAt (collect (fun row : SubmissionKey × Nat => some row.1.status) 0
      (fun row n => n + row.2) [] ((submissionRows rows).filter fun row => p row.1)) status 0 =
        (rows.filter fun s => p (submissionKey s)).countP fun s => s.flag.status = status := by
    intro status
    have hrows := sum_submissionRows rows fun key => decide (key.status = status) && p key
    rw [valueAt_collect_add, List.countP_eq_length_filter, List.filter_filter, List.filter_filter]
    simp only [Option.some.injEq]
    exact hrows
  unfold submissionMetrics statusCounts
  rw [htotal, hstatus, hstatus, hstatus]

/-- The statuses of a group are those of all submissions in scope. -/
theorem submissionMetrics_groupStatus :
    submissionMetrics (submissionBreakdown db evalIds viewer).groupStatus =
      statusCounts (db.scopedSubmissions evalIds viewer) := by
  have hall := submissionMetrics_collect (db.scopedSubmissions evalIds viewer) fun _ => true
  rw [List.filter_true, List.filter_true] at hall
  exact hall

/-- The statuses of an evaluation are those of its submissions in scope. -/
theorem submissionMetrics_evalStatus (evaluationId : UUID) :
    submissionMetrics
      (valueAt (submissionBreakdown db evalIds viewer).evalStatus evaluationId []) =
      statusCounts ((db.scopedSubmissions evalIds viewer).filter fun s =>
        s.flag.evaluationId = evaluationId) := by
  have hrows := submissionMetrics_collect (db.scopedSubmissions evalIds viewer) fun key =>
    decide (key.evaluationId = evaluationId)
  show submissionMetrics (valueAt (collect (fun row => some row.1.evaluationId) []
    (fun row byStatus => upsert byStatus row.1.status 0 fun n => n + row.2) []
      (submissionRows (db.scopedSubmissions evalIds viewer))) evaluationId []) = _
  rw [valueAt_collect]
  simp only [Option.some.injEq]
  exact hrows

/-- The total of a scenario counts the submissions that name it. -/
theorem valueAt_scenarioTotal (scenarioId : UUID) :
    valueAt (submissionBreakdown db evalIds viewer).scenarioTotal scenarioId 0 =
      ((db.scopedSubmissions evalIds viewer).filter fun s =>
        s.flag.scenarioId = some scenarioId).length := by
  have hrows := sum_submissionRows (db.scopedSubmissions evalIds viewer) fun key =>
    decide (key.scenarioId = some scenarioId)
  show valueAt (collect (fun row => row.1.scenarioId) 0 (fun row n => n + row.2) []
    (submissionRows (db.scopedSubmissions evalIds viewer))) scenarioId 0 = _
  rw [valueAt_collect_add]
  exact hrows

/-- The total of a task counts the submissions that name it. -/
theorem valueAt_taskTotal (taskId : UUID) :
    valueAt (submissionBreakdown db evalIds viewer).taskTotal taskId 0 =
      ((db.scopedSubmissions evalIds viewer).filter fun s =>
        s.flag.taskId = some taskId).length := by
  have hrows := sum_submissionRows (db.scopedSubmissions evalIds viewer) fun key =>
    decide (key.taskId = some taskId)
  show valueAt (collect (fun row => row.1.taskId) 0 (fun row n => n + row.2) []
    (submissionRows (db.scopedSubmissions evalIds viewer))) taskId 0 = _
  rw [valueAt_collect_add]
  exact hrows

/-! ### Days -/

/-- Within one evaluation the grouped days are distinct. -/
theorem nodup_dayKeys (evaluationId : UUID) (rows : List Submission) :
    (((groupBy dayKey rows).filter fun g => g.1.1 = evaluationId).map fun g => g.1.2).Nodup := by
  have hfst : (((groupBy dayKey rows).filter fun g => g.1.1 = evaluationId).map Prod.fst).Nodup :=
    (nodup_keys_groupBy dayKey rows).sublist (List.filter_sublist.map Prod.fst)
  have hsnd := hfst.map_on (f := Prod.snd) fun x hx y hy hday => by
    obtain ⟨g, hg, rfl⟩ := List.mem_map.mp hx
    obtain ⟨g', hg', rfl⟩ := List.mem_map.mp hy
    have heval : g.1.1 = evaluationId := by simpa using (List.mem_filter.mp hg).2
    have heval' : g'.1.1 = evaluationId := by simpa using (List.mem_filter.mp hg').2
    exact Prod.ext (heval.trans heval'.symm) hday
  rwa [List.map_map] at hsnd

/-- The counts of the days among the submissions of an evaluation. -/
theorem valueAt_submissionsByDay (evaluationId : UUID) :
    valueAt (submissionsByDay db evalIds viewer) evaluationId [] =
      ((groupBy dayKey (db.scopedSubmissions evalIds viewer)).filter fun g =>
        g.1.1 = evaluationId).map fun g => (g.1.2, dayCount db evalIds g.2) := by
  let rows := (groupBy dayKey (db.scopedSubmissions evalIds viewer)).map fun g =>
    (g.1, dayCount db evalIds g.2)
  -- The days are distinct, so each write of the loop is under a new day.
  have hdays :
      ((rows.filter fun row => row.1.1 = evaluationId).map fun row => row.1.2).Nodup := by
    rw [List.filter_map, List.map_map]
    exact nodup_dayKeys evaluationId _
  show valueAt (collect (fun row => some row.1.1) []
    (fun row perDay => upsert perDay row.1.2 (0, 0) fun _ => row.2) [] rows) evaluationId [] = _
  rw [valueAt_collect, valueAt_nil]
  simp only [Option.some.injEq]
  have hassign := collect_assign (0, 0) (fun row : (UUID × Date) × DayCount => row.1.2)
    (fun row => row.2) hdays (d := []) fun _ _ => List.not_mem_nil
  refine hassign.trans ?_
  rw [List.nil_append, List.filter_map, List.map_map]
  rfl

/-- The days of an evaluation are distinct. -/
theorem nodup_days_submissionsByDay (evaluationId : UUID) :
    ((valueAt (submissionsByDay db evalIds viewer) evaluationId []).map Prod.fst).Nodup := by
  rw [valueAt_submissionsByDay, List.map_map]
  exact nodup_dayKeys evaluationId _

/-- The keys of the days by evaluation are evaluations in scope, without repetition. -/
theorem keys_submissionsByDay :
    ((submissionsByDay db evalIds viewer).map Prod.fst).Nodup ∧
      ∀ evaluationId ∈ (submissionsByDay db evalIds viewer).map Prod.fst,
        evaluationId ∈ evalIds := by
  unfold submissionsByDay
  constructor
  · apply nodup_keys_collect
    exact List.nodup_nil
  intro evaluationId hmem
  rcases (mem_keys_collect _ _ _).mp hmem with hnil | ⟨row, hrow, heval⟩
  · exact absurd hnil List.not_mem_nil
  · obtain ⟨g, hg, rfl⟩ := List.mem_map.mp hrow
    obtain ⟨s, hs, hkey⟩ := mem_keys_groupBy.mp (List.mem_map_of_mem hg)
    have hsame : s.flag.evaluationId = evaluationId :=
      (congrArg Prod.fst hkey).trans (Option.some.inj heval)
    rw [← hsame]
    exact evaluationId_mem_of_mem_scopedSubmissions hs

/-- The days of an evaluation add up to its submissions, and to the exploited ones among them. -/
theorem sum_valueAt_submissionsByDay (evaluationId : UUID) :
    let days := valueAt (submissionsByDay db evalIds viewer) evaluationId []
    let rows := (db.scopedSubmissions evalIds viewer).filter fun s =>
      s.flag.evaluationId = evaluationId
    (days.map fun item => item.2.1).sum = rows.length ∧
      (days.map fun item => item.2.2).sum =
        rows.countP fun s => hasSuccessfulExploitReview db s.flag (some evalIds) := by
  intro days rows
  have hlength := length_groupBy dayKey (fun key => decide (key.1 = evaluationId))
    (db.scopedSubmissions evalIds viewer)
  have hcount := countP_groupBy dayKey (fun key => decide (key.1 = evaluationId))
    (fun s => hasSuccessfulExploitReview db s.flag (some evalIds))
    (db.scopedSubmissions evalIds viewer)
  simp only [days, valueAt_submissionsByDay, List.map_map]
  exact ⟨hlength, hcount⟩

/-- The days of a group add up to all its submissions. -/
theorem sum_groupDays (hnodup : evalIds.Nodup) :
    ((groupDays (submissionsByDay db evalIds viewer)).map fun item => item.2.1).sum =
      (db.scopedSubmissions evalIds viewer).length := by
  have hcover : ∀ s ∈ db.scopedSubmissions evalIds viewer, s.flag.evaluationId ∈ evalIds :=
    fun s => evaluationId_mem_of_mem_scopedSubmissions
  calc ((groupDays (submissionsByDay db evalIds viewer)).map fun item => item.2.1).sum
      = (((submissionsByDay db evalIds viewer).flatMap fun item => item.2).map fun day =>
          day.2.1).sum := by
        rw [groupDays, sum_collect (fun item : Date × DayCount => item.1)
          (fun count : DayCount => count.1) rfl _ (fun item => item.2.1) (fun _ _ => rfl)]
        exact zero_add _
    _ = ((submissionsByDay db evalIds viewer).map fun item =>
          (item.2.map fun day => day.2.1).sum).sum := sum_flatMap _ _ _
    _ = (evalIds.map fun evaluationId =>
          ((valueAt (submissionsByDay db evalIds viewer) evaluationId []).map fun day =>
            day.2.1).sum).sum :=
        (sum_valueAt keys_submissionsByDay.1 hnodup keys_submissionsByDay.2
          (fun days : List (Date × DayCount) => (days.map fun day => day.2.1).sum) rfl).symm
    _ = (evalIds.map fun evaluationId =>
          ((db.scopedSubmissions evalIds viewer).filter fun s =>
            s.flag.evaluationId = evaluationId).length).sum := by
        congr 1
        apply List.map_congr_left
        intro evaluationId _
        exact (sum_valueAt_submissionsByDay evaluationId).1
    _ = (db.scopedSubmissions evalIds viewer).length :=
        length_fibers (fun s : Submission => s.flag.evaluationId) hnodup hcover

/-- The submissions in scope have distinct flags. -/
theorem nodup_scopedSubmissions :
    ((db.scopedSubmissions evalIds viewer).map fun s => s.flag.id).Nodup := by
  have hflags : ((liveSelect db.flags).map fun flag => flag.id).Nodup :=
    db.flags.nodup.sublist (List.filter_sublist.map _)
  have hall : (db.submissions.map fun s => s.flag.id).Nodup := by
    refine nodup_map_filterMap ?_ hflags
    intro flag s hs
    obtain ⟨conversation, -, rfl⟩ := Option.map_eq_some_iff.mp hs
    rfl
  exact hall.sublist (List.filter_sublist.map _)

/-- The count of exploited submissions counts each once. -/
theorem exploitedSubmissionCount_eq (evaluationId : UUID) :
    exploitedSubmissionCount db evaluationId viewer =
      (db.scopedSubmissions [evaluationId] viewer).countP fun s =>
        hasSuccessfulExploitReview db s.flag none := by
  have hnodup : ((exploitedSubmissions db evaluationId viewer).map fun s => s.flag.id).Nodup :=
    nodup_scopedSubmissions.sublist (List.filter_sublist.map _)
  rw [exploitedSubmissionCount, hnodup.dedup, List.length_map, List.countP_eq_length_filter]
  rfl

/-! ### Reviews, activity, and models -/

/-- The reviews of one evaluation are its part of the reviews of several. -/
theorem scopedReviews_singleton {evaluationId : UUID} (h : evaluationId ∈ evalIds) :
    scopedReviews db [evaluationId] viewer =
      (scopedReviews db evalIds viewer).filter fun review =>
        review.evaluationId = evaluationId :=
  filter_scope_singleton (fun review : Review => review.evaluationId) _ _ h

/-- A review in scope is of one of the evaluations. -/
theorem evaluationId_mem_of_mem_scopedReviews {review : Review}
    (h : review ∈ scopedReviews db evalIds viewer) : review.evaluationId ∈ evalIds := by
  have hscope := (List.mem_filter.mp h).2
  rw [Bool.and_eq_true] at hscope
  exact of_decide_eq_true hscope.1

/-- A conversation in scope is of one of the evaluations. -/
theorem evaluationId_mem_of_mem_scopedConversations {c : Conversation}
    (h : c ∈ scopedConversations db evalIds viewer) : c.evaluationId ∈ evalIds := by
  have hscope := (List.mem_filter.mp h).2
  rw [Bool.and_eq_true] at hscope
  exact of_decide_eq_true hscope.1

/-- The conversations of one evaluation are its part of the conversations of several. -/
theorem scopedConversations_singleton {evaluationId : UUID} (h : evaluationId ∈ evalIds) :
    scopedConversations db [evaluationId] viewer =
      (scopedConversations db evalIds viewer).filter fun c => c.evaluationId = evaluationId :=
  filter_scope_singleton (fun c : Conversation => c.evaluationId) _ _ h

/-- The assignments of one evaluation are its part of the assignments of several. -/
theorem scopedAssignments_singleton {evaluationId : UUID} (h : evaluationId ∈ evalIds) :
    scopedAssignments db [evaluationId] =
      (scopedAssignments db evalIds).filter fun a => a.evaluationId = evaluationId := by
  have hscope := filter_scope_singleton (fun a : EvaluationAiModel => a.evaluationId)
    (fun _ => true) (liveSelect db.assignments) h
  simp only [Bool.and_true] at hscope
  exact hscope

/-- The tallies of an evaluation are those of its reviews in scope. -/
theorem valueAt_reviewBreakdown (evaluationId : UUID) :
    valueAt (reviewBreakdown db evalIds viewer) evaluationId zeroReviews =
      reviewMetrics ((scopedReviews db evalIds viewer).filter fun review =>
        review.evaluationId = evaluationId) :=
  valueAt_aggregate _ _ reviewMetrics evaluationId

/-- The conversations of an evaluation in scope. -/
theorem valueAt_conversations (evaluationId : UUID) :
    valueAt (activityBreakdown db evalIds viewer).1 evaluationId 0 =
      ((scopedConversations db evalIds viewer).filter fun c =>
        c.evaluationId = evaluationId).length :=
  valueAt_aggregate _ _ List.length evaluationId

/-- The messages of an evaluation in scope. -/
theorem valueAt_messages (evaluationId : UUID) :
    valueAt (activityBreakdown db evalIds viewer).2 evaluationId 0 =
      ((db.scopedMessages evalIds viewer).filter fun m =>
        m.conversation.evaluationId = evaluationId).length :=
  valueAt_aggregate _ _ List.length evaluationId

/-- The live assignments of an evaluation. -/
theorem valueAt_modelsBreakdown (evaluationId : UUID) :
    valueAt (modelsBreakdown db evalIds) evaluationId 0 =
      ((scopedAssignments db evalIds).filter fun a => a.evaluationId = evaluationId).length :=
  valueAt_aggregate _ _ List.length evaluationId

/-! ### Tokens -/

/-- The spend by key of measured messages. -/
def spendBy {κ : Type} [DecidableEq κ] (key : LiveMessage → κ) (measured : List Measured) :
    List (κ × TokenMetrics) :=
  (groupBy (fun row => key row.source) measured).map fun g =>
    (g.1, tokenMetrics (tokenAggregates g.2))

/-- The spend of a key is that of the messages with the key. -/
theorem valueAt_spendBy {κ : Type} [DecidableEq κ] (key : LiveMessage → κ)
    (measured : List Measured) (k : κ) :
    valueAt (spendBy key measured) k zeroTokens =
      tokenMetrics (tokenAggregates (measured.filter fun row => key row.source = k)) :=
  valueAt_aggregate _ _ (fun rows => tokenMetrics (tokenAggregates rows)) k

/-- A breakdown that returns has measured every message in scope, and sorts the spend by
evaluation and by scenario. -/
theorem spendBy_of_tokenBreakdown
    {totals : List (UUID × TokenMetrics) × List (UUID × TokenMetrics)}
    (h : tokenBreakdown db evalIds viewer = .ok totals) :
    ∃ measured, (db.scopedMessages evalIds viewer).mapM measure = .ok measured ∧
      totals = (spendBy (fun m => m.conversation.evaluationId) measured,
        spendBy (fun m => m.conversation.scenarioId) measured) := by
  obtain ⟨evalRows, hevals, h⟩ := bind_eq_ok.mp h
  obtain ⟨scenarioRows, hscenarios, h⟩ := bind_eq_ok.mp h
  obtain ⟨measured, hmeasured, rfl⟩ := liveMessageTokens_eq_ok.mp hevals
  obtain ⟨measured', hmeasured', rfl⟩ := liveMessageTokens_eq_ok.mp hscenarios
  have hsame : measured' = measured := Except.ok.inj (hmeasured'.symm.trans hmeasured)
  subst hsame
  cases h
  refine ⟨measured', hmeasured, ?_⟩
  rw [List.map_map, List.map_map]
  rfl

/-- Measuring some of the messages gives some of the measured ones. -/
theorem mapM_measure_filter {rows : List LiveMessage} {measured : List Measured}
    (h : rows.mapM measure = .ok measured) (p : LiveMessage → Bool) :
    (rows.filter p).mapM measure = .ok (measured.filter fun row => p row.source) :=
  mapM_filter (fun row m hm => by rw [(measure_eq_ok.mp hm).1]) h

/-- A measured message is one of the messages. -/
theorem source_mem_of_mapM_measure {rows : List LiveMessage} {measured : List Measured}
    (h : rows.mapM measure = .ok measured) {row : Measured} (hrow : row ∈ measured) :
    row.source ∈ rows := by
  obtain ⟨source, hsource, hrow⟩ := exists_of_mem_mapM h hrow
  rw [(measure_eq_ok.mp hrow).1]
  exact hsource

/-! ### Scenarios and tasks -/

/-- The live scenarios of an evaluation, in order. -/
def scenariosOf (db : Database) (evaluationId : UUID) : List Scenario :=
  orderBy scenarioLe ((liveSelect db.scenarios).filter fun s => s.evaluationId = evaluationId)

/-- The live tasks of a scenario, in order. -/
def tasksOf (db : Database) (scenarioId : UUID) : List Task :=
  orderBy taskLe ((liveSelect db.tasks).filter fun t => t.scenarioId = scenarioId)

theorem scenarioLe_trans (a b c : Scenario) (hab : scenarioLe a b) (hbc : scenarioLe b c) :
    scenarioLe a c := by
  simp only [scenarioLe, Bool.or_eq_true, Bool.and_eq_true, decide_eq_true_eq] at hab hbc ⊢
  grind

theorem scenarioLe_total (a b : Scenario) : scenarioLe a b || scenarioLe b a := by
  simp only [scenarioLe, Bool.or_eq_true, Bool.and_eq_true, decide_eq_true_eq]
  grind

theorem taskLe_trans (a b c : Task) (hab : taskLe a b) (hbc : taskLe b c) : taskLe a c := by
  simp only [taskLe, Bool.or_eq_true, Bool.and_eq_true, decide_eq_true_eq] at hab hbc ⊢
  grind

theorem taskLe_total (a b : Task) : taskLe a b || taskLe b a := by
  simp only [taskLe, Bool.or_eq_true, Bool.and_eq_true, decide_eq_true_eq]
  grind

/-- An evaluation in scope has its live scenarios. -/
theorem valueAt_byEvaluation {evaluationId : UUID} (h : evaluationId ∈ evalIds) :
    valueAt (byEvaluation (scenarioStructure db evalIds).1) evaluationId [] =
      scenariosOf db evaluationId := by
  unfold byEvaluation
  rw [valueAt_collect_append]
  show (orderBy scenarioLe ((liveSelect db.scenarios).filter fun s =>
    decide (s.evaluationId ∈ evalIds))).filter _ = _
  rw [filter_orderBy scenarioLe_trans scenarioLe_total, List.filter_filter, scenariosOf]
  congr 1
  apply List.filter_congr
  intro s _
  by_cases hs : s.evaluationId = evaluationId <;> simp [hs, h]

/-- A live scenario of an evaluation in scope has its live tasks. -/
theorem valueAt_byScenario {evaluationId : UUID} (h : evaluationId ∈ evalIds)
    {scenario : Scenario} (hscenario : scenario ∈ scenariosOf db evaluationId) :
    valueAt (byScenario (scenarioStructure db evalIds).2) scenario.id [] =
      tasksOf db scenario.id := by
  have hmem : scenario.id ∈ (scenarioStructure db evalIds).1.map fun s => s.id := by
    have hrow := List.mem_filter.mp (mem_orderBy.mp hscenario)
    have heval : scenario.evaluationId = evaluationId := by simpa using hrow.2
    apply List.mem_map_of_mem
    rw [scenarioStructure, mem_orderBy, List.mem_filter]
    exact ⟨hrow.1, by simpa [heval] using h⟩
  unfold byScenario
  rw [valueAt_collect_append]
  show (orderBy taskLe ((liveSelect db.tasks).filter fun t =>
    decide (t.scenarioId ∈ (scenarioStructure db evalIds).1.map fun s => s.id))).filter _ = _
  rw [filter_orderBy taskLe_trans taskLe_total, List.filter_filter, tasksOf]
  congr 1
  apply List.filter_congr
  intro t _
  by_cases ht : t.scenarioId = scenario.id
  · simp [ht, hmem]
  · simp [ht]

end RedTeaming.Analytics
