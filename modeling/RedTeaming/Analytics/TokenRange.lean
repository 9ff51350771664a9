import Mathlib.Algebra.Order.BigOperators.Group.List
import RedTeaming.Analytics.Agreement

/-!
# `RedTeaming.Analytics.TokenRange`: which values the token queries can compute

PostgreSQL raises on a value outside the range of its type, and a query that raises takes the
whole read down. `usageInt` guards each field of a usage report, so a field always is a `bigint`.
The total of a message is not guarded: where no total is reported it is the sum of two fields, and
the sum of two values of type `bigint` need not be one. `TotalFits` says that it is.

The main result is `token_aggregation_in_range`: the aggregation over some rows stays in range
exactly when the total of each row fits, and no group counts more rows than a `bigint` can. The
dashboards answer exactly when the totals of the messages that they measure fit.
-/

set_option autoImplicit false

namespace RedTeaming.Analytics

open RedTeaming.Auth RedTeaming.Evaluations RedTeaming.Library

/-- The digits of a `numeric` before the point. -/
def numericDigits : Nat := 131072

/-- The bound of `numeric`. -/
def numericBound : Nat := 10 ^ numericDigits

/-- The total of a message is a `bigint`: a total other than zero is reported, or the other two
counts add up to one. -/
def TotalFits (extra : JsonObject) : Prop :=
  (∃ total, usageInt "total_tokens" extra = some total ∧ total ≠ 0) ∨
    (usageInt "prompt_tokens" extra).getD 0 +
      (usageInt "completion_tokens" extra).getD 0 ≤ bigintMax

/-- Each column of the aggregates is in the range of its type: the sums are `numeric`, and the
counts are `bigint`. -/
structure TokenAggregates.Fit (a : TokenAggregates) : Prop where
  promptTokens : a.promptTokens < numericBound
  completionTokens : a.completionTokens < numericBound
  totalTokens : a.totalTokens < numericBound
  messagesWithUsage : a.messagesWithUsage ≤ bigintMax
  conversationsWithUsage : a.conversationsWithUsage ≤ bigintMax

/-- Every value that the aggregation of the rows computes is in the range of its type. -/
structure InRange {κ : Type} [DecidableEq κ] (key : LiveMessage → κ) (rows : List LiveMessage) :
    Prop where
  /-- A field of a usage report is a `bigint`. -/
  fields : ∀ row ∈ rows, ∀ field n, usageInt field row.message.extra = some n → n ≤ bigintMax
  /-- The total of a message is one. -/
  totals : ∀ row ∈ rows, ∃ total ≤ bigintMax, messageTotalTokens row.message.extra = .ok total
  /-- The query answers, and each column fits. -/
  aggregates : ∃ rows', liveMessageTokens key rows = .ok rows' ∧ ∀ row ∈ rows', row.2.Fit

/-- The messages with usage of one key. -/
def usedOf {κ : Type} [DecidableEq κ] (key : LiveMessage → κ) (k : κ) (rows : List LiveMessage) :
    List LiveMessage :=
  rows.filter fun row => decide (key row = k) && hasUsage row.message.extra

/-! ### One message -/

/-- A number up to the largest `bigint` rounds to a `bigint`, the half above included: the bound
itself is whole. -/
theorem numericToBigint_le {q : Rat} (h : q ≤ bigintMax) : numericToBigint q ≤ bigintMax := by
  have hfloor : ⌊q + 1 / 2⌋ < (bigintMax : Int) + 1 := by
    rw [Int.floor_lt]
    push_cast
    linarith
  unfold numericToBigint
  omega

/-- A field of a usage report is a `bigint`, whatever the provider reported. -/
theorem usageInt_le {field : String} {extra : JsonObject} {n : Nat}
    (h : usageInt field extra = some n) : n ≤ bigintMax := by
  unfold usageInt at h
  split at h
  · split at h
    · split at h
      · rename_i hrange
        cases h
        exact numericToBigint_le hrange.2
      · cases h
    · cases h
  · cases h

/-- A field that reads as NULL counts as zero. -/
theorem usageInt_getD_le (field : String) (extra : JsonObject) :
    (usageInt field extra).getD 0 ≤ bigintMax := by
  cases h : usageInt field extra with
  | none => exact Nat.zero_le _
  | some n => exact usageInt_le h

/-- The total of a message is computed exactly when it fits. -/
theorem messageTotalTokens_isOk {extra : JsonObject} :
    (∃ total, messageTotalTokens extra = .ok total) ↔ TotalFits extra := by
  unfold messageTotalTokens TotalFits
  cases hreported : (usageInt "total_tokens" extra).filter (· ≠ 0) with
  | some total =>
    obtain ⟨htotal, hne⟩ := Option.filter_eq_some_iff.mp hreported
    have hreport : usageInt "total_tokens" extra = some total ∧ total ≠ 0 :=
      ⟨htotal, of_decide_eq_true hne⟩
    exact ⟨fun _ => .inl ⟨total, hreport⟩, fun _ => ⟨total, rfl⟩⟩
  | none =>
    have hunreported : ¬ ∃ total, usageInt "total_tokens" extra = some total ∧ total ≠ 0 := by
      rintro ⟨total, htotal, hne⟩
      rw [htotal, Option.filter_some, if_pos (by simpa using hne)] at hreported
      cases hreported
    -- Only the sum of the two counts is left.
    simp only [bigintAdd, hunreported, false_or]
    split
    · rename_i hfits
      exact ⟨fun _ => hfits, fun _ => ⟨_, rfl⟩⟩
    · rename_i hover
      exact ⟨fun ⟨_, h⟩ => (nomatch h), fun hfits => absurd hfits hover⟩

/-- A total that is computed is a `bigint`. -/
theorem messageTotalTokens_le {extra : JsonObject} {total : Nat}
    (h : messageTotalTokens extra = .ok total) : total ≤ bigintMax := by
  unfold messageTotalTokens at h
  split at h
  · rename_i reported hreported
    cases h
    exact usageInt_le (Option.filter_eq_some_iff.mp hreported).1
  · unfold bigintAdd at h
    split at h
    · rename_i hfits
      cases h
      exact hfits
    · cases h

/-- A message is measured exactly when its total fits. -/
theorem measure_isOk {row : LiveMessage} :
    (∃ m, measure row = .ok m) ↔ TotalFits row.message.extra := by
  rw [← messageTotalTokens_isOk]
  constructor
  · rintro ⟨m, hm⟩
    exact ⟨m.total, (measure_eq_ok.mp hm).2⟩
  · rintro ⟨total, htotal⟩
    exact ⟨⟨row, total⟩, measure_eq_ok.mpr ⟨rfl, htotal⟩⟩

/-- A list of messages is measured exactly when the total of each one fits. -/
theorem mapM_measure_isOk {rows : List LiveMessage} :
    (∃ measured, rows.mapM measure = .ok measured) ↔ ∀ row ∈ rows,
    TotalFits row.message.extra := by
  rw [mapM_isOk]
  exact forall₂_congr fun row _ => measure_isOk

/-! ### The aggregates of some messages -/

section
variable {κ : Type} [DecidableEq κ] {key : LiveMessage → κ} {rows : List LiveMessage}

/-- The sum of as many values of type `bigint` as a `bigint` can count is far below the bound of
`numeric`. -/
theorem sum_lt_numericBound {values : List Nat} (hlength : values.length ≤ bigintMax)
    (h : ∀ n ∈ values, n ≤ bigintMax) : values.sum < numericBound := by
  have hsquare : bigintMax * bigintMax < 10 ^ 39 := by decide
  calc values.sum ≤ values.length * bigintMax := List.sum_le_card_nsmul values bigintMax h
    _ ≤ bigintMax * bigintMax := Nat.mul_le_mul_right _ hlength
    _ < 10 ^ 39 := hsquare
    _ ≤ numericBound := Nat.pow_le_pow_right (by decide) (by decide)

/-- Measured messages are the messages. -/
theorem map_source_of_mapM_measure {measured : List Measured}
    (h : rows.mapM measure = .ok measured) : (measured.map fun row => row.source) = rows := by
  induction rows generalizing measured with
  | nil =>
    cases h
    rfl
  | cons row rows ih =>
    rw [List.mapM_cons, bind_eq_ok] at h
    obtain ⟨m, hm, h⟩ := h
    obtain ⟨rest, hrest, h⟩ := bind_eq_ok.mp h
    cases h
    rw [List.map_cons, (measure_eq_ok.mp hm).1, ih hrest]

/-- A group counts its messages with usage. -/
theorem messagesWithUsage_eq {measured : List Measured} (h : rows.mapM measure = .ok measured)
    (k : κ) :
    (tokenAggregates (measured.filter fun row => key row.source = k)).messagesWithUsage =
      (usedOf key k rows).length := by
  rw [← map_source_of_mapM_measure h]
  show ((measured.filter _).filter fun row => hasUsage row.source.message.extra).length = _
  rw [usedOf, List.filter_map, List.length_map, List.filter_filter]
  congr 1
  apply List.filter_congr
  intro row _
  exact Bool.and_comm _ _

/-- The aggregates of a group fit exactly when a `bigint` can count its messages with usage. -/
theorem fit_iff {measured : List Measured} (h : rows.mapM measure = .ok measured) (k : κ) :
    (tokenAggregates (measured.filter fun row => key row.source = k)).Fit ↔
      (usedOf key k rows).length ≤ bigintMax := by
  rw [← messagesWithUsage_eq h k]
  constructor
  · exact fun hfit => hfit.messagesWithUsage
  · intro hcount
    have hsum : ∀ value : Measured → Nat,
        (∀ row ∈ measured, value row ≤ bigintMax) →
        (((measured.filter fun row => key row.source = k).filter fun row =>
          hasUsage row.source.message.extra).map value).sum < numericBound := by
      intro value hvalue
      apply sum_lt_numericBound
      · rw [List.length_map]
        exact hcount
      · intro n hn
        obtain ⟨row, hrow, rfl⟩ := List.mem_map.mp hn
        exact hvalue row (List.mem_filter.mp (List.mem_filter.mp hrow).1).1
    exact {
      promptTokens := hsum _ fun row _ => usageInt_getD_le _ _
      completionTokens := hsum _ fun row _ => usageInt_getD_le _ _
      totalTokens := hsum _ fun row hrow => by
        obtain ⟨source, -, hm⟩ := exists_of_mem_mapM h hrow
        exact messageTotalTokens_le (measure_eq_ok.mp hm).2
      messagesWithUsage := hcount
      -- A conversation with usage has a message with usage.
      conversationsWithUsage :=
        ((List.dedup_sublist _).length_le.trans (List.length_map _).le).trans hcount }

/-- A query answers exactly when the total of each message fits. -/
theorem liveMessageTokens_isOk :
    (∃ totals, liveMessageTokens key rows = .ok totals) ↔
      ∀ row ∈ rows, TotalFits row.message.extra := by
  rw [← mapM_measure_isOk]
  constructor
  · rintro ⟨totals, htotals⟩
    obtain ⟨measured, hmeasured, _⟩ := liveMessageTokens_eq_ok.mp htotals
    exact ⟨measured, hmeasured⟩
  · rintro ⟨measured, hmeasured⟩
    exact ⟨_, liveMessageTokens_eq_ok.mpr ⟨measured, hmeasured, rfl⟩⟩

/-- The aggregation stays in range exactly when every total fits and every group can be
counted. -/
theorem inRange_iff :
    InRange key rows ↔ (∀ row ∈ rows, TotalFits row.message.extra) ∧
      ∀ k, (usedOf key k rows).length ≤ bigintMax := by
  constructor
  · intro h
    obtain ⟨totals, htotals, hfit⟩ := h.aggregates
    refine ⟨liveMessageTokens_isOk.mp ⟨totals, htotals⟩, ?_⟩
    intro k
    obtain ⟨measured, hmeasured, rfl⟩ := liveMessageTokens_eq_ok.mp htotals
    -- A key of the rows has a group, and a key of no row has no message to count.
    by_cases hk : ∃ row ∈ measured, key row.source = k
    · obtain ⟨⟨_, group⟩, hgroup, rfl⟩ := List.mem_map.mp (mem_keys_groupBy.mpr hk)
      have hg := mem_groupBy hgroup
      have hrow := hfit _ (List.mem_map_of_mem hgroup)
      rw [hg] at hrow
      exact (fit_iff hmeasured _).mp hrow
    · have hnone : (usedOf key k rows).length = 0 := by
        rw [List.length_eq_zero_iff, usedOf, List.filter_eq_nil_iff]
        intro row hrow hused
        rw [← map_source_of_mapM_measure hmeasured] at hrow
        obtain ⟨m, hm, rfl⟩ := List.mem_map.mp hrow
        exact hk ⟨m, hm, of_decide_eq_true (Bool.and_eq_true _ _ ▸ hused).1⟩
      omega
  · rintro ⟨htotals, hcounts⟩
    obtain ⟨measured, hmeasured⟩ := mapM_measure_isOk.mpr htotals
    refine ⟨fun row _ field n => usageInt_le, ?_, _, liveMessageTokens_eq_ok.mpr
      ⟨measured, hmeasured, rfl⟩, ?_⟩
    · intro row hrow
      obtain ⟨total, htotal⟩ := messageTotalTokens_isOk.mpr (htotals row hrow)
      exact ⟨total, messageTotalTokens_le htotal, htotal⟩
    · intro a ha
      obtain ⟨⟨k, group⟩, hgroup, rfl⟩ := List.mem_map.mp ha
      show (tokenAggregates group).Fit
      rw [mem_groupBy hgroup]
      exact (fit_iff hmeasured k).mpr (hcounts k)

end

/-! ### The dashboards -/

section
variable {db : Database} {viewer : Option UserId}

/-- The breakdown by evaluation and scenario answers exactly when the totals in scope fit. -/
theorem tokenBreakdown_isOk {evalIds : List UUID} :
    (∃ totals, tokenBreakdown db evalIds viewer = .ok totals) ↔
      ∀ m ∈ db.scopedMessages evalIds viewer, TotalFits m.message.extra := by
  constructor
  · rintro ⟨totals, htotals⟩
    obtain ⟨measured, hmeasured, _⟩ := spendBy_of_tokenBreakdown htotals
    exact mapM_measure_isOk.mp ⟨measured, hmeasured⟩
  · intro hfits
    obtain ⟨evalRows, hevals⟩ := (@liveMessageTokens_isOk _ _
      (fun m => m.conversation.evaluationId) _).mpr hfits
    obtain ⟨scenarioRows, hscenarios⟩ := (@liveMessageTokens_isOk _ _
      (fun m => m.conversation.scenarioId) _).mpr hfits
    exact ⟨_, bind_eq_ok.mpr ⟨evalRows, hevals, bind_eq_ok.mpr ⟨scenarioRows, hscenarios, rfl⟩⟩⟩

/-- The breakdown by model measures messages in scope only. -/
theorem servedTokensByModel_isOk {evalIds : List UUID} {withheld : Bool}
    (hfits : ∀ m ∈ db.scopedMessages evalIds viewer, TotalFits m.message.extra) :
    ∃ rows, servedTokensByModel db evalIds viewer withheld = .ok rows := by
  unfold servedTokensByModel
  split
  · exact ⟨[], rfl⟩
  · have hmeasured : ∀ row ∈ (db.scopedMessages evalIds viewer).filterMap (fun m =>
        (db.assignments.find? m.conversation.evaluationAiModelId).map fun a => (m, a.modelId)),
        ∃ r, (·, row.2) <$> measure row.1 = .ok r := by
      intro row hrow
      obtain ⟨m, hm, hrow⟩ := List.mem_filterMap.mp hrow
      obtain ⟨a, -, rfl⟩ := Option.map_eq_some_iff.mp hrow
      obtain ⟨r, hr⟩ := measure_isOk.mpr (hfits m hm)
      exact ⟨_, map_eq_ok.mpr ⟨r, hr, rfl⟩⟩
    obtain ⟨measured, hrows⟩ := mapM_isOk.mpr hmeasured
    exact ⟨_, bind_eq_ok.mpr ⟨measured, hrows, rfl⟩⟩

/-- The messages that the dashboard of an evaluation measures: those in scope, and those of the
conversations with an exploit in scope. -/
def measuredMessages (db : Database) (evaluationId : UUID) (viewer : Option UserId) :
    List LiveMessage :=
  db.scopedMessages [evaluationId] viewer ++ db.liveMessages.filter fun m =>
    decide (m.turn.conversationId ∈
      (firstExploits db evaluationId viewer).map fun row => row.1.conversation.id)

/-- The distribution by prompt count answers exactly when the totals of the exploited
conversations fit. -/
theorem exploitsByPromptCount_isOk {evaluationId : UUID} :
    (∃ buckets, exploitsByPromptCount db evaluationId viewer = .ok buckets) ↔
      ∀ m ∈ db.liveMessages.filter (fun m => decide (m.turn.conversationId ∈
        (firstExploits db evaluationId viewer).map fun row => row.1.conversation.id)),
        TotalFits m.message.extra := by
  rw [← @liveMessageTokens_isOk _ _ fun m => (m.turn.conversationId, m.turn.turnIndex)]
  constructor
  · rintro ⟨buckets, hbuckets⟩
    obtain ⟨spend, hspend, _⟩ := bind_eq_ok.mp hbuckets
    exact ⟨spend, hspend⟩
  · rintro ⟨spend, hspend⟩
    exact ⟨_, bind_eq_ok.mpr ⟨spend, hspend, rfl⟩⟩

/-- The spend by assignment answers where the totals in scope fit. -/
theorem tokensByModel_isOk {evaluationId : UUID} {assignments : List LiveAssignment} {mask : Bool}
    (hfits : ∀ m ∈ db.scopedMessages [evaluationId] viewer, TotalFits m.message.extra) :
    ∃ rows, tokensByModel db evaluationId assignments viewer mask = .ok rows := by
  obtain ⟨rows, hrows⟩ := (@liveMessageTokens_isOk _ _
    (fun m => m.conversation.evaluationAiModelId) _).mpr hfits
  exact ⟨_, bind_eq_ok.mpr ⟨rows, hrows, rfl⟩⟩

/-- The dashboard of a group answers exactly when the totals in scope fit. -/
theorem evaluationGroupMetrics_isOk {group : EvaluationGroup} {access : Bool} {today : Date} :
    (∃ g, evaluationGroupMetrics db group viewer access today = .ok g) ↔
      ∀ m ∈ db.scopedMessages (groupIds db group.id) viewer, TotalFits m.message.extra := by
  constructor
  · rintro ⟨g, hg⟩
    obtain ⟨totals, htotals, _⟩ := bind_eq_ok.mp hg
    exact tokenBreakdown_isOk.mp ⟨totals, htotals⟩
  · intro hfits
    obtain ⟨totals, htotals⟩ := tokenBreakdown_isOk.mpr hfits
    obtain ⟨rows, hrows⟩ := @servedTokensByModel_isOk db viewer (groupIds db group.id)
      ((groupEvaluations db group.id).any (fun e => e.maskModelsEnabled) && !access) hfits
    exact ⟨_, bind_eq_ok.mpr ⟨totals, htotals, bind_eq_ok.mpr ⟨rows, hrows, rfl⟩⟩⟩

/-- The dashboard of an evaluation answers for its own group exactly when the totals that it
measures fit. -/
theorem evaluationMetrics_isOk {evaluation : Evaluation} {group : EvaluationGroup} {mask : Bool}
    {today : Date} :
    (∃ m, evaluationMetrics db evaluation group viewer mask today = .ok m) ↔
      group.id = evaluation.evaluationGroupId ∧
        ∀ m ∈ measuredMessages db evaluation.id viewer, TotalFits m.message.extra := by
  constructor
  · rintro ⟨m, hm⟩
    obtain ⟨_, hparent, hm⟩ := bind_eq_ok.mp hm
    obtain ⟨totals, htotals, hm⟩ := bind_eq_ok.mp hm
    obtain ⟨buckets, hbuckets, _⟩ := bind_eq_ok.mp hm
    refine ⟨by simpa using hparent, ?_⟩
    intro m hm
    rcases List.mem_append.mp hm with hm | hm
    · exact tokenBreakdown_isOk.mp ⟨totals, htotals⟩ m hm
    · exact exploitsByPromptCount_isOk.mp ⟨buckets, hbuckets⟩ m hm
  · rintro ⟨hparent, hfits⟩
    have hscope : ∀ m ∈ db.scopedMessages [evaluation.id] viewer, TotalFits m.message.extra :=
      fun m hm => hfits m (List.mem_append_left _ hm)
    obtain ⟨totals, htotals⟩ := tokenBreakdown_isOk.mpr hscope
    obtain ⟨buckets, hbuckets⟩ := exploitsByPromptCount_isOk.mpr
      fun m hm => hfits m (List.mem_append_right _ hm)
    obtain ⟨rows, hrows⟩ := @tokensByModel_isOk db viewer evaluation.id
      (liveAssignments db evaluation.id) mask hscope
    have hgroup : check (group.id == evaluation.evaluationGroupId) (.runtimeError ("Group "
        ++ toString group.id ++ " is not the parent of evaluation " ++ toString evaluation.id
        ++ ".")) = .ok () := check_eq_ok.mpr (by simpa using hparent)
    exact ⟨_, bind_eq_ok.mpr ⟨(), hgroup, bind_eq_ok.mpr ⟨totals, htotals,
      bind_eq_ok.mpr ⟨buckets, hbuckets, bind_eq_ok.mpr ⟨rows, hrows, rfl⟩⟩⟩⟩⟩

end

/-- The aggregation over some messages stays in range exactly when each total fits and each group
can be counted. The dashboards answer exactly when the totals that they measure fit. -/
theorem token_aggregation_in_range {κ : Type} [DecidableEq κ] (key : LiveMessage → κ)
    (rows : List LiveMessage) (db : Database) (group : EvaluationGroup) (evaluation : Evaluation)
    (viewer : Option UserId) (access mask : Bool) (today : Date) :
    (InRange key rows ↔ (∀ row ∈ rows, TotalFits row.message.extra) ∧
      ∀ k, (usedOf key k rows).length ≤ bigintMax) ∧
    ((∃ g, evaluationGroupMetrics db group viewer access today = .ok g) ↔
      ∀ m ∈ db.scopedMessages (groupIds db group.id) viewer, TotalFits m.message.extra) ∧
    ((∃ m, evaluationMetrics db evaluation group viewer mask today = .ok m) ↔
      group.id = evaluation.evaluationGroupId ∧
        ∀ m ∈ measuredMessages db evaluation.id viewer, TotalFits m.message.extra) :=
  ⟨inRange_iff, evaluationGroupMetrics_isOk, evaluationMetrics_isOk⟩

/-- A report of two counts whose sum is no `bigint`, without a total. -/
def overflowingReport : JsonObject :=
  [("usage", .obj [("prompt_tokens", .num (2 ^ 63 - 1)), ("completion_tokens", .num 1)])]

/-- The group with two evaluations, where the only message carries that report. -/
def overflowing : Database :=
  { twoEvaluations 22 with
    messages := ⟨[{ id := 91, createdAt := 0, turnId := 81, extra := overflowingReport }], by
      simp⟩ }

/-- One stored message takes the dashboard of its group down, and that of its evaluation. -/
theorem two_counts_overflow :
    (¬ ∀ (key : LiveMessage → UUID) (rows : List LiveMessage), InRange key rows) ∧
      (evaluationGroupMetrics overflowing sampleGroup none true 1).isOk = false ∧
      (evaluationMetrics overflowing (sampleEvaluation 2) sampleGroup none false 1).isOk =
      false := by
  refine ⟨?_, by decide +kernel, by decide +kernel⟩
  intro h
  have hrange := h (fun m => m.conversation.evaluationId) (overflowing.scopedMessages [2] none)
  obtain ⟨totals, htotals, _⟩ := hrange.aggregates
  have hraises : (liveMessageTokens (fun m => m.conversation.evaluationId)
      (overflowing.scopedMessages [2] none)).isOk = false := by decide +kernel
  rw [htotals] at hraises
  cases hraises

end RedTeaming.Analytics
