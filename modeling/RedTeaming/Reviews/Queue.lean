import RedTeaming.Library.Grouping
import RedTeaming.Library.Joins
import RedTeaming.Reviews.Services

/-!
# `RedTeaming.Reviews.Queue`: the submissions that await review

`review_queue` of `core/reviews/services/reviews.py`. One statement selects the page: it counts
the completed reviews of a flag in a subquery, and joins the scenario for what the flag requires.
The projection loads the reviews and the scenarios of the page, and counts again.

`completedOf` and `requiredBy` say what is counted and required. `review_queue_agrees` says that
the statement and the projection both compute these, that the queue is the flags that fall short,
and that each flag has one place in it.
-/

set_option autoImplicit false

namespace RedTeaming.Reviews

open RedTeaming.Evaluations (Context Scenario)
open RedTeaming.Library

/-- `ReviewQueueFilters`. -/
structure ReviewQueueFilters where
  evaluationId : Option UUID := none
  evaluationGroupId : Option UUID := none
  scenarioId : Option UUID := none
  unassigned : Bool := false

/-- A flag of the queue, with what it requires, what is completed, and its reviews. -/
structure QueueEntry where
  flag : Submission
  requiredReviews : Nat
  completedReviews : Nat
  reviews : List Assignment

/-- `_COMPLETED_STATUSES`. -/
def completedStatuses : List ReviewStatus := [.approved, .rejected]

/-- `coalesce(scenario.required_reviews, 1)`. -/
def coalesceRequired (scenario : Option Scenario) : Nat :=
  (scenario.map (·.requiredReviews)).getD 1

/-- `ORDER BY created_at DESC, id`. -/
def newestFirst : Submission → Submission → Bool :=
  byKey (fun flag => OrderDual.toDual flag.createdAt) fun flag flag' =>
    decide (flag.id ≤ flag'.id)

/-- `ORDER BY created_at, id`. -/
def oldestFirst : Assignment → Assignment → Bool :=
  byKey (·.createdAt) fun review review' => decide (review.id ≤ review'.id)

section
variable (db : Database) (ctx : Context) (filters : ReviewQueueFilters)

/-! ### The statement -/

/-- `completed`: the live reviews of the flag that carry a verdict. -/
def completedCount (flag : Submission) : Nat :=
  db.reviews.rows.countP fun review =>
    review.messageFlagId == flag.id && live review && completedStatuses.contains review.status

/-- A live review points at the flag. -/
def isReviewed (flag : Submission) : Bool :=
  db.reviews.rows.any fun review => review.messageFlagId == flag.id && live review

/-- The filters of the request. -/
def ReviewQueueFilters.keeps (flag : Submission) : Bool :=
  filters.evaluationId.all (flag.evaluationId == ·) &&
    filters.evaluationGroupId.all (flag.evaluationGroupId == ·) &&
      filters.scenarioId.all (flag.scenarioId == some ·) &&
        (!filters.unassigned || !isReviewed db flag)

/-- The condition of the outer join: the live scenario of the flag. -/
def ofScenario (flag : Submission) (scenario : Scenario) : Bool :=
  flag.scenarioId == some scenario.id && live scenario

/-- The rows of the outer join: the live flags in scope, with their scenarios. -/
def joinedFlags : List (Submission × Option Scenario) :=
  leftJoin ofScenario ((liveSelect db.flags).filter (scopeReviewFlags db ctx))
    db.base.scenarios.rows

/-- `WHERE`: the filters, and fewer completed reviews than required. -/
def awaits (row : Submission × Option Scenario) : Bool :=
  filters.keeps db row.1 && decide (completedCount db row.1 < coalesceRequired row.2)

/-- A page of the statement. -/
def awaitingPage (limit offset : Nat) : Page Submission :=
  ListQuery.page { le := newestFirst, limit, offset }
    (((joinedFlags db ctx).filter (awaits db filters)).map Prod.fst)

/-! ### The projection -/

/-- `reviews_by_flag`: the live reviews of the flags, by flag. -/
def reviewsByFlag (flags : List Submission) : List (UUID × List Assignment) :=
  groupBy (·.messageFlagId) (orderBy oldestFirst ((liveSelect db.reviews).filter fun review =>
    (flags.map fun flag => flag.id).contains review.messageFlagId))

/-- `required_by_scenario`: what the live scenarios of the flags require. -/
def requiredByScenario (flags : List Submission) : List (UUID × Nat) :=
  let scenarioIds := flags.filterMap (·.scenarioId)
  if scenarioIds.isEmpty then []
  else
    ((liveSelect db.base.scenarios).filter fun scenario => scenarioIds.contains scenario.id).map
    fun scenario => (scenario.id, scenario.requiredReviews)

/-- One entry. -/
def toEntry (reviews : List (UUID × List Assignment)) (required : List (UUID × Nat))
    (flag : Submission) : QueueEntry where
  flag
  requiredReviews :=
    match flag.scenarioId with
    | some scenarioId => valueAt required scenarioId 1
    | none => 1
  completedReviews :=
    (valueAt reviews flag.id []).countP fun review => completedStatuses.contains review.status
  reviews := valueAt reviews flag.id []

/-- `review_queue`. -/
def reviewQueue (limit offset : Nat) : Page QueueEntry :=
  let page := awaitingPage db ctx filters limit offset
  if page.items.isEmpty then ⟨[], page.total⟩
  else
    let reviews := reviewsByFlag db page.items
    let required := requiredByScenario db page.items
    ⟨page.items.map (toEntry reviews required), page.total⟩

/-! ### What is counted -/

/-- The completed reviews of the flag: live, and with a verdict. -/
def completedOf (flag : Submission) : List Assignment :=
  (liveSelect db.reviews).filter fun review =>
    review.messageFlagId == flag.id && completedStatuses.contains review.status

/-- What the flag requires: the number of its live scenario, and one without a scenario. -/
def requiredBy (flag : Submission) : Nat :=
  match flag.scenarioId.bind (findLive db.base.scenarios) with
  | some scenario => scenario.requiredReviews
  | none => 1

/-- The flag awaits review, as the caller with these filters sees it. -/
structure AwaitsReview (flag : Submission) : Prop where
  mem : flag ∈ db.flags
  live : live flag = true
  scope : scopeReviewFlags db ctx flag = true
  kept : filters.keeps db flag = true
  short : (completedOf db flag).length < requiredBy db flag

/-- The queue shows the entry at the position: on the page from `offset`, at the index that is
left. -/
def ShowsAt (position : Nat) (entry : QueueEntry) : Prop :=
  ∃ limit offset index, (reviewQueue db ctx filters limit offset).items[index]? = some entry ∧
    offset + index = position

/-- The statement and the projection agree. -/
structure QueueAgrees : Prop where
  /-- The queue lists the flags that await review. -/
  listed : ∀ flag, (∃ position entry, ShowsAt db ctx filters position entry ∧ entry.flag = flag) ↔
    AwaitsReview db ctx filters flag
  /-- A flag has one position. -/
  once : ∀ position position' entry entry', ShowsAt db ctx filters position entry →
    ShowsAt db ctx filters position' entry' → entry.flag.id = entry'.flag.id →
      position = position'
  /-- The total counts them. -/
  total : ∀ limit offset, (reviewQueue db ctx filters limit offset).total =
    db.flags.rows.countP fun flag => live flag && scopeReviewFlags db ctx flag &&
      filters.keeps db flag && decide ((completedOf db flag).length < requiredBy db flag)
  /-- An entry shows the numbers that the statement compared. -/
  counts : ∀ position entry, ShowsAt db ctx filters position entry →
    ∃ row ∈ joinedFlags db ctx, row.1 = entry.flag ∧ awaits db filters row = true ∧
      entry.completedReviews = completedCount db row.1 ∧
      entry.requiredReviews = coalesceRequired row.2
  /-- These numbers are what is counted and required. -/
  meaning : ∀ position entry, ShowsAt db ctx filters position entry →
    entry.completedReviews = (completedOf db entry.flag).length ∧
      entry.requiredReviews = requiredBy db entry.flag
  /-- An entry shows the live reviews of its flag. -/
  reviews : ∀ position entry, ShowsAt db ctx filters position entry →
    entry.reviews = orderBy oldestFirst
      ((liveSelect db.reviews).filter fun review => review.messageFlagId == entry.flag.id)
  /-- The order is that of the creation, newest first. No number decides it. -/
  ordered : ∀ position position' entry entry', ShowsAt db ctx filters position entry →
    ShowsAt db ctx filters position' entry' → position ≤ position' →
      newestFirst entry.flag entry'.flag = true

/-- The flags that await review, in the order of the queue. -/
def awaiting : List Submission :=
  ((liveSelect db.flags).filter fun flag => scopeReviewFlags db ctx flag &&
    filters.keeps db flag &&
    decide ((completedOf db flag).length < requiredBy db flag)).mergeSort newestFirst

/-- The entry of a flag. -/
def entryOf (flag : Submission) : QueueEntry where
  flag
  requiredReviews := requiredBy db flag
  completedReviews := (completedOf db flag).length
  reviews := orderBy oldestFirst
    ((liveSelect db.reviews).filter fun review => review.messageFlagId == flag.id)

end

section
variable {db : Database} {ctx : Context} {filters : ReviewQueueFilters} {flag : Submission}
  {flags : List Submission} {position limit offset : Nat} {entry : QueueEntry}

/-! ### What the statement selects -/

theorem mem_awaiting : flag ∈ awaiting db ctx filters ↔ AwaitsReview db ctx filters flag := by
  rw [awaiting, List.mem_mergeSort, List.mem_filter, mem_liveSelect]
  simp only [Bool.and_eq_true, decide_eq_true_eq]
  exact ⟨fun ⟨⟨hmem, hlive⟩, ⟨hscope, hkept⟩, hshort⟩ => ⟨hmem, hlive, hscope, hkept, hshort⟩,
    fun h => ⟨⟨h.mem, h.live⟩, ⟨h.scope, h.kept⟩, h.short⟩⟩

/-- The subquery counts the completed reviews. -/
theorem completedCount_eq : completedCount db flag = (completedOf db flag).length := by
  rw [completedCount, completedOf, liveSelect, List.filter_filter, List.countP_eq_length_filter]
  congr 1
  apply List.filter_congr
  intro review _
  cases live review <;> simp

/-- The outer join finds the live scenario of the flag. -/
theorem find?_ofScenario : db.base.scenarios.rows.find? (ofScenario flag) =
    flag.scenarioId.bind (findLive db.base.scenarios) := by
  have hone : ∀ scenario ∈ db.base.scenarios.rows, ∀ scenario' ∈ db.base.scenarios.rows,
      ofScenario flag scenario = true → ofScenario flag scenario' = true →
        scenario = scenario' := by
    intro scenario hmem scenario' hmem' h h'
    simp only [ofScenario, Bool.and_eq_true, beq_iff_eq] at h h'
    exact Table.eq_of_key_eq hmem hmem' (Option.some.inj (h.1.symm.trans h'.1))
  apply Option.ext
  intro scenario
  rw [find?_eq_some_iff hone, Option.bind_eq_some_iff]
  simp only [ofScenario, Bool.and_eq_true, beq_iff_eq, findLive_eq_some]
  constructor
  · intro ⟨hmem, hid, hlive⟩
    exact ⟨scenario.id, hid, hmem, rfl, hlive⟩
  · intro ⟨id, hid, hmem, hkey, hlive⟩
    have hsame : scenario.id = id := hkey
    exact ⟨hmem, hsame ▸ hid, hlive⟩

/-- The outer join keeps each flag once. -/
theorem joinedFlags_eq : joinedFlags db ctx =
    ((liveSelect db.flags).filter (scopeReviewFlags db ctx)).map fun flag =>
      (flag, flag.scenarioId.bind (findLive db.base.scenarios)) := by
  have hnodup : db.base.scenarios.rows.Nodup := db.base.scenarios.nodup.of_map
  rw [joinedFlags, leftJoin_eq_map hnodup]
  · apply List.map_congr_left
    intro flag _
    rw [find?_ofScenario]
  · intro flag scenario hmem scenario' hmem' h h'
    simp only [ofScenario, Bool.and_eq_true, beq_iff_eq] at h h'
    exact Table.eq_of_key_eq hmem hmem' (Option.some.inj (h.1.symm.trans h'.1))

/-- What the join coalesces is what the flag requires. -/
theorem coalesceRequired_eq :
    coalesceRequired (flag.scenarioId.bind (findLive db.base.scenarios)) =
      requiredBy db flag := by
  unfold coalesceRequired requiredBy
  cases flag.scenarioId.bind (findLive db.base.scenarios) <;> rfl

/-- The statement selects the flags that await review. -/
theorem awaitingPage_eq : awaitingPage db ctx filters limit offset =
    ⟨((awaiting db ctx filters).drop offset).take limit, (awaiting db ctx filters).length⟩ := by
  have hrows : ((joinedFlags db ctx).filter (awaits db filters)).map Prod.fst =
      (liveSelect db.flags).filter fun flag => scopeReviewFlags db ctx flag &&
        filters.keeps db flag && decide ((completedOf db flag).length < requiredBy db flag) := by
    rw [joinedFlags_eq, List.filter_map, List.map_map, List.filter_filter]
    have hid : (Prod.fst ∘ fun flag : Submission =>
        (flag, flag.scenarioId.bind (findLive db.base.scenarios))) = id := rfl
    rw [hid, List.map_id]
    apply List.filter_congr
    intro flag _
    simp only [Function.comp_apply, awaits, completedCount_eq, coalesceRequired_eq]
    cases scopeReviewFlags db ctx flag <;> simp
  unfold awaitingPage ListQuery.page awaiting
  dsimp only
  rw [hrows, List.filter_true]

/-! ### What the projection loads -/

theorem oldestFirst_trans (a b c : Assignment) (hab : oldestFirst a b) (hbc : oldestFirst b c) :
    oldestFirst a c := by
  apply byKey_trans _ a b c hab hbc
  intro a b c hab hbc
  exact decide_eq_true (Nat.le_trans (of_decide_eq_true hab) (of_decide_eq_true hbc))

theorem oldestFirst_total (a b : Assignment) : oldestFirst a b || oldestFirst b a := by
  apply byKey_total
  intro a b
  rw [Bool.or_eq_true, decide_eq_true_eq, decide_eq_true_eq]
  exact Nat.le_total a.id b.id

theorem newestFirst_trans (a b c : Submission) (hab : newestFirst a b) (hbc : newestFirst b c) :
    newestFirst a c := by
  apply byKey_trans _ a b c hab hbc
  intro a b c hab hbc
  exact decide_eq_true (Nat.le_trans (of_decide_eq_true hab) (of_decide_eq_true hbc))

theorem newestFirst_total (a b : Submission) : newestFirst a b || newestFirst b a := by
  apply byKey_total
  intro a b
  rw [Bool.or_eq_true, decide_eq_true_eq, decide_eq_true_eq]
  exact Nat.le_total a.id b.id

/-- The reviews that the projection finds for a flag of the page. -/
theorem valueAt_reviewsByFlag (h : flag ∈ flags) : valueAt (reviewsByFlag db flags) flag.id [] =
    orderBy oldestFirst ((liveSelect db.reviews).filter fun review =>
      review.messageFlagId == flag.id) := by
  rw [reviewsByFlag, valueAt_groupBy, filter_orderBy oldestFirst_trans oldestFirst_total,
    List.filter_filter]
  congr 1
  apply List.filter_congr
  intro review _
  by_cases hflag : review.messageFlagId = flag.id
  · have hid : flag.id ∈ flags.map fun flag => flag.id := List.mem_map_of_mem h
    simp [hflag, hid]
  · simp [hflag]

/-- The projection counts what the statement counts. -/
theorem countP_reviews : (orderBy oldestFirst ((liveSelect db.reviews).filter fun review =>
      review.messageFlagId == flag.id)).countP
        (fun review => completedStatuses.contains review.status) =
    (completedOf db flag).length := by
  rw [(orderBy_perm oldestFirst _).countP_eq, List.countP_filter,
    List.countP_eq_length_filter, completedOf]
  congr 1
  apply List.filter_congr
  intro review _
  exact Bool.and_comm _ _

/-- The scenarios that the projection loads have distinct ids. -/
theorem nodup_keys_scenarios (p : Scenario → Bool) :
    ((((liveSelect db.base.scenarios).filter p).map fun scenario =>
      (scenario.id, scenario.requiredReviews)).map Prod.fst).Nodup := by
  rw [List.map_map]
  have hsublist : ((liveSelect db.base.scenarios).filter p).Sublist db.base.scenarios.rows :=
    List.filter_sublist.trans List.filter_sublist
  exact (hsublist.map key).nodup db.base.scenarios.nodup

/-- The projection finds what a flag of the page requires. -/
theorem requiredReviews_toEntry (h : flag ∈ flags) (reviews : List (UUID × List Assignment)) :
    (toEntry reviews (requiredByScenario db flags) flag).requiredReviews =
    requiredBy db flag := by
  unfold toEntry requiredBy
  cases hscenario : flag.scenarioId with
  | none => rfl
  | some scenarioId =>
    have hid : scenarioId ∈ flags.filterMap (·.scenarioId) :=
      List.mem_filterMap.mpr ⟨flag, h, hscenario⟩
    have hsome : ¬ (flags.filterMap (·.scenarioId)).isEmpty = true := by
      intro hempty
      rw [List.isEmpty_iff.mp hempty] at hid
      exact List.not_mem_nil hid
    dsimp only [requiredByScenario, Option.bind_some]
    rw [if_neg hsome]
    cases hfind : findLive db.base.scenarios scenarioId with
    | some scenario =>
      have ⟨hmem, hkey, hlive⟩ := findLive_eq_some.mp hfind
      have hkey : scenario.id = scenarioId := hkey
      apply valueAt_of_mem (nodup_keys_scenarios _)
      rw [List.mem_map]
      refine ⟨scenario, List.mem_filter.mpr ⟨mem_liveSelect.mpr ⟨hmem, hlive⟩, ?_⟩, by rw [hkey]⟩
      rw [hkey]
      exact List.contains_iff_mem.mpr hid
    | none =>
      apply valueAt_of_notMem
      intro hin
      rw [List.map_map, List.mem_map] at hin
      have ⟨scenario, hrow, hkey⟩ := hin
      have hlive := mem_liveSelect.mp (List.mem_filter.mp hrow).1
      have hfound := findLive_eq_some.mpr ⟨hlive.1, hkey, hlive.2⟩
      rw [hfind] at hfound
      cases hfound

/-- The entry of a flag does not depend on the page. -/
theorem toEntry_eq (h : flag ∈ flags) :
    toEntry (reviewsByFlag db flags) (requiredByScenario db flags) flag = entryOf db flag := by
  have hrequired :
      (toEntry (reviewsByFlag db flags) (requiredByScenario db flags) flag).requiredReviews =
      requiredBy db flag := requiredReviews_toEntry h _
  have hreviews : valueAt (reviewsByFlag db flags) flag.id [] = orderBy oldestFirst
      ((liveSelect db.reviews).filter fun review => review.messageFlagId == flag.id) :=
    valueAt_reviewsByFlag h
  unfold entryOf
  rw [← hrequired, ← countP_reviews, ← hreviews]
  rfl

/-- The pages of the queue are the pages of one list. -/
theorem reviewQueue_eq : reviewQueue db ctx filters limit offset =
    ⟨(((awaiting db ctx filters).drop offset).take limit).map (entryOf db),
      (awaiting db ctx filters).length⟩ := by
  unfold reviewQueue
  rw [awaitingPage_eq]
  dsimp only
  split
  · rename_i hempty
    rw [List.isEmpty_iff.mp hempty, List.map_nil]
  · congr 1
    exact List.map_congr_left fun flag hflag => toEntry_eq hflag

/-- The queue shows the entries of the flags that await review, in order. -/
theorem showsAt_iff : ShowsAt db ctx filters position entry ↔
    ∃ flag, (awaiting db ctx filters)[position]? = some flag ∧ entryOf db flag = entry := by
  simp only [ShowsAt, reviewQueue_eq, List.getElem?_map, Option.map_eq_some_iff]
  constructor
  · intro ⟨limit, offset, index, ⟨flag, hflag, hentry⟩, hposition⟩
    rw [List.getElem?_take] at hflag
    split at hflag
    · rw [List.getElem?_drop, hposition] at hflag
      exact ⟨flag, hflag, hentry⟩
    · cases hflag
  · intro ⟨flag, hflag, hentry⟩
    refine ⟨1, position, 0, ⟨flag, ?_, hentry⟩, Nat.add_zero position⟩
    rw [List.getElem?_take, if_pos Nat.one_pos, List.getElem?_drop, Nat.add_zero, hflag]

theorem mem_of_showsAt (h : ShowsAt db ctx filters position entry) :
    ∃ flag, AwaitsReview db ctx filters flag ∧ (awaiting db ctx filters)[position]? = some flag ∧
      entryOf db flag = entry := by
  have ⟨flag, hflag, hentry⟩ := showsAt_iff.mp h
  exact ⟨flag, mem_awaiting.mp (List.mem_of_getElem? hflag), hflag, hentry⟩

/-- No flag is repeated. -/
theorem nodup_awaiting : (awaiting db ctx filters).Nodup := by
  rw [awaiting, (List.mergeSort_perm _ _).nodup_iff]
  have hflags : db.flags.rows.Nodup := db.flags.nodup.of_map
  exact (hflags.filter _).filter _

/-- In every state, for every caller and all filters, the statement of the queue and its
projection agree. -/
theorem review_queue_agrees (db : Database) (ctx : Context) (filters : ReviewQueueFilters) :
    QueueAgrees db ctx filters where
  listed flag := by
    constructor
    · rintro ⟨position, entry, hshows, rfl⟩
      have ⟨flag, hawaits, _, hentry⟩ := mem_of_showsAt hshows
      rw [← hentry]
      exact hawaits
    · intro hawaits
      have ⟨position, hposition⟩ := List.mem_iff_getElem?.mp (mem_awaiting.mpr hawaits)
      exact ⟨position, entryOf db flag, showsAt_iff.mpr ⟨flag, hposition, rfl⟩, rfl⟩
  once position position' entry entry' hshows hshows' hid := by
    have ⟨flag, hawaits, hposition, hentry⟩ := mem_of_showsAt hshows
    have ⟨flag', hawaits', hposition', hentry'⟩ := mem_of_showsAt hshows'
    rw [← hentry, ← hentry'] at hid
    -- Two flags with one id are one row, and no row is repeated.
    have hsame : flag = flag' := Table.eq_of_key_eq hawaits.mem hawaits'.mem hid
    rw [hsame, ← hposition'] at hposition
    have hbound := (List.getElem?_eq_some_iff.mp (hposition.trans hposition')).1
    exact (List.getElem?_inj hbound nodup_awaiting).mp hposition
  total limit offset := by
    rw [reviewQueue_eq]
    show (awaiting db ctx filters).length = _
    rw [awaiting, List.length_mergeSort, liveSelect, List.filter_filter,
      List.countP_eq_length_filter]
    congr 1
    apply List.filter_congr
    intro flag _
    cases live flag <;> simp
  counts position entry hshows := by
    have ⟨flag, hawaits, _, hentry⟩ := mem_of_showsAt hshows
    refine ⟨(flag, flag.scenarioId.bind (findLive db.base.scenarios)), ?_, ?_, ?_, ?_, ?_⟩
    · rw [joinedFlags_eq]
      exact List.mem_map_of_mem (List.mem_filter.mpr
        ⟨mem_liveSelect.mpr ⟨hawaits.mem, hawaits.live⟩, hawaits.scope⟩)
    · rw [← hentry]
      rfl
    · simp [awaits, hawaits.kept, completedCount_eq, coalesceRequired_eq, hawaits.short]
    · rw [completedCount_eq, ← hentry]
      rfl
    · rw [coalesceRequired_eq, ← hentry]
      rfl
  meaning position entry hshows := by
    have ⟨flag, _, _, hentry⟩ := mem_of_showsAt hshows
    rw [← hentry]
    exact ⟨rfl, rfl⟩
  reviews position entry hshows := by
    have ⟨flag, _, _, hentry⟩ := mem_of_showsAt hshows
    rw [← hentry]
    rfl
  ordered position position' entry entry' hshows hshows' hle := by
    have ⟨flag, _, hposition, hentry⟩ := mem_of_showsAt hshows
    have ⟨flag', _, hposition', hentry'⟩ := mem_of_showsAt hshows'
    rw [← hentry, ← hentry']
    show newestFirst flag flag' = true
    have hsorted : (awaiting db ctx filters).Pairwise fun a b => newestFirst a b :=
      List.pairwise_mergeSort newestFirst_trans newestFirst_total _
    have ⟨hbound, hflag⟩ := List.getElem?_eq_some_iff.mp hposition
    have ⟨hbound', hflag'⟩ := List.getElem?_eq_some_iff.mp hposition'
    rcases Nat.lt_or_eq_of_le hle with hlt | rfl
    · rw [← hflag, ← hflag']
      exact List.pairwise_iff_getElem.mp hsorted position position' hbound hbound' hlt
    · have hsame : flag = flag' := hflag.symm.trans hflag'
      rw [hsame]
      have htotal := newestFirst_total flag' flag'
      rwa [Bool.or_self] at htotal

end

end RedTeaming.Reviews
