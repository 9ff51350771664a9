import Mathlib.Order.Basic
import RedTeaming.Analytics.Timeline
import RedTeaming.Library.Dict

/-!
# `RedTeaming.Analytics.TimelineRange`: the window of a dashboard stays in the calendar

A `date` of Python is a day between `date.min` and `date.max`, and adding days to it raises
outside of that range. `checkedTimelineWindow` is `_timeline_window` with this check at each
addition. It never raises (`exists_checkedTimelineWindow`), and gives the window of
`RedTeaming.Analytics.Timeline`.

What the window looks like is read off its first and its last day. `timeline_window_correct` puts
it together.
-/

set_option autoImplicit false

namespace RedTeaming.Analytics

open RedTeaming.Evaluations RedTeaming.Library

/-- `date.max`, the last of December of the year 9999. -/
def dateMax : Int := 2932896

/-- A `date`: a day of the calendar. -/
@[ext] structure CalendarDate where
  day : Int
  dateMin_le : day ≥ dateMin
  le_max : day ≤ dateMax
deriving DecidableEq

namespace CalendarDate

theorem day_injective : Function.Injective day := fun _ _ h => CalendarDate.ext h

instance : LinearOrder CalendarDate := LinearOrder.lift' day day_injective

/-- `date + timedelta(days=n)`. Outside of the calendar it raises. -/
def addDays (d : CalendarDate) (n : Int) : Option CalendarDate :=
  if h : d.day + n ≥ dateMin ∧ d.day + n ≤ dateMax then some ⟨d.day + n, h.1, h.2⟩ else none

end CalendarDate

/-- `end`: the last day of the axis. -/
def axisEnd (endDate : Option CalendarDate) (observed : List CalendarDate)
    (today : CalendarDate) : CalendarDate :=
  let contextEnd := match endDate with
    | some endDate => min endDate today
    | none => today
  max contextEnd (observed.max?.getD contextEnd)

/-- `context_start`: the declared start, no earlier than the lead-in before the last day. -/
def checkedContextStart (startDate : Option CalendarDate) (last : CalendarDate) :
    Option (Option CalendarDate) :=
  let leadIn := min timelineContextDays (last.day - dateMin)
  match startDate with
  | some startDate => (last.addDays (-leadIn)).map fun bound => some (max startDate bound)
  | none => some none

/-- `_timeline_window`, where every addition to a date may raise. -/
def checkedTimelineWindow (startDate endDate : Option CalendarDate) (observed : List CalendarDate)
    (today : CalendarDate) : Option (List CalendarDate) := do
  let last := axisEnd endDate observed today
  let contextStart ← checkedContextStart startDate last
  match ([contextStart, observed.min?].filterMap id).min? with
  | none => some []
  | some first =>
    if last < first then some []
    else (List.range ((last.day - first.day).toNat + 1)).mapM fun n => first.addDays (Int.ofNat n)

section
variable {startDate endDate : Option CalendarDate} {observed : List CalendarDate}
  {today first last : CalendarDate}

/-! ### Dates and their days -/

theorem le_iff_day_le {a b : CalendarDate} : a ≤ b ↔ a.day ≤ b.day := Iff.rfl

theorem lt_iff_day_lt {a b : CalendarDate} : a < b ↔ a.day < b.day := Iff.rfl

theorem day_max (a b : CalendarDate) : (max a b).day = max a.day b.day := by
  rcases le_total a b with h | h
  · rw [max_eq_right h, max_eq_right (le_iff_day_le.mp h)]
  · rw [max_eq_left h, max_eq_left (le_iff_day_le.mp h)]

theorem day_min (a b : CalendarDate) : (min a b).day = min a.day b.day := by
  rcases le_total a b with h | h
  · rw [min_eq_left h, min_eq_left (le_iff_day_le.mp h)]
  · rw [min_eq_right h, min_eq_right (le_iff_day_le.mp h)]

/-- The newest date has the newest day. -/
theorem max?_map_day (l : List CalendarDate) : (l.map (·.day)).max? = l.max?.map (·.day) := by
  cases l with
  | nil => rfl
  | cons d l =>
    simp only [List.map_cons, List.max?_cons', Option.map_some, Option.some.injEq]
    induction l generalizing d with
    | nil => rfl
    | cons e l ih =>
      simp only [List.map_cons, List.foldl_cons]
      rw [← day_max]
      exact ih (max d e)

/-- The oldest date has the oldest day. -/
theorem min?_map_day (l : List CalendarDate) : (l.map (·.day)).min? = l.min?.map (·.day) := by
  cases l with
  | nil => rfl
  | cons d l =>
    simp only [List.map_cons, List.min?_cons', Option.map_some, Option.some.injEq]
    induction l generalizing d with
    | nil => rfl
    | cons e l ih =>
      simp only [List.map_cons, List.foldl_cons]
      rw [← day_min]
      exact ih (min d e)

/-- The day after an addition in range. -/
theorem exists_addDays {d : CalendarDate} {n : Int} (hmin : d.day + n ≥ dateMin)
    (hmax : d.day + n ≤ dateMax) : ∃ e, d.addDays n = some e ∧ e.day = d.day + n :=
  ⟨⟨d.day + n, hmin, hmax⟩, dif_pos ⟨hmin, hmax⟩, rfl⟩

/-- The last day is that of the unchecked window. -/
theorem day_axisEnd : (axisEnd endDate observed today).day =
    timelineEnd (endDate.map (·.day)) (observed.map (·.day)) today.day := by
  unfold axisEnd timelineEnd
  rw [max?_map_day]
  cases endDate with
  | none => cases observed.max? <;> simp [day_max]
  | some endDate => cases observed.max? <;> simp [day_max, day_min]

/-! ### No addition raises -/

/-- The days between two dates are dates. -/
theorem exists_days (h : first ≤ last) :
    ∃ window,
      ((List.range ((last.day - first.day).toNat + 1)).mapM fun n =>
        first.addDays (Int.ofNat n)) =
        some window ∧ window.map (·.day) = days first.day last.day := by
  -- No addition leaves the calendar, since it stays at or before the last date.
  have hsome : ∀ n ∈ List.range ((last.day - first.day).toNat + 1), ∃ date,
      first.addDays (Int.ofNat n) = some date ∧ date.day = first.day + Int.ofNat n := by
    intro n hn
    rw [List.mem_range] at hn
    rw [le_iff_day_le] at h
    have hmin := first.dateMin_le
    have hmax := last.le_max
    have hn : (Int.ofNat n) ≤ last.day - first.day := by
      have hcast : Int.ofNat n = (n : Int) := rfl
      omega
    have hnonneg : 0 ≤ Int.ofNat n := Int.natCast_nonneg n
    exact exists_addDays (by omega) (by omega)
  obtain ⟨window, hwindow, hall⟩ := exists_mapM hsome
  refine ⟨window, hwindow, ?_⟩
  have hdays : List.Forall₂ Eq (window.map (·.day)) (days first.day last.day) := by
    rw [days, List.forall₂_map_left_iff, List.forall₂_map_right_iff]
    exact List.Forall₂.flip hall
  exact List.forall₂_eq_eq_eq ▸ hdays

/-- The bound on a declared start is a date: the lead-in ends at `date.min`. -/
theorem exists_bound (last : CalendarDate) :
    ∃ bound, last.addDays (-min timelineContextDays (last.day - dateMin)) = some bound ∧
      bound.day = last.day - min timelineContextDays (last.day - dateMin) := by
  have hmin := last.dateMin_le
  have hmax := last.le_max
  have hdays : 0 ≤ timelineContextDays := by decide
  obtain ⟨bound, hbound, hday⟩ := @exists_addDays last
    (-min timelineContextDays (last.day - dateMin)) (by omega) (by omega)
  exact ⟨bound, hbound, by omega⟩

/-- The declared start is bounded as in the unchecked window. -/
theorem exists_checkedContextStart (startDate : Option CalendarDate) (last : CalendarDate) :
    ∃ context, checkedContextStart startDate last = some context ∧
      context.map (·.day) = contextStart (startDate.map (·.day)) last.day := by
  cases startDate with
  | none => exact ⟨none, rfl, rfl⟩
  | some startDate =>
    obtain ⟨bound, hbound, hday⟩ := exists_bound last
    refine ⟨some (max startDate bound), by simp [checkedContextStart, hbound], ?_⟩
    show some (max startDate bound).day = _
    rw [day_max, hday]
    rfl

/-- The window is there, and its days are those of the unchecked window. -/
theorem exists_checkedTimelineWindow (startDate endDate : Option CalendarDate)
    (observed : List CalendarDate) (today : CalendarDate) :
    ∃ window, checkedTimelineWindow startDate endDate observed today = some window ∧
      window.map (·.day) = timelineWindow (startDate.map (·.day)) (endDate.map (·.day))
        (observed.map (·.day)) today.day := by
  obtain ⟨context, hcontext, hday⟩ :=
    exists_checkedContextStart startDate (axisEnd endDate observed today)
  -- The checked and the unchecked window choose among the same starts.
  have hstarts : ([contextStart (startDate.map (·.day)) (axisEnd endDate observed today).day,
      observed.min?.map (·.day)].filterMap id) =
        ([context, observed.min?].filterMap id).map (·.day) := by
    rw [← hday]
    cases context <;> cases observed.min? <;> rfl
  unfold checkedTimelineWindow timelineWindow
  simp only [hcontext, ← day_axisEnd, hstarts, min?_map_day, Option.bind_eq_bind,
    Option.bind_some]
  cases ([context, observed.min?].filterMap id).min? with
  | none => exact ⟨[], rfl, rfl⟩
  | some first =>
    simp only [Option.map_some]
    -- A window that opens after its end is empty, and any other one has all days between.
    by_cases hlt : axisEnd endDate observed today < first
    · rw [if_pos hlt, if_pos (lt_iff_day_lt.mp hlt)]
      exact ⟨[], rfl, rfl⟩
    · rw [if_neg hlt, if_neg fun h => hlt (lt_iff_day_lt.mpr h)]
      exact exists_days (not_lt.mp hlt)

/-! ### The first and the last day -/

/-- Each of the days is the day after the one before it. -/
theorem isChain_days (first last : Int) :
    (days first last).IsChain fun day next => next = day + 1 := by
  rw [days, List.isChain_map, List.isChain_range]
  intro n _
  show first + ((n + 1 : Nat) : Int) = first + (n : Int) + 1
  omega

theorem head?_days (first last : Int) : (days first last).head? = some first := by
  rw [days, List.range_succ_eq_map]
  simp

theorem getLast?_days {first last : Int} (h : first ≤ last) :
    (days first last).getLast? = some last := by
  rw [days, List.range_succ, List.map_append, List.map_singleton, List.getLast?_concat]
  have hlast : first + ((last - first).toNat : Int) = last := by omega
  exact congrArg some hlast

/-- A declared start opens the axis at most a year before its end, and only a start after the end
is opened after it. -/
theorem contextStart_bounds {startDate : Option Int} {last first : Int} (hmin : last ≥ dateMin)
    (h : contextStart startDate last = some first) :
    ∃ start : Int, startDate = some start ∧ start ≤ first ∧ last - first ≤ timelineContextDays ∧
      (last < first → last < start) := by
  obtain ⟨start, hstart, hfirst⟩ := Option.map_eq_some_iff.mp h
  have hdays : 0 ≤ timelineContextDays := by decide
  have hfirst : first = max start (last - min timelineContextDays (last - dateMin)) := hfirst.symm
  -- The lead-in is cut at the first date of the calendar, so it is at most a year.
  refine ⟨start, hstart, ?_, ?_, ?_⟩ <;> omega

/-- The window is empty, or the days from the oldest of its starts to the end of the axis. -/
theorem timelineWindow_cases {startDate endDate : Option Int} {observed : List Int} {today : Int}
    (hmin : (show Int from timelineEnd endDate observed today) ≥ dateMin) :
    (timelineWindow startDate endDate observed today = [] ∧ observed = [] ∧
      ∀ start : Int, startDate = some start → timelineEnd endDate observed today < start) ∨
    ∃ first : Int, timelineWindow startDate endDate observed today =
        days first (timelineEnd endDate observed today) ∧
      first ≤ timelineEnd endDate observed today ∧
      (first ∈ observed ∨ ∃ start : Int, startDate = some start ∧ start ≤ first ∧
        timelineEnd endDate observed today - first ≤ timelineContextDays) := by
  let last : Int := timelineEnd endDate observed today
  let starts := [contextStart startDate last, observed.min?].filterMap id
  have hmem {candidate : Int} : candidate ∈ starts ↔
      contextStart startDate last = some candidate ∨ observed.min? = some candidate := by
    simp [starts, eq_comm]
  unfold timelineWindow
  dsimp only
  split
  · rename_i hnone
    -- Nothing opens the axis: nothing was observed, and no start is declared.
    have hempty : starts = [] := List.min?_eq_none_iff.mp hnone
    rw [List.eq_nil_iff_forall_not_mem] at hempty
    refine .inl ⟨rfl, ?_, fun start hstart => ?_⟩
    · rw [← List.min?_eq_none_iff, Option.eq_none_iff_forall_ne_some]
      exact fun oldest holdest => hempty oldest (hmem.mpr (.inr holdest))
    · rw [hstart] at hmem
      exact absurd (hmem.mpr (.inl rfl)) (hempty _)
  · rename_i first hfirst
    obtain ⟨hstart, hleast⟩ := List.min?_eq_some_iff.mp hfirst
    split
    · rename_i hlt
      -- An observed day would open the axis, and no later than it ends.
      have hobserved : observed = [] := by
        rw [← List.min?_eq_none_iff, Option.eq_none_iff_forall_ne_some]
        intro oldest holdest
        have hle : oldest ≤ last := le_timelineEnd (List.min?_eq_some_iff.mp holdest).1
        have hfirst_le : first ≤ oldest := hleast oldest (hmem.mpr (.inr holdest))
        exact absurd (lt_of_lt_of_le hlt (le_trans hfirst_le hle)) (lt_irrefl last)
      refine .inl ⟨rfl, hobserved, fun start hdeclared => ?_⟩
      rcases hmem.mp hstart with hcontext | holdest
      · obtain ⟨start', hstart', -, -, hafter⟩ := contextStart_bounds hmin hcontext
        rw [hdeclared] at hstart'
        cases hstart'
        exact hafter hlt
      · rw [hobserved] at holdest
        cases holdest
    · rename_i hopen
      -- The axis opens at the oldest of the starts, which is one of the two.
      refine .inr ⟨first, rfl, not_lt.mp hopen, ?_⟩
      rcases hmem.mp hstart with hcontext | holdest
      · obtain ⟨start, hdeclared, hle, hyear, -⟩ := contextStart_bounds hmin hcontext
        exact .inr ⟨start, hdeclared, hle, hyear⟩
      · exact .inl (List.min?_eq_some_iff.mp holdest).1

/-! ### The window in the calendar -/

variable {window : List CalendarDate}

/-- The days of a window are those of the unchecked window. -/
theorem map_day_of_window (h : checkedTimelineWindow startDate endDate observed today =
    some window) :
    window.map (·.day) = timelineWindow (startDate.map (·.day)) (endDate.map (·.day))
      (observed.map (·.day)) today.day := by
  obtain ⟨window', hwindow', hdays⟩ :=
    exists_checkedTimelineWindow startDate endDate observed today
  rw [h] at hwindow'
  cases hwindow'
  exact hdays

/-- A window is empty, or the days from the oldest of its starts to the end of the axis. -/
theorem window_cases (h : checkedTimelineWindow startDate endDate observed today = some window) :
    (window = [] ∧ observed = [] ∧
      ∀ start, startDate = some start → axisEnd endDate observed today < start) ∨
    ∃ first : Int, window.map (·.day) = days first (axisEnd endDate observed today).day ∧
      first ≤ (axisEnd endDate observed today).day ∧
      (first ∈ observed.map (·.day) ∨ ∃ start, startDate = some start ∧ start.day ≤ first ∧
        (axisEnd endDate observed today).day - first ≤ timelineContextDays) := by
  have hdays := map_day_of_window h
  have hmin := (axisEnd endDate observed today).dateMin_le
  rw [day_axisEnd] at hmin ⊢
  rcases timelineWindow_cases hmin with ⟨hnil, hobserved, hafter⟩ | ⟨first, heq, hle, hstart⟩
  · rw [hnil, List.map_eq_nil_iff] at hdays
    refine .inl ⟨hdays, List.map_eq_nil_iff.mp hobserved, fun start hdeclared => ?_⟩
    rw [lt_iff_day_lt, day_axisEnd]
    exact hafter start.day (by rw [hdeclared, Option.map_some])
  · refine .inr ⟨first, hdays.trans heq, hle, hstart.imp_right ?_⟩
    rintro ⟨day, hday, hopen⟩
    obtain ⟨start, hdeclared, rfl⟩ := Option.map_eq_some_iff.mp hday
    exact ⟨start, hdeclared, hopen⟩

/-- Each date of a window is the day after the one before it. -/
theorem isChain_window (h : checkedTimelineWindow startDate endDate observed today =
    some window) :
    window.IsChain fun day next => next.day = day.day + 1 := by
  rcases window_cases h with ⟨rfl, -⟩ | ⟨first, hdays, -⟩
  · exact List.isChain_nil
  · rw [← List.isChain_map (R := fun day next : Int => next = day + 1), hdays]
    exact isChain_days first _

/-- Every observed date is on the window. -/
theorem mem_window (h : checkedTimelineWindow startDate endDate observed today = some window)
    {day : CalendarDate} (hday : day ∈ observed) : day ∈ window := by
  have hmem : day.day ∈ window.map (·.day) := by
    rw [map_day_of_window h]
    exact mem_timelineWindow (List.mem_map_of_mem hday)
  -- Two dates with one day number are the same date.
  obtain ⟨day', hday', hsame⟩ := List.mem_map.mp hmem
  rw [← CalendarDate.day_injective hsame]
  exact hday'

/-- A window is empty exactly when nothing was observed, and no start has been reached. -/
theorem window_eq_nil_iff (h : checkedTimelineWindow startDate endDate observed today =
    some window) :
    window = [] ↔ observed = [] ∧ (startDate = none ∨
      ∃ start, startDate = some start ∧ axisEnd endDate observed today < start) := by
  rcases window_cases h with ⟨hnil, hobserved, hafter⟩ | ⟨first, hdays, hle, hstart⟩
  · refine iff_of_true hnil ⟨hobserved, ?_⟩
    cases startDate with
    | none => exact .inl rfl
    | some start => exact .inr ⟨start, rfl, hafter start rfl⟩
  · refine iff_of_false ?_ ?_
    · rintro rfl
      have hhead := head?_days first (axisEnd endDate observed today).day
      rw [← hdays] at hhead
      cases hhead
    · rintro ⟨hobserved, hnone⟩
      rcases hstart with hmem | ⟨start, hdeclared, hopen, -⟩
      · rw [hobserved] at hmem
        cases hmem
      · rcases hnone with hnone | ⟨start', hdeclared', hafter⟩
        · rw [hdeclared] at hnone
          cases hnone
        · rw [hdeclared] at hdeclared'
          cases hdeclared'
          rw [lt_iff_day_lt] at hafter
          omega

/-- A window opens at most a year before its end, unless an observation is earlier. -/
theorem window_year (h : checkedTimelineWindow startDate endDate observed today = some window)
    {first last : CalendarDate} (hfirst : window.head? = some first)
    (hlast : window.getLast? = some last) :
    last.day - first.day ≤ timelineContextDays ∨
      ∃ day ∈ observed, day.day < last.day - timelineContextDays := by
  rcases window_cases h with ⟨rfl, -⟩ | ⟨opening, hdays, hle, hstart⟩
  · cases hfirst
  · have hhead : (window.map (·.day)).head? = some first.day := by
      rw [List.head?_map, hfirst]; rfl
    have hend : (window.map (·.day)).getLast? = some last.day := by
      rw [List.getLast?_map, hlast]
      rfl
    rw [hdays, head?_days, Option.some.injEq] at hhead
    rw [hdays, getLast?_days hle, Option.some.injEq] at hend
    rw [hhead, hend] at hstart
    rcases hstart with hmem | ⟨-, -, -, hyear⟩
    · -- The window opens with an observed day, however old that is.
      obtain ⟨day, hday, hsame⟩ := List.mem_map.mp hmem
      by_cases hnear : last.day - first.day ≤ timelineContextDays
      · exact .inl hnear
      · exact .inr ⟨day, hday, by omega⟩
    · exact .inl hyear

/-- The series over a window adds up to what was observed. -/
theorem sum_series_window {counts : Dict CalendarDate DayCount}
    (h : checkedTimelineWindow startDate endDate counts.keys today = some window) :
    let series := dailySeries (counts.entries.map fun entry => (entry.1.day, entry.2))
      (window.map (·.day))
    (series.map (·.submissions)).sum = (counts.entries.map (·.2.1)).sum ∧
      (series.map (·.exploitedSubmissions)).sum = (counts.entries.map (·.2.2)).sum := by
  have hkeys : ((counts.entries.map fun entry => (entry.1.day, entry.2)).map Prod.fst) =
      counts.keys.map (·.day) := by
    rw [Dict.keys, List.map_map, List.map_map]
    rfl
  have hdistinct :
      ((counts.entries.map fun entry => (entry.1.day, entry.2)).map Prod.fst).Nodup := by
    rw [hkeys]
    exact counts.nodup.map CalendarDate.day_injective
  -- Every observed date has a place of its own in the series.
  have hsum := sum_dailySeries_timelineWindow hdistinct (startDate.map (·.day))
      (endDate.map (·.day))
    today.day
  rw [hkeys, ← map_day_of_window h] at hsum
  simpa only [List.map_map, Function.comp_def] using hsum

end

/-- The window of a group stays in the calendar. It is a run of consecutive dates around every
observed day, and empty only when there is nothing to plot. It opens at most a year before its
end, unless an observation is earlier. The series over it adds up to what was observed. -/
theorem timeline_window_correct (startDate endDate : Option CalendarDate)
    (counts : Dict CalendarDate DayCount) (today : CalendarDate) :
    ∃ window, checkedTimelineWindow startDate endDate counts.keys today = some window ∧
      window.IsChain (fun day next => next.day = day.day + 1) ∧
      (∀ day ∈ counts.keys, day ∈ window) ∧
      (window = [] ↔ counts.keys = [] ∧ (startDate = none ∨
        ∃ start, startDate = some start ∧ axisEnd endDate counts.keys today < start)) ∧
      (∀ first last, window.head? = some first → window.getLast? = some last →
        last.day - first.day ≤ 365 ∨ ∃ day ∈ counts.keys, day.day < last.day - 365) ∧
      let series := dailySeries (counts.entries.map fun entry => (entry.1.day, entry.2))
        (window.map (·.day))
      (series.map (·.submissions)).sum = (counts.entries.map (·.2.1)).sum ∧
        (series.map (·.exploitedSubmissions)).sum = (counts.entries.map (·.2.2)).sum := by
  obtain ⟨window, hwindow, -⟩ := exists_checkedTimelineWindow startDate endDate counts.keys today
  refine ⟨window, hwindow, isChain_window hwindow, fun _ => mem_window hwindow,
    window_eq_nil_iff hwindow, fun _ _ => window_year hwindow, ?_⟩
  exact sum_series_window hwindow

end RedTeaming.Analytics
