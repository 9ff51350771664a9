import Mathlib.Data.List.MinMax
import RedTeaming.Analytics.Rows
import RedTeaming.Library.Grouping
import RedTeaming.Library.Listing

/-!
# `RedTeaming.Analytics.Timeline`: the daily series of a dashboard

`_timeline_window` and the series over it from `core/analytics/services/metrics.py`. The window is
a run of consecutive days around the observed days and the declared dates of the group, and a
series has one point for each day of it.

No observed day is off the window (`mem_timelineWindow`), so the points of a series add up to all
that was counted (`sum_dailySeries`).
-/

set_option autoImplicit false

namespace RedTeaming.Analytics

open RedTeaming.Evaluations RedTeaming.Library

/-- `date.min`, the first of January of the year 1. -/
def dateMin : Date := -719162

/-- `_TIMELINE_CONTEXT_DAYS`: how far before the end of the axis a declared start may open it. -/
def timelineContextDays : Int := 365

/-- The UTC day of a time. -/
def utcDay (t : Time) : Date := t / 86400

/-- What a day counts: its submissions, and the exploits confirmed among them. -/
abbrev DayCount := Nat × Nat

/-- `DailySubmissionPoint`. -/
structure DailySubmissionPoint where
  day : Date
  submissions : Nat
  exploitedSubmissions : Nat
deriving DecidableEq

/-- The last day of the axis: today or the end date once it has passed, and no earlier than the
newest observed day. -/
def timelineEnd (endDate : Option Date) (observed : List Date) (today : Date) : Date :=
  let contextEnd := match endDate with
    | some endDate => min endDate today
    | none => today
  max contextEnd (observed.max?.getD contextEnd)

/-- The declared start, at most `timelineContextDays` before the end of the axis. -/
def contextStart (startDate : Option Date) (last : Date) : Option Date :=
  startDate.map fun startDate => max startDate (last - min timelineContextDays (last - dateMin))

/-- The consecutive days from `first` to `last`. -/
def days (first last : Int) : List Int :=
  (List.range ((last - first).toNat + 1)).map fun n => first + Int.ofNat n

/-- `_timeline_window`: the days of the axis, oldest first. -/
def timelineWindow (startDate endDate : Option Date) (observed : List Date) (today : Date) :
    List Date :=
  let last := timelineEnd endDate observed today
  match ([contextStart startDate last, observed.min?].filterMap id).min? with
  | none => []
  | some first => if last < first then [] else days first last

/-- `_daily_series`: one point for each day of the window. -/
def dailySeries (counts : List (Date × DayCount)) (window : List Date) :
    List DailySubmissionPoint :=
  window.map fun day => ⟨day, (valueAt counts day (0, 0)).1, (valueAt counts day (0, 0)).2⟩

/-- `_evaluation_series`: the days with a submission only. -/
def evaluationSeries (counts : List (Date × DayCount)) : List DailySubmissionPoint :=
  dailySeries counts (orderBy (fun a b => decide (a ≤ b)) (counts.map Prod.fst))

/-! ### The window -/

/-- Consecutive days are distinct. -/
theorem nodup_days (first last : Int) : (days first last).Nodup := by
  apply List.nodup_range.map
  intro n m h
  have hcast : first + (n : Int) = first + (m : Int) := h
  omega

/-- A day that is not before the first and not after the last is among the days. -/
theorem mem_days {first last day : Int} (hfirst : first ≤ day) (hlast : day ≤ last) :
    day ∈ days first last := by
  have hcast : first + ((day - first).toNat : Int) = day := by omega
  have hindex : (day - first).toNat < (last - first).toNat + 1 := by omega
  rw [days, List.mem_map]
  exact ⟨(day - first).toNat, List.mem_range.mpr hindex, hcast⟩

/-- The window repeats no day. -/
theorem nodup_timelineWindow (startDate endDate : Option Date) (observed : List Date)
    (today : Date) : (timelineWindow startDate endDate observed today).Nodup := by
  unfold timelineWindow
  dsimp only
  split
  · exact List.nodup_nil
  · rename_i first _
    split
    · exact List.nodup_nil
    · exact nodup_days first _

/-- No observed day is after the end of the axis. -/
theorem le_timelineEnd {endDate : Option Date} {observed : List Date} {today day : Date}
    (h : day ∈ observed) : day ≤ timelineEnd endDate observed today := by
  obtain ⟨newest, hnewest⟩ : ∃ newest, observed.max? = some newest := by
    rw [← Option.isSome_iff_exists, List.isSome_max?_iff]
    exact List.ne_nil_of_mem h
  have hle : day ≤ newest := (List.max?_eq_some_iff.mp hnewest).2 day h
  unfold timelineEnd
  rw [hnewest]
  exact le_trans hle (le_max_right _ _)

/-- Every observed day is on the window: the window opens no later than the oldest one and ends no
earlier than the newest one. -/
theorem mem_timelineWindow {startDate endDate : Option Date} {observed : List Date}
    {today day : Date} (h : day ∈ observed) :
    day ∈ timelineWindow startDate endDate observed today := by
  have hlast : day ≤ timelineEnd endDate observed today := le_timelineEnd h
  obtain ⟨oldest, holdest⟩ : ∃ oldest, observed.min? = some oldest := by
    rw [← Option.isSome_iff_exists, List.isSome_min?_iff]
    exact List.ne_nil_of_mem h
  have hle : oldest ≤ day := (List.min?_eq_some_iff.mp holdest).2 day h
  unfold timelineWindow
  simp only [holdest]
  split
  · rename_i hnone
    rw [List.min?_eq_none_iff] at hnone
    have hmem : oldest ∈ [contextStart startDate (timelineEnd endDate observed today),
        some oldest].filterMap id := by simp
    rw [hnone] at hmem
    exact absurd hmem List.not_mem_nil
  · rename_i first hfirst
    have hfirst_le : first ≤ oldest := (List.min?_eq_some_iff.mp hfirst).2 oldest (by simp)
    have hfirst_day : first ≤ day := le_trans hfirst_le hle
    have hopen : ¬ timelineEnd endDate observed today < first :=
      not_lt_of_ge (le_trans hfirst_day hlast)
    rw [if_neg hopen]
    exact mem_days hfirst_day hlast

/-! ### The series -/

/-- Over days that contain all counted ones, a series adds up to what was counted. -/
theorem sum_dailySeries {counts : List (Date × DayCount)} (hcounts : (counts.map Prod.fst).Nodup)
    {window : List Date} (hwindow : window.Nodup)
    (hsub : ∀ day ∈ counts.map Prod.fst, day ∈ window) :
    ((dailySeries counts window).map (·.submissions)).sum = (counts.map (·.2.1)).sum ∧
      ((dailySeries counts window).map (·.exploitedSubmissions)).sum =
        (counts.map (·.2.2)).sum := by
  unfold dailySeries
  rw [List.map_map, List.map_map]
  exact ⟨sum_valueAt hcounts hwindow hsub (fun count : DayCount => count.1) rfl,
    sum_valueAt hcounts hwindow hsub (fun count : DayCount => count.2) rfl⟩

/-- The series over the window of the counted days leaves nothing out. -/
theorem sum_dailySeries_timelineWindow {counts : List (Date × DayCount)}
    (hcounts : (counts.map Prod.fst).Nodup) (startDate endDate : Option Date) (today : Date) :
    let window := timelineWindow startDate endDate (counts.map Prod.fst) today
    ((dailySeries counts window).map (·.submissions)).sum = (counts.map (·.2.1)).sum ∧
      ((dailySeries counts window).map (·.exploitedSubmissions)).sum =
        (counts.map (·.2.2)).sum :=
  sum_dailySeries hcounts (nodup_timelineWindow startDate endDate _ today) fun _ hday =>
    mem_timelineWindow hday

end RedTeaming.Analytics
