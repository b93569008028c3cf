import TernScheduler.Cron.Matching

/-!
# Where the search is given up

Where no listed day is reached, the loop over the months ends past the horizon, on a date
that nothing was compared with.

* `ScheduleCronModel.exitMonth` is the month that date lies in.
* `ScheduleCronModel.StaysInRange` says that the setters do not lose the date on the way.
* `searchMonths_exit`: the search ends on the first day of that month, or the date is lost.
-/

namespace TernScheduler

open Calendar Periodic

/-- The month the search stands in when it is given up: January of the year of the horizon,
or, as the first listed month of that year is still searched where December is not listed,
the month after it. -/
def ScheduleCronModel.exitMonth (model : ScheduleCronModel) (farthestYear : Int) : Int :=
  if 12 ∈ model.months then 12 * farthestYear else 12 * farthestYear + model.firstMonth

/-- The setters do not leave the range of dates on the way to that month: the date is set to
the first of the month it starts in, and to the first listed month of its year where the
search wraps around. -/
structure ScheduleCronModel.StaysInRange (model : ScheduleCronModel) (farthestYear : Int)
    (time : TimeOfDay) (start : Int) : Prop where
  exit : InRange (dateAt (firstDay (model.exitMonth farthestYear)) time)
  leaves : InRange (dateAt (firstDay (monthOf start)) time)
  wraps : 12 ∉ model.months →
    InRange (dateAt (firstDay (12 * (monthOf start / 12) + (model.firstMonth - 1))) time)

section

variable {model : ScheduleCronModel} {time : TimeOfDay} {farthestYear start entry : Int}

theorem ScheduleCronModel.DayLists.horizon_le_exitMonth (hModel : model.DayLists)
    (farthestYear : Int) : farthestYear ≤ model.exitMonth farthestYear / 12 := by
  have := hModel.firstMonth_bounds
  unfold ScheduleCronModel.exitMonth
  split <;> omega

/-- The next listed month of a date before the horizon comes before the exit. -/
theorem ScheduleCronModel.DayLists.nextMonth_lt_exitMonth (hModel : model.DayLists)
    {month : Int} (hYear : month / 12 < farthestYear) :
    model.nextMonth month < model.exitMonth farthestYear := by
  have hFirst := hModel.firstMonth_bounds
  unfold ScheduleCronModel.exitMonth
  rcases hModel.nextMonth_cases month with ⟨next, -, -, hSame⟩ | ⟨-, hDecember, hNext, -⟩
  · split <;> omega
  · rw [if_neg hDecember]
    omega

/-- A month whose following one is of a later year than the start: it is December, or the
search has wrapped around. -/
theorem MonthEntry.december_or_wraps (hModel : model.DayLists)
    (hEntry : MonthEntry model time start entry)
    (hLater : monthOf start / 12 < (monthOf entry + 1) / 12) :
    (12 ∈ model.months ∧ monthOf entry + 1 = 12 * (monthOf start / 12 + 1)) ∨
      (12 ∉ model.months ∧ monthOf start / 12 < monthOf entry / 12 ∧
        monthOf entry + 1 = 12 * (monthOf start / 12 + 1) + model.firstMonth) := by
  have hMonth := hEntry.month
  rcases hModel.nextMonth_cases (monthOf start) with ⟨next, -, -, hSame⟩ |
    ⟨-, hDecember, hNext, hYear⟩
  · -- The month is of the year of the start and the next one is not: it is December.
    have hMem := (nextListed_isLeast hModel.months (monthOf start)).1.2
    rw [show nextListed 12 1 model.months (monthOf start) = monthOf entry from hMonth.symm,
      show 1 + monthOf entry % 12 = 12 by omega] at hMem
    exact Or.inl ⟨hMem, by omega⟩
  · exact Or.inr ⟨hDecember, by omega, by omega⟩

theorem MonthEntry.leaves (hEntry : MonthEntry model time start entry)
    (hFirst : InRange (dateAt (firstDay (monthOf entry)) time)) :
    InRange (dateAt (firstDay (monthOf start)) time) := by
  rcases hEntry.moved with rfl | ⟨hMove, -⟩
  · exact hFirst
  · exact hMove.1

/-- A date that was moved to a later year has come by the first listed month of its year. -/
theorem MonthEntry.wraps (hModel : model.DayLists) (hEntry : MonthEntry model time start entry)
    (hLater : monthOf start / 12 < (monthOf entry + 1) / 12) (hDecember : 12 ∉ model.months) :
    InRange (dateAt (firstDay (12 * (monthOf start / 12) + (model.firstMonth - 1))) time) := by
  rcases hEntry.december_or_wraps hModel hLater with ⟨hListed, -⟩ | ⟨-, hYear, -⟩
  · exact absurd hListed hDecember
  · rcases hEntry.moved with rfl | ⟨hMove, -⟩
    · exact absurd hYear (lt_irrefl _)
    · exact hMove.2 hYear

/-- The first month past the horizon is the one of the exit. -/
theorem MonthEntry.exitMonth_eq (hModel : model.DayLists)
    (hYear : monthOf start / 12 < farthestYear) (hEntry : MonthEntry model time start entry)
    (hPast : farthestYear ≤ (monthOf entry + 1) / 12) :
    model.exitMonth farthestYear = monthOf entry + 1 := by
  have hFirst := hModel.firstMonth_bounds
  unfold ScheduleCronModel.exitMonth
  rcases hEntry.december_or_wraps hModel (hYear.trans_le hPast) with
    ⟨hDecember, hEq⟩ | ⟨hDecember, -, hEq⟩
  · rw [if_pos hDecember]
    omega
  · have hNotLast : model.firstMonth ≠ 12 := fun hLast =>
      hDecember (hLast ▸ List.mem_of_head? hModel.head_months)
    rw [if_neg hDecember]
    omega

/-- The date is lost from the following month on where it is lost from the start on. -/
theorem MonthEntry.stays_iff (hModel : model.DayLists) (hRange : InRange (dateAt start time))
    (hEntry : MonthEntry model time start entry)
    (hFirst : InRange (dateAt (firstDay (monthOf entry)) time))
    (hNext : InRange (dateAt (firstDay (monthOf entry + 1)) time))
    (hBefore : (monthOf entry + 1) / 12 < farthestYear) :
    model.StaysInRange farthestYear time start ↔
      model.StaysInRange farthestYear time (firstDay (monthOf entry + 1)) := by
  have hMonths := monthOf_mono hEntry.after
  have hHorizon := hModel.horizon_le_exitMonth farthestYear
  have hBounds := hModel.firstMonth_bounds
  constructor
  · intro hStays
    refine ⟨hStays.exit, by rwa [monthOf_firstDay], fun hDecember => ?_⟩
    rw [monthOf_firstDay]
    by_cases hSame : (monthOf entry + 1) / 12 = monthOf start / 12
    · rw [hSame]
      exact hStays.wraps hDecember
    · -- a month of a later year lies between the start and the exit
      exact inRange_of_between hRange hStays.exit (le_firstDay (by omega))
        (firstDay_le_firstDay.mpr (by omega))
  · intro hStays
    refine ⟨hStays.exit, hEntry.leaves hFirst, fun hDecember => ?_⟩
    by_cases hSame : (monthOf entry + 1) / 12 = monthOf start / 12
    · have hWraps := hStays.wraps hDecember
      rwa [monthOf_firstDay, hSame] at hWraps
    · exact hEntry.wraps hModel (by omega) hDecember

/-- One round of the loop over the months, where no listed day is reached: the date is lost,
or it comes to the exit, or it goes on from the first of a later month. -/
inductive ExitRound (model : ScheduleCronModel) (farthestYear : Int) (time : TimeOfDay)
    (start : Int) : JsDate → Prop
  | lost (stays : ¬ model.StaysInRange farthestYear time start) :
      ExitRound model farthestYear time start none
  | exits (stays : model.StaysInRange farthestYear time start) :
      ExitRound model farthestYear time start
        (some (dateAt (firstDay (model.exitMonth farthestYear)) time))
  | onward (next : Int) (inRange : InRange (dateAt next time))
      (later : monthOf start < monthOf next) (year : monthOf next / 12 < farthestYear)
      (none : ∀ d, model.Reached farthestYear time next d → ¬ model.Listed d)
      (stays : model.StaysInRange farthestYear time start ↔
        model.StaysInRange farthestYear time next) :
      ExitRound model farthestYear time start (some (dateAt next time))

/-- The step from a month without open days. -/
theorem exitRound_of_closed (hModel : model.DayLists) (hRange : InRange (dateAt start time))
    (hYear : monthOf start / 12 < farthestYear)
    (hNone : ∀ d, model.Reached farthestYear time start d → ¬ model.Listed d)
    (hEntry : MonthEntry model time start entry) (hClosed : ∀ d, ¬ model.Open time entry d) :
    ExitRound model farthestYear time start
      (incrementMonth .utc (some (dateAt entry time))) := by
  have hBefore := hModel.nextMonth_lt_exitMonth hYear
  rw [← hEntry.month] at hBefore
  have hMonths := monthOf_mono hEntry.after
  rw [incrementMonth_utc]
  by_cases hFirst : InRange (dateAt (firstDay (monthOf entry)) time)
  · rw [timeClip_of_inRange hFirst, Option.bind_some]
    by_cases hNext : InRange (dateAt (firstDay (monthOf entry + 1)) time)
    · rw [timeClip_of_inRange hNext]
      -- the round either ends the search at the exit, or goes on in the month after
      by_cases hPast : farthestYear ≤ (monthOf entry + 1) / 12
      · have hExit := hEntry.exitMonth_eq hModel hYear hPast
        rw [← hExit]
        exact .exits ⟨hExit ▸ hNext, hEntry.leaves hFirst, hEntry.wraps hModel (by omega)⟩
      · refine .onward _ hNext (by rw [monthOf_firstDay]; omega)
          (by rw [monthOf_firstDay]; omega) ?_
          (hEntry.stays_iff hModel hRange hFirst hNext (by omega))
        intro d hReached hListed
        exact hNone d ((reached_iff_of_increment hModel hRange hEntry hClosed hFirst hNext
          hListed).mpr hReached) hListed
    · -- the exit is later still
      rw [timeClip_of_not_inRange hNext]
      refine .lost fun hStays => hNext ?_
      exact inRange_of_between hRange hStays.exit (le_firstDay (by omega))
        (firstDay_le_firstDay.mpr hBefore)
  · -- the increment sets the first day before it sets the month
    rw [timeClip_of_not_inRange hFirst]
    refine .lost fun hStays => hFirst ?_
    rcases hEntry.moved with rfl | ⟨-, hEq⟩
    · exact hStays.leaves
    · exact hEq ▸ hEntry.inRange

/-- A date that stays in range is moved to the next listed month. -/
theorem exists_alignMonth_of_stays (hModel : model.DayLists)
    (hRange : InRange (dateAt start time)) (hYear : monthOf start / 12 < farthestYear)
    (hStays : model.StaysInRange farthestYear time start) :
    ∃ date, alignMonth .utc model (some (dateAt start time)) = some date := by
  have hBefore := hModel.nextMonth_lt_exitMonth hYear
  by_cases hSame : model.nextMonth (monthOf start) = monthOf start
  · exact ⟨_, alignMonth_of_listed hModel hSame⟩
  · have hLater : monthOf start < model.nextMonth (monthOf start) := by
      have := hModel.le_nextMonth (monthOf start)
      omega
    have hMove : model.CanMove time (monthOf start) (model.nextMonth (monthOf start)) := by
      refine ⟨hStays.leaves, fun hWraps => hStays.wraps ?_⟩
      rcases hModel.nextMonth_cases (monthOf start) with ⟨_, -, -, hEq⟩ | ⟨-, hDecember, -⟩
      · omega
      · exact hDecember
    rw [alignMonth_of_canMove hModel hSame hMove, timeClip_of_inRange]
    · exact ⟨_, rfl⟩
    · exact inRange_of_between hRange hStays.exit (le_firstDay hLater)
        (firstDay_le_firstDay.mpr hBefore.le)

/-- Where no listed day is reached, the loop over the days of a month ends without one. -/
theorem exitRound (hModel : model.DayLists) (hRange : InRange (dateAt start time))
    (hYear : monthOf start / 12 < farthestYear)
    (hNone : ∀ d, model.Reached farthestYear time start d → ¬ model.Listed d) :
    ∃ ret, alignDay .utc model (alignMonth .utc model (some (dateAt start time))) = (.inc, ret) ∧
      ExitRound model farthestYear time start (incrementMonth .utc ret) := by
  rcases @alignMonth_cases model time farthestYear start hModel hRange with
    ⟨entry, hMonth, hIn, hAfter, hAlign, hLeast, hMoved⟩ | ⟨hAlign, -⟩
  · have hEntry : MonthEntry model time start entry := ⟨hMonth, hIn, hAfter, hLeast, hMoved⟩
    rw [hAlign]
    rcases alignDay_utc hModel hIn with ⟨next, hNext, -⟩ | ⟨hClosed, hDay⟩
    · exact absurd (listed_of_open hModel hEntry hNext.1)
        (hNone next (reached_of_open hModel hYear hEntry hNext.1))
    · exact ⟨_, hDay, exitRound_of_closed hModel hRange hYear hNone hEntry hClosed⟩
  · rw [hAlign]
    refine ⟨none, alignDay_none, .lost fun hStays => ?_⟩
    obtain ⟨date, hDate⟩ := exists_alignMonth_of_stays hModel hRange hYear hStays
    rw [hDate] at hAlign
    cases hAlign

/-- **Where the search is given up**: it ends on the first day of the month of the exit, or
the date is lost. -/
theorem searchMonths_exit (hModel : model.DayLists) (hRange : InRange (dateAt start time))
    (hYear : monthOf start / 12 < farthestYear)
    (hNone : ∀ d, model.Reached farthestYear time start d → ¬ model.Listed d) :
    ∃ ret, (∃ steps, ∀ fuel, steps ≤ fuel →
        searchMonths .utc model (some farthestYear) fuel (some (dateAt start time)) = some ret) ∧
      (model.StaysInRange farthestYear time start ∧
          ret = some (dateAt (firstDay (model.exitMonth farthestYear)) time) ∨
        ¬ model.StaysInRange farthestYear time start ∧ ret = none) := by
  induction hLeft : (12 * farthestYear - monthOf start).toNat using Nat.strong_induction_on
    generalizing start with
  | _ left ih =>
    -- A round takes one step of the fuel, and leaves the loop over its days at least another.
    have hLoop : JsNumber.lt (JsDate.get (some (dateAt start time)) TimeZone.utc.getFullYear)
        (some farthestYear) = true := by
      simpa using hYear
    obtain ⟨ret, hDay, hRound⟩ := exitRound hModel hRange hYear hNone
    have hStep : ∀ fuel, searchMonths .utc model (some farthestYear) (fuel + 2)
        (some (dateAt start time)) = searchMonths .utc model (some farthestYear) (fuel + 1)
          (incrementMonth .utc ret) := by
      intro fuel
      rw [searchMonths_of_lt hLoop, searchDays, hDay]
    generalize incrementMonth .utc ret = moved at hRound hStep
    cases hRound with
    | lost hStays =>
        refine ⟨none, ⟨2, fun fuel hFuel => ?_⟩, Or.inr ⟨hStays, rfl⟩⟩
        obtain ⟨more, rfl⟩ := Nat.exists_eq_add_of_le' hFuel
        rw [hStep, searchMonths_of_not_lt rfl]
    | exits hStays =>
        have hPast : JsNumber.lt (JsDate.get (some (dateAt (firstDay
            (model.exitMonth farthestYear)) time)) TimeZone.utc.getFullYear)
              (some farthestYear) = false := by
          simpa using hModel.horizon_le_exitMonth farthestYear
        refine ⟨_, ⟨2, fun fuel hFuel => ?_⟩, Or.inl ⟨hStays, rfl⟩⟩
        obtain ⟨more, rfl⟩ := Nat.exists_eq_add_of_le' hFuel
        rw [hStep, searchMonths_of_not_lt hPast]
    | onward next hIn hLater hNextYear hNextNone hStays =>
        obtain ⟨last, ⟨steps, hEnds⟩, hLast⟩ := ih _ (by omega) hIn hNextYear hNextNone rfl
        rw [← hStays] at hLast
        refine ⟨last, ⟨steps + 2, fun fuel hFuel => ?_⟩, hLast⟩
        obtain ⟨more, rfl⟩ := Nat.exists_eq_add_of_le hFuel
        rw [Nat.add_right_comm, hStep]
        exact hEnds _ (by omega)

end

end TernScheduler
