import TernScheduler.Cron.Horizon
import TernScheduler.Properties.CronTermination

/-!
# Whether cron runs on the requester's clock

`utcOffsetMinutes` is documented as what must be added to the requester's time to obtain UTC.
`nextCronTime` adds it to the present time to obtain the requester's, and subtracts it from
the time it finds: it runs on a clock that is as far on the other side of UTC.

* `ScheduleCronModel.Waits` counts how long the search waits for each field, from the second
  it starts at on.
* `requesterClock_iff`: the answer is the one of the requester's clock exactly when the search
  waits for each field as long from the one clock as from the other.
-/

namespace TernScheduler

open Calendar Periodic

/-- The day stops a search that began on `start`: it is listed, or it is where the search is
given up; a search that began past the horizon is given up at once. -/
def ScheduleCronModel.Stops (model : ScheduleCronModel) (farthestYear start day : Int) : Prop :=
  farthestYear ≤ monthOf start / 12 ∨ model.Listed day ∨
    day = firstDay (model.exitMonth farthestYear)

/-- What the search waits for from a second on: the next listed second; from there as many
minutes as it takes to a listed one, with the second kept; as many hours; and as many days
as it takes to one that stops it. -/
structure ScheduleCronModel.Waits (model : ScheduleCronModel) (farthestYear moment : Int)
    (seconds minutes hours days : Nat) : Prop where
  second : IsLeast {n : Nat | (moment + n) % 60 ∈ model.seconds} seconds
  minute : IsLeast {n : Nat | ((moment + seconds) / 60 + n) % 60 ∈ model.minutes} minutes
  hour : IsLeast {n : Nat | ((moment + seconds + 60 * minutes) / 3600 + n) % 24 ∈ model.hours}
    hours
  day : IsLeast {n : Nat | model.Stops farthestYear
    ((moment + seconds + 60 * minutes + 3600 * hours) / 86400)
    ((moment + seconds + 60 * minutes + 3600 * hours) / 86400 + n)} days

/-- The search waits for each field as long on the clock that is `utcOffsetMinutes` ahead of
UTC as on the one that is behind it by as much. -/
def ScheduleCronModel.WaitsAlike (model : ScheduleCronModel) (now : Int) : Prop :=
  ∃ seconds minutes hours days,
    model.Waits (TimeZone.utc.getFullYear now + maximumYearInFuture)
      (now / 1000 + 1 + 60 * model.utcOffsetMinutes) seconds minutes hours days ∧
    model.Waits (TimeZone.utc.getFullYear (now - model.utcOffsetMinutes * 60000) +
        maximumYearInFuture)
      (now / 1000 + 1 - 60 * model.utcOffsetMinutes) seconds minutes hours days

section

variable {model : ScheduleCronModel} {second : Int}

/-- The waits are determined by the moment. -/
theorem ScheduleCronModel.Waits.unique {farthestYear moment : Int}
    {seconds minutes hours days seconds' minutes' hours' days' : Nat}
    (h : model.Waits farthestYear moment seconds minutes hours days)
    (h' : model.Waits farthestYear moment seconds' minutes' hours' days') :
    seconds = seconds' ∧ minutes = minutes' ∧ hours = hours' ∧ days = days' := by
  obtain rfl := h.second.unique h'.second
  obtain rfl := h.minute.unique h'.minute
  obtain rfl := h.hour.unique h'.hour
  exact ⟨rfl, rfl, rfl, h.day.unique h'.day⟩

/-- A day that is reached comes before the search is given up. -/
theorem ScheduleCronModel.Reached.le_exit {time : TimeOfDay} {farthestYear start day : Int}
    (hReached : model.Reached farthestYear time start day) (hModel : model.DayLists) :
    day ≤ firstDay (model.exitMonth farthestYear) := by
  refine le_firstDay ?_
  have hFirst := hModel.firstMonth_bounds
  unfold ScheduleCronModel.exitMonth
  rcases hReached.horizon with hBefore | ⟨hLast, hDecember⟩
  · split <;> omega
  · rw [if_neg hDecember]
    omega

/-- The search stops on the first day, from its start on, that stops it. -/
theorem searchMonths_stops (hModel : model.DayLists) {time : TimeOfDay}
    {farthestYear start : Int} (hRange : InRange (dateAt start time)) {fuel : Nat} {last : Int}
    (hSearch : searchMonths .utc model (some farthestYear) fuel (some (dateAt start time)) =
      some (some last)) :
    ∃ day, last = dateAt day time ∧
      IsLeast {d | start ≤ d ∧ model.Stops farthestYear start d} day := by
  have hListed : ∀ {day}, last = dateAt day time → ∀ d, start ≤ d → model.Listed d → day ≤ d := by
    intro day hLast d hAfter hListed
    obtain ⟨stop, hStop, hLe⟩ := searchMonths_skips_nothing hModel hRange hSearch hAfter hListed
    have hSame : dateAt stop time = dateAt day time := hStop.symm.trans hLast
    unfold dateAt at hSame
    omega
  -- a search ends at a listed day, at the month it gives up in, or at once
  by_cases hYear : monthOf start / 12 < farthestYear
  · have hStops : ∀ d, model.Stops farthestYear start d ↔ model.Listed d ∨
        d = firstDay (model.exitMonth farthestYear) := fun d =>
      or_iff_right (not_le.mpr hYear)
    cases searchMonths_cases hModel hRange hYear with
    | found day hLeast hWeekDay hEnds =>
        have hLast := Option.some.inj (searchMonths_unique hSearch hEnds)
        refine ⟨day, hLast, ⟨hLeast.1.1.after, (hStops day).mpr (Or.inl hLeast.1.2)⟩, ?_⟩
        rintro d ⟨hAfter, hStop⟩
        rcases (hStops d).mp hStop with hMem | rfl
        · exact hListed hLast d hAfter hMem
        · exact hLeast.1.1.le_exit hModel
    | hangs day hLeast hWeekDay hStuck =>
        rw [hStuck] at hSearch
        cases hSearch
    | expires hNone _ =>
        obtain ⟨ret, hEnds, hRet⟩ := searchMonths_exit hModel hRange hYear hNone
        obtain rfl := searchMonths_unique hSearch hEnds
        rcases hRet with ⟨-, hExit⟩ | ⟨-, hLost⟩
        · have hLast := Option.some.inj hExit
          have hHorizon := hModel.horizon_le_exitMonth farthestYear
          refine ⟨_, hLast, ⟨le_firstDay (by omega), (hStops _).mpr (Or.inr rfl)⟩, ?_⟩
          rintro d ⟨hAfter, hStop⟩
          rcases (hStops d).mp hStop with hMem | rfl
          · exact hListed hLast d hAfter hMem
          · exact le_rfl
        · cases hLost
  -- past the horizon the loop is not entered, and the start is what is left
  · have hExit : JsNumber.lt (JsDate.get (some (dateAt start time)) TimeZone.utc.getFullYear)
        (some farthestYear) = false := by
      simpa using hYear
    cases fuel with
    | zero => cases hSearch
    | succ fuel =>
        rw [searchMonths_of_not_lt hExit] at hSearch
        exact ⟨start, (Option.some.inj (Option.some.inj hSearch)).symm,
          ⟨le_rfl, Or.inl (not_lt.mp hYear)⟩, fun d hD => hD.1⟩

/-- An answer is the present second and the waits for the fields, on the clock that is
`utcOffsetMinutes` ahead of UTC. -/
theorem exists_waits_of_answer (hModel : model.WellFormed) (hStartAfter : model.startAfter = none)
    {now answer : Int} {fuel : Nat}
    (hAnswer : nextCronTime .utc fuel model (some now) = some (some (some answer))) :
    ∃ seconds minutes hours days : Nat, seconds < 60 ∧ minutes < 60 ∧ hours < 24 ∧
      model.Waits (TimeZone.utc.getFullYear now + maximumYearInFuture)
        (now / 1000 + 1 + 60 * model.utcOffsetMinutes) seconds minutes hours days ∧
      answer = (now / 1000 + 1 + seconds + 60 * minutes + 3600 * hours + 86400 * days) * 1000 := by
  have hPassed : ¬ model.EndByPassed (some now) := by
    intro hPassed
    rw [nextCronTime_of_endByPassed hPassed] at hAnswer
    cases hAnswer
  rw [nextCronTime_searches hModel.timeLists hPassed, Option.map_eq_some_iff] at hAnswer
  obtain ⟨ret, hSearch, hFinish⟩ := hAnswer
  rw [farthestYearOf, JsDate.get_some, JsNumber.add_some] at hSearch hFinish
  obtain ⟨last, rfl, hBack, -⟩ := exists_of_finishTime hFinish
  obtain ⟨start, hStart⟩ : ∃ start : Int, model.searchStart (some now) = some start := by
    cases hStart : model.searchStart (some now) with
    | none =>
        rw [hStart] at hSearch
        cases searchMonths_none _ hSearch
    | some start => exact ⟨start, rfl⟩
  have hRange := inRange_searchStart hStart
  rw [hStart, ← dateAt_timeOfDay start] at hSearch
  rw [← dateAt_timeOfDay start] at hRange
  obtain ⟨day, hLast, ⟨hAfter, hStop⟩, hFirst⟩ := searchMonths_stops hModel.dayLists hRange hSearch
  -- the search starts on the clock that is ahead of UTC
  have hMoment : start = model.alignTime
      ((now / 1000 + 1 + 60 * model.utcOffsetMinutes) * 1000) := by
    have hLatest : model.latest now = now := by
      unfold ScheduleCronModel.latest
      rw [hStartAfter]
      rfl
    rw [searchStart_eq_some hStart, hLatest]
    congr 1
    omega
  obtain ⟨seconds, minutes, hours, hSeconds, hMinutes, hHours, hSecond, hMinute, hHour, hAlign⟩ :=
    exists_waits_alignTime hModel.timeLists (now / 1000 + 1 + 60 * model.utcOffsetMinutes)
  rw [hAlign] at hMoment
  obtain ⟨days, hDays⟩ := Int.eq_ofNat_of_zero_le (sub_nonneg.mpr hAfter)
  have hStartDay : start / 86400000 = (now / 1000 + 1 + 60 * model.utcOffsetMinutes + seconds +
      60 * minutes + 3600 * hours) / 86400 := by omega
  rw [hStartDay] at hStop hFirst hDays
  refine ⟨seconds, minutes, hours, days, hSeconds, hMinutes, hHours,
    ⟨hSecond, hMinute, hHour, ?_, ?_⟩, ?_⟩
  · show model.Stops _ _ _
    convert hStop using 1
    omega
  · intro n hn
    have := hFirst ⟨by omega, hn⟩
    omega
  · simp only [dateAt, timeOfDay] at hLast
    omega

end

/-- **The answer is the one of the requester's clock** exactly when the search waits for each
field as long from the clock ahead of UTC as from the one behind it. -/
theorem requesterClock_iff {model : ScheduleCronModel} (hModel : model.WellFormed)
    (hStartAfter : model.startAfter = none) {now answer expected : Int} {fuel more : Nat}
    (hAnswer : nextCronTime .utc fuel model (some now) = some (some (some answer)))
    (hExpected : nextCronTime .utc more { model with utcOffsetMinutes := 0 }
      (some (now - model.utcOffsetMinutes * 60000)) = some (some (some expected))) :
    answer = expected + model.utcOffsetMinutes * 60000 ↔ model.WaitsAlike now := by
  have hOther : ScheduleCronModel.WellFormed { model with utcOffsetMinutes := 0 } :=
    ⟨hModel.seconds, hModel.minutes, hModel.hours, hModel.daysOfMonth, hModel.months,
      hModel.daysOfWeek⟩
  obtain ⟨seconds, minutes, hours, days, hSeconds, hMinutes, hHours, hAhead, hAnswerAt⟩ :=
    exists_waits_of_answer hModel hStartAfter hAnswer
  obtain ⟨seconds', minutes', hours', days', hSeconds', hMinutes', hHours', hHome, hExpectedAt⟩ :=
    exists_waits_of_answer hOther hStartAfter hExpected
  -- the model without an offset has the same lists
  have hBehind : model.Waits (TimeZone.utc.getFullYear (now - model.utcOffsetMinutes * 60000) +
      maximumYearInFuture) (now / 1000 + 1 - 60 * model.utcOffsetMinutes)
        seconds' minutes' hours' days' := by
    have hMoment : (now - model.utcOffsetMinutes * 60000) / 1000 + 1 + 60 * 0 =
        now / 1000 + 1 - 60 * model.utcOffsetMinutes := by omega
    rw [hMoment] at hHome
    exact ⟨hHome.second, hHome.minute, hHome.hour, hHome.day⟩
  constructor
  · intro hSame
    have hWaits : seconds' = seconds ∧ minutes' = minutes ∧ hours' = hours ∧ days' = days := by
      omega
    obtain ⟨rfl, rfl, rfl, rfl⟩ := hWaits
    exact ⟨_, _, _, _, hAhead, hBehind⟩
  · rintro ⟨_, _, _, _, hFirst, hSecond⟩
    obtain ⟨rfl, rfl, rfl, rfl⟩ := hAhead.unique hFirst
    obtain ⟨rfl, rfl, rfl, rfl⟩ := hBehind.unique hSecond
    omega

/-- Midnights on a clock twelve hours behind UTC, which the clock twelve hours ahead shows
too. -/
theorem requesterClock_midday :
    ScheduleCronModel.WaitsAlike
      { midnightOn [0, 1, 2, 3, 4, 5, 6] with utcOffsetMinutes := 720 } 1709164800000 :=
  (@requesterClock_iff { midnightOn [0, 1, 2, 3, 4, 5, 6] with utcOffsetMinutes := 720 }
    (by decide) rfl 1709164800000 1709208000000 1709164800000 5 5 (by decide +kernel)
    (by decide +kernel)).mp (by decide)

/-- Midnight in India, asked for in the morning of 29 February 2024 there: the answer is six
hours later, at eleven in the morning. -/
theorem requesterClock_india :
    ¬ ∀ model : ScheduleCronModel, model.WellFormed → model.startAfter = none →
      model.endBy = none → ∀ now answer expected : Int, ∀ fuel more,
      nextCronTime .utc fuel model (some now) = some (some (some answer)) →
      nextCronTime .utc more { model with utcOffsetMinutes := 0 }
        (some (now - model.utcOffsetMinutes * 60000)) = some (some (some expected)) →
      answer = expected + model.utcOffsetMinutes * 60000 := by
  intro hAll
  have hSame := hAll { midnightOn [0, 1, 2, 3, 4, 5, 6] with utcOffsetMinutes := -330 }
    (by decide) rfl rfl 1709164800000 1709184600000 1709251200000 5 5 (by decide +kernel)
    (by decide +kernel)
  exact absurd hSame (by decide)

end TernScheduler
