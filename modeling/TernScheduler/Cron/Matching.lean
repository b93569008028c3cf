import TernScheduler.Cron.Search

/-!
# Dates that match

A date matches when its second, minute, hour, day of the month, month and day of the week
are listed.

* `ScheduleCronModel.Matches` says so of the fields of a date, and `matches_iff` of its day
  and its time of day.
* `searchMonths_skips_nothing`: the loops pass over no listed day before the horizon.
* `finishTime_utc` is the end of `nextCronTime` on a server in UTC.
-/

namespace TernScheduler

open Calendar Periodic

/-- Every field of the date is listed. -/
structure ScheduleCronModel.Matches (model : ScheduleCronModel) (date : Date) : Prop where
  second : TimeZone.utc.getSeconds date ∈ model.seconds
  minute : TimeZone.utc.getMinutes date ∈ model.minutes
  hour : TimeZone.utc.getHours date ∈ model.hours
  dayOfMonth : TimeZone.utc.getDate date ∈ model.daysOfMonth
  month : TimeZone.utc.getMonth date + 1 ∈ model.months
  weekDay : TimeZone.utc.getDay date ∈ model.daysOfWeek

instance (model : ScheduleCronModel) (date : Date) : Decidable (model.Matches date) :=
  decidable_of_iff (TimeZone.utc.getSeconds date ∈ model.seconds ∧
      TimeZone.utc.getMinutes date ∈ model.minutes ∧ TimeZone.utc.getHours date ∈ model.hours ∧
      TimeZone.utc.getDate date ∈ model.daysOfMonth ∧
      TimeZone.utc.getMonth date + 1 ∈ model.months ∧
      TimeZone.utc.getDay date ∈ model.daysOfWeek)
    ⟨fun ⟨second, minute, hour, dayOfMonth, month, weekDay⟩ =>
      ⟨second, minute, hour, dayOfMonth, month, weekDay⟩,
    fun h => ⟨h.second, h.minute, h.hour, h.dayOfMonth, h.month, h.weekDay⟩⟩

/-- The second, the minute and the hour are listed. -/
structure ScheduleCronModel.TimeListed (model : ScheduleCronModel) (date : Int) : Prop where
  second : date / 1000 % 60 ∈ model.seconds
  minute : date / 60000 % 60 ∈ model.minutes
  hour : date / 3600000 % 24 ∈ model.hours

variable {model : ScheduleCronModel}

/-- A date matches with its time of day and its day. -/
theorem matches_iff {date : Int} :
    model.Matches date ↔ model.TimeListed date ∧ model.Listed (date / 86400000) ∧
      dayOfWeek (date / 86400000) ∈ model.daysOfWeek := by
  have hMonth : TimeZone.utc.getMonth date + 1 = 1 + monthOf (date / 86400000) % 12 := by
    simp only [TimeZone.getMonth, TimeZone.localDay, TimeZone.localTime_utc]
    omega
  have hDay : TimeZone.utc.localDay date = date / 86400000 := by
    simp only [TimeZone.localDay, TimeZone.localTime_utc]
  constructor
  · rintro ⟨hSecond, hMinute, hHour, hDate, hInYear, hWeekDay⟩
    refine ⟨⟨?_, ?_, ?_⟩, ⟨hMonth ▸ hInYear, ?_⟩, ?_⟩
    · simpa [TimeZone.getSeconds] using hSecond
    · simpa [TimeZone.getMinutes] using hMinute
    · simpa [TimeZone.getHours] using hHour
    · simpa [TimeZone.getDate, hDay] using hDate
    · simpa [TimeZone.getDay, hDay] using hWeekDay
  · rintro ⟨⟨hSecond, hMinute, hHour⟩, ⟨hInYear, hDate⟩, hWeekDay⟩
    refine ⟨?_, ?_, ?_, ?_, hMonth ▸ hInYear, ?_⟩
    · simpa [TimeZone.getSeconds] using hSecond
    · simpa [TimeZone.getMinutes] using hMinute
    · simpa [TimeZone.getHours] using hHour
    · simpa [TimeZone.getDate, hDay] using hDate
    · simpa [TimeZone.getDay, hDay] using hWeekDay

/-- A date at the same time of another day has the same fields of the time. -/
theorem ScheduleCronModel.TimeListed.dateAt {date : Int} (h : model.TimeListed date) (day : Int) :
    model.TimeListed (dateAt day (timeOfDay date)) := by
  have hSecond : TernScheduler.dateAt day (timeOfDay date) / 1000 % 60 = date / 1000 % 60 := by
    simp only [TernScheduler.dateAt, timeOfDay]
    omega
  have hMinute : TernScheduler.dateAt day (timeOfDay date) / 60000 % 60 = date / 60000 % 60 := by
    simp only [TernScheduler.dateAt, timeOfDay]
    omega
  have hHour : TernScheduler.dateAt day (timeOfDay date) / 3600000 % 24 =
      date / 3600000 % 24 := by
    simp only [TernScheduler.dateAt, timeOfDay]
    omega
  exact ⟨hSecond ▸ h.second, hMinute ▸ h.minute, hHour ▸ h.hour⟩

/-- The field of an instant that was aligned is listed. -/
theorem alignTo_mem {unit period : Int} {values : List Int} (hUnit : 0 < unit)
    (hValues : Values period 0 values) (date : Int) :
    alignTo unit period values date / unit % period ∈ values := by
  have hMem := (nextListed_isLeast hValues (date / unit)).1.2
  have hField : alignTo unit period values date / unit =
      nextListed period 0 values (date / unit) := by
    rw [alignTo, Int.add_comm, Int.add_mul_ediv_right _ _ hUnit.ne',
      Int.ediv_eq_zero_of_lt (Int.emod_nonneg _ hUnit.ne') (Int.emod_lt_of_pos _ hUnit), zero_add]
  rw [hField]
  rwa [zero_add] at hMem

theorem alignTo_emod (unit period : Int) (values : List Int) (date : Int) :
    alignTo unit period values date % unit = date % unit := by
  rw [alignTo, Int.add_comm, Int.add_mul_emod_self_right, Int.emod_emod]

/-- The alignment ends on a listed time. -/
theorem timeListed_alignTime (hModel : model.WellFormed) (date : Int) :
    model.TimeListed (model.alignTime date) := by
  have hHours := alignTo_emod 3600000 24 model.hours
    (alignTo 60000 60 model.minutes (alignTo 1000 60 model.seconds date))
  have hMinutes := alignTo_emod 60000 60 model.minutes (alignTo 1000 60 model.seconds date)
  have hSecond : model.alignTime date / 1000 % 60 =
      alignTo 1000 60 model.seconds date / 1000 % 60 := by
    unfold ScheduleCronModel.alignTime
    omega
  have hMinute : model.alignTime date / 60000 % 60 =
      alignTo 60000 60 model.minutes (alignTo 1000 60 model.seconds date) / 60000 % 60 := by
    unfold ScheduleCronModel.alignTime
    omega
  refine ⟨?_, ?_, ?_⟩
  · rw [hSecond]
    exact alignTo_mem (by decide) hModel.seconds date
  · rw [hMinute]
    exact alignTo_mem (by decide) hModel.minutes _
  · exact alignTo_mem (by decide) hModel.hours _

/-- The search over the days starts at a listed time. -/
theorem timeListed_searchStart (hModel : model.WellFormed) {now : JsDate} {start : Int}
    (hStart : model.searchStart now = some start) : model.TimeListed start := by
  unfold ScheduleCronModel.searchStart at hStart
  simp only [Option.bind_eq_some_iff] at hStart
  obtain ⟨_, -, _, -, moment, -, hClip⟩ := hStart
  obtain ⟨-, rfl⟩ := timeClip_eq_some.mp hClip
  exact timeListed_alignTime hModel moment

/-- A day the search ends on matches at the time it started with. -/
theorem matches_dateAt {start day : Int} (hTime : model.TimeListed start)
    (hListed : model.Listed day) (hWeekDay : dayOfWeek day ∈ model.daysOfWeek) :
    model.Matches (dateAt day (timeOfDay start)) := by
  have hDay : dateAt day (timeOfDay start) / 86400000 = day := by
    simp only [dateAt, timeOfDay]
    omega
  exact matches_iff.mpr ⟨hTime.dateAt day, hDay.symm ▸ hListed, hDay.symm ▸ hWeekDay⟩

/-! ## No listed day is passed over -/

section

variable {time : TimeOfDay} {farthestYear start : Int}

theorem searchMonths_none (fuel : Nat) {result : JsDate}
    (hSearch : searchMonths .utc model (some farthestYear) fuel none = some result) :
    result = none := by
  cases fuel with
  | zero => cases hSearch
  | succ fuel =>
      rw [searchMonths_of_not_lt rfl] at hSearch
      exact (Option.some.inj hSearch).symm

/-- What one round of the loop over the months does to the listed days that are still to
come: it stops at the first of them, or loses the date, or they are still to come. -/
theorem searchMonths_round (hModel : model.DayLists) (hRange : InRange (dateAt start time))
    {fuel : Nat} {result : JsDate}
    (hLoop : JsNumber.lt (JsDate.get (some (dateAt start time)) TimeZone.utc.getFullYear)
      (some farthestYear) = true)
    (hSearch : searchMonths .utc model (some farthestYear) (fuel + 1)
      (some (dateAt start time)) = some result) :
    result = none ∨
    (∃ last, result = some (dateAt last time) ∧
      ∀ d, start ≤ d → model.Listed d → last ≤ d) ∨
    ∃ next, InRange (dateAt next time) ∧
      searchMonths .utc model (some farthestYear) fuel (some (dateAt next time)) = some result ∧
      ∀ d, start ≤ d → model.Listed d → next ≤ d := by
  rw [searchMonths_of_lt hLoop] at hSearch
  cases fuel with
  | zero => cases hSearch
  | succ fuel =>
      rw [searchDays] at hSearch
      rcases @alignMonth_cases model time farthestYear start hModel hRange with
        ⟨entry, hMonth, hIn, hAfter, hAlign, hLeast, -⟩ | ⟨hAlign, -⟩
      · have hEntry : ∀ d, start ≤ d → model.Listed d → entry ≤ d := fun d hD hListed =>
          hLeast d hD (hMonth ▸ hModel.nextMonth_le hD hListed)
        rw [hAlign] at hSearch
        rcases alignDay_utc hModel hIn with ⟨last, hLast, hDay⟩ | ⟨hClosed, hDay⟩
        · -- A day of the month is listed: it is the answer, or the loop over the days hangs on it.
          rw [hDay] at hSearch
          by_cases hWeekDay : dayOfWeek last ∈ model.daysOfWeek
          · rw [if_pos hWeekDay] at hSearch
            refine Or.inr (Or.inl ⟨last, (Option.some.inj hSearch).symm, ?_⟩)
            intro d hD hListed
            by_contra hBefore
            -- a listed day between the entry and the open day is open itself
            have hLow := hEntry d hD hListed
            have hSame := hLast.1.2.1
            have hFirst := monthOf_mono hLow
            have hSecond := monthOf_mono (show d ≤ last by omega)
            have hOpen : model.Open time entry d := ⟨hLow, by omega, hListed.2,
              inRange_of_between hIn hLast.1.2.2.2 hLow (by omega)⟩
            exact hBefore (hLast.2 hOpen)
          · rw [if_neg hWeekDay] at hSearch
            simp only [searchDays_eq_none hModel (isLeast_open_self hLast.1) hWeekDay] at hSearch
            cases hSearch
        · -- No day that is left of the month is listed: the search goes on to the next month.
          rw [hDay] at hSearch
          simp only [incrementMonth_utc] at hSearch
          cases hNext : (timeClip (dateAt (firstDay (monthOf entry)) time)).bind fun _ =>
              timeClip (dateAt (firstDay (monthOf entry + 1)) time) with
          | none =>
              rw [hNext] at hSearch
              exact Or.inl (searchMonths_none _ hSearch)
          | some next =>
              obtain ⟨-, -, hClip⟩ := Option.bind_eq_some_iff.mp hNext
              obtain ⟨hInNext, rfl⟩ := timeClip_eq_some.mp hClip
              rw [hNext] at hSearch
              refine Or.inr (Or.inr ⟨firstDay (monthOf entry + 1), hInNext, hSearch, ?_⟩)
              intro d hD hListed
              by_contra hBefore
              have hLow := hEntry d hD hListed
              have hFirst := monthOf_mono hLow
              have hSecond : monthOf d < monthOf entry + 1 := by
                by_contra hLater
                exact hBefore (firstDay_le (by omega))
              exact hClosed d ⟨hLow, by omega, hListed.2,
                inRange_of_between hIn hInNext hLow (by omega)⟩
      · -- The alignment of the month left the range of dates.
        rw [hAlign, alignDay_none] at hSearch
        exact Or.inl (searchMonths_none _ hSearch)

/-- **The search passes over no listed day.** -/
theorem searchMonths_skips_nothing (hModel : model.DayLists)
    (hRange : InRange (dateAt start time)) {fuel : Nat} {last : Date}
    (hSearch : searchMonths .utc model (some farthestYear) fuel (some (dateAt start time)) =
      some (some last)) {day : Int} (hAfter : start ≤ day) (hListed : model.Listed day) :
    ∃ stop, last = dateAt stop time ∧ stop ≤ day := by
  induction fuel generalizing start with
  | zero => cases hSearch
  | succ fuel ih =>
      cases hLoop : JsNumber.lt (JsDate.get (some (dateAt start time)) TimeZone.utc.getFullYear)
          (some farthestYear) with
      | false =>
          rw [searchMonths_of_not_lt hLoop] at hSearch
          exact ⟨start, (Option.some.inj (Option.some.inj hSearch)).symm, hAfter⟩
      | true =>
          rcases searchMonths_round hModel hRange hLoop hSearch with
            hLost | ⟨stop, hStop, hLeast⟩ | ⟨next, hIn, hGoesOn, hLeast⟩
          · cases hLost
          · exact ⟨stop, Option.some.inj hStop, hLeast day hAfter hListed⟩
          · exact ih hIn hGoesOn (hLeast day hAfter hListed)

/-- A date before the horizon that the search ends on is the first listed day it reaches. -/
theorem searchMonths_found (hModel : model.DayLists) (hRange : InRange (dateAt start time))
    (hYear : monthOf start / 12 < farthestYear) {fuel : Nat} {last : Date}
    (hSearch : searchMonths .utc model (some farthestYear) fuel (some (dateAt start time)) =
      some (some last)) (hLast : TimeZone.utc.getFullYear last < farthestYear) :
    ∃ day, last = dateAt day time ∧
      IsLeast {d | model.Reached farthestYear time start d ∧ model.Listed d} day ∧
        dayOfWeek day ∈ model.daysOfWeek := by
  cases searchMonths_cases hModel hRange hYear with
  | found day hLeast hWeekDay hEnds =>
      exact ⟨day, Option.some.inj (searchMonths_unique hSearch hEnds), hLeast, hWeekDay⟩
  | hangs day hLeast hWeekDay hStuck =>
      rw [hStuck] at hSearch
      cases hSearch
  | expires hNone hEnds =>
      -- A search that gives up ends at or past the horizon.
      obtain ⟨steps, hEnds⟩ := hEnds
      obtain ⟨ret, hRet, hPast⟩ := hEnds _ (Nat.le_max_right fuel steps)
      rw [searchMonths_mono (Nat.le_max_left fuel steps) hSearch] at hRet
      obtain rfl := Option.some.inj hRet
      simp only [JsDate.get_some, JsNumber.lt_some, decide_eq_false_iff_not] at hPast
      exact absurd hLast hPast

end

/-! ## The end of `nextCronTime` -/

theorem getFullYear_mono {date later : Int} (hLe : date ≤ later) :
    TimeZone.utc.getFullYear date ≤ TimeZone.utc.getFullYear later := by
  have hMonth := monthOf_mono (show date / 86400000 ≤ later / 86400000 by omega)
  rw [getFullYear_utc, getFullYear_utc]
  omega

theorem setMinutes_back (model : ScheduleCronModel) (date : Date) :
    JsDate.setMinutes .utc (some date) ((JsDate.get (some date) TimeZone.utc.getMinutes).add
      (-model.utcOffsetMinutes)) = timeClip (date - model.utcOffsetMinutes * 60000) := by
  simp only [JsDate.setMinutes, JsDate.get_some, JsNumber.add_some, JsDate.setField_utc]
  congr 1
  omega

/-- The time has come to `endBy`. -/
def ScheduleCronModel.AtEnd (model : ScheduleCronModel) (date : Date) : Prop :=
  ∃ endBy ∈ model.endBy.bind (fromTimeStruct .utc), endBy ≤ date

instance (model : ScheduleCronModel) (date : Date) : Decidable (model.AtEnd date) :=
  inferInstanceAs (Decidable (∃ endBy ∈ model.endBy.bind (fromTimeStruct .utc), endBy ≤ date))

theorem ScheduleCronModel.AtEnd.mono {date later : Int} (h : model.AtEnd date)
    (hLe : date ≤ later) :
    model.AtEnd later := by
  obtain ⟨endBy, hEnd, hBefore⟩ := h
  exact ⟨endBy, hEnd, hBefore.trans hLe⟩

theorem any_endBy_iff (date : Date) :
    (model.endBy.map (fromTimeStruct .utc)).any (fun endBy => JsNumber.ge (some date) endBy) =
      true ↔ model.AtEnd date := by
  unfold ScheduleCronModel.AtEnd
  cases model.endBy with
  | none => simp
  | some endBy =>
      cases hEnd : fromTimeStruct .utc endBy with
      | none => simp [hEnd]
      | some time => simp [hEnd]

/-- A date that is lost, at the latest by the shift back, is handed out as an Invalid
Date. -/
theorem finishTime_lost (farthestYear : JsNumber) {ret : JsDate}
    (hLost : ret.setMinutes .utc ((ret.get TimeZone.utc.getMinutes).add
      (-model.utcOffsetMinutes)) = none) :
    finishTime .utc model farthestYear ret = some none := by
  have hNever : (model.endBy.map (fromTimeStruct .utc)).any
      (fun endBy => JsNumber.ge none endBy) = false := by
    cases model.endBy with
    | none => rfl
    | some endBy => rfl
  simp only [finishTime, hLost, hNever]
  rfl

/-- A date that cannot be shifted back is lost. -/
theorem finishTime_of_not_inRange (farthestYear : JsNumber) {date : Date}
    (hRange : ¬ InRange (date - model.utcOffsetMinutes * 60000)) :
    finishTime .utc model farthestYear (some date) = some none :=
  finishTime_lost farthestYear (by rw [setMinutes_back, timeClip_of_not_inRange hRange])

/-- A date that can be shifted back is handed out, unless it is at `endBy` or past the
horizon. -/
theorem finishTime_some (farthestYear : Int) {date : Date}
    (hRange : InRange (date - model.utcOffsetMinutes * 60000)) :
    finishTime .utc model (some farthestYear) (some date) =
      if model.AtEnd (date - model.utcOffsetMinutes * 60000) ∨
          farthestYear ≤ TimeZone.utc.getFullYear (date - model.utcOffsetMinutes * 60000)
        then none else some (some (date - model.utcOffsetMinutes * 60000)) := by
  unfold finishTime
  simp only [setMinutes_back, timeClip_of_inRange hRange, Bool.or_eq_true, any_endBy_iff]
  simp only [JsDate.get_some, JsNumber.ge_some, decide_eq_true_eq]

/-- An answer is the date shifted back; it is before `endBy` and the horizon. -/
theorem exists_of_finishTime {farthestYear : Int} {ret : JsDate} {answer : Int}
    (hFinish : finishTime .utc model (some farthestYear) ret = some (some answer)) :
    ∃ date : Int, ret = some date ∧ answer = date - model.utcOffsetMinutes * 60000 ∧
      ¬ model.AtEnd answer ∧ TimeZone.utc.getFullYear answer < farthestYear := by
  cases ret with
  | none =>
      rw [finishTime_lost _ rfl] at hFinish
      cases hFinish
  | some date =>
      by_cases hRange : InRange (date - model.utcOffsetMinutes * 60000)
      · rw [finishTime_some _ hRange] at hFinish
        split at hFinish
        · cases hFinish
        · rename_i hKept
          obtain ⟨hBefore, hYear⟩ := not_or.mp hKept
          obtain rfl := Option.some.inj (Option.some.inj hFinish)
          exact ⟨date, rfl, rfl, hBefore, not_le.mp hYear⟩
      · rw [finishTime_of_not_inRange _ hRange] at hFinish
        cases hFinish

end TernScheduler
