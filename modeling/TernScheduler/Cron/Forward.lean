import TernScheduler.Cron.Matching

/-!
# The search moves forward

For lists in range, but in any order, and on a server in UTC: every setter that lowers a
field is followed by one that carries, and the two together do not move the date back.

* `Ahead` says of a date that is not lost that it is a whole second, not before another.
* `OnDay` says the same of the second half of the search, which keeps the time of day.
* `forward_nextCronTime`: an answer is after the start and before both ends.
-/

namespace TernScheduler

open Calendar

/-- Every value is in the range of the field. -/
def InField (base period : Int) (values : List Int) : Prop :=
  ∀ value ∈ values, base ≤ value ∧ value < base + period

instance (base period : Int) (values : List Int) : Decidable (InField base period values) :=
  inferInstanceAs (Decidable (∀ value ∈ values, base ≤ value ∧ value < base + period))

/-- The lists are in range; they may be in any order. -/
structure ScheduleCronModel.InFields (model : ScheduleCronModel) : Prop where
  seconds : InField 0 60 model.seconds
  minutes : InField 0 60 model.minutes
  hours : InField 0 24 model.hours
  daysOfMonth : InField 1 31 model.daysOfMonth
  months : InField 1 12 model.months
  daysOfWeek : InField 0 7 model.daysOfWeek

instance (model : ScheduleCronModel) : Decidable model.InFields :=
  decidable_of_iff (InField 0 60 model.seconds ∧ InField 0 60 model.minutes ∧
      InField 0 24 model.hours ∧ InField 1 31 model.daysOfMonth ∧
      InField 1 12 model.months ∧ InField 0 7 model.daysOfWeek)
    ⟨fun ⟨seconds, minutes, hours, days, months, weekDays⟩ =>
      ⟨seconds, minutes, hours, days, months, weekDays⟩,
    fun h => ⟨h.seconds, h.minutes, h.hours, h.daysOfMonth, h.months, h.daysOfWeek⟩⟩

/-- The date, if it is not lost, is a whole second and not before `start`. -/
def Ahead (start : Int) (ret : JsDate) : Prop :=
  ∀ date : Int, date ∈ ret → start ≤ date ∧ date % 1000 = 0

/-- The date, if it is not lost, is at the time of a day that is not before `start`. -/
def OnDay (time : TimeOfDay) (start : Int) (ret : JsDate) : Prop :=
  ∀ date : Int, date ∈ ret → ∃ day, date = dateAt day time ∧ start ≤ day

theorem ahead_none (start : Int) : Ahead start none := fun _ h => nomatch h

theorem ahead_timeClip {start date : Int} (hAfter : start ≤ date) (hWhole : date % 1000 = 0) :
    Ahead start (timeClip date) := by
  intro other hOther
  obtain ⟨-, rfl⟩ := timeClip_eq_some.mp hOther
  exact ⟨hAfter, hWhole⟩

theorem onDay_none (time : TimeOfDay) (start : Int) : OnDay time start none :=
  fun _ h => nomatch h

theorem onDay_timeClip {time : TimeOfDay} {start day : Int} (hAfter : start ≤ day) :
    OnDay time start (timeClip (dateAt day time)) := by
  intro date hDate
  obtain ⟨-, rfl⟩ := timeClip_eq_some.mp hDate
  exact ⟨day, rfl, hAfter⟩

theorem OnDay.mono {time : TimeOfDay} {start later : Int} {ret : JsDate}
    (h : OnDay time later ret) (hLater : start ≤ later) : OnDay time start ret := by
  intro date hDate
  obtain ⟨day, hDay, hAfter⟩ := h date hDate
  exact ⟨day, hDay, hLater.trans hAfter⟩

/-- What a step does to a date at a day, it does to every date of the kind. -/
theorem OnDay.step {time : TimeOfDay} {start : Int} {ret : JsDate} {next : JsDate → JsDate}
    (h : OnDay time start ret) (hNone : next none = none)
    (hNext : ∀ day, OnDay time day (next (some (dateAt day time)))) :
    OnDay time start (next ret) := by
  cases ret with
  | none =>
      rw [hNone]
      exact onDay_none time start
  | some date =>
      obtain ⟨day, rfl, hAfter⟩ := h date rfl
      exact (hNext day).mono hAfter

/-! ## The time of day -/

section

variable {get : JsDate → JsNumber} {set : JsDate → JsNumber → JsDate}
  {carry : JsDate → JsDate} {unit period : Int} {values : List Int}

/-- One `findNext` of the alignment moves forward: a value that is found is not less than the
present one, and one period is more than the field goes back by. -/
theorem alignField_ahead (hField : UtcField get set carry unit period) (hUnit : 0 < unit)
    (hWhole : 1000 ∣ unit) (hPeriod : 0 < period)
    (hValues : InField 0 period values) {start date : Int} (hDate : Ahead start (some date)) :
    Ahead start (alignField get set carry values (some date)) := by
  obtain ⟨hAfter, hSecond⟩ := hDate date rfl
  have hMoved : ∀ steps : Int, (date + steps * unit) % 1000 = 0 := fun steps =>
    Int.emod_eq_zero_of_dvd (Int.dvd_add (Int.dvd_of_emod_eq_zero hSecond)
      (Dvd.dvd.mul_left hWhole steps))
  have hPresent := Int.emod_lt_of_pos (date / unit) hPeriod
  unfold alignField
  rw [hField.get_some, findNext_some]
  cases hFind : values.find? (date / unit % period ≤ ·) with
  | some value =>
      have hLe : date / unit % period ≤ value := by
        simpa using List.find?_some hFind
      have hForward : 0 ≤ (value - date / unit % period) * unit :=
        mul_nonneg (sub_nonneg.mpr hLe) hUnit.le
      rw [Option.elim_some, hField.set_some]
      exact ahead_timeClip (by omega) (hMoved _)
  | none =>
      cases hHead : values.head? with
      | none =>
          rw [Option.elim_none, hField.set_none, hField.carry_none]
          exact ahead_none start
      | some first =>
          -- the field wraps around to its first value, and carries one period
          have hFirst := hValues first (List.mem_of_head? hHead)
          have hForward : 0 ≤ (first - date / unit % period + period) * unit :=
            mul_nonneg (by omega) hUnit.le
          rw [Option.elim_none, hField.set_some]
          cases hBack : timeClip (date + (first - date / unit % period) * unit) with
          | none =>
              rw [hField.carry_none]
              exact ahead_none start
          | some back =>
              obtain ⟨-, rfl⟩ := timeClip_eq_some.mp hBack
              rw [hField.carry_some, add_assoc, ← add_mul]
              exact ahead_timeClip (by omega) (hMoved _)

end

variable {model : ScheduleCronModel} {start : Int}

/-- The three alignments move forward. -/
theorem alignTime_ahead (hModel : model.InFields) {ret : JsDate} (hRet : Ahead start ret) :
    Ahead start
      (alignHours .utc model (alignMinutes .utc model (alignSeconds .utc model ret))) := by
  have hStep : ∀ {align : JsDate → JsDate} {ret : JsDate}, align none = none →
      (∀ date, Ahead start (some date) → Ahead start (align (some date))) → Ahead start ret →
        Ahead start (align ret) := by
    intro align ret hNone hSome hRet
    cases ret with
    | none =>
        rw [hNone]
        exact ahead_none start
    | some date => exact hSome date hRet
  have hSeconds := hStep (alignSeconds_none .utc model) (fun _ => alignField_ahead
    utcField_seconds (by decide) (by decide) (by decide) hModel.seconds) hRet
  have hMinutes := hStep (alignMinutes_none .utc model) (fun _ => alignField_ahead
    utcField_minutes (by decide) (by decide) (by decide) hModel.minutes) hSeconds
  exact hStep (alignHours_none .utc model) (fun _ => alignField_ahead
    utcField_hours (by decide) (by decide) (by decide) hModel.hours) hMinutes

/-! ## The day -/

section

variable {time : TimeOfDay} {day : Int}

theorem onDay_firstDay {month : Int} (hMonth : monthOf day < month) :
    OnDay time day (timeClip (dateAt (firstDay month) time)) :=
  onDay_timeClip (le_firstDay hMonth)

/-- The next listed month is this one or a later one of this year, or the first listed month
of the next year. -/
theorem alignMonth_onDay (hModel : InField 1 12 model.months) :
    OnDay time day (alignMonth .utc model (some (dateAt day time))) := by
  unfold alignMonth
  rw [JsDate.get_some, getMonth_dateAt, JsNumber.add_some, findNext_some, setDate_first]
  cases hFind : model.months.find? (monthOf day % 12 + 1 ≤ ·) with
  | some next =>
      have hLe : monthOf day % 12 + 1 ≤ next := by
        simpa using List.find?_some hFind
      rw [Option.elim_some, JsNumber.eq_some]
      by_cases hSame : next - 1 = monthOf day % 12
      · rw [decide_eq_true hSame, if_pos rfl]
        rintro _ ⟨⟩
        exact ⟨day, rfl, le_rfl⟩
      · rw [decide_eq_false hSame, if_neg Bool.false_ne_true]
        cases hFirst : timeClip (dateAt (firstDay (monthOf day)) time) with
        | none => exact onDay_none time day
        | some first =>
            obtain ⟨-, rfl⟩ := timeClip_eq_some.mp hFirst
            rw [JsDate.setMonth_dateAt]
            exact onDay_firstDay (by omega)
  | none =>
      rw [Option.elim_none]
      cases hFirst : timeClip (dateAt (firstDay (monthOf day)) time) with
      | none => exact onDay_none time day
      | some first =>
          obtain ⟨-, rfl⟩ := timeClip_eq_some.mp hFirst
          cases hHead : model.months.head? with
          | none => exact onDay_none time day
          | some next =>
              -- first the month is set, which may go back, and then the year
              have hNext := hModel next (List.mem_of_head? hHead)
              simp only [JsNumber.add_some, JsDate.setMonth_dateAt]
              cases hWrap : timeClip (dateAt (firstDay (12 * (monthOf day / 12) + (next + -1)))
                  time) with
              | none => exact onDay_none time day
              | some wrapped =>
                  obtain ⟨-, rfl⟩ := timeClip_eq_some.mp hWrap
                  rw [JsDate.get_some, getFullYear_dateAt, monthOf_firstDay, JsNumber.add_some,
                    JsDate.setFullYear_dateAt]
                  exact onDay_firstDay (by omega)

/-- A listed day of the month that is found is not before the present one. -/
theorem alignDay_onDay : OnDay time day (alignDay .utc model (some (dateAt day time))).2 := by
  have hStays : OnDay time day (some (dateAt day time)) := by
    rintro _ ⟨⟩
    exact ⟨day, rfl, le_rfl⟩
  unfold alignDay
  rw [JsDate.get_some, getDate_dateAt, findNext_some]
  cases hFind : model.daysOfMonth.find? (dayOfMonth day ≤ ·) with
  | none => exact hStays
  | some next =>
      have hLe : dayOfMonth day ≤ next := by
        simpa using List.find?_some hFind
      rw [Option.elim_some]
      dsimp only
      -- a day that this month does not have is left to the next one
      split
      · rw [JsDate.setDate_dateAt]
        exact onDay_timeClip (by omega)
      · exact hStays

theorem incrementMonth_onDay :
    OnDay time day (incrementMonth .utc (some (dateAt day time))) := by
  rw [incrementMonth_utc]
  cases timeClip (dateAt (firstDay (monthOf day)) time) with
  | none => exact onDay_none time day
  | some _ => exact onDay_firstDay (by omega)

theorem alignMonth_none : alignMonth .utc model none = none := by
  unfold alignMonth
  rw [JsDate.get_none, JsNumber.add_none, findNext_none]
  rfl

/-- The loop over the days of a month moves forward. -/
theorem searchDays_onDay {fuel : Nat} {ret : JsDate} (hRet : OnDay time start ret)
    {answer : Bool × JsDate} (hDays : searchDays .utc model fuel ret = some answer) :
    OnDay time start answer.2 := by
  induction fuel generalizing ret with
  | zero => cases hDays
  | succ fuel ih =>
      have hDay : OnDay time start (alignDay .utc model ret).2 := by
        refine @OnDay.step time start ret (fun ret => (alignDay .utc model ret).2) hRet ?_ ?_
        · rw [alignDay_none]
        · exact fun _ => alignDay_onDay
      rw [searchDays] at hDays
      -- only a day that fails on its weekday goes round again
      cases hAlign : alignDay .utc model ret with
      | mk signal moved =>
          rw [hAlign] at hDays hDay
          cases signal with
          | matched =>
              obtain rfl := Option.some.inj hDays
              exact hDay
          | inc =>
              obtain rfl := Option.some.inj hDays
              exact hDay
          | same => exact ih hDay hDays

/-- The loop over the months moves forward. -/
theorem searchMonths_onDay (hModel : InField 1 12 model.months) {farthestYear : JsNumber}
    {fuel : Nat} {ret result : JsDate} (hRet : OnDay time start ret)
    (hSearch : searchMonths .utc model farthestYear fuel ret = some result) :
    OnDay time start result := by
  induction fuel generalizing ret with
  | zero => cases hSearch
  | succ fuel ih =>
      cases hYear : JsNumber.lt (ret.get TimeZone.utc.getFullYear) farthestYear with
      | false =>
          rw [searchMonths_of_not_lt hYear] at hSearch
          exact Option.some.inj hSearch ▸ hRet
      | true =>
          rw [searchMonths_of_lt hYear] at hSearch
          -- each round moves the date on by whole days, or loses it
          have hMonth : OnDay time start (alignMonth .utc model ret) :=
            hRet.step alignMonth_none fun _ => alignMonth_onDay hModel
          cases hDays : searchDays .utc model fuel (alignMonth .utc model ret) with
          | none =>
              rw [hDays] at hSearch
              cases hSearch
          | some answer =>
              have hMoved := searchDays_onDay hMonth hDays
              rw [hDays] at hSearch
              obtain ⟨found, day⟩ := answer
              cases found with
              | true => exact Option.some.inj hSearch ▸ hMoved
              | false =>
                  exact ih (hMoved.step rfl fun _ => incrementMonth_onDay) hSearch

end

/-! ## The whole search -/

theorem searchMonths_ahead (hModel : model.InFields) {farthestYear : JsNumber} {fuel : Nat}
    {ret result : JsDate} (hRet : Ahead start ret)
    (hSearch : searchMonths .utc model farthestYear fuel ret = some result) :
    Ahead start result := by
  cases ret with
  | none =>
      cases fuel with
      | zero => cases hSearch
      | succ fuel =>
          rw [searchMonths_of_not_lt rfl] at hSearch
          exact Option.some.inj hSearch ▸ ahead_none start
  | some date =>
      obtain ⟨hAfter, hWhole⟩ := hRet date rfl
      have hDay : OnDay (timeOfDay date) (date / 86400000) (some date) := by
        rintro _ ⟨⟩
        exact ⟨date / 86400000, (dateAt_timeOfDay date).symm, le_rfl⟩
      intro last hLast
      obtain ⟨day, rfl, hLater⟩ := searchMonths_onDay hModel.months hDay hSearch last hLast
      refine ⟨?_, ?_⟩
      · rw [← dateAt_timeOfDay date] at hAfter
        unfold dateAt at *
        omega
      · simp only [dateAt, timeOfDay]
        omega

/-- The start is one whole second past `now` and `startAfter`, on the requester's clock. -/
theorem firstMoment_ahead (now : Date) :
    Ahead ((model.latest now / 1000 + 1) * 1000 + model.utcOffsetMinutes * 60000)
      (firstMoment .utc model (some now)) := by
  by_cases hNow : InRange now
  · rw [firstMoment_some hNow]
    cases hSecond : timeClip (model.latest now + 1000) with
    | none => exact ahead_none _
    | some second =>
        obtain ⟨-, rfl⟩ := timeClip_eq_some.mp hSecond
        exact ahead_timeClip (by omega) (by omega)
  · have hClone : JsDate.cloneDateTime (some now) = none := timeClip_of_not_inRange hNow
    unfold firstMoment notBeforeStart
    rw [hClone]
    cases model.startAfter with
    | none => exact ahead_none _
    | some _ => exact ahead_none _

/-- **An answer is ahead**: it is a whole second after `now` and `startAfter`, before `endBy`,
and within the years that are searched. -/
theorem forward_nextCronTime (hModel : model.InFields) {now answer : Int} {fuel : Nat}
    (hAnswer : nextCronTime .utc fuel model (some now) = some (some (some answer))) :
    answer % 1000 = 0 ∧ model.latest now < answer ∧ ¬ model.AtEnd answer ∧
      TimeZone.utc.getFullYear answer < TimeZone.utc.getFullYear now + maximumYearInFuture := by
  simp only [nextCronTime] at hAnswer
  split at hAnswer
  · cases hAnswer
  · obtain ⟨ret, hSearch, hFinish⟩ := Option.map_eq_some_iff.mp hAnswer
    have hAhead := searchMonths_ahead hModel
      (alignTime_ahead hModel (firstMoment_ahead now)) hSearch
    rw [farthestYearOf, JsDate.get_some, JsNumber.add_some] at hFinish
    obtain ⟨date, rfl, hAnswer, hBefore, hYear⟩ := exists_of_finishTime hFinish
    obtain ⟨hAfter, hWhole⟩ := hAhead date rfl
    exact ⟨by omega, by omega, hBefore, hYear⟩

end TernScheduler
