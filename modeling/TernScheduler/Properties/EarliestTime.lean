import TernScheduler.Cron.Matching
import TernScheduler.Properties.CronTermination

/-!
# Whether the next cron time is the earliest one

`nextCronTime` aligns the seconds, the minutes and the hours one after the other, and then
looks for a day.  A field that is moved on leaves the smaller ones as they were aligned
before, instead of starting them over at their first values.

* `EarliestTime` says that no whole second that matches is passed over.
* `ScheduleCronModel.KeepsLater` is the slip: a larger field moves on, and a smaller one is
  kept past the first of its values.
* `cron_earliest_iff`: exactly then, and if the time that was passed over is before `endBy`,
  the answer is not the earliest time.
-/

namespace TernScheduler

open Calendar Periodic

/-! ## The earliest time -/

/-- The first whole second after `now` and `startAfter`. -/
def ScheduleCronModel.firstSecond (model : ScheduleCronModel) (now : Date) : Int :=
  (model.latest now / 1000 + 1) * 1000

/-- No whole second after `now` and `startAfter` that matches is passed over: none before the
answer, or, where there is no answer, none before `endBy` and the year that is ten years
after the present one. -/
def EarliestTime (model : ScheduleCronModel) (now : Date) : Option JsDate → Prop
  | some answer => ∀ t, t % 1000 = 0 → model.latest now < t →
      JsNumber.lt (some t) answer = true → ¬ model.Matches t
  | none => ∀ t, t % 1000 = 0 → model.latest now < t → ¬ model.AtEnd t →
      TimeZone.utc.getFullYear t < TimeZone.utc.getFullYear now + maximumYearInFuture →
        ¬ model.Matches t

/-! ## The aligned fields -/

/-- The next listed second, as a number of seconds. -/
def ScheduleCronModel.nextSecond (model : ScheduleCronModel) (moment : Int) : Int :=
  nextListed 60 0 model.seconds (moment / 1000)

/-- The next listed minute from there on, as a number of minutes. -/
def ScheduleCronModel.nextMinute (model : ScheduleCronModel) (moment : Int) : Int :=
  nextListed 60 0 model.minutes (model.nextSecond moment / 60)

/-- The next listed hour from there on, as a number of hours. -/
def ScheduleCronModel.nextHour (model : ScheduleCronModel) (moment : Int) : Int :=
  nextListed 24 0 model.hours (model.nextMinute moment / 60)

/-- A larger field moves on, and a smaller one is kept past the first of its values: the
second, though the minute, the hour or the day moves; the minute, though the hour or the day
moves; or the hour, though the day moves. -/
def ScheduleCronModel.KeepsLater (model : ScheduleCronModel) (moment day : Int) : Prop :=
  (model.nextSecond moment % 60 ≠ model.seconds.headD 0 ∧
      (model.nextMinute moment ≠ moment / 60000 ∨ model.nextHour moment ≠ moment / 3600000 ∨
        day ≠ moment / 86400000)) ∨
    (model.nextMinute moment % 60 ≠ model.minutes.headD 0 ∧
      (model.nextHour moment ≠ moment / 3600000 ∨ day ≠ moment / 86400000)) ∨
    (model.nextHour moment % 24 ≠ model.hours.headD 0 ∧ day ≠ moment / 86400000)

/-- The time of the day with the smaller fields at their first values, where a larger one
moves on. -/
def ScheduleCronModel.resetTime (model : ScheduleCronModel) (moment day : Int) : Int :=
  if day ≠ moment / 86400000 then
    day * 86400000 + model.hours.headD 0 * 3600000 + model.minutes.headD 0 * 60000 +
      model.seconds.headD 0 * 1000
  else if model.nextHour moment ≠ moment / 3600000 then
    model.nextHour moment * 3600000 + model.minutes.headD 0 * 60000 +
      model.seconds.headD 0 * 1000
  else if model.nextMinute moment ≠ moment / 60000 then
    model.nextMinute moment * 60000 + model.seconds.headD 0 * 1000
  else model.nextSecond moment * 1000

section Fields

variable {model : ScheduleCronModel} {moment day : Int}

/-- The first value of a field: it is listed, and no listed value is less. -/
theorem headD_isLeast {period : Int} {values : List Int} (hValues : Values period 0 values) :
    IsLeast {v | v ∈ values} (values.headD 0) := by
  obtain ⟨first, hHead⟩ := hValues.exists_head
  rw [List.headD_eq_head?_getD, hHead, Option.getD_some]
  exact head_isLeast hValues.sorted hHead

/-- The aligned fields of an instant, and the first values they are compared with. -/
structure AlignedFields (model : ScheduleCronModel) (moment : Int) : Prop where
  second : moment / 1000 ≤ model.nextSecond moment ∧
    model.nextSecond moment % 60 ∈ model.seconds
  minute : model.nextSecond moment / 60 ≤ model.nextMinute moment ∧
    model.nextMinute moment % 60 ∈ model.minutes
  hour : model.nextMinute moment / 60 ≤ model.nextHour moment ∧
    model.nextHour moment % 24 ∈ model.hours
  leastSecond : ∀ n, moment / 1000 ≤ n → n % 60 ∈ model.seconds → model.nextSecond moment ≤ n
  leastMinute : ∀ n, model.nextSecond moment / 60 ≤ n → n % 60 ∈ model.minutes →
    model.nextMinute moment ≤ n
  leastHour : ∀ n, model.nextMinute moment / 60 ≤ n → n % 24 ∈ model.hours →
    model.nextHour moment ≤ n

theorem alignedFields (hModel : model.WellFormed) (moment : Int) :
    AlignedFields model moment := by
  have hSecond := nextListed_isLeast hModel.seconds (moment / 1000)
  have hMinute := nextListed_isLeast hModel.minutes (model.nextSecond moment / 60)
  have hHour := nextListed_isLeast hModel.hours (model.nextMinute moment / 60)
  simp only [zero_add] at hSecond hMinute hHour
  exact ⟨hSecond.1, hMinute.1, hHour.1, fun n hLe hMem => hSecond.2 ⟨hLe, hMem⟩,
    fun n hLe hMem => hMinute.2 ⟨hLe, hMem⟩, fun n hLe hMem => hHour.2 ⟨hLe, hMem⟩⟩

/-- The aligned time of a whole second, by its fields. -/
theorem alignTime_eq (hWhole : moment % 1000 = 0) :
    model.alignTime moment = model.nextHour moment * 3600000 +
      model.nextMinute moment % 60 * 60000 + model.nextSecond moment % 60 * 1000 := by
  have hSecond : alignTo 1000 60 model.seconds moment = model.nextSecond moment * 1000 := by
    rw [alignTo, hWhole, Int.add_zero]
    rfl
  have hMinute : alignTo 60000 60 model.minutes (model.nextSecond moment * 1000) =
      model.nextMinute moment * 60000 + model.nextSecond moment % 60 * 1000 := by
    rw [alignTo,
      show model.nextSecond moment * 1000 / 60000 = model.nextSecond moment / 60 by omega,
      show model.nextSecond moment * 1000 % 60000 = model.nextSecond moment % 60 * 1000 by omega]
    rfl
  unfold ScheduleCronModel.alignTime
  rw [hSecond, hMinute, alignTo,
    show (model.nextMinute moment * 60000 + model.nextSecond moment % 60 * 1000) / 3600000 =
      model.nextMinute moment / 60 by omega,
    show (model.nextMinute moment * 60000 + model.nextSecond moment % 60 * 1000) % 3600000 =
      model.nextMinute moment % 60 * 60000 + model.nextSecond moment % 60 * 1000 by omega,
    ← Int.add_assoc]
  rfl

/-- No time that is listed comes before the aligned fields. -/
theorem AlignedFields.le_of_timeListed (hFields : AlignedFields model moment) {date : Int}
    (hAfter : moment ≤ date) (hListed : model.TimeListed date) :
    model.nextSecond moment ≤ date / 1000 ∧ model.nextMinute moment ≤ date / 60000 ∧
      model.nextHour moment ≤ date / 3600000 := by
  have hSecond := hFields.leastSecond (date / 1000) (by omega) hListed.second
  have hMinute := hFields.leastMinute (date / 60000) (by omega) hListed.minute
  exact ⟨hSecond, hMinute, hFields.leastHour (date / 3600000) (by omega) hListed.hour⟩

theorem timeListed_of_fields {date second minute hour : Int} (hSecond : second ∈ model.seconds)
    (hMinute : minute ∈ model.minutes) (hHour : hour ∈ model.hours)
    (hSecondEq : date / 1000 % 60 = second) (hMinuteEq : date / 60000 % 60 = minute)
    (hHourEq : date / 3600000 % 24 = hour) : model.TimeListed date :=
  ⟨hSecondEq ▸ hSecond, hMinuteEq ▸ hMinute, hHourEq ▸ hHour⟩

/-- The reset time is a listed time of the day, not before the moment. -/
theorem resetTime_spec (hModel : model.WellFormed) (hWhole : moment % 1000 = 0)
    (hDay : model.nextHour moment / 24 ≤ day) :
    moment ≤ model.resetTime moment day ∧ model.resetTime moment day % 1000 = 0 ∧
      model.resetTime moment day / 86400000 = day ∧
        model.TimeListed (model.resetTime moment day) := by
  have hFields := alignedFields hModel moment
  have hSecond := hFields.second
  have hMinute := hFields.minute
  have hHour := hFields.hour
  have hSeconds := (headD_isLeast hModel.seconds).1
  have hMinutes := (headD_isLeast hModel.minutes).1
  have hHours := (headD_isLeast hModel.hours).1
  have hSecondsBound := hModel.seconds.bounds _ hSeconds
  have hMinutesBound := hModel.minutes.bounds _ hMinutes
  have hHoursBound := hModel.hours.bounds _ hHours
  unfold ScheduleCronModel.resetTime
  generalize hS : model.seconds.headD 0 = s at *
  generalize hM : model.minutes.headD 0 = m at *
  generalize hH : model.hours.headD 0 = h at *
  -- the largest field that moves on: the day, the hour, the minute or none
  split
  · exact ⟨by omega, by omega, by omega,
      timeListed_of_fields hSeconds hMinutes hHours (by omega) (by omega) (by omega)⟩
  · split
    · exact ⟨by omega, by omega, by omega,
        timeListed_of_fields hSeconds hMinutes hHour.2 (by omega) (by omega) (by omega)⟩
    · split
      · exact ⟨by omega, by omega, by omega,
          timeListed_of_fields hSeconds hMinute.2 hHour.2 (by omega) (by omega) (by omega)⟩
      · exact ⟨by omega, by omega, by omega,
          timeListed_of_fields hSecond.2 hMinute.2 hHour.2 (by omega) (by omega) (by omega)⟩

/-- No listed time of the day, or of a later one, comes before the reset time. -/
theorem resetTime_le (hModel : model.WellFormed) {date : Int} (hAfter : moment ≤ date)
    (hWhole : date % 1000 = 0) (hListed : model.TimeListed date) (hDay : day ≤ date / 86400000) :
    model.resetTime moment day ≤ date := by
  obtain ⟨hSecond, hMinute, hHour⟩ := (alignedFields hModel moment).le_of_timeListed hAfter hListed
  have hSeconds := (headD_isLeast hModel.seconds).2 hListed.second
  have hMinutes := (headD_isLeast hModel.minutes).2 hListed.minute
  have hHours := (headD_isLeast hModel.hours).2 hListed.hour
  have hSecondsBound := hModel.seconds.bounds _ (headD_isLeast hModel.seconds).1
  have hMinutesBound := hModel.minutes.bounds _ (headD_isLeast hModel.minutes).1
  have hHoursBound := hModel.hours.bounds _ (headD_isLeast hModel.hours).1
  unfold ScheduleCronModel.resetTime
  -- either a larger field of the date is past the one that moves on, or the smaller ones of
  -- the reset time are the first listed values
  split
  · omega
  · split
    · omega
    · split
      · omega
      · omega

/-- The slip is what makes the reset time the earlier one. -/
theorem resetTime_lt_iff (hModel : model.WellFormed) (hWhole : moment % 1000 = 0)
    (hDay : model.nextHour moment / 24 ≤ day) :
    model.resetTime moment day < dateAt day (timeOfDay (model.alignTime moment)) ↔
      model.KeepsLater moment day := by
  have hFields := alignedFields hModel moment
  have hSecond := hFields.second
  have hMinute := hFields.minute
  have hHour := hFields.hour
  have hSeconds := (headD_isLeast hModel.seconds).2 hSecond.2
  have hMinutes := (headD_isLeast hModel.minutes).2 hMinute.2
  have hHours := (headD_isLeast hModel.hours).2 hHour.2
  rw [alignTime_eq hWhole]
  simp only [dateAt, timeOfDay]
  unfold ScheduleCronModel.resetTime ScheduleCronModel.KeepsLater
  split
  · omega
  · split
    · omega
    · split
      · omega
      · omega

end Fields

/-! ## The search -/

/-- The slip shows: the search ends on a day before the horizon, a smaller field is kept past
its first value though a larger one moves on, and the time that is passed over is before
`endBy`. -/
structure ScheduleCronModel.SkipsOn (model : ScheduleCronModel) (now start day : Int) : Prop where
  start_eq : model.searchStart (some now) = some start
  least : IsLeast {d | model.Reached (TimeZone.utc.getFullYear now + maximumYearInFuture)
    (timeOfDay start) (start / 86400000) d ∧ model.Listed d} day
  weekDay : dayOfWeek day ∈ model.daysOfWeek
  horizon : monthOf day / 12 < TimeZone.utc.getFullYear now + maximumYearInFuture
  keeps : model.KeepsLater (model.firstSecond now) day
  beforeEnd : ¬ model.AtEnd (model.resetTime (model.firstSecond now) day)

/-- `nextCronTime` passes over a time that matches. -/
def ScheduleCronModel.SkipsTime (model : ScheduleCronModel) (now : Date) : Prop :=
  ¬ model.AtEnd now ∧ ∃ start day, model.SkipsOn now start day

section Search

variable {model : ScheduleCronModel} {now start : Int}

theorem latest_lt_firstSecond (model : ScheduleCronModel) (now : Int) :
    model.latest now < model.firstSecond now := by
  unfold ScheduleCronModel.firstSecond
  omega

theorem firstSecond_whole (model : ScheduleCronModel) (now : Int) :
    model.firstSecond now % 1000 = 0 := by
  unfold ScheduleCronModel.firstSecond
  omega

/-- Without an offset the search starts at the first whole second, aligned. -/
theorem searchStart_eq (hOffset : model.utcOffsetMinutes = 0)
    (hStart : model.searchStart (some now) = some start) :
    start = model.alignTime (model.firstSecond now) := by
  rw [searchStart_eq_some hStart, hOffset, Int.zero_mul, Int.add_zero]
  rfl

theorem day_of_start (hOffset : model.utcOffsetMinutes = 0)
    (hStart : model.searchStart (some now) = some start) :
    start / 86400000 = model.nextHour (model.firstSecond now) / 24 := by
  rw [searchStart_eq hOffset hStart, alignTime_eq (firstSecond_whole model now)]
  omega

/-- A matching time before the horizon lies on the day the search ends on, or later, and not
before the reset time of that day. -/
theorem resetTime_le_of_matches (hModel : model.WellFormed) (hOffset : model.utcOffsetMinutes = 0)
    (hStart : model.searchStart (some now) = some start) {fuel : Nat} {last farthestYear : Int}
    (hSearch : searchMonths .utc model (some farthestYear) fuel (some start) = some (some last))
    {t : Int} (hWhole : t % 1000 = 0) (hAfter : model.latest now < t) (hMatches : model.Matches t)
    (hYear : TimeZone.utc.getFullYear t < farthestYear) :
    ∃ day, last = dateAt day (timeOfDay start) ∧
      IsLeast {d | model.Reached farthestYear (timeOfDay start) (start / 86400000) d ∧
        model.Listed d} day ∧ dayOfWeek day ∈ model.daysOfWeek ∧
      monthOf day / 12 < farthestYear ∧ model.resetTime (model.firstSecond now) day ≤ t := by
  obtain ⟨hTime, hListed, hWeekDay⟩ := matches_iff.mp hMatches
  have hMoment : model.firstSecond now ≤ t := by
    unfold ScheduleCronModel.firstSecond
    omega
  obtain ⟨-, -, hHour⟩ := (alignedFields hModel _).le_of_timeListed hMoment hTime
  have hDay := day_of_start hOffset hStart
  have hLow : start / 86400000 ≤ t / 86400000 := by omega
  have hRange := inRange_searchStart hStart
  rw [← dateAt_timeOfDay start] at hRange hSearch
  -- the search has not passed over the day of `t`, so it ended before the horizon
  obtain ⟨stop, rfl, hStop⟩ :=
    searchMonths_skips_nothing hModel.dayLists hRange hSearch hLow hListed
  have hYearT : monthOf (t / 86400000) / 12 < farthestYear := by
    simpa [getFullYear_utc] using hYear
  have hStopYear := monthOf_mono hStop
  have hStartYear := monthOf_mono hLow
  obtain ⟨day, hEq, hLeast, hOnWeekDay⟩ :=
    searchMonths_found hModel.dayLists hRange (by omega) hSearch
    (by rw [getFullYear_dateAt]; omega)
  have hMillis : stop * 86400000 + (timeOfDay start).millis =
      day * 86400000 + (timeOfDay start).millis := hEq
  obtain rfl : stop = day := by omega
  exact ⟨stop, rfl, hLeast, hOnWeekDay, by omega, resetTime_le hModel hMoment hWhole hTime hStop⟩

/-- The search ends on the day of the slip. -/
theorem ScheduleCronModel.SkipsOn.answer {day : Int} (hModel : model.WellFormed)
    (hEndBy : ¬ model.AtEnd now)
    (h : model.SkipsOn now start day) :
    ∃ fuel, nextCronTime .utc fuel model (some now) = some (finishTime .utc model
      (some (TimeZone.utc.getFullYear now + maximumYearInFuture))
        (some (dateAt day (timeOfDay start)))) := by
  have hRange := inRange_searchStart h.start_eq
  rw [← dateAt_timeOfDay start] at hRange
  have hYear : monthOf (start / 86400000) / 12 <
      TimeZone.utc.getFullYear now + maximumYearInFuture := by
    have := monthOf_mono h.least.1.1.after
    have := h.horizon
    omega
  cases searchMonths_cases hModel.dayLists hRange hYear with
  | found next hNext hWeekDay hEnds =>
      obtain ⟨steps, hEnds⟩ := hEnds
      obtain rfl := hNext.unique h.least
      have hEnd := hEnds steps le_rfl
      rw [dateAt_timeOfDay] at hEnd
      refine ⟨steps, ?_⟩
      rw [nextCronTime_searches hModel.timeLists
          (fun hPassed => hEndBy ((any_endBy_iff now).mp hPassed)),
        h.start_eq]
      exact congrArg (Option.map _) hEnd
  | hangs next hNext hWeekDay => exact absurd (hNext.unique h.least ▸ h.weekDay) hWeekDay
  | expires hNone => exact absurd h.least.1.2 (hNone day h.least.1.1)

/-- Without the slip no matching time before the horizon and `endBy` is passed over. -/
theorem le_of_not_skips (hModel : model.WellFormed) (hOffset : model.utcOffsetMinutes = 0)
    (hEndBy : ¬ model.AtEnd now) (hNot : ¬ model.SkipsTime now)
    (hStart : model.searchStart (some now) = some start) {fuel : Nat} {last : Int}
    (hSearch : searchMonths .utc model (farthestYearOf .utc (some now)) fuel (some start) =
      some (some last)) {t : Int} (hWhole : t % 1000 = 0) (hAfter : model.latest now < t)
    (hBeforeEnd : ¬ model.AtEnd t)
    (hYear : TimeZone.utc.getFullYear t < TimeZone.utc.getFullYear now + maximumYearInFuture)
    (hMatches : model.Matches t) : last ≤ t := by
  obtain ⟨day, rfl, hLeast, hWeekDay, hHorizon, hReset⟩ :=
    resetTime_le_of_matches hModel hOffset hStart hSearch hWhole hAfter hMatches hYear
  by_contra hLess
  have hHour : model.nextHour (model.firstSecond now) / 24 ≤ day := by
    rw [← day_of_start hOffset hStart]
    exact hLeast.1.1.after
  have hKeeps : model.KeepsLater (model.firstSecond now) day := by
    rw [← resetTime_lt_iff hModel (firstSecond_whole model now) hHour,
      ← searchStart_eq hOffset hStart]
    omega
  exact hNot ⟨hEndBy, start, day, hStart, hLeast, hWeekDay, hHorizon, hKeeps,
    fun hEnd => hBeforeEnd (hEnd.mono hReset)⟩

/-- Without the slip the answer is the earliest time. -/
theorem earliest_of_not_skips (hModel : model.WellFormed) (hOffset : model.utcOffsetMinutes = 0)
    (hEndBy : ¬ model.AtEnd now) (hNot : ¬ model.SkipsTime now)
    (hStart : model.searchStart (some now) = some start) {fuel : Nat} {last : Int}
    (hSearch : searchMonths .utc model (farthestYearOf .utc (some now)) fuel (some start) =
      some (some last)) :
    EarliestTime model now
      (finishTime .utc model (farthestYearOf .utc (some now)) (some last)) := by
  have hBack : last - model.utcOffsetMinutes * 60000 = last := by omega
  by_cases hRange : InRange last
  · have hFinish := @finishTime_some model
      (TimeZone.utc.getFullYear now + maximumYearInFuture) last (hBack.symm ▸ hRange)
    rw [hBack] at hFinish
    rw [show farthestYearOf .utc (some now) =
      some (TimeZone.utc.getFullYear now + maximumYearInFuture) from rfl, hFinish]
    split
    · rename_i hNull
      -- what is past the horizon or at `endBy` by then is so at `t`
      intro t hWhole hAfter hBeforeEnd hYear hMatches
      have hLe := le_of_not_skips hModel hOffset hEndBy hNot hStart hSearch hWhole hAfter
        hBeforeEnd hYear hMatches
      rcases hNull with hEnd | hPast
      · exact hBeforeEnd (hEnd.mono hLe)
      · have := getFullYear_mono hLe
        omega
    · rename_i hKept
      obtain ⟨hBeforeEnd, hHorizon⟩ := not_or.mp hKept
      intro t hWhole hAfter hLess hMatches
      have hBefore : t < last := of_decide_eq_true hLess
      have hYear := getFullYear_mono hBefore.le
      have hLe := le_of_not_skips hModel hOffset hEndBy hNot hStart hSearch hWhole hAfter
        (fun hEnd => hBeforeEnd (hEnd.mono hBefore.le)) (by omega) hMatches
      omega
  · rw [finishTime_of_not_inRange _ (hBack.symm ▸ hRange)]
    intro t _ _ hLess
    cases hLess

end Search

/-- **The answer is the earliest time, but for the slip**: exactly where no larger field moves
on past a smaller one that is kept, or nothing comes of it. -/
theorem cron_earliest_iff {model : ScheduleCronModel} (hModel : model.WellFormed)
    (hOffset : model.utcOffsetMinutes = 0) (now : Date) :
    (∀ fuel answer, nextCronTime .utc fuel model (some now) = some answer →
      EarliestTime model now answer) ↔ ¬ model.SkipsTime now := by
  constructor
  · -- the reset time matches, and it is the one that is passed over
    rintro hEarliest ⟨hEndBy, start, day, hSkips⟩
    have hBack : dateAt day (timeOfDay start) - model.utcOffsetMinutes * 60000 =
        dateAt day (timeOfDay start) := by omega
    have hDay := hSkips.least.1.1.after
    have hHour : model.nextHour (model.firstSecond now) / 24 ≤ day := by
      rw [← day_of_start hOffset hSkips.start_eq]
      exact hDay
    obtain ⟨hAfter, hWhole, hSameDay, hTime⟩ :=
      resetTime_spec hModel (firstSecond_whole model now) hHour
    have hMatches : model.Matches (model.resetTime (model.firstSecond now) day) :=
      matches_iff.mpr ⟨hTime, hSameDay.symm ▸ hSkips.least.1.2, hSameDay.symm ▸ hSkips.weekDay⟩
    have hLater : model.latest now < model.resetTime (model.firstSecond now) day :=
      (latest_lt_firstSecond model now).trans_le hAfter
    have hLess := (resetTime_lt_iff hModel (firstSecond_whole model now) hHour).mpr hSkips.keeps
    rw [← searchStart_eq hOffset hSkips.start_eq] at hLess
    obtain ⟨fuel, hAnswer⟩ := hSkips.answer hModel hEndBy
    have hEarliest := hEarliest fuel _ hAnswer
    rw [finishTime_some _ (by rw [hBack]; exact hSkips.least.1.1.representable), hBack] at hEarliest
    split at hEarliest
    · refine hEarliest _ hWhole hLater hSkips.beforeEnd ?_ hMatches
      simpa [getFullYear_utc, hSameDay] using hSkips.horizon
    · exact hEarliest _ hWhole hLater (decide_eq_true hLess) hMatches
  · intro hNot fuel answer hAnswer
    by_cases hEndBy : model.AtEnd now
    · rw [nextCronTime_of_endByPassed ((any_endBy_iff now).mpr hEndBy)] at hAnswer
      obtain rfl := Option.some.inj hAnswer
      intro t _ hAfter hBeforeEnd
      exact absurd (hEndBy.mono ((le_latest model now).trans hAfter.le)) hBeforeEnd
    · rw [nextCronTime_searches hModel.timeLists
          (fun hPassed => hEndBy ((any_endBy_iff now).mp hPassed)),
        Option.map_eq_some_iff] at hAnswer
      obtain ⟨ret, hSearch, rfl⟩ := hAnswer
      cases ret with
      | none =>
          -- nothing is before an Invalid Date
          rw [finishTime_lost _ rfl]
          intro t _ _ hLess
          cases hLess
      | some last =>
          cases hStart : model.searchStart (some now) with
          | none =>
              rw [hStart] at hSearch
              cases searchMonths_none fuel hSearch
          | some start =>
              rw [hStart] at hSearch
              exact earliest_of_not_skips hModel hOffset hEndBy hNot hStart hSearch

/-- Every midnight is found: each field of the time has one value only. -/
theorem cron_earliest_midnight :
    EarliestTime (midnightOn [0, 1, 2, 3, 4, 5, 6]) 1709164800000 (some (some 1709251200000)) := by
  have hModel : (midnightOn [0, 1, 2, 3, 4, 5, 6]).WellFormed := by decide
  have hNot : ¬ (midnightOn [0, 1, 2, 3, 4, 5, 6]).SkipsTime 1709164800000 := by
    rintro ⟨-, start, day, hSkips⟩
    have hFields := alignedFields hModel
      ((midnightOn [0, 1, 2, 3, 4, 5, 6]).firstSecond 1709164800000)
    rcases hSkips.keeps with ⟨hKept, -⟩ | ⟨hKept, -⟩ | ⟨hKept, -⟩
    · exact hKept (List.mem_singleton.mp hFields.second.2)
    · exact hKept (List.mem_singleton.mp hFields.minute.2)
    · exact hKept (List.mem_singleton.mp hFields.hour.2)
  exact (cron_earliest_iff hModel rfl 1709164800000).mpr hNot 2 _ (by decide +kernel)

/-- Half past every midnight, on the minute and thirty seconds later. -/
def halfPastMidnight : ScheduleCronModel :=
  { midnightOn [0, 1, 2, 3, 4, 5, 6] with seconds := [0, 30], minutes := [30] }

/-- Asked for ten seconds after midnight, the answer is 00:30:30: the second was aligned to 30
within the first minute, and 00:30:00 is passed over. -/
theorem halfPastMidnight_skips :
    halfPastMidnight.WellFormed ∧ halfPastMidnight.utcOffsetMinutes = 0 ∧
      ¬ ∀ fuel answer, nextCronTime .utc fuel halfPastMidnight (some 10000) = some answer →
        EarliestTime halfPastMidnight 10000 answer := by
  refine ⟨by decide, rfl, fun hAll => ?_⟩
  have hAnswer : nextCronTime .utc 2 halfPastMidnight (some 10000) =
      some (some (some 1830000)) := by
    decide +kernel
  exact hAll 2 _ hAnswer 1800000 (by decide) (by decide) (by decide) (by decide +kernel)

end TernScheduler
