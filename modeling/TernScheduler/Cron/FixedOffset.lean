import TernScheduler.Cron.Search
import TernScheduler.Cron.Zones

/-!
# Zones of a fixed offset

A server whose clock stands a fixed time ahead of UTC, and the schedule that runs every
second.  Its next time is the next whole second of the server's clock, so it shows which
offset the server has.
-/

namespace TernScheduler

open Calendar Periodic

/-- An offset from UTC, less than a day either way. -/
structure FixedOffset where
  millis : Int
  withinDay : -86400000 < millis ∧ millis < 86400000

/-- The zone of a server with this offset. -/
def FixedOffset.zone (offset : FixedOffset) : TimeZone where
  offsetAt _ := offset.millis
  offsetOfLocal _ := offset.millis
  toString date := ToString.toString date

/-- All values of a field. -/
def everyValue (base : Int) (count : Nat) : List Int :=
  (List.range count).map fun index => base + Int.ofNat index

theorem mem_everyValue {base value : Int} {count : Nat} (hLow : base ≤ value)
    (hHigh : value < base + count) : value ∈ everyValue base count := by
  refine List.mem_map.mpr ⟨(value - base).toNat, List.mem_range.mpr (by omega), ?_⟩
  rw [Int.ofNat_eq_natCast]
  omega

/-- Every second, until a time or for ever. -/
def everySecond (endBy : Option TimeStruct) : ScheduleCronModel where
  seconds := everyValue 0 60
  minutes := everyValue 0 60
  hours := everyValue 0 24
  daysOfMonth := everyValue 1 31
  months := everyValue 1 12
  daysOfWeek := everyValue 0 7
  cronExpression := "* * * * * *"
  utcOffsetMinutes := 0
  startAfter := none
  endBy := endBy

theorem everySecond_wellFormed (endBy : Option TimeStruct) :
    (everySecond endBy).WellFormed := by
  have hForEver : (everySecond none).WellFormed := by decide +kernel
  exact ⟨hForEver.seconds, hForEver.minutes, hForEver.hours, hForEver.daysOfMonth,
    hForEver.months, hForEver.daysOfWeek⟩

/-! ## Setters that set what is there -/

section

variable {zone : TimeZone} {date : Int}

theorem setField_self (hZone : zone.toInstant (zone.localTime date) = date)
    (hRange : InRange date) (field : Date → Int) (unit : Int) :
    JsDate.setField zone field unit (some date) (some (field date)) = some date := by
  simp only [JsDate.setField, Int.sub_self, Int.zero_mul]
  rw [show zone.localTime date + 0 = zone.localTime date from Int.add_zero _, hZone]
  exact timeClip_of_inRange hRange

/-- A field with a listed value is left alone. -/
theorem alignField_of_listed {get : JsDate → JsNumber} {set : JsDate → JsNumber → JsDate}
    {carry : JsDate → JsDate} {values : List Int} {value : Int}
    (hSorted : values.Pairwise (· < ·)) (hGet : get (some date) = some value)
    (hListed : value ∈ values) (hSet : set (some date) (some value) = some date) :
    alignField get set carry values (some date) = some date := by
  unfold alignField
  rw [hGet, findNext_some, find_eq_self hSorted hListed, Option.elim_some, hSet]

variable {model : ScheduleCronModel}

theorem alignMonth_of_mem (hModel : model.WellFormed)
    (hListed : zone.getMonth date + 1 ∈ model.months) :
    alignMonth zone model (some date) = some date := by
  unfold alignMonth
  rw [JsDate.get_some, JsNumber.add_some, findNext_some,
    find_eq_self hModel.months.sorted hListed, Option.elim_some]
  simp

theorem alignDay_of_mem (hModel : model.WellFormed)
    (hZone : zone.toInstant (zone.localTime date) = date) (hRange : InRange date)
    (hListed : zone.getDate date ∈ model.daysOfMonth)
    (hWeekDay : zone.getDay date ∈ model.daysOfWeek) :
    alignDay zone model (some date) = (.matched, some date) := by
  have hClone : JsDate.cloneDateTime (some date) = some date := timeClip_of_inRange hRange
  have hSet : JsDate.setDate zone (some date) (some (zone.getDate date)) = some date :=
    setField_self hZone hRange _ _
  unfold alignDay
  rw [JsDate.get_some, findNext_some, find_eq_self hModel.daysOfMonth.sorted hListed,
    Option.elim_some, hClone, hSet]
  have hWeek := findNext_daysOfWeek hModel.dayLists (zone.getDay date)
  simp only [JsDate.get_some, hWeek, hWeekDay]
  simp

end

/-! ## The next second -/

section

variable (offset : FixedOffset) {date : Int}

theorem FixedOffset.toInstant_localTime (date : Int) :
    offset.zone.toInstant (offset.zone.localTime date) = date := by
  simp [FixedOffset.zone, TimeZone.toInstant, TimeZone.localTime]

/-- The next whole second of the server's clock. -/
def FixedOffset.nextSecond (date : Int) : Int :=
  (date + offset.millis) / 1000 * 1000 + 1000 - offset.millis

theorem alignTime_everySecond (endBy : Option TimeStruct) (hRange : InRange date) :
    alignHours offset.zone (everySecond endBy) (alignMinutes offset.zone (everySecond endBy)
      (alignSeconds offset.zone (everySecond endBy) (some date))) = some date := by
  have hModel := everySecond_wellFormed endBy
  have hZone := offset.toInstant_localTime date
  have hSeconds : alignSeconds offset.zone (everySecond endBy) (some date) = some date :=
    alignField_of_listed hModel.seconds.sorted rfl
      (mem_everyValue (Int.emod_nonneg _ (by decide)) (Int.emod_lt_of_pos _ (by decide)))
      (setField_self hZone hRange _ _)
  have hMinutes : alignMinutes offset.zone (everySecond endBy) (some date) = some date :=
    alignField_of_listed hModel.minutes.sorted rfl
      (mem_everyValue (Int.emod_nonneg _ (by decide)) (Int.emod_lt_of_pos _ (by decide)))
      (setField_self hZone hRange _ _)
  have hHours : alignHours offset.zone (everySecond endBy) (some date) = some date :=
    alignField_of_listed hModel.hours.sorted rfl
      (mem_everyValue (Int.emod_nonneg _ (by decide)) (Int.emod_lt_of_pos _ (by decide)))
      (setField_self hZone hRange _ _)
  rw [hSeconds, hMinutes, hHours]

/-- Dates this close to the epoch stay in range through one step of the search. -/
def NearEpoch (date : Int) : Prop := -1000000000 ≤ date ∧ date ≤ 1000000000

theorem firstMoment_everySecond (endBy : Option TimeStruct) (hNear : NearEpoch date) :
    firstMoment offset.zone (everySecond endBy) (some date) =
      some (offset.nextSecond date) := by
  obtain ⟨hLow, hHigh⟩ := offset.withinDay
  have hRange : ∀ time, date - 1000 ≤ time → time ≤ date + 1000 → InRange time := by
    intro time hAfter hBefore
    unfold NearEpoch at hNear
    unfold InRange
    omega
  have hStart : notBeforeStart offset.zone (everySecond endBy) (some date) = some date :=
    timeClip_of_inRange (hRange date (by omega) (by omega))
  have hSecond : JsDate.setSeconds offset.zone (some date)
      (some (offset.zone.getSeconds date + 1)) = some (date + 1000) := by
    -- in a zone of a fixed offset a second of local time is a second
    have hMoved : offset.zone.toInstant (offset.zone.localTime date +
        (offset.zone.getSeconds date + 1 - offset.zone.getSeconds date) * 1000) =
          date + 1000 := by
      simp only [FixedOffset.zone, TimeZone.toInstant, TimeZone.localTime]
      unfold Date
      omega
    simp only [JsDate.setSeconds, JsDate.setField]
    rw [hMoved, timeClip_of_inRange (hRange _ (by omega) (by omega))]
  have hMillis : JsDate.setMilliseconds offset.zone (some (date + 1000)) (some 0) =
      some (offset.nextSecond date) := by
    have hMoved : offset.zone.toInstant (offset.zone.localTime (date + 1000) +
        (0 - offset.zone.getMilliseconds (date + 1000)) * 1) = offset.nextSecond date := by
      simp only [FixedOffset.zone, TimeZone.toInstant, TimeZone.localTime,
        TimeZone.getMilliseconds, FixedOffset.nextSecond]
      unfold Date
      omega
    have hNext : InRange (offset.nextSecond date) := by
      refine hRange _ ?_ ?_ <;> unfold FixedOffset.nextSecond <;> omega
    simp only [JsDate.setMilliseconds, JsDate.setField]
    rw [hMoved, timeClip_of_inRange hNext]
  have hNext : InRange (offset.nextSecond date) := by
    refine hRange _ ?_ ?_ <;> unfold FixedOffset.nextSecond <;> omega
  unfold firstMoment
  simp only
  rw [hStart, JsDate.get_some, JsNumber.add_some, hSecond, hMillis]
  simp [fromUTC, everySecond, timeClip_of_inRange hNext]

/-- Within a second the year changes by one at most. -/
theorem year_nextSecond (date : Int) :
    offset.zone.getFullYear (offset.nextSecond date) ≤ offset.zone.getFullYear date + 1 := by
  have hDay : offset.zone.localDay (offset.nextSecond date) ≤ offset.zone.localDay date + 1 := by
    simp only [FixedOffset.zone, TimeZone.localDay, TimeZone.localTime,
      FixedOffset.nextSecond]
    unfold Date
    omega
  have hMonth := (monthOf_mono hDay).trans (monthOf_succ_le _)
  unfold TimeZone.getFullYear
  omega

/-- The schedule runs at the next whole second of the server's clock, unless `endBy` is
not after that. -/
theorem nextCronTime_everySecond (endBy : Option TimeStruct) (hNear : NearEpoch date)
    (hBefore : ∀ ending ∈ endBy.bind (fromTimeStruct offset.zone),
      date < ending ∧ offset.nextSecond date < ending) :
    nextCronTime offset.zone 2 (everySecond endBy) (some date) =
      some (some (some (offset.nextSecond date))) := by
  have hModel := everySecond_wellFormed endBy
  have hZone := offset.toInstant_localTime (offset.nextSecond date)
  have hRange : InRange (offset.nextSecond date) := by
    unfold NearEpoch at hNear
    unfold InRange FixedOffset.nextSecond
    have := offset.withinDay
    omega
  have hYear := year_nextSecond offset date
  have hNotPassed : ∀ moment, (∀ ending ∈ endBy.bind (fromTimeStruct offset.zone),
      moment < ending) → ¬ ((everySecond endBy).endBy.map (fromTimeStruct offset.zone)).any
        (fun ending => JsNumber.ge (some moment) ending) = true := by
    intro moment hMoment
    cases endBy with
    | none => exact Bool.false_ne_true
    | some struct =>
        simp only [everySecond, Option.map_some, Option.any_some]
        cases hEnding : fromTimeStruct offset.zone struct with
        | none => simp
        | some ending => simpa using hMoment ending (by simpa using hEnding)
  -- the date lies in the year of the start or the next, before the horizon
  have hLoop : JsNumber.lt (JsDate.get (some (offset.nextSecond date))
      offset.zone.getFullYear) (farthestYearOf offset.zone (some date)) = true := by
    simp only [farthestYearOf, JsDate.get_some, JsNumber.add_some, JsNumber.lt_some,
      maximumYearInFuture, decide_eq_true_eq]
    omega
  -- all months, days and weekdays are listed, so no field moves the date
  have hListed : offset.zone.getMonth (offset.nextSecond date) + 1 ∈
      (everySecond endBy).months := by
    unfold TimeZone.getMonth
    exact mem_everyValue (by omega) (by omega)
  have hMonth := alignMonth_of_mem hModel hListed
  have hDay := alignDay_of_mem hModel hZone hRange
    (mem_everyValue (dayOfMonth_pos _) (Int.lt_add_one_of_le (dayOfMonth_le _)))
    (mem_everyValue (Int.emod_nonneg _ (by decide)) (Int.emod_lt_of_pos _ (by decide)))
  have hFinish : finishTime offset.zone (everySecond endBy)
      (farthestYearOf offset.zone (some date)) (some (offset.nextSecond date)) =
        some (some (offset.nextSecond date)) := by
    have hBack : JsDate.setMinutes offset.zone (some (offset.nextSecond date))
        (some (offset.zone.getMinutes (offset.nextSecond date))) =
          some (offset.nextSecond date) := setField_self hZone hRange _ _
    have hNotLate : JsNumber.ge (some (offset.zone.getFullYear (offset.nextSecond date)))
        (farthestYearOf offset.zone (some date)) = false := by
      simp only [farthestYearOf, JsDate.get_some, JsNumber.add_some, JsNumber.ge_some,
        maximumYearInFuture, decide_eq_false_iff_not]
      omega
    have hEnd := hNotPassed _ fun ending hEnding => (hBefore ending hEnding).2
    simp only [finishTime, JsDate.get_some, JsNumber.add_some, everySecond, Int.neg_zero,
      Int.add_zero] at hEnd ⊢
    rw [hBack, JsDate.get_some, hNotLate, Bool.or_false, if_neg hEnd]
  have hEnd := hNotPassed date fun ending hEnding => (hBefore ending hEnding).1
  simp only [nextCronTime]
  rw [if_neg hEnd, firstMoment_everySecond offset endBy hNear,
    alignTime_everySecond offset endBy hRange, searchMonths_of_lt hLoop, hMonth, searchDays,
    hDay]
  simp only [Option.map_some, hFinish]

end

end TernScheduler
