import TernScheduler.Cron.Definition
import TernScheduler.Cron.Horizon
import TernScheduler.Properties.CronTermination
import TernScheduler.Properties.ZoneIndependence

/-!
# Whether an accepted cron text has a usable first time

The parser drops what is out of range, the check of a definition does not look into its lists, and
the search sets a field to the first value of a list without asking whether there is one.

* `ScheduleCronModel.KeepsDate` says that the search does not lose its date: the lists it sets
  fields from are not empty, and the setters stay in the range of dates.
* `keepsDate_iff_nonempty`: away from the ends of that range only the lists matter.
* `acceptedText_usable_iff`: exactly then, every answer is an error or a date after `now`.
-/

namespace TernScheduler

open Calendar Periodic

/-- The first listed time of day after `now`, as a date. -/
def ScheduleCronModel.firstTime (model : ScheduleCronModel) (now : Date) : Int :=
  model.alignTime ((now / 1000 + 1) * 1000)

/-- There is a value for each field that is set to its first one, the second after `now` and the
first time of day are dates, and from there the search reaches a listed day, or is given up on a
date. -/
structure ScheduleCronModel.KeepsDate (model : ScheduleCronModel) (now : Date) : Prop where
  seconds : model.seconds ≠ []
  minutes : model.minutes ≠ []
  hours : model.hours ≠ []
  months : model.months ≠ []
  second : InRange (now + 1000)
  time : InRange (model.firstTime now)
  day : (∃ day, model.Reached (TimeZone.utc.getFullYear now + maximumYearInFuture)
      (timeOfDay (model.firstTime now)) (model.firstTime now / 86400000) day ∧ model.Listed day) ∨
    model.StaysInRange (TimeZone.utc.getFullYear now + maximumYearInFuture)
      (timeOfDay (model.firstTime now)) (model.firstTime now / 86400000)

/-- The answer to a new schedule is the error of an invalid definition, or a date after
`now`. -/
def UsableAnswer (job : ScheduledJobModel) (now : Date) (result : Except JsError JsDate) : Prop :=
  (∃ problem, result =
    .error (.invalidScheduleDefinition job.pk job.scheduleDefinition problem)) ∨
  ∃ date : Int, result = .ok (some date) ∧ now < date

section

variable {model : ScheduleCronModel} {now : Int}

/-! ## Where the search starts -/

theorem searchStart_plain (hPlain : model.Plain) (hNow : InRange now) :
    model.searchStart (some now) =
      (timeClip (now + 1000)).bind fun _ => timeClip (model.firstTime now) := by
  have hLatest : model.latest now = now := by
    rw [ScheduleCronModel.latest, hPlain.startAfter]
    rfl
  unfold ScheduleCronModel.searchStart
  rw [Option.bind_some, timeClip_of_inRange hNow, Option.bind_some, hLatest, hPlain.offset]
  by_cases hSecond : InRange (now + 1000)
  · have hWhole : InRange ((now / 1000 + 1) * 1000) := by
      unfold InRange at *
      omega
    have hSame : (now + 1000) / 1000 * 1000 + 0 * 60000 = (now / 1000 + 1) * 1000 := by omega
    rw [timeClip_of_inRange hSecond, Option.bind_some, Option.bind_some, hSame,
      timeClip_of_inRange hWhole, Option.bind_some]
    rfl
  · rw [timeClip_of_not_inRange hSecond]
    rfl

theorem firstTime_bounds (hModel : model.TimeLists) (now : Int) :
    now < model.firstTime now ∧ model.firstTime now < now + 2 * 86400000 := by
  obtain ⟨seconds, minutes, hours, hSeconds, hMinutes, hHours, -, -, -, hTime⟩ :=
    exists_waits_alignTime hModel (now / 1000 + 1)
  rw [ScheduleCronModel.firstTime, hTime]
  omega

/-- The search starts before its horizon. -/
theorem firstTime_year (hModel : model.TimeLists) (now : Int) :
    monthOf (model.firstTime now / 86400000) / 12 <
      TimeZone.utc.getFullYear now + maximumYearInFuture := by
  have hBounds := firstTime_bounds hModel now
  have hLater := monthOf_mono
    (show model.firstTime now / 86400000 ≤ now / 86400000 + 1 + 1 by omega)
  have hNext := monthOf_succ_le (now / 86400000)
  have hSecond := monthOf_succ_le (now / 86400000 + 1)
  rw [getFullYear_utc, maximumYearInFuture]
  omega

/-! ## Where the date is lost -/

/-- Without a month the date is lost. -/
theorem alignMonth_lost (hMonths : model.months = []) (ret : JsDate) :
    alignMonth .utc model ret = none := by
  have hMonth : ∀ date : JsDate, date.setMonth .utc none = none := fun date => by
    cases date <;> rfl
  unfold alignMonth
  rw [hMonths]
  show ((ret.setDate .utc (some 1)).setMonth .utc none).setFullYear .utc
    ((((ret.setDate .utc (some 1)).setMonth .utc none).get TimeZone.utc.getFullYear).add 1) = none
  rw [hMonth]
  rfl

/-- In UTC a date is not lost in the end. -/
theorem finishTime_plain (hPlain : model.Plain) (farthestYear : Int) {date : Int}
    (hRange : InRange date) :
    finishTime .utc model (some farthestYear) (some date) ≠ some none := by
  rw [finishTime_some _ (by rw [hPlain.offset]; simpa using hRange)]
  split
  · exact Option.some_ne_none none |>.symm
  · intro hLost
    cases Option.some.inj hLost

/-- The search from a date loses it unless it reaches a listed day, or the exit. -/
theorem search_lost_iff (hModel : model.DayLists) (hPlain : model.Plain) {time : TimeOfDay}
    {start farthestYear : Int} (hRange : InRange (dateAt start time))
    (hYear : monthOf start / 12 < farthestYear) :
    (∃ fuel, (searchMonths .utc model (some farthestYear) fuel (some (dateAt start time))).map
        (finishTime .utc model (some farthestYear)) = some (some none)) ↔
      ¬ ((∃ day, model.Reached farthestYear time start day ∧ model.Listed day) ∨
        model.StaysInRange farthestYear time start) := by
  cases searchMonths_cases hModel hRange hYear with
  | found day hLeast _ hEnds =>
      rw [exists_map_iff_of_ends hEnds]
      exact iff_of_false (finishTime_plain hPlain _ hLeast.1.1.representable)
        (not_not.mpr (Or.inl ⟨day, hLeast.1⟩))
  | hangs day hLeast _ hStuck =>
      refine iff_of_false ?_ (not_not.mpr (Or.inl ⟨day, hLeast.1⟩))
      rintro ⟨fuel, hLost⟩
      rw [hStuck] at hLost
      cases hLost
  | expires hNone _ =>
      obtain ⟨ret, hEnds, hRet⟩ := searchMonths_exit hModel hRange hYear hNone
      rw [exists_map_iff_of_ends hEnds, or_iff_right fun ⟨day, hReached, hListed⟩ =>
        hNone day hReached hListed]
      rcases hRet with ⟨hStays, rfl⟩ | ⟨hLost, rfl⟩
      · exact iff_of_false (finishTime_plain hPlain _ hStays.exit) (not_not.mpr hStays)
      · exact iff_of_true (finishTime_lost _ rfl) hLost

/-- A date that is lost before the search is handed out. -/
theorem nextCronTime_of_lost (hPlain : model.Plain)
    (hLost : alignHours .utc model (alignMinutes .utc model (alignSeconds .utc model
      (firstMoment .utc model (some now)))) = none) :
    nextCronTime .utc 1 model (some now) = some (some none) := by
  simp only [nextCronTime]
  rw [hPlain.endBy, if_neg (by simp), hLost, searchMonths_of_not_lt rfl, Option.map_some,
    finishTime_lost _ rfl]

/-- Otherwise `nextCronTime` is the search, from the first time of day. -/
theorem nextCronTime_plain (hTime : model.TimeLists) (hPlain : model.Plain)
    (hStart : model.searchStart (some now) = some (model.firstTime now)) (fuel : ℕ) :
    nextCronTime .utc fuel model (some now) =
      (searchMonths .utc model (some (TimeZone.utc.getFullYear now + maximumYearInFuture)) fuel
        (some (dateAt (model.firstTime now / 86400000) (timeOfDay (model.firstTime now))))).map
          (finishTime .utc model
            (some (TimeZone.utc.getFullYear now + maximumYearInFuture))) := by
  have hPassed : ¬ model.EndByPassed (some now) := by
    rw [ScheduleCronModel.EndByPassed, hPlain.endBy]
    exact Bool.false_ne_true
  rw [nextCronTime_searches hTime hPassed, hStart, dateAt_timeOfDay]
  rfl

/-- The search without a month loses the date in its first round. -/
theorem searchMonths_lost (hMonths : model.months = []) {time : TimeOfDay}
    {start farthestYear : Int} (hYear : monthOf start / 12 < farthestYear) :
    searchMonths .utc model (some farthestYear) 2 (some (dateAt start time)) = some none := by
  have hLoop : JsNumber.lt (JsDate.get (some (dateAt start time)) TimeZone.utc.getFullYear)
      (some farthestYear) = true := by
    simpa using hYear
  rw [searchMonths_of_lt hLoop, alignMonth_lost hMonths, searchDays, alignDay_none]
  rfl

/-- **Where an Invalid Date is handed out**: exactly where the search does not keep its
date. -/
theorem nextCronTime_lost_iff (hModel : model.InOrder) (hPlain : model.Plain)
    (hNow : InRange now) :
    (∃ fuel, nextCronTime .utc fuel model (some now) = some (some none)) ↔
      ¬ model.KeepsDate now := by
  -- the first value of an empty list is `undefined`
  by_cases hMissing : model.seconds = [] ∨ model.minutes = [] ∨ model.hours = []
  · refine iff_of_true ⟨1, nextCronTime_of_lost hPlain (alignTime_lost hMissing _)⟩ ?_
    intro hKeeps
    rcases hMissing with hSeconds | hMinutes | hHours
    · exact hKeeps.seconds hSeconds
    · exact hKeeps.minutes hMinutes
    · exact hKeeps.hours hHours
  obtain ⟨hSeconds, hRest⟩ := not_or.mp hMissing
  obtain ⟨hMinutes, hHours⟩ := not_or.mp hRest
  have hTime : model.TimeLists := ⟨hModel.seconds.values hSeconds,
    hModel.minutes.values hMinutes, hModel.hours.values hHours⟩
  have hStart := searchStart_plain hPlain hNow
  by_cases hDates : InRange (now + 1000) ∧ InRange (model.firstTime now)
  · obtain ⟨hSecond, hFirst⟩ := hDates
    rw [timeClip_of_inRange hSecond, Option.bind_some, timeClip_of_inRange hFirst] at hStart
    have hYear := firstTime_year hTime now
    simp only [nextCronTime_plain hTime hPlain hStart]
    by_cases hMonths : model.months = []
    · refine iff_of_true ⟨2, ?_⟩ fun hKeeps => hKeeps.months hMonths
      rw [searchMonths_lost hMonths hYear, Option.map_some, finishTime_lost _ rfl]
    · have hDays : model.DayLists := ⟨hModel.months.values hMonths, hModel.daysOfMonth,
        hModel.daysOfWeek⟩
      rw [search_lost_iff hDays hPlain (by rwa [dateAt_timeOfDay]) hYear, not_iff_not]
      exact ⟨fun hDay => ⟨hSeconds, hMinutes, hHours, hMonths, hSecond, hFirst, hDay⟩,
        fun hKeeps => hKeeps.day⟩
  -- the search does not start at a date
  · have hLost : model.searchStart (some now) = none := by
      rw [hStart]
      by_cases hSecond : InRange (now + 1000)
      · rw [timeClip_of_inRange hSecond, Option.bind_some,
          timeClip_of_not_inRange fun hFirst => hDates ⟨hSecond, hFirst⟩]
      · rw [timeClip_of_not_inRange hSecond]
        rfl
    rw [← align_firstMoment hTime] at hLost
    exact iff_of_true ⟨1, nextCronTime_of_lost hPlain hLost⟩ fun hKeeps =>
      hDates ⟨hKeeps.second, hKeeps.time⟩

/-! ## Away from the ends of the range of dates -/

/-- The first days of the months from the year -271820 to the year 275760 are dates. -/
theorem inRange_firstDay {month : Int} (hLow : 12 * -271820 ≤ month) (hHigh : month ≤ 12 * 275760)
    (time : TimeOfDay) : InRange (dateAt (firstDay month) time) := by
  have hFirst : firstDay (12 * -271820) ≤ firstDay month := firstDay_le_firstDay.mpr hLow
  have hLast : firstDay month ≤ firstDay (12 * 275760) := firstDay_le_firstDay.mpr hHigh
  rw [show firstDay (12 * -271820) = -99999744 by decide +kernel] at hFirst
  rw [show firstDay (12 * 275760) = 99999744 by decide +kernel] at hLast
  have := time.nonneg
  have := time.inDay
  unfold InRange dateAt
  omega

/-- In a year that is far from both ends of the range of dates, the search keeps its date if no
list is empty that a field is set from. -/
theorem keepsDate_iff_nonempty (hModel : model.InOrder)
    (hLow : -271820 ≤ TimeZone.utc.getFullYear now)
    (hHigh : TimeZone.utc.getFullYear now < 275750) :
    model.KeepsDate now ↔ model.seconds ≠ [] ∧ model.minutes ≠ [] ∧ model.hours ≠ [] ∧
      model.months ≠ [] := by
  constructor
  · intro hKeeps
    exact ⟨hKeeps.seconds, hKeeps.minutes, hKeeps.hours, hKeeps.months⟩
  · rintro ⟨hSeconds, hMinutes, hHours, hMonths⟩
    have hTime : model.TimeLists := ⟨hModel.seconds.values hSeconds,
      hModel.minutes.values hMinutes, hModel.hours.values hHours⟩
    have hDays : model.DayLists := ⟨hModel.months.values hMonths, hModel.daysOfMonth,
      hModel.daysOfWeek⟩
    have hYear := firstTime_year hTime now
    have hFirst := hDays.firstMonth_bounds
    obtain ⟨hAfter, hSoon⟩ := firstTime_bounds hTime now
    have hMonth := getFullYear_utc now
    have hLater := monthOf_mono (show now / 86400000 ≤ model.firstTime now / 86400000 by omega)
    -- the present day and its month
    have hDay := monthOf_spec (now / 86400000)
    have hStart : -99999744 ≤ firstDay (monthOf (now / 86400000)) := by
      rw [show (-99999744 : Int) = firstDay (12 * -271820) by decide +kernel]
      exact firstDay_le_firstDay.mpr (by omega)
    have hEnd : firstDay (monthOf (now / 86400000) + 1) ≤ 99996092 := by
      rw [show (99996092 : Int) = firstDay (12 * 275750) by decide +kernel]
      exact firstDay_le_firstDay.mpr (by omega)
    refine ⟨hSeconds, hMinutes, hHours, hMonths, ?_, ?_, Or.inr ⟨?_, ?_, fun _ => ?_⟩⟩
    · unfold InRange
      omega
    · unfold InRange
      omega
    · refine inRange_firstDay ?_ ?_ _
      all_goals
        unfold ScheduleCronModel.exitMonth maximumYearInFuture
        split <;> omega
    · unfold maximumYearInFuture at hYear
      exact inRange_firstDay (by omega) (by omega) _
    · unfold maximumYearInFuture at hYear
      exact inRange_firstDay (by omega) (by omega) _

end

/-! ## The answers -/

/-- What the strategy answers, by what `nextCronTime` returns. -/
theorem createFromNewSchedule_eq {parse : String → Except String ScheduleCronModel}
    {job : ScheduledJobModel} {definition : ScheduleCronModel}
    (hParse : parse job.scheduleDefinition = .ok definition) (fuel : ℕ) (now : JsDate) :
    CronTaskCreationStrategy.createFromNewSchedule .utc fuel parse now job =
      (nextCronTime .utc fuel definition now).map fun ret => ret.elim
        (.error (.invalidScheduleDefinition job.pk job.scheduleDefinition
          ("No first scheduled time within " ++ toString maximumYearInFuture ++
            " years"))) .ok := by
  rw [CronTaskCreationStrategy.createFromNewSchedule, getScheduleDefinition, hParse]
  refine congrArg (fun answer => (nextCronTime .utc fuel definition now).map answer) ?_
  funext ret
  cases ret <;> rfl

/-- **An accepted text has a usable first time** exactly where the search keeps its date. -/
theorem acceptedText_usable_iff {parserFuel : ℕ} {cronExpression : String}
    {definition : ScheduleCronModel}
    (hAccepted : cronToDefinition parserFuel cronExpression = some (.ok definition))
    {jsonParse : String → Except String Json} {asModel : Json → ScheduleCronModel}
    (hModel : asModel definition.toJson = definition) {job : ScheduledJobModel}
    (hText : jsonParse job.scheduleDefinition = .ok definition.toJson) {now : Int}
    (hNow : InRange now) :
    (∀ fuel result, CronTaskCreationStrategy.createFromNewSchedule .utc fuel
        (parseDefinition jsonParse asModel) (some now) job = some result →
      UsableAnswer job now result) ↔ definition.KeepsDate now := by
  obtain ⟨hOrder, hPlain⟩ := inOrder_of_cronToDefinition hAccepted
  have hLost := nextCronTime_lost_iff hOrder hPlain hNow
  simp only [createFromNewSchedule_eq (parseDefinition_toJson hText hModel)]
  constructor
  · intro hAll
    by_contra hNot
    obtain ⟨fuel, hNone⟩ := hLost.mpr hNot
    rcases hAll fuel (.ok none) (by rw [hNone]; rfl) with ⟨problem, hError⟩ | ⟨date, hDate, -⟩
    · cases hError
    · cases hDate
  · intro hKeeps fuel result hResult
    obtain ⟨ret, hRet, rfl⟩ := Option.map_eq_some_iff.mp hResult
    cases ret with
    -- no time within the years that are searched
    | none => exact Or.inl ⟨_, rfl⟩
    | some answer =>
        cases answer with
        | none => exact absurd hKeeps (hLost.mp ⟨fuel, hRet⟩)
        | some date =>
            obtain ⟨-, hAhead, -⟩ := forward_nextCronTime hOrder.inFields hRet
            exact Or.inr ⟨date, rfl, (le_latest definition now).trans_lt hAhead⟩

/-- Midnight of a first of January that is a Friday. -/
def fridayNewYear : ScheduleCronModel where
  seconds := [0]
  minutes := [0]
  hours := [0]
  daysOfMonth := [1]
  months := [1]
  daysOfWeek := [5]
  cronExpression := "0 0 0 1 1 5"
  utcOffsetMinutes := 0
  startAfter := none
  endBy := none

/-- Asked for in 1970, it is the new year of 1971. -/
theorem acceptedText_usable_newYear :
    UsableAnswer zoneSchedule 0 (.ok (some 31536000000)) := by
  have hAccepted : cronToDefinition 1 "0 0 0 1 1 5" = some (.ok fridayNewYear) := by
    decide +kernel
  have hKeeps : fridayNewYear.KeepsDate 0 :=
    (keepsDate_iff_nonempty (inOrder_of_cronToDefinition hAccepted).1 (by decide +kernel)
      (by decide +kernel)).mpr (by decide)
  exact (@acceptedText_usable_iff 1 "0 0 0 1 1 5" fridayNewYear hAccepted
    (fun _ => .ok fridayNewYear.toJson) (fun _ => fridayNewYear) rfl zoneSchedule rfl 0
    (by decide)).mpr hKeeps 20 _ (by decide +kernel)

/-- A minute that no hour has. -/
def sixtiethMinute : ScheduleCronModel :=
  { fridayNewYear with minutes := [], cronExpression := "0 60 0 1 1 5" }

/-- The text with the minute 60 is accepted without any minute, and an Invalid Date is handed
out. -/
theorem sixtiethMinute_unusable :
    ¬ ∀ (parserFuel : ℕ) (cronExpression : String) (definition : ScheduleCronModel),
      cronToDefinition parserFuel cronExpression = some (.ok definition) →
      ∀ (jsonParse : String → Except String Json) (asModel : Json → ScheduleCronModel)
        (job : ScheduledJobModel) (now : Int), asModel definition.toJson = definition →
        jsonParse job.scheduleDefinition = .ok definition.toJson → InRange now →
        ∀ fuel result, CronTaskCreationStrategy.createFromNewSchedule .utc fuel
            (parseDefinition jsonParse asModel) (some now) job = some result →
          UsableAnswer job now result := by
  intro hAll
  have hAccepted : cronToDefinition 1 "0 60 0 1 1 5" = some (.ok sixtiethMinute) := by
    decide +kernel
  have hAnswer := hAll 1 "0 60 0 1 1 5" sixtiethMinute hAccepted
    (fun _ => .ok sixtiethMinute.toJson) (fun _ => sixtiethMinute) zoneSchedule 0 rfl rfl
    (by decide) 1 (.ok none) (by decide +kernel)
  rcases hAnswer with ⟨problem, hError⟩ | ⟨date, hDate, -⟩
  · cases hError
  · cases hDate

end TernScheduler
