import TernScheduler.Cron.Search

/-!
# Whether the cron search ends

On a server in UTC, and for lists in order and in range, `nextCronTime` ends if `endBy`
has passed, or if the first listed day its search comes to is on a listed day of the
week.  Otherwise the loop over the days finds that day over and over: it looks for the
next listed day from the same day on.
-/

namespace TernScheduler

open Calendar

/-- The time `endBy` is not after `now`. -/
def ScheduleCronModel.EndByPassed (model : ScheduleCronModel) (now : JsDate) : Prop :=
  (model.endBy.map (fromTimeStruct .utc)).any (fun endBy => JsNumber.ge now endBy) = true

instance (model : ScheduleCronModel) (now : JsDate) : Decidable (model.EndByPassed now) := by
  unfold ScheduleCronModel.EndByPassed
  infer_instance

/-- The first day, of those the search can come to, with a listed month and a listed day
of the month is on a listed day of the week. -/
def ScheduleCronModel.FirstDayMatches (model : ScheduleCronModel) (now : JsDate) : Prop :=
  ∀ start farthestYear, model.searchStart now = some start →
    farthestYearOf .utc now = some farthestYear →
    monthOf (start / 86400000) / 12 < farthestYear →
    ∀ day, IsLeast {d | model.Reached farthestYear (timeOfDay start) (start / 86400000) d ∧
        model.Listed d} day →
      dayOfWeek day ∈ model.daysOfWeek

variable {model : ScheduleCronModel}

theorem inRange_searchStart {now : JsDate} {start : Int}
    (hStart : model.searchStart now = some start) : InRange start := by
  unfold ScheduleCronModel.searchStart at hStart
  simp only [Option.bind_eq_some_iff] at hStart
  obtain ⟨_, -, _, -, _, -, hClip⟩ := hStart
  obtain ⟨hRange, rfl⟩ := timeClip_eq_some.mp hClip
  exact hRange

/-- The loop over the months is entered only by a date before the horizon. -/
theorem exists_of_lt {ret : JsDate} {horizon : JsNumber}
    (hLoop : JsNumber.lt (ret.get TimeZone.utc.getFullYear) horizon = true) :
    ∃ start farthestYear, ret = some start ∧ horizon = some farthestYear ∧
      monthOf (start / 86400000) / 12 < farthestYear := by
  cases ret with
  | none => cases hLoop
  | some start =>
      cases horizon with
      | none => cases hLoop
      | some farthestYear =>
          refine ⟨start, farthestYear, rfl, rfl, ?_⟩
          simpa [getFullYear_utc] using hLoop

/-- While `endBy` is ahead, `nextCronTime` is the search, from its start. -/
theorem nextCronTime_searches (hModel : model.TimeLists) {now : JsDate}
    (hEndBy : ¬ model.EndByPassed now) (fuel : Nat) :
    nextCronTime .utc fuel model now =
      (searchMonths .utc model (farthestYearOf .utc now) fuel (model.searchStart now)).map
        (finishTime .utc model (farthestYearOf .utc now)) := by
  unfold ScheduleCronModel.EndByPassed at hEndBy
  simp only [nextCronTime]
  rw [if_neg hEndBy, align_firstMoment hModel]

theorem nextCronTime_of_endByPassed {now : JsDate} (hEndBy : model.EndByPassed now)
    (fuel : Nat) : nextCronTime .utc fuel model now = some none := by
  unfold ScheduleCronModel.EndByPassed at hEndBy
  simp only [nextCronTime]
  rw [if_pos hEndBy]

theorem isSome_nextCronTime (hModel : model.WellFormed) {now : JsDate}
    (hEndBy : ¬ model.EndByPassed now) (fuel : Nat) :
    (nextCronTime .utc fuel model now).isSome =
      (searchMonths .utc model (farthestYearOf .utc now) fuel (model.searchStart now)).isSome := by
  rw [nextCronTime_searches hModel.timeLists hEndBy, Option.isSome_map]

theorem cronSearchEnds_of_endByPassed {now : JsDate} (hEndBy : model.EndByPassed now) :
    CronSearchEnds .utc model now := by
  refine ⟨0, ?_⟩
  rw [nextCronTime_of_endByPassed hEndBy]
  rfl

/-- A date that is lost, or at the horizon from the start, ends the search at once. -/
theorem cronSearchEnds_of_not_lt (hModel : model.WellFormed) {now : JsDate}
    (hEndBy : ¬ model.EndByPassed now)
    (hYear : JsNumber.lt ((model.searchStart now).get TimeZone.utc.getFullYear)
      (farthestYearOf .utc now) = false) : CronSearchEnds .utc model now := by
  refine ⟨1, ?_⟩
  rw [isSome_nextCronTime hModel hEndBy, searchMonths_of_not_lt hYear]
  rfl

/-- The search of `nextCronTime` ends exactly when `endBy` has passed or the first listed
day it comes to is on a listed day of the week. -/
theorem cronSearchEnds_iff (hModel : model.WellFormed) (now : JsDate) :
    CronSearchEnds .utc model now ↔ model.EndByPassed now ∨ model.FirstDayMatches now := by
  by_cases hEndBy : model.EndByPassed now
  · exact iff_of_true (cronSearchEnds_of_endByPassed hEndBy) (.inl hEndBy)
  · rw [or_iff_right hEndBy]
    constructor
    · rintro ⟨fuel, hSome⟩ start farthestYear hStart hFarthest hBefore day hLeast
      rw [isSome_nextCronTime hModel hEndBy, hFarthest, hStart,
        ← dateAt_timeOfDay start] at hSome
      have hRange := inRange_searchStart hStart
      rw [← dateAt_timeOfDay start] at hRange
      -- a search that ends has not hung on the first day there is
      cases searchMonths_cases hModel.dayLists hRange hBefore with
      | found next hNext hWeekDay => exact hLeast.unique hNext ▸ hWeekDay
      | hangs next _ _ hStuck =>
          rw [hStuck] at hSome
          cases hSome
      | expires hNone => exact absurd hLeast.1.2 (hNone day hLeast.1.1)
    · intro hMatches
      cases hLoop : JsNumber.lt ((model.searchStart now).get TimeZone.utc.getFullYear)
          (farthestYearOf .utc now) with
      | false => exact cronSearchEnds_of_not_lt hModel hEndBy hLoop
      | true =>
          obtain ⟨start, farthestYear, hStart, hFarthest, hBefore⟩ := exists_of_lt hLoop
          have hRange := inRange_searchStart hStart
          have hDays := hMatches start farthestYear hStart hFarthest hBefore
          rw [← dateAt_timeOfDay start] at hRange
          -- and where it does not hang, it has found that day or left the horizon
          have hEnds : ∃ steps, ∀ fuel, steps ≤ fuel →
              (searchMonths .utc model (some farthestYear) fuel
                (some (dateAt (start / 86400000) (timeOfDay start)))).isSome := by
            cases searchMonths_cases hModel.dayLists hRange hBefore with
            | found next _ _ hEnds =>
                obtain ⟨steps, hEnds⟩ := hEnds
                exact ⟨steps, fun fuel hFuel => by rw [hEnds fuel hFuel]; rfl⟩
            | hangs next hNext hWeekDay => exact absurd (hDays next hNext) hWeekDay
            | expires _ hEnds =>
                obtain ⟨steps, hEnds⟩ := hEnds
                refine ⟨steps, fun fuel hFuel => ?_⟩
                obtain ⟨ret, hRet, -⟩ := hEnds fuel hFuel
                rw [hRet]
                rfl
          obtain ⟨steps, hEnds⟩ := hEnds
          refine ⟨steps, ?_⟩
          rw [isSome_nextCronTime hModel hEndBy, hFarthest, hStart,
            ← dateAt_timeOfDay start]
          exact hEnds steps le_rfl

/-- Midnight, on the given days of the week. -/
def midnightOn (daysOfWeek : List Int) : ScheduleCronModel where
  seconds := [0]
  minutes := [0]
  hours := [0]
  daysOfMonth := [1, 2, 3, 4, 5, 6, 7, 8, 9, 10, 11, 12, 13, 14, 15, 16, 17, 18, 19, 20, 21,
    22, 23, 24, 25, 26, 27, 28, 29, 30, 31]
  months := [1, 2, 3, 4, 5, 6, 7, 8, 9, 10, 11, 12]
  daysOfWeek := daysOfWeek
  cronExpression := "0 0 0 * * 1"
  utcOffsetMinutes := 0
  startAfter := none
  endBy := none

/-- Every day of the week is listed, so the search ends, whenever it starts. -/
theorem midnightOn_every_day_ends :
    CronSearchEnds .utc (midnightOn [0, 1, 2, 3, 4, 5, 6]) (some 1709164800000) := by
  refine (cronSearchEnds_iff (by decide) _).mpr (.inr ?_)
  intro start farthestYear _ _ _ day _
  have hLow : 0 ≤ dayOfWeek day := Int.emod_nonneg _ (by decide)
  have hHigh : dayOfWeek day < 7 := Int.emod_lt_of_pos _ (by decide)
  simp only [midnightOn, List.mem_cons, List.not_mem_nil, or_false]
  omega

/-- Mondays at midnight, asked for on Thursday 29 February 2024: the search comes to the
Friday and stays there. -/
theorem cron_search_can_hang :
    ¬ ∀ model : ScheduleCronModel, model.WellFormed → ∀ now, CronSearchEnds .utc model now := by
  intro hAll
  have hModel : (midnightOn [1]).WellFormed := by decide
  obtain ⟨fuel, hSome⟩ := hAll (midnightOn [1]) hModel (some 1709164800000)
  have hFriday : (midnightOn [1]).searchStart (some 1709164800000) = some 1709251200000 := by
    decide +kernel
  have hMonth : alignMonth .utc (midnightOn [1]) (some 1709251200000) =
      some 1709251200000 := by decide +kernel
  have hSame : alignDay .utc (midnightOn [1]) (some 1709251200000) =
      (.same, some 1709251200000) := by decide +kernel
  rw [isSome_nextCronTime hModel (by decide), hFriday] at hSome
  cases fuel with
  | zero => cases hSome
  | succ fuel =>
      rw [searchMonths_of_lt (by decide +kernel), hMonth, searchDays_of_same hSame] at hSome
      cases hSome

end TernScheduler
