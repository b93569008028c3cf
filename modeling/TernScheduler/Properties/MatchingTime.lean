import TernScheduler.Cron.Horizon
import TernScheduler.Properties.CronTermination

/-!
# Whether the next cron time matches

The search of `nextCronTime` has a second exit: past the horizon, where nothing matched.
The date is shifted back to UTC before that exit is told from a match by the year, and a date
that was lost is not told from one at all.

* `AnswerMatches` says that an answer, on the requester's clock, has its fields listed.
* `ScheduleCronModel.DroppedOrMatches` is what must hold of the date the search stands on
  when it is given up.
* `cron_matches_iff`: exactly then, and where no date is lost, every answer matches.
-/

namespace TernScheduler

open Calendar Periodic

/-- On the requester's clock every field of the answer is listed. -/
def AnswerMatches (model : ScheduleCronModel) (answer : JsDate) : Prop :=
  ∃ date, fromUTC answer model.utcOffsetMinutes = some date ∧ model.Matches date

/-- A date that was not found can be shifted back, and it is not handed out, being at `endBy`
or past the horizon then, or it matches nevertheless. -/
structure ScheduleCronModel.DroppedOrMatches (model : ScheduleCronModel) (farthestYear : Int)
    (date : Date) : Prop where
  inRange : InRange (date - model.utcOffsetMinutes * 60000)
  dropped : model.AtEnd (date - model.utcOffsetMinutes * 60000) ∨
    farthestYear ≤ TimeZone.utc.getFullYear (date - model.utcOffsetMinutes * 60000) ∨
      model.Matches date

/-- The search from `start` ends well: on a listed day that can be shifted back, or on a date
past the horizon that is not handed out or matches. -/
structure ScheduleCronModel.EndsWell (model : ScheduleCronModel) (farthestYear start : Int) :
    Prop where
  past : farthestYear ≤ monthOf (start / 86400000) / 12 →
    model.DroppedOrMatches farthestYear start
  found : monthOf (start / 86400000) / 12 < farthestYear → ∀ day,
    IsLeast {d | model.Reached farthestYear (timeOfDay start) (start / 86400000) d ∧
      model.Listed d} day →
    dayOfWeek day ∈ model.daysOfWeek →
      InRange (dateAt day (timeOfDay start) - model.utcOffsetMinutes * 60000)
  expired : monthOf (start / 86400000) / 12 < farthestYear →
    (∀ d, model.Reached farthestYear (timeOfDay start) (start / 86400000) d →
      ¬ model.Listed d) →
    model.StaysInRange farthestYear (timeOfDay start) (start / 86400000) ∧
      model.DroppedOrMatches farthestYear
        (dateAt (firstDay (model.exitMonth farthestYear)) (timeOfDay start))

section

variable {model : ScheduleCronModel} {farthestYear : Int}

/-- What the end of `nextCronTime` makes of a date. -/
theorem answer_matches_iff {last : Int} (hRange : InRange last) :
    (∀ answer, finishTime .utc model (some farthestYear) (some last) = some answer →
      AnswerMatches model answer) ↔ model.DroppedOrMatches farthestYear last := by
  by_cases hBack : InRange (last - model.utcOffsetMinutes * 60000)
  · -- the date is shifted back by the offset, and forth again it is itself
    have hThere : fromUTC (some (last - model.utcOffsetMinutes * 60000))
        model.utcOffsetMinutes = some last := by
      have hEq : last - model.utcOffsetMinutes * 60000 + model.utcOffsetMinutes * 60000 =
          last := by omega
      unfold fromUTC
      rw [Option.bind_some, hEq, timeClip_of_inRange hRange]
    rw [finishTime_some farthestYear hBack]
    constructor
    · intro hMatches
      refine ⟨hBack, ?_⟩
      split at hMatches
      · rename_i hDropped
        exact hDropped.imp_right Or.inl
      · obtain ⟨date, hDate, hListed⟩ := hMatches _ rfl
        obtain rfl := Option.some.inj (hThere.symm.trans hDate)
        exact Or.inr (Or.inr hListed)
    · intro hDropped answer hAnswer
      split at hAnswer
      · cases hAnswer
      · rename_i hKept
        obtain ⟨hBeforeEnd, hHorizon⟩ := not_or.mp hKept
        obtain rfl := Option.some.inj hAnswer
        rcases hDropped.dropped with hEnd | hPast | hListed
        · exact absurd hEnd hBeforeEnd
        · exact absurd hPast hHorizon
        · exact ⟨last, hThere, hListed⟩
  · rw [finishTime_of_not_inRange _ hBack]
    refine iff_of_false (fun hMatches => ?_) fun hDropped => hBack hDropped.inRange
    obtain ⟨date, hDate, -⟩ := hMatches none rfl
    cases hDate

/-- A lost date is handed out, and does not match. -/
theorem not_answer_matches_none (model : ScheduleCronModel) : ¬ AnswerMatches model none := by
  rintro ⟨date, hDate, -⟩
  cases hDate

/-- What a search that ends makes of all its answers. -/
theorem answers_iff_of_ends {horizon : JsNumber} {start ret : JsDate}
    (hEnds : ∃ steps, ∀ fuel, steps ≤ fuel →
      searchMonths .utc model horizon fuel start = some ret) :
    (∀ fuel answer, (searchMonths .utc model horizon fuel start).map
        (finishTime .utc model horizon) = some (some answer) → AnswerMatches model answer) ↔
      ∀ answer, finishTime .utc model horizon ret = some answer → AnswerMatches model answer := by
  simp only [← exists_map_iff_of_ends hEnds, forall_exists_index]
  exact forall_comm

/-- The answers of a search match exactly when it ends well. -/
theorem search_matches_iff (hModel : model.WellFormed) {now : JsDate} {start : Int}
    (hStart : model.searchStart now = some start) :
    (∀ fuel answer, (searchMonths .utc model (some farthestYear) fuel (some start)).map
        (finishTime .utc model (some farthestYear)) = some (some answer) →
      AnswerMatches model answer) ↔ model.EndsWell farthestYear start := by
  have hTime := timeListed_searchStart hModel hStart
  have hRange := inRange_searchStart hStart
  by_cases hYear : monthOf (start / 86400000) / 12 < farthestYear
  · have hRangeDay := hRange
    rw [← dateAt_timeOfDay start] at hRangeDay
    cases searchMonths_cases hModel.dayLists hRangeDay hYear with
    | found day hLeast hWeekDay hEnds =>
        rw [dateAt_timeOfDay] at hEnds
        rw [answers_iff_of_ends hEnds, answer_matches_iff hLeast.1.1.representable]
        constructor
        · intro hDropped
          refine ⟨fun hPast => absurd hYear (not_lt.mpr hPast), fun _ other hOther _ => ?_,
            fun _ hNone => absurd hLeast.1.2 (hNone day hLeast.1.1)⟩
          exact hOther.unique hLeast ▸ hDropped.inRange
        · intro hWell
          exact ⟨hWell.found hYear day hLeast hWeekDay,
            Or.inr (Or.inr (matches_dateAt hTime hLeast.1.2 hWeekDay))⟩
    | hangs day hLeast hWeekDay hStuck =>
        rw [dateAt_timeOfDay] at hStuck
        refine iff_of_true (fun fuel answer hAnswer => ?_)
          ⟨fun hPast => absurd hYear (not_lt.mpr hPast),
            fun _ other hOther hListed => absurd (hOther.unique hLeast ▸ hListed) hWeekDay,
            fun _ hNone => absurd hLeast.1.2 (hNone day hLeast.1.1)⟩
        rw [hStuck] at hAnswer
        cases hAnswer
    | expires hNone _ =>
        obtain ⟨ret, hEnds, hRet⟩ := searchMonths_exit hModel.dayLists hRangeDay hYear hNone
        rw [dateAt_timeOfDay] at hEnds
        rw [answers_iff_of_ends hEnds]
        rcases hRet with ⟨hStays, rfl⟩ | ⟨hLost, rfl⟩
        · rw [answer_matches_iff hStays.exit]
          exact ⟨fun hDropped => ⟨fun hPast => absurd hYear (not_lt.mpr hPast),
            fun _ day hDay _ => absurd hDay.1.2 (hNone day hDay.1.1),
            fun _ _ => ⟨hStays, hDropped⟩⟩,
            fun hWell => (hWell.expired hYear hNone).2⟩
        · exact iff_of_false (fun hAll => not_answer_matches_none model
            (hAll none (finishTime_lost _ rfl))) fun hWell => hLost (hWell.expired hYear hNone).1
  · -- the search is past the horizon before its first step
    have hExit : JsNumber.lt (JsDate.get (some start) TimeZone.utc.getFullYear)
        (some farthestYear) = false := by
      simpa [getFullYear_utc] using hYear
    have hEnds : ∃ steps, ∀ fuel, steps ≤ fuel →
        searchMonths .utc model (some farthestYear) fuel (some start) = some (some start) := by
      refine ⟨1, fun fuel hFuel => ?_⟩
      obtain ⟨more, rfl⟩ := Nat.exists_eq_add_of_le' hFuel
      exact searchMonths_of_not_lt hExit more
    rw [answers_iff_of_ends hEnds, answer_matches_iff hRange]
    exact ⟨fun hDropped => ⟨fun _ => hDropped, fun hBefore => absurd hBefore hYear,
      fun hBefore => absurd hBefore hYear⟩, fun hWell => hWell.past (not_lt.mp hYear)⟩

/-- **Every answer matches, but for the exit past the horizon and lost dates.** -/
theorem cron_matches_iff (hModel : model.WellFormed) (now : Date) :
    (∀ fuel answer, nextCronTime .utc fuel model (some now) = some (some answer) →
      AnswerMatches model answer) ↔
        model.AtEnd now ∨ ∃ start, model.searchStart (some now) = some start ∧
          model.EndsWell (TimeZone.utc.getFullYear now + maximumYearInFuture) start := by
  by_cases hEndBy : model.AtEnd now
  · refine iff_of_true (fun fuel answer hAnswer => ?_) (Or.inl hEndBy)
    rw [nextCronTime_of_endByPassed ((any_endBy_iff now).mpr hEndBy)] at hAnswer
    cases hAnswer
  · rw [or_iff_right hEndBy]
    have hPassed : ¬ model.EndByPassed (some now) := fun h => hEndBy ((any_endBy_iff now).mp h)
    simp only [nextCronTime_searches hModel.timeLists hPassed]
    cases hStart : model.searchStart (some now) with
    | none =>
        refine iff_of_false (fun hAll => not_answer_matches_none model (hAll 1 none ?_)) ?_
        · rw [searchMonths_of_not_lt rfl, Option.map_some, finishTime_lost _ rfl]
        · rintro ⟨start, hNone, -⟩
          cases hNone
    | some start =>
        have hIff := @search_matches_iff model
          (TimeZone.utc.getFullYear now + maximumYearInFuture) hModel _ _ hStart
        exact hIff.trans ⟨fun hWell => ⟨start, rfl, hWell⟩, fun ⟨other, hOther, hWell⟩ =>
          Option.some.inj hOther ▸ hWell⟩

end

/-- The midnight that follows Thursday 29 February 2024 matches. -/
theorem cron_matches_midnight :
    AnswerMatches (midnightOn [0, 1, 2, 3, 4, 5, 6]) (some 1709251200000) := by
  have hStart : (midnightOn [0, 1, 2, 3, 4, 5, 6]).searchStart (some 1709164800000) =
      some 1709251200000 := by decide +kernel
  have hDay : (midnightOn [0, 1, 2, 3, 4, 5, 6]).Reached 2034 (timeOfDay 1709251200000)
      (1709251200000 / 86400000) (1709251200000 / 86400000) :=
    ⟨le_rfl, Or.inl (by decide +kernel), by decide +kernel,
      fun hLater => absurd hLater (lt_irrefl _),
      fun hLater => absurd hLater (lt_irrefl _)⟩
  have hListed : (midnightOn [0, 1, 2, 3, 4, 5, 6]).Listed (1709251200000 / 86400000) :=
    ⟨by decide +kernel, by decide +kernel⟩
  refine (cron_matches_iff (by decide) 1709164800000).mpr (Or.inr ⟨_, hStart, ?_, ?_, ?_⟩) 2 _
    (by decide +kernel)
  · intro hPast
    exact absurd hPast (by decide +kernel)
  · intro _ day hLeast _
    rw [show dateAt day (timeOfDay 1709251200000) -
      (midnightOn [0, 1, 2, 3, 4, 5, 6]).utcOffsetMinutes * 60000 =
        dateAt day (timeOfDay 1709251200000) from Int.sub_zero _]
    exact hLeast.1.1.representable
  · intro _ hNone
    exact absurd hListed (hNone _ hDay)

/-- Midnights in June, with an offset of an hour, from the last second before the year 1980 of
the requester on. -/
def juneFromNewYear : ScheduleCronModel :=
  { midnightOn [0, 1, 2, 3, 4, 5, 6] with
    months := [6]
    utcOffsetMinutes := 60
    startAfter := some ⟨0, 59, 59, 22, 31, 12, 1979⟩ }

/-- Asked for in 1970, the search is past the horizon at once, and the new year is handed out,
since the shift back takes it to the old one. -/
theorem juneFromNewYear_unmatched :
    juneFromNewYear.WellFormed ∧
      ¬ ∀ fuel answer, nextCronTime .utc fuel juneFromNewYear (some 0) = some (some answer) →
        AnswerMatches juneFromNewYear answer := by
  refine ⟨by decide, fun hAll => ?_⟩
  obtain ⟨date, hDate, hMatches⟩ := hAll 1 (some 315529200000) (by decide +kernel)
  have hNewYear : fromUTC (some 315529200000) juneFromNewYear.utcOffsetMinutes =
      some 315532800000 := by decide +kernel
  obtain rfl := Option.some.inj (hNewYear.symm.trans hDate)
  exact absurd hMatches.month (by decide +kernel)

end TernScheduler
