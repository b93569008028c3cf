import TernScheduler.Cron.Forward

/-!
# Whether the next cron time is ahead

Every setter of the search moves the date forward, or back within one period of its field and
then forward by that period.

* `cron_forward`: an answer of `nextCronTime` lies strictly between the bounds of its window.

An Invalid Date, which the search hands out where a setter leaves the range of dates, is not
an answer here.
-/

namespace TernScheduler

/-- **The next cron time is ahead**: it is a whole second after `now` and `startAfter` and
before `endBy`, less than ten years after the year of `now`, whatever the order of the
lists. -/
theorem cron_forward {model : ScheduleCronModel} (hModel : model.InFields) {now answer : Int}
    {fuel : Nat} (hAnswer : nextCronTime .utc fuel model (some now) = some (some (some answer))) :
    answer % 1000 = 0 ∧ now < answer ∧
      (∀ startAfter ∈ model.startAfter.bind (fromTimeStruct .utc), startAfter < answer) ∧
      (∀ endBy ∈ model.endBy.bind (fromTimeStruct .utc), answer < endBy) ∧
      TimeZone.utc.getFullYear answer < TimeZone.utc.getFullYear now + 10 := by
  obtain ⟨hWhole, hLatest, hEnd, hYear⟩ := forward_nextCronTime hModel hAnswer
  refine ⟨hWhole, (le_latest model now).trans_lt hLatest, ?_, ?_, hYear⟩
  · intro startAfter hStart
    have hLe : startAfter ≤ model.latest now := by
      unfold ScheduleCronModel.latest
      rw [hStart]
      exact le_max_right now startAfter
    exact hLe.trans_lt hLatest
  · intro endBy hEndBy
    by_contra hNot
    exact hEnd ⟨endBy, hEndBy, not_lt.mp hNot⟩

/-- Noon and midnight, listed in that order, from 2 February 2024 on and before 2025. -/
def noonFirst : ScheduleCronModel where
  seconds := [0]
  minutes := [0]
  hours := [12, 0]
  daysOfMonth := [29, 15]
  months := [2]
  daysOfWeek := [4, 0]
  cronExpression := "0 0 12,0 29,15 2 4,0"
  utcOffsetMinutes := 60
  startAfter := some ⟨0, 0, 0, 0, 2, 2, 2024⟩
  endBy := some ⟨0, 0, 0, 0, 1, 1, 2025⟩

/-- Asked for in November 2023, it is noon of Thursday 29 February 2024, an hour ahead of UTC. -/
theorem cron_forward_noon :
    (1709204400000 : Int) % 1000 = 0 ∧ (1700000000000 : Int) < 1709204400000 ∧
      (∀ startAfter ∈ noonFirst.startAfter.bind (fromTimeStruct .utc),
        startAfter < 1709204400000) ∧
      (∀ endBy ∈ noonFirst.endBy.bind (fromTimeStruct .utc), 1709204400000 < endBy) ∧
      TimeZone.utc.getFullYear 1709204400000 < TimeZone.utc.getFullYear 1700000000000 + 10 :=
  @cron_forward noonFirst (by decide) _ _ 5 (by decide +kernel)

end TernScheduler
