import TernScheduler.JsDate

/-!
# The next cron time

`strategies/task-creation/cron/next.ts`.  One date is moved by setters: the time of day
is aligned first, and two nested loops then look for the month and the day.

The loops of the source need not end, so each takes a number of steps; `none` says that
the steps ran out, and `some none` is the `null` of the source.
-/

namespace TernScheduler

/-- `ScheduleCronModel` of `cron/api.ts`. -/
structure ScheduleCronModel where
  seconds : List Int
  minutes : List Int
  hours : List Int
  daysOfMonth : List Int
  months : List Int
  daysOfWeek : List Int
  cronExpression : String
  utcOffsetMinutes : Int
  startAfter : Option TimeStruct
  endBy : Option TimeStruct
  deriving DecidableEq, Repr

/-- `MAXIMUM_YEAR_IN_FUTURE`. -/
def maximumYearInFuture : Int := 10

/-- `findNext`: hand the first value of the range that is not less than `value` to
`found`. -/
def findNext {T : Type} (value : JsNumber) (range : List Int) (found : Int → T)
    (notFound : T) : T :=
  match range with
  | [] => notFound
  | i :: rest =>
      if JsNumber.ge (some i) value then found i
      else findNext value rest found notFound

/-! ## The time of day -/

/-- What the three alignments share: set the field to its next value, or wrap around to
its first one and carry. -/
def alignField (get : JsDate → JsNumber) (set : JsDate → JsNumber → JsDate)
    (carry : JsDate → JsDate) (range : List Int) (ret : JsDate) : JsDate :=
  findNext (get ret) range
    (fun next => set ret (some next))
    (carry (set ret range.head?))

/-- The first `findNext` of `nextCronTime`. -/
def alignSeconds (zone : TimeZone) (model : ScheduleCronModel) : JsDate → JsDate :=
  alignField (·.get zone.getSeconds) (JsDate.setSeconds zone)
    (fun ret => ret.setMinutes zone ((ret.get zone.getMinutes).add 1)) model.seconds

/-- The second `findNext` of `nextCronTime`. -/
def alignMinutes (zone : TimeZone) (model : ScheduleCronModel) : JsDate → JsDate :=
  alignField (·.get zone.getMinutes) (JsDate.setMinutes zone)
    (fun ret => ret.setHours zone ((ret.get zone.getHours).add 1)) model.minutes

/-- The third `findNext` of `nextCronTime`. -/
def alignHours (zone : TimeZone) (model : ScheduleCronModel) : JsDate → JsDate :=
  alignField (·.get zone.getHours) (JsDate.setHours zone)
    (fun ret => ret.setDate zone ((ret.get zone.getDate).add 1)) model.hours

/-- The copy of `now`, or of `startAfter` where that is later. -/
def notBeforeStart (zone : TimeZone) (model : ScheduleCronModel) (now : JsDate) : JsDate :=
  let startAfter := model.startAfter.map (fromTimeStruct zone)
  let ret := now.cloneDateTime
  match startAfter with
  | some startAfter => if JsNumber.lt ret startAfter then startAfter.cloneDateTime else ret
  | none => ret

/-- Where the alignment starts: one second later, without milliseconds, on the
requester's clock. -/
def firstMoment (zone : TimeZone) (model : ScheduleCronModel) (now : JsDate) : JsDate :=
  let ret := notBeforeStart zone model now
  let ret := ret.setSeconds zone ((ret.get zone.getSeconds).add 1)
  let ret := ret.setMilliseconds zone (some 0)
  fromUTC ret model.utcOffsetMinutes

/-! ## The day -/

/-- What the day search answers: `'match'`, `'same'` or `'inc'`. -/
inductive DaySignal
  | matched
  | same
  | inc
  deriving DecidableEq, Repr

/-- The `findNext` over the months: the first day of the next listed month, unless the
date is in a listed month. -/
def alignMonth (zone : TimeZone) (model : ScheduleCronModel) (ret : JsDate) : JsDate :=
  findNext ((ret.get zone.getMonth).add 1) model.months
    (fun next =>
      if JsNumber.eq (some (next - 1)) (ret.get zone.getMonth) then ret
      else (ret.setDate zone (some 1)).setMonth zone (some (next - 1)))
    (let ret := ret.setDate zone (some 1)
     let ret := ret.setMonth zone (JsNumber.add model.months.head? (-1))
     ret.setFullYear zone ((ret.get zone.getFullYear).add 1))

/-- The `findNext` over the days of the month, with the date it leaves. -/
def alignDay (zone : TimeZone) (model : ScheduleCronModel) (ret : JsDate) :
    DaySignal × JsDate :=
  findNext (ret.get zone.getDate) model.daysOfMonth
    (fun next =>
      let trial := ret.cloneDateTime.setDate zone (some next)
      if JsNumber.eq (trial.get zone.getMonth) (ret.get zone.getMonth) then
        let ret := ret.setDate zone (some next)
        let isWeekMatch := findNext (ret.get zone.getDay) model.daysOfWeek
          (fun nextWeekDay => JsNumber.eq (some nextWeekDay) (ret.get zone.getDay)) false
        (if isWeekMatch then .matched else .same, ret)
      else (.inc, ret))
    (.inc, ret)

/-- The loop over the days of one month: whether a day matched, and the date it
leaves. -/
def searchDays (zone : TimeZone) (model : ScheduleCronModel) :
    Nat → JsDate → Option (Bool × JsDate)
  | 0, _ => none
  | fuel + 1, ret =>
      match alignDay zone model ret with
      | (.matched, ret) => some (true, ret)
      | (.inc, ret) => some (false, ret)
      | (.same, ret) => searchDays zone model fuel ret

/-- The step to the first day of the following month. -/
def incrementMonth (zone : TimeZone) (ret : JsDate) : JsDate :=
  let ret := ret.setDate zone (some 1)
  ret.setMonth zone ((ret.get zone.getMonth).add 1)

/-- The loop over the months. -/
def searchMonths (zone : TimeZone) (model : ScheduleCronModel) (farthestYear : JsNumber) :
    Nat → JsDate → Option JsDate
  | 0, _ => none
  | fuel + 1, ret =>
      if JsNumber.lt (ret.get zone.getFullYear) farthestYear then
        match searchDays zone model fuel (alignMonth zone model ret) with
        | none => none
        | some (true, ret) => some ret
        | some (false, ret) =>
            searchMonths zone model farthestYear fuel (incrementMonth zone ret)
      else some ret

/-- `farthestYear`: the year at which the search gives up. -/
def farthestYearOf (zone : TimeZone) (now : JsDate) : JsNumber :=
  JsNumber.add (now.get zone.getFullYear) maximumYearInFuture

/-- The end of `nextCronTime`: the time goes back to UTC, and is `null` if it is not
before `endBy` or past the years that are searched. -/
def finishTime (zone : TimeZone) (model : ScheduleCronModel) (farthestYear : JsNumber)
    (ret : JsDate) : Option JsDate :=
  let endBy := model.endBy.map (fromTimeStruct zone)
  let ret := ret.setMinutes zone ((ret.get zone.getMinutes).add (-model.utcOffsetMinutes))
  if endBy.any (fun endBy => JsNumber.ge ret endBy) ||
      JsNumber.ge (ret.get zone.getFullYear) farthestYear then none
  else some ret

def nextCronTime (zone : TimeZone) (fuel : Nat) (model : ScheduleCronModel) (now : JsDate) :
    Option (Option JsDate) :=
  let endBy := model.endBy.map (fromTimeStruct zone)
  let farthestYear := farthestYearOf zone now
  let ret := firstMoment zone model now
  if endBy.any (fun endBy => JsNumber.ge now endBy) then some none
  else
    let ret := alignHours zone model (alignMinutes zone model (alignSeconds zone model ret))
    (searchMonths zone model farthestYear fuel ret).map (finishTime zone model farthestYear)

/-! ## The steps

A loop that ends keeps its result when it is given more steps, so a run has one
result. -/

section

variable {zone : TimeZone} {model : ScheduleCronModel} {horizon : JsNumber}

theorem searchDays_mono {fuel more : Nat} (hMore : fuel ≤ more) {ret : JsDate}
    {result : Bool × JsDate} (hResult : searchDays zone model fuel ret = some result) :
    searchDays zone model more ret = some result := by
  induction fuel generalizing more ret with
  | zero => cases hResult
  | succ fuel ih =>
      obtain ⟨more, rfl⟩ := Nat.exists_eq_add_of_le' (Nat.le_trans (Nat.succ_pos fuel) hMore)
      rw [searchDays] at hResult ⊢
      split at hResult
      · exact hResult
      · exact hResult
      · exact ih (Nat.le_of_succ_le_succ hMore) hResult

theorem searchMonths_of_not_lt {ret : JsDate}
    (hYear : JsNumber.lt (ret.get zone.getFullYear) horizon = false) (fuel : Nat) :
    searchMonths zone model horizon (fuel + 1) ret = some ret := by
  rw [searchMonths, hYear]
  rfl

theorem searchMonths_of_lt {ret : JsDate}
    (hYear : JsNumber.lt (ret.get zone.getFullYear) horizon = true) (fuel : Nat) :
    searchMonths zone model horizon (fuel + 1) ret =
      match searchDays zone model fuel (alignMonth zone model ret) with
      | none => none
      | some (true, ret) => some ret
      | some (false, ret) =>
          searchMonths zone model horizon fuel (incrementMonth zone ret) := by
  rw [searchMonths, hYear]
  rfl

theorem searchMonths_mono {fuel more : Nat} (hMore : fuel ≤ more) {ret result : JsDate}
    (hResult : searchMonths zone model horizon fuel ret = some result) :
    searchMonths zone model horizon more ret = some result := by
  induction fuel generalizing more ret with
  | zero => cases hResult
  | succ fuel ih =>
      obtain ⟨more, rfl⟩ := Nat.exists_eq_add_of_le' (Nat.le_trans (Nat.succ_pos fuel) hMore)
      have hLe := Nat.le_of_succ_le_succ hMore
      cases hYear : JsNumber.lt (ret.get zone.getFullYear) horizon with
      | false =>
          rw [searchMonths_of_not_lt hYear] at hResult ⊢
          exact hResult
      | true =>
          rw [searchMonths_of_lt hYear] at hResult ⊢
          cases hDays : searchDays zone model fuel (alignMonth zone model ret) with
          | none =>
              rw [hDays] at hResult
              cases hResult
          | some answer =>
              rw [hDays] at hResult
              rw [searchDays_mono hLe hDays]
              obtain ⟨found, day⟩ := answer
              cases found with
              | true => exact hResult
              | false => exact ih hLe hResult

/-- What a search that ends answers, with however few steps. -/
theorem searchMonths_unique {fuel : Nat} {ret result last : JsDate}
    (hSearch : searchMonths zone model horizon fuel ret = some result)
    (hEnds : ∃ steps, ∀ fuel, steps ≤ fuel →
      searchMonths zone model horizon fuel ret = some last) : result = last := by
  obtain ⟨steps, hEnds⟩ := hEnds
  have hMore := searchMonths_mono (Nat.le_max_left fuel steps) hSearch
  rw [hEnds _ (Nat.le_max_right fuel steps)] at hMore
  exact (Option.some.inj hMore).symm

/-- What is made of a search that ends is made of what it ends on. -/
theorem exists_map_iff_of_ends {T : Type} {ret last : JsDate} {finish : JsDate → T} {result : T}
    (hEnds : ∃ steps, ∀ fuel, steps ≤ fuel →
      searchMonths zone model horizon fuel ret = some last) :
    (∃ fuel, (searchMonths zone model horizon fuel ret).map finish = some result) ↔
      finish last = result := by
  constructor
  · rintro ⟨fuel, hResult⟩
    obtain ⟨other, hSearch, hFinish⟩ := Option.map_eq_some_iff.mp hResult
    obtain rfl := searchMonths_unique hSearch hEnds
    exact hFinish
  · rintro rfl
    obtain ⟨steps, hEnds⟩ := hEnds
    exact ⟨steps, by rw [hEnds steps le_rfl, Option.map_some]⟩

theorem nextCronTime_mono {fuel more : Nat} (hMore : fuel ≤ more) {now : JsDate}
    {result : Option JsDate} (hResult : nextCronTime zone fuel model now = some result) :
    nextCronTime zone more model now = some result := by
  simp only [nextCronTime] at hResult ⊢
  by_cases hEnd : (model.endBy.map (fromTimeStruct zone)).any
      (fun endBy => JsNumber.ge now endBy) = true
  · rw [if_pos hEnd] at hResult ⊢
    exact hResult
  · rw [if_neg hEnd, Option.map_eq_some_iff] at hResult ⊢
    obtain ⟨ret, hSearch, hFinish⟩ := hResult
    exact ⟨ret, searchMonths_mono hMore hSearch, hFinish⟩

theorem nextCronTime_unique {fuel more : Nat} {now : JsDate} {result other : Option JsDate}
    (hResult : nextCronTime zone fuel model now = some result)
    (hOther : nextCronTime zone more model now = some other) : result = other := by
  have hFirst := nextCronTime_mono (Nat.le_max_left fuel more) hResult
  have hSecond := nextCronTime_mono (Nat.le_max_right fuel more) hOther
  exact Option.some.inj (hFirst.symm.trans hSecond)

end

/-- The loops of `nextCronTime` end. -/
def CronSearchEnds (zone : TimeZone) (model : ScheduleCronModel) (now : JsDate) : Prop :=
  ∃ fuel, (nextCronTime zone fuel model now).isSome

end TernScheduler
