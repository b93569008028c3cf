import TernScheduler.Cron.Next
import TernScheduler.Library.Periodic

/-!
# Where the search starts

For lists in order and in range, the first half of `nextCronTime` on a server in UTC is
arithmetic on instants.

* `alignTo` moves an instant to the next listed value of one field, and leaves the smaller
  fields as they are; `alignField_utc` says that one `findNext` of the source does this.
* `ScheduleCronModel.searchStart` is the date the search over months and days starts from.
-/

namespace TernScheduler

open Periodic

/-- The lists are not empty, strictly increasing and in range. -/
structure ScheduleCronModel.WellFormed (model : ScheduleCronModel) : Prop where
  seconds : Values 60 0 model.seconds
  minutes : Values 60 0 model.minutes
  hours : Values 24 0 model.hours
  daysOfMonth : Values 31 1 model.daysOfMonth
  months : Values 12 1 model.months
  daysOfWeek : Values 7 0 model.daysOfWeek

instance (model : ScheduleCronModel) : Decidable model.WellFormed :=
  decidable_of_iff (Values 60 0 model.seconds ∧ Values 60 0 model.minutes ∧
      Values 24 0 model.hours ∧ Values 31 1 model.daysOfMonth ∧ Values 12 1 model.months ∧
      Values 7 0 model.daysOfWeek)
    ⟨fun ⟨seconds, minutes, hours, days, months, weekDays⟩ =>
      ⟨seconds, minutes, hours, days, months, weekDays⟩,
    fun h => ⟨h.seconds, h.minutes, h.hours, h.daysOfMonth, h.months, h.daysOfWeek⟩⟩

/-- What the alignment of the time of day needs of the lists. -/
structure ScheduleCronModel.TimeLists (model : ScheduleCronModel) : Prop where
  seconds : Values 60 0 model.seconds
  minutes : Values 60 0 model.minutes
  hours : Values 24 0 model.hours

theorem ScheduleCronModel.WellFormed.timeLists {model : ScheduleCronModel}
    (hModel : model.WellFormed) : model.TimeLists :=
  ⟨hModel.seconds, hModel.minutes, hModel.hours⟩

theorem findNext_some {T : Type} (value : Int) (range : List Int) (found : Int → T)
    (notFound : T) :
    findNext (some value) range found notFound =
      (range.find? (value ≤ ·)).elim notFound found := by
  induction range with
  | nil => rfl
  | cons i rest ih =>
      by_cases hLe : value ≤ i
      · rw [List.find?_cons_of_pos (by simpa using hLe)]
        simp [findNext, hLe]
      · rw [List.find?_cons_of_neg (by simpa using hLe)]
        simp [findNext, hLe, ih]

@[simp] theorem findNext_none {T : Type} (range : List Int) (found : Int → T)
    (notFound : T) : findNext none range found notFound = notFound := by
  induction range with
  | nil => rfl
  | cons i rest ih => simp [findNext, ih]

/-! ## One field -/

/-- The instant moved to the next listed value of the field of the given unit. -/
def alignTo (unit period : Int) (values : List Int) (date : Int) : Int :=
  nextListed period 0 values (date / unit) * unit + date % unit

theorem le_alignTo {unit period : Int} {values : List Int} (hUnit : 0 < unit)
    (hValues : Values period 0 values) (date : Int) :
    date ≤ alignTo unit period values date := by
  have hSplit := Int.ediv_mul_add_emod date unit
  have hLe : date / unit * unit ≤ nextListed period 0 values (date / unit) * unit :=
    Int.mul_le_mul_of_nonneg_right (le_nextListed hValues _) hUnit.le
  unfold alignTo
  omega

section

/-- The getter, the setter and the carry of a field on a server in UTC: its unit has a fixed
length, and the carry moves the date by one period. -/
structure UtcField (get : JsDate → JsNumber) (set : JsDate → JsNumber → JsDate)
    (carry : JsDate → JsDate) (unit period : Int) : Prop where
  get_some : ∀ date, get (some date) = some (date / unit % period)
  set_some : ∀ date value, set (some date) (some value) =
    timeClip (date + (value - date / unit % period) * unit)
  set_none : ∀ ret, set ret none = none
  carry_some : ∀ date, carry (some date) = timeClip (date + period * unit)
  carry_none : carry none = none

theorem setField_none_right (zone : TimeZone) (field : Date → Int) (unit : Int) (ret : JsDate) :
    JsDate.setField zone field unit ret none = none := by
  cases ret <;> rfl

theorem utcField_seconds :
    UtcField (·.get TimeZone.utc.getSeconds) (JsDate.setSeconds .utc)
      (fun ret => ret.setMinutes .utc ((ret.get TimeZone.utc.getMinutes).add 1)) 1000 60 := by
  refine ⟨fun date => ?_, fun date value => ?_, setField_none_right _ _ _, fun date => ?_, rfl⟩
  · simp [TimeZone.getSeconds]
  · simp only [JsDate.setSeconds, JsDate.setField_utc, TimeZone.getSeconds,
      TimeZone.localTime_utc]
  · simp only [JsDate.setMinutes, JsDate.get_some, JsNumber.add_some, JsDate.setField_utc]
    congr 1
    omega

theorem utcField_minutes :
    UtcField (·.get TimeZone.utc.getMinutes) (JsDate.setMinutes .utc)
      (fun ret => ret.setHours .utc ((ret.get TimeZone.utc.getHours).add 1)) 60000 60 := by
  refine ⟨fun date => ?_, fun date value => ?_, setField_none_right _ _ _, fun date => ?_, rfl⟩
  · simp [TimeZone.getMinutes]
  · simp only [JsDate.setMinutes, JsDate.setField_utc, TimeZone.getMinutes,
      TimeZone.localTime_utc]
  · simp only [JsDate.setHours, JsDate.get_some, JsNumber.add_some, JsDate.setField_utc]
    congr 1
    omega

theorem utcField_hours :
    UtcField (·.get TimeZone.utc.getHours) (JsDate.setHours .utc)
      (fun ret => ret.setDate .utc ((ret.get TimeZone.utc.getDate).add 1)) 3600000 24 := by
  refine ⟨fun date => ?_, fun date value => ?_, setField_none_right _ _ _, fun date => ?_, rfl⟩
  · simp [TimeZone.getHours]
  · simp only [JsDate.setHours, JsDate.setField_utc, TimeZone.getHours,
      TimeZone.localTime_utc]
  · simp only [JsDate.setDate, JsDate.get_some, JsNumber.add_some, JsDate.setField_utc]
    congr 1
    omega

variable {get : JsDate → JsNumber} {set : JsDate → JsNumber → JsDate}
  {carry : JsDate → JsDate} {unit period : Int} {values : List Int}

/-- One `findNext` of the alignment, for a field with these getters and setters.  The
date in between, which wraps around before it carries, is always a valid one. -/
theorem alignField_utc (hField : UtcField get set carry unit period)
    (hWrap : ∀ date first, InRange date → 0 ≤ first → first < date / unit % period →
      InRange (date + (first - date / unit % period) * unit))
    (hValues : Values period 0 values) {date : Int} (hRange : InRange date) :
    alignField get set carry values (some date) =
      timeClip (alignTo unit period values date) := by
  have hSplit := Int.ediv_mul_add_emod date unit
  unfold alignField alignTo nextListed
  rw [hField.get_some, findNext_some, zero_add]
  cases hFind : values.find? (date / unit % period ≤ ·) with
  | some value =>
      simp only [Option.elim_some, hField.set_some]
      congr 1
      linarith
  | none =>
      obtain ⟨first, hHead⟩ := hValues.exists_head
      have hFirst := hValues.bounds first (List.mem_of_head? hHead)
      have hLt : first < date / unit % period := by
        simpa using List.find?_eq_none.mp hFind first (List.mem_of_head? hHead)
      rw [Option.elim_none, hHead, hField.set_some,
        timeClip_of_inRange (hWrap date first hRange hFirst.1 hLt), hField.carry_some,
        List.headD_eq_head?_getD, hHead, Option.getD_some]
      congr 1
      linarith

end

variable {model : ScheduleCronModel} {date : Int}

theorem alignSeconds_utc (hModel : model.TimeLists) (hRange : InRange date) :
    alignSeconds .utc model (some date) = timeClip (alignTo 1000 60 model.seconds date) := by
  refine alignField_utc utcField_seconds ?_ hModel.seconds hRange
  intro date first hRange hFirst hLt
  unfold InRange at *
  omega

theorem alignMinutes_utc (hModel : model.TimeLists) (hRange : InRange date) :
    alignMinutes .utc model (some date) =
      timeClip (alignTo 60000 60 model.minutes date) := by
  refine alignField_utc utcField_minutes ?_ hModel.minutes hRange
  intro date first hRange hFirst hLt
  unfold InRange at *
  omega

theorem alignHours_utc (hModel : model.TimeLists) (hRange : InRange date) :
    alignHours .utc model (some date) =
      timeClip (alignTo 3600000 24 model.hours date) := by
  refine alignField_utc utcField_hours ?_ hModel.hours hRange
  intro date first hRange hFirst hLt
  unfold InRange at *
  omega

/-! ## The time of day -/

/-- The instant moved to the next listed second, then minute, then hour. -/
def ScheduleCronModel.alignTime (model : ScheduleCronModel) (date : Int) : Int :=
  alignTo 3600000 24 model.hours
    (alignTo 60000 60 model.minutes (alignTo 1000 60 model.seconds date))

/-- The alignment only moves forward, so a date it cannot represent on the way is past
the range, and so is where it ends. -/
theorem apply_timeClip_of_le (next : JsDate → JsDate) {date moved later : Int}
    (hRange : InRange date) (hLe : date ≤ moved) (hLater : moved ≤ later)
    (hNone : next none = none) (hSome : InRange moved → next (some moved) = timeClip later) :
    next (timeClip moved) = timeClip later := by
  by_cases hMoved : InRange moved
  · rw [timeClip_of_inRange hMoved]
    exact hSome hMoved
  · have hOut : ¬ InRange later := by
      unfold InRange at *
      omega
    rw [timeClip_of_not_inRange hMoved, hNone, timeClip_of_not_inRange hOut]

theorem alignField_none {get : JsDate → JsNumber} {set : JsDate → JsNumber → JsDate}
    {carry : JsDate → JsDate} {values : List Int} (hGet : get none = none)
    (hSet : ∀ value, set none value = none) (hCarry : carry none = none) :
    alignField get set carry values none = none := by
  simp [alignField, hGet, hSet, hCarry]

@[simp] theorem alignSeconds_none (zone : TimeZone) (model : ScheduleCronModel) :
    alignSeconds zone model none = none := alignField_none rfl (fun _ => rfl) rfl

@[simp] theorem alignMinutes_none (zone : TimeZone) (model : ScheduleCronModel) :
    alignMinutes zone model none = none := alignField_none rfl (fun _ => rfl) rfl

@[simp] theorem alignHours_none (zone : TimeZone) (model : ScheduleCronModel) :
    alignHours zone model none = none := alignField_none rfl (fun _ => rfl) rfl

theorem alignTime_utc (hModel : model.TimeLists) (hRange : InRange date) :
    alignHours .utc model (alignMinutes .utc model (alignSeconds .utc model (some date))) =
      timeClip (model.alignTime date) := by
  have hSeconds := le_alignTo (by decide : (0 : Int) < 1000) hModel.seconds date
  have hMinutes := le_alignTo (by decide : (0 : Int) < 60000) hModel.minutes
    (alignTo 1000 60 model.seconds date)
  have hHours := le_alignTo (by decide : (0 : Int) < 3600000) hModel.hours
    (alignTo 60000 60 model.minutes (alignTo 1000 60 model.seconds date))
  rw [alignSeconds_utc hModel hRange]
  refine apply_timeClip_of_le
    (fun ret => alignHours .utc model (alignMinutes .utc model ret))
    hRange hSeconds (hMinutes.trans hHours) ?_ ?_
  · simp only [alignMinutes_none, alignHours_none]
  · intro hRange'
    simp only [alignMinutes_utc hModel hRange']
    exact apply_timeClip_of_le (alignHours .utc model) hRange' hMinutes hHours
      (alignHours_none .utc model) (fun hRange'' => alignHours_utc hModel hRange'')

/-- The alignment of a field, by the number of its units that it takes. -/
theorem exists_steps_alignTo {unit period : Int} {values : List Int}
    (hValues : Values period 0 values) (second : Int) :
    ∃ steps : Nat, (steps : Int) < period ∧
      IsLeast {n : Nat | (second / unit + n) % period ∈ values} steps ∧
      alignTo (unit * 1000) period values (second * 1000) = (second + unit * steps) * 1000 := by
  obtain ⟨steps, hNext, hLt, hLeast⟩ := exists_steps_nextListed hValues (second / unit)
  simp only [zero_add] at hLeast
  refine ⟨steps, hLt, hLeast, ?_⟩
  have hSplit := Int.ediv_mul_add_emod second unit
  rw [alignTo, Int.mul_ediv_mul_of_pos_left _ _ (by decide),
    Int.mul_comm unit 1000, Int.mul_comm second 1000, Int.mul_emod_mul_of_pos _ _ (by decide),
    hNext]
  linarith

/-- The alignment of the time of day, by the waits for its fields. -/
theorem exists_waits_alignTime (hModel : model.TimeLists) (second : Int) :
    ∃ seconds minutes hours : Nat, seconds < 60 ∧ minutes < 60 ∧ hours < 24 ∧
      IsLeast {n : Nat | (second + n) % 60 ∈ model.seconds} seconds ∧
      IsLeast {n : Nat | ((second + seconds) / 60 + n) % 60 ∈ model.minutes} minutes ∧
      IsLeast {n : Nat | ((second + seconds + 60 * minutes) / 3600 + n) % 24 ∈ model.hours}
        hours ∧
      model.alignTime (second * 1000) =
        (second + seconds + 60 * minutes + 3600 * hours) * 1000 := by
  obtain ⟨seconds, hSeconds, hSecond, hFirst⟩ :=
    @exists_steps_alignTo 1 60 _ hModel.seconds second
  obtain ⟨minutes, hMinutes, hMinute, hThen⟩ :=
    @exists_steps_alignTo 60 60 _ hModel.minutes (second + seconds)
  obtain ⟨hours, hHours, hHour, hLast⟩ := @exists_steps_alignTo 3600 24 _ hModel.hours
    (second + seconds + 60 * minutes)
  simp only [Int.ediv_one, Int.one_mul] at hSecond hFirst
  refine ⟨seconds, minutes, hours, by omega, by omega, by omega, hSecond, hMinute, hHour, ?_⟩
  unfold ScheduleCronModel.alignTime
  rw [hFirst]
  exact (congrArg _ hThen).trans hLast

/-- Without a value for one of the fields the date is lost. -/
theorem alignTime_lost (hMissing : model.seconds = [] ∨ model.minutes = [] ∨ model.hours = [])
    (ret : JsDate) :
    alignHours .utc model (alignMinutes .utc model (alignSeconds .utc model ret)) = none := by
  have hNil : ∀ {get set carry unit period}, UtcField get set carry unit period →
      ∀ ret, alignField get set carry [] ret = none := by
    intro get set carry unit period hField ret
    have hNotFound : alignField get set carry [] ret = carry (set ret none) := rfl
    rw [hNotFound, hField.set_none, hField.carry_none]
  rcases hMissing with hSeconds | hMinutes | hHours
  · rw [alignSeconds, hSeconds, hNil utcField_seconds, alignMinutes_none, alignHours_none]
  · rw [alignMinutes, hMinutes, hNil utcField_minutes, alignHours_none]
  · rw [alignHours, hHours, hNil utcField_hours]

/-! ## The start -/

/-- The later of `now` and `startAfter`, where the host can represent that one. -/
def ScheduleCronModel.latest (model : ScheduleCronModel) (now : Int) : Int :=
  match model.startAfter.bind (fromTimeStruct .utc) with
  | some startAfter => max now startAfter
  | none => now

theorem le_latest (model : ScheduleCronModel) (now : Int) : now ≤ model.latest now := by
  unfold ScheduleCronModel.latest
  split
  · exact le_max_left now _
  · exact le_rfl

/-- The date the search over months and days starts from: the first aligned time on the
requester's clock, from one whole second after `now` and `startAfter` on. -/
def ScheduleCronModel.searchStart (model : ScheduleCronModel) (now : JsDate) : JsDate :=
  (now.bind timeClip).bind fun now =>
    (timeClip (model.latest now + 1000)).bind fun second =>
      (timeClip (second / 1000 * 1000 + model.utcOffsetMinutes * 60000)).bind fun moment =>
        timeClip (model.alignTime moment)

/-- Where the search starts: at the whole second after `now` and `startAfter`, on the
requester's clock, aligned. -/
theorem searchStart_eq_some {now start : Int} (hStart : model.searchStart (some now) = some start) :
    start = model.alignTime ((model.latest now / 1000 + 1) * 1000 +
      model.utcOffsetMinutes * 60000) := by
  unfold ScheduleCronModel.searchStart at hStart
  simp only [Option.bind_eq_some_iff] at hStart
  obtain ⟨_, hNow, _, hSecond, _, hMoment, hClip⟩ := hStart
  obtain ⟨_, hSome, hNow⟩ := hNow
  obtain rfl := Option.some.inj hSome
  obtain ⟨-, rfl⟩ := timeClip_eq_some.mp hNow
  obtain ⟨-, rfl⟩ := timeClip_eq_some.mp hSecond
  obtain ⟨-, rfl⟩ := timeClip_eq_some.mp hMoment
  obtain ⟨-, rfl⟩ := timeClip_eq_some.mp hClip
  congr 1
  omega

theorem notBeforeStart_some (hNow : InRange date) :
    notBeforeStart .utc model (some date) = some (model.latest date) := by
  have hClone : JsDate.cloneDateTime (some date) = some date := timeClip_of_inRange hNow
  unfold notBeforeStart ScheduleCronModel.latest
  rw [hClone]
  cases model.startAfter with
  | none => rfl
  | some startAfter =>
      simp only [Option.map_some, Option.bind_some]
      cases hStart : fromTimeStruct .utc startAfter with
      | none => rfl
      | some start =>
          -- a date that was constructed is in range
          obtain ⟨hRange, hEq⟩ := timeClip_eq_some.mp hStart
          rw [hEq] at hRange
          by_cases hLt : date < start
          · simp [hLt, JsDate.cloneDateTime, timeClip_of_inRange hRange, hLt.le]
          · simp [hLt, not_lt.mp hLt]

theorem firstMoment_some (hNow : InRange date) :
    firstMoment .utc model (some date) =
      (timeClip (model.latest date + 1000)).bind fun second =>
        timeClip (second / 1000 * 1000 + model.utcOffsetMinutes * 60000) := by
  simp only [firstMoment, notBeforeStart_some hNow, JsDate.setSeconds,
    JsDate.setMilliseconds, JsDate.get_some, JsNumber.add_some, JsDate.setField_utc, fromUTC]
  have hNext : ∀ second : Int, second + (TimeZone.utc.getSeconds second + 1 -
      TimeZone.utc.getSeconds second) * 1000 = second + 1000 := by
    intro second
    omega
  rw [hNext]
  by_cases hSecond : InRange (model.latest date + 1000)
  · -- a whole second is in range with every instant of it
    have hWhole : InRange ((model.latest date + 1000) / 1000 * 1000) := by
      unfold InRange at *
      omega
    have hMillis : model.latest date + 1000 +
        (0 - TimeZone.utc.getMilliseconds (model.latest date + 1000)) * 1 =
          (model.latest date + 1000) / 1000 * 1000 := by
      simp only [TimeZone.getMilliseconds, TimeZone.localTime_utc]
      omega
    rw [timeClip_of_inRange hSecond, JsDate.setField_utc, hMillis, timeClip_of_inRange hWhole]
    rfl
  · rw [timeClip_of_not_inRange hSecond]
    rfl

/-- The first half of `nextCronTime` on a server in UTC. -/
theorem align_firstMoment (hModel : model.TimeLists) (now : JsDate) :
    alignHours .utc model (alignMinutes .utc model (alignSeconds .utc model
      (firstMoment .utc model now))) = model.searchStart now := by
  have hNone : alignHours .utc model (alignMinutes .utc model
      (alignSeconds .utc model none)) = none := by
    rw [alignSeconds_none, alignMinutes_none, alignHours_none]
  cases hClip : now.cloneDateTime with
  | none =>
      -- an Invalid Date stays one through every step
      have hInvalid : firstMoment .utc model now = none := by
        simp only [firstMoment, notBeforeStart, hClip, JsNumber.lt_none]
        cases model.startAfter <;> rfl
      rw [hInvalid, hNone]
      unfold ScheduleCronModel.searchStart
      rw [show now.bind timeClip = none from hClip]
      rfl
  | some date =>
      cases now with
      | none => cases hClip
      | some instant =>
          -- the second after the later of the two dates, shifted by the offset, if both exist
          obtain ⟨hRange, rfl⟩ := timeClip_eq_some.mp hClip
          rw [firstMoment_some hRange]
          unfold ScheduleCronModel.searchStart
          rw [Option.bind_some, timeClip_of_inRange hRange, Option.bind_some]
          cases hSecond : timeClip (model.latest instant + 1000) with
          | none => exact hNone
          | some second =>
              rw [Option.bind_some, Option.bind_some]
              cases hMoment : timeClip (second / 1000 * 1000 +
                  model.utcOffsetMinutes * 60000) with
              | none => exact hNone
              | some moment =>
                  obtain ⟨hRange', rfl⟩ := timeClip_eq_some.mp hMoment
                  exact alignTime_utc hModel hRange'

end TernScheduler
