import TernScheduler.TaskCreation

/-!
# The search in two time zones

Two servers whose clocks agree compute the same cron times: their runs move the same
dates, and a run only asks a zone about dates the host can represent.

* `SameOffset`: the host assumes the same offset for a local time in both zones.
* `SameClock`: it does so for every local time, and the zones show the same local time at
  every instant the host can represent.
* `SameClock.nextCronTime`: under `SameClock` two runs of `nextCronTime` agree.
-/

namespace TernScheduler

/-- The two zones have the same offset at the local time, or the instant is past the
range of dates in both. -/
def SameOffset (zone other : TimeZone) (localTime : Int) : Prop :=
  zone.offsetOfLocal localTime = other.offsetOfLocal localTime ∨
    (¬ InRange (localTime - zone.offsetOfLocal localTime) ∧
      ¬ InRange (localTime - other.offsetOfLocal localTime))

/-- Different offsets are different instants, as long as the host represents one. -/
theorem sameOffset_iff {zone other : TimeZone} {localTime : Int} :
    SameOffset zone other localTime ↔
      timeClip (zone.toInstant localTime) = timeClip (other.toInstant localTime) := by
  unfold SameOffset TimeZone.toInstant
  constructor
  · rintro (hEq | ⟨hOut, hOut'⟩)
    · rw [hEq]
    · rw [timeClip_of_not_inRange hOut, timeClip_of_not_inRange hOut']
  · intro hEq
    by_cases hIn : InRange (localTime - zone.offsetOfLocal localTime)
    · rw [timeClip_of_inRange hIn] at hEq
      have hInstants := (timeClip_eq_some.mp hEq.symm).2
      exact .inl (by omega)
    · rw [timeClip_of_not_inRange hIn] at hEq
      refine .inr ⟨hIn, fun hIn' => ?_⟩
      rw [timeClip_of_inRange hIn'] at hEq
      cases hEq

/-- The clocks of the two zones agree. -/
structure SameClock (zone other : TimeZone) : Prop where
  offset : ∀ date, InRange date → zone.offsetAt date = other.offsetAt date
  offsetOfLocal : ∀ localTime, SameOffset zone other localTime

/-- The date of one run is the date of the other, and one that the host made. -/
structure SameDate (date other : JsDate) : Prop where
  eq : other = date
  made : ∀ instant, date = some instant → InRange instant

theorem sameDate_timeClip (time : Int) : SameDate (timeClip time) (timeClip time) :=
  ⟨rfl, fun _ hSome => (timeClip_eq_some.mp hSome).2 ▸ (timeClip_eq_some.mp hSome).1⟩

theorem sameDate_none : SameDate none none := ⟨rfl, fun _ hSome => by cases hSome⟩

theorem sameDate_clone (date : JsDate) : SameDate date.cloneDateTime date.cloneDateTime := by
  cases date with
  | none => exact sameDate_none
  | some instant => exact sameDate_timeClip instant

/-- What `findNext` hands on is one of the two answers. -/
theorem findNext_rel {T : Type} {Related : T → T → Prop} {value : JsNumber}
    {range : List Int} {found found' : Int → T} {notFound notFound' : T}
    (hFound : ∀ next, Related (found next) (found' next))
    (hNotFound : Related notFound notFound') :
    Related (findNext value range found notFound) (findNext value range found' notFound') := by
  induction range with
  | nil => exact hNotFound
  | cons next rest ih =>
      rw [findNext, findNext]
      split
      · exact hFound next
      · exact ih

namespace SameClock

variable {zone other : TimeZone} {date date' : JsDate}

theorem toInstant (h : SameClock zone other) (localTime : Int) :
    SameDate (timeClip (zone.toInstant localTime)) (timeClip (other.toInstant localTime)) := by
  rw [← sameOffset_iff.mp (h.offsetOfLocal localTime)]
  exact sameDate_timeClip _

theorem localTime (h : SameClock zone other) {instant : Date} (hRange : InRange instant) :
    zone.localTime instant = other.localTime instant := by
  simp only [TimeZone.localTime, h.offset instant hRange]

/-- A getter reads a field of the local time. -/
theorem get (h : SameClock zone other) (hDate : SameDate date date') (field : Int → Int) :
    date.get (fun instant => field (zone.localTime instant)) =
      date'.get (fun instant => field (other.localTime instant)) := by
  rw [hDate.eq]
  cases date with
  | none => rfl
  | some instant => rw [JsDate.get_some, JsDate.get_some, h.localTime (hDate.made instant rfl)]

/-- A setter of a field of fixed length replaces a field of the local time. -/
theorem setField (h : SameClock zone other) (hDate : SameDate date date')
    (field : Int → Int) (unit : Int) (value : JsNumber) :
    SameDate
      (JsDate.setField zone (fun instant => field (zone.localTime instant)) unit date value)
      (JsDate.setField other (fun instant => field (other.localTime instant)) unit date'
        value) := by
  rw [hDate.eq]
  cases date with
  | none => exact sameDate_none
  | some instant =>
      cases value with
      | none => exact sameDate_none
      | some value =>
          simp only [JsDate.setField, h.localTime (hDate.made instant rfl)]
          exact h.toInstant _

theorem setMonth (h : SameClock zone other) (hDate : SameDate date date')
    (month : JsNumber) :
    SameDate (JsDate.setMonth zone date month) (JsDate.setMonth other date' month) := by
  rw [hDate.eq]
  cases date with
  | none => exact sameDate_none
  | some instant =>
      cases month with
      | none => exact sameDate_none
      | some month =>
          simp only [JsDate.setMonth, TimeZone.getFullYear, TimeZone.getDate,
            TimeZone.localDay, h.localTime (hDate.made instant rfl)]
          exact h.toInstant _

theorem setFullYear (h : SameClock zone other) (hDate : SameDate date date')
    (year : JsNumber) :
    SameDate (JsDate.setFullYear zone date year) (JsDate.setFullYear other date' year) := by
  rw [hDate.eq]
  cases year with
  | none =>
      rw [JsDate.setFullYear_none_right, JsDate.setFullYear_none_right]
      exact sameDate_none
  | some year =>
      cases date with
      | none => exact h.toInstant _
      | some instant =>
          simp only [JsDate.setFullYear, TimeZone.getMonth, TimeZone.getDate,
            TimeZone.localDay, h.localTime (hDate.made instant rfl)]
          exact h.toInstant _

/-! ## The fields the search uses -/

theorem getSeconds (h : SameClock zone other) (hDate : SameDate date date') :
    date.get zone.getSeconds = date'.get other.getSeconds := h.get hDate (· / 1000 % 60)

theorem getMinutes (h : SameClock zone other) (hDate : SameDate date date') :
    date.get zone.getMinutes = date'.get other.getMinutes := h.get hDate (· / 60000 % 60)

theorem getHours (h : SameClock zone other) (hDate : SameDate date date') :
    date.get zone.getHours = date'.get other.getHours := h.get hDate (· / 3600000 % 24)

theorem getDate (h : SameClock zone other) (hDate : SameDate date date') :
    date.get zone.getDate = date'.get other.getDate :=
  h.get hDate fun time => Calendar.dayOfMonth (time / 86400000)

theorem getDay (h : SameClock zone other) (hDate : SameDate date date') :
    date.get zone.getDay = date'.get other.getDay :=
  h.get hDate fun time => Calendar.dayOfWeek (time / 86400000)

theorem getMonth (h : SameClock zone other) (hDate : SameDate date date') :
    date.get zone.getMonth = date'.get other.getMonth :=
  h.get hDate fun time => Calendar.monthOf (time / 86400000) % 12

theorem getFullYear (h : SameClock zone other) (hDate : SameDate date date') :
    date.get zone.getFullYear = date'.get other.getFullYear :=
  h.get hDate fun time => Calendar.monthOf (time / 86400000) / 12

theorem setMilliseconds (h : SameClock zone other) (hDate : SameDate date date')
    (value : JsNumber) :
    SameDate (date.setMilliseconds zone value) (date'.setMilliseconds other value) :=
  h.setField hDate (· % 1000) 1 value

theorem setSeconds (h : SameClock zone other) (hDate : SameDate date date')
    (value : JsNumber) :
    SameDate (date.setSeconds zone value) (date'.setSeconds other value) :=
  h.setField hDate (· / 1000 % 60) 1000 value

theorem setMinutes (h : SameClock zone other) (hDate : SameDate date date')
    (value : JsNumber) :
    SameDate (date.setMinutes zone value) (date'.setMinutes other value) :=
  h.setField hDate (· / 60000 % 60) 60000 value

theorem setHours (h : SameClock zone other) (hDate : SameDate date date')
    (value : JsNumber) :
    SameDate (date.setHours zone value) (date'.setHours other value) :=
  h.setField hDate (· / 3600000 % 24) 3600000 value

theorem setDate (h : SameClock zone other) (hDate : SameDate date date')
    (value : JsNumber) :
    SameDate (date.setDate zone value) (date'.setDate other value) :=
  h.setField hDate (fun time => Calendar.dayOfMonth (time / 86400000)) 86400000 value

/-! ## The two runs -/

theorem alignField {get get' : JsDate → JsNumber} {set set' : JsDate → JsNumber → JsDate}
    {carry carry' : JsDate → JsDate} {values : List Int}
    (hGet : ∀ {date date'}, SameDate date date' → get date = get' date')
    (hSet : ∀ {date date'} value, SameDate date date' →
      SameDate (set date value) (set' date' value))
    (hCarry : ∀ {date date'}, SameDate date date' → SameDate (carry date) (carry' date'))
    (hDate : SameDate date date') :
    SameDate (alignField get set carry values date)
      (alignField get' set' carry' values date') := by
  unfold TernScheduler.alignField
  rw [hGet hDate]
  exact findNext_rel (fun next => hSet (some next) hDate) (hCarry (hSet values.head? hDate))

variable (model : ScheduleCronModel)

theorem alignSeconds (h : SameClock zone other) (hDate : SameDate date date') :
    SameDate (alignSeconds zone model date) (alignSeconds other model date') := by
  refine alignField h.getSeconds (fun value hDate => h.setSeconds hDate value) ?_ hDate
  intro date date' hDate
  rw [h.getMinutes hDate]
  exact h.setMinutes hDate _

theorem alignMinutes (h : SameClock zone other) (hDate : SameDate date date') :
    SameDate (alignMinutes zone model date) (alignMinutes other model date') := by
  refine alignField h.getMinutes (fun value hDate => h.setMinutes hDate value) ?_ hDate
  intro date date' hDate
  rw [h.getHours hDate]
  exact h.setHours hDate _

theorem alignHours (h : SameClock zone other) (hDate : SameDate date date') :
    SameDate (alignHours zone model date) (alignHours other model date') := by
  refine alignField h.getHours (fun value hDate => h.setHours hDate value) ?_ hDate
  intro date date' hDate
  rw [h.getDate hDate]
  exact h.setDate hDate _

theorem fromTimeStruct (h : SameClock zone other) (struct : TimeStruct) :
    SameDate (fromTimeStruct zone struct) (fromTimeStruct other struct) :=
  h.toInstant struct.localTime

theorem map_fromTimeStruct (h : SameClock zone other) (struct : Option TimeStruct) :
    struct.map (TernScheduler.fromTimeStruct other) =
      struct.map (TernScheduler.fromTimeStruct zone) := by
  cases struct with
  | none => rfl
  | some struct => rw [Option.map_some, Option.map_some, (h.fromTimeStruct struct).eq]

theorem firstMoment (h : SameClock zone other) (now : JsDate) :
    SameDate (firstMoment zone model now) (firstMoment other model now) := by
  have hStart : SameDate (notBeforeStart zone model now) (notBeforeStart other model now) := by
    unfold notBeforeStart
    rw [h.map_fromTimeStruct]
    cases model.startAfter with
    | none => exact sameDate_clone now
    | some startAfter =>
        simp only [Option.map_some]
        split
        · exact sameDate_clone _
        · exact sameDate_clone now
  unfold TernScheduler.firstMoment
  simp only
  rw [h.getSeconds hStart]
  have hWhole := h.setMilliseconds (h.setSeconds hStart
    (((notBeforeStart other model now).get other.getSeconds).add 1)) (some 0)
  rw [hWhole.eq]
  unfold fromUTC
  cases JsDate.setMilliseconds zone _ _ with
  | none => exact sameDate_none
  | some instant => exact sameDate_timeClip _

theorem alignMonth (h : SameClock zone other) (hDate : SameDate date date') :
    SameDate (alignMonth zone model date) (alignMonth other model date') := by
  have hFirst := h.setDate hDate (some 1)
  unfold TernScheduler.alignMonth
  rw [h.getMonth hDate]
  refine findNext_rel (fun next => ?_) ?_
  · split
    · exact hDate
    · exact h.setMonth hFirst _
  · have hMonth := h.setMonth hFirst (JsNumber.add model.months.head? (-1))
    simp only
    rw [h.getFullYear hMonth]
    exact h.setFullYear hMonth _

/-- Two answers of the day search with one signal and the same date. -/
def SameAnswer (answer answer' : DaySignal × JsDate) : Prop :=
  answer.1 = answer'.1 ∧ SameDate answer.2 answer'.2

theorem alignDay (h : SameClock zone other) (hDate : SameDate date date') :
    SameAnswer (alignDay zone model date) (alignDay other model date') := by
  unfold TernScheduler.alignDay
  rw [h.getDate hDate, h.getMonth hDate]
  refine findNext_rel (fun next => ?_) ⟨rfl, hDate⟩
  have hTrial : SameDate (date.cloneDateTime.setDate zone (some next))
      (date'.cloneDateTime.setDate other (some next)) := by
    rw [hDate.eq]
    exact h.setDate (sameDate_clone date) _
  have hNext := h.setDate hDate (some next)
  simp only
  rw [h.getMonth hTrial, h.getDay hNext]
  split
  · exact ⟨rfl, hNext⟩
  · exact ⟨rfl, hDate⟩

theorem incrementMonth (h : SameClock zone other) (hDate : SameDate date date') :
    SameDate (incrementMonth zone date) (incrementMonth other date') := by
  have hFirst := h.setDate hDate (some 1)
  unfold TernScheduler.incrementMonth
  simp only
  rw [h.getMonth hFirst]
  exact h.setMonth hFirst _

theorem searchDays (h : SameClock zone other) (fuel : Nat) (hDate : SameDate date date') :
    (searchDays zone model fuel date = none ∧ searchDays other model fuel date' = none) ∨
      ∃ found day day', SameDate day day' ∧
        searchDays zone model fuel date = some (found, day) ∧
          searchDays other model fuel date' = some (found, day') := by
  induction fuel generalizing date date' with
  | zero => exact .inl ⟨rfl, rfl⟩
  | succ fuel ih =>
      have hAnswer := h.alignDay model hDate
      rw [TernScheduler.searchDays, TernScheduler.searchDays]
      generalize TernScheduler.alignDay zone model date = answer at hAnswer
      generalize TernScheduler.alignDay other model date' = answer' at hAnswer
      obtain ⟨signal, day⟩ := answer
      obtain ⟨signal', day'⟩ := answer'
      obtain ⟨rfl, hDay⟩ : signal = signal' ∧ SameDate day day' := hAnswer
      cases signal with
      | matched => exact .inr ⟨true, day, day', hDay, rfl, rfl⟩
      | inc => exact .inr ⟨false, day, day', hDay, rfl, rfl⟩
      | same => exact ih hDay

theorem searchMonths (h : SameClock zone other) (horizon : JsNumber) (fuel : Nat)
    (hDate : SameDate date date') :
    (searchMonths zone model horizon fuel date = none ∧
      searchMonths other model horizon fuel date' = none) ∨
      ∃ ret ret', SameDate ret ret' ∧ searchMonths zone model horizon fuel date = some ret ∧
        searchMonths other model horizon fuel date' = some ret' := by
  induction fuel generalizing date date' with
  | zero => exact .inl ⟨rfl, rfl⟩
  | succ fuel ih =>
      have hYear := h.getFullYear hDate
      cases hLoop : JsNumber.lt (date.get zone.getFullYear) horizon with
      | false =>
          have hLoop' := hLoop
          rw [hYear] at hLoop'
          rw [searchMonths_of_not_lt hLoop, searchMonths_of_not_lt hLoop']
          exact .inr ⟨date, date', hDate, rfl, rfl⟩
      | true =>
          have hLoop' := hLoop
          rw [hYear] at hLoop'
          rw [searchMonths_of_lt hLoop, searchMonths_of_lt hLoop']
          rcases h.searchDays model fuel (h.alignMonth model hDate) with
            ⟨hNone, hNone'⟩ | ⟨found, day, day', hDay, hSome, hSome'⟩
          · rw [hNone, hNone']
            exact .inl ⟨rfl, rfl⟩
          · rw [hSome, hSome']
            cases found with
            | true => exact .inr ⟨day, day', hDay, rfl, rfl⟩
            | false => exact ih (h.incrementMonth hDay)

theorem finishTime (h : SameClock zone other) (horizon : JsNumber)
    (hDate : SameDate date date') :
    finishTime other model horizon date' = finishTime zone model horizon date := by
  have hUtc := h.setMinutes hDate
    ((date'.get other.getMinutes).add (-model.utcOffsetMinutes))
  unfold TernScheduler.finishTime
  simp only
  rw [h.map_fromTimeStruct, h.getMinutes hDate, h.getFullYear hUtc, hUtc.eq]

/-- Two servers with the same clock compute the same cron times. -/
theorem nextCronTime (h : SameClock zone other) {now : Date} (hNow : InRange now)
    (fuel : Nat) :
    nextCronTime other fuel model (some now) = nextCronTime zone fuel model (some now) := by
  have hDate : SameDate (some now) (some now) :=
    ⟨rfl, fun instant hSome => Option.some.inj hSome ▸ hNow⟩
  have hHorizon : farthestYearOf other (some now) = farthestYearOf zone (some now) := by
    unfold farthestYearOf
    rw [h.getFullYear hDate]
  have hStart := h.alignHours model (h.alignMinutes model (h.alignSeconds model
    (h.firstMoment model (some now))))
  unfold TernScheduler.nextCronTime
  simp only
  rw [h.map_fromTimeStruct, hHorizon]
  split
  · rfl
  · rcases h.searchMonths model (farthestYearOf zone (some now)) fuel hStart with
      ⟨hNone, hNone'⟩ | ⟨ret, ret', hRet, hSome, hSome'⟩
    · rw [hNone, hNone']
      rfl
    · rw [hSome, hSome', Option.map_some, Option.map_some, h.finishTime model _ hRet]

end SameClock

end TernScheduler
