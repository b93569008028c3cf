import TernScheduler.Time
import TernScheduler.Library.Calendar

/-!
# Date objects

The `Date` object of the host, as far as the task creation strategies use it.

* `JsNumber` and `JsDate` are the numbers and the time values, with `none` for NaN and
  for an Invalid Date.  Every comparison with NaN is false.
* The getters and setters work on the local time of a `TimeZone`: a setter replaces one
  field, carries any excess, and clips the instant it reads back to the range of dates.
* `TimeStruct`, `fromTimeStruct` and `fromUTC` are those of `time-util`.
-/

namespace TernScheduler

/-- A number, or `none` for NaN. -/
abbrev JsNumber := Option Int

/-- The time value of a `Date` object, or `none` for an Invalid Date. -/
abbrev JsDate := Option Date

namespace JsNumber

/-- `a < b`. -/
def lt : JsNumber → JsNumber → Bool
  | some a, some b => decide (a < b)
  | _, _ => false

/-- `a >= b`. -/
def ge : JsNumber → JsNumber → Bool
  | some a, some b => decide (b ≤ a)
  | _, _ => false

/-- `a === b`. -/
def eq : JsNumber → JsNumber → Bool
  | some a, some b => decide (a = b)
  | _, _ => false

/-- `a + b`, for a number `b` that is not NaN. -/
def add (a : JsNumber) (b : Int) : JsNumber := a.map (· + b)

@[simp] theorem lt_some (a b : Int) : lt (some a) (some b) = decide (a < b) := rfl

@[simp] theorem ge_some (a b : Int) : ge (some a) (some b) = decide (b ≤ a) := rfl

@[simp] theorem eq_some (a b : Int) : eq (some a) (some b) = decide (a = b) := rfl

@[simp] theorem lt_none (b : JsNumber) : lt none b = false := rfl

@[simp] theorem ge_none_right (a : JsNumber) : ge a none = false := by
  cases a <;> rfl

@[simp] theorem add_some (a b : Int) : add (some a) b = some (a + b) := rfl

@[simp] theorem add_none (b : Int) : add none b = none := rfl

end JsNumber

/-- The host represents the instant: at most 100 million days from the epoch. -/
def InRange (time : Int) : Prop :=
  -8640000000000000 ≤ time ∧ time ≤ 8640000000000000

instance (time : Int) : Decidable (InRange time) := by
  unfold InRange
  infer_instance

/-- `TimeClip`: an instant the host cannot represent makes an Invalid Date. -/
def timeClip (time : Int) : JsDate :=
  if InRange time then some time else none

theorem timeClip_of_inRange {time : Int} (hRange : InRange time) :
    timeClip time = some time := if_pos hRange

theorem timeClip_of_not_inRange {time : Int} (hRange : ¬ InRange time) :
    timeClip time = none := if_neg hRange

theorem timeClip_eq_some {time date : Int} :
    timeClip time = some date ↔ InRange time ∧ time = date := by
  unfold timeClip
  split <;> simp_all

namespace TimeZone

/-- `UTC(localTime)`: the instant the host assumes for a local time. -/
def toInstant (zone : TimeZone) (localTime : Int) : Date :=
  localTime - zone.offsetOfLocal localTime

/-- The day of the local time, counted from the epoch. -/
def localDay (zone : TimeZone) (date : Date) : Int := zone.localTime date / 86400000

/-- `Date.prototype.getFullYear`. -/
def getFullYear (zone : TimeZone) (date : Date) : Int :=
  Calendar.monthOf (zone.localDay date) / 12

/-- `Date.prototype.getMonth`; January is 0. -/
def getMonth (zone : TimeZone) (date : Date) : Int :=
  Calendar.monthOf (zone.localDay date) % 12

/-- `Date.prototype.getDate`. -/
def getDate (zone : TimeZone) (date : Date) : Int :=
  Calendar.dayOfMonth (zone.localDay date)

/-- `Date.prototype.getDay`; Sunday is 0. -/
def getDay (zone : TimeZone) (date : Date) : Int :=
  Calendar.dayOfWeek (zone.localDay date)

/-- `Date.prototype.getHours`. -/
def getHours (zone : TimeZone) (date : Date) : Int :=
  zone.localTime date / 3600000 % 24

/-- `Date.prototype.getMinutes`. -/
def getMinutes (zone : TimeZone) (date : Date) : Int :=
  zone.localTime date / 60000 % 60

/-- `Date.prototype.getMilliseconds`. -/
def getMilliseconds (zone : TimeZone) (date : Date) : Int :=
  zone.localTime date % 1000

@[simp] theorem localTime_utc (date : Date) : TimeZone.utc.localTime date = date :=
  Int.add_zero date

@[simp] theorem toInstant_utc (localTime : Int) :
    TimeZone.utc.toInstant localTime = localTime := Int.sub_zero localTime

end TimeZone

namespace JsDate

/-- `cloneDateTime` of `time-util/clone.ts`: `new Date(date.valueOf())`. -/
def cloneDateTime (date : JsDate) : JsDate := date.bind timeClip

/-- A getter answers NaN of an Invalid Date. -/
def get (date : JsDate) (field : Date → Int) : JsNumber := date.map field

@[simp] theorem get_some (date : Date) (field : Date → Int) :
    get (some date) field = some (field date) := rfl

@[simp] theorem get_none (field : Date → Int) : get none field = none := rfl

/-- A setter of a field whose unit has a fixed length: the local time moves by the
difference between the new value and the present one. -/
def setField (zone : TimeZone) (field : Date → Int) (unit : Int) :
    JsDate → JsNumber → JsDate
  | some date, some value =>
      timeClip (zone.toInstant (zone.localTime date + (value - field date) * unit))
  | _, _ => none

/-- `Date.prototype.setMilliseconds`. -/
def setMilliseconds (zone : TimeZone) : JsDate → JsNumber → JsDate :=
  setField zone zone.getMilliseconds 1

/-- `Date.prototype.setSeconds`. -/
def setSeconds (zone : TimeZone) : JsDate → JsNumber → JsDate :=
  setField zone zone.getSeconds 1000

/-- `Date.prototype.setMinutes`. -/
def setMinutes (zone : TimeZone) : JsDate → JsNumber → JsDate :=
  setField zone zone.getMinutes 60000

/-- `Date.prototype.setHours`. -/
def setHours (zone : TimeZone) : JsDate → JsNumber → JsDate :=
  setField zone zone.getHours 3600000

/-- `Date.prototype.setDate`. -/
def setDate (zone : TimeZone) : JsDate → JsNumber → JsDate :=
  setField zone zone.getDate 86400000

/-- `MakeDate(MakeDay(year, month, date), time)`: a month past December, or a day past
the end of its month, carries. -/
def makeLocal (year month date time : Int) : Int :=
  (Calendar.firstDay (12 * year + month) + date - 1) * 86400000 + time

/-- `Date.prototype.setMonth`: the day of the month stays, and carries into the next
month where the new one is too short for it. -/
def setMonth (zone : TimeZone) : JsDate → JsNumber → JsDate
  | some date, some month =>
      timeClip (zone.toInstant (makeLocal (zone.getFullYear date) month (zone.getDate date)
        (zone.localTime date % 86400000)))
  | _, _ => none

/-- `Date.prototype.setFullYear`.  It alone also sets an Invalid Date, as if that were
the local time 0. -/
def setFullYear (zone : TimeZone) : JsDate → JsNumber → JsDate
  | some date, some year =>
      timeClip (zone.toInstant (makeLocal year (zone.getMonth date) (zone.getDate date)
        (zone.localTime date % 86400000)))
  | none, some year => timeClip (zone.toInstant (makeLocal year 0 1 0))
  | _, none => none

/-- `updateDate` of `db-impl.ts`, on a `Date` object. -/
def updateDate (zone : TimeZone) (date : JsDate) (increaseSeconds : Int) : JsDate :=
  let ret := date.cloneDateTime
  ret.setSeconds zone ((ret.get zone.getSeconds).add increaseSeconds)

@[simp] theorem updateDate_none (zone : TimeZone) (increaseSeconds : Int) :
    updateDate zone none increaseSeconds = none := rfl

end JsDate

/-- On a valid date it is the sum of `Time`, where the host can represent that. -/
theorem updateDate_some {zone : TimeZone} {date : Int} (hDate : InRange date)
    (increaseSeconds : Int) :
    JsDate.updateDate zone (some date) increaseSeconds =
      timeClip (updateDate zone date increaseSeconds) := by
  have hClone : JsDate.cloneDateTime (some date) = some date := timeClip_of_inRange hDate
  unfold JsDate.updateDate
  rw [hClone]
  rfl

/-- `TimeStruct` of `time-util/encoding.ts`; the month is 1-based. -/
structure TimeStruct where
  millis : Int
  seconds : Int
  minutes : Int
  hours : Int
  day : Int
  month : Int
  year : Int
  deriving DecidableEq, Repr

/-- The local time the multi-argument `Date` constructor reads from the fields: a year
from 0 to 99 is one of the twentieth century, and every other excess carries. -/
def TimeStruct.localTime (t : TimeStruct) : Int :=
  JsDate.makeLocal (if 0 ≤ t.year ∧ t.year ≤ 99 then 1900 + t.year else t.year)
    (t.month - 1) t.day
    (t.hours * 3600000 + t.minutes * 60000 + t.seconds * 1000 + t.millis)

/-- `fromTimeStruct` of `time-util/encoding.ts`. -/
def fromTimeStruct (zone : TimeZone) (t : TimeStruct) : JsDate :=
  timeClip (zone.toInstant t.localTime)

/-- `fromUTC` of `time-util/convert.ts`. -/
def fromUTC (dateUTC : JsDate) (timezoneOffsetMinutes : Int) : JsDate :=
  dateUTC.bind fun date => timeClip (date + timezoneOffsetMinutes * 60000)

/-! ## On a server in UTC

There every instant is a day and a time of that day, and the setters of the day keep
the time. -/

/-- A time of day, in milliseconds from midnight. -/
structure TimeOfDay where
  millis : Int
  nonneg : 0 ≤ millis
  inDay : millis < 86400000

/-- The time of day of an instant. -/
def timeOfDay (date : Int) : TimeOfDay :=
  ⟨date % 86400000, by omega, by omega⟩

/-- The instant at a time of a day. -/
def dateAt (day : Int) (time : TimeOfDay) : Int := day * 86400000 + time.millis

@[simp] theorem dateAt_timeOfDay (date : Int) :
    dateAt (date / 86400000) (timeOfDay date) = date := by
  simp only [dateAt, timeOfDay]
  omega

section

variable (day : Int) (time : TimeOfDay)

@[simp] theorem localDay_dateAt : TimeZone.utc.localDay (dateAt day time) = day := by
  have := time.nonneg
  have := time.inDay
  unfold TimeZone.localDay dateAt
  rw [TimeZone.localTime_utc]
  omega

@[simp] theorem dateAt_emod : dateAt day time % 86400000 = time.millis := by
  have := time.nonneg
  have := time.inDay
  unfold dateAt
  omega

theorem getFullYear_utc (date : Int) :
    TimeZone.utc.getFullYear date = Calendar.monthOf (date / 86400000) / 12 := by
  simp only [TimeZone.getFullYear, TimeZone.localDay, TimeZone.localTime_utc]

@[simp] theorem getFullYear_dateAt :
    TimeZone.utc.getFullYear (dateAt day time) = Calendar.monthOf day / 12 := by
  simp [TimeZone.getFullYear]

@[simp] theorem getMonth_dateAt :
    TimeZone.utc.getMonth (dateAt day time) = Calendar.monthOf day % 12 := by
  simp [TimeZone.getMonth]

@[simp] theorem getDate_dateAt :
    TimeZone.utc.getDate (dateAt day time) = Calendar.dayOfMonth day := by
  simp [TimeZone.getDate]

@[simp] theorem getDay_dateAt :
    TimeZone.utc.getDay (dateAt day time) = Calendar.dayOfWeek day := by
  simp [TimeZone.getDay]

namespace JsDate

theorem setField_utc (field : Date → Int) (unit : Int) (date : Date) (value : Int) :
    setField .utc field unit (some date) (some value) =
      timeClip (date + (value - field date) * unit) := by
  simp [setField]

@[simp] theorem setMonth_none (zone : TimeZone) (month : JsNumber) :
    setMonth zone none month = none := rfl

@[simp] theorem setFullYear_none_right (zone : TimeZone) (date : JsDate) :
    setFullYear zone date none = none := by
  cases date <;> rfl

theorem setDate_dateAt (date : Int) :
    setDate .utc (some (dateAt day time)) (some date) =
      timeClip (dateAt (day + (date - Calendar.dayOfMonth day)) time) := by
  unfold setDate
  rw [setField_utc, getDate_dateAt]
  congr 1
  unfold dateAt
  omega

/-- The setters of the month and the year, on the first day of a month. -/
theorem setMonth_dateAt (month value : Int) :
    setMonth .utc (some (dateAt (Calendar.firstDay month) time)) (some value) =
      timeClip (dateAt (Calendar.firstDay (12 * (month / 12) + value)) time) := by
  simp only [setMonth, makeLocal, getFullYear_dateAt, getDate_dateAt, dateAt_emod,
    TimeZone.localTime_utc, TimeZone.toInstant_utc, Calendar.monthOf_firstDay,
    Calendar.dayOfMonth_firstDay]
  congr 1
  unfold dateAt
  omega

theorem setFullYear_dateAt (month year : Int) :
    setFullYear .utc (some (dateAt (Calendar.firstDay month) time)) (some year) =
      timeClip (dateAt (Calendar.firstDay (12 * year + month % 12)) time) := by
  simp only [setFullYear, makeLocal, getMonth_dateAt, getDate_dateAt, dateAt_emod,
    TimeZone.localTime_utc, TimeZone.toInstant_utc, Calendar.monthOf_firstDay,
    Calendar.dayOfMonth_firstDay]
  congr 1
  unfold dateAt
  omega

end JsDate

end

end TernScheduler
