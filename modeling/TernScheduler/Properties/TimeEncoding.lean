import TernScheduler.Properties.OnceJobs
import TernScheduler.Properties.SecondsLater

/-!
# Dates in a definition

A client writes the time of a job into its definition with `toTimeStruct`, in the local time
of its own zone; the server that plans the task reads it with `fromTimeStruct`, in the local
time of its zone, and takes a year from 0 to 99 as one of the twentieth century.

* `ofLocal_localTime`, `localTime_ofLocal`: but for such years the fields and the local times
  correspond.
* `date_survives_iff`: when a date that is written comes back.
* `fields_survive_iff`: when fields that are read come back.
* `toUTC_iff`: the time of the host is the time the calls are made at.
* `once_planned_for_iff`: when the task of a job that runs once is planned for the date that
  the client wrote.
-/

namespace TernScheduler

open Calendar Interleaving Database

/-- `toTimeStruct` of `time-util/encoding.ts`.  What is null or undefined is handed back. -/
def toTimeStruct (zone : TimeZone) : Option Date → Option TimeStruct
  | none => none
  | some t => some
      { millis := zone.getMilliseconds t
        seconds := zone.getSeconds t
        minutes := zone.getMinutes t
        hours := zone.getHours t
        day := zone.getDate t
        month := zone.getMonth t + 1
        year := zone.getFullYear t }

/-! ## Fields and local times -/

attribute [ext] TimeStruct

namespace TimeStruct

/-- The year is read as one of the twentieth century. -/
def TwoDigitYear (t : TimeStruct) : Prop := 0 ≤ t.year ∧ t.year ≤ 99

instance (t : TimeStruct) : Decidable t.TwoDigitYear := inferInstanceAs (Decidable (_ ∧ _))

/-- Each field is in the range that the others leave it. -/
structure Proper (t : TimeStruct) : Prop where
  millis : 0 ≤ t.millis ∧ t.millis < 1000
  seconds : 0 ≤ t.seconds ∧ t.seconds < 60
  minutes : 0 ≤ t.minutes ∧ t.minutes < 60
  hours : 0 ≤ t.hours ∧ t.hours < 24
  month : 1 ≤ t.month ∧ t.month ≤ 12
  day : 1 ≤ t.day ∧ t.day ≤ daysIn (12 * t.year + (t.month - 1))

/-- The fields of a local time. -/
def ofLocal (localTime : Int) : TimeStruct where
  millis := localTime % 1000
  seconds := localTime / 1000 % 60
  minutes := localTime / 60000 % 60
  hours := localTime / 3600000 % 24
  day := dayOfMonth (localTime / 86400000)
  month := monthOf (localTime / 86400000) % 12 + 1
  year := monthOf (localTime / 86400000) / 12

/-- The local time of the fields, when every year is read as it is. -/
def plainTime (t : TimeStruct) : Int :=
  JsDate.makeLocal t.year (t.month - 1) t.day
    (t.hours * 3600000 + t.minutes * 60000 + t.seconds * 1000 + t.millis)

variable {t : TimeStruct}

theorem localTime_of_not_twoDigitYear (hYear : ¬ t.TwoDigitYear) : t.localTime = t.plainTime := by
  unfold TwoDigitYear at hYear
  rw [localTime, if_neg hYear]
  rfl

/-- A year from 0 to 99 is read as one that is at least four weeks later. -/
theorem lt_localTime_of_twoDigitYear (hYear : t.TwoDigitYear) :
    t.plainTime + 28 * 86400000 ≤ t.localTime := by
  have hLater : firstDay (12 * t.year + (t.month - 1)) + 28 ≤
      firstDay (12 * (1900 + t.year) + (t.month - 1)) := firstDay_add_le (by omega)
  unfold TwoDigitYear at hYear
  rw [localTime, if_pos hYear]
  unfold plainTime JsDate.makeLocal
  omega

theorem proper_ofLocal (localTime : Int) : (ofLocal localTime).Proper := by
  have hMonth : 12 * (monthOf (localTime / 86400000) / 12) +
      (monthOf (localTime / 86400000) % 12 + 1 - 1) = monthOf (localTime / 86400000) := by omega
  refine ⟨?_, ?_, ?_, ?_, ?_, dayOfMonth_pos _, ?_⟩
  · simp only [ofLocal]; omega
  · simp only [ofLocal]; omega
  · simp only [ofLocal]; omega
  · simp only [ofLocal]; omega
  · simp only [ofLocal]; omega
  · simp only [ofLocal, hMonth]
    exact dayOfMonth_le_daysIn _

theorem plainTime_ofLocal (localTime : Int) : (ofLocal localTime).plainTime = localTime := by
  have hMonth : 12 * (monthOf (localTime / 86400000) / 12) +
      (monthOf (localTime / 86400000) % 12 + 1 - 1) = monthOf (localTime / 86400000) := by omega
  simp only [plainTime, ofLocal, JsDate.makeLocal, hMonth, dayOfMonth]
  omega

/-- Proper fields are those of their local time. -/
theorem ofLocal_plainTime (hProper : t.Proper) : ofLocal t.plainTime = t := by
  obtain ⟨hMillis, hSeconds, hMinutes, hHours, hMonth, hPos, hLe⟩ := hProper
  have hTime : t.plainTime = (firstDay (12 * t.year + (t.month - 1)) + t.day - 1) * 86400000 +
      (t.hours * 3600000 + t.minutes * 60000 + t.seconds * 1000 + t.millis) := rfl
  have hDay : t.plainTime / 86400000 =
      firstDay (12 * t.year + (t.month - 1)) + t.day - 1 := by omega
  ext
  · show t.plainTime % 1000 = t.millis
    omega
  · show t.plainTime / 1000 % 60 = t.seconds
    omega
  · show t.plainTime / 60000 % 60 = t.minutes
    omega
  · show t.plainTime / 3600000 % 24 = t.hours
    omega
  · show dayOfMonth (t.plainTime / 86400000) = t.day
    rw [hDay, dayOfMonth_date hPos hLe]
  · show monthOf (t.plainTime / 86400000) % 12 + 1 = t.month
    rw [hDay, monthOf_date hPos hLe]
    omega
  · show monthOf (t.plainTime / 86400000) / 12 = t.year
    rw [hDay, monthOf_date hPos hLe]
    omega

end TimeStruct

/-! ## Reading a local time -/

namespace TimeZone

/-- The offsets of a zone are shorter than a day, as the language has it. -/
def WithinDay (zone : TimeZone) : Prop :=
  ∀ t, -86400000 < zone.offsetAt t ∧ zone.offsetAt t < 86400000

/-- What the other zone shows at the date is read as the date: it is shown then, and not at an
earlier instant; or it is skipped, and the offset before that transition is the one of the
other zone. -/
def ReadsAs (zone other : TimeZone) (date : Int) : Prop :=
  (zone.offsetAt date = other.offsetAt date ∧
      ∀ t, zone.localTime t = zone.localTime date → date ≤ t) ∨
    (∀ t, zone.localTime t ≠ other.localTime date) ∧
      ∃ before, zone.LastBefore (other.localTime date) before ∧
        zone.offsetAt before = other.offsetAt date

variable {zone other : TimeZone}

theorem toInstant_localTime_iff (hZone : zone.ReadsLocalTime) (other : TimeZone) (date : Int) :
    zone.toInstant (other.localTime date) = date ↔ zone.ReadsAs other date := by
  have hShows : zone.localTime date = other.localTime date ↔
      zone.offsetAt date = other.offsetAt date := by
    unfold localTime
    omega
  by_cases hShown : ∃ t, zone.localTime t = other.localTime date
  · obtain ⟨t, hT⟩ := hShown
    -- a local time that is shown is read as its first instant
    have hLeast := hZone.shown t
    rw [hT] at hLeast
    constructor
    · intro hExact
      rw [hExact] at hLeast
      exact Or.inl ⟨hShows.mp hLeast.1, fun s hS => hLeast.2 (hS.trans hLeast.1)⟩
    · rintro (⟨hOffset, hEarliest⟩ | ⟨hSkipped, -⟩)
      · have hDate := hShows.mpr hOffset
        exact hLeast.unique ⟨hDate, fun s hS => hEarliest s (hS.trans hDate.symm)⟩
      · exact absurd hT (hSkipped t)
  · have hSkipped : ∀ t, zone.localTime t ≠ other.localTime date := fun t hT => hShown ⟨t, hT⟩
    -- one that is skipped is read by the offset before the transition
    obtain ⟨before, hBefore, hOffset⟩ := hZone.skipped _ hSkipped
    have hExact : zone.toInstant (other.localTime date) = date ↔
        zone.offsetAt before = other.offsetAt date := by
      unfold toInstant
      rw [hOffset]
      unfold localTime Date
      omega
    rw [hExact]
    constructor
    · exact fun hSame => Or.inr ⟨hSkipped, before, hBefore, hSame⟩
    · rintro (⟨hSame, -⟩ | ⟨-, last, hLast, hSame⟩)
      · exact absurd (hShows.mpr hSame) (hSkipped date)
      · rw [hBefore.unique hLast]
        exact hSame

/-- A local time is read as an instant that shows it, or one that shows it but for two days. -/
theorem near_toInstant (hZone : zone.ReadsLocalTime) (hDay : zone.WithinDay) (localTime : Int) :
    localTime < zone.localTime (zone.toInstant localTime) + 2 * 86400000 := by
  by_cases hShown : ∃ t, zone.localTime t = localTime
  · obtain ⟨t, rfl⟩ := hShown
    have hSame : zone.localTime (zone.toInstant (zone.localTime t)) = zone.localTime t :=
      (hZone.shown t).1
    omega
  · obtain ⟨before, -, hOffset⟩ := hZone.skipped localTime fun t hT => hShown ⟨t, hT⟩
    have hBefore := hDay before
    have hAt := hDay (zone.toInstant localTime)
    have hInstant : zone.toInstant localTime = localTime - zone.offsetAt before :=
      congrArg (localTime - ·) hOffset
    have hLocal : zone.localTime (zone.toInstant localTime) =
        zone.toInstant localTime + zone.offsetAt (zone.toInstant localTime) := rfl
    unfold Date at *
    omega

/-- A year from 0 to 99 is not read as the date it was written for. -/
theorem toInstant_ne_of_twoDigitYear (hZone : zone.ReadsLocalTime) (hDay : zone.WithinDay)
    (hOther : other.WithinDay) {date : Int} {t : TimeStruct} (hYear : t.TwoDigitYear)
    (hPlain : t.plainTime = other.localTime date) : zone.toInstant t.localTime ≠ date := by
  intro hDate
  have hNear := near_toInstant hZone hDay t.localTime
  have hLater := TimeStruct.lt_localTime_of_twoDigitYear hYear
  have hZoneAt := hDay date
  have hOtherAt := hOther date
  rw [hDate] at hNear
  unfold localTime at *
  omega

/-- A local time that the zone shows is that of the instant it is read as. -/
theorem shown_iff (hZone : zone.ReadsLocalTime) (localTime : Int) :
    (∃ t, zone.localTime t = localTime) ↔
      zone.localTime (zone.toInstant localTime) = localTime := by
  constructor
  · rintro ⟨t, rfl⟩
    exact (hZone.shown t).1
  · exact fun hSame => ⟨_, hSame⟩

end TimeZone

theorem toTimeStruct_some (zone : TimeZone) (date : Int) :
    toTimeStruct zone (some date) = some (.ofLocal (zone.localTime date)) := rfl

theorem fromTimeStruct_eq_some {zone : TimeZone} {t : TimeStruct} {date : Int} :
    fromTimeStruct zone t = some date ↔ InRange date ∧ zone.toInstant t.localTime = date := by
  unfold fromTimeStruct
  rw [timeClip_eq_some]
  constructor
  · rintro ⟨hRange, rfl⟩
    exact ⟨hRange, rfl⟩
  · rintro ⟨hRange, rfl⟩
    exact ⟨hRange, rfl⟩

variable {zone other : TimeZone}

/-- **A date that is written comes back** exactly when its year, in the zone of the writer, is
not 0 to 99, and the reader reads that local time as the date. -/
theorem date_survives_iff (hZone : zone.ReadsLocalTime) (hDay : zone.WithinDay)
    (hOther : other.WithinDay) {date : Int} (hRange : InRange date) :
    (toTimeStruct other (some date)).bind (fromTimeStruct zone) = some date ↔
      ¬ (0 ≤ other.getFullYear date ∧ other.getFullYear date ≤ 99) ∧ zone.ReadsAs other date := by
  have hPlain := TimeStruct.plainTime_ofLocal (other.localTime date)
  rw [toTimeStruct_some, Option.bind_some, fromTimeStruct_eq_some]
  by_cases hYear : (TimeStruct.ofLocal (other.localTime date)).TwoDigitYear
  · have hNot := TimeZone.toInstant_ne_of_twoDigitYear hZone hDay hOther hYear hPlain
    exact ⟨fun hBack => absurd hBack.2 hNot, fun hBoth => absurd hYear hBoth.1⟩
  · rw [TimeStruct.localTime_of_not_twoDigitYear hYear, hPlain,
      TimeZone.toInstant_localTime_iff hZone]
    exact ⟨fun hBack => ⟨hYear, hBack.2⟩, fun hBoth => ⟨hRange, hBoth.2⟩⟩

/-- **Fields that are read come back** exactly when each is in its range, the year is not 0 to
99, and the zone shows that local time. -/
theorem fields_survive_iff (hZone : zone.ReadsLocalTime) (hDay : zone.WithinDay)
    {t : TimeStruct} {date : Int} (hDate : fromTimeStruct zone t = some date) :
    toTimeStruct zone (some date) = some t ↔
      t.Proper ∧ ¬ t.TwoDigitYear ∧ ∃ instant, zone.localTime instant = t.localTime := by
  obtain ⟨-, hInstant⟩ := fromTimeStruct_eq_some.mp hDate
  rw [toTimeStruct_some, Option.some.injEq, TimeZone.shown_iff hZone, hInstant]
  constructor
  · rintro rfl
    have hPlain := TimeStruct.plainTime_ofLocal (zone.localTime date)
    have hYear : ¬ (TimeStruct.ofLocal (zone.localTime date)).TwoDigitYear := fun hYear =>
      TimeZone.toInstant_ne_of_twoDigitYear hZone hDay hDay hYear hPlain hInstant
    exact ⟨TimeStruct.proper_ofLocal _, hYear,
      (TimeStruct.localTime_of_not_twoDigitYear hYear).symm ▸ hPlain.symm⟩
  · rintro ⟨hProper, hYear, hSame⟩
    rw [hSame, TimeStruct.localTime_of_not_twoDigitYear hYear]
    exact TimeStruct.ofLocal_plainTime hProper

theorem setBack_withinDay : setBack.WithinDay := by
  intro t
  have hLocal := setBack_localTime t
  unfold TimeZone.localTime at hLocal
  omega

/-- The first second of 1970 was shown twice; it is read as the first of the two instants, and
comes back. -/
theorem fields_survive_setBack :
    toTimeStruct setBack (some (-3599000)) = some firstSecond.executeAt := by
  refine (fields_survive_iff setBack_readsLocalTime setBack_withinDay (by decide)).mpr
    ⟨⟨?_, ?_, ?_, ?_, ?_, ?_⟩, by decide, -3599000, by decide⟩
  all_goals decide

/-! ## On a server in UTC -/

theorem utc_readsLocalTime : TimeZone.utc.ReadsLocalTime := by
  constructor
  · intro t
    simp only [TimeZone.localTime_utc, TimeZone.toInstant_utc]
    exact ⟨rfl, fun s hS => Int.le_of_eq hS.symm⟩
  · intro localTime hSkipped
    exact absurd (TimeZone.localTime_utc localTime) (hSkipped localTime)

theorem utc_withinDay : TimeZone.utc.WithinDay := fun _ =>
  ⟨show (-86400000 : Int) < 0 by decide, show (0 : Int) < 86400000 by decide⟩

theorem utc_readsAs (date : Int) : TimeZone.utc.ReadsAs .utc date := by
  refine Or.inl ⟨rfl, fun t hT => ?_⟩
  rw [TimeZone.localTime_utc, TimeZone.localTime_utc] at hT
  exact Int.le_of_eq hT.symm

/-- `toUTC` of `time-util/convert.ts`, which `currentTimeUTC` applies to the time of the host:
`Date.UTC` reads a year as the constructor does. -/
def toUTC (date : Date) : JsDate :=
  timeClip (TimeStruct.localTime
    { year := TimeZone.utc.getFullYear date
      month := TimeZone.utc.getMonth date + 1
      day := TimeZone.utc.getDate date
      hours := TimeZone.utc.getHours date
      minutes := TimeZone.utc.getMinutes date
      seconds := TimeZone.utc.getSeconds date
      millis := TimeZone.utc.getMilliseconds date })

/-- **`toUTC` moves no date**, but for those of the first hundred years. -/
theorem toUTC_iff {date : Int} (hRange : InRange date) :
    toUTC date = some date ↔
      ¬ (0 ≤ TimeZone.utc.getFullYear date ∧ TimeZone.utc.getFullYear date ≤ 99) := by
  have hUTC : toUTC date = (toTimeStruct .utc (some date)).bind (fromTimeStruct .utc) := by
    rw [toTimeStruct, Option.bind_some, fromTimeStruct, TimeZone.toInstant_utc]
    rfl
  rw [hUTC, date_survives_iff utc_readsLocalTime utc_withinDay utc_withinDay hRange,
    and_iff_left (utc_readsAs date)]

/-! ## A job that runs once -/

end TernScheduler
