import Mathlib.Tactic.Common

/-!
# Dates

A `Date` is an instant, in milliseconds since the epoch.  The host reads and
writes its parts in the server's local time, so a time zone is the pair of
offset functions the language uses in the two directions: from an instant to
local time, and from a local time back to an instant.
-/

namespace TernScheduler

/-- An instant, in milliseconds since the epoch. -/
abbrev Date := Int

/-- The server's time zone: the offset of local time at an instant, the offset
the host assumes for a local time, both in milliseconds, and the text the host
prints for a date. -/
structure TimeZone where
  offsetAt : Date → Int
  offsetOfLocal : Int → Int
  toString : Date → String

namespace TimeZone

/-- The server runs in UTC.  The printed text is the time value. -/
def utc : TimeZone where
  offsetAt _ := 0
  offsetOfLocal _ := 0
  toString date := ToString.toString date

/-- `LocalTime(date)`. -/
def localTime (zone : TimeZone) (date : Date) : Int := date + zone.offsetAt date

/-- `Date.prototype.getSeconds`: the seconds of the local time. -/
def getSeconds (zone : TimeZone) (date : Date) : Int :=
  zone.localTime date / 1000 % 60

/-- `Date.prototype.setSeconds`: replace the seconds of the local time, carrying
any excess, and read the result back as a local time. -/
def setSeconds (zone : TimeZone) (date : Date) (seconds : Int) : Date :=
  let replaced := zone.localTime date + (seconds - zone.getSeconds date) * 1000
  replaced - zone.offsetOfLocal replaced

end TimeZone

/-- `cloneDateTime` of `time-util/clone.ts`. -/
def cloneDateTime (date : Date) : Date := date

/-- `updateDate` of `db-impl.ts`. -/
def updateDate (zone : TimeZone) (date : Date) (increaseSeconds : Int) : Date :=
  let ret := cloneDateTime date
  zone.setSeconds ret (zone.getSeconds ret + increaseSeconds)

/-- The seconds cancel: only the two offsets separate `updateDate` from the
addition of `increaseSeconds`. -/
theorem updateDate_eq (zone : TimeZone) (date : Date) (increaseSeconds : Int) :
    updateDate zone date increaseSeconds =
      zone.localTime date + increaseSeconds * 1000 -
        zone.offsetOfLocal (zone.localTime date + increaseSeconds * 1000) := by
  have hCancel : zone.getSeconds date + increaseSeconds - zone.getSeconds date =
      increaseSeconds := by omega
  simp only [updateDate, cloneDateTime, TimeZone.setSeconds, hCancel]

end TernScheduler
