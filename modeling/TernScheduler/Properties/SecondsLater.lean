import TernScheduler.JsDate
import Mathlib.Order.Bounds.Basic

/-!
# Whether `updateDate` adds seconds

`updateDate` of `db-impl.ts` adds the seconds to a field of the local time, which is then read
back as an instant.  Around a transition of the zone that reading is not the inverse of the
other one.

* `TimeZone.ReadsLocalTime` is how the language reads a local time back.
* `TimeZone.Undisturbed` is when no transition comes between.
* `updateDate_exact_iff`: exactly then `updateDate` is the instant that many seconds later.
-/

namespace TernScheduler

namespace TimeZone

/-- The instant is the last one that shows the latest local time before the given one. -/
structure LastBefore (zone : TimeZone) (localTime before : Int) : Prop where
  earlier : zone.localTime before < localTime
  latest : ∀ t, zone.localTime t < localTime → zone.localTime t ≤ zone.localTime before
  last : ∀ t, zone.localTime t = zone.localTime before → t ≤ before

/-- How the language reads a local time: as the earliest instant that shows it; and where a
transition skips it, with the offset before that transition. -/
structure ReadsLocalTime (zone : TimeZone) : Prop where
  shown : ∀ t, IsLeast {s | zone.localTime s = zone.localTime t} (zone.toInstant (zone.localTime t))
  skipped : ∀ localTime, (∀ t, zone.localTime t ≠ localTime) →
    ∃ before, zone.LastBefore localTime before ∧
      zone.offsetOfLocal localTime = zone.offsetAt before

/-- No transition disturbs the sum: the offset is the same that many seconds later, and no
earlier instant shows the local time that is shown then; or the local time so many seconds
later is skipped, and the offset before the transition is the one there was. -/
def Undisturbed (zone : TimeZone) (date increaseSeconds : Int) : Prop :=
  (zone.offsetAt (date + increaseSeconds * 1000) = zone.offsetAt date ∧
      ∀ t, zone.localTime t = zone.localTime date + increaseSeconds * 1000 →
        date + increaseSeconds * 1000 ≤ t) ∨
    (∀ t, zone.localTime t ≠ zone.localTime date + increaseSeconds * 1000) ∧
      ∃ before, zone.LastBefore (zone.localTime date + increaseSeconds * 1000) before ∧
        zone.offsetAt before = zone.offsetAt date

variable {zone : TimeZone}

theorem LastBefore.unique {localTime before other : Int} (h : zone.LastBefore localTime before)
    (hOther : zone.LastBefore localTime other) : before = other := by
  have hSame : zone.localTime before = zone.localTime other :=
    Int.le_antisymm (hOther.latest before h.earlier) (h.latest other hOther.earlier)
  exact Int.le_antisymm (hOther.last before hSame) (h.last other hSame.symm)

/-- A local time is read as the instant it was added up for exactly where nothing disturbs
the sum. -/
theorem toInstant_eq_iff (hZone : zone.ReadsLocalTime) (date increaseSeconds : Int) :
    zone.toInstant (zone.localTime date + increaseSeconds * 1000) =
        date + increaseSeconds * 1000 ↔ zone.Undisturbed date increaseSeconds := by
  have hShows : zone.localTime (date + increaseSeconds * 1000) =
      zone.localTime date + increaseSeconds * 1000 ↔
        zone.offsetAt (date + increaseSeconds * 1000) = zone.offsetAt date := by
    unfold localTime
    omega
  -- a local time that is shown is read as its first instant, a skipped one by the offset before
  by_cases hShown : ∃ t, zone.localTime t = zone.localTime date + increaseSeconds * 1000
  · obtain ⟨t, hT⟩ := hShown
    have hLeast := hZone.shown t
    rw [hT] at hLeast
    constructor
    · intro hExact
      rw [hExact] at hLeast
      exact Or.inl ⟨hShows.mp hLeast.1, fun s hs => hLeast.2 hs⟩
    · rintro (⟨hOffset, hEarliest⟩ | ⟨hSkipped, -⟩)
      · exact hLeast.unique ⟨hShows.mpr hOffset, hEarliest⟩
      · exact absurd hT (hSkipped t)
  · have hSkipped : ∀ t, zone.localTime t ≠ zone.localTime date + increaseSeconds * 1000 :=
      fun t hT => hShown ⟨t, hT⟩
    obtain ⟨before, hBefore, hOffset⟩ := hZone.skipped _ hSkipped
    have hExact : zone.toInstant (zone.localTime date + increaseSeconds * 1000) =
        date + increaseSeconds * 1000 ↔ zone.offsetAt before = zone.offsetAt date := by
      unfold toInstant
      rw [hOffset]
      unfold localTime Date
      omega
    rw [hExact]
    constructor
    · exact fun hSame => Or.inr ⟨hSkipped, before, hBefore, hSame⟩
    · rintro (⟨hSame, -⟩ | ⟨-, other, hOther, hSame⟩)
      · exact absurd (hShows.mpr hSame) (hSkipped _)
      · rw [hBefore.unique hOther]
        exact hSame

end TimeZone

/-- **`updateDate` adds seconds** exactly where no transition disturbs the sum, and the host
can represent it. -/
theorem updateDate_exact_iff {zone : TimeZone} (hZone : zone.ReadsLocalTime) {date : Int}
    (hDate : InRange date) (increaseSeconds : Int) :
    JsDate.updateDate zone (some date) increaseSeconds =
        some (date + increaseSeconds * 1000) ↔
      InRange (date + increaseSeconds * 1000) ∧ zone.Undisturbed date increaseSeconds := by
  rw [updateDate_some hDate, timeClip_eq_some, ← zone.toInstant_eq_iff hZone, updateDate_eq]
  constructor
  · rintro ⟨hRange, hExact⟩
    exact ⟨hExact ▸ hRange, hExact⟩
  · rintro ⟨hRange, hExact⟩
    refine ⟨?_, hExact⟩
    unfold TimeZone.toInstant at hExact
    rwa [hExact]

/-! ## A clock that is set back -/

/-- At the epoch the clock is set back by an hour, from one hour ahead of UTC to UTC. -/
def setBack : TimeZone where
  offsetAt date := if date < 0 then 3600000 else 0
  offsetOfLocal localTime := if localTime < 3600000 then 3600000 else 0
  toString date := ToString.toString date

theorem setBack_localTime (t : Int) :
    (t < 0 ∧ setBack.localTime t = t + 3600000) ∨ (0 ≤ t ∧ setBack.localTime t = t) := by
  by_cases hBefore : t < 0
  · exact Or.inl ⟨hBefore, congrArg (t + ·) (if_pos hBefore)⟩
  · refine Or.inr ⟨Int.not_lt.mp hBefore, ?_⟩
    rw [show setBack.localTime t = t + 0 from congrArg (t + ·) (if_neg hBefore), Int.add_zero]

theorem setBack_toInstant (time : Int) :
    (time < 3600000 ∧ setBack.toInstant time = time - 3600000) ∨
      (3600000 ≤ time ∧ setBack.toInstant time = time) := by
  by_cases hTwice : time < 3600000
  · exact Or.inl ⟨hTwice, congrArg (time - ·) (if_pos hTwice)⟩
  · refine Or.inr ⟨Int.not_lt.mp hTwice, ?_⟩
    rw [show setBack.toInstant time = time - 0 from congrArg (time - ·) (if_neg hTwice),
      Int.sub_zero]

theorem setBack_shows (time : Int) : setBack.localTime (setBack.toInstant time) = time := by
  have hLocal := setBack_localTime (setBack.toInstant time)
  have hInstant := setBack_toInstant time
  unfold Date at *
  omega

/-- It reads the hour that is shown twice as the language does. -/
theorem setBack_readsLocalTime : setBack.ReadsLocalTime := by
  constructor
  · intro t
    refine ⟨setBack_shows _, fun s hs => ?_⟩
    have hSame : setBack.localTime s = setBack.localTime t := hs
    have hLocal := setBack_localTime s
    have hInstant := setBack_toInstant (setBack.localTime t)
    unfold Date at *
    omega
  · intro time hSkipped
    exact absurd (setBack_shows time) (hSkipped _)

/-- Two hours before, an hour is added. -/
theorem updateDate_exact_before :
    JsDate.updateDate setBack (some (-7200000)) 3600 = some (-3600000) := by
  refine (updateDate_exact_iff setBack_readsLocalTime (by decide) 3600).mpr ⟨by decide, ?_⟩
  refine Or.inl ⟨by decide, fun t hT => ?_⟩
  have hNow : setBack.localTime (-7200000) = -3600000 := rfl
  have hLocal := setBack_localTime t
  unfold Date at *
  omega

/-- At the transition five minutes are added: the sum is read as the first of the two instants
that show it, fifty-five minutes before, so a lease taken then has expired. -/
theorem updateDate_set_back :
    ¬ ∀ zone : TimeZone, zone.ReadsLocalTime → ∀ date, InRange date → ∀ increaseSeconds : Int,
      InRange (date + increaseSeconds * 1000) →
        JsDate.updateDate zone (some date) increaseSeconds =
          some (date + increaseSeconds * 1000) := by
  intro hAll
  have hSum := hAll setBack setBack_readsLocalTime 0 (by decide) 300 (by decide)
  exact absurd hSum (by decide)

end TernScheduler
