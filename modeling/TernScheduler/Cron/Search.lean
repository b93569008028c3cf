import TernScheduler.Cron.Align

/-!
# The search for a day

The second half of `nextCronTime` on a server in UTC, for lists in order and in range.
The date keeps its time of day, so the two loops walk over days.

* `ScheduleCronModel.Listed` days lie in a listed month and are listed days of it.
* `Reached` are the days the loops can come to from a first day: those before the horizon
  that the setters reach without leaving the range of dates.
* `searchMonths_cases`: the loops come to the first listed day they reach, and end there
  if its day of the week is listed; if it is not, they do not end.
-/

namespace TernScheduler

open Calendar Periodic

/-- What the search for a day needs of the lists.  There may be no day of the month, or of the
week. -/
structure ScheduleCronModel.DayLists (model : ScheduleCronModel) : Prop where
  months : Values 12 1 model.months
  daysOfMonth : Ordered 31 1 model.daysOfMonth
  daysOfWeek : Ordered 7 0 model.daysOfWeek

theorem ScheduleCronModel.WellFormed.dayLists {model : ScheduleCronModel}
    (hModel : model.WellFormed) : model.DayLists :=
  ⟨hModel.months, hModel.daysOfMonth.ordered, hModel.daysOfWeek.ordered⟩

/-- The first listed month of a year, counted from 1. -/
def ScheduleCronModel.firstMonth (model : ScheduleCronModel) : Int :=
  model.months.headD 1

/-- The month and the day of the month are listed. -/
def ScheduleCronModel.Listed (model : ScheduleCronModel) (day : Int) : Prop :=
  1 + monthOf day % 12 ∈ model.months ∧ dayOfMonth day ∈ model.daysOfMonth

/-- The first listed month from a month on. -/
def ScheduleCronModel.nextMonth (model : ScheduleCronModel) (month : Int) : Int :=
  nextListed 12 1 model.months month

section

variable {model : ScheduleCronModel}

theorem ScheduleCronModel.DayLists.head_months (hModel : model.DayLists) :
    model.months.head? = some model.firstMonth := by
  obtain ⟨first, hHead⟩ := hModel.months.exists_head
  rw [ScheduleCronModel.firstMonth, List.headD_eq_head?_getD, hHead, Option.getD_some]

theorem ScheduleCronModel.DayLists.firstMonth_bounds (hModel : model.DayLists) :
    1 ≤ model.firstMonth ∧ model.firstMonth < 13 :=
  hModel.months.bounds _ (List.mem_of_head? hModel.head_months)

theorem ScheduleCronModel.DayLists.le_nextMonth (hModel : model.DayLists) (month : Int) :
    month ≤ model.nextMonth month := le_nextListed hModel.months month

/-- The next listed month is one of the same year, or, when none is left and so
December is not listed, the first one of the next year. -/
theorem ScheduleCronModel.DayLists.nextMonth_cases (hModel : model.DayLists)
    (month : Int) :
    (∃ next, model.months.find? (month % 12 + 1 ≤ ·) = some next ∧
      model.nextMonth month = 12 * (month / 12) + (next - 1) ∧
        model.nextMonth month / 12 = month / 12) ∨
    (model.months.find? (month % 12 + 1 ≤ ·) = none ∧ 12 ∉ model.months ∧
      model.nextMonth month = 12 * (month / 12 + 1) + (model.firstMonth - 1) ∧
        model.nextMonth month / 12 = month / 12 + 1) := by
  unfold ScheduleCronModel.nextMonth nextListed
  rw [Int.add_comm 1 (month % 12)]
  cases hFind : model.months.find? (month % 12 + 1 ≤ ·) with
  | some next =>
      have hNext := hModel.months.bounds next (List.mem_of_find?_eq_some hFind)
      refine .inl ⟨next, rfl, ?_, ?_⟩ <;> simp only <;> omega
  | none =>
      have hFirst := hModel.firstMonth_bounds
      -- no month of the list is left in this year, so it is the first of the next
      have hAll : ∀ v ∈ model.months, v < month % 12 + 1 := by
        simpa using List.find?_eq_none.mp hFind
      refine .inr ⟨rfl, ?_, ?_, ?_⟩
      · intro hDecember
        have := hAll 12 hDecember
        omega
      · unfold ScheduleCronModel.firstMonth
        simp only
        omega
      · unfold ScheduleCronModel.firstMonth at hFirst
        simp only
        omega

theorem ScheduleCronModel.DayLists.nextMonth_le (hModel : model.DayLists)
    {start day : Int} (hAfter : start ≤ day) (hListed : model.Listed day) :
    model.nextMonth (monthOf start) ≤ monthOf day :=
  (nextListed_isLeast hModel.months _).2 ⟨monthOf_mono hAfter, hListed.1⟩

/-! ## One month -/

variable {day : Int} {time : TimeOfDay}

theorem inRange_of_between {first last : Int} (hFirst : InRange (dateAt first time))
    (hLast : InRange (dateAt last time)) (hLow : first ≤ day) (hHigh : day ≤ last) :
    InRange (dateAt day time) := by
  unfold InRange dateAt at *
  omega

theorem setDate_first :
    JsDate.setDate .utc (some (dateAt day time)) (some 1) =
      timeClip (dateAt (firstDay (monthOf day)) time) := by
  rw [JsDate.setDate_dateAt]
  congr 2
  unfold dayOfMonth
  omega

/-- A date in a listed month stays. -/
theorem alignMonth_of_listed (hModel : model.DayLists)
    (hListed : model.nextMonth (monthOf day) = monthOf day) :
    alignMonth .utc model (some (dateAt day time)) = some (dateAt day time) := by
  have hMem := (nextListed_isLeast hModel.months (monthOf day)).1.2
  rw [show nextListed 12 1 model.months (monthOf day) = monthOf day from hListed,
    Int.add_comm] at hMem
  unfold alignMonth
  rw [JsDate.get_some, getMonth_dateAt, JsNumber.add_some, findNext_some,
    find_eq_self hModel.months.sorted hMem]
  simp

/-- The setters that take a date from its month to a later one do not leave the range of
dates: it is set to the first of its month, and where the year changes to the first
listed month of its own year. -/
def ScheduleCronModel.CanMove (model : ScheduleCronModel) (time : TimeOfDay)
    (month next : Int) : Prop :=
  InRange (dateAt (firstDay month) time) ∧
    (month / 12 < next / 12 →
      InRange (dateAt (firstDay (12 * (month / 12) + (model.firstMonth - 1))) time))

/-- A date in a month that is not listed goes to the first day of the next listed month,
if the setters can take it there. -/
theorem alignMonth_of_canMove (hModel : model.DayLists)
    (hNot : model.nextMonth (monthOf day) ≠ monthOf day)
    (hMove : model.CanMove time (monthOf day) (model.nextMonth (monthOf day))) :
    alignMonth .utc model (some (dateAt day time)) =
      timeClip (dateAt (firstDay (model.nextMonth (monthOf day))) time) := by
  unfold alignMonth
  rw [JsDate.get_some, getMonth_dateAt, JsNumber.add_some, findNext_some, setDate_first,
    timeClip_of_inRange hMove.1]
  rcases hModel.nextMonth_cases (monthOf day) with ⟨next, hFind, hNext, -⟩ |
    ⟨hFind, -, hNext, hYear⟩
  · have hChanged : ¬ next - 1 = monthOf day % 12 := by omega
    rw [hFind, Option.elim_some, JsNumber.eq_some, if_neg (by simpa using hChanged),
      JsDate.setMonth_dateAt, hNext]
  · have hFirst := hModel.firstMonth_bounds
    rw [hFind, Option.elim_none, hModel.head_months]
    simp only [JsNumber.add_some, JsDate.setMonth_dateAt]
    rw [← Int.sub_eq_add_neg, timeClip_of_inRange (hMove.2 (by omega)), JsDate.get_some,
      getFullYear_dateAt, monthOf_firstDay, JsNumber.add_some, JsDate.setFullYear_dateAt, hNext]
    congr 3
    omega

/-- If they cannot, the date is lost. -/
theorem alignMonth_of_not_canMove (hModel : model.DayLists)
    (hNot : model.nextMonth (monthOf day) ≠ monthOf day)
    (hMove : ¬ model.CanMove time (monthOf day) (model.nextMonth (monthOf day))) :
    alignMonth .utc model (some (dateAt day time)) = none := by
  unfold alignMonth
  rw [JsDate.get_some, getMonth_dateAt, JsNumber.add_some, findNext_some, setDate_first]
  by_cases hFirstDay : InRange (dateAt (firstDay (monthOf day)) time)
  · rw [timeClip_of_inRange hFirstDay]
    rcases hModel.nextMonth_cases (monthOf day) with ⟨next, -, -, hYear⟩ |
      ⟨hFind, -, -, -⟩
    · exact absurd ⟨hFirstDay, fun hLater => absurd hYear hLater.ne'⟩ hMove
    · have hOut : ¬ InRange (dateAt (firstDay (12 * (monthOf day / 12) +
          (model.firstMonth - 1))) time) := fun hIn => hMove ⟨hFirstDay, fun _ => hIn⟩
      rw [hFind, Option.elim_none, hModel.head_months]
      simp only [JsNumber.add_some, JsDate.setMonth_dateAt]
      rw [← Int.sub_eq_add_neg, timeClip_of_not_inRange hOut]
      rfl
  · rw [timeClip_of_not_inRange hFirstDay]
    rcases hModel.nextMonth_cases (monthOf day) with ⟨next, hFind, hNext, -⟩ |
      ⟨hFind, -, -, -⟩
    · have hChanged : ¬ next - 1 = monthOf day % 12 := by omega
      rw [hFind, Option.elim_some, JsNumber.eq_some, if_neg (by simpa using hChanged)]
      rfl
    · rw [hFind, Option.elim_none]
      simp

/-! ## One day -/

/-- A listed day of the month, not before the date, that the host can represent. -/
def ScheduleCronModel.Open (model : ScheduleCronModel) (time : TimeOfDay)
    (start day : Int) : Prop :=
  start ≤ day ∧ monthOf day = monthOf start ∧ dayOfMonth day ∈ model.daysOfMonth ∧
    InRange (dateAt day time)

theorem findNext_daysOfWeek (hModel : model.DayLists) (weekDay : Int) :
    findNext (some weekDay) model.daysOfWeek
      (fun nextWeekDay => JsNumber.eq (some nextWeekDay) (some weekDay)) false =
        decide (weekDay ∈ model.daysOfWeek) := by
  rw [findNext_some]
  by_cases hMem : weekDay ∈ model.daysOfWeek
  · rw [find_eq_self hModel.daysOfWeek.sorted hMem]
    simp [hMem]
  · cases hFind : model.daysOfWeek.find? (weekDay ≤ ·) with
    | none => simp [hMem]
    | some next =>
        have hNe : next ≠ weekDay := by
          rintro rfl
          exact hMem (List.mem_of_find?_eq_some hFind)
        simp [hMem, hNe]

theorem dayOfMonth_of_same_month {d : Int} (hMonth : monthOf d = monthOf day) :
    dayOfMonth d = dayOfMonth day + (d - day) := by
  unfold dayOfMonth
  rw [hMonth]
  omega

/-- The month of a date set to a day of the month that is not past the end of every
month. -/
theorem monthOf_setDate {date : Int} (hLow : dayOfMonth day ≤ date) (hHigh : date ≤ 31) :
    monthOf (day + (date - dayOfMonth day)) = monthOf day ∨
      monthOf (day + (date - dayOfMonth day)) = monthOf day + 1 := by
  have hStart := (monthOf_spec day).1
  have hNext := firstDay_succ (monthOf day)
  have hAfter := firstDay_succ (monthOf day + 1)
  have hSet : day + (date - dayOfMonth day) = firstDay (monthOf day) + date - 1 := by
    unfold dayOfMonth
    omega
  have hPos := dayOfMonth_pos day
  rw [hSet]
  by_cases hEnd : firstDay (monthOf day) + date - 1 < firstDay (monthOf day + 1)
  · exact .inl (monthOf_eq_iff.mpr ⟨by omega, hEnd⟩)
  · exact .inr (monthOf_eq_iff.mpr ⟨by omega, by omega⟩)

/-- The day search goes to the first open day, if there is one, and looks at its day of
the week. -/
theorem alignDay_utc (hModel : model.DayLists) (hRange : InRange (dateAt day time)) :
    (∃ next, IsLeast {d | model.Open time day d} next ∧
      alignDay .utc model (some (dateAt day time)) =
        (if dayOfWeek next ∈ model.daysOfWeek then .matched else .same,
          some (dateAt next time))) ∨
    ((∀ d, ¬ model.Open time day d) ∧
      alignDay .utc model (some (dateAt day time)) = (.inc, some (dateAt day time))) := by
  have hClone : JsDate.cloneDateTime (some (dateAt day time)) = some (dateAt day time) :=
    timeClip_of_inRange hRange
  unfold alignDay
  rw [JsDate.get_some, JsDate.get_some, getDate_dateAt, getMonth_dateAt, findNext_some, hClone]
  cases hFind : model.daysOfMonth.find? (dayOfMonth day ≤ ·) with
  | none =>
      refine .inr ⟨?_, rfl⟩
      rintro d ⟨hAfter, hMonth, hMem, -⟩
      have hBefore := List.find?_eq_none.mp hFind _ hMem
      have hDay := dayOfMonth_of_same_month hMonth
      simp only [decide_eq_true_eq] at hBefore
      omega
  | some date =>
      obtain ⟨⟨hMem, hLow⟩, hLeast⟩ := find_isLeast hModel.daysOfMonth.sorted hFind
      have hDate := hModel.daysOfMonth.bounds date hMem
      -- no open day lies before the trial date
      have hOpen : ∀ d, model.Open time day d → day + (date - dayOfMonth day) ≤ d := by
        rintro d ⟨hAfter, hMonth, hMemDay, -⟩
        have hDay := dayOfMonth_of_same_month hMonth
        have := hLeast ⟨hMemDay, by omega⟩
        omega
      simp only [Option.elim_some, JsDate.setDate_dateAt]
      by_cases hNext : InRange (dateAt (day + (date - dayOfMonth day)) time) ∧
          monthOf (day + (date - dayOfMonth day)) = monthOf day
      · obtain ⟨hIn, hMonth⟩ := hNext
        refine .inl ⟨day + (date - dayOfMonth day), ⟨⟨by omega, hMonth, ?_, hIn⟩, hOpen⟩, ?_⟩
        · have hDay := dayOfMonth_of_same_month hMonth
          rw [hDay]
          convert hMem using 1
          omega
        · rw [timeClip_of_inRange hIn, JsDate.get_some, getMonth_dateAt, hMonth, JsDate.get_some,
            getDay_dateAt, findNext_daysOfWeek hModel]
          simp
      · -- the trial date is Invalid, or in the next month
        refine .inr ⟨?_, ?_⟩
        · intro d hD
          have hLe := hOpen d hD
          obtain ⟨-, hMonth, -, hIn⟩ := hD
          have hFirst := monthOf_mono (show day ≤ day + (date - dayOfMonth day) by omega)
          have hLast := monthOf_mono hLe
          exact hNext ⟨inRange_of_between hRange hIn (by omega) hLe, by omega⟩
        · by_cases hIn : InRange (dateAt (day + (date - dayOfMonth day)) time)
          · have hMonth : monthOf (day + (date - dayOfMonth day)) % 12 ≠ monthOf day % 12 := by
              have hNot : monthOf (day + (date - dayOfMonth day)) ≠ monthOf day :=
                fun hEq => hNext ⟨hIn, hEq⟩
              have := monthOf_setDate hLow (by omega)
              omega
            rw [timeClip_of_inRange hIn, JsDate.get_some, getMonth_dateAt, JsNumber.eq_some,
              decide_eq_false hMonth]
            rfl
          · rw [timeClip_of_not_inRange hIn]
            rfl

/-- A day that the search has come to is the first open day from itself on. -/
theorem isLeast_open_self {start : Int} (hOpen : model.Open time start day) :
    IsLeast {d | model.Open time day d} day :=
  ⟨⟨le_rfl, rfl, hOpen.2.2.1, hOpen.2.2.2⟩, fun _ hD => hD.1⟩

/-- A day that is answered with `'same'` and stays is asked again without end. -/
theorem searchDays_of_same {zone : TimeZone} {ret : JsDate}
    (hSame : alignDay zone model ret = (.same, ret)) (fuel : Nat) :
    searchDays zone model fuel ret = none := by
  induction fuel with
  | zero => rfl
  | succ fuel ih =>
      rw [searchDays, hSame]
      exact ih

/-- A listed day on the wrong day of the week is found again and again. -/
theorem searchDays_eq_none (hModel : model.DayLists)
    (hLeast : IsLeast {d | model.Open time day d} day)
    (hWeekDay : dayOfWeek day ∉ model.daysOfWeek) (fuel : Nat) :
    searchDays .utc model fuel (some (dateAt day time)) = none := by
  have hSame : alignDay .utc model (some (dateAt day time)) =
      (.same, some (dateAt day time)) := by
    rcases alignDay_utc hModel hLeast.1.2.2.2 with ⟨next, hNext, hAlign⟩ | ⟨hNone, -⟩
    · rw [hNext.unique hLeast, if_neg hWeekDay] at hAlign
      exact hAlign
    · exact absurd hLeast.1 (hNone day)
  exact searchDays_of_same hSame fuel

/-! ## The loop over the months -/

/-- The days the loops can come to from the day `start`.  They leave off at the horizon,
but the first listed month of the year of the horizon is searched where December is not
listed, as the year is tested before the date moves on to that month. -/
structure ScheduleCronModel.Reached (model : ScheduleCronModel) (farthestYear : Int)
    (time : TimeOfDay) (start day : Int) : Prop where
  after : start ≤ day
  horizon : monthOf day / 12 < farthestYear ∨
    (monthOf day = 12 * farthestYear + (model.firstMonth - 1) ∧ 12 ∉ model.months)
  representable : InRange (dateAt day time)
  leaves : monthOf start < monthOf day →
    InRange (dateAt (firstDay (monthOf start)) time)
  wraps : monthOf start / 12 < monthOf day / 12 → 12 ∉ model.months →
    InRange (dateAt (firstDay (12 * (monthOf start / 12) + (model.firstMonth - 1))) time)

theorem firstDay_le {month : Int} (hMonth : month ≤ monthOf day) : firstDay month ≤ day :=
  (firstDay_le_firstDay.mpr hMonth).trans (monthOf_spec day).1

theorem le_firstDay {month : Int} (hMonth : monthOf day < month) : day ≤ firstDay month := by
  have hNext := firstDay_le_firstDay.mpr (Int.add_one_le_iff.mpr hMonth)
  have := (monthOf_spec day).2
  omega

section

variable {farthestYear start : Int}

/-- The date comes to a day of the next listed month, at or before every day of the
month that is not before the start, or no listed day can be reached. -/
theorem alignMonth_cases (hModel : model.DayLists) (hRange : InRange (dateAt start time)) :
    (∃ entry, monthOf entry = model.nextMonth (monthOf start) ∧
      InRange (dateAt entry time) ∧ start ≤ entry ∧
      alignMonth .utc model (some (dateAt start time)) = some (dateAt entry time) ∧
      (∀ d, start ≤ d → monthOf entry ≤ monthOf d → entry ≤ d) ∧
      (entry = start ∨ model.CanMove time (monthOf start) (monthOf entry) ∧
        entry = firstDay (monthOf entry))) ∨
    (alignMonth .utc model (some (dateAt start time)) = none ∧
      ∀ d, model.Reached farthestYear time start d → ¬ model.Listed d) := by
  have hLe := hModel.le_nextMonth (monthOf start)
  by_cases hSame : model.nextMonth (monthOf start) = monthOf start
  · exact .inl ⟨start, hSame.symm, hRange, le_rfl, alignMonth_of_listed hModel hSame,
      fun _ hAfter _ => hAfter, .inl rfl⟩
  · have hLater : monthOf start < model.nextMonth (monthOf start) := by omega
    by_cases hMove : model.CanMove time (monthOf start) (model.nextMonth (monthOf start))
    · have hAlign := alignMonth_of_canMove hModel hSame hMove
      by_cases hEntry : InRange (dateAt (firstDay (model.nextMonth (monthOf start))) time)
      · refine .inl ⟨firstDay (model.nextMonth (monthOf start)), monthOf_firstDay _, hEntry,
          le_firstDay hLater, ?_, ?_, ?_⟩
        · rw [hAlign, timeClip_of_inRange hEntry]
        · intro d _ hMonth
          rw [monthOf_firstDay] at hMonth
          exact firstDay_le hMonth
        · rw [monthOf_firstDay]
          exact .inr ⟨hMove, rfl⟩
      · refine .inr ⟨by rw [hAlign, timeClip_of_not_inRange hEntry], ?_⟩
        intro d hReached hListed
        exact hEntry (inRange_of_between hRange hReached.representable (le_firstDay hLater)
          (firstDay_le (hModel.nextMonth_le hReached.after hListed)))
    · refine .inr ⟨alignMonth_of_not_canMove hModel hSame hMove, ?_⟩
      intro d hReached hListed
      have hMonth := hModel.nextMonth_le hReached.after hListed
      refine hMove ⟨hReached.leaves (by omega), fun hYear => hReached.wraps (by omega) ?_⟩
      -- a year is turned only when December is not listed
      rcases hModel.nextMonth_cases (monthOf start) with ⟨_, -, -, hEq⟩ | ⟨-, hDecember, -⟩
      · omega
      · exact hDecember

theorem incrementMonth_utc :
    incrementMonth .utc (some (dateAt day time)) =
      (timeClip (dateAt (firstDay (monthOf day)) time)).bind fun _ =>
        timeClip (dateAt (firstDay (monthOf day + 1)) time) := by
  unfold incrementMonth
  rw [setDate_first]
  by_cases hFirst : InRange (dateAt (firstDay (monthOf day)) time)
  · simp only [timeClip_of_inRange hFirst, JsDate.get_some, getMonth_dateAt, monthOf_firstDay,
      JsNumber.add_some, JsDate.setMonth_dateAt, Option.bind_some]
    congr 3
    omega
  · rw [timeClip_of_not_inRange hFirst]
    rfl

/-- Where the date stands after its move to a listed month, as `alignMonth_cases` has
it. -/
structure MonthEntry (model : ScheduleCronModel) (time : TimeOfDay) (start entry : Int) : Prop where
  month : monthOf entry = model.nextMonth (monthOf start)
  inRange : InRange (dateAt entry time)
  after : start ≤ entry
  least : ∀ d, start ≤ d → monthOf entry ≤ monthOf d → entry ≤ d
  moved : entry = start ∨ model.CanMove time (monthOf start) (monthOf entry) ∧
    entry = firstDay (monthOf entry)

theorem listed_of_open (hModel : model.DayLists) {entry : Int}
    (hEntry : MonthEntry model time start entry) (hOpen : model.Open time entry day) :
    model.Listed day := by
  refine ⟨?_, hOpen.2.2.1⟩
  rw [hOpen.2.1, hEntry.month]
  exact (nextListed_isLeast hModel.months _).1.2

/-- An open day of the month the date is moved to is reached. -/
theorem reached_of_open (hModel : model.DayLists) {entry : Int}
    (hYear : monthOf start / 12 < farthestYear) (hEntry : MonthEntry model time start entry)
    (hOpen : model.Open time entry day) : model.Reached farthestYear time start day := by
  obtain ⟨hAfter, hMonth, -, hIn⟩ := hOpen
  have hNext := hEntry.month
  refine ⟨hEntry.after.trans hAfter, ?_, hIn, ?_, ?_⟩
  · rcases hModel.nextMonth_cases (monthOf start) with ⟨_, -, -, hEq⟩ |
      ⟨-, hDecember, hWrap, hEq⟩
    · exact .inl (by omega)
    · by_cases hLast : monthOf start / 12 + 1 < farthestYear
      · exact .inl (by omega)
      · exact .inr ⟨by rw [hMonth, hNext, hWrap]; congr 2; omega, hDecember⟩
  · intro hLater
    rcases hEntry.moved with rfl | ⟨hMove, -⟩
    · omega
    · exact hMove.1
  · intro hLater _
    rcases hEntry.moved with rfl | ⟨hMove, -⟩
    · omega
    · exact hMove.2 (by omega)

/-- Where the month has no open day, the listed days that are reached lie in later
months. -/
theorem nextMonth_lt_of_reached (hModel : model.DayLists) {entry : Int}
    (hEntry : MonthEntry model time start entry) (hNone : ∀ d, ¬ model.Open time entry d)
    (hReached : model.Reached farthestYear time start day) (hListed : model.Listed day) :
    monthOf entry < monthOf day := by
  have hLe := hModel.nextMonth_le hReached.after hListed
  rw [← hEntry.month] at hLe
  rcases hLe.eq_or_lt with hEq | hLt
  · exact absurd ⟨hEntry.least day hReached.after hLe, hEq.symm, hListed.2,
      hReached.representable⟩ (hNone day)
  · exact hLt

/-- The loop goes on from the first of the following month as from a new start. -/
theorem reached_iff_of_increment (hModel : model.DayLists) {entry : Int}
    (hRange : InRange (dateAt start time)) (hEntry : MonthEntry model time start entry)
    (hNone : ∀ d, ¬ model.Open time entry d)
    (hFirst : InRange (dateAt (firstDay (monthOf entry)) time))
    (hNext : InRange (dateAt (firstDay (monthOf entry + 1)) time))
    (hListed : model.Listed day) :
    model.Reached farthestYear time start day ↔
      model.Reached farthestYear time (firstDay (monthOf entry + 1)) day := by
  have hMonths := monthOf_mono hEntry.after
  have hStart : start ≤ firstDay (monthOf entry + 1) := le_firstDay (by omega)
  constructor
  · intro hReached
    have hLater := nextMonth_lt_of_reached hModel hEntry hNone hReached hListed
    refine ⟨firstDay_le (by omega), hReached.horizon, hReached.representable, ?_, ?_⟩
    · intro _
      rw [monthOf_firstDay]
      exact hNext
    · rw [monthOf_firstDay]
      intro hYear hDecember
      by_cases hSame : (monthOf entry + 1) / 12 = monthOf start / 12
      · rw [hSame]
        exact hReached.wraps (by omega) hDecember
      · -- a month of a later year lies between the start and the day
        have := hModel.firstMonth_bounds
        exact inRange_of_between hRange hReached.representable (le_firstDay (by omega))
          (firstDay_le (by omega))
  · intro hReached
    have hLater := monthOf_mono hReached.after
    rw [monthOf_firstDay] at hLater
    refine ⟨hStart.trans hReached.after, hReached.horizon, hReached.representable, ?_, ?_⟩
    · intro _
      rcases hEntry.moved with rfl | ⟨hMove, -⟩
      · exact hFirst
      · exact hMove.1
    · intro hYear hDecember
      by_cases hSame : monthOf entry / 12 = monthOf start / 12
      · have hWraps := hReached.wraps
        rw [monthOf_firstDay] at hWraps
        -- December is not listed, so the following month is of the same year
        have hNotLast : 1 + monthOf entry % 12 ≠ 12 := by
          rw [hEntry.month]
          intro hLast
          exact hDecember (hLast ▸ (nextListed_isLeast hModel.months (monthOf start)).1.2)
        have hYearNext : (monthOf entry + 1) / 12 = monthOf start / 12 := by omega
        rw [hYearNext] at hWraps
        exact hWraps hYear hDecember
      · rcases hEntry.moved with rfl | ⟨hMove, -⟩
        · exact absurd rfl hSame
        · exact hMove.2 (by omega)

/-- Past the horizon no listed day is reached. -/
theorem not_listed_of_past (hModel : model.DayLists) {entry : Int}
    (hYear : monthOf start / 12 < farthestYear) (hEntry : MonthEntry model time start entry)
    (hPast : farthestYear ≤ (monthOf entry + 1) / 12)
    (hReached : model.Reached farthestYear time (firstDay (monthOf entry + 1)) day) :
    ¬ model.Listed day := by
  intro hListed
  have hLater := monthOf_mono hReached.after
  rw [monthOf_firstDay] at hLater
  rcases hReached.horizon with hBefore | ⟨hLast, hDecember⟩
  · omega
  · rcases hModel.nextMonth_cases (monthOf start) with ⟨_, -, hEq, hSame⟩ | ⟨-, -, hEq, hSame⟩
    · have hMem := (nextListed_isLeast hModel.months (monthOf start)).1.2
      have hNext := hEntry.month
      have : 1 + monthOf entry % 12 = 12 := by omega
      rw [hEntry.month] at this
      exact hDecember (this ▸ hMem)
    · have hNext := hEntry.month
      have hNotLast : model.firstMonth ≠ 12 := by
        intro hLast
        exact hDecember (hLast ▸ List.mem_of_head? hModel.head_months)
      have := hModel.firstMonth_bounds
      have hHorizon : monthOf start / 12 + 1 = farthestYear := by omega
      rw [hHorizon] at hEq
      omega

/-- One round of the loop over the months.  It comes to the first listed day that can be
reached and looks at its day of the week; or it goes on from the first of a later month,
from where the same days can be reached; or no listed day can be reached, and the date
is lost or past the horizon. -/
inductive Round (model : ScheduleCronModel) (farthestYear : Int) (time : TimeOfDay)
    (start : Int) : DaySignal × JsDate → Prop
  | found (next : Int)
      (least : IsLeast {d | model.Reached farthestYear time start d ∧ model.Listed d} next)
      (isOpen : IsLeast {d | model.Open time next d} next) :
      Round model farthestYear time start
        (if dayOfWeek next ∈ model.daysOfWeek then .matched else .same,
          some (dateAt next time))
  | onward (ret : JsDate) (next : Int)
      (increment : incrementMonth .utc ret = some (dateAt next time))
      (inRange : InRange (dateAt next time)) (later : monthOf start < monthOf next)
      (same : ∀ d, model.Listed d → (model.Reached farthestYear time start d ↔
        model.Reached farthestYear time next d))
      (past : farthestYear ≤ monthOf next / 12 →
        ∀ d, model.Reached farthestYear time start d → ¬ model.Listed d) :
      Round model farthestYear time start (.inc, ret)
  | lost (ret : JsDate) (increment : incrementMonth .utc ret = none)
      (none : ∀ d, model.Reached farthestYear time start d → ¬ model.Listed d) :
      Round model farthestYear time start (.inc, ret)

theorem alignDay_none : alignDay .utc model none = (.inc, none) := by
  unfold alignDay
  rw [JsDate.get_none, findNext_none]

theorem round_alignDay (hModel : model.DayLists) (hRange : InRange (dateAt start time))
    (hYear : monthOf start / 12 < farthestYear) :
    Round model farthestYear time start
      (alignDay .utc model (alignMonth .utc model (some (dateAt start time)))) := by
  rcases alignMonth_cases hModel hRange with
    ⟨entry, hMonth, hIn, hAfter, hAlign, hLeast, hMoved⟩ | ⟨hAlign, hNone⟩
  · have hEntry : MonthEntry model time start entry := ⟨hMonth, hIn, hAfter, hLeast, hMoved⟩
    rw [hAlign]
    rcases alignDay_utc hModel hIn with ⟨next, hNext, hDay⟩ | ⟨hClosed, hDay⟩
    · rw [hDay]
      have hReached := reached_of_open hModel hYear hEntry hNext.1
      refine .found next ⟨⟨hReached, listed_of_open hModel hEntry hNext.1⟩, ?_⟩
        (isLeast_open_self hNext.1)
      rintro d ⟨hReachedD, hListed⟩
      have hLe := hModel.nextMonth_le hReachedD.after hListed
      rw [← hMonth] at hLe
      -- a listed day is in this month or in a later one
      rcases hLe.eq_or_lt with hEq | hLt
      · exact hNext.2 ⟨hLeast d hReachedD.after hLe, hEq.symm, hListed.2,
          hReachedD.representable⟩
      · rw [← hNext.1.2.1] at hLt
        exact (le_firstDay hLt).trans (firstDay_le le_rfl)
    · rw [hDay]
      by_cases hFirst : InRange (dateAt (firstDay (monthOf entry)) time)
      · by_cases hNext : InRange (dateAt (firstDay (monthOf entry + 1)) time)
        · have hSame : ∀ d, model.Listed d → (model.Reached farthestYear time start d ↔
              model.Reached farthestYear time (firstDay (monthOf entry + 1)) d) :=
            fun d hListed => reached_iff_of_increment hModel hRange hEntry hClosed hFirst hNext
              hListed
          refine .onward _ (firstDay (monthOf entry + 1)) ?_ hNext ?_ hSame ?_
          · rw [incrementMonth_utc, timeClip_of_inRange hFirst, Option.bind_some,
              timeClip_of_inRange hNext]
          · have := monthOf_mono hAfter
            rw [monthOf_firstDay]
            omega
          · rw [monthOf_firstDay]
            intro hPast d hReached hListed
            exact not_listed_of_past hModel hYear hEntry hPast
              ((hSame d hListed).mp hReached) hListed
        · refine .lost _ ?_ ?_
          · rw [incrementMonth_utc, timeClip_of_inRange hFirst, Option.bind_some,
              timeClip_of_not_inRange hNext]
          · intro d hReached hListed
            have hLt := nextMonth_lt_of_reached hModel hEntry hClosed hReached hListed
            have := monthOf_mono hAfter
            exact hNext (inRange_of_between hRange hReached.representable
              (le_firstDay (by omega)) (firstDay_le (by omega)))
      · refine .lost _ ?_ ?_
        · rw [incrementMonth_utc, timeClip_of_not_inRange hFirst]
          rfl
        · intro d hReached hListed
          have hLt := nextMonth_lt_of_reached hModel hEntry hClosed hReached hListed
          rcases hMoved with rfl | ⟨-, hEq⟩
          · exact hFirst (hReached.leaves hLt)
          · exact hFirst (hEq ▸ hIn)
  · rw [hAlign, alignDay_none]
    exact .lost _ rfl hNone

/-- How the loop over the months goes from a day on: it ends on the first listed day it
reaches, it stays there for ever, or it ends without one. -/
inductive SearchOutcome (model : ScheduleCronModel) (farthestYear : Int) (time : TimeOfDay)
    (start : Int) : Prop
  | found (next : Int)
      (least : IsLeast {d | model.Reached farthestYear time start d ∧ model.Listed d} next)
      (weekDay : dayOfWeek next ∈ model.daysOfWeek)
      (ends : ∃ steps, ∀ fuel, steps ≤ fuel →
        searchMonths .utc model (some farthestYear) fuel (some (dateAt start time)) =
          some (some (dateAt next time)))
  | hangs (next : Int)
      (least : IsLeast {d | model.Reached farthestYear time start d ∧ model.Listed d} next)
      (weekDay : dayOfWeek next ∉ model.daysOfWeek)
      (stuck : ∀ fuel,
        searchMonths .utc model (some farthestYear) fuel (some (dateAt start time)) = none)
  | expires
      (none : ∀ d, model.Reached farthestYear time start d → ¬ model.Listed d)
      (ends : ∃ steps, ∀ fuel, steps ≤ fuel → ∃ ret,
        searchMonths .utc model (some farthestYear) fuel (some (dateAt start time)) =
          some ret ∧ JsNumber.lt (ret.get TimeZone.utc.getFullYear) (some farthestYear) = false)

/-- The loop over the months, by the number of months left before the horizon. -/
theorem searchMonths_cases (hModel : model.DayLists)
    (hRange : InRange (dateAt start time)) (hYear : monthOf start / 12 < farthestYear) :
    SearchOutcome model farthestYear time start := by
  induction hLeft : (12 * farthestYear - monthOf start).toNat using Nat.strong_induction_on
    generalizing start with
  | _ left ih =>
    have hLoop : JsNumber.lt (JsDate.get (some (dateAt start time)) TimeZone.utc.getFullYear)
        (some farthestYear) = true := by
      simpa using hYear
    have hRound := round_alignDay hModel hRange hYear
    generalize hDay : alignDay .utc model (alignMonth .utc model (some (dateAt start time))) =
      answer at hRound
    cases hRound with
    | found next hLeast hOpen =>
        -- an unlisted weekday answers the same day for ever
        by_cases hWeekDay : dayOfWeek next ∈ model.daysOfWeek
        · rw [if_pos hWeekDay] at hDay
          refine .found next hLeast hWeekDay ⟨2, ?_⟩
          intro fuel hFuel
          obtain ⟨fuel, rfl⟩ := Nat.exists_eq_add_of_le hFuel
          rw [Nat.add_comm, searchMonths_of_lt hLoop, searchDays, hDay]
        · rw [if_neg hWeekDay] at hDay
          refine .hangs next hLeast hWeekDay ?_
          intro fuel
          cases fuel with
          | zero => rfl
          | succ fuel =>
              rw [searchMonths_of_lt hLoop]
              cases fuel with
              | zero => rfl
              | succ fuel =>
                  rw [searchDays, hDay]
                  simp only [searchDays_eq_none hModel hOpen hWeekDay]
    | onward ret next hIncrement hIn hLater hSame hPast =>
        have hStep : ∀ fuel, searchMonths .utc model (some farthestYear) (fuel + 2)
            (some (dateAt start time)) = searchMonths .utc model (some farthestYear) (fuel + 1)
              (some (dateAt next time)) := by
          intro fuel
          rw [searchMonths_of_lt hLoop, searchDays, hDay]
          simp only [hIncrement]
        -- the induction goes on with the next month, until the horizon
        by_cases hNextYear : monthOf next / 12 < farthestYear
        · have hSet : {d | model.Reached farthestYear time start d ∧ model.Listed d} =
              {d | model.Reached farthestYear time next d ∧ model.Listed d} :=
            Set.ext fun d => and_congr_left (hSame d)
          cases ih _ (by omega) hIn hNextYear rfl with
          | found day hLeast hWeekDay hEnds =>
              obtain ⟨steps, hEnds⟩ := hEnds
              refine .found day (hSet ▸ hLeast) hWeekDay ⟨steps + 2, ?_⟩
              intro fuel hFuel
              obtain ⟨more, rfl⟩ := Nat.exists_eq_add_of_le hFuel
              rw [Nat.add_right_comm, hStep]
              exact hEnds _ (by omega)
          | hangs day hLeast hWeekDay hStuck =>
              refine .hangs day (hSet ▸ hLeast) hWeekDay ?_
              intro fuel
              rcases fuel with _ | _ | fuel
              · rfl
              · rw [searchMonths_of_lt hLoop]
                rfl
              · rw [hStep, hStuck]
          | expires hNone hEnds =>
              obtain ⟨steps, hEnds⟩ := hEnds
              refine .expires (fun d hReached hListed =>
                hNone d ((hSame d hListed).mp hReached) hListed) ⟨steps + 2, ?_⟩
              intro fuel hFuel
              obtain ⟨more, rfl⟩ := Nat.exists_eq_add_of_le hFuel
              rw [Nat.add_right_comm, hStep]
              exact hEnds _ (by omega)
        · refine .expires (hPast (by omega)) ⟨2, ?_⟩
          have hExit : JsNumber.lt (JsDate.get (some (dateAt next time))
              TimeZone.utc.getFullYear) (some farthestYear) = false := by
            simpa using hNextYear
          intro fuel hFuel
          obtain ⟨more, rfl⟩ := Nat.exists_eq_add_of_le hFuel
          rw [Nat.add_comm, hStep]
          exact ⟨_, searchMonths_of_not_lt hExit more, hExit⟩
    | lost ret hIncrement hNone =>
        refine .expires hNone ⟨2, ?_⟩
        intro fuel hFuel
        obtain ⟨more, rfl⟩ := Nat.exists_eq_add_of_le hFuel
        rw [Nat.add_comm, searchMonths_of_lt hLoop, searchDays, hDay]
        simp only [hIncrement]
        exact ⟨none, searchMonths_of_not_lt rfl more, rfl⟩

end

end

end TernScheduler
