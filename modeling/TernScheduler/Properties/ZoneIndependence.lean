import TernScheduler.Cron.FixedOffset

/-!
# Whether the time of a task depends on the server

The strategies `once` and `cron` read and set dates in the local time of the server.

* `once` gives two servers the same time exactly if their zones have the same offset at
  the local time of `executeAt`.
* `cron` gives two servers the same times if their clocks agree.  Two servers of a fixed
  offset have the same cron times for every schedule only if the offsets are equal: the
  schedule that runs every second shows the milliseconds of the offset, and an `endBy`
  shows the rest, as it has passed on one server before it has on the other.
-/

namespace TernScheduler

/-- A run has this outcome. -/
def Yields {R : Type} (run : Nat → Option R) (outcome : R) : Prop :=
  ∃ fuel, run fuel = some outcome

/-- `once` has the same outcome on both servers. -/
def SameOnce (zone other : TimeZone) (parse : String → Except String ScheduleOnceModel)
    (now : JsDate) (schedule : ScheduledJobModel) : Prop :=
  OnceTascCreationStrategy.createFromNewSchedule zone parse now schedule =
    OnceTascCreationStrategy.createFromNewSchedule other parse now schedule

/-- `cron` has the same outcomes on both servers, for a new schedule and after a task
started. -/
structure SameCron (zone other : TimeZone) (parse : String → Except String ScheduleCronModel)
    (now : JsDate) (schedule : ScheduledJobModel) : Prop where
  created : ∀ outcome,
    Yields (CronTaskCreationStrategy.createFromNewSchedule zone · parse now schedule) outcome ↔
      Yields (CronTaskCreationStrategy.createFromNewSchedule other · parse now schedule) outcome
  started : ∀ outcome,
    Yields (CronTaskCreationStrategy.createAfterTaskStarts zone · parse now schedule) outcome ↔
      Yields (CronTaskCreationStrategy.createAfterTaskStarts other · parse now schedule) outcome

variable {zone other : TimeZone}

theorem sameOnce_iff (parse : String → Except String ScheduleOnceModel) (now : JsDate)
    (schedule : ScheduledJobModel) :
    SameOnce zone other parse now schedule ↔
      ∀ once, parse schedule.scheduleDefinition = .ok once →
        SameOffset zone other once.executeAt.localTime := by
  unfold SameOnce OnceTascCreationStrategy.createFromNewSchedule getScheduleDefinition
  cases parse schedule.scheduleDefinition with
  | error problem => simp [bind, Except.bind]
  | ok once =>
      constructor
      · intro hSame once' hOnce
        cases hOnce
        exact sameOffset_iff.mpr (Except.ok.inj hSame)
      · intro hSame
        exact congrArg Except.ok (sameOffset_iff.mp (hSame once rfl))

theorem SameClock.sameCron (h : SameClock zone other)
    (parse : String → Except String ScheduleCronModel) {now : Date} (hNow : InRange now)
    (schedule : ScheduledJobModel) : SameCron zone other parse (some now) schedule := by
  constructor
  · intro outcome
    unfold CronTaskCreationStrategy.createFromNewSchedule
    simp only [h.nextCronTime _ hNow]
  · intro outcome
    unfold CronTaskCreationStrategy.createAfterTaskStarts
    simp only [h.nextCronTime _ hNow]

/-! ## Servers of a fixed offset -/

theorem SameCron.symm {parse : String → Except String ScheduleCronModel} {now : JsDate}
    {schedule : ScheduledJobModel} (hSame : SameCron zone other parse now schedule) :
    SameCron other zone parse now schedule :=
  ⟨fun outcome => (hSame.created outcome).symm, fun outcome => (hSame.started outcome).symm⟩

theorem actionOf_injective : Function.Injective CronTaskCreationStrategy.actionOf := by
  intro ret ret' hEq
  cases ret <;> cases ret' <;> cases hEq <;> rfl

/-- Two servers with the same outcomes compute the same cron times. -/
theorem SameCron.nextCronTime_eq {model : ScheduleCronModel} {now : JsDate}
    {schedule : ScheduledJobModel} {fuel more : Nat} {result result' : Option JsDate}
    (hSame : SameCron zone other (fun _ => .ok model) now schedule)
    (hResult : nextCronTime zone fuel model now = some result)
    (hOther : nextCronTime other more model now = some result') : result = result' := by
  have hYields : Yields (CronTaskCreationStrategy.createAfterTaskStarts zone ·
      (fun _ => .ok model) now schedule)
      (.ok (CronTaskCreationStrategy.actionOf result)) := by
    refine ⟨fuel, ?_⟩
    simp only [CronTaskCreationStrategy.createAfterTaskStarts, getScheduleDefinition, hResult,
      Option.map_some]
  obtain ⟨steps, hSteps⟩ := (hSame.started _).mp hYields
  simp only [CronTaskCreationStrategy.createAfterTaskStarts, getScheduleDefinition,
    Option.map_eq_some_iff, Except.ok.injEq] at hSteps
  obtain ⟨ret, hRet, hAction⟩ := hSteps
  rw [← actionOf_injective hAction]
  exact nextCronTime_unique hRet hOther

theorem fromTimeStruct_fixed (offset : FixedOffset) {struct : TimeStruct}
    (hNear : NearEpoch struct.localTime) :
    fromTimeStruct offset.zone struct = some (struct.localTime - offset.millis) := by
  have hWithin := offset.withinDay
  refine timeClip_of_inRange ?_
  unfold NearEpoch at hNear
  simp only [InRange, TimeZone.toInstant, FixedOffset.zone]
  omega

/-- 999 milliseconds after the epoch, on the clock of the server. -/
def lastOfFirstSecond : TimeStruct := ⟨999, 0, 0, 0, 1, 1, 1970⟩

theorem localTime_lastOfFirstSecond : lastOfFirstSecond.localTime = 999 := by decide

/-- Servers of different offsets differ on a cron schedule. -/
theorem exists_not_sameCron {ahead behind : FixedOffset}
    (hLt : behind.millis < ahead.millis) :
    ∃ model now, InRange now ∧ ∀ schedule,
      ¬ SameCron ahead.zone behind.zone (fun _ => .ok model) (some now) schedule := by
  have hAhead := ahead.withinDay
  have hBehind := behind.withinDay
  by_cases hMillis : (ahead.millis - behind.millis) % 1000 = 0
  · -- the end comes at least a second earlier on the server that is ahead
    have hNearEnd : NearEpoch lastOfFirstSecond.localTime := by
      rw [localTime_lastOfFirstSecond]
      exact ⟨by decide, by decide⟩
    have hNear : NearEpoch (999 - ahead.millis) := by
      unfold NearEpoch
      omega
    refine ⟨everySecond (some lastOfFirstSecond), 999 - ahead.millis, ?_, ?_⟩
    · unfold InRange
      omega
    · intro schedule hSame
      have hPassed : nextCronTime ahead.zone 0 (everySecond (some lastOfFirstSecond))
          (some (999 - ahead.millis)) = some none := by
        simp only [nextCronTime, everySecond, Option.map_some, Option.any_some,
          fromTimeStruct_fixed ahead hNearEnd, localTime_lastOfFirstSecond, JsNumber.ge_some]
        simp
      have hRuns := nextCronTime_everySecond behind (some lastOfFirstSecond) hNear (by
        intro ending hEnding
        rw [Option.bind_some, fromTimeStruct_fixed behind hNearEnd,
          localTime_lastOfFirstSecond] at hEnding
        cases hEnding
        unfold FixedOffset.nextSecond
        omega)
      cases hSame.nextCronTime_eq hPassed hRuns
  · -- whole seconds of the two clocks are different instants
    refine ⟨everySecond none, 0, by decide, ?_⟩
    intro schedule hSame
    have hNear : NearEpoch 0 := ⟨by decide, by decide⟩
    have hFirst := nextCronTime_everySecond ahead none hNear (by simp)
    have hSecond := nextCronTime_everySecond behind none hNear (by simp)
    have hEq := hSame.nextCronTime_eq hFirst hSecond
    simp only [Option.some.injEq, FixedOffset.nextSecond] at hEq
    omega

theorem sameClock_of_millis {offset offset' : FixedOffset}
    (hMillis : offset.millis = offset'.millis) : SameClock offset.zone offset'.zone :=
  ⟨fun _ _ => hMillis, fun _ => .inl hMillis⟩

/-! ## The law and where it fails -/

/-- A schedule whose definition is the text the strategies parse. -/
def zoneSchedule : ScheduledJobModel where
  displayName := "report"
  description := ""
  duplicateStrategy := "always-run"
  jobName := "report"
  jobContext := ""
  retryStrategy := "none"
  taskCreationStrategy := "cron"
  scheduleDefinition := ""
  pk := "report"
  updateState := none
  updateTaskPk := none
  pasture := false
  pastureReason := none
  createdOn := 0
  repairState := none

/-- `once` depends on the zone of the server through its offset at `executeAt` alone.
`cron` does not depend on it between servers whose clocks agree; between servers of a
fixed offset it is independent of the server only if the offsets are equal. -/
theorem execution_time_by_zone (zone other : TimeZone) (offset offset' : FixedOffset) :
    (∀ (parse : String → Except String ScheduleOnceModel) (now : JsDate)
      (schedule : ScheduledJobModel),
      SameOnce zone other parse now schedule ↔
        ∀ once, parse schedule.scheduleDefinition = .ok once →
          SameOffset zone other once.executeAt.localTime) ∧
    (SameClock zone other →
      ∀ (parse : String → Except String ScheduleCronModel) (now : Date), InRange now →
        ∀ schedule, SameCron zone other parse (some now) schedule) ∧
    ((∀ (parse : String → Except String ScheduleCronModel) (now : Date), InRange now →
        ∀ schedule, SameCron offset.zone offset'.zone parse (some now) schedule) ↔
      offset.millis = offset'.millis) := by
  refine ⟨fun parse now schedule => sameOnce_iff parse now schedule,
    fun hClock parse now hNow schedule => hClock.sameCron parse hNow schedule,
    fun hSame => ?_, fun hMillis parse now hNow schedule =>
      (sameClock_of_millis hMillis).sameCron parse hNow schedule⟩
  rcases lt_trichotomy offset.millis offset'.millis with hLt | hEq | hGt
  · obtain ⟨model, now, hNow, hDiffers⟩ := exists_not_sameCron hLt
    exact absurd (hSame _ now hNow zoneSchedule).symm (hDiffers zoneSchedule)
  · exact hEq
  · obtain ⟨model, now, hNow, hDiffers⟩ := exists_not_sameCron hGt
    exact absurd (hSame _ now hNow zoneSchedule) (hDiffers zoneSchedule)

/-- A server whose clock is an hour ahead of UTC. -/
def hourAhead : FixedOffset := ⟨3600000, by decide⟩

/-- A server in UTC that prints dates in its own way. -/
def otherServer : TimeZone := { TimeZone.utc with toString := fun _ => "" }

theorem execution_time_by_zone_of_otherServer :
    SameCron .utc otherServer (fun _ => .ok (everySecond none)) (some 0) zoneSchedule :=
  (execution_time_by_zone .utc otherServer hourAhead hourAhead).2.1
    ⟨fun _ _ => rfl, fun _ => .inl rfl⟩ _ 0 (by decide) zoneSchedule

/-- Every day at midnight. -/
def everyMidnight : ScheduleCronModel :=
  { everySecond none with seconds := [0], minutes := [0], hours := [0] }

/-- A job due at 999 milliseconds after the epoch, and one due at every midnight, have
another time on a server an hour ahead than on a server in UTC. -/
theorem execution_time_depends_on_server :
    ¬ SameOnce .utc hourAhead.zone (fun _ => .ok ⟨lastOfFirstSecond⟩) (some 0) zoneSchedule ∧
      ¬ SameCron .utc hourAhead.zone (fun _ => .ok everyMidnight) (some 0) zoneSchedule := by
  constructor
  · intro hSame
    have hInstants : fromTimeStruct .utc lastOfFirstSecond =
        fromTimeStruct hourAhead.zone lastOfFirstSecond := Except.ok.inj hSame
    exact absurd hInstants (by decide +kernel)
  · intro hSame
    have hUtc : nextCronTime .utc 2 everyMidnight (some 0) = some (some (some 86400000)) := by
      decide +kernel
    have hAhead : nextCronTime hourAhead.zone 2 everyMidnight (some 0) =
        some (some (some 82800000)) := by decide +kernel
    cases hSame.nextCronTime_eq hUtc hAhead

end TernScheduler
