import TernScheduler.Properties.DisableRequests
import TernScheduler.TaskCreation

/-!
# Schedule definitions that cannot be used

A strategy that cannot use the definition of a schedule throws
`InvalidScheduleDefinitionError`, and the end of the lease means to disable the schedule
then.  It recognises the error by its class, and the constructor of the error gives it the
prototype of another class.

* `RefusesDefinition` is what `cron` and `once` do with a definition they cannot use.
* `DefinitionDisabled` is what should become of the schedule.
* `bad_definition_never_disables` says that no run ends that way.
-/

namespace TernScheduler

open Interleaving Database

/-- The strategy throws on the definition when a new schedule asks for its first time. -/
def RefusesDefinition (strategy : TaskCreationStrategy) (now : Date) (definition : String) :
    Prop :=
  ∀ job : ScheduledJobModel, job.scheduleDefinition = definition → ∃ problem,
    strategy.createFromNewSchedule now job =
      .error (.invalidScheduleDefinition job.pk definition problem)

theorem getScheduleDefinition_error {M : Type} {parse : String → Except String M}
    {job : ScheduledJobModel} {problem : String}
    (hParse : parse job.scheduleDefinition = .error problem) :
    getScheduleDefinition parse job =
      .error (.invalidScheduleDefinition job.pk job.scheduleDefinition problem) := by
  rw [getScheduleDefinition, hParse]

/-- The strategy answers a new schedule as `cron` does, whenever its search ends. -/
def AnswersAsCron (zone : TimeZone) (parse : String → Except String ScheduleCronModel)
    (strategy : TaskCreationStrategy) : Prop :=
  ∀ fuel now job error,
    CronTaskCreationStrategy.createFromNewSchedule zone fuel parse (some now) job =
        some (.error error) →
      strategy.createFromNewSchedule now job = .error error

/-- The strategy answers a new schedule as `once` does. -/
def AnswersAsOnce (zone : TimeZone) (parse : String → Except String ScheduleOnceModel)
    (strategy : TaskCreationStrategy) : Prop :=
  ∀ now job error,
    OnceTascCreationStrategy.createFromNewSchedule zone parse (some now) job = .error error →
      strategy.createFromNewSchedule now job = .error error

/-- `cron` refuses a definition that does not parse, and one without a time. -/
theorem refuses_of_cron {zone : TimeZone} {parse : String → Except String ScheduleCronModel}
    {strategy : TaskCreationStrategy} {now : Date} {definition : String}
    (hStrategy : AnswersAsCron zone parse strategy)
    (hThrows : ∀ model, parse definition = .ok model →
      ∃ fuel, nextCronTime zone fuel model (some now) = some none) :
    RefusesDefinition strategy now definition := by
  rintro job rfl
  cases hParse : parse job.scheduleDefinition with
  | error problem =>
      refine ⟨problem, hStrategy 0 now job _ ?_⟩
      rw [CronTaskCreationStrategy.createFromNewSchedule, getScheduleDefinition_error hParse]
  | ok model =>
      obtain ⟨fuel, hNone⟩ := hThrows model hParse
      refine ⟨"No first scheduled time within " ++ toString maximumYearInFuture ++ " years",
        hStrategy fuel now job _ ?_⟩
      rw [CronTaskCreationStrategy.createFromNewSchedule, getScheduleDefinition, hParse]
      simp only [hNone, Option.map_some]

/-- `once` refuses a definition that does not parse. -/
theorem refuses_of_once {zone : TimeZone} {parse : String → Except String ScheduleOnceModel}
    {strategy : TaskCreationStrategy} {now : Date} {definition problem : String}
    (hStrategy : AnswersAsOnce zone parse strategy)
    (hParse : parse definition = .error problem) :
    RefusesDefinition strategy now definition := by
  rintro job rfl
  refine ⟨problem, hStrategy now job _ ?_⟩
  rw [OnceTascCreationStrategy.createFromNewSchedule, getScheduleDefinition_error hParse]
  rfl

/-- The call rejects with the error, both events are emitted, and the schedule is unleased
and pastured for the reason the error gives. -/
structure DefinitionDisabled {α : Type} (pk : PrimaryKeyType) (definition problem : String)
    (after : Seen) (result : Except JsError α) : Prop where
  rejects : result = .error (.invalidScheduleDefinition pk definition problem)
  toldInvalid : ∃ scope sched reply, sched.pk = pk ∧
    (⟨⟨scope, .emit (.invalidScheduleDefinition sched)⟩, reply⟩ : Exchange signature) ∈
      after.record
  toldDisabled : ∃ scope sched reply, sched.pk = pk ∧
    (⟨⟨scope, .emit (.scheduledJobDisabled sched)⟩, reply⟩ : Exchange signature) ∈ after.record
  row : ∃ row, after.shared.job pk = some row ∧ row.updateState = none ∧
    row.leaseOwner = none ∧ row.pasture = true ∧
    row.pastureReason =
      some ((JsError.invalidScheduleDefinition pk definition problem).message .utc)

section Runs

variable {reading : BeforeDateReading} {leaseId : LeaseIdType} {node : Node} {now : Date}
  {around : Surroundings} {seen : Seen} {α : Type}

/-- A new job is owned by the call that added it, unless its key was taken. -/
theorem meets_addScheduledJobModel {zone : TimeZone} {model : ScheduledJobModel}
    {leaseTimeSeconds : Int} (hUpdating : model.updateState ≠ none)
    (hServes : ∀ row, around.Serves none (.createSchedule row)) :
    Meets around none
      (fun after _ => Held leaseId (leasedRow zone model leaseId now leaseTimeSeconds)
        after.shared)
      (fun _ reason => ∃ modelName pk, reason = .duplicatePrimaryKey modelName pk) seen
      (addScheduledJobModel zone model leaseId now leaseTimeSeconds) := by
  refine meets_ask fun before reply after hOthers hAllowed hExec => ?_
  cases reply with
  | ok done =>
      cases hExec.scheduleEffect with
      | kept hNone => exact absurd trivial hNone
      | created _ hAbsent hJobs => exact ⟨(hJobs _).trans (if_pos rfl), hUpdating, rfl⟩
  | error reason =>
      have hReply := hServes _ _ _ hAllowed
      cases hCreate : before.scheduledJobTable.create
          (leasedRow zone model leaseId now leaseTimeSeconds) with
      | some table =>
          have hOk := hReply (.ok (), { before with scheduledJobTable := table })
            (by simp only [serve, hCreate]; rfl)
          cases hOk
      | none =>
          have hTaken := hReply (.error (.duplicatePrimaryKey "ScheduledJob" model.pk), before)
            (by simp only [serve, hCreate]; rfl)
          exact ⟨_, _, (Except.error.inj hTaken).symm⟩

/-- When the job could not be added, the caller is told so, whatever else happens. -/
theorem rejects_of_notAdded {schedPk : PrimaryKeyType} (reason : JsError) :
    Meets around none (fun (_ : Seen) (_ : LeaseExitState α) => False)
      (fun _ given => given = reason) seen
      ((markLeasedScheduledJobNeedsRepair schedPk leaseId now false none).handle
          (fun e2 => emit (.generalError e2) >>= fun _ => Promise.reject reason) >>=
        fun _ => Promise.reject reason) := by
  refine Promise.sat_bind.mpr (Promise.sat_handle.mpr ((Promise.sat_true _).mono
    (fun _ _ _ => rfl) fun _ _ _ => ?_))
  exact Promise.sat_bind.mpr (meets_emit fun _ _ => rfl)

/-- The first time of a new schedule is asked for before anything is done. -/
theorem createScheduledJob_refused {schedule : NewScheduledJob}
    {strategy : TaskCreationStrategy} {db : Database}
    (hStrategy : node.taskCreationReg.get schedule.taskCreationStrategy = .ok strategy)
    (hRefuses : RefusesDefinition strategy now schedule.scheduleDefinition) :
    Meets (undisturbedLease reading leaseId) none (fun _ _ => False)
      (fun after reason => ∀ pk definition problem,
        reason = .invalidScheduleDefinition pk definition problem →
          ∃ row, after.shared.job pk = some row ∧ row.updateState = some .addTask ∧
            row.leaseExpires = some now ∧ row.pasture = false)
      ⟨db, []⟩ (createScheduledJob node schedule now) := by
  refine Promise.sat_bind.mpr (meets_environment id fun drawn owner _ hAllowed => ?_)
  obtain rfl := undisturbedLease_draws hAllowed
  refine Promise.sat_bind.mpr (meets_environment id fun first schedPk _ _ => ?_)
  refine Promise.sat_bind.mpr (meets_environment id fun second createdTaskPk _ _ => ?_)
  refine Promise.sat_bind.mpr (Promise.sat_handle.mpr (Promise.sat_bind.mpr
    ((meets_addScheduledJobModel (Option.some_ne_none ScheduleUpdateStateType.addTask) fun row =>
      undisturbedLease_serves reading owner none (.createSchedule row)).mono ?_ ?_)))
  · intro added _ hHeld
    obtain ⟨problem, hThrows⟩ := hRefuses (leasedRow node.zone
      (newScheduledJobModel schedule now schedPk createdTaskPk) owner now
      node.leaseBehavior.leaseTimeSeconds).toScheduledJobModel rfl
    show Meets _ _ _ _ added (inScope _ (settleLease (Promise.ofExcept
      (node.taskCreationReg.get schedule.taskCreationStrategy) >>= _)))
    -- The strategy is found, and refuses the definition of the row that was added.
    rw [hStrategy]
    show Meets _ _ _ _ added (inScope _ (settleLease (Promise.ofExcept
      (strategy.createFromNewSchedule now _) >>= _)))
    rw [hThrows]
    -- The error is not recognised by its class, and the job is marked as needing repair.
    refine (meets_closeLease hHeld rfl (undisturbedLease_spares reading owner _)
      fun _ => undisturbedLease_serves reading owner _ _).mono ?_ ?_
    · rintro after value ⟨hNone, -, -⟩
      cases hNone
    · rintro after reason ⟨hReason, hJob⟩ pk definition problem rfl
      obtain ⟨rfl, -, -⟩ := JsError.invalidScheduleDefinition.inj (Option.some.inj hReason)
      exact ⟨_, hJob, rfl, rfl, rfl⟩
  · rintro after reason ⟨modelName, pk, rfl⟩
    refine (rejects_of_notAdded _).mono (fun _ _ => False.elim) ?_
    rintro last given rfl pk definition problem hOther
    cases hOther

end Runs

/-- **No schedule is disabled because of its definition**, neither when it is created nor
when a launch asks for its next time. -/
theorem bad_definition_never_disables (reading : BeforeDateReading) (leaseId : LeaseIdType)
    (node : Node) (now : Date) (db : Database) :
    (∀ schedule strategy,
      node.taskCreationReg.get schedule.taskCreationStrategy = .ok strategy →
      RefusesDefinition strategy now schedule.scheduleDefinition →
      Prog.Ensures ((undisturbedLease reading leaseId).calls none)
        (fun after result => ∀ pk definition problem,
          ¬ DefinitionDisabled pk definition problem after result) ⟨db, []⟩
        (createScheduledJob node schedule now)) ∧
    ∀ task, Prog.Ensures ((undisturbedLease reading leaseId).calls none)
      (fun after result => ∀ definition problem,
        StartAnswered node task now leaseId [.started, .completed]
            (.error (.invalidScheduleDefinition task.schedule definition problem))
            after.record →
          ¬ DefinitionDisabled task.schedule definition problem after result) ⟨db, []⟩
      (startTask node task now) := by
  have hFlag : ∀ {row found : ScheduledJobDataModel} {given : Option ScheduledJobDataModel},
      given = some row → given = some found → row.pasture = false → found.pasture ≠ true := by
    intro row found given hRow hFound hUnset hSet
    obtain rfl : row = found := Option.some.inj (hRow.symm.trans hFound)
    rw [hUnset] at hSet
    cases hSet
  refine ⟨fun schedule strategy hStrategy hRefuses => ?_, fun task => ?_⟩
  · refine Prog.Sat.mono (createScheduledJob_refused hStrategy hRefuses) ?_
    intro after result hResult pk definition problem hDisabled
    obtain ⟨found, hFound, -, -, hSet, -⟩ := hDisabled.row
    cases result with
    | ok value => exact hResult
    | error reason =>
        obtain ⟨row, hRow, -, -, hUnset⟩ :=
          hResult pk definition problem (Except.error.inj hDisabled.rejects)
        exact hFlag hRow hFound hUnset hSet
  · -- the row that the work was about was never put to pasture
    refine Prog.Sat.mono unpastured_of_work ?_
    rintro after result hUnpastured definition problem ⟨⟨exchange, hMem, hMoves⟩, -⟩ hDisabled
    obtain ⟨found, hFound, -, -, hSet, -⟩ := hDisabled.row
    obtain ⟨row, hRow, hUnset⟩ := hUnpastured ⟨exchange, hMem, isWork_of_movesTask hMoves⟩
    exact hFlag hRow hFound hUnset hSet

/-! ## A definition that is not JSON -/

/-- No text is a definition. -/
def parsesNothing (_ : String) : Except String ScheduleCronModel := .error "Not valid json"

/-- `cron` where no text is a definition. -/
def refusingCron : TaskCreationStrategy :=
  .start (fun now job => (getScheduleDefinition parsesNothing job).map fun _ => now)
    fun now job => (getScheduleDefinition parsesNothing job).map fun _ => .queue (some now)

theorem refusingCron_answersAsCron : AnswersAsCron .utc parsesNothing refusingCron := by
  intro fuel now job error hError
  have hParse : getScheduleDefinition parsesNothing job = .error (.invalidScheduleDefinition
      job.pk job.scheduleDefinition "Not valid json") := rfl
  rw [CronTaskCreationStrategy.createFromNewSchedule, hParse] at hError
  obtain rfl := Except.error.inj (Option.some.inj hError)
  rfl

theorem refusingCron_refuses (now : Date) (definition : String) :
    RefusesDefinition refusingCron now definition :=
  refuses_of_cron refusingCron_answersAsCron fun _ hParse => by cases hParse

theorem bad_definition_never_disables_cron :
    Prog.Ensures ((undisturbedLease strictlyBefore "").calls none)
      (fun after result => ∀ pk definition problem,
        ¬ DefinitionDisabled pk definition problem after result) ⟨.empty 0, []⟩
      (createScheduledJob (sampleNode refusingCron []) sampleSchedule 0) :=
  (bad_definition_never_disables strictlyBefore "" (sampleNode refusingCron []) 0 (.empty 0)).1
    sampleSchedule refusingCron rfl (refusingCron_refuses 0 _)

/-- The run ends with the error of the definition, and the row of the schedule enabled. -/
def endsEnabled {α : Type} (pk : PrimaryKeyType) (last : Seen × Except JsError α) : Bool :=
  (last.1.shared.job pk).all fun row => row.pasture = false

theorem not_disabled_of_endsEnabled {α : Type} {pk definition problem : String}
    {last : Seen × Except JsError α} (h : endsEnabled pk last = true) :
    ¬ DefinitionDisabled pk definition problem last.1 last.2 := by
  intro hDisabled
  obtain ⟨row, hRow, -, -, hSet, -⟩ := hDisabled.row
  have hUnset := (Option.all_eq_true _ _).mp h row hRow
  rw [hSet] at hUnset
  cases hUnset

/-- The sample launch asks the strategy for the next time, and is told that the definition
is not JSON. -/
abbrev SampleRefused (record : List (Exchange signature)) : Prop :=
  StartAnswered (sampleNode refusingCron []) sampleTask 0 "" [.started, .completed]
    (.error (.invalidScheduleDefinition "job" "" "Not valid json")) record

/-- A schedule whose definition is not JSON stays enabled, and in need of repair, after it
was created and after a launch. -/
theorem badDefinition_not_disabled :
    ¬ Prog.Ensures ((undisturbedLease strictlyBefore "").calls none)
        (fun after result => DefinitionDisabled "" "" "Not valid json" after result)
        ⟨.empty 0, []⟩ (createScheduledJob (sampleNode refusingCron []) sampleSchedule 0) ∧
      ¬ Prog.Ensures ((undisturbedLease strictlyBefore "").calls none)
        (fun after result => SampleRefused after.record →
          DefinitionDisabled "job" "" "Not valid json" after result)
        sampleLaunch (startTask (sampleNode refusingCron []) sampleTask 0) := by
  constructor
  · intro hDisabled
    have hRun : ((createScheduledJob (sampleNode refusingCron []) sampleSchedule 0).run
        ((undisturbedLease strictlyBefore "").respond none fun _ => {})
        ⟨.empty 0, []⟩).any (endsEnabled "") = true := by decide +kernel
    obtain ⟨last, hLast, hEnabled⟩ := (Option.any_eq_true _ _).mp hRun
    exact not_disabled_of_endsEnabled hEnabled (Surroundings.ensures_respond
      (undisturbedLease_idle strictlyBefore "") hDisabled _ last hLast)
  · intro hDisabled
    have hRun : ((startTask (sampleNode refusingCron []) sampleTask 0).run
        ((undisturbedLease strictlyBefore "").respond none fun _ => {})
        sampleLaunch).any
          (fun last => SampleRefused last.1.record ∧ endsEnabled "job" last) = true := by
      decide +kernel
    obtain ⟨last, hLast, hEnds⟩ := (Option.any_eq_true _ _).mp hRun
    obtain ⟨hRefused, hEnabled⟩ := of_decide_eq_true hEnds
    exact not_disabled_of_endsEnabled hEnabled (Surroundings.ensures_respond
      (undisturbedLease_idle strictlyBefore "") hDisabled _ last hLast hRefused)

end TernScheduler
