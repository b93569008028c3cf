import TernScheduler.Controller.TaskWork
import TernScheduler.Controller.Watched

/-!
# Requests to disable a schedule during a launch

A launch can end with the wish to disable the schedule: the job framework fails, it reports
that the job did not start, or the strategy asks for no next task.  Only the flag of the
exit state disables a schedule, and the last step of the work of `startTask` drops it.

* `DisableAsked` and `DisableHonoured` are the request and its effect, read off a run.
* `unpastured_of_work` is the reason: whatever work was done, the row ends without the flag.
* `disable_never_honoured` says that no request is honoured, in any run.
-/

namespace TernScheduler

open Interleaving Database

/-! ## The requests -/

/-- The job framework could not launch the job, or reported that it did not start. -/
def failsLaunch : Exchange signature → Bool
  | ⟨⟨_, .startJob ..⟩, .error _⟩ => true
  | ⟨⟨_, .startJob ..⟩, .ok (.didNotStart _)⟩ => true
  | _ => false

/-- The task was moved to one of these states. -/
def movesTask (taskPk : PrimaryKeyType) (states : List TaskStateType) :
    Exchange signature → Bool
  | ⟨⟨_, .updateTask pk newValues _⟩, .ok (_ + 1)⟩ =>
      pk = taskPk ∧ newValues.state ∈ states.map some
  | _ => false

/-- What the `start` strategy of the job answers for its row, as it was read under the
lease. -/
def startAnswer (node : Node) (now : Date) (leaseId : LeaseIdType) :
    Exchange signature → Option (Except JsError TaskCreationAction)
  | ⟨⟨_, .findSchedules ..⟩, .ok (sched :: _)⟩ =>
      if sched.leaseOwner = some leaseId then
        match node.taskCreationReg.get sched.taskCreationStrategy with
        | .ok (.start _ createAfterTaskStarts) =>
            some (createAfterTaskStarts now sched.toScheduledJobModel)
        | _ => none
      else none
  | _ => none

/-- The task was moved to one of the states, and then the `start` strategy gave this
answer. -/
def StartAnswered (node : Node) (task : TaskModel) (now : Date) (leaseId : LeaseIdType)
    (states : List TaskStateType) (answer : Except JsError TaskCreationAction)
    (record : List (Exchange signature)) : Prop :=
  (∃ exchange ∈ record, movesTask task.pk states exchange = true) ∧
    ∃ exchange ∈ record, startAnswer node now leaseId exchange = some answer

/-- The launch asks for the schedule to be disabled. -/
def DisableAsked (node : Node) (task : TaskModel) (now : Date) (leaseId : LeaseIdType)
    (record : List (Exchange signature)) : Prop :=
  (∃ exchange ∈ record, failsLaunch exchange = true) ∨
    StartAnswered node task now leaseId [.started] (.ok .disable) record

/-- The job is pastured, and no task was added for it. -/
structure DisableHonoured (task : TaskModel) (after : Seen) : Prop where
  pastured : ∃ row, after.shared.job task.schedule = some row ∧ row.pasture = true
  noFollowUp : ∀ scope newTask reply,
    (⟨⟨scope, .createTask newTask⟩, reply⟩ : Exchange signature) ∈ after.record →
      newTask.schedule ≠ task.schedule

theorem isWork_of_failsLaunch {exchange : Exchange signature}
    (h : failsLaunch exchange = true) : exchange.1.act.IsWork := by
  obtain ⟨⟨scope, act⟩, reply⟩ := exchange
  cases act with
  | startJob taskId jobName context => trivial
  | _ => cases h

theorem isWork_of_movesTask {taskPk : PrimaryKeyType} {states : List TaskStateType}
    {exchange : Exchange signature} (h : movesTask taskPk states exchange = true) :
    exchange.1.act.IsWork := by
  obtain ⟨⟨scope, act⟩, reply⟩ := exchange
  cases act with
  | updateTask pk newValues conditional => trivial
  | _ => cases h

/-- A request is made by the work. -/
theorem DisableAsked.isWork {node : Node} {task : TaskModel} {now : Date}
    {leaseId : LeaseIdType} {record : List (Exchange signature)}
    (h : DisableAsked node task now leaseId record) :
    ∃ exchange ∈ record, exchange.1.act.IsWork := by
  rcases h with ⟨exchange, hMem, hFails⟩ | ⟨⟨exchange, hMem, hMoves⟩, -⟩
  · exact ⟨exchange, hMem, isWork_of_failsLaunch hFails⟩
  · exact ⟨exchange, hMem, isWork_of_movesTask hMoves⟩

/-! ## The end of a launch -/

section Launch

variable {reading : BeforeDateReading} {leaseId : LeaseIdType} {node : Node} {now : Date}
  {task : TaskModel} {sched : ScheduledJobDataModel} {around : Surroundings} {seen : Seen}

theorem confined_startTaskInLease : Confined (startTaskInLease node task now sched) := by
  refine WorksWithin.uses_startTaskInLease ?_
  constructor <;> intros <;> trivial

/-- The exit state of a launch has no flag, whatever was asked for on the way. -/
theorem ends_startTaskInLease {scope : Option Scope} :
    Prog.Ensures (around.calls scope) (fun _ result => (exitOf result).pasture = false) seen
      (startTaskInLease node task now sched) := by
  have hEnds : Meets around scope (fun _ exit => exit = .value { value := () })
      (fun _ _ => True) seen (startTaskInLease node task now sched) := by
    refine Promise.sat_bind.mpr ((Promise.sat_true _).mono (fun _ _ _ => ?_) fun _ _ h => h)
    refine Promise.sat_bind.mpr ((Promise.sat_true _).mono (fun _ _ _ => ?_) fun _ _ h => h)
    refine Promise.sat_bind.mpr ((Promise.sat_true _).mono (fun _ _ _ => ?_) fun _ _ h => h)
    exact Promise.sat_bind.mpr ((Promise.sat_true _).mono (fun _ _ _ => rfl) fun _ _ h => h)
  refine Prog.Sat.mono hEnds fun after result hResult => ?_
  cases result with
  | ok exit =>
      obtain rfl : exit = .value { value := () } := hResult
      rfl
  | error reason => rfl

theorem closedRow_pasture {α : Type} (row : ScheduledJobDataModel) (result : LeaseExitState α) :
    (closedRow now row result).pasture = result.pasture := by
  unfold closedRow
  split <;> rfl

/-- The row of the job is not pastured if the run did any work. -/
def UnpasturedAfterWork (schedule : PrimaryKeyType) (after : Seen) : Prop :=
  (∃ exchange ∈ after.record, exchange.1.act.IsWork) →
    ∃ row, after.shared.job schedule = some row ∧ row.pasture = false

theorem unpastured_of_inVain {schedule : PrimaryKeyType} (h : InVain seen.record) :
    UnpasturedAfterWork schedule seen := by
  rintro ⟨exchange, hMem, hWork⟩
  exact absurd hWork (h exchange hMem).2

/-- **Whatever a launch does, it leaves the job without the flag.** -/
theorem unpastured_of_work {db : Database} :
    Prog.Ensures ((undisturbedLease reading leaseId).calls none)
      (fun after _ => UnpasturedAfterWork task.schedule after) ⟨db, []⟩
      (startTask node task now) := by
  have hSpares := undisturbedLease_spares reading leaseId
  refine meets_startTask (meets_runUpdateInLease (fun _ _ => undisturbedLease_draws) (hSpares _)
    (fun _ _ _ _ _ _ _ hAllowed => (undisturbedLease_reads hAllowed).elim) ?_ ?_
    (fun exchange hMem => by cases hMem) (fun exchange hMem => by cases hMem))
  · -- The lease was obtained: its end writes the flag of the exit state, which is not set.
    intro row seen attempts _ hPk hHeld _
    rw [← hPk]
    refine (meets_leasedWork
      ((held_of_confined confined_startTaskInLease hHeld (hSpares _)).and ends_startTaskInLease)
      (hSpares _) (fun _ => undisturbedLease_serves reading leaseId _ _)).mono ?_ ?_
    · rintro after value ⟨worked, result, hFlag, -, -, hClosed⟩ -
      exact ⟨_, hClosed.job, (closedRow_pasture _ _).trans hFlag⟩
    · rintro after reason ⟨worked, result, hFlag, hError, hJob, -⟩
      refine ⟨fun _ => ⟨_, hJob, (closedRow_pasture _ _).trans hFlag⟩, fun leaseOwner => ?_⟩
      -- After an error the lease is not given up, so nobody touches the row.
      refine meets_emit fun before hOthers _ => ⟨_, hOthers _ _ hJob ?_, ?_⟩
      · rw [closedRow, hError]
        rfl
      · exact (closedRow_pasture _ _).trans hFlag
  · intro after reason hVain
    refine ⟨unpastured_of_inVain hVain, fun leaseOwner => ?_⟩
    exact meets_emit fun before _ => unpastured_of_inVain (hVain.step id id)

/-- **No request to disable a schedule during a launch is honoured.** -/
theorem disable_never_honoured (reading : BeforeDateReading) (leaseId : LeaseIdType)
    (node : Node) (task : TaskModel) (now : Date) (db : Database) :
    Prog.Ensures ((undisturbedLease reading leaseId).calls none)
      (fun after _ => DisableAsked node task now leaseId after.record →
        ¬ DisableHonoured task after) ⟨db, []⟩ (startTask node task now) := by
  refine Prog.Sat.mono unpastured_of_work fun after _ hUnpastured hAsked hHonoured => ?_
  obtain ⟨row, hRow, hFlag⟩ := hHonoured.pastured
  obtain ⟨found, hFound, hNone⟩ := hUnpastured hAsked.isWork
  obtain rfl : found = row := Option.some.inj (hFound.symm.trans hRow)
  rw [hFlag] at hNone
  cases hNone

end Launch

/-! ## Requests that are dropped -/

instance (node : Node) (task : TaskModel) (now : Date) (leaseId : LeaseIdType)
    (states : List TaskStateType) (answer : Except JsError TaskCreationAction)
    (record : List (Exchange signature)) :
    Decidable (StartAnswered node task now leaseId states answer record) :=
  inferInstanceAs (Decidable ((∃ exchange ∈ record, movesTask task.pk states exchange = true) ∧
    ∃ exchange ∈ record, startAnswer node now leaseId exchange = some answer))

instance (node : Node) (task : TaskModel) (now : Date) (leaseId : LeaseIdType)
    (record : List (Exchange signature)) :
    Decidable (DisableAsked node task now leaseId record) :=
  inferInstanceAs (Decidable ((∃ exchange ∈ record, failsLaunch exchange = true) ∨
    StartAnswered node task now leaseId [.started] (.ok .disable) record))

/-- The request of the launch of the sample task is honoured in every run. -/
def SampleHonoured (strategy : TaskCreationStrategy) : Prop :=
  Prog.Ensures ((undisturbedLease strictlyBefore "").calls none)
    (fun after _ => DisableAsked (sampleNode strategy []) sampleTask 0 "" after.record →
      DisableHonoured sampleTask after)
    sampleLaunch (startTask (sampleNode strategy []) sampleTask 0)

/-- The run answered as told ends with a request, and a row without the flag. -/
def sampleDropped (strategy : TaskCreationStrategy) (answers : Answers) : Bool :=
  ((startTask (sampleNode strategy []) sampleTask 0).run
    ((undisturbedLease strictlyBefore "").respond none fun _ => answers) sampleLaunch).any
    fun last => DisableAsked (sampleNode strategy []) sampleTask 0 "" last.1.record ∧
      (last.1.shared.job "job").all fun row => row.pasture = false

theorem not_sampleHonoured (strategy : TaskCreationStrategy) (answers : Answers)
    (h : sampleDropped strategy answers = true) : ¬ SampleHonoured strategy := by
  intro hHonoured
  obtain ⟨last, hLast, hDropped⟩ := (Option.any_eq_true _ _).mp h
  obtain ⟨hAsked, hNone⟩ := of_decide_eq_true hDropped
  obtain ⟨row, hRow, hFlag⟩ := (Surroundings.ensures_respond
    (undisturbedLease_idle strictlyBefore "") hHonoured _ last hLast hAsked).pastured
  have hUnset := (Option.all_eq_true _ _).mp hNone row hRow
  rw [hFlag] at hUnset
  cases hUnset

/-- A job framework that fails, a job that did not start and a strategy that asks for no
next task all leave the sample job enabled. -/
theorem disableRequests_dropped :
    ¬ SampleHonoured sampleStart ∧ ¬ SampleHonoured sampleFinish ∧
      ¬ SampleHonoured (.start (fun now _ => .ok (some now)) fun _ _ => .ok .disable) :=
  ⟨not_sampleHonoured _ { job := .error (.foreign true "no framework") } (by decide +kernel),
    not_sampleHonoured _ { job := .ok (.didNotStart none) } (by decide +kernel),
    not_sampleHonoured _ {} (by decide +kernel)⟩

end TernScheduler
