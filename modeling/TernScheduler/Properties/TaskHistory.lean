import TernScheduler.Datastore.Pages
import TernScheduler.Datastore.TaskMethods

/-!
# The history of a task row

Every mark operation writes its own subset of the columns of a task.  The columns
keep telling the history of the task as long as two moves are not made: a start that
fails, which leaves `executionFinished` empty, and a failure of a task that is still
queued, which skips the start.

* `task_history` is the law, over runs of the task methods that make neither move.
* `start_failed_unfinished` is a run whose start fails.
-/

namespace TernScheduler

open Interleaving Database

/-- The moves of a task: it is queued, started and finished, in this order, or its
start fails or is skipped. -/
def Forward : TaskStateType → TaskStateType → Prop
  | .pending, new => new = .queued
  | .queued, new => new = .started ∨ new = .startError ∨ new = .completed
  | .started, new => new ∈ finishedStates
  | _, _ => False

/-- The columns of a row tell the state it is in. -/
structure TaskModel.Consistent (row : TaskModel) : Prop where
  queued : row.executionQueued ≠ none ↔ row.state ≠ .pending
  finished : row.executionFinished ≠ none ↔ row.state ∈ finishedStates
  info : row.completedInfo ≠ none ↔ row.state ∈ finishedStates

/-- A step leaves the row of every task as it is, or moves it forward. -/
def MovesForward (pool pool' : TaskPool) : Prop :=
  ∀ pk row, pool.shared.task pk = some row → ∃ row', pool'.shared.task pk = some row' ∧
    (row' = row ∨ Forward row.state row'.state)

/-- The rows are consistent; from here on, the steps that meet the condition move
tasks forward only, and the runs of such steps leave a finished row as it is. -/
structure KeepsHistory (reading : BeforeDateReading)
    (A : RunCondition signature Database TaskCall (Except JsError Unit))
    (pool : TaskPool) : Prop where
  consistent : ∀ pk row, pool.shared.task pk = some row → row.Consistent
  forward : ∀ event pool', Step (taskMethods reading) pool event pool' →
    A pool event pool' → MovesForward pool pool'
  final : ∀ later, Run (taskMethods reading) A pool later → ∀ pk row,
    pool.shared.task pk = some row → row.state ∈ finishedStates →
      later.shared.task pk = some row

/-- The operation puts no task in a state that only a failing start puts it in. -/
def Act.StartsWell : (act : Act) → act.Reply → Prop
  | .updateTask _ newValues _, .ok (_ + 1) =>
      newValues.state ≠ some .startError ∧ newValues.state ≠ some .failed
  | _, _ => True

/-- No queued task is marked by `markTaskStartFailed`, nor by the `markTaskFailed` of
`startTask`. -/
def startsWell : RunCondition signature Database TaskCall (Except JsError Unit) :=
  fun _ event _ => ∀ entry ∈ event.entry, entry.op.act.StartsWell entry.reply

variable {reading : BeforeDateReading} {first pool pool' : TaskPool}
  {event : Event signature Database TaskCall} {pk : PrimaryKeyType}

theorem not_forward_of_finished {old new : TaskStateType} (hOld : old ∈ finishedStates) :
    ¬ Forward old new := by
  intro hForward
  simp only [finishedStates, List.mem_cons, List.not_mem_nil, or_false] at hOld
  rcases hOld with rfl | rfl | rfl | rfl | rfl <;> exact hForward

/-! ## What a mark does to a row -/

section Marks

variable {now : Date} {method : TaskMethod} {old new : TaskStateType} {extra : TaskPatch}

/-- The moves of the methods are forward, but for a failure while queued. -/
theorem Marks.forward (hMarks : Marks now method pk old new extra)
    (hWell : new ≠ .failed) : Forward old new := by
  cases hMarks with
  | failed task cause info =>
      cases cause with
      | startTask => exact absurd rfl hWell
      | taskFinished => simp [FailureCause.expected, FailureCause.failed, Forward, finishedStates]
  | _ => simp [Forward, finishedStates]

/-- The columns a method writes go with the state it writes, but for a start that
fails. -/
theorem Marks.consistent {row : TaskModel} (hMarks : Marks now method pk row.state new extra)
    (hWell : new ≠ .startError) (hRow : row.Consistent) :
    (TaskPatch.apply { extra with state := some new } row).Consistent := by
  obtain ⟨hQueued, hFinished, hInfo⟩ := hRow
  generalize hOld : row.state = old at hMarks hQueued hFinished hInfo
  cases hMarks with
  | startFailed task reason => exact absurd rfl hWell
  | failed task cause info =>
      cases cause <;>
        constructor <;> simp_all [TaskPatch.apply, finishedStates, FailureCause.expected,
          FailureCause.failed]
  | _ => constructor <;> simp_all [TaskPatch.apply, finishedStates]

end Marks

theorem consistent_pendingTask (schedule : PrimaryKeyType) (now : Date) (executeAt : JsDate) :
    (pendingTask pk schedule now executeAt).Consistent := by
  constructor <;> simp [pendingTask, finishedStates]

/-! ## Steps and runs -/

/-- What a step that starts tasks well does to the row of a task. -/
theorem TaskWrite.forward {old new : Option TaskModel} {row : TaskModel}
    (hWrite : TaskWrite pk old event new)
    (hWell : ∀ entry ∈ event.entry, entry.op.act.StartsWell entry.reply)
    (hOld : old = some row) :
    ∃ row', new = some row' ∧ (row' = row ∨ Forward row.state row'.state) := by
  cases hWrite with
  | kept => exact ⟨row, hOld, Or.inl rfl⟩
  | added => cases hOld
  | marked given pid scope before now method new extra count hMarks =>
      obtain rfl := Option.some.inj hOld
      refine ⟨_, rfl, Or.inr (hMarks.forward fun hFailed => ?_)⟩
      exact (hWell _ rfl).2 (congrArg some hFailed)

/-- A step that starts tasks well keeps the rows consistent. -/
theorem TaskWrite.consistent {old new : Option TaskModel} {row' : TaskModel}
    (hWrite : TaskWrite pk old event new)
    (hWell : ∀ entry ∈ event.entry, entry.op.act.StartsWell entry.reply)
    (hOld : ∀ row ∈ old, row.Consistent) (hNew : new = some row') : row'.Consistent := by
  cases hWrite with
  | kept => exact hOld row' hNew
  | added schedule now executeAt =>
      obtain rfl := Option.some.inj hNew
      exact consistent_pendingTask schedule now executeAt
  | marked row pid scope before now method new extra count hMarks =>
      obtain rfl := Option.some.inj hNew
      refine hMarks.consistent (fun hFailed => ?_) (hOld row rfl)
      exact (hWell _ rfl).1 (congrArg some hFailed)

/-- A finished row stays as it is for the rest of the run. -/
theorem finished_of_run {row : TaskModel} {later : TaskPool}
    (hRun : Run (taskMethods reading) startsWell first pool) (hIdle : first.Idle)
    (hLater : Run (taskMethods reading) startsWell pool later)
    (hRow : pool.shared.task pk = some row) (hFinished : row.state ∈ finishedStates) :
    later.shared.task pk = some row := by
  refine hLater.invariant (I := fun pool => pool.shared.task pk = some row) hRow ?_
  intro middle event next hMiddle hBefore hStep hWell
  obtain ⟨row', hRow', hSame | hForward⟩ :=
    (taskWrite_of_step (hRun.trans hMiddle) hIdle hStep pk).forward hWell hBefore
  · rw [hRow', hSame]
  · exact absurd hForward (not_forward_of_finished hFinished)

/-- **The history of a task.**  In every run that starts tasks well, the columns of
each row tell its state, its state only moves forward, and a finished row never
changes again. -/
theorem task_history {clock : Date}
    (hRun : Run (taskMethods reading) startsWell (.start (.empty clock)) pool) :
    KeepsHistory reading startsWell pool := by
  have hIdle : (Pool.start (.empty clock) : TaskPool).Idle := Pool.start_idle _
  constructor
  · refine hRun.invariant
      (I := fun pool => ∀ pk row, pool.shared.task pk = some row → row.Consistent) ?_ ?_
    · intro pk row hRow
      cases hRow
    · intro before event after hBefore hConsistent hStep hWell pk row hRow
      exact (taskWrite_of_step hBefore hIdle hStep pk).consistent hWell (hConsistent pk) hRow
  · intro event pool' hStep hWell pk row hRow
    exact (taskWrite_of_step hRun hIdle hStep pk).forward hWell hRow
  · intro later hLater pk row hRow hFinished
    exact finished_of_run hRun hIdle hLater hRow hFinished

/-! ## Runs of the sample task -/

instance : (act : Act) → (reply : act.Reply) → Decidable (act.StartsWell reply)
  | .updateTask _ newValues _, .ok (_ + 1) => inferInstanceAs (Decidable
      (newValues.state ≠ some .startError ∧ newValues.state ≠ some .failed))
  | .updateTask .., .ok 0 | .updateTask .., .error _ => isTrue trivial
  | .createSchedule _, _ | .findSchedules .., _ | .updateSchedule .., _ => isTrue trivial
  | .createTask _, _ | .findTasks .., _ | .startJob .., _ => isTrue trivial
  | .currentTimeUTC, _ | .createPrimaryKey, _ | .createLeaseId, _ => isTrue trivial
  | .retryDelay _, _ | .emit _, _ => isTrue trivial

instance (pool : TaskPool) (event : Event signature Database TaskCall)
    (pool' : TaskPool) : Decidable (startsWell pool event pool') := by
  unfold startsWell
  infer_instance

/-- The sample task is added and marked by the given methods, one after the other. -/
private def markSample (methods : List TaskMethod) : List (Turn TaskCall Answers) :=
  (TaskMethod.addTask "task" "job" (some 0) :: methods).zipIdx.flatMap fun (method, pid) =>
    [.spawn ⟨0, method⟩, .run pid {}]

/-- The sample task is queued, started and completed. -/
theorem sample_task_history :
    ∃ pool : TaskPool, (pool.shared.task "task").map (·.state) = some .completed ∧
      KeepsHistory strictlyBefore startsWell pool := by
  have hDriven : ((driverOver strictlyBefore TaskCall.program).drive
      (fun pool event pool' => decide (startsWell pool event pool'))
      (markSample [.markTaskQueued sampleTask, .markTaskStarted sampleTask "exec",
        .markTaskCompleted sampleTask "done"]) (.start (.empty 0))).any
      (fun pool => decide ((pool.shared.task "task").map (·.state) = some .completed)) =
        true := by
    decide +kernel
  obtain ⟨pool, hRun, hTest⟩ := Driver.exists_run_of_drive (A := startsWell)
    (fun _ _ _ => of_decide_eq_true) hDriven
  exact ⟨pool, of_decide_eq_true hTest, task_history hRun⟩

/-- **A start that fails does not finish.**  The row is in a finished state, and the
time it finished is not set. -/
theorem start_failed_unfinished :
    ¬ ∀ pool : TaskPool,
      Run (taskMethods strictlyBefore) (fun _ _ _ => True) (.start (.empty 0)) pool →
        KeepsHistory strictlyBefore (fun _ _ _ => True) pool := by
  intro hLaw
  have hDriven : ((driverOver strictlyBefore TaskCall.program).drive (fun _ _ _ => true)
      (markSample [.markTaskQueued sampleTask, .markTaskStartFailed sampleTask "down"])
      (.start (.empty 0))).any
      (fun pool => decide (∃ row ∈ pool.shared.task "task",
        row.state = .startError ∧ row.executionFinished = none)) = true := by
    decide +kernel
  obtain ⟨pool, hRun, hTest⟩ := Driver.exists_run_of_drive
    (A := fun _ _ _ => True) (fun _ _ _ _ => trivial) hDriven
  obtain ⟨row, hRow, hState, hUnfinished⟩ := of_decide_eq_true hTest
  have hFinished := ((hLaw pool hRun).consistent "task" row hRow).finished
  exact hFinished.mpr (by rw [hState]; decide) hUnfinished

end TernScheduler
