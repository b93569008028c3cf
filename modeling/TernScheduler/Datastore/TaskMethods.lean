import TernScheduler.Controller.Combined
import TernScheduler.Datastore.Contract
import TernScheduler.Datastore.Effects
import TernScheduler.Library.Sessions
import TernScheduler.System

/-!
# The task methods of the data store, by themselves

Any number of nodes add tasks and mark them, with the arguments that the controllers
give these methods, in any order; the table calls of all of them interleave.

* `taskMethods` is the system of such calls over one database.
* `Marks` lists what each method writes, and the state it expects.
* `TaskWrite` is the inversion of a step on the row of a task.
-/

namespace TernScheduler

open Interleaving Database

/-! ## The calls -/

/-- Where a task is marked as failed: by the call that started it, or by the notice
that it finished. -/
inductive FailureCause
  | startTask
  | taskFinished
  deriving DecidableEq, Repr

/-- The state a failing task is expected in. -/
def FailureCause.expected : FailureCause → TaskStateType
  | startTask => .queued
  | taskFinished => .started

/-- The state a failed task is put in. -/
def FailureCause.failed : FailureCause → TaskStateType
  | startTask => .failed
  | taskFinished => .completeError

/-- A method that writes a task row, and its arguments but for the time.  A task is
added as `createScheduledJob` and `addTaskDuplicateCheck` add it. -/
inductive TaskMethod
  | addTask (newTaskPk schedule : PrimaryKeyType) (executeAt : JsDate)
  | markTaskQueued (task : TaskModel)
  | markTaskStarted (task : TaskModel) (executionId : ExecutionJobId)
  | markTaskStartFailed (task : TaskModel) (reason : String)
  | markTaskCompleted (task : TaskModel) (info : String)
  | markTaskSkipped (task : TaskModel)
  | markTaskFailed (task : TaskModel) (cause : FailureCause) (info : String)

/-- A call of a method, and the time it is given. -/
structure TaskCall where
  now : Date
  method : TaskMethod

/-- The program of a call. -/
def TaskCall.program (call : TaskCall) : Js Unit :=
  match call.method with
  | .addTask newTaskPk schedule executeAt =>
      addTask (pendingTask newTaskPk schedule call.now executeAt)
  | .markTaskQueued task => markTaskQueued task call.now
  | .markTaskStarted task executionId => markTaskStarted task call.now executionId
  | .markTaskStartFailed task reason => markTaskStartFailed task call.now reason
  | .markTaskCompleted task info => markTaskCompleted task call.now info
  | .markTaskSkipped task => markTaskSkipped task call.now
  | .markTaskFailed task cause info =>
      markTaskFailed task call.now cause.expected cause.failed info

/-- The task methods over one database. -/
def taskMethods (reading : BeforeDateReading) :
    System signature Database TaskCall (Except JsError Unit) :=
  overDatabase reading TaskCall.program

/-- A state of the system. -/
abbrev TaskPool := Pool signature Database TaskCall (Except JsError Unit)

/-! ## The protocol of a call -/

/-- The move a method makes on the row of a task: the state it expects, the state it
writes, and the other columns it writes. -/
inductive Marks (now : Date) :
    TaskMethod → PrimaryKeyType → TaskStateType → TaskStateType → TaskPatch → Prop
  | queued (task : TaskModel) :
      Marks now (.markTaskQueued task) task.pk .pending .queued
        { executionQueued := some (some now) }
  | started (task : TaskModel) (executionId : ExecutionJobId) :
      Marks now (.markTaskStarted task executionId) task.pk .queued .started
        { executionStarted := some (some now), executionJobId := some (some executionId) }
  | startFailed (task : TaskModel) (reason : String) :
      Marks now (.markTaskStartFailed task reason) task.pk .queued .startError
        { executionStarted := some (some now), completedInfo := some (some reason) }
  | completed (task : TaskModel) (info : String) :
      Marks now (.markTaskCompleted task info) task.pk .started .completed
        { executionFinished := some (some now), completedInfo := some (some info) }
  | skipped (task : TaskModel) :
      Marks now (.markTaskSkipped task) task.pk .queued .completed
        { executionFinished := some (some now)
          completedInfo := some (some "\x7b\"skipped\":true\x7d") }
  | failed (task : TaskModel) (cause : FailureCause) (info : String) :
      Marks now (.markTaskFailed task cause info) task.pk cause.expected cause.failed
        { executionFinished := some (some now), completedInfo := some (some info) }

/-- What a call may do: add its pending task, make its move, or look a task up. -/
def TaskMay (call : TaskCall) : Act → Prop
  | .createTask row =>
      ∃ newTaskPk schedule executeAt, row = pendingTask newTaskPk schedule call.now executeAt
  | .updateTask pk newValues conditional =>
      ∃ old new extra, Marks call.now call.method pk old new extra ∧
        newValues = { extra with state := some new } ∧ conditional = stateEquals old
  | .findTasks .. => True
  | _ => False

/-- The protocol of a call. -/
def taskProtocol (call : TaskCall) : Protocol signature Unit where
  next state _ _ := state
  may _ operation := TaskMay call operation.act

/-- `markTaskState` makes the move of its method, and may look the task up. -/
private theorem honors_mark {call : TaskCall} {pk : PrimaryKeyType}
    {old new : TaskStateType} {extra : TaskPatch}
    (hMarks : Marks call.now call.method pk old new extra) :
    (markTaskState pk old new extra).Honors (taskProtocol call) (fun _ _ => True)
      (fun _ _ => True) () := by
  refine Promise.sat_bind.mpr ((honors_updateTask _ _ _).mpr
    ⟨⟨old, new, extra, hMarks, rfl, rfl⟩, fun count => ?_, fun _ => trivial⟩)
  split
  · trivial
  · refine Promise.sat_bind.mpr ((honors_findTasks _ _ _).mpr
      ⟨trivial, fun tasks => ?_, fun _ => trivial⟩)
    cases tasks <;> trivial

/-- **Every call follows its protocol.** -/
theorem TaskCall.honors_protocol (call : TaskCall) :
    call.program.Honors (taskProtocol call) (fun _ _ => True) (fun _ _ => True) () := by
  obtain ⟨now, method⟩ := call
  cases method with
  | addTask newTaskPk schedule executeAt =>
      exact (honors_addTask _).mpr
        ⟨⟨newTaskPk, schedule, executeAt, rfl⟩, fun _ => trivial, fun _ => trivial⟩
  | markTaskQueued task => exact honors_mark (.queued task)
  | markTaskStarted task executionId => exact honors_mark (.started task executionId)
  | markTaskStartFailed task reason => exact honors_mark (.startFailed task reason)
  | markTaskCompleted task info => exact honors_mark (.completed task info)
  | markTaskSkipped task => exact honors_mark (.skipped task)
  | markTaskFailed task cause info => exact honors_mark (.failed task cause info)

/-! ## Steps -/

/-- What a step does to the row of one task. -/
inductive TaskWrite (pk : PrimaryKeyType) :
    Option TaskModel → Event signature Database TaskCall → Option TaskModel → Prop
  | kept (row : Option TaskModel) (event : Event signature Database TaskCall) :
      TaskWrite pk row event row
  | added (schedule : PrimaryKeyType) (now : Date) (executeAt : JsDate)
      (event : Event signature Database TaskCall) :
      TaskWrite pk none event (some (pendingTask pk schedule now executeAt))
  | marked (row : TaskModel) (pid : Nat) (scope : Scope) (before : Database) (now : Date)
      (method : TaskMethod) (new : TaskStateType) (extra : TaskPatch) (count : Nat)
      (hMarks : Marks now method pk row.state new extra) :
      TaskWrite pk (some row)
        (.ran ⟨pid, ⟨scope, .updateTask pk { extra with state := some new }
          (stateEquals row.state)⟩, Except.ok (count + 1), before⟩)
        (some (TaskPatch.apply { extra with state := some new } row))

variable {reading : BeforeDateReading}
  {A : RunCondition signature Database TaskCall (Except JsError Unit)}
  {first pool pool' : TaskPool} {event : Event signature Database TaskCall}

theorem taskProtocol_of_run (hRun : Run (taskMethods reading) A first pool)
    (hIdle : first.Idle) :
    pool.Honors taskProtocol (fun _ => ()) fun _ _ _ => True := by
  refine hRun.honors (fun call => ?_) hIdle
  refine Prog.Sat.mono call.honors_protocol fun after result _ => trivial

/-- **Inversion of a step** on the row of a task. -/
theorem taskWrite_of_step (hRun : Run (taskMethods reading) A first pool)
    (hIdle : first.Idle) (hStep : Step (taskMethods reading) pool event pool')
    (pk : PrimaryKeyType) :
    TaskWrite pk (pool.shared.task pk) event (pool'.shared.task pk) := by
  cases hStep.moves (hRun.logOwned hIdle) (taskProtocol_of_run hRun hIdle) with
  | quiet _ _ hShared _ _ _ =>
      rw [(Database.tables_of_quiet hShared).2 pk]
      exact .kept _ _
  | performed pid call state op reply _ hState hMay hExec hLog hStates =>
      -- only the row of its key is written, from the state that the method names
      obtain ⟨scope, act⟩ := op
      have hEffect : TaskEffect reading pool.shared act reply pool'.shared :=
        Exec.taskEffect hExec
      cases hEffect with
      | kept hNone hTasks =>
          rw [hTasks]
          exact .kept _ _
      | created row hAbsent hTasks =>
          obtain ⟨newTaskPk, schedule, executeAt, rfl⟩ := hMay
          rw [hTasks]
          split
          · rename_i hPk
            rw [hPk, hAbsent]
            exact .added schedule call.now executeAt _
          · exact .kept _ _
      | updated taskPk newValues conditional count row hRow hHolds hTasks =>
          obtain ⟨old, new, extra, hMarks, rfl, rfl⟩ := hMay
          obtain rfl : row.state = old := (holds_stateEquals old).mp hHolds
          rw [hTasks]
          split
          · rename_i hPk
            rw [hPk, hRow]
            exact .marked row pid scope pool.shared call.now call.method new extra count hMarks
          · exact .kept _ _

end TernScheduler
