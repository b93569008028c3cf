import TernScheduler.Controller.Combined
import TernScheduler.Controller.Repair
import TernScheduler.Library.Drive

/-!
# The running system

Nodes run controller calls against one database.  A request is a call together
with the configuration of the node that runs it and the `now` it was given; the
pool interleaves any number of them, one operation at a time.
-/

namespace TernScheduler

open Interleaving

/-- A call of the controller. -/
inductive Call
  | createScheduledJob (schedule : NewScheduledJob)
  | startTask (task : TaskModel)
  | taskFinished (execJobId : ExecutionJobId) (result : JobExecutionState)
  | disableSchedule (schedule : ScheduledJobModel) (reason : Option String)
  | repairExpiredSchedule (srcSchedule : ScheduledJobModel)

/-- The call creates a scheduled job. -/
def Call.creates : Call → Bool
  | .createScheduledJob _ => true
  | _ => false

/-- The call moves a task on, and may add the next one. -/
def Call.advances : Call → Bool
  | .startTask _ | .taskFinished .. => true
  | _ => false

/-- A call, the node that runs it, and the time it was given. -/
structure Request where
  node : Node
  now : Date
  call : Call

/-- The program of a call.  Only `createScheduledJob` resolves with a value. -/
def Request.program (request : Request) : Js (Option PrimaryKeyType) :=
  match request.call with
  | .createScheduledJob schedule =>
      createScheduledJob request.node schedule request.now
  | .startTask task => do
      startTask request.node task request.now
      pure none
  | .taskFinished execJobId result => do
      taskFinished request.node execJobId result request.now
      pure none
  | .disableSchedule schedule reason => do
      disableSchedule request.node schedule reason request.now
      pure none
  | .repairExpiredSchedule srcSchedule => do
      repairExpiredSchedule request.node srcSchedule request.now
      pure none

/-- What a finished call leaves: the value it resolved with, or its rejection. -/
abbrev Settled : Type := Except JsError (Option PrimaryKeyType)

/-- Programs of any number of nodes over one database.  Between operations the
clock moves on. -/
def overDatabase {κ ρ : Type} (reading : BeforeDateReading)
    (program : κ → Prog signature ρ) : System signature Database κ ρ where
  program := program
  exec db operation reply after := Database.Exec reading db operation.act reply after
  drift db after := ∃ clock, db.clock ≤ clock ∧ after = { db with clock := clock }

/-- The scheduler: calls of any number of nodes over one database. -/
def scheduler (reading : BeforeDateReading) :
    System signature Database Request Settled :=
  overDatabase reading Request.program

/-- A state of the system. -/
abbrev SchedulerPool := Pool signature Database Request Settled

/-- An operation the system has performed. -/
abbrev SchedulerEntry := Entry signature Database

/-- No rows, no calls, and no operation performed yet. -/
def emptyPool (clock : Date) : SchedulerPool := .start (.empty clock)

theorem emptyPool_idle (clock : Date) : (emptyPool clock).Idle :=
  Pool.start_idle (.empty clock)

/-- Every interleaving, with nothing assumed of the schedule. -/
def anySchedule : RunCondition signature Database Request Settled :=
  fun _ _ _ => True

/-- The lease id an operation drew, if it drew one. -/
def Act.drawn : (act : Act) → act.Reply → Option LeaseIdType
  | .createLeaseId, leaseId => some leaseId
  | _, _ => none

/-- No lease id is drawn twice. -/
def freshLeaseIds {κ ρ : Type} : RunCondition signature Database κ ρ :=
  fun pool event _ => ∀ entry ∈ event.entry,
    ∀ leaseId ∈ entry.op.act.drawn entry.reply,
      ∀ other ∈ pool.log, other.op.act.drawn other.reply ≠ some leaseId

instance {κ ρ : Type} (pool : Pool signature Database κ ρ)
    (event : Event signature Database κ) (pool' : Pool signature Database κ ρ) :
    Decidable (freshLeaseIds pool event pool') := by
  unfold freshLeaseIds
  infer_instance

/-! ## Concrete runs -/

/-- How the environment answers one operation: the values it hands out, or the
error a store call is rejected with. -/
structure Answers where
  leaseId : LeaseIdType := ""
  primaryKey : PrimaryKeyType := ""
  time : Date := 0
  job : Except JsError JobExecutionState := .ok (.running "")
  rejects : Option JsError := none

/-- The answer to a call that is not a store call. -/
def Answers.answer (answers : Answers) : (act : Act) → Option act.Reply
  | .startJob .. => some answers.job
  | .currentTimeUTC => some answers.time
  | .createPrimaryKey => some answers.primaryKey
  | .createLeaseId => some answers.leaseId
  | .retryDelay _ => some ()
  | .emit _ => some ()
  | _ => none

/-- The reply to an operation, and the database after it. -/
def Answers.resolve (reading : BeforeDateReading) (answers : Answers)
    (db : Database) (operation : Operation) :
    Option (operation.act.Reply × Database) :=
  match answers.rejects with
  | some error => (operation.act.rejection error).map fun reply => (reply, db)
  | none =>
      match db.serve reading operation.act with
      | some served => some served
      | none => (answers.answer operation.act).map fun reply => (reply, db)

theorem Answers.exec_of_resolve {reading : BeforeDateReading} {answers : Answers}
    {db after : Database} {operation : Operation} {reply : operation.act.Reply}
    (h : answers.resolve reading db operation = some (reply, after)) :
    Database.Exec reading db operation.act reply after := by
  obtain ⟨scope, act⟩ := operation
  unfold Answers.resolve at h
  split at h
  · rename_i error _
    obtain ⟨given, hGiven, hPair⟩ := Option.map_eq_some_iff.mp h
    obtain ⟨rfl, rfl⟩ := Prod.mk.inj hPair
    exact .rejected error hGiven
  · split at h
    · rename_i served hServed
      cases h
      exact .served hServed
    · rename_i hNone
      obtain ⟨given, hGiven, hPair⟩ := Option.map_eq_some_iff.mp h
      obtain ⟨rfl, rfl⟩ := Prod.mk.inj hPair
      refine .answered _ fun hStore => ?_
      cases act <;> first | exact False.elim hStore | cases hGiven

/-- The driver of concrete runs: the environment answers as told, and moves the
clock to the time it is told. -/
def driverOver {κ ρ : Type} (reading : BeforeDateReading)
    (program : κ → Prog signature ρ) : Driver (overDatabase reading program) Answers where
  resolve answers db operation := answers.resolve reading db operation
  move answers db :=
    if db.clock ≤ answers.time then some { db with clock := answers.time } else none
  resolve_exec _ _ _ _ _ h := Answers.exec_of_resolve h
  move_drift answers db after h := by
    split at h
    · rename_i hClock
      exact ⟨answers.time, hClock, (Option.some.inj h).symm⟩
    · cases h

/-- The driver of the scheduler. -/
def driver (reading : BeforeDateReading) : Driver (scheduler reading) Answers :=
  driverOver reading Request.program

/-- A node whose strategies are given, in the UTC time zone, with ten-second
leases. -/
def sampleNode (strategy : TaskCreationStrategy) (retrySecondsDelay : List Int) :
    Node where
  leaseBehavior := { leaseTimeSeconds := 10, retrySecondsDelay := retrySecondsDelay }
  retryReg _ := some fun _ _ _ => .ok none
  taskCreationReg _ := some strategy
  duplicateTaskReg _ := some alwaysSkipDuplicateTaskStrategy
  zone := .utc

/-- A strategy that asks for the next task when one starts. -/
def sampleStart : TaskCreationStrategy :=
  .start (fun now _ => .ok (some now)) fun now _ => .ok (.queue (some now))

/-- A strategy that asks for the next task when one finishes. -/
def sampleFinish : TaskCreationStrategy :=
  .finish (fun now _ => .ok (some now)) fun now _ => .ok (.queue (some now))

/-- The definition the sample job is created from. -/
def sampleSchedule : NewScheduledJob where
  displayName := ""
  description := ""
  duplicateStrategy := ""
  jobName := ""
  jobContext := ""
  retryStrategy := ""
  taskCreationStrategy := ""
  scheduleDefinition := ""

/-- A scheduled job nobody holds the lease of. -/
def sampleJob (pasture : Bool) : ScheduledJobDataModel where
  toNewScheduledJob := sampleSchedule
  pk := "job"
  updateState := none
  updateTaskPk := none
  pasture := pasture
  pastureReason := none
  createdOn := 0
  repairState := none
  leaseOwner := none
  leaseExpires := none

/-- A pending task of the sample job. -/
def sampleTask : TaskModel := pendingTask "task" "job" 0 (some 0)

/-- The sample job and one task of it, before anything was started. -/
def samplePool (pasture : Bool) (task : TaskModel) : SchedulerPool where
  shared :=
    { scheduledJobTable := ⟨[sampleJob pasture], List.nodup_singleton _⟩
      taskTable := ⟨[task], List.nodup_singleton _⟩
      clock := 0 }
  procs := []
  log := []

/-- A node performs its next operations, all answered alike. -/
def turns (pid count : Nat) (answers : Answers) : List (Turn Request Answers) :=
  List.replicate count (.run pid answers)

/-- A node creates the sample job and its first task. -/
def createSample (strategy : TaskCreationStrategy) : List (Turn Request Answers) :=
  .spawn ⟨sampleNode strategy [], 0, .createScheduledJob sampleSchedule⟩ ::
    .run 0 { leaseId := "create" } :: .run 0 { primaryKey := "job" } ::
      turns 0 5 { primaryKey := "task" }

theorem samplePool_idle (pasture : Bool) (task : TaskModel) :
    (samplePool pasture task).Idle := ⟨rfl, rfl⟩

end TernScheduler
