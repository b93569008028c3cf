import TernScheduler.Controller.Session

/-!
# The contract of a controller call

Which operation a call may issue, as a condition on its own session: it takes at
most one lease, it touches tasks only while it holds that lease, every task
update expects the state the session justifies, and every task it adds was asked
for by a strategy.  Nothing here mentions the database, so a call is checked
against its contract by following its program once, for all replies.
-/

namespace TernScheduler

open Interleaving

/-! ## What the strategies answer -/

/-- What the creation strategy of a job asks for when a task of it starts, if it
is of the kind that is asked then and does not throw. -/
def Node.afterStart (node : Node) (now : Date) (sched : ScheduledJobDataModel) :
    Option TaskCreationAction :=
  match node.taskCreationReg.get sched.taskCreationStrategy with
  | .ok (.start _ createAfterTaskStarts) =>
      (createAfterTaskStarts now sched.toScheduledJobModel).toOption
  | _ => none

/-- What the creation strategy of a job asks for when a task of it finishes, if
it is of the kind that is asked then and does not throw. -/
def Node.afterFinish (node : Node) (now : Date) (sched : ScheduledJobDataModel) :
    Option TaskCreationAction :=
  match node.taskCreationReg.get sched.taskCreationStrategy with
  | .ok (.finish _ createAfterTaskFinishes) =>
      (createAfterTaskFinishes now sched.toScheduledJobModel).toOption
  | _ => none

/-- What the retry strategy of a job answers for a failed task, if it does not
throw. -/
def Node.retryAnswer (node : Node) (sched : ScheduledJobDataModel)
    (task : TaskModel) (reason : String) : Option (Option JsNumber) :=
  match node.retryReg.get sched.retryStrategy with
  | .ok retry => (retry sched.toScheduledJobModel task reason).toOption
  | _ => none

/-- What is asked for once a task has failed: a retry, or what follows a
finished task. -/
def Node.afterFailure (node : Node) (now : Date) (sched : ScheduledJobDataModel)
    (task : TaskModel) (reason : String) : Option TaskCreationAction :=
  match node.retryAnswer sched task reason with
  | some none => node.afterFinish now sched
  | some (some seconds) => some (.queue (retryTime node.zone now seconds))
  | none => none

/-- What is asked for once a task has finished in the given way. -/
def Node.afterResult (node : Node) (now : Date) (sched : ScheduledJobDataModel)
    (task : TaskModel) : JobExecutionState → Option TaskCreationAction
  | .completed _ _ => node.afterFinish now sched
  | .failed _ info => node.afterFailure now sched task (info.getD "")
  | _ => none

/-- What the strategies ask a call to do about the next task, given the row it
reads under its lease. -/
def Request.asks (request : Request) (task : TaskModel)
    (sched : ScheduledJobDataModel) : Option TaskCreationAction :=
  match request.call with
  | .startTask _ => request.node.afterStart request.now sched
  | .taskFinished _ result => request.node.afterResult request.now sched task result
  | _ => none

/-! ## What a session has established -/

/-- The session looked for tasks of the job in the given state, found none, and
has not put one into that state since. -/
def NoneIn (job : PrimaryKeyType) (state : TaskStateType) : List Fact → Prop
  | [] => False
  | .foundTasks limit conditional reply :: facts =>
      (0 < limit ∧ conditional = taskOf job [state] ∧ reply = .ok []) ∨
        NoneIn job state facts
  | .wroteTask _ newValues _ _ :: facts =>
      newValues.state ≠ some state ∧ NoneIn job state facts
  | .createdTask row _ :: facts => row.state ≠ state ∧ NoneIn job state facts
  | .startedJob .. :: facts => NoneIn job state facts

/-- The session moved the task from one state to another. -/
def Moved (pk : PrimaryKeyType) (old new : TaskStateType) (fact : Fact) : Prop :=
  ∃ newValues count,
    fact = .wroteTask pk newValues (stateEquals old) (.ok (count + 1)) ∧
      newValues.state = some new

/-- A task update that moved no task. -/
def Refused (fact : Fact) : Prop :=
  ∃ pk newValues conditional reply,
    fact = .wroteTask pk newValues conditional reply ∧
      ∀ count, reply ≠ .ok (count + 1)

/-- The duplicate strategy was shown the started tasks of the job, let the task
run, and the job framework was asked to run it. -/
def Cleared (node : Node) (sched : ScheduledJobDataModel) (task : TaskModel)
    (facts : List Fact) : Prop :=
  ∃ dup found answer earlier,
    node.duplicateTaskReg.get sched.duplicateStrategy = .ok dup ∧
      dup.shouldSkip sched.toScheduledJobModel found task = .ok false ∧
      facts =
        .startedJob task.pk (.ok answer) ::
          .foundTasks dup.duplicateFindCount (taskOf sched.pk [.started]) (.ok found) ::
            earlier

/-- The session moved the task to started, and then from queued to failed. -/
def FailedAfterStart (facts : List Fact) : Prop :=
  ∃ pk first second earlier,
    Moved pk .queued .started first ∧ Moved pk .queued .failed second ∧
      second :: first :: earlier <:+ facts

/-- The result a completion notice may carry. -/
def JobExecutionState.Finished : JobExecutionState → Prop
  | .completed _ _ | .failed _ _ => True
  | _ => False

/-! ## The guards -/

/-- `createScheduledJobAlone` creates its row leased by its own id. -/
def MayCreate (request : Request) (session : Session)
    (row : ScheduledJobDataModel) : Prop :=
  ∃ schedule leaseId expires,
    request.call = .createScheduledJob schedule ∧ session.job = none ∧
      session.leaseId = some leaseId ∧ session.facts = [] ∧
      row.leaseOwner = some leaseId ∧ row.leaseExpires = some expires ∧
      row.updateState = some .addTask ∧ row.repairState = none ∧ row.pasture = false

/-- The job a call takes the lease of. -/
def Leases (request : Request) (session : Session) (pk : PrimaryKeyType) : Prop :=
  match request.call with
  | .startTask _ | .taskFinished .. =>
      ∃ task, session.task = some task ∧ pk = task.schedule
  | .disableSchedule schedule _ => pk = schedule.pk
  | _ => False

/-- `leaseScheduledJob`: take the lease of a job nobody holds. -/
def MayAcquire (request : Request) (session : Session) (pk : PrimaryKeyType)
    (newValues : ScheduledJobPatch) (conditional : Conditional ScheduledJobColumn) :
    Prop :=
  ∃ operation taskPk leaseId expires,
    session.job = none ∧ session.closed = false ∧ session.leaseId = some leaseId ∧
      Leases request session pk ∧
      newValues = leasePatch operation taskPk leaseId expires ∧
      conditional = notUpdating

/-- `repairExpiredLeaseForScheduledJob`: take over an expired lease. -/
def MayTakeOver (request : Request) (session : Session) (pk : PrimaryKeyType)
    (newValues : ScheduledJobPatch) (conditional : Conditional ScheduledJobColumn) :
    Prop :=
  ∃ schedule leaseId expires repairState,
    request.call = .repairExpiredSchedule schedule ∧ pk = schedule.pk ∧
      session.job = none ∧ session.closed = false ∧ session.leaseId = some leaseId ∧
      newValues = repairPatch leaseId expires repairState ∧
      conditional = leaseExpiredBefore request.now

/-- The pasture flag a call may give the lease up with. -/
def MayLeavePasture (request : Request) (session : Session) (pasture : Bool) : Prop :=
  match request.call with
  | .disableSchedule .. => pasture = true
  | .taskFinished .. =>
      pasture = false → ∃ task sched,
        session.task = some task ∧ session.sched = some sched ∧
          (request.asks task sched = some .disable →
            ∃ fact ∈ session.facts, Refused fact)
  | .repairExpiredSchedule _ =>
      pasture = false → ∃ sched, session.sched = some sched ∧ sched.pasture = false
  | _ => True

/-- `releaseScheduledJobLease` and `markLeasedScheduledJobNeedsRepair`. -/
def MayClose (request : Request) (session : Session) (pk : PrimaryKeyType)
    (newValues : ScheduledJobPatch) (conditional : Conditional ScheduledJobColumn) :
    Prop :=
  ∃ leaseId pasture pastureReason,
    session.leaseId = some leaseId ∧ session.closed = false ∧
      (∀ job, session.job = some job →
        pk = job ∨ ∃ sched, session.sched = some sched ∧ pk = sched.pk) ∧
      (newValues = releasePatch pasture pastureReason ∨
        ∃ now, newValues = needsRepairPatch now pasture pastureReason) ∧
      conditional = leasedBy leaseId ∧ MayLeavePasture request session pasture

/-- A lookup of tasks before a lease is taken is by job id. -/
def MayFindTasks (request : Request) (session : Session) (start limit : Nat)
    (conditional : Conditional TaskColumn) : Prop :=
  start = 0 ∧ (session.job = none →
    limit = 2 ∧ ∃ execJobId result,
      request.call = .taskFinished execJobId result ∧
        conditional = jobIdEquals execJobId)

/-- The state changes a call may ask for, and what justifies each. -/
inductive MayMove (request : Request) (sched : ScheduledJobDataModel)
    (task : TaskModel) (facts : List Fact) :
    TaskStateType → TaskStateType → Option (Option ExecutionJobId) → Prop
  | queue (hCall : request.call = .startTask task) (hFirst : facts = []) :
      MayMove request sched task facts .pending .queued none
  | start (jobId : ExecutionJobId) (hCall : request.call = .startTask task)
      (hCleared : Cleared request.node sched task facts) :
      MayMove request sched task facts .queued .started (some (some jobId))
  | abandon (new : TaskStateType) (hCall : request.call = .startTask task)
      (hNew : new = .startError ∨ new = .completed ∨ new = .failed) :
      MayMove request sched task facts .queued new none
  | finish (new : TaskStateType) (hNew : new = .completed ∨ new = .completeError) :
      MayMove request sched task facts .started new none

/-- The task a call may add. -/
def MayAdd (request : Request) (session : Session) (row : TaskModel) : Prop :=
  row.state = .pending ∧ row.executionJobId = none ∧
    ∃ sched, session.sched = some sched ∧ row.schedule = sched.pk ∧
      ((∃ schedule, request.call = .createScheduledJob schedule ∧ session.facts = []) ∨
        ∃ task, session.task = some task ∧ NoneIn sched.pk .pending session.facts ∧
          ((∃ runAt, request.asks task sched = some (.queue runAt)) ∨
            FailedAfterStart session.facts))

/-- The operations a call may issue, but for the scope they are issued in. -/
def MayAct (request : Request) (scope : Scope) (session : Session) : Act → Prop
  | .createSchedule row => MayCreate request session row
  | .findSchedules start limit conditional =>
      ∃ pk, start = 0 ∧ limit = 1 ∧ conditional = sjPkEquals pk ∧
        ∀ job, session.job = some job →
          pk = job ∨ ∃ sched, session.sched = some sched ∧ pk = sched.pk
  | .updateSchedule pk newValues conditional =>
      MayAcquire request session pk newValues conditional ∨
        MayTakeOver request session pk newValues conditional ∨
        MayClose request session pk newValues conditional
  | .createTask row => (∃ leaseId, scope = .callback leaseId) ∧ MayAdd request session row
  | .findTasks start limit conditional =>
      MayFindTasks request session start limit conditional
  | .updateTask pk newValues conditional =>
      (∃ leaseId, scope = .callback leaseId) ∧
        ∃ sched task old new,
          session.sched = some sched ∧ session.task = some task ∧ pk = task.pk ∧
            session.job = some task.schedule ∧ conditional = stateEquals old ∧
            newValues.state = some new ∧
            MayMove request sched task session.facts old new newValues.executionJobId
  | .startJob taskId _ _ =>
      (∃ leaseId, scope = .callback leaseId) ∧
        ∃ task found queued limit conditional,
          request.call = .startTask task ∧ taskId = task.pk ∧
            Moved task.pk .pending .queued queued ∧
            session.facts = [.foundTasks limit conditional (.ok found), queued]
  | .currentTimeUTC | .createPrimaryKey => True
  | .createLeaseId => session.leaseId = none ∧ session.job = none
  | .retryDelay _ | .emit _ => True

/-- The operations a call may issue: those of its contract, and those labelled
as work under a lease only while the session holds that lease. -/
def May (request : Request) (session : Session) (operation : Operation) : Prop :=
  (∀ leaseId, operation.scope = .callback leaseId →
    session.leaseId = some leaseId ∧ session.job ≠ none ∧ session.closed = false) ∧
  MayAct request operation.scope session operation.act

/-- The protocol of a controller call. -/
def contract (request : Request) : Protocol signature Session where
  next session operation reply := session.next operation.act reply
  may session operation := May request session operation

/-- What a call has done when it settles: once it was granted the lease and read
the job, a completion notice has tried to move the task out of started. -/
def Settles (request : Request) (session : Session) : Prop :=
  ∀ execJobId result, request.call = .taskFinished execJobId result →
    result.Finished → session.job ≠ none → session.lost = false →
    ∃ task newValues reply, session.task = some task ∧
      .wroteTask task.pk newValues (stateEquals .started) reply ∈ session.facts ∧
      (newValues.state = some .completed ∨ newValues.state = some .completeError)

end TernScheduler
