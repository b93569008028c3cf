import TernScheduler.Datastore.Contract
import TernScheduler.System

/-!
# Sessions

What a call has learned and done so far: the lease id it drew, the job whose
lease it was granted, the rows it read, and, in order, what it did to tasks.
A session is computed from the operations of one call alone; it is the state of
the protocol every controller call is shown to follow.
-/

namespace TernScheduler

open Interleaving

/-- One thing a call did about tasks, and the answer it got. -/
inductive Fact
  | foundTasks (limit : Nat) (conditional : Conditional TaskColumn)
      (reply : Except JsError (List TaskModel))
  | wroteTask (pk : PrimaryKeyType) (newValues : TaskPatch)
      (conditional : Conditional TaskColumn) (reply : Except JsError Nat)
  | createdTask (row : TaskModel) (reply : Except JsError Unit)
  | startedJob (taskId : String) (reply : Except JsError JobExecutionState)

/-- What a call knows.  `task` is the task it is about, `job` the scheduled job
whose lease it was granted, and `sched` the row it last read of that job; `lost`
says that such a read gave no row, and `closed` that the call gave the lease up
or marked the job as needing repair. -/
structure Session where
  task : Option TaskModel := none
  leaseId : Option LeaseIdType := none
  job : Option PrimaryKeyType := none
  sched : Option ScheduledJobDataModel := none
  lost : Bool := false
  closed : Bool := false
  facts : List Fact := []

namespace Session

/-- Add a fact; the facts are newest first. -/
def record (session : Session) (fact : Fact) : Session :=
  { session with facts := fact :: session.facts }

/-- After an update of a schedule row: writing a lease owner is taking the
lease, any other write is made to give it up. -/
def afterUpdate (session : Session) (pk : PrimaryKeyType)
    (newValues : ScheduledJobPatch) : Except JsError Nat → Session
  | .ok (_ + 1) =>
      match newValues.leaseOwner with
      | some (some _) => { session with job := some pk }
      | _ => { session with closed := true }
  | _ => session

/-- After reading a schedule row: only a read made with a lease is kept. -/
def afterRead (session : Session) (reply : Except JsError (List ScheduledJobDataModel)) :
    Session :=
  match session.job, reply with
  | some _, .ok (row :: _) => { session with sched := some row }
  | some _, _ => { session with lost := true }
  | none, _ => session

theorem afterRead_of_unleased {session : Session} (hJob : session.job = none)
    (reply : Except JsError (List ScheduledJobDataModel)) :
    session.afterRead reply = session := by
  unfold afterRead
  rw [hJob]

/-- After looking tasks up: before a lease is taken, a single row found is the
task the call is about. -/
def afterLookup (session : Session) (limit : Nat)
    (conditional : Conditional TaskColumn) (reply : Except JsError (List TaskModel)) :
    Session :=
  match session.job, reply with
  | some _, reply => session.record (.foundTasks limit conditional reply)
  | none, .ok [row] => { session with task := some row }
  | none, _ => session

/-- The session after one more call and its reply. -/
def next (session : Session) : (act : Act) → act.Reply → Session
  | .createSchedule row, .ok _ =>
      { session with job := some row.pk, sched := some row }
  | .createSchedule _, .error _ => session
  | .findSchedules .., reply => session.afterRead reply
  | .updateSchedule pk newValues _, reply => session.afterUpdate pk newValues reply
  | .createTask row, reply => session.record (.createdTask row reply)
  | .findTasks _ limit conditional, reply =>
      session.afterLookup limit conditional reply
  | .updateTask pk newValues conditional, reply =>
      session.record (.wroteTask pk newValues conditional reply)
  | .startJob taskId _ _, reply => session.record (.startedJob taskId reply)
  | .currentTimeUTC, _ => session
  | .createPrimaryKey, _ => session
  | .createLeaseId, leaseId => { session with leaseId := some leaseId }
  | .retryDelay _, _ => session
  | .emit _, _ => session

/-- The session a call starts from. -/
def start : Call → Session
  | .startTask task => { task := some task }
  | _ => {}

@[simp] theorem facts_start (call : Call) : (start call).facts = [] := by
  cases call <;> rfl

@[simp] theorem leaseId_start (call : Call) : (start call).leaseId = none := by
  cases call <;> rfl

@[simp] theorem job_start (call : Call) : (start call).job = none := by
  cases call <;> rfl

@[simp] theorem sched_start (call : Call) : (start call).sched = none := by
  cases call <;> rfl

/-- The session of a call at work: the task and the row it works on, and what it
did so far. -/
def working (task : TaskModel) (leaseId : LeaseIdType)
    (sched : ScheduledJobDataModel) (job : PrimaryKeyType) (facts : List Fact) :
    Session where
  task := some task
  leaseId := some leaseId
  job := some job
  sched := some sched
  facts := facts

/-- The session of a creation at work on the row it created. -/
def creating (leaseId : LeaseIdType) (sched : ScheduledJobDataModel)
    (facts : List Fact) : Session where
  leaseId := some leaseId
  job := some sched.pk
  sched := some sched
  facts := facts

end Session

/-! ## What an operation changes -/

/-- The fact an operation adds to a session at work. -/
def Act.fact : (act : Act) → act.Reply → Option Fact
  | .createTask row, reply => some (.createdTask row reply)
  | .findTasks _ limit conditional, reply =>
      some (.foundTasks limit conditional reply)
  | .updateTask pk newValues conditional, reply =>
      some (.wroteTask pk newValues conditional reply)
  | .startJob taskId _ _, reply => some (.startedJob taskId reply)
  | _, _ => none

/-- What one operation can change of a session. -/
inductive SessionChange (session : Session) :
    (act : Act) → act.Reply → Session → Prop
  | same {act : Act} {reply : act.Reply} : SessionChange session act reply session
  | recorded {act : Act} {reply : act.Reply} (fact : Fact)
      (hFact : act.fact reply = some fact)
      (hJob : ∀ start limit conditional, act = .findTasks start limit conditional →
        session.job ≠ none) :
      SessionChange session act reply (session.record fact)
  | drew (leaseId : LeaseIdType) :
      SessionChange session .createLeaseId leaseId
        { session with leaseId := some leaseId }
  | found (start limit : Nat) (conditional : Conditional TaskColumn) (row : TaskModel)
      (hJob : session.job = none) :
      SessionChange session (.findTasks start limit conditional) (Except.ok [row])
        { session with task := some row }
  | read (start limit : Nat) (conditional : Conditional ScheduledJobColumn)
      (row : ScheduledJobDataModel) (rest : List ScheduledJobDataModel)
      (hJob : session.job ≠ none) :
      SessionChange session (.findSchedules start limit conditional)
        (Except.ok (row :: rest)) { session with sched := some row }
  | lost (start limit : Nat) (conditional : Conditional ScheduledJobColumn)
      (reply : Except JsError (List ScheduledJobDataModel)) (hJob : session.job ≠ none)
      (hNone : ∀ row rest, reply ≠ .ok (row :: rest)) :
      SessionChange session (.findSchedules start limit conditional) reply
        { session with lost := true }
  | created (row : ScheduledJobDataModel) :
      SessionChange session (.createSchedule row) (Except.ok ())
        { session with job := some row.pk, sched := some row }
  | granted (pk : PrimaryKeyType) (newValues : ScheduledJobPatch)
      (conditional : Conditional ScheduledJobColumn) (count : Nat)
      (leaseId : LeaseIdType) (hOwner : newValues.leaseOwner = some (some leaseId)) :
      SessionChange session (.updateSchedule pk newValues conditional)
        (Except.ok (count + 1)) { session with job := some pk }
  | closed (pk : PrimaryKeyType) (newValues : ScheduledJobPatch)
      (conditional : Conditional ScheduledJobColumn) (count : Nat)
      (hOwner : ∀ leaseId, newValues.leaseOwner ≠ some (some leaseId)) :
      SessionChange session (.updateSchedule pk newValues conditional)
        (Except.ok (count + 1)) { session with closed := true }

/-- **Inversion of `Session.next`.** -/
theorem Session.change (session : Session) (act : Act) (reply : act.Reply) :
    SessionChange session act reply (session.next act reply) := by
  cases act with
  | createTask row => exact .recorded _ rfl fun _ _ _ h => by cases h
  | updateTask pk newValues conditional => exact .recorded _ rfl fun _ _ _ h => by cases h
  | startJob taskId jobName context => exact .recorded _ rfl fun _ _ _ h => by cases h
  | createLeaseId => exact .drew reply
  | currentTimeUTC => exact .same
  | createPrimaryKey => exact .same
  | retryDelay delaySeconds => exact .same
  | emit event => exact .same
  | createSchedule row =>
      cases reply with
      | ok done => exact .created row
      | error e => exact .same
  | findTasks start limit conditional =>
      simp only [Session.next, Session.afterLookup]
      split
      · rename_i job hJob
        exact .recorded _ rfl fun _ _ _ _ => by simp [hJob]
      · rename_i row hJob
        exact .found start limit conditional row hJob
      · exact .same
  | findSchedules start limit conditional =>
      simp only [Session.next, Session.afterRead]
      split
      · -- under a lease the row is remembered; without one it is read for nothing
        rename_i job row rest hJob
        exact .read start limit conditional row rest (by simp [hJob])
      · rename_i job hJob hNone
        have hHeld : session.job ≠ none := by simp [hJob]
        exact .lost start limit conditional _ hHeld hNone
      · exact .same
  | updateSchedule pk newValues conditional =>
      rcases reply with e | _ | count
      · exact .same
      · exact .same
      · simp only [Session.next, Session.afterUpdate]
        split
        · rename_i leaseId hOwner
          exact .granted pk newValues conditional count leaseId hOwner
        · rename_i hOwner
          exact .closed pk newValues conditional count fun leaseId h => hOwner leaseId h

end TernScheduler
