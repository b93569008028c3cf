import TernScheduler.Datastore.Contract
import TernScheduler.Datastore.Effects
import TernScheduler.Datastore.Watched
import TernScheduler.Library.Sessions
import TernScheduler.System

/-!
# Nodes that repair jobs

Any number of nodes call `repairExpiredSchedule`, for the same job or for different ones,
and the operations of all of them interleave.

* `repairs` is the system of such calls over one database.
* `RepairPhase` is how far a call has come, and `MayRepair` what it may do next.
* `RepairCall.honors_protocol` walks the program once, for all replies.
-/

namespace TernScheduler

open Interleaving Database

/-! ## The calls -/

/-- A call of `repairExpiredSchedule` by a node. -/
structure RepairCall where
  node : Node
  srcSchedule : ScheduledJobModel
  now : Date

/-- The program of a call. -/
def RepairCall.program (call : RepairCall) : Js Unit :=
  repairExpiredSchedule call.node call.srcSchedule call.now

/-- The job a call is about. -/
def RepairCall.jobPk (call : RepairCall) : PrimaryKeyType := call.srcSchedule.pk

/-- The expiry a call writes with its lease. -/
def RepairCall.expires (call : RepairCall) : Date :=
  updateDate call.node.zone call.now call.node.leaseBehavior.leaseTimeSeconds

/-- The repairs of any number of nodes over one database. -/
def repairs (reading : BeforeDateReading) :
    System signature Database RepairCall (Except JsError Unit) :=
  overDatabase reading RepairCall.program

/-- A state of the system. -/
abbrev RepairPool := Pool signature Database RepairCall (Except JsError Unit)

/-! ## The phases of a repair -/

/-- How far a call has come.  A call that holds the lease has its row, the last tasks it
found, and whether a release was refused. -/
inductive RepairPhase
  | idle
  | drew (leaseId : LeaseIdType)
  | found (leaseId : LeaseIdType) (src : ScheduledJobDataModel)
  | lost
  | won (leaseId : LeaseIdType)
  | unread (leaseId : LeaseIdType)
  | holding (leaseId : LeaseIdType) (sched : ScheduledJobDataModel)
      (tasks : Option (List TaskModel)) (refused : Bool)
  | closed

namespace RepairPhase

/-- The phase after one more operation. -/
def next : RepairPhase → (act : Act) → act.Reply → RepairPhase
  | idle, .createLeaseId, leaseId => drew leaseId
  | drew leaseId, .findSchedules .., .ok (src :: _) => found leaseId src
  | drew _, .findSchedules .., _ => lost
  | found leaseId _, .updateSchedule .., .ok (_ + 1) => won leaseId
  | found _ _, .updateSchedule .., _ => lost
  | won leaseId, .findSchedules .., .ok (sched :: _) => holding leaseId sched none false
  | won leaseId, .findSchedules .., _ => unread leaseId
  | holding leaseId sched _ refused, .findTasks .., .ok tasks =>
      holding leaseId sched (some tasks) refused
  | holding _ _ _ _, .updateSchedule .., .ok (_ + 1) => closed
  | holding leaseId sched tasks _, .updateSchedule .., _ => holding leaseId sched tasks true
  | phase, _, _ => phase

/-- The call was granted the lease. -/
def Won : RepairPhase → Prop
  | won _ | unread _ | holding .. | closed => True
  | _ => False

/-- A call that has settled either lost, or could not read its row, or gave the lease back
unless the release was refused. -/
def Settled : RepairPhase → Prop
  | lost | unread _ | closed => True
  | holding _ _ _ refused => refused = true
  | _ => False

end RepairPhase

/-- The interrupted operation was to add a task that is recorded, on a job that is not
pastured. -/
structure RecordedAddTask (repairState : Option String) (row : ScheduledJobDataModel) :
    Prop where
  operation : repairState = some ScheduleUpdateStateType.addTask.text
  unpastured : row.pasture = false
  recorded : orNull row.updateTaskPk ≠ none

/-- The flag a repair may give the lease back with: the job stays enabled only when the
recorded task was found. -/
def MayUnpasture (sched : ScheduledJobDataModel) (tasks : Option (List TaskModel))
    (pasture : Bool) : Prop :=
  pasture = false →
    RecordedAddTask sched.repairState sched ∧ ∃ task rest, tasks = some (task :: rest)

/-- What a call may do in each phase. -/
def MayRepair (call : RepairCall) : RepairPhase → Act → Prop
  | .idle, act => act = .createLeaseId
  | .drew _, act => act = readJob call.jobPk
  | .found leaseId src, act => act = .updateSchedule call.jobPk
      (repairPatch leaseId call.expires (previousState src)) (leaseExpiredBefore call.now)
  | .lost, act => act = readJob call.jobPk
  | .won _, act => act = readJob call.jobPk
  | .unread _, _ => False
  | .holding leaseId sched tasks _, act =>
      (∃ states, act = .findTasks 0 taskFetchLimit (taskOf sched.pk states) ∧
        (orNull sched.updateTaskPk ≠ none → states = [.pending])) ∨
      (∃ event, act = .emit event) ∨ act = readJob call.jobPk ∨
      ∃ pasture pastureReason, act = .updateSchedule call.jobPk
        (releasePatch pasture pastureReason) (leasedBy leaseId) ∧
        MayUnpasture sched tasks pasture
  | .closed, act => ∃ event, act = .emit event

/-- The protocol of a repair. -/
def repairProtocol (call : RepairCall) : Protocol signature RepairPhase where
  next phase operation reply := phase.next operation.act reply
  may phase operation := MayRepair call phase operation.act

/-! ## Every repair follows the protocol -/

section Honors

variable {call : RepairCall} {leaseId : LeaseIdType} {sched : ScheduledJobDataModel}

/-- `performRepair` only looks for tasks, and asks to keep the job enabled only when it
found the recorded one. -/
theorem honors_performRepair_phase :
    (performRepair sched).Honors (relabelled (repairProtocol call) (.repair leaseId))
      (fun after exit => ∃ tasks, after = .holding leaseId sched tasks false ∧
        MayUnpasture sched tasks exit.pastureReason.isSome)
      (fun after _ => ∃ tasks, after = .holding leaseId sched tasks false)
      (.holding leaseId sched none false) := by
  have hPastured : ∀ {tasks : Option (List TaskModel)}, MayUnpasture sched tasks true :=
    fun hFlag => by cases hFlag
  unfold performRepair
  split
  · rename_i hAddTask
    unfold repairAddTask
    split
    · exact ⟨none, rfl, hPastured⟩
    · rename_i hPasture
      have hEnabled : sched.pasture = false := by simpa using hPasture
      split
      · rename_i taskPk hRecorded
        have hSome : orNull sched.updateTaskPk ≠ none := by simp [hRecorded]
        refine Promise.sat_bind.mpr ((honors_findTasks _ _ _).mpr
          ⟨Or.inl ⟨[.pending], rfl, fun _ => rfl⟩, fun tasks => ?_, fun _ => ⟨none, rfl⟩⟩)
        -- the recorded task is there, so the job may be released unpastured
        cases tasks with
        | nil => exact ⟨some [], rfl⟩
        | cons task rest =>
            exact ⟨_, rfl, fun _ => ⟨⟨hAddTask, hEnabled, hSome⟩, task, rest, rfl⟩⟩
      · rename_i hNone
        refine Promise.sat_bind.mpr ((honors_findTasks _ _ _).mpr
          ⟨Or.inl ⟨_, rfl, fun hSome => absurd hNone hSome⟩, fun tasks => ⟨some tasks, rfl⟩,
            fun _ => ⟨none, rfl⟩⟩)
  · split
    · exact ⟨none, rfl⟩
    · split
      · exact ⟨none, rfl⟩
      · split
        · exact ⟨none, rfl⟩
        · exact Promise.sat_bind.mpr ((honors_emit _).mpr
            ⟨Or.inr (Or.inl ⟨_, rfl⟩), fun _ => ⟨none, rfl, hPastured⟩⟩)

/-- A release of the lease closes it, unless it is refused. -/
theorem honors_release_phase {tasks : Option (List TaskModel)} {refused pasture : Bool}
    {pastureReason : Option String} (hPasture : MayUnpasture sched tasks pasture) :
    (releaseScheduledJobLease leaseId call.jobPk pasture pastureReason).Honors
      (repairProtocol call) (fun after _ => after = .closed)
      (fun after _ => after = .holding leaseId sched tasks true)
      (.holding leaseId sched tasks refused) := by
  refine Promise.sat_bind.mpr ((honors_updateSchedule _ _ _).mpr
    ⟨Or.inr (Or.inr (Or.inr ⟨pasture, pastureReason, rfl, hPasture⟩)), fun count => ?_,
      fun _ => rfl⟩)
  cases count with
  | succ count => rfl
  | zero =>
      refine Promise.sat_bind.mpr ((honors_findSchedules _ _ _).mpr
        ⟨Or.inr (Or.inr (Or.inl rfl)), fun rows => ?_, fun _ => rfl⟩)
      cases rows with
      | nil => rfl
      | cons row rest => rfl

/-- The call obtains the lease and reads its row, or it loses. -/
theorem honors_repairLease_phase :
    (repairExpiredLeaseForScheduledJob call.node.zone call.jobPk leaseId call.now
      call.node.leaseBehavior.leaseTimeSeconds).Honors (repairProtocol call)
      (fun after row => (row = none ∧ after = .lost) ∨
        ∃ sched, row = some sched ∧ after = .holding leaseId sched none false)
      (fun after _ => after = .lost ∨ after = .unread leaseId) (.drew leaseId) := by
  refine Promise.sat_bind.mpr (Promise.sat_bind.mpr ((honors_findSchedules _ _ _).mpr
    ⟨rfl, fun rows => ?_, fun _ => Or.inl rfl⟩))
  cases rows with
  | nil => exact Or.inl ⟨rfl, rfl⟩
  | cons src rest =>
      refine Promise.sat_bind.mpr ((honors_updateSchedule _ _ _).mpr
        ⟨rfl, fun count => ?_, fun _ => Or.inl rfl⟩)
      cases count with
      -- another call has changed the row in between
      | zero =>
          refine Promise.sat_bind.mpr ((honors_findSchedules _ _ _).mpr
            ⟨rfl, fun jobs => ?_, fun _ => Or.inl rfl⟩)
          cases jobs with
          | nil => exact Or.inl rfl
          | cons job others => exact Or.inl ⟨rfl, rfl⟩
      | succ count =>
          refine Promise.sat_bind.mpr ((honors_findSchedules _ _ _).mpr
            ⟨rfl, fun jobs => ?_, fun _ => Or.inr rfl⟩)
          cases jobs with
          | nil => exact Or.inr rfl
          | cons job others => exact Or.inr ⟨job, rfl, rfl⟩

/-- **Every repair follows its protocol**, whatever it is answered. -/
theorem RepairCall.honors_protocol (call : RepairCall) :
    call.program.Honors (repairProtocol call) (fun after _ => after.Settled)
      (fun after _ => after.Settled) .idle := by
  refine Promise.sat_bind.mpr (honors_leaseOwnerStrategy.mpr ⟨rfl, fun leaseId => ?_⟩)
  refine Promise.sat_bind.mpr (honors_repairLease_phase.mono ?_ ?_)
  · rintro after row (⟨rfl, rfl⟩ | ⟨sched, rfl, rfl⟩)
    · trivial
    · refine Promise.sat_handle.mpr (Promise.sat_bind.mpr ((honors_inScope _ _).mpr
        (honors_performRepair_phase.mono ?_ ?_)))
      · rintro repaired exit ⟨tasks, rfl, hPasture⟩
        refine (honors_release_phase hPasture).mono ?_ ?_
        · rintro last _ rfl
          trivial
        · rintro refused _ rfl
          -- The first release was refused; the second one asks for pasture.
          refine Promise.sat_bind.mpr ((honors_release_phase fun hFlag => by cases hFlag).mono
            ?_ ?_)
          · rintro last _ rfl
            exact (honors_emit _).mpr ⟨⟨_, rfl⟩, fun _ => trivial⟩
          · rintro last _ rfl
            rfl
      · rintro repaired e ⟨tasks, rfl⟩
        refine Promise.sat_bind.mpr ((honors_release_phase fun hFlag => by cases hFlag).mono
          ?_ ?_)
        · rintro last _ rfl
          exact (honors_emit _).mpr ⟨⟨_, rfl⟩, fun _ => trivial⟩
        · rintro last _ rfl
          rfl
  · rintro after e (rfl | rfl)
    · trivial
    · trivial

end Honors

end TernScheduler
