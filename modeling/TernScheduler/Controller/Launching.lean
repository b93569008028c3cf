import TernScheduler.Controller.LeasedWork
import TernScheduler.Controller.Plans
import TernScheduler.Library.Leads

/-!
# A launch is not the end of the work

A lease is respected while the work done under it still has store calls to make.  The
call of the job framework is no store call, but it is always followed by one, whatever
comes of the launch: so a call that is about to launch a job is still at work.

* `Request.leads` says so of the programs.
* `working_of_launch` says so of a step that launches a job.
-/

namespace TernScheduler

open Interleaving

/-- A call of the job framework. -/
def Act.IsLaunch : Act → Prop
  | .startJob .. => True
  | _ => False

/-- A launch under the lease. -/
def LaunchesUnder (leaseId : LeaseIdType) (operation : Operation) : Prop :=
  operation.scope = .callback leaseId ∧ operation.act.IsLaunch

/-- No launch among the operations. -/
abbrev NoLaunch (act : Act) : Prop := ¬ act.IsLaunch

theorem noLaunch_of_calm {act : Act} (hCalm : ¬ act.Plans) : NoLaunch act := by
  cases act <;> first | exact id | exact absurd trivial hCalm

theorem noLaunch_of_free {act : Act} (hFree : act.Free) : NoLaunch act := by
  rcases hFree with hCalm | ⟨start, limit, conditional, rfl⟩
  · exact noLaunch_of_calm hCalm
  · exact id

theorem addsWithoutLaunch (request : Request) (sched : ScheduledJobDataModel) :
    AddsAsPlanned NoLaunch request sched where
  calm _ := noLaunch_of_calm
  create _ _ _ := id

section Programs

variable {leaseId : LeaseIdType} {request : Request} {α : Type}

/-- The work leads every launch on to a store call. -/
abbrev LeadsOn (work : Js α) : Prop :=
  work.Leads (fun op : Operation => op.act.IsLaunch) fun op : Operation => op.act.IsStoreCall

/-- A program leads every launch under the lease on to a store call under it. -/
abbrev LeadsUnder (leaseId : LeaseIdType) (program : Js α) : Prop :=
  program.Leads (LaunchesUnder leaseId) (WorksUnder leaseId)

theorem leadsOn_of_noLaunch {work : Js α}
    (hUses : work.Uses fun op : Operation => NoLaunch op.act) : LeadsOn work :=
  hUses.leads

theorem leadsUnder_of_noLaunch {program : Js α}
    (hUses : program.Uses fun op : Operation => NoLaunch op.act) :
    LeadsUnder leaseId program :=
  Promise.Uses.leads (Prog.Uses.mono hUses fun _ hNone hLaunch => hNone hLaunch.2)

theorem leadsUnder_of_free {program : Js α}
    (hFree : program.Uses fun op : Operation => op.act.Free) : LeadsUnder leaseId program :=
  leadsUnder_of_noLaunch (Prog.Uses.mono hFree fun _ => noLaunch_of_free)

/-- What a program reaches, it reaches with a label. -/
theorem reaches_relabel {program : Prog signature α}
    (hReaches : program.Reaches fun op : Operation => op.act.IsStoreCall) :
    (relabel (.callback leaseId) program).Reaches (WorksUnder leaseId) := by
  induction program with
  | ret value => exact hReaches.elim
  | call op next ih =>
      rcases hReaches with hOp | ⟨reply, hNext⟩
      · exact Or.inl ⟨rfl, hOp⟩
      · exact Or.inr ⟨reply, ih reply hNext⟩

/-- Work that leads on does so under any lease. -/
theorem leads_inScope {owner : LeaseIdType} {work : Js α} (hWork : LeadsOn work) :
    LeadsUnder leaseId (inScope (.callback owner) work) := by
  have hRelabel : ∀ program : Prog signature (Except JsError α),
      program.Leads (fun op : Operation => op.act.IsLaunch)
        (fun op : Operation => op.act.IsStoreCall) →
        (relabel (.callback owner) program).Leads (LaunchesUnder leaseId)
          (WorksUnder leaseId) := by
    intro program hProgram
    induction program with
    | ret value => trivial
    | call op next ih =>
        refine ⟨?_, fun reply => ih reply (hProgram.2 reply)⟩
        rintro ⟨hScope, hLaunch⟩
        obtain rfl : owner = leaseId := by
          cases hScope
          rfl
        obtain ⟨reply, hReaches⟩ := hProgram.1 hLaunch
        exact ⟨reply, reaches_relabel hReaches⟩
  exact hRelabel work hWork

/-- When the job framework rejects, `launchTask` marks the task as failed to start. -/
theorem leadsOn_launchTask {sched : ScheduledJobDataModel} {task : TaskModel} :
    LeadsOn (launchTask request.node sched task) := by
  have hSkip : (shouldSkipTask request.node sched task).Uses
      fun op : Operation => NoLaunch op.act :=
    Promise.uses_bind (AddsAsPlanned.uses_ofExcept _) fun dup =>
      Promise.uses_bind ((addsWithoutLaunch request sched).uses_ask id) fun _ =>
        AddsAsPlanned.uses_ofExcept _
  refine Promise.leads_bind (leadsOn_of_noLaunch hSkip) fun shouldSkip => ?_
  split
  · trivial
  · refine ⟨fun _ => ⟨Except.error (.tern ""), ?_⟩, fun reply => ?_⟩
    · exact Or.inr ⟨(0 : Date), Or.inl trivial⟩
    · cases reply with
      | ok status => trivial
      | error e =>
          refine leadsOn_of_noLaunch (Promise.uses_bind
            ((addsWithoutLaunch request sched).uses_ask id) fun _ => ?_)
          exact Promise.uses_bind (addsWithoutLaunch request sched).uses_markTaskState
            fun _ => Promise.uses_reject e

theorem leadsOn_startTaskInLease {task : TaskModel} {sched : ScheduledJobDataModel}
    (hCall : request.call = .startTask task) :
    LeadsOn (startTaskInLease request.node task request.now sched) := by
  have hAdds := addsWithoutLaunch request sched
  refine Promise.leads_bind (leadsOn_of_noLaunch hAdds.uses_markTaskState) fun _ => ?_
  refine Promise.leads_bind leadsOn_launchTask fun execStatus => ?_
  refine leadsOn_of_noLaunch (Promise.uses_bind (hAdds.uses_recordLaunch
    (WorksAsPlanned.advances_of_startTask hCall) execStatus) fun currentTask => ?_)
  exact Promise.uses_bind (hAdds.uses_addFollowUp hCall currentTask) fun _ =>
    Promise.uses_resolve _

/-- Work under a lease and the end of the lease. -/
theorem leadsUnder_workAndClose {owner : LeaseIdType} {sched : ScheduledJobDataModel}
    {work : Js (LeaseExitState α)} (hWork : LeadsOn work) :
    LeadsUnder leaseId (inScope (.callback owner) (settleLease work) >>= fun result =>
      closeLease sched owner request.now result) :=
  Promise.leads_bind
    (leads_inScope (Promise.leads_handle hWork fun _ => trivial)) fun result =>
      leadsUnder_of_free ((endsFree _ _).uses_closeLease _ result)

theorem leadsUnder_runUpdateInLease {operation : ScheduleUpdateStateType}
    {jobPk : PrimaryKeyType} {taskPk : Option PrimaryKeyType}
    {withLease : ScheduledJobDataModel → LeaseIdType → Js (LeaseExitState α)}
    (hWork : ∀ sched owner, LeadsOn (withLease sched owner)) :
    LeadsUnder leaseId
      (runUpdateInLease request.node operation jobPk taskPk request.now withLease) := by
  refine Promise.leads_bind (leadsUnder_of_free (Promise.uses_perform (Or.inl id) _))
    fun owner => ?_
  have hAttempt : (leaseAttempt request.node operation jobPk taskPk request.now owner).Uses
      fun op : Operation => op.act.Free :=
    Promise.uses_bind ⟨Or.inl id, fun _ => trivial⟩ fun count =>
      uses_rejectUnlessUpdated (endsFree owner jobPk).find _ count
  refine Promise.leads_bind (leadsUnder_of_free (attemptsFree hAttempt hAttempt)) fun _ => ?_
  refine Promise.leads_bind (leadsUnder_of_free (Promise.uses_bind
    (Promise.uses_perform (endsFree owner jobPk).find _) fun _ => Promise.uses_resolve _))
      fun found => ?_
  cases found with
  | none => exact leadsUnder_of_free (Promise.uses_reject _)
  | some sched => exact leadsUnder_workAndClose (hWork sched owner)

theorem leadsUnder_handled {work : Js α} {handler : JsError → Js α}
    (hWork : LeadsUnder leaseId work)
    (hHandler : ∀ e, (handler e).Uses fun op : Operation => op.act.Free) :
    LeadsUnder leaseId (work.handle handler) :=
  Promise.leads_handle hWork fun e => leadsUnder_of_free (hHandler e)

theorem freeEmit (event : SchedulerEvent) :
    (emit event).Uses fun op : Operation => op.act.Free := ⟨Or.inl id, fun _ => trivial⟩

theorem leadsUnder_createScheduledJob {schedule : NewScheduledJob}
    (hCall : request.call = .createScheduledJob schedule) :
    LeadsUnder leaseId (createScheduledJob request.node schedule request.now) := by
  refine Promise.leads_bind (leadsUnder_of_free (Promise.uses_perform (Or.inl id) _))
    fun owner => ?_
  refine Promise.leads_bind (leadsUnder_of_free (Promise.uses_perform (Or.inl id) _))
    fun schedPk => ?_
  refine Promise.leads_bind (leadsUnder_of_free (Promise.uses_perform (Or.inl id) _))
    fun createdTaskPk => ?_
  refine Promise.leads_bind (leadsUnder_handled (Promise.leads_bind ?_ fun _ => ?_) fun e => ?_)
    fun result => leadsUnder_of_free ((endsFree _ _).uses_closeLease _ result)
  · exact leadsUnder_of_noLaunch (Promise.uses_perform (fun hLaunch => hLaunch) _)
  · exact leads_inScope (Promise.leads_handle (leadsOn_of_noLaunch
      ((addsWithoutLaunch request _).uses_firstTask hCall rfl createdTaskPk)) fun _ => trivial)
  · exact Promise.uses_bind (Promise.uses_handle
      ((endsFree owner schedPk).uses_needsRepair request.now false none) fun e2 =>
        Promise.uses_bind (freeEmit _) fun _ => Promise.uses_reject e)
        fun _ => Promise.uses_reject e

theorem leadsUnder_startTask {task : TaskModel} (hCall : request.call = .startTask task) :
    LeadsUnder leaseId (startTask request.node task request.now) := by
  refine leadsUnder_handled (Promise.leads_bind (leadsUnder_runUpdateInLease
    fun sched _ => leadsOn_startTaskInLease hCall) fun _ => trivial) fun e => ?_
  split
  · exact freeEmit _
  · exact Promise.uses_reject _

theorem leadsUnder_taskFinished {execJobId : ExecutionJobId} {result : JobExecutionState}
    (hAdvances : request.call.advances = true) :
    LeadsUnder leaseId (taskFinished request.node execJobId result request.now) := by
  have hFound : ∀ task, LeadsUnder leaseId
      (finishFoundTask request.node task result request.now) := by
    intro task
    refine leadsUnder_handled (Promise.leads_bind (leadsUnder_runUpdateInLease fun sched _ =>
      leadsOn_of_noLaunch ((addsWithoutLaunch request sched).uses_taskFinishedInLease hAdvances
        result)) fun _ => trivial) fun e => ?_
    split
    · exact freeEmit _
    · exact freeEmit _
    · exact Promise.uses_reject _
  -- the lookup launches and adds nothing
  have hLookup : (getTaskByExecutionJobId execJobId).Uses
      fun op : Operation => op.act.Free := by
    refine Promise.uses_bind (Promise.uses_perform (Or.inl id) _) fun rows => ?_
    rcases rows with _ | ⟨row, _ | ⟨other, rest⟩⟩
    · exact Promise.uses_resolve _
    · exact Promise.uses_resolve _
    · exact Promise.uses_reject _
  cases result with
  | running jobId => trivial
  | _ =>
      refine Promise.leads_bind (leadsUnder_of_free hLookup) fun found => ?_
      cases found with
      | none => trivial
      | some task => exact hFound task

/-- **Every call leads on**: wherever it launches a job under a lease, it may have a store
call left to make under it. -/
theorem Request.leads (request : Request) (leaseId : LeaseIdType) :
    LeadsUnder leaseId request.program := by
  unfold Request.program
  split
  · rename_i schedule hCall
    exact leadsUnder_createScheduledJob hCall
  · rename_i task hCall
    exact Promise.leads_bind (leadsUnder_startTask hCall) fun _ => trivial
  · rename_i execJobId result hCall
    exact Promise.leads_bind (leadsUnder_taskFinished (by rw [hCall]; rfl)) fun _ => trivial
  · exact Promise.leads_bind (Promise.leads_bind (leadsUnder_runUpdateInLease fun _ _ => trivial)
      fun _ => trivial) fun _ => trivial
  · exact leadsUnder_of_free (Promise.uses_bind (Prog.Uses.mono calm_repairExpiredSchedule
      fun _ => free_of_calm) fun _ => Promise.uses_resolve _)

end Programs

/-- **Step lemma.**  A call that launches a job still has store calls to make. -/
theorem working_of_launch {reading : BeforeDateReading}
    {A : RunCondition signature Database Request Settled} {first pool pool' : SchedulerPool}
    (hRun : Run (scheduler reading) A first pool) (hIdle : first.Idle)
    {entry : SchedulerEntry} (hStep : Step (scheduler reading) pool (.ran entry) pool')
    {leaseId : LeaseIdType} (hLaunch : LaunchesUnder leaseId entry.op) :
    Working pool leaseId entry.pid :=
  hRun.mayReach_of_ran (fun request => request.leads leaseId) hIdle hStep hLaunch

end TernScheduler
