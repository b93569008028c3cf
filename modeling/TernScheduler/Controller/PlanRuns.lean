import TernScheduler.Controller.Leases
import TernScheduler.Controller.Plans

/-!
# Plans along a run

What a call has read stays true as far as a plan depends on it: a stored job keeps
its key and its definition.

* `reads_stored` says so for the row each call has read last.
* `launcher_of_step` says what a launch hands to the job framework.
* `job_created` traces a stored job back to the call that created it.
-/

namespace TernScheduler

open Interleaving Database

/-- The request of a call, and what its plan depends on. -/
def planOf (pool : SchedulerPool) (pid : Nat) : Option (Request × Plan) :=
  pool.stateOf planProtocol (fun _ => {}) pid

/-- A step of the scheduler, seen from the plans. -/
abbrev PlanMoves (reading : BeforeDateReading) (pool : SchedulerPool)
    (event : Event signature Database Request) (pool' : SchedulerPool) : Prop :=
  pool.Moves (scheduler reading) planProtocol (fun _ => {}) event pool'

variable {reading : BeforeDateReading}
  {A : RunCondition signature Database Request Settled}
  {first pool pool' : SchedulerPool} {event : Event signature Database Request}

/-- Every step of a run is a move of the plans. -/
theorem planMoves_of_step (hRun : Run (scheduler reading) A first pool)
    (hIdle : first.Idle) (hStep : Step (scheduler reading) pool event pool') :
    PlanMoves reading pool event pool' := by
  have hPrograms : ∀ request, ((scheduler reading).program request).Honors
      (planProtocol request) (fun _ _ => True) {} := fun request =>
    Prog.Sat.mono request.honors_plan fun _ _ _ => trivial
  exact hStep.moves (hRun.logOwned hIdle) (hRun.honors hPrograms hIdle)

theorem session_of_plan {pid : Nat} {request : Request} {plan : Plan}
    (hPlan : planOf pool pid = some (request, plan)) :
    ∃ session, sessionOf pool pid = some (request, session) := by
  obtain ⟨proc, hProc, hState⟩ := Option.map_eq_some_iff.mp hPlan
  cases hState
  exact ⟨_, Pool.stateOf_eq_some hProc⟩

/-- The guard of the call that performs a step. -/
theorem mayPlan_of_step (hRun : Run (scheduler reading) A first pool) (hIdle : first.Idle)
    {entry : SchedulerEntry} (hStep : Step (scheduler reading) pool (.ran entry) pool') :
    ∃ request plan, planOf pool entry.pid = some (request, plan) ∧
      MayPlan request plan entry.op.act := by
  cases planMoves_of_step hRun hIdle hStep with
  | quiet _ _ _ hLog =>
      cases hStep
      exact absurd hLog (List.cons_ne_self _ _)
  | performed pid request plan op reply _ hPlan hMay => exact ⟨request, plan, hPlan, hMay⟩

/-! ## What was read is stored -/

/-- The row is stored, as far as its key and its definition go, and was found by its
key when it was looked up by one. -/
def Plan.Stored (db : Database) (plan : Plan) : Prop :=
  ∀ asked sched, plan.read = some (asked, sched) →
    (∃ row, db.job sched.pk = some row ∧ row.toNewScheduledJob = sched.toNewScheduledJob) ∧
      ∀ pk, asked = sjPkEquals pk → sched.pk = pk

/-- A read of jobs answers with stored rows that satisfy the condition. -/
theorem mem_of_findSchedules {db after : Database} {start limit : Nat}
    {conditional : Conditional ScheduledJobColumn} {rows : List ScheduledJobDataModel}
    (hExec : Exec reading db (.findSchedules start limit conditional) (Except.ok rows) after) :
    ∀ row ∈ rows, db.job row.pk = some row ∧
      conditional.holds reading row.column = true := by
  cases hExec with
  | rejected error hReply => cases hReply
  | answered hOther => exact absurd trivial hOther
  | served hServe =>
      simp only [serve, Option.some.injEq, Prod.mk.injEq] at hServe
      have hRows := Except.ok.inj hServe.1
      subst hRows
      intro row hRow
      obtain ⟨hMem, hHolds⟩ := KeyedTable.Table.mem_of_mem_select hRow
      exact ⟨job_of_mem hMem, hHolds⟩

theorem sjPkEquals_injective {pk pk' : PrimaryKeyType} (h : sjPkEquals pk = sjPkEquals pk') :
    pk = pk' := by
  simpa [sjPkEquals] using h

/-- An operation reads a stored row, or none. -/
theorem Plan.Stored.next {db after : Database} {plan : Plan} {act : Act}
    {reply : act.Reply} (hStored : plan.Stored after)
    (hExec : Exec reading db act reply after) : (plan.next act reply).Stored after := by
  cases act with
  | findSchedules start limit conditional =>
      rcases reply with e | _ | ⟨row, rest⟩
      · exact hStored
      · exact hStored
      · rintro asked sched ⟨⟩
        obtain ⟨hRow, hHolds⟩ := mem_of_findSchedules hExec row List.mem_cons_self
        refine ⟨⟨row, (hExec.job_kept id row.pk).trans hRow, rfl⟩, ?_⟩
        rintro pk rfl
        exact (holds_sjPkEquals pk).mp hHolds
  | createSchedule row =>
      rcases reply with e | done
      · exact hStored
      · rintro asked sched ⟨⟩
        cases hExec.scheduleEffect with
        | kept hNone => exact absurd trivial hNone
        | created _ _ hJobs =>
            exact ⟨⟨row, by rw [hJobs, if_pos rfl], rfl⟩,
              fun pk hAsked => sjPkEquals_injective hAsked⟩
  | updateTask pk newValues conditional =>
      rcases reply with e | _ | count
      · exact hStored
      · exact hStored
      · exact hStored
  | _ => exact hStored

theorem Plan.Stored.kept (hMoves : Moves reading pool event pool') {plan : Plan}
    (hStored : plan.Stored pool.shared) : plan.Stored pool'.shared := by
  intro asked sched hRead
  obtain ⟨⟨row, hRow, hDefinition⟩, hAsked⟩ := hStored asked sched hRead
  obtain ⟨row', hRow', hKept⟩ := hMoves.definition_kept hRow
  exact ⟨⟨row', hRow', hKept.trans hDefinition⟩, hAsked⟩

/-- **Run lemma.**  What each call has read last is stored. -/
theorem reads_stored (hRun : Run (scheduler reading) A first pool) (hIdle : first.Idle) :
    ∀ pid request plan, planOf pool pid = some (request, plan) →
      plan.Stored pool.shared := by
  refine hRun.invariant (I := fun pool => ∀ pid request plan,
    planOf pool pid = some (request, plan) → plan.Stored pool.shared) ?_ ?_
  · intro pid request plan hPlan
    rw [planOf, Pool.stateOf_idle hIdle] at hPlan
    cases hPlan
  · intro pool event pool' hBefore hAll hStep _ pid request plan hPlan
    have hMoves := moves_of_step hBefore hIdle hStep
    cases planMoves_of_step hBefore hIdle hStep with
    | quiet _ _ _ _ _ hNew =>
        rcases hNew pid request plan hPlan with hOld | ⟨-, rfl⟩
        · exact (hAll pid request plan hOld).kept hMoves
        · rintro asked sched ⟨⟩
    | performed actor actorRequest before op reply _ hActor _ hExec _ hPlans =>
        rw [planOf, hPlans] at hPlan
        split at hPlan
        · cases hPlan
          exact ((hAll actor _ before hActor).kept hMoves).next hExec
        · exact (hAll pid request plan hPlan).kept hMoves

/-! ## What is launched -/

/-- The call that launches a task was started for it, and hands on the texts of the
stored row of its schedule. -/
theorem launcher_of_step (hRun : Run (scheduler reading) A first pool) (hIdle : first.Idle)
    {entry : SchedulerEntry} (hStep : Step (scheduler reading) pool (.ran entry) pool')
    {taskId jobName context : String} (hAct : entry.op.act = .startJob taskId jobName context) :
    ∃ request session task job,
      sessionOf pool entry.pid = some (request, session) ∧ request.call = .startTask task ∧
        task.pk = taskId ∧ pool.shared.job task.schedule = some job ∧
          jobName = job.jobName ∧ context = job.jobContext := by
  obtain ⟨request, plan, hPlan, hMay⟩ := mayPlan_of_step hRun hIdle hStep
  obtain ⟨session, hSession⟩ := session_of_plan hPlan
  rw [hAct] at hMay
  obtain ⟨task, sched, hCall, rfl, hRead, rfl, rfl⟩ := hMay
  obtain ⟨⟨job, hJob, hDefinition⟩, hKey⟩ := reads_stored hRun hIdle _ _ _ hPlan _ _ hRead
  rw [hKey task.schedule rfl] at hJob
  exact ⟨request, session, task, job, hSession, hCall, rfl, hJob,
    congrArg NewScheduledJob.jobName hDefinition.symm,
    congrArg NewScheduledJob.jobContext hDefinition.symm⟩

/-! ## Where a job comes from -/

@[simp] theorem newRow_definition (request : Request) (schedule : NewScheduledJob)
    (leaseId : LeaseIdType) (pk taskPk : PrimaryKeyType) :
    (newRow request schedule leaseId pk taskPk).toNewScheduledJob = schedule.stored := rfl

/-- A call to create a scheduled job stored a row of the given key, with the
definition it was asked to store. -/
def CreatedBy (pool : SchedulerPool) (pk : PrimaryKeyType) (definition : NewScheduledJob) :
    Prop :=
  ∃ created ∈ pool.log, ∃ row request session schedule,
    created.op.act = .createSchedule row ∧ row.pk = pk ∧
      sessionOf pool created.pid = some (request, session) ∧
        request.call = .createScheduledJob schedule ∧ definition = schedule.stored

theorem CreatedBy.kept (hMoves : Moves reading pool event pool') {pk : PrimaryKeyType}
    {definition : NewScheduledJob} (hCreated : CreatedBy pool pk definition) :
    CreatedBy pool' pk definition := by
  obtain ⟨created, hLogged, row, request, session, schedule, hAct, hPk, hSession, hCall,
    hDefinition⟩ := hCreated
  obtain ⟨session', hSession', -, -⟩ := hMoves.session_persists hSession
  refine ⟨created, ?_, row, request, session', schedule, hAct, hPk, hSession', hCall,
    hDefinition⟩
  cases hMoves with
  | quiet _ _ _ _ hLog => exact hLog ▸ hLogged
  | performed _ _ _ _ _ _ _ _ _ _ hLog => exact hLog ▸ List.mem_cons_of_mem _ hLogged

/-- **Run lemma.**  Every stored job was created by a call to create it, and has the
definition that call was given. -/
theorem job_created {clock : Date} (hRun : Run (scheduler reading) A (emptyPool clock) pool) :
    ∀ pk row, pool.shared.job pk = some row → CreatedBy pool pk row.toNewScheduledJob := by
  have hIdle := emptyPool_idle clock
  refine hRun.invariant (I := fun pool => ∀ pk row, pool.shared.job pk = some row →
    CreatedBy pool pk row.toNewScheduledJob) ?_ ?_
  · intro pk row hRow
    cases hRow
  · intro pool event pool' hBefore hAll hStep hA pk row hRow
    have hMoves := moves_of_step hBefore hIdle hStep
    cases hOld : pool.shared.job pk with
    | some old =>
        obtain ⟨row', hRow', hKept⟩ := hMoves.definition_kept hOld
        obtain rfl : row' = row := Option.some.inj (hRow'.symm.trans hRow)
        exact hKept ▸ (hAll pk old hOld).kept hMoves
    | none =>
        -- The row is new, so the step has created it.
        cases hMoves with
        | quiet _ _ hJobs =>
            rw [hJobs, hOld] at hRow
            cases hRow
        | performed actor actorRequest before scope act reply _ hActor hMay hExec hLog hSessions =>
            obtain ⟨request, plan, hPlan, hMayPlan⟩ := mayPlan_of_step hBefore hIdle hStep
            obtain ⟨session, hSession⟩ := session_of_plan hPlan
            cases hExec.scheduleEffect with
            | kept _ hJobs =>
                rw [hJobs, hOld] at hRow
                cases hRow
            | updated other newValues conditional count stored hStored _ hJobs =>
                rw [hJobs] at hRow
                split at hRow
                · rename_i hPk
                  rw [← hPk, hOld] at hStored
                  cases hStored
                · rw [hOld] at hRow
                  cases hRow
            | created new _ hJobs =>
                rw [hJobs] at hRow
                split at hRow
                · rename_i hPk
                  obtain rfl := Option.some.inj hRow
                  obtain ⟨schedule, leaseId, newPk, taskPk, hCall, rfl⟩ := hMayPlan
                  obtain ⟨session', hSession', -, -⟩ :=
                    (moves_of_step hBefore hIdle hStep).session_persists hSession
                  exact ⟨_, by rw [hLog]; exact List.mem_cons_self, _, request, session', schedule,
                    rfl, hPk.symm, hSession', hCall, rfl⟩
                · rw [hOld] at hRow
                  cases hRow

/-- Only jobs of a kind are created. -/
def createsOnly (Kind : NewScheduledJob → Prop) :
    RunCondition signature Database Request Settled :=
  fun _ event _ => ∀ request ∈ event.request, ∀ schedule,
    request.call = .createScheduledJob schedule → Kind schedule.stored

/-- What was created is of the kind. -/
theorem kind_of_created {Kind : NewScheduledJob → Prop}
    (hRun : Run (scheduler reading) A first pool)
    (hIdle : first.Idle)
    (hKind : ∀ pool event pool', A pool event pool' → createsOnly Kind pool event pool')
    {pk : PrimaryKeyType} {definition : NewScheduledJob}
    (hCreated : CreatedBy pool pk definition) : Kind definition := by
  obtain ⟨created, -, row, request, session, schedule, -, -, hSession, hCall, rfl⟩ := hCreated
  exact request_of_session hRun hIdle hKind created.pid request session hSession schedule hCall

/-- The row a call has read last has the definition its job was created with. -/
theorem read_created {clock : Date} (hRun : Run (scheduler reading) A (emptyPool clock) pool)
    {pid : Nat} {request : Request} {plan : Plan} {asked : Conditional ScheduledJobColumn}
    {sched : ScheduledJobDataModel} (hPlan : planOf pool pid = some (request, plan))
    (hRead : plan.read = some (asked, sched)) :
    CreatedBy pool sched.pk sched.toNewScheduledJob := by
  obtain ⟨⟨row, hRow, hDefinition⟩, -⟩ :=
    reads_stored hRun (emptyPool_idle clock) pid request plan hPlan asked sched hRead
  exact hDefinition ▸ job_created hRun sched.pk row hRow

end TernScheduler
