import TernScheduler.Controller.Handover
import TernScheduler.Controller.LeasedWork

/-!
# A recurring job never goes dead

The row of a recurring job that nobody holds the lease of has a task that keeps its
chain going: every call that takes the lease gives it up only after it has handed
the chain on, and while it holds the lease nobody else touches the tasks of the job.

* `ChainInvariant` says this of the free rows, and, for the rows that are held, of
  the sessions that have carried the chain on so far.
* `never_dead` is the law.  It needs more than the documented assumptions: a launch
  that answers with a finished job asks for no next task when the strategy waits
  for a finish, and a retry strategy that throws a falsy value ends the work without
  an error.
* `chain_broken_by_finished_launch` is the run in which the first of these happens.
-/

namespace TernScheduler

open Interleaving Database

/-! ## The runs of the law -/

instance : DecidablePred JobExecutionState.Reported := by
  intro state
  cases state <;> unfold JobExecutionState.Reported <;> infer_instance

instance (kind : ChainKind) : DecidablePred kind.Continues := by
  intro state
  cases state <;> unfold ChainKind.Continues <;> infer_instance

/-- A job that is launched reports back in the given way. -/
def Act.Reports (P : JobExecutionState → Prop) : (act : Act) → act.Reply → Prop
  | .startJob .., .ok state => P state
  | .startJob .., .error _ => False
  | _, _ => True

instance (P : JobExecutionState → Prop) [DecidablePred P] :
    (act : Act) → (reply : act.Reply) → Decidable (act.Reports P reply)
  | .startJob .., .ok state => inferInstanceAs (Decidable (P state))
  | .startJob .., .error _ => isFalse id
  | .createSchedule _, _ | .findSchedules .., _ | .updateSchedule .., _ => isTrue trivial
  | .createTask _, _ | .findTasks .., _ | .updateTask .., _ => isTrue trivial
  | .currentTimeUTC, _ | .createPrimaryKey, _ | .createLeaseId, _ => isTrue trivial
  | .retryDelay _, _ | .emit _, _ => isTrue trivial

/-- Every launched job reports as running, completed or failed. -/
def jobsReport : RunCondition signature Database Request Settled :=
  fun _ event _ => ∀ entry ∈ event.entry, entry.op.act.Reports (·.Reported) entry.reply

instance (pool : SchedulerPool) (event : Event signature Database Request)
    (pool' : SchedulerPool) : Decidable (jobsReport pool event pool') := by
  unfold jobsReport
  infer_instance

/-- The documented assumptions: unique lease ids, no takeovers, tasks started as
they are stored, a store that rejects a call only for the state it has stored, jobs
that report back, and strategies that always ask for a next task. -/
def recurringRuns (reading : BeforeDateReading) (kind : ChainKind)
    (definition : NewScheduledJob) : RunCondition signature Database Request Settled :=
  fun pool event pool' =>
    (freshLeaseIds pool event pool' ∧ noTakeover pool event pool') ∧
      startsStoredTasks pool event pool' ∧ storeAnswers reading pool event pool' ∧
      jobsReport pool event pool' ∧
      ∀ request ∈ event.request, Recurs kind request.node definition

/-- What the law needs besides: no launch ends the chain, and retry strategies throw
nothing falsy. -/
def chainsContinue (kind : ChainKind) (definition : NewScheduledJob) :
    RunCondition signature Database Request Settled :=
  fun _ event _ =>
    (∀ entry ∈ event.entry, entry.op.act.Reports kind.Continues entry.reply) ∧
      ∀ request ∈ event.request, RetriesThrowErrors kind request.node definition

/-- The runs of the law. -/
def lastingRuns (reading : BeforeDateReading) (kind : ChainKind)
    (definition : NewScheduledJob) : RunCondition signature Database Request Settled :=
  fun pool event pool' => recurringRuns reading kind definition pool event pool' ∧
    chainsContinue kind definition pool event pool'

variable {reading : BeforeDateReading} {kind : ChainKind} {definition : NewScheduledJob}
  {clock : Date} {A : RunCondition signature Database Request Settled}
  {first pool pool' : SchedulerPool} {event : Event signature Database Request}

theorem freshLeaseIds_of_lasting (pool : SchedulerPool)
    (event : Event signature Database Request) (pool' : SchedulerPool)
    (h : lastingRuns reading kind definition pool event pool') :
    freshLeaseIds pool event pool' :=
  h.1.1.1

/-! ## Live tasks -/

/-- A task of the job keeps its chain going. -/
def Alive (kind : ChainKind) (db : Database) (pk : PrimaryKeyType) : Prop :=
  ∃ taskPk row, db.task taskPk = some row ∧ row.schedule = pk ∧ kind.live row.state

theorem Alive.of_tasks {db after : Database} {pk : PrimaryKeyType}
    (h : Alive kind db pk) (hTasks : ∀ taskPk, after.task taskPk = db.task taskPk) :
    Alive kind after pk := by
  obtain ⟨taskPk, row, hRow, hLive⟩ := h
  exact ⟨taskPk, row, (hTasks taskPk).trans hRow, hLive⟩

/-- A chain is only touched by a call at work on its job. -/
theorem Alive.kept {request : Request} {session : Session} {scope : Scope} {act : Act}
    {reply : act.Reply} {db after : Database} {pk : PrimaryKeyType}
    (h : Alive kind db pk) (hChange : TaskChange request session scope db after act reply)
    (hStored : ∀ task, session.task = some task →
      ∃ row, db.task task.pk = some row ∧ row.schedule = task.schedule) :
    Alive kind after pk ∨
      (session.job = some pk ∧ (∃ leaseId, scope = .callback leaseId) ∧ act.IsStoreCall) := by
  obtain ⟨taskPk, row, hRow, hSchedule, hLive⟩ := h
  cases hChange with
  | kept hNone hTasks => exact Or.inl ⟨taskPk, row, (hTasks taskPk).trans hRow, hSchedule, hLive⟩
  | added new leaseId hScope hAdd hAbsent hTasks =>
      have hNe : taskPk ≠ new.pk := by
        rintro rfl
        rw [hAbsent] at hRow
        cases hRow
      exact Or.inl ⟨taskPk, row, by rw [hTasks, if_neg hNe, hRow], hSchedule, hLive⟩
  | moved task sched leaseId old new newValues count target hScope _ hTask hJob hTarget _ _
      _ hTasks =>
      by_cases hPk : taskPk = task.pk
      · obtain ⟨stored, hStoredRow, hSame⟩ := hStored task hTask
        rw [hPk, hStoredRow] at hRow
        cases hRow
        exact Or.inr ⟨by rw [hJob, ← hSame, hSchedule], ⟨leaseId, hScope⟩, trivial⟩
      · exact Or.inl ⟨taskPk, row, by rw [hTasks, if_neg hPk, hRow], hSchedule, hLive⟩

/-- A fact that shows a live task is the fact of a lookup, if nothing was written. -/
theorem alive_of_shows {act : Act} {reply : act.Reply} {fact : Fact} {db after : Database}
    {pk : PrimaryKeyType} (hExec : Exec reading db act reply after)
    (hFact : act.fact reply = some fact) (hShows : fact.Shows kind pk)
    (hNone : ¬ act.WroteTask reply) : Alive kind db pk := by
  cases act with
  | findTasks start limit conditional =>
      cases hFact
      rcases reply with e | _ | ⟨row, rest⟩
      · exact hShows.elim
      · exact hShows.elim
      · obtain ⟨state, hLive, rfl⟩ := hShows
        cases hExec with
        | rejected error hReply => cases hReply
        | answered hOther => exact absurd trivial hOther
        | served hServe =>
            simp only [serve, Option.some.injEq, Prod.mk.injEq] at hServe
            -- a row that a lookup has answered with is stored, in the state it was asked for
            have hMem : row ∈ db.taskTable.select start limit
                fun row => (taskOf pk [state]).holds reading row.column := by
              rw [Except.ok.inj hServe.1]
              exact List.mem_cons_self
            obtain ⟨hStored, hHolds⟩ := KeyedTable.Table.mem_of_mem_select hMem
            simp only [holds_taskOf, List.mem_singleton] at hHolds
            exact ⟨row.pk, row, task_of_mem hStored, hHolds.1, hHolds.2 ▸ hLive⟩
  | createTask row =>
      cases hFact
      rcases reply with e | done
      · exact hShows.elim
      · exact absurd trivial hNone
  | updateTask taskPk newValues conditional =>
      cases hFact
      rcases reply with e | _ | count
      · exact hShows.elim
      · exact hShows.elim
      · exact absurd trivial hNone
  | startJob taskId jobName context =>
      cases hFact
      exact hShows.elim
  | _ => cases hFact

/-- **Step lemma.**  A session that has carried the chain on keeps it alive by an
operation of its own. -/
theorem alive_of_carried_next {request : Request} {session : Session} {scope : Scope}
    {act : Act} {reply : act.Reply} {db after : Database} {pk : PrimaryKeyType}
    (hMay : May request session ⟨scope, act⟩) (hExec : Exec reading db act reply after)
    (hSound : session.Sound) (hJob : session.job = some pk)
    (hStored : ∀ task, session.task = some task →
      ∃ row, db.task task.pk = some row ∧ row.schedule = task.schedule)
    (hBefore : Carried kind request.call pk session.facts → Alive kind db pk)
    (hCarried : Carried kind request.call pk (session.next act reply).facts) :
    Alive kind after pk := by
  cases hMay.taskChange hExec with
  | kept hNone hTasks =>
      refine Alive.of_tasks ?_ hTasks
      rcases session.facts_next act reply with hSame | ⟨fact, hFact, hCons⟩
      · exact hBefore (hSame ▸ hCarried)
      · rw [hCons] at hCarried
        rcases hCarried with hShows | ⟨-, hOld⟩
        · exact alive_of_shows hExec hFact hShows hNone
        · exact hBefore hOld
  | added new leaseId hScope hAdd hAbsent hTasks =>
      have hNew : session.job = some new.schedule :=
        hAdd.job_eq hSound (hMay.1 leaseId hScope).2.1
      -- what is added is pending, and keeps the chain going
      refine ⟨new.pk, new, by rw [hTasks, if_pos rfl],
        Option.some.inj (hNew.symm.trans hJob), ?_⟩
      rw [hAdd.1]
      exact kind.live_pending
  | moved task sched leaseId old new newValues count target hScope _ hTask hTaskJob hTarget
      hOld hNew _ hTasks =>
      obtain ⟨stored, hStoredRow, hSchedule⟩ := hStored task hTask
      obtain rfl : target = stored := Option.some.inj (hTarget.symm.trans hStoredRow)
      have hOfJob : target.schedule = pk :=
        hSchedule.trans (Option.some.inj (hTaskJob.symm.trans hJob))
      rcases hCarried with ⟨state, hLive, hState⟩ | ⟨hNotSpent, hCarried⟩
      · refine ⟨task.pk, newValues.apply target, by rw [hTasks, if_pos rfl], hOfJob, ?_⟩
        simpa [TaskPatch.apply, hState] using hLive
      · -- The task that was moved is not the one that keeps the chain going.
        obtain ⟨taskPk, row, hRow, hRowJob, hRowLive⟩ := hBefore hCarried
        have hNe : taskPk ≠ task.pk := by
          rintro rfl
          obtain rfl : target = row := Option.some.inj (hTarget.symm.trans hRow)
          exact hNotSpent ⟨old, hOld ▸ hRowLive, rfl⟩
        exact ⟨taskPk, row, by rw [hTasks, if_neg hNe, hRow], hRowJob, hRowLive⟩

/-! ## Sessions in a run -/

/-- Nothing out of the ordinary happens to the sessions of a lasting run. -/
theorem ordinary_of_run
    (hRun : Run (scheduler reading) (lastingRuns reading kind definition) (emptyPool clock)
      pool) {pid : Nat} {request : Request} {session : Session}
    (hSession : sessionOf pool pid = some (request, session)) :
    Ordinary kind session.facts := by
  have hIdle := emptyPool_idle clock
  refine ⟨fun fact hFact => ?_, never_failedAfterStart hRun hIdle pid request session hSession⟩
  obtain ⟨entry, hEntry, -, hRecorded⟩ := logged_of_mem_facts hSession hFact
  obtain ⟨hAnswered, hReported, hContinues⟩ := hRun.logged
    (C := fun entry : SchedulerEntry =>
      Answered reading entry.before entry.op.act entry.reply ∧
        entry.op.act.Reports (·.Reported) entry.reply ∧
        entry.op.act.Reports kind.Continues entry.reply) hIdle
    (fun pool entry pool' _ hStep hA => by
      have hBefore : entry.before = pool.shared := by cases hStep; rfl
      exact ⟨hBefore ▸ hA.1.2.2.1 entry rfl, hA.1.2.2.2.1 entry rfl, hA.2.1 entry rfl⟩)
    entry hEntry
  obtain ⟨owner, ⟨scope, act⟩, reply, before⟩ := entry
  cases act with
  | findTasks start limit conditional =>
      cases hRecorded
      intro e hError
      cases (hAnswered _ rfl).trans hError
  | updateTask pk newValues conditional =>
      cases hRecorded
      intro e hError
      cases (hAnswered _ rfl).trans hError
  | createTask row =>
      cases hRecorded
      intro e hError
      -- The store rejects a row only because its key is taken.
      simp only [Answered, serve] at hAnswered
      split at hAnswered
      · cases (hAnswered _ rfl).trans hError
      · cases (hAnswered _ rfl).trans hError
        rfl
  | startJob taskId jobName context =>
      cases hRecorded
      cases reply with
      | error e => exact hReported.elim
      | ok state => exact ⟨state, rfl, hReported, hContinues⟩
  | _ => cases hRecorded

/-- A call that moves no tasks on has used up no live one. -/
theorem carried_of_other (hRun : Run (scheduler reading) A first pool)
    (hIdle : first.Idle) {pid : Nat} {request : Request} {session : Session}
    {pk : PrimaryKeyType} (hSession : sessionOf pool pid = some (request, session))
    (hCall : ¬ (request.call.creates ∨ request.call.advances)) :
    Carried kind request.call pk session.facts := by
  have hUntouched : ¬ (request.call.creates ∨ request.call.advances) →
      session.task = none ∧ Carried kind request.call pk session.facts := by
    refine session_invariant (I := fun request session =>
      ¬ (request.call.creates ∨ request.call.advances) →
        session.task = none ∧ Carried kind request.call pk session.facts)
      hRun hIdle ?_ ?_ pid request session hSession
    · intro request hOther
      rw [Session.facts_start]
      refine ⟨?_, ?_⟩
      · cases hCall : request.call with
        | startTask task => simp [hCall, Call.advances] at hOther
        | _ => rfl
      · exact Bool.eq_false_iff.mpr fun hCreates => hOther (Or.inl hCreates)
    · intro request session scope act reply db after hBefore hMay _ hOther
      obtain ⟨hTask, hCarried⟩ := hBefore hOther
      have hChange := session.change act reply
      generalize session.next act reply = next at hChange
      cases hChange with
      | recorded fact hFact _ =>
          -- a task is used up by a call that works on one only
          refine ⟨hTask, Or.inr ⟨fun hSpends => ?_, hCarried⟩⟩
          cases act <;> cases hFact <;> try exact hSpends
          obtain ⟨-, -, sched, task, old, new, -, hOwn, -⟩ := hMay
          rw [hTask] at hOwn
          cases hOwn
      | found start limit conditional row hJob =>
          obtain ⟨-, execJobId, result, hCall, -⟩ := hMay.2.2 hJob
          exact absurd (Or.inr (by rw [hCall]; rfl)) hOther
      | _ => exact ⟨hTask, hCarried⟩
  exact (hUntouched hCall).2

/-- A call that is about to perform an operation is allowed to by `handover`. -/
theorem may_handover_of_step (hRun : Run (scheduler reading) A first pool)
    (hIdle : first.Idle) {pid : Nat} {scope : Scope} {act : Act} {reply : act.Reply}
    {request : Request} {session : Session}
    (hStep : Step (scheduler reading) pool (.ran ⟨pid, ⟨scope, act⟩, reply, pool.shared⟩)
      pool') (hSession : sessionOf pool pid = some (request, session)) :
    (handover kind request).may session ⟨scope, act⟩ := by
  have hHonors : pool.Honors (handover kind) (fun request => .start request.call)
      (fun _ _ _ => True) := by
    refine hRun.honors (fun request => ?_) hIdle
    exact Prog.Sat.mono request.honors_handover fun _ _ _ => trivial
  cases hStep with
  | run _ other op next _ after hProc hExec =>
      rw [sessionOf, Pool.stateOf_eq_some hProc] at hSession
      cases hSession
      have hSame : (handover kind request).replay (Session.start request.call) pid pool.log =
          (contract request).replay (Session.start request.call) pid pool.log :=
        Protocol.replay_congr rfl
      rw [← hSame]
      exact (hHonors pid request _ hProc).1

/-! ## The law -/

/-- The rows of the job that nobody holds have a live task, and so have those whose
holder has carried the chain on. -/
def ChainInvariant (kind : ChainKind) (definition : NewScheduledJob) (pool : SchedulerPool) :
    Prop :=
  ∀ pk row, pool.shared.job pk = some row → row.toNewScheduledJob = definition →
    (row.leaseOwner = none → Alive kind pool.shared pk) ∧
    ∀ pid request session leaseId, sessionOf pool pid = some (request, session) →
      session.job = some pk → session.leaseId = some leaseId → session.closed = false →
      row.leaseOwner = some leaseId → Carried kind request.call pk session.facts →
      Alive kind pool.shared pk

/-- A call that gives a lease of the job up has carried its chain on. -/
theorem carried_of_release
    (hRun : Run (scheduler reading) (lastingRuns reading kind definition) (emptyPool clock)
      pool) {pid : Nat} {request : Request} {session : Session} {scope : Scope} {act : Act}
    {reply : act.Reply} {pk : PrimaryKeyType} {row : ScheduledJobDataModel}
    {leaseId : LeaseIdType}
    (hStep : Step (scheduler reading) pool (.ran ⟨pid, ⟨scope, act⟩, reply, pool.shared⟩)
      pool') (hSession : sessionOf pool pid = some (request, session))
    (hReleases : act.Releases) (hRow : pool.shared.job pk = some row)
    (hDefinition : row.toNewScheduledJob = definition)
    (hOwner : row.leaseOwner = some leaseId) (hLeaseId : session.leaseId = some leaseId)
    (hOpen : session.closed = false) : Carried kind request.call pk session.facts := by
  have hIdle := emptyPool_idle clock
  by_cases hCall : request.call.creates ∨ request.call.advances
  · obtain ⟨sched, hSched, hChained⟩ :=
      may_handover_of_step hRun hIdle hStep hSession hReleases hCall
    have hJob := job_of_owner hRun freshLeaseIds_of_lasting hSession hLeaseId hRow hOwner
    have hCurrent : row = sched := (holding hRun freshLeaseIds_of_lasting).current pid request
      session pk leaseId row sched hSession hJob hLeaseId hOpen hSched hRow hOwner
    subst hCurrent
    have hRecurs : Recurs kind request.node definition := request_of_session hRun hIdle
      (fun _ _ _ h => h.1.2.2.2.2) pid request session hSession
    have hThrows : RetriesThrowErrors kind request.node definition :=
      request_of_session hRun hIdle (fun _ _ _ h => h.2.2) pid request session hSession
    have hCarried := hChained (hDefinition ▸ hRecurs) (hDefinition ▸ hThrows)
      (ordinary_of_run hRun hSession)
    rwa [pk_of_job hRow] at hCarried
  · exact carried_of_other hRun hIdle hSession hCall

/-- The chain of the job with this row: a live task while nobody holds the row, and while
its holder has carried the chain on. -/
structure RowChain (kind : ChainKind) (pool : SchedulerPool) (pk : PrimaryKeyType)
    (row : ScheduledJobDataModel) : Prop where
  free : row.leaseOwner = none → Alive kind pool.shared pk
  held : ∀ pid request session leaseId, sessionOf pool pid = some (request, session) →
    session.job = some pk → session.leaseId = some leaseId → session.closed = false →
    row.leaseOwner = some leaseId → Carried kind request.call pk session.facts →
    Alive kind pool.shared pk

theorem RowChain.of_alive {pk : PrimaryKeyType} {row : ScheduledJobDataModel}
    (h : Alive kind pool.shared pk) : RowChain kind pool pk row :=
  ⟨fun _ => h, fun _ _ _ _ _ _ _ _ _ _ => h⟩

theorem ChainInvariant.rowChain {pk : PrimaryKeyType} {row : ScheduledJobDataModel}
    (h : ChainInvariant kind definition pool) (hRow : pool.shared.job pk = some row)
    (hDefinition : row.toNewScheduledJob = definition) : RowChain kind pool pk row :=
  ⟨(h pk row hRow hDefinition).1, (h pk row hRow hDefinition).2⟩

/-- An operation of a call in a lasting run, and the sessions after it. -/
structure ChainStep (reading : BeforeDateReading) (kind : ChainKind)
    (definition : NewScheduledJob) (clock : Date) (pool pool' : SchedulerPool) (actor : Nat)
    (request : Request) (session : Session) (scope : Scope) (act : Act) (reply : act.Reply) :
    Prop where
  run : Run (scheduler reading) (lastingRuns reading kind definition) (emptyPool clock) pool
  step : Step (scheduler reading) pool (.ran ⟨actor, ⟨scope, act⟩, reply, pool.shared⟩) pool'
  lasts : lastingRuns reading kind definition pool
    (.ran ⟨actor, ⟨scope, act⟩, reply, pool.shared⟩) pool'
  actor_eq : sessionOf pool actor = some (request, session)
  may : May request session ⟨scope, act⟩
  exec : Exec reading pool.shared act reply pool'.shared
  sessions : ∀ other, sessionOf pool' other =
    if other = actor then some (request, session.next act reply) else sessionOf pool other

section Steps

variable {actor : Nat} {request : Request} {session : Session} {scope : Scope} {act : Act}
  {reply : act.Reply} {pk : PrimaryKeyType} {row : ScheduledJobDataModel}

theorem ChainStep.actor_next
    (hStep : ChainStep reading kind definition clock pool pool' actor request session scope act
      reply) : sessionOf pool' actor = some (request, session.next act reply) := by
  rw [hStep.sessions, if_pos rfl]

theorem ChainStep.after
    (hStep : ChainStep reading kind definition clock pool pool' actor request session scope act
      reply) :
    Run (scheduler reading) (lastingRuns reading kind definition) (emptyPool clock) pool' :=
  Run.tail hStep.run hStep.step hStep.lasts

theorem ChainStep.stored
    (hStep : ChainStep reading kind definition clock pool pool' actor request session scope act
      reply) (task : TaskModel) (hTask : session.task = some task) :
    ∃ row, pool.shared.task task.pk = some row ∧ row.schedule = task.schedule :=
  tasksStored hStep.run (emptyPool_idle clock) (fun _ _ _ h => h.1.2.1) actor request session task
    hStep.actor_eq hTask

/-- Only the call that acts has its lease id. -/
theorem ChainStep.eq_actor
    (hStep : ChainStep reading kind definition clock pool pool' actor request session scope act
      reply) {pid : Nat} {other : Request} {after : Session} {leaseId : LeaseIdType}
    (hSession : sessionOf pool' pid = some (other, after))
    (hLeaseId : after.leaseId = some leaseId) (hOwn : session.leaseId = some leaseId) :
    pid = actor ∧ other = request ∧ after = session.next act reply := by
  obtain rfl : pid = actor := leaseIdsDistinct hStep.after (emptyPool_idle clock)
    freshLeaseIds_of_lasting pid actor other request after _ leaseId hSession hStep.actor_next
    hLeaseId (hStep.may.keeps_leaseId hOwn)
  have hSame := Option.some.inj (hSession.symm.trans hStep.actor_next)
  exact ⟨rfl, Prod.mk.inj hSame⟩

/-- The chain of a job is only touched by the call that owns its row. -/
theorem ChainStep.alive_or_owned
    (hStep : ChainStep reading kind definition clock pool pool' actor request session scope act
      reply) (hAlive : Alive kind pool.shared pk) :
    Alive kind pool'.shared pk ∨ ∃ leaseId owned, session.leaseId = some leaseId ∧
      pool.shared.job pk = some owned ∧ owned.leaseOwner = some leaseId := by
  have hLeases : ∀ pool event pool', lastingRuns reading kind definition pool event pool' →
      leasesRespected pool event pool' := fun _ _ _ h =>
    ⟨h.1.1.1, noTakeoverAtWork_of_noTakeover h.1.1.2⟩
  rcases hAlive.kept (hStep.may.taskChange hStep.exec) hStep.stored with
    hAlive' | ⟨hJob, ⟨leaseId, rfl⟩, hStore⟩
  · exact Or.inl hAlive'
  · have hWork := atWork_of_performed hStep.step hStep.actor_eq hStep.may hStore hJob
    obtain ⟨owned, hOwned, hOwner⟩ :=
      owned_atWork hStep.run hLeases actor request session leaseId pk hWork
    exact Or.inr ⟨leaseId, owned, hWork.leaseId_eq, hOwned, hOwner⟩

/-- An operation that leaves the row alone keeps its chain. -/
theorem RowChain.kept
    (hStep : ChainStep reading kind definition clock pool pool' actor request session scope act
      reply) (hRow : pool.shared.job pk = some row) (h : RowChain kind pool pk row) :
    RowChain kind pool' pk row := by
  constructor
  · intro hNone
    refine (hStep.alive_or_owned (h.free hNone)).resolve_right ?_
    rintro ⟨leaseId, owned, -, hOwned, hOwner⟩
    obtain rfl : owned = row := Option.some.inj (hOwned.symm.trans hRow)
    rw [hNone] at hOwner
    cases hOwner
  · intro pid other after leaseId hSession _ hLeaseId hOpen hOwner hCarried
    -- who holds the lease after the step has held it before
    obtain ⟨before, hBefore, hBeforeId, hJob⟩ := session_of_owner_kept hStep.run hStep.after
      (moves_of_step hStep.run (emptyPool_idle clock) hStep.step) freshLeaseIds_of_lasting
      hSession hLeaseId hRow hOwner
    by_cases hPid : pid = actor
    · -- The holder itself acts, and keeps alive what it has carried on.
      subst hPid
      rw [hStep.actor_eq] at hBefore
      cases hBefore
      rw [hStep.actor_next] at hSession
      cases hSession
      have hStillOpen : session.closed = false := by
        by_contra hClosed
        rw [Bool.not_eq_false] at hClosed
        rw [Session.closed_next hClosed] at hOpen
        cases hOpen
      exact alive_of_carried_next hStep.may hStep.exec
        (session_sound hStep.run (emptyPool_idle clock) hStep.actor_eq) hJob hStep.stored
        (h.held pid _ session leaseId hStep.actor_eq hJob hBeforeId hStillOpen hOwner) hCarried
    · rw [hStep.sessions, if_neg hPid] at hSession
      rw [hSession] at hBefore
      cases hBefore
      refine (hStep.alive_or_owned (h.held pid other after leaseId hSession hJob hLeaseId hOpen
        hOwner hCarried)).resolve_right ?_
      rintro ⟨own, owned, hOwn, hOwned, hOwnedBy⟩
      obtain rfl : owned = row := Option.some.inj (hOwned.symm.trans hRow)
      obtain rfl : own = leaseId := Option.some.inj (hOwnedBy.symm.trans hOwner)
      exact hPid (leaseIdsDistinct hStep.run (emptyPool_idle clock) freshLeaseIds_of_lasting pid
        actor _ _ _ _ own hSession hStep.actor_eq hLeaseId hOwn)

/-- A call that has just created a job has left it no task yet, and owns it. -/
theorem RowChain.of_created {new : ScheduledJobDataModel}
    (hStep : ChainStep reading kind definition clock pool pool' actor request session scope
      (.createSchedule new) (Except.ok ()))
    (hCreate : MayCreate request session new) : RowChain kind pool' new.pk new := by
  obtain ⟨schedule, own, expires, hCall, -, hOwn, hFacts, hOwner, -⟩ := hCreate
  constructor
  · intro hNone
    rw [hOwner] at hNone
    cases hNone
  · intro pid other after leaseId hSession _ hLeaseId _ hOwnedBy hCarried
    obtain rfl : own = leaseId := Option.some.inj (hOwner.symm.trans hOwnedBy)
    obtain ⟨-, rfl, rfl⟩ := hStep.eq_actor hSession hLeaseId hOwn
    have hNoFacts : (session.next (.createSchedule new) (Except.ok ())).facts = [] := hFacts
    rw [hNoFacts, Carried, hCall] at hCarried
    cases hCarried

/-- An operation on a row writes no task, so it keeps a chain alive. -/
theorem ChainStep.alive_of_update {target : PrimaryKeyType} {newValues : ScheduledJobPatch}
    {conditional : Conditional ScheduledJobColumn} {given : Except JsError Nat}
    (hStep : ChainStep reading kind definition clock pool pool' actor request session scope
      (.updateSchedule target newValues conditional) given) (h : Alive kind pool.shared pk) :
    Alive kind pool'.shared pk := by
  cases hStep.may.taskChange hStep.exec with
  | kept _ hTasks => exact h.of_tasks hTasks

/-- A lease that is given up was one under which the chain was carried on. -/
theorem RowChain.of_released {newValues : ScheduledJobPatch}
    {conditional : Conditional ScheduledJobColumn} {given : Except JsError Nat} {own : LeaseIdType}
    (hStep : ChainStep reading kind definition clock pool pool' actor request session scope
      (.updateSchedule pk newValues conditional) given)
    (hReleases : (Act.updateSchedule pk newValues conditional).Releases)
    (hRow : pool.shared.job pk = some row) (hDefinition : row.toNewScheduledJob = definition)
    (hOwner : row.leaseOwner = some own) (hOwn : session.leaseId = some own)
    (hOpen : session.closed = false) (h : RowChain kind pool pk row) :
    RowChain kind pool' pk (newValues.apply row) := by
  have hCarried := carried_of_release hStep.run hStep.step hStep.actor_eq hReleases hRow
    hDefinition hOwner hOwn hOpen
  have hJob := job_of_owner hStep.run freshLeaseIds_of_lasting hStep.actor_eq hOwn hRow hOwner
  exact .of_alive (hStep.alive_of_update
    (h.held actor request session own hStep.actor_eq hJob hOwn hOpen hOwner hCarried))

/-- A call that marks its job as needing repair is done with it. -/
theorem RowChain.of_marked {now : Date} {pasture : Bool} {reason : Option String}
    {conditional : Conditional ScheduledJobColumn} {count : Nat} {own : LeaseIdType}
    (hStep : ChainStep reading kind definition clock pool pool' actor request session scope
      (.updateSchedule pk (needsRepairPatch now pasture reason) conditional)
      (Except.ok (count + 1)))
    (hOwner : row.leaseOwner = some own) (hOwn : session.leaseId = some own) :
    RowChain kind pool' pk ((needsRepairPatch now pasture reason).apply row) := by
  constructor
  · intro hNone
    have hSame : row.leaseOwner = none := hNone
    rw [hOwner] at hSame
    cases hSame
  · intro pid other after leaseId hSession _ hLeaseId hStill hOwnedBy _
    have hSame : row.leaseOwner = some leaseId := hOwnedBy
    obtain rfl : own = leaseId := Option.some.inj (hOwner.symm.trans hSame)
    obtain ⟨-, -, rfl⟩ := hStep.eq_actor hSession hLeaseId hOwn
    cases hStill

/-- **Step lemma.**  An operation of a lasting run keeps the chains. -/
theorem ChainStep.rowChain
    (hStep : ChainStep reading kind definition clock pool pool' actor request session scope act
      reply) (hChain : ChainInvariant kind definition pool)
    (hRow : pool'.shared.job pk = some row) (hDefinition : row.toNewScheduledJob = definition) :
    RowChain kind pool' pk row := by
  have hSame : pool.shared.job pk = some row → RowChain kind pool' pk row := fun hBefore =>
    (hChain.rowChain hBefore hDefinition).kept hStep hBefore
  have hCoherent := (holding hStep.run freshLeaseIds_of_lasting).coherent
  cases hStep.may.leaseChange hStep.exec with
  | kept hNone hJobs => exact hSame (hJobs pk ▸ hRow)
  | created new hCreate hAbsent hJobs =>
      rw [hJobs] at hRow
      split at hRow
      · rename_i hPk
        obtain rfl := Option.some.inj hRow
        exact hPk ▸ RowChain.of_created hStep hCreate
      · exact hSame hRow
  | acquired other operation taskPk own expires count old hOld hFree _ _ _ _ hJobs =>
      rw [hJobs] at hRow
      split at hRow
      · rename_i hPk
        subst hPk
        obtain rfl := Option.some.inj hRow
        have hBefore : RowChain kind pool pk old := hChain.rowChain hOld hDefinition
        exact .of_alive (hStep.alive_of_update
          (hBefore.free ((hCoherent pk old hOld).mp hFree)))
      · exact hSame hRow
  | takenOver other own _ _ _ _ _ old _ hOld hHeld _ _ _ _ hJobs =>
      -- leases are not taken over from calls in a lasting run
      have hNone : old.leaseOwner = none :=
        hStep.lasts.1.1.2 _ rfl (by simp [repairPatch]) old hOld
      exact absurd ((hCoherent other old hOld).mpr hNone) hHeld
  | closed other newValues _ _ own count old hOld _ hOwner hOwn hOpen _ hValues _ hJobs =>
      rw [hJobs] at hRow
      split at hRow
      · rename_i hPk
        subst hPk
        obtain rfl := Option.some.inj hRow
        rcases hValues with rfl | ⟨now, rfl⟩
        · have hBefore : RowChain kind pool pk old := hChain.rowChain hOld hDefinition
          exact hBefore.of_released hStep rfl hOld hDefinition hOwner hOwn hOpen
        · exact RowChain.of_marked hStep hOwner hOwn
      · exact hSame hRow

end Steps

theorem chainInvariant
    (hRun : Run (scheduler reading) (lastingRuns reading kind definition) (emptyPool clock)
      pool) : ChainInvariant kind definition pool := by
  refine hRun.invariant ?_ ?_
  · intro pk row hRow
    cases hRow
  · intro pool event pool' hBefore hChain hStep hA pk row hRow hDefinition
    cases moves_of_step hBefore (emptyPool_idle clock) hStep with
    | quiet _ _ hJobs hTasks _ _ hNew =>
        obtain ⟨hFree, hHeld⟩ := hChain.rowChain (hJobs pk ▸ hRow) hDefinition
        refine ⟨fun hNone => (hFree hNone).of_tasks hTasks,
          fun pid request session leaseId hSession hJob hLeaseId hOpen hOwner hCarried => ?_⟩
        rcases hNew pid request session hSession with hOld | ⟨-, rfl⟩
        · exact (hHeld pid request session leaseId hOld hJob hLeaseId hOpen hOwner
            hCarried).of_tasks hTasks
        · rw [Session.job_start] at hJob
          cases hJob
    | performed actor request session scope act reply _ hActor hMay hExec _ hSessions =>
        have hPerformed : ChainStep reading kind definition clock pool pool' actor request
            session scope act reply := ⟨hBefore, hStep, hA, hActor, hMay, hExec, hSessions⟩
        obtain ⟨hFree, hHeld⟩ := hPerformed.rowChain hChain hRow hDefinition
        exact ⟨hFree, hHeld⟩

/-- **A recurring job never goes dead.**  In every lasting run, a job of the
definition that nobody holds the lease of has a task that is pending or started. -/
theorem never_dead
    (hRun : Run (scheduler reading) (lastingRuns reading kind definition) (emptyPool clock)
      pool) {pk : PrimaryKeyType} {row : ScheduledJobDataModel}
    (hRow : pool.shared.job pk = some row) (hDefinition : row.toNewScheduledJob = definition)
    (hFree : row.updateState = none) :
    ∃ task ∈ pool.shared.taskTable, task.schedule = pk ∧
      (task.state = .pending ∨ task.state = .started) := by
  have hUnowned := ((holding hRun freshLeaseIds_of_lasting).coherent pk row hRow).mp hFree
  obtain ⟨taskPk, task, hTask, hSchedule, hLive⟩ :=
    (chainInvariant hRun pk row hRow hDefinition).1 hUnowned
  refine ⟨task, (task_eq_some_iff.mp hTask).1, hSchedule, ?_⟩
  cases kind with
  | start => exact Or.inl hLive
  | finish => exact hLive

/-! ## Runs of the sample job -/

private theorem sampleNode_recurs (schedule : NewScheduledJob) :
    Recurs .finish (sampleNode sampleFinish []) schedule where
  creation := ⟨fun now _ => .ok (some now), fun now _ => .ok (.queue (some now)), rfl,
    fun now _ => ⟨now, rfl⟩, fun now _ => ⟨now, rfl⟩⟩
  duplicate := Or.inr rfl

/-- The sample node launches the sample task, and is told of its end by the given
result, if any. -/
private def launchAndFinish (launched : JobExecutionState) (count : Nat)
    (finished : List JobExecutionState) : List (Turn Request Answers) :=
  .spawn ⟨sampleNode sampleFinish [], 1, .startTask sampleTask⟩ ::
    turns 1 count { leaseId := "start", job := .ok launched } ++
      finished.flatMap fun result =>
        .spawn ⟨sampleNode sampleFinish [], 2, .taskFinished "run" result⟩ ::
          turns 2 12 { leaseId := "finish", primaryKey := "next" }

/-- The sample job is free. -/
private def freeSample (pool : SchedulerPool) : Bool :=
  (pool.shared.job "job").any fun row =>
    row.updateState = none && row.toNewScheduledJob = sampleSchedule

/-- The steps that do not start a call are those of a recurring run. -/
private def checksRecurring (pool : SchedulerPool) (event : Event signature Database Request)
    (pool' : SchedulerPool) : Bool :=
  decide (freshLeaseIds pool event pool' ∧ noTakeover pool event pool' ∧
    startsStoredTasks pool event pool' ∧ storeAnswers strictlyBefore pool event pool' ∧
    jobsReport pool event pool')

/-- The calls of these runs are made by the sample node. -/
private theorem node_of_turn {launched : JobExecutionState} {count : Nat}
    {finished : List JobExecutionState} {turn : Turn Request Answers} {request : Request}
    {pool pool' : SchedulerPool}
    (hTurn : turn ∈ createSample sampleFinish ++ launchAndFinish launched count finished)
    (hTake : (driver strictlyBefore).take pool turn = some (.spawned request, pool')) :
    request.node = sampleNode sampleFinish [] := by
  obtain rfl := Driver.spawn_of_take hTake
  simp only [createSample, launchAndFinish, turns, List.mem_append, List.mem_cons,
    List.mem_flatMap, List.mem_replicate, reduceCtorEq, and_false, or_false] at hTurn
  rcases hTurn with h | h | ⟨result, -, h⟩ <;> cases h <;> rfl

private theorem recurring_of_check {launched : JobExecutionState} {count : Nat}
    {finished : List JobExecutionState} {turn : Turn Request Answers}
    {pool pool' : SchedulerPool} {event : Event signature Database Request}
    (hTurn : turn ∈ createSample sampleFinish ++ launchAndFinish launched count finished)
    (hTake : (driver strictlyBefore).take pool turn = some (event, pool'))
    (hCheck : checksRecurring pool event pool' = true) :
    recurringRuns strictlyBefore .finish sampleSchedule pool event pool' := by
  obtain ⟨hFresh, hNone, hStored, hAnswers, hReports⟩ := of_decide_eq_true hCheck
  refine ⟨⟨hFresh, hNone⟩, hStored, hAnswers, hReports, fun request hRequest => ?_⟩
  cases event with
  | spawned other =>
      cases hRequest
      rw [node_of_turn hTurn hTake]
      exact sampleNode_recurs sampleSchedule
  | _ => cases hRequest

/-- The sample job runs through one task and goes on with the next one. -/
theorem sample_never_dead :
    ∃ pool : SchedulerPool, pool.procs.length = 3 ∧
      ∃ task ∈ pool.shared.taskTable, task.schedule = "job" ∧
        (task.state = .pending ∨ task.state = .started) := by
  have hDriven : ((driver strictlyBefore).drive
      (fun pool event pool' => checksRecurring pool event pool' &&
        decide (∀ entry ∈ event.entry,
          entry.op.act.Reports ChainKind.finish.Continues entry.reply))
      (createSample sampleFinish ++
        launchAndFinish (.running "run") 10 [.completed "run" none]) (emptyPool 0)).any
      (fun pool => pool.procs.length = 3 && freeSample pool) = true := by
    decide +kernel
  obtain ⟨pool, hRun, hTest⟩ := Driver.exists_run_of_turns
    (A := lastingRuns strictlyBefore .finish sampleSchedule)
    (fun turn hTurn _ event _ hTake hCheck => by
      rw [Bool.and_eq_true] at hCheck
      refine ⟨recurring_of_check hTurn hTake hCheck.1, of_decide_eq_true hCheck.2,
        fun request hRequest => ?_⟩
      cases event with
      | spawned other =>
          cases hRequest
          rw [node_of_turn hTurn hTake]
          intro _ retry sched task reason e hRetry hThrown
          cases hRetry
          cases hThrown
      | _ => cases hRequest) hDriven
  rw [Bool.and_eq_true] at hTest
  obtain ⟨row, hRow, hFree⟩ := (Option.any_eq_true _ _).mp hTest.2
  simp only [Bool.and_eq_true, decide_eq_true_eq] at hFree
  exact ⟨pool, of_decide_eq_true hTest.1, never_dead hRun hRow hFree.2 hFree.1⟩

/-- The call of the given number has settled with the key. -/
private def settledWith (pid : Nat) (key : PrimaryKeyType) (pool : SchedulerPool) : Bool :=
  match pool.procs[pid]? with
  | some ⟨_, some (.ret (.ok settled))⟩ => settled = some key
  | _ => false

private theorem settledWith_elim {pid : Nat} {key : PrimaryKeyType} {pool : SchedulerPool}
    (h : settledWith pid key pool = true) :
    ∃ request, pool.procs[pid]? = some ⟨request, some (.ret (.ok (some key)))⟩ := by
  unfold settledWith at h
  split at h
  · rename_i request settled hProc
    obtain rfl : settled = some key := of_decide_eq_true h
    exact ⟨request, hProc⟩
  · cases h

/-- The sample job is free and enabled, and no task of it is pending or started. -/
private def deadSample (pool : SchedulerPool) : Bool :=
  settledWith 0 "job" pool &&
    ((pool.shared.job "job").any fun row => row.updateState = none && row.pasture = false &&
      row.toNewScheduledJob = sampleSchedule) &&
    pool.shared.taskTable.rows.all fun row => row.state ≠ .pending && row.state ≠ .started

/-- **A launch that reports a finished job ends the chain.**  The job waits for a
finish to ask for its next task, and `startTask` asks only at the start. -/
theorem chain_broken_by_finished_launch :
    ¬ ∀ (kind : ChainKind) (definition : NewScheduledJob) (pool : SchedulerPool)
        (creator : Nat) (request : Request) (pk : PrimaryKeyType)
        (row : ScheduledJobDataModel),
      Run (scheduler strictlyBefore) (recurringRuns strictlyBefore kind definition)
        (emptyPool 0) pool →
      pool.procs[creator]? = some ⟨request, some (.ret (.ok (some pk)))⟩ →
      pool.shared.job pk = some row → row.toNewScheduledJob = definition →
      row.updateState = none → row.pasture = false →
      ∃ task ∈ pool.shared.taskTable, task.schedule = pk ∧
        (task.state = .pending ∨ task.state = .started) := by
  intro hLasting
  have hDriven : ((driver strictlyBefore).drive checksRecurring
      (createSample sampleFinish ++ launchAndFinish (.completed "run" none) 11 [])
      (emptyPool 0)).any deadSample = true := by
    decide +kernel
  obtain ⟨pool, hRun, hDead⟩ := Driver.exists_run_of_turns
    (A := recurringRuns strictlyBefore .finish sampleSchedule)
    (fun turn hTurn _ event _ hTake hCheck => recurring_of_check hTurn hTake hCheck) hDriven
  simp only [deadSample, Bool.and_eq_true] at hDead
  obtain ⟨⟨hCreated, hStored⟩, hTasks⟩ := hDead
  obtain ⟨request, hProc⟩ := settledWith_elim hCreated
  obtain ⟨row, hRow, hFree⟩ := (Option.any_eq_true _ _).mp hStored
  simp only [Bool.and_eq_true, decide_eq_true_eq] at hFree
  obtain ⟨task, hTask, -, hState⟩ := hLasting .finish sampleSchedule pool 0 request "job" row
    hRun hProc hRow hFree.2 hFree.1.1 hFree.1.2
  have hNone := List.all_eq_true.mp hTasks task hTask
  rcases hState with h | h <;> simp [h] at hNone

end TernScheduler
