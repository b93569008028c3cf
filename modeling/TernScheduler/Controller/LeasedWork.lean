import TernScheduler.Controller.Leases
import TernScheduler.Controller.TaskProgress

/-!
# Work under a lease excludes other work

While the callback of a call still has store calls to make and no repair takes
its lease over, the row of its job is owned by that call alone.  So what such a
call has found out about the tasks of its job stays true until it changes them
itself.

* `owned_atWork` says that a call at work owns the row of its job.
* `knowledge` says that a state the call found no task in is still empty.
* `atMostOne_of_knowledge` turns this into the uniqueness of a task in a state.
-/

namespace TernScheduler

open Interleaving Database

/-- A store call made by the work done under the given lease. -/
def WorksUnder (leaseId : LeaseIdType) (operation : Operation) : Prop :=
  operation.scope = .callback leaseId ∧ operation.act.IsStoreCall

/-- The work done under the lease still has store calls to make. -/
def Working (pool : SchedulerPool) (leaseId : LeaseIdType) (pid : Nat) : Prop :=
  pool.MayReach (WorksUnder leaseId) pid

/-- No lease is taken over while the work done under it still has store calls to
make. -/
def noTakeoverAtWork : RunCondition signature Database Request Settled :=
  fun pool event _ => ∀ entry ∈ event.entry, ∀ leaseId,
    takesFrom pool.shared leaseId entry.op.act entry.reply →
      ∀ pid, ¬ Working pool leaseId pid

/-- Lease ids are unique, and no lease is taken over from a call at work. -/
def leasesRespected : RunCondition signature Database Request Settled :=
  fun pool event pool' =>
    freshLeaseIds pool event pool' ∧ noTakeoverAtWork pool event pool'

/-- The operation takes no lease from an owner. -/
def LeavesOwners (db : Database) : Act → Prop
  | .updateSchedule pk newValues _ =>
      newValues.leaseOwner.join ≠ none → ∀ row ∈ db.job pk, row.leaseOwner = none
  | _ => True

instance (db : Database) : (act : Act) → Decidable (LeavesOwners db act)
  | .updateSchedule pk newValues _ => inferInstanceAs (Decidable
      (newValues.leaseOwner.join ≠ none → ∀ row ∈ db.job pk, row.leaseOwner = none))
  | .createSchedule _ | .findSchedules .. | .createTask _ | .findTasks .. => isTrue trivial
  | .updateTask .. | .startJob .. | .currentTimeUTC | .createPrimaryKey => isTrue trivial
  | .createLeaseId | .retryDelay _ | .emit _ => isTrue trivial

/-- No lease is taken over at all. -/
def noTakeover : RunCondition signature Database Request Settled :=
  fun pool event _ => ∀ entry ∈ event.entry, LeavesOwners pool.shared entry.op.act

instance (pool : SchedulerPool) (event : Event signature Database Request)
    (pool' : SchedulerPool) : Decidable (noTakeover pool event pool') := by
  unfold noTakeover
  infer_instance

/-- A run without takeovers takes no lease over from a call at work. -/
theorem noTakeoverAtWork_of_noTakeover {pool pool' : SchedulerPool}
    {event : Event signature Database Request} (h : noTakeover pool event pool') :
    noTakeoverAtWork pool event pool' := by
  intro entry hEntry leaseId hTakes
  have hNone := h entry hEntry
  obtain ⟨pid, ⟨scope, act⟩, reply, before⟩ := entry
  cases act <;> simp only [takesFrom] at hTakes
  rcases reply with e | _ | count
  · exact hTakes.elim
  · exact hTakes.elim
  · obtain ⟨hWrites, row, hRow, hOwner⟩ := hTakes
    rw [hNone hWrites row hRow] at hOwner
    cases hOwner

/-- A call at work: it holds the lease of a job, and the work it does under that
lease still has store calls to make. -/
structure AtWork (pool : SchedulerPool) (pid : Nat) (request : Request)
    (session : Session) (leaseId : LeaseIdType) (pk : PrimaryKeyType) : Prop where
  session_eq : sessionOf pool pid = some (request, session)
  working : Working pool leaseId pid
  leaseId_eq : session.leaseId = some leaseId
  job_eq : session.job = some pk

variable {reading : BeforeDateReading}
  {A : RunCondition signature Database Request Settled} {clock : Date}
  {pool pool' : SchedulerPool} {event : Event signature Database Request}

/-- A call that has given its lease up does no more work under it. -/
theorem AtWork.closed_eq {first : SchedulerPool}
    (hRun : Run (scheduler reading) A first pool) (hIdle : first.Idle) {pid : Nat}
    {request : Request} {session : Session} {leaseId : LeaseIdType} {pk : PrimaryKeyType}
    (hAtWork : AtWork pool pid request session leaseId pk) : session.closed = false := by
  obtain ⟨other, program, hProc, hReaches⟩ := hAtWork.working
  have hSession := hAtWork.session_eq
  rw [sessionOf, Pool.stateOf_eq_some hProc] at hSession
  cases hSession
  have hHonors := honors_of_run hRun hIdle pid _ program hProc
  by_contra hOpen
  rw [Bool.not_eq_false] at hOpen
  refine hHonors.not_reaches (I := fun session => session.closed = true) hOpen ?_ ?_ hReaches
  · intro state op reply hClosed _
    exact Session.closed_next hClosed
  · intro state op hClosed hMay hWorks
    have hStillOpen := (hMay.1 leaseId hWorks.1).2.2
    rw [hClosed] at hStillOpen
    cases hStillOpen

theorem lt_of_session {pid : Nat} {state : Request × Session}
    (hSession : sessionOf pool pid = some state) : pid < pool.procs.length := by
  obtain ⟨proc, hProc, -⟩ := Option.map_eq_some_iff.mp hSession
  exact (List.getElem?_eq_some_iff.mp hProc).1

theorem Working.before (hStep : Step (scheduler reading) pool event pool') {pid : Nat}
    {leaseId : LeaseIdType} {state : Request × Session}
    (hSession : sessionOf pool pid = some state) (hWorking : Working pool' leaseId pid) :
    Working pool leaseId pid :=
  hStep.mayReach (lt_of_session hSession) hWorking

/-- A call that performs a store call under its lease is at work. -/
theorem atWork_of_performed {pid : Nat} {request : Request} {session : Session}
    {leaseId : LeaseIdType} {act : Act} {reply : act.Reply} {pk : PrimaryKeyType}
    (hStep : Step (scheduler reading) pool
      (.ran ⟨pid, ⟨.callback leaseId, act⟩, reply, pool.shared⟩) pool')
    (hSession : sessionOf pool pid = some (request, session))
    (hMay : May request session ⟨.callback leaseId, act⟩) (hStore : act.IsStoreCall)
    (hJob : session.job = some pk) : AtWork pool pid request session leaseId pk where
  session_eq := hSession
  working := show pool.MayReach (WorksUnder leaseId) pid from
    hStep.mayReach_of_ran ⟨rfl, hStore⟩
  leaseId_eq := (hMay.1 leaseId rfl).1
  job_eq := hJob

/-- A call at work after an operation of its own was at work before it, unless
the operation granted it the job. -/
theorem AtWork.before_own {pid : Nat} {request : Request} {session : Session}
    {leaseId : LeaseIdType} {pk : PrimaryKeyType} {scope : Scope} {act : Act}
    {reply : act.Reply}
    (hAtWork : AtWork pool' pid request (session.next act reply) leaseId pk)
    (hStep : Step (scheduler reading) pool event pool')
    (hSession : sessionOf pool pid = some (request, session))
    (hMay : May request session ⟨scope, act⟩) (hSound : session.Sound)
    (hJob : session.job ≠ none) : AtWork pool pid request session leaseId pk := by
  obtain ⟨held, hHeld⟩ := Option.ne_none_iff_exists'.mp hJob
  obtain ⟨own, hOwn⟩ := Option.ne_none_iff_exists'.mp (hSound.leased hJob)
  have hLeaseId : some own = some leaseId :=
    (hMay.keeps_leaseId hOwn).symm.trans hAtWork.leaseId_eq
  have hPk : some held = some pk := (hMay.keeps_job hHeld).symm.trans hAtWork.job_eq
  exact ⟨hSession, hAtWork.working.before hStep hSession, hOwn.trans hLeaseId,
    hHeld.trans hPk⟩

/-! ## The row of a call at work -/

/-- The row of the job of a call at work is owned by that call. -/
def OwnedAtWork (pool : SchedulerPool) : Prop :=
  ∀ pid request session leaseId pk, AtWork pool pid request session leaseId pk →
    ∃ row, pool.shared.job pk = some row ∧ row.leaseOwner = some leaseId

theorem owned_atWork (hRun : Run (scheduler reading) A (emptyPool clock) pool)
    (hLeases : ∀ pool event pool', A pool event pool' → leasesRespected pool event pool') :
    OwnedAtWork pool := by
  have hIdle := emptyPool_idle clock
  have hFresh : ∀ pool event pool', A pool event pool' → freshLeaseIds pool event pool' :=
    fun pool event pool' hA => (hLeases pool event pool' hA).1
  refine hRun.invariant ?_ ?_
  · intro pid request session leaseId pk hAtWork
    have hSession := hAtWork.session_eq
    rw [sessionOf_idle hIdle] at hSession
    cases hSession
  · intro pool event pool' hBefore hOwned hStep hA pid request session leaseId pk hAtWork
    have hAfter : Run (scheduler reading) A (emptyPool clock) pool' :=
      .tail hBefore hStep hA
    have hHolding := holding hBefore hFresh
    cases moves_of_step hBefore hIdle hStep with
    | quiet _ _ hJobs _ _ _ hNew =>
        rcases hNew pid request session hAtWork.session_eq with hOld | ⟨-, rfl⟩
        · rw [hJobs]
          exact hOwned pid request session leaseId pk
            ⟨hOld, hAtWork.working.before hStep hOld, hAtWork.leaseId_eq, hAtWork.job_eq⟩
        · have hJob := hAtWork.job_eq
          rw [Session.job_start] at hJob
          cases hJob
    | performed actor actorRequest before scope act reply _ hActor hMay hExec _ hSessions =>
        have hChange := hMay.leaseChange hExec
        have hKept : ∀ {other : Session}, AtWork pool pid request other leaseId pk →
            (before.leaseId = some leaseId → (before.next act reply).closed = false) →
            ∃ row, pool'.shared.job pk = some row ∧ row.leaseOwner = some leaseId := by
          intro other hWork hNotClosed
          obtain ⟨row, hRow, hOwner⟩ := hOwned pid request other leaseId pk hWork
          refine hChange.owner_kept (hHolding.coherent pk row hRow) hRow hOwner ?_ hNotClosed
          intro hTaken
          exact (hLeases _ _ _ hA).2 _ rfl leaseId hTaken pid hWork.working
        have hSession := hAtWork.session_eq
        rw [hSessions] at hSession
        split at hSession
        · rename_i hPid
          subst hPid
          cases hSession
          by_cases hHad : before.job = none
          · have hNot : before.job ≠ some pk := by simp [hHad]
            obtain ⟨row, hRow, hOwner⟩ := hChange.owner_of_gain hNot hAtWork.job_eq
            exact ⟨row, hRow, hOwner.trans hAtWork.leaseId_eq⟩
          · exact hKept (hAtWork.before_own hStep hActor hMay
              (session_sound hBefore hIdle hActor) hHad)
              fun _ => hAtWork.closed_eq hAfter hIdle
        · rename_i hPid
          refine hKept ⟨hSession, hAtWork.working.before hStep hSession, hAtWork.leaseId_eq,
            hAtWork.job_eq⟩ fun hSame => ?_
          exact absurd (leaseIdsDistinct hBefore hIdle hFresh pid actor request _ session
            before leaseId hSession hActor hAtWork.leaseId_eq hSame) hPid

/-- Two calls are not at work on one job. -/
theorem OwnedAtWork.unique (hOwned : OwnedAtWork pool) (hDistinct : LeaseIdsDistinct pool)
    {pid pid' : Nat} {request request' : Request} {session session' : Session}
    {leaseId leaseId' : LeaseIdType} {pk : PrimaryKeyType}
    (hAtWork : AtWork pool pid request session leaseId pk)
    (hAtWork' : AtWork pool pid' request' session' leaseId' pk) : pid = pid' := by
  obtain ⟨row, hRow, hOwner⟩ := hOwned pid request session leaseId pk hAtWork
  obtain ⟨row', hRow', hOwner'⟩ := hOwned pid' request' session' leaseId' pk hAtWork'
  obtain rfl : row = row' := Option.some.inj (hRow.symm.trans hRow')
  obtain rfl : leaseId = leaseId' := Option.some.inj (hOwner.symm.trans hOwner')
  exact hDistinct pid pid' request request' session session' leaseId hAtWork.session_eq
    hAtWork'.session_eq hAtWork.leaseId_eq hAtWork'.leaseId_eq

/-! ## Tasks and their jobs -/

/-- The task a call is about is stored, with the schedule the call knows. -/
def TasksStored (pool : SchedulerPool) : Prop :=
  ∀ pid request session task, sessionOf pool pid = some (request, session) →
    session.task = some task →
      ∃ row, pool.shared.task task.pk = some row ∧ row.schedule = task.schedule

/-- Tasks are started as they are stored. -/
def startsStoredTasks : RunCondition signature Database Request Settled :=
  fun pool event _ => ∀ request ∈ event.request, ∀ task ∈ (Session.start request.call).task,
    ∃ row ∈ pool.shared.task task.pk, row.schedule = task.schedule

instance (pool : SchedulerPool) (event : Event signature Database Request)
    (pool' : SchedulerPool) : Decidable (startsStoredTasks pool event pool') := by
  unfold startsStoredTasks
  infer_instance

/-- A call learns of a task only by finding it. -/
theorem May.task_next {request : Request} {session : Session} {scope : Scope} {act : Act}
    {reply : act.Reply} {db after : Database} {task : TaskModel}
    (hMay : May request session ⟨scope, act⟩) (hExec : Exec reading db act reply after)
    (hTask : (session.next act reply).task = some task) :
    session.task = some task ∨ after.task task.pk = some task := by
  have hChange := session.change act reply
  generalize session.next act reply = next at hChange hTask
  cases hChange with
  | found start limit conditional row hJob =>
      obtain rfl : row = task := Option.some.inj hTask
      obtain ⟨rfl, -⟩ := hMay.2
      have hFound := (hExec.findTasks.1 row List.mem_cons_self).1
      cases hExec.taskEffect with
      | kept hNone hTasks => exact Or.inr ((hTasks row.pk).trans hFound)
  | _ => exact Or.inl hTask

theorem tasksStored {first : SchedulerPool} (hRun : Run (scheduler reading) A first pool)
    (hIdle : first.Idle)
    (hStored : ∀ pool event pool', A pool event pool' → startsStoredTasks pool event pool') :
    TasksStored pool := by
  refine invariant_of_moves hRun hIdle ?_ ?_
  · intro pid request session task hSession
    rw [sessionOf_idle hIdle] at hSession
    cases hSession
  · intro pool event pool' _ hTasks hMoves hA pid request session task hSession hTask
    -- A row that is stored stays stored under its schedule.
    have hStays : (∃ row, pool.shared.task task.pk = some row ∧
          row.schedule = task.schedule) →
        ∃ row, pool'.shared.task task.pk = some row ∧ row.schedule = task.schedule := by
      rintro ⟨row, hRow, hSchedule⟩
      obtain ⟨row', hRow', hKept, -⟩ := hMoves.task_advances hRow
      exact ⟨row', hRow', hKept.trans hSchedule⟩
    cases hMoves with
    | quiet _ _ _ hSame _ _ hNew =>
        rcases hNew pid request session hSession with hOld | ⟨hSpawned, rfl⟩
        · exact hStays (hTasks pid request session task hOld hTask)
        · exact hStays (hStored _ _ _ hA request (by rw [hSpawned]; rfl) task hTask)
    | performed actor actorRequest before scope act reply _ hActor hMay hExec _ hSessions =>
        rw [hSessions] at hSession
        split at hSession
        · cases hSession
          rcases hMay.task_next hExec hTask with hOld | hFound
          · exact hStays (hTasks actor _ before task hActor hOld)
          · exact ⟨task, hFound, rfl⟩
        · exact hStays (hTasks pid request session task hSession hTask)

/-- Every task is of a stored job. -/
def TasksOfJobs (db : Database) : Prop :=
  ∀ pk row, db.task pk = some row → db.job row.schedule ≠ none

theorem MayAdd.job_eq {request : Request} {session : Session} {row : TaskModel}
    (hAdd : MayAdd request session row) (hSound : session.Sound)
    (hJob : session.job ≠ none) : session.job = some row.schedule := by
  obtain ⟨-, -, sched, hSched, hSchedule, -⟩ := hAdd
  obtain ⟨pk, hPk⟩ := Option.ne_none_iff_exists'.mp hJob
  rw [hPk, hSchedule, hSound.pk_eq pk sched hPk hSched]

theorem tasksOfJobs (hRun : Run (scheduler reading) A (emptyPool clock) pool) :
    TasksOfJobs pool.shared := by
  have hIdle := emptyPool_idle clock
  refine invariant_of_moves (I := fun pool => TasksOfJobs pool.shared) hRun hIdle ?_ ?_
  · intro pk row hRow
    cases hRow
  · intro pool event pool' hBefore hTasks hMoves _ pk row hRow
    cases hMoves with
    | quiet _ _ hJobs hSame _ _ _ =>
        rw [hJobs]
        exact hTasks pk row (hSame pk ▸ hRow)
    | performed pid request session scope act reply _ hSession hMay hExec _ _ =>
        have hStored : pool.shared.job row.schedule ≠ none →
            pool'.shared.job row.schedule ≠ none := (hMay.leaseChange hExec).stored
        cases hMay.taskChange hExec with
        | kept hNone hSame => exact hStored (hTasks pk row (hSame pk ▸ hRow))
        | added new leaseId hScope hAdd hAbsent hSame =>
            rw [hSame] at hRow
            split at hRow
            · cases hRow
              have hJob := hAdd.job_eq (session_sound hBefore hIdle hSession)
                (hMay.1 leaseId hScope).2.1
              exact hStored (job_stored hBefore hIdle pid request session _ hSession
                hJob)
            · exact hStored (hTasks pk row hRow)
        | moved task sched leaseId old new newValues count target _ _ _ _ hTarget _ _ _ hSame =>
            rw [hSame] at hRow
            split at hRow
            · cases hRow
              exact hStored (hTasks task.pk target hTarget)
            · exact hStored (hTasks pk row hRow)

/-! ## What a call at work knows of the tasks of its job -/

/-- The call puts a task into the given state, if its operation is applied. -/
def Act.Puts (state : TaskStateType) : Act → Prop
  | .createTask row => row.state = state
  | .updateTask _ newValues _ => newValues.state = some state
  | _ => False

/-- The call looked for tasks of the job in the given state and found none. -/
def Act.FoundNone (pk : PrimaryKeyType) (state : TaskStateType) :
    (act : Act) → act.Reply → Prop
  | .findTasks start limit conditional, reply =>
      start = 0 ∧ 0 < limit ∧ conditional = taskOf pk [state] ∧ reply = .ok []
  | _, _ => False

/-- The call knows that no task of its job is in the given state: it has looked,
or it has created the job and added nothing yet. -/
def KnowsNone (request : Request) (session : Session) (pk : PrimaryKeyType)
    (state : TaskStateType) : Prop :=
  NoneIn pk state session.facts ∨
    ((∃ schedule, request.call = .createScheduledJob schedule) ∧ session.facts = [])

/-- What an operation makes of a task row: nothing, or the row is of the job the
call holds, and no other task changes. -/
theorem TaskChange.gain {request : Request} {session : Session} {scope : Scope}
    {act : Act} {reply : act.Reply} {db after : Database} {pk : PrimaryKeyType}
    {row : TaskModel} (hChange : TaskChange request session scope db after act reply)
    (hMay : May request session ⟨scope, act⟩) (hSound : session.Sound)
    (hStored : act.Puts row.state → row.state = .pending ∨ ∀ task,
      session.task = some task → ∃ old, db.task task.pk = some old ∧
        old.schedule = task.schedule)
    (hRow : after.task pk = some row) :
    db.task pk = some row ∨
      (∃ leaseId, scope = .callback leaseId ∧ act.IsStoreCall ∧ act.Puts row.state ∧
        session.job = some row.schedule ∧
        ∀ other, other ≠ pk → after.task other = db.task other) := by
  cases hChange with
  | kept hNone hTasks => exact Or.inl (hTasks pk ▸ hRow)
  | added new leaseId hScope hAdd hAbsent hTasks =>
      by_cases hPk : pk = new.pk
      · rw [hTasks, if_pos hPk] at hRow
        cases hRow
        have hJob := hAdd.job_eq hSound (hMay.1 leaseId hScope).2.1
        refine Or.inr ⟨leaseId, hScope, trivial, rfl, hJob, fun other hOther => ?_⟩
        rw [hTasks, if_neg (hPk ▸ hOther)]
      · rw [hTasks, if_neg hPk] at hRow
        exact Or.inl hRow
  | moved task sched leaseId old new newValues count target hScope _ hTask hJob hTarget
      hOld hNew hMove hTasks =>
      by_cases hPk : pk = task.pk
      · rw [hTasks, if_pos hPk] at hRow
        cases hRow
        have hState : (newValues.apply target).state = new := by
          simp [TaskPatch.apply, hNew]
        have hPuts : Act.Puts (newValues.apply target).state
            (.updateTask task.pk newValues (stateEquals old)) := by
          rw [hState]
          exact hNew
        have hSchedule : target.schedule = task.schedule := by
          rcases hStored hPuts with hPending | hTaskStored
          · -- No call moves a task to pending.
            have hRank := hMove.rank_lt
            rw [← hState, hPending] at hRank
            exact absurd hRank (Nat.not_lt_zero _)
          · obtain ⟨stored, hStoredRow, hSame⟩ := hTaskStored task hTask
            obtain rfl : target = stored := Option.some.inj (hTarget.symm.trans hStoredRow)
            exact hSame
        refine Or.inr ⟨leaseId, hScope, trivial, hPuts, ?_, fun other hOther => ?_⟩
        · rw [hJob]
          exact congrArg some hSchedule.symm
        · rw [hTasks, if_neg (hPk ▸ hOther)]
      · rw [hTasks, if_neg hPk] at hRow
        exact Or.inl hRow

/-- A call that adds a pending task knows of no other. -/
theorem knowsNone_of_puts_pending {request : Request} {session : Session}
    {scope : Scope} {act : Act} {pk : PrimaryKeyType}
    (hMay : May request session ⟨scope, act⟩) (hSound : session.Sound)
    (hJob : session.job = some pk) (hPuts : act.Puts .pending) :
    KnowsNone request session pk .pending := by
  cases act with
  | createTask row =>
      obtain ⟨-, -, -, -, sched, hSched, -, hCreates | ⟨task, -, hNone, -⟩⟩ := hMay
      · obtain ⟨schedule, hCall, hFacts⟩ := hCreates
        exact Or.inr ⟨⟨schedule, hCall⟩, hFacts⟩
      · have hPk : sched.pk = pk := hSound.pk_eq pk sched hJob hSched
        exact Or.inl (hPk ▸ hNone)
  | updateTask taskPk newValues conditional =>
      obtain ⟨-, -, sched, task, old, new, -, -, -, -, -, hNew, hMove⟩ := hMay
      have hPending : new = .pending := Option.some.inj (hNew.symm.trans hPuts)
      have hRank := hMove.rank_lt
      rw [hPending] at hRank
      exact absurd hRank (Nat.not_lt_zero _)
  | _ => exact hPuts.elim

/-- After recording a fact a call knows what its facts say. -/
theorem KnowsNone.of_record {request : Request} {session : Session} {fact : Fact}
    {pk : PrimaryKeyType} {state : TaskStateType}
    (hKnows : KnowsNone request (session.record fact) pk state) :
    NoneIn pk state (fact :: session.facts) := by
  rcases hKnows with hNone | ⟨-, hFacts⟩
  · exact hNone
  · cases hFacts

/-- What a call knows after an operation it has just found, or it knew it before
and the operation does not put a task into that state. -/
theorem KnowsNone.of_next {request : Request} {session : Session} {scope : Scope}
    {act : Act} {reply : act.Reply} {pk : PrimaryKeyType} {state : TaskStateType}
    (hMay : May request session ⟨scope, act⟩) (hJob : session.job ≠ none)
    (hKnows : KnowsNone request (session.next act reply) pk state) :
    act.FoundNone pk state reply ∨
      (KnowsNone request session pk state ∧ ¬ act.Puts state) := by
  cases act with
  | createTask row =>
      have hNone := hKnows.of_record
      exact Or.inr ⟨Or.inl hNone.2, hNone.1⟩
  | updateTask taskPk newValues conditional =>
      have hNone := hKnows.of_record
      exact Or.inr ⟨Or.inl hNone.2, hNone.1⟩
  | startJob taskId jobName context =>
      have hNone := hKnows.of_record
      exact Or.inr ⟨Or.inl hNone, id⟩
  -- a lookup is where the call can learn that there is none
  | findTasks start limit conditional =>
      obtain ⟨job, hHeld⟩ := Option.ne_none_iff_exists'.mp hJob
      simp only [Session.next, Session.afterLookup, hHeld] at hKnows
      rcases hKnows.of_record with ⟨hLimit, hCondition, hReply⟩ | hNone
      · exact Or.inl ⟨hMay.2.1, hLimit, hCondition, hReply⟩
      · exact Or.inr ⟨Or.inl hNone, id⟩
  | _ =>
      refine Or.inr ⟨?_, id⟩
      rcases session.facts_next _ reply with hSame | ⟨fact, hFact, -⟩
      · unfold KnowsNone at hKnows
        rwa [hSame] at hKnows
      · cases hFact

/-- Nothing was found: there is nothing. -/
theorem Act.FoundNone.absent {act : Act} {reply : act.Reply} {db after : Database}
    {pk taskPk : PrimaryKeyType} {state : TaskStateType} {row : TaskModel}
    (hFound : act.FoundNone pk state reply) (hExec : Exec reading db act reply after)
    (hRow : db.task taskPk = some row) (hSchedule : row.schedule = pk) :
    row.state ≠ state := by
  intro hState
  cases act with
  | findTasks start limit conditional =>
      obtain ⟨rfl, hLimit, rfl, rfl⟩ := hFound
      have hAbsent := hExec.findTasks.2 hLimit rfl taskPk row hRow
      have hHolds : (taskOf pk [state]).holds reading row.column = true := by
        simp [hSchedule, hState]
      rw [hAbsent] at hHolds
      cases hHolds
  | _ => exact hFound

theorem Act.FoundNone.not_puts {act : Act} {reply : act.Reply} {pk : PrimaryKeyType}
    {state state' : TaskStateType} (hFound : act.FoundNone pk state reply) :
    ¬ act.Puts state' := by
  cases act with
  | findTasks start limit conditional => exact id
  | _ => exact hFound.elim

/-- A call that knows something of a job it has just been granted has created that
job. -/
theorem LeaseChange.absent_of_gain {request : Request} {session : Session} {act : Act}
    {reply : act.Reply} {db after : Database} {pk : PrimaryKeyType}
    {state : TaskStateType}
    (hChange : LeaseChange reading request session db after act reply)
    (hSound : session.Sound)
    (hKnows : KnowsNone request (session.next act reply) pk state)
    (hJob : session.job = none) (hGain : (session.next act reply).job = some pk) :
    db.job pk = none := by
  have hFacts : (session.next act reply).facts = [] :=
    (Session.facts_of_gain hJob (by simp [hGain])).trans (hSound.inactive hJob)
  have hNext := session.change act reply
  generalize session.next act reply = next at hNext hGain hKnows hFacts
  cases hNext with
  | created row =>
      cases hGain
      cases hChange with
      | kept hNone hJobs => exact absurd trivial hNone
      | created _ hMay hAbsent hJobs => exact hAbsent
  -- only a creation knows that a job it has just been granted has no task
  | granted other newValues conditional count leaseId hOwner =>
      rcases hKnows with hNone | ⟨⟨schedule, hCall⟩, -⟩
      · rw [hFacts] at hNone
        exact hNone.elim
      · cases hChange with
        | kept hNone hJobs => exact absurd trivial hNone
        | acquired _ _ _ _ _ _ _ _ _ _ _ _ hLeases _ =>
            unfold Leases at hLeases
            rw [hCall] at hLeases
            exact hLeases.elim
        | takenOver _ _ _ _ _ _ _ _ hRepair _ _ _ _ _ _ _ =>
            rw [hCall] at hRepair
            cases hRepair
        | closed _ _ _ _ _ _ _ _ _ _ _ _ _ hValues _ _ =>
            rcases hValues with rfl | ⟨now, rfl⟩ <;> cases hOwner
  | _ =>
      have hHeld : session.job = some pk := hGain
      rw [hJob] at hHeld
      cases hHeld

/-- No call at work is wrong about what it knows. -/
def Knowledge (state : TaskStateType) (pool : SchedulerPool) : Prop :=
  ∀ pid request session leaseId pk, AtWork pool pid request session leaseId pk →
    KnowsNone request session pk state →
    ∀ taskPk row, pool.shared.task taskPk = some row → row.schedule = pk →
      row.state ≠ state

/-- Tasks enter the state only under the schedule they are stored with. -/
def EntersStored (state : TaskStateType) (pool : SchedulerPool) : Prop :=
  state = .pending ∨ TasksStored pool

theorem knowledge {state : TaskStateType}
    (hRun : Run (scheduler reading) A (emptyPool clock) pool)
    (hLeases : ∀ pool event pool', A pool event pool' → leasesRespected pool event pool')
    (hEnters : ∀ pool, Run (scheduler reading) A (emptyPool clock) pool →
      EntersStored state pool) : Knowledge state pool := by
  have hIdle := emptyPool_idle clock
  have hFresh : ∀ pool event pool', A pool event pool' → freshLeaseIds pool event pool' :=
    fun pool event pool' hA => (hLeases pool event pool' hA).1
  refine hRun.invariant ?_ ?_
  · intro pid request session leaseId pk hAtWork
    have hSession := hAtWork.session_eq
    rw [sessionOf_idle hIdle] at hSession
    cases hSession
  · intro pool event pool' hBefore hKnowledge hStep hA pid request session leaseId pk
      hAtWork hKnows taskPk row hRow hSchedule
    cases moves_of_step hBefore hIdle hStep with
    | quiet _ _ _ hTasks _ _ hNew =>
        rcases hNew pid request session hAtWork.session_eq with hOld | ⟨-, rfl⟩
        · exact hKnowledge pid request session leaseId pk
            ⟨hOld, hAtWork.working.before hStep hOld, hAtWork.leaseId_eq, hAtWork.job_eq⟩
            hKnows taskPk row (hTasks taskPk ▸ hRow) hSchedule
        · have hJob := hAtWork.job_eq
          rw [Session.job_start] at hJob
          cases hJob
    | performed actor actorRequest before scope act reply _ hActor hMay hExec _ hSessions =>
        have hSound := session_sound hBefore hIdle hActor
        intro hState
        subst hState
        have hGain := (hMay.taskChange hExec).gain hMay hSound
          (fun _ => (hEnters pool hBefore).imp_right
            fun hStored task => hStored actor actorRequest before task hActor) hRow
        have hSession := hAtWork.session_eq
        rw [hSessions] at hSession
        split at hSession
        · rename_i hPid
          subst hPid
          cases hSession
          by_cases hJob : before.job = none
          · -- The call has just created the job, so there are no tasks of it.
            have hAbsent := (hMay.leaseChange hExec).absent_of_gain hSound hKnows hJob
              hAtWork.job_eq
            rcases hGain with hOld | ⟨-, -, -, -, hHeld, -⟩
            · exact tasksOfJobs hBefore taskPk row hOld (hSchedule ▸ hAbsent)
            · rw [hJob] at hHeld
              cases hHeld
          · rcases KnowsNone.of_next hMay hJob hKnows with hFound | ⟨hKnew, hPutsNot⟩
            · rcases hGain with hOld | ⟨-, -, -, hPuts, -⟩
              · exact hFound.absent hExec hOld hSchedule rfl
              · exact hFound.not_puts hPuts
            · rcases hGain with hOld | ⟨-, -, -, hPuts, -⟩
              · exact hKnowledge pid request before leaseId pk
                  (hAtWork.before_own hStep hActor hMay hSound hJob) hKnew taskPk row hOld
                  hSchedule rfl
              · exact hPutsNot hPuts
        · rename_i hPid
          have hWork : AtWork pool pid request session leaseId pk :=
            ⟨hSession, hAtWork.working.before hStep hSession, hAtWork.leaseId_eq,
              hAtWork.job_eq⟩
          rcases hGain with hOld | ⟨actorLease, rfl, hStore, -, hJob, -⟩
          · exact hKnowledge pid request session leaseId pk hWork hKnows taskPk row hOld
              hSchedule rfl
          · -- The call that puts the task there is at work on the same job.
            have hActorWork := atWork_of_performed hStep hActor hMay hStore hJob
            rw [hSchedule] at hActorWork
            exact hPid ((owned_atWork hBefore hLeases).unique
              (leaseIdsDistinct hBefore hIdle hFresh) hWork hActorWork)

/-- Each job in question has at most one task in the state. -/
def AtMostOne (state : TaskStateType) (ofInterest : Database → PrimaryKeyType → Prop)
    (db : Database) : Prop :=
  ∀ pk pk' row row', db.task pk = some row → db.task pk' = some row' →
    row.schedule = row'.schedule → ofInterest db row.schedule →
    row.state = state → row'.state = state → pk = pk'

/-- **At most one task in a state.**  If only calls that know of no other task in
the state put one there, there is at most one for each of the jobs in question. -/
theorem atMostOne_of_knowledge {state : TaskStateType}
    {ofInterest : Database → PrimaryKeyType → Prop}
    (hRun : Run (scheduler reading) A (emptyPool clock) pool)
    (hLeases : ∀ pool event pool', A pool event pool' → leasesRespected pool event pool')
    (hEnters : ∀ pool, Run (scheduler reading) A (emptyPool clock) pool →
      EntersStored state pool)
    (hInterest : ∀ pool event pool', Moves reading pool event pool' → ∀ pk,
      pool.shared.job pk ≠ none → ofInterest pool'.shared pk → ofInterest pool.shared pk)
    (hChecks : ∀ pool pid request session leaseId pk act,
      Run (scheduler reading) A (emptyPool clock) pool →
      AtWork pool pid request session leaseId pk → ofInterest pool.shared pk →
      May request session ⟨.callback leaseId, act⟩ → act.Puts state →
      KnowsNone request session pk state) :
    AtMostOne state ofInterest pool.shared := by
  have hIdle := emptyPool_idle clock
  have hFresh : ∀ pool event pool', A pool event pool' → freshLeaseIds pool event pool' :=
    fun pool event pool' hA => (hLeases pool event pool' hA).1
  refine hRun.invariant (I := fun pool => AtMostOne state ofInterest pool.shared) ?_ ?_
  · intro pk pk' row row' hRow
    cases hRow
  · intro pool event pool' hBefore hOne hStep _
    have hMoves := moves_of_step hBefore hIdle hStep
    have hTasksOfJobs := tasksOfJobs hBefore
    have hInterestBefore := hInterest pool event pool' hMoves
    cases hMoves with
    | quiet _ _ hJobs hTasks _ _ _ =>
        intro pk pk' row row' hRow hRow' hSchedule hOf
        rw [hTasks] at hRow hRow'
        exact hOne pk pk' row row' hRow hRow' hSchedule
          (hInterestBefore row.schedule (hTasksOfJobs pk row hRow) hOf)
    | performed pid request session scope act reply _ hSession hMay hExec _ _ =>
        have hSound := session_sound hBefore hIdle hSession
        have hGain : ∀ pk row, row.state = state → pool'.shared.task pk = some row →
            pool.shared.task pk = some row ∨ ∃ leaseId, scope = .callback leaseId ∧
              act.IsStoreCall ∧ act.Puts row.state ∧ session.job = some row.schedule ∧
              ∀ other, other ≠ pk → pool'.shared.task other = pool.shared.task other := by
          intro pk row hState
          have hEntersRow : EntersStored row.state pool := hState ▸ hEnters pool hBefore
          exact (hMay.taskChange hExec).gain hMay hSound fun _ => hEntersRow.imp_right
            fun hStored task => hStored pid request session task hSession
        -- A task that is put into the state is the only one in it.
        have hOnly : ∀ pk pk' row row', pool'.shared.task pk = some row →
            pool'.shared.task pk' = some row' → row.schedule = row'.schedule →
            ofInterest pool'.shared row.schedule → row.state = state →
            row'.state = state → pool.shared.task pk ≠ some row → pk = pk' := by
          intro pk pk' row row' hRow hRow' hSchedule hOf hState hState' hNew
          by_contra hNe
          obtain ⟨leaseId, rfl, hStore, hPuts, hJob, hOthers⟩ :=
            (hGain pk row hState hRow).resolve_left hNew
          have hWork := atWork_of_performed hStep hSession hMay hStore hJob
          have hOfBefore := hInterestBefore row.schedule
            (job_stored hBefore hIdle pid request session _ hSession hJob) hOf
          have hKnows := hChecks pool pid request session leaseId row.schedule act hBefore
            hWork hOfBefore hMay (hState ▸ hPuts)
          have hOther : pool.shared.task pk' = some row' := by
            rw [← hOthers pk' fun hSame => hNe hSame.symm]
            exact hRow'
          exact knowledge hBefore hLeases hEnters pid request session leaseId row.schedule
            hWork hKnows pk' row' hOther hSchedule.symm hState'
        intro pk pk' row row' hRow hRow' hSchedule hOf hState hState'
        by_cases hOld : pool.shared.task pk = some row
        · by_cases hOld' : pool.shared.task pk' = some row'
          · exact hOne pk pk' row row' hOld hOld' hSchedule
              (hInterestBefore row.schedule (hTasksOfJobs pk row hOld) hOf) hState hState'
          · exact (hOnly pk' pk row' row hRow' hRow hSchedule.symm (hSchedule ▸ hOf) hState'
              hState hOld').symm
        · exact hOnly pk pk' row row' hRow hRow' hSchedule hOf hState hState' hOld

end TernScheduler
