import TernScheduler.Controller.Runs

/-!
# Tasks only move forward

Every task update a contract allows moves a task to a state of higher rank, and
no call removes a task.  So what a session once did to a task bounds the state of
that task for the rest of the run.

* `TaskChange` is the inversion of a step on the task table.
* `Moves.task_advances` is the step lemma, and `tasksAdvance` its consequence for
  the facts of a session.
* `movedOnce` says that a task leaves a state by the hand of one call only.
-/

namespace TernScheduler

open Interleaving

/-! ## Facts and the log -/

/-- An operation adds its fact, or leaves the facts as they were. -/
theorem Session.facts_next (session : Session) (act : Act) (reply : act.Reply) :
    (session.next act reply).facts = session.facts ∨
      ∃ fact, act.fact reply = some fact ∧
        (session.next act reply).facts = fact :: session.facts := by
  have hChange := session.change act reply
  generalize session.next act reply = after at hChange
  cases hChange with
  | recorded fact hFact _ => exact Or.inr ⟨fact, hFact, rfl⟩
  | _ => exact Or.inl rfl

/-- Facts are never forgotten. -/
theorem Session.mem_facts_next {session : Session} {act : Act} {reply : act.Reply}
    {fact : Fact} (hFact : fact ∈ session.facts) :
    fact ∈ (session.next act reply).facts := by
  rcases session.facts_next act reply with hSame | ⟨new, -, hCons⟩
  · rw [hSame]
    exact hFact
  · rw [hCons]
    exact List.mem_cons_of_mem _ hFact

/-- A fact after an operation is an earlier one or the fact of the operation. -/
theorem Session.of_mem_facts_next {session : Session} {act : Act} {reply : act.Reply}
    {fact : Fact} (hFact : fact ∈ (session.next act reply).facts) :
    fact ∈ session.facts ∨ act.fact reply = some fact := by
  rcases session.facts_next act reply with hSame | ⟨new, hNew, hCons⟩
  · exact Or.inl (hSame ▸ hFact)
  · rw [hCons] at hFact
    rcases List.mem_cons.mp hFact with rfl | hOld
    · exact Or.inr hNew
    · exact Or.inl hOld

/-- The operation moved a task from one state to another. -/
def Act.MovedTask (pk : PrimaryKeyType) (old new : TaskStateType) :
    (act : Act) → act.Reply → Prop
  | .updateTask taskPk newValues conditional, .ok (_ + 1) =>
      taskPk = pk ∧ conditional = stateEquals old ∧ newValues.state = some new
  | _, _ => False

/-- The fact of an operation says that a task moved exactly when the operation
moved it. -/
theorem Act.movedTask_of_fact {act : Act} {reply : act.Reply} {fact : Fact}
    {pk : PrimaryKeyType} {old new : TaskStateType} (hFact : act.fact reply = some fact)
    (hMoved : Moved pk old new fact) : act.MovedTask pk old new reply := by
  obtain ⟨newValues, count, rfl, hState⟩ := hMoved
  cases act <;> simp only [Act.fact, Option.some.injEq, reduceCtorEq] at hFact
  cases hFact
  exact ⟨rfl, rfl, hState⟩

/-! ## Progress -/

/-- How far a task has come. -/
def TaskStateType.rank : TaskStateType → Nat
  | pending => 0
  | queued => 1
  | started => 2
  | _ => 3

theorem MayMove.rank_lt {request : Request} {sched : ScheduledJobDataModel}
    {task : TaskModel} {facts : List Fact} {old new : TaskStateType}
    {jobId : Option (Option ExecutionJobId)}
    (h : MayMove request sched task facts old new jobId) : old.rank < new.rank := by
  cases h with
  | queue hCall hFirst => decide
  | start jobId hCall hCleared => decide
  | abandon new hCall hNew => rcases hNew with rfl | rfl | rfl <;> decide
  | finish new hNew => rcases hNew with rfl | rfl <;> decide

/-- An operation of a call moves tasks forward only. -/
theorem May.rank_lt {request : Request} {session : Session} {scope : Scope} {act : Act}
    {reply : act.Reply} {pk : PrimaryKeyType} {old new : TaskStateType}
    (hMay : May request session ⟨scope, act⟩) (hMoved : act.MovedTask pk old new reply) :
    old.rank < new.rank := by
  cases act <;> simp only [Act.MovedTask] at hMoved
  rename_i taskPk newValues conditional
  obtain ⟨-, -, sched, task, current, target, -, -, -, -, hCurrent, hTarget, hMove⟩ := hMay
  rcases reply with e | _ | count
  · exact hMoved.elim
  · exact hMoved.elim
  · obtain ⟨-, hOld, hNew⟩ := hMoved
    obtain rfl : target = new := Option.some.inj (hTarget.symm.trans hNew)
    obtain rfl : current = old := stateEquals_injective (hCurrent.symm.trans hOld)
    exact hMove.rank_lt

/-! ## What a call does to the tasks -/

/-- What an operation a contract allows does to the task table. -/
inductive TaskChange (request : Request) (session : Session) (scope : Scope)
    (db after : Database) : (act : Act) → act.Reply → Prop
  | kept {act : Act} {reply : act.Reply} (hNone : ¬ act.WroteTask reply)
      (hTasks : ∀ pk, after.task pk = db.task pk) :
      TaskChange request session scope db after act reply
  | added (row : TaskModel) (leaseId : LeaseIdType)
      (hScope : scope = .callback leaseId) (hAdd : MayAdd request session row)
      (hAbsent : db.task row.pk = none)
      (hTasks : ∀ pk, after.task pk = if pk = row.pk then some row else db.task pk) :
      TaskChange request session scope db after (.createTask row) (Except.ok ())
  | moved (task : TaskModel) (sched : ScheduledJobDataModel) (leaseId : LeaseIdType)
      (old new : TaskStateType) (newValues : TaskPatch) (count : Nat) (row : TaskModel)
      (hScope : scope = .callback leaseId) (hSched : session.sched = some sched)
      (hTask : session.task = some task) (hJob : session.job = some task.schedule)
      (hRow : db.task task.pk = some row) (hOld : row.state = old)
      (hNew : newValues.state = some new)
      (hMove : MayMove request sched task session.facts old new newValues.executionJobId)
      (hTasks : ∀ pk, after.task pk =
        if pk = task.pk then some (newValues.apply row) else db.task pk) :
      TaskChange request session scope db after
        (.updateTask task.pk newValues (stateEquals old)) (Except.ok (count + 1))

/-- **Inversion of an operation on the task table.** -/
theorem May.taskChange {reading : BeforeDateReading} {request : Request}
    {session : Session} {scope : Scope} {act : Act} {reply : act.Reply}
    {db after : Database} (hMay : May request session ⟨scope, act⟩)
    (hExec : Database.Exec reading db act reply after) :
    TaskChange request session scope db after act reply := by
  cases hExec.taskEffect with
  | kept hNone hTasks => exact .kept hNone hTasks
  | created row hAbsent hTasks =>
      obtain ⟨-, ⟨leaseId, hScope⟩, hAdd⟩ := hMay
      exact .added row leaseId hScope hAdd hAbsent hTasks
  | updated pk newValues conditional count row hRow hHolds hTasks =>
      obtain ⟨-, ⟨leaseId, hScope⟩, sched, task, old, new, hSched, hTask, rfl, hJob, rfl,
        hNew, hMove⟩ := hMay
      rw [holds_stateEquals] at hHolds
      exact .moved task sched leaseId old new newValues count row hScope hSched hTask hJob
        hRow hHolds hNew hMove hTasks

variable {reading : BeforeDateReading}
  {A : RunCondition signature Database Request Settled}
  {first pool pool' : SchedulerPool} {event : Event signature Database Request}

/-- **Step lemma.**  A task stays, keeps its schedule, and changes only by moving
forward. -/
theorem Moves.task_advances (hMoves : Moves reading pool event pool')
    {pk : PrimaryKeyType} {row : TaskModel} (hRow : pool.shared.task pk = some row) :
    ∃ row', pool'.shared.task pk = some row' ∧ row'.schedule = row.schedule ∧
      (row' = row ∨ row.state.rank < row'.state.rank) := by
  cases hMoves with
  | quiet _ _ _ hTasks _ _ _ => exact ⟨row, (hTasks pk).trans hRow, rfl, Or.inl rfl⟩
  | performed pid request session scope act reply _ hSession hMay hExec _ _ =>
      cases hMay.taskChange hExec with
      | kept hNone hTasks => exact ⟨row, (hTasks pk).trans hRow, rfl, Or.inl rfl⟩
      | added new leaseId hScope hAdd hAbsent hTasks =>
          have hNe : pk ≠ new.pk := by
            rintro rfl
            rw [hAbsent] at hRow
            cases hRow
          exact ⟨row, by rw [hTasks, if_neg hNe, hRow], rfl, Or.inl rfl⟩
      | moved task sched leaseId current target newValues count old _ _ _ _ hOld hState
          hTarget hMove hTasks =>
          by_cases hPk : pk = task.pk
          · subst hPk
            obtain rfl : old = row := Option.some.inj (hOld.symm.trans hRow)
            have hRank := hMove.rank_lt
            refine ⟨newValues.apply old, by rw [hTasks, if_pos rfl], rfl, Or.inr ?_⟩
            simp only [TaskPatch.apply, hTarget, Option.getD_some, hState]
            omega
          · exact ⟨row, by rw [hTasks, if_neg hPk, hRow], rfl, Or.inl rfl⟩

/-- The states a task is in once it was marked as started. -/
def TaskStateType.afterStart (state : TaskStateType) : Prop :=
  state = .started ∨ state = .completed ∨ state = .completeError

/-- The states a started task ends in. -/
def TaskStateType.finished (state : TaskStateType) : Prop :=
  state = .completed ∨ state = .completeError

/-- A task that has a job id was started. -/
def JobIdsStarted (db : Database) : Prop :=
  ∀ pk row, db.task pk = some row → row.executionJobId ≠ none → row.state.afterStart

/-- What a move writes of the job id: nothing, or a job id when it starts the
task. -/
theorem MayMove.jobId {request : Request} {sched : ScheduledJobDataModel}
    {task : TaskModel} {facts : List Fact} {old new : TaskStateType}
    {jobId : Option (Option ExecutionJobId)}
    (h : MayMove request sched task facts old new jobId) :
    (jobId = none ∧ (old.afterStart → new.afterStart)) ∨
      (∃ id, jobId = some (some id)) ∧ new = .started := by
  cases h with
  | queue hCall hFirst =>
      exact Or.inl ⟨rfl, fun hOld => by rcases hOld with h | h | h <;> cases h⟩
  | start id hCall hCleared => exact Or.inr ⟨⟨id, rfl⟩, rfl⟩
  | abandon new hCall hNew =>
      exact Or.inl ⟨rfl, fun hOld => by rcases hOld with h | h | h <;> cases h⟩
  | finish new hNew => exact Or.inl ⟨rfl, fun _ => Or.inr hNew⟩

theorem jobIdsStarted_of_moves (hMoves : Moves reading pool event pool')
    (hStarted : JobIdsStarted pool.shared) : JobIdsStarted pool'.shared := by
  intro pk row hRow hJobId
  cases hMoves with
  | quiet _ _ _ hTasks _ _ _ => exact hStarted pk row (hTasks pk ▸ hRow) hJobId
  | performed pid request session scope act reply _ _ hMay hExec _ _ =>
      cases hMay.taskChange hExec with
      | kept hNone hTasks => exact hStarted pk row (hTasks pk ▸ hRow) hJobId
      | added new leaseId hScope hAdd hAbsent hTasks =>
          rw [hTasks] at hRow
          split at hRow
          · cases hRow
            exact absurd hAdd.2.1 hJobId
          · exact hStarted pk row hRow hJobId
      | moved task sched leaseId old new newValues count target _ _ _ _ hTarget hOld hNew
          hMove hTasks =>
          rw [hTasks] at hRow
          split at hRow
          · cases hRow
            have hState : (newValues.apply target).state = new := by
              simp [TaskPatch.apply, hNew]
            rw [hState]
            -- the job id was there before, or is written with the start
            rcases hMove.jobId with ⟨hKept, hAfter⟩ | ⟨-, rfl⟩
            · have hHad : target.executionJobId ≠ none := by
                simpa [TaskPatch.apply, hKept] using hJobId
              exact hAfter (hOld ▸ hStarted task.pk target hTarget hHad)
            · exact Or.inl rfl
          · exact hStarted pk row hRow hJobId

/-- A task keeps having a job id. -/
theorem Moves.jobId_kept (hMoves : Moves reading pool event pool') {pk : PrimaryKeyType}
    (hRow : ∃ row, pool.shared.task pk = some row ∧ row.executionJobId ≠ none) :
    ∃ row, pool'.shared.task pk = some row ∧ row.executionJobId ≠ none := by
  obtain ⟨row, hRow, hJobId⟩ := hRow
  cases hMoves with
  | quiet _ _ _ hTasks _ _ _ => exact ⟨row, (hTasks pk).trans hRow, hJobId⟩
  | performed pid request session scope act reply _ _ hMay hExec _ _ =>
      cases hMay.taskChange hExec with
      | kept hNone hTasks => exact ⟨row, (hTasks pk).trans hRow, hJobId⟩
      | added new leaseId hScope hAdd hAbsent hTasks =>
          have hNe : pk ≠ new.pk := by
            rintro rfl
            rw [hAbsent] at hRow
            cases hRow
          exact ⟨row, by rw [hTasks, if_neg hNe, hRow], hJobId⟩
      | moved task sched leaseId old new newValues count target _ _ _ _ hTarget _ _
          hMove hTasks =>
          by_cases hPk : pk = task.pk
          · subst hPk
            obtain rfl : target = row := Option.some.inj (hTarget.symm.trans hRow)
            refine ⟨newValues.apply target, by rw [hTasks, if_pos rfl], ?_⟩
            rcases hMove.jobId with ⟨hKept, -⟩ | ⟨⟨id, hWritten⟩, -⟩
            · simpa [TaskPatch.apply, hKept] using hJobId
            · simp [TaskPatch.apply, hWritten]
          · exact ⟨row, by rw [hTasks, if_neg hPk, hRow], hJobId⟩

/-- A finished task stays as it is. -/
theorem Moves.finished_kept (hMoves : Moves reading pool event pool')
    {pk : PrimaryKeyType}
    (hRow : ∃ row, pool.shared.task pk = some row ∧ row.state.finished) :
    ∃ row, pool'.shared.task pk = some row ∧ row.state.finished := by
  obtain ⟨row, hRow, hFinished⟩ := hRow
  obtain ⟨row', hRow', -, rfl | hRank⟩ := hMoves.task_advances hRow
  · exact ⟨row', hRow', hFinished⟩
  · have hTop : ∀ state : TaskStateType, state.rank ≤ 3 := by
      intro state
      cases state <;> decide
    have hLe := hTop row'.state
    rcases hFinished with h | h <;> rw [h] at hRank <;> simp [TaskStateType.rank] at hRank hLe <;>
      omega

/-- A task a session moved was moved forward, and is at least that far. -/
def TasksAdvance (pool : SchedulerPool) : Prop :=
  ∀ pid request session, sessionOf pool pid = some (request, session) →
    ∀ fact ∈ session.facts, ∀ pk old new, Moved pk old new fact →
      ∃ row, pool.shared.task pk = some row ∧ old.rank < new.rank ∧
        new.rank ≤ row.state.rank

/-- The row an operation moved, before and after it. -/
theorem row_of_movedTask {act : Act} {reply : act.Reply} {before after : Database}
    {pk : PrimaryKeyType} {old new : TaskStateType}
    (hExec : Database.Exec reading before act reply after)
    (hMoved : act.MovedTask pk old new reply) :
    ∃ row row', before.task pk = some row ∧ row.state = old ∧
      after.task pk = some row' ∧ row'.state = new := by
  cases hExec.taskEffect with
  | kept hNone hTasks =>
      refine absurd ?_ hNone
      cases act <;> simp only [Act.MovedTask] at hMoved
      rename_i taskPk newValues conditional
      rcases reply with e | _ | count
      · exact hMoved.elim
      · exact hMoved.elim
      · trivial
  | created row hAbsent hTasks => exact hMoved.elim
  | updated taskPk newValues conditional count row hRow hHolds hTasks =>
      obtain ⟨rfl, rfl, hState⟩ := hMoved
      rw [holds_stateEquals] at hHolds
      refine ⟨row, newValues.apply row, hRow, hHolds, by rw [hTasks, if_pos rfl], ?_⟩
      simp only [TaskPatch.apply, hState, Option.getD_some]

theorem tasksAdvance (hRun : Run (scheduler reading) A first pool)
    (hIdle : first.Idle) : TasksAdvance pool := by
  refine invariant_of_moves hRun hIdle ?_ ?_
  · intro pid request session hSession
    rw [sessionOf_idle hIdle] at hSession
    cases hSession
  · intro pool event pool' _ hAdvance hMoves _ pid request session hSession fact hFact
      pk old new hMoved
    -- What held before the step still holds, since tasks do not move back.
    have hEarlier : ∀ {session : Session}, sessionOf pool pid = some (request, session) →
        fact ∈ session.facts →
        ∃ row, pool'.shared.task pk = some row ∧ old.rank < new.rank ∧
          new.rank ≤ row.state.rank := by
      intro session hBefore hFact
      obtain ⟨row, hRow, hForward, hRank⟩ :=
        hAdvance pid request session hBefore fact hFact pk old new hMoved
      obtain ⟨row', hRow', -, rfl | hAdvanced⟩ := hMoves.task_advances hRow
      · exact ⟨row', hRow', hForward, hRank⟩
      · exact ⟨row', hRow', hForward, by omega⟩
    cases hMoves with
    | quiet _ _ _ _ _ _ hNew =>
        rcases hNew pid request session hSession with hOld | ⟨-, rfl⟩
        · exact hEarlier hOld hFact
        · rw [Session.facts_start] at hFact
          cases hFact
    | performed actor actorRequest before scope act reply _ hBefore hMay hExec _ hSessions =>
        rw [hSessions] at hSession
        split at hSession
        · rename_i hActor
          subst hActor
          cases hSession
          rcases Session.of_mem_facts_next hFact with hOld | hNew
          · exact hEarlier hBefore hOld
          · have hMovedTask := Act.movedTask_of_fact hNew hMoved
            obtain ⟨row, row', -, -, hRow', hState⟩ := row_of_movedTask hExec hMovedTask
            exact ⟨row', hRow', hMay.rank_lt hMovedTask, hState ▸ Nat.le_refl _⟩
        · exact hEarlier hSession hFact

/-- A task that was moved out of a state is not there to be moved again. -/
theorem TasksAdvance.no_second_move (hAdvance : TasksAdvance pool) {act : Act}
    {reply : act.Reply} {after : Database} {pid : Nat} {request : Request}
    {session : Session} {fact : Fact} {pk : PrimaryKeyType}
    {old new new' : TaskStateType}
    (hExec : Database.Exec reading pool.shared act reply after)
    (hMovedTask : act.MovedTask pk old new reply)
    (hSession : sessionOf pool pid = some (request, session))
    (hFact : fact ∈ session.facts) (hMoved : Moved pk old new' fact) : False := by
  obtain ⟨row, -, hRow, hState, -, -⟩ := row_of_movedTask hExec hMovedTask
  obtain ⟨row', hRow', hForward, hRank⟩ :=
    hAdvance pid request session hSession fact hFact pk old new' hMoved
  obtain rfl : row = row' := Option.some.inj (hRow.symm.trans hRow')
  rw [hState] at hRank
  omega

/-- A task leaves a state by the hand of one call only. -/
def MovedOnce (pool : SchedulerPool) : Prop :=
  ∀ pid pid' request request' session session',
    sessionOf pool pid = some (request, session) →
    sessionOf pool pid' = some (request', session') →
    ∀ fact ∈ session.facts, ∀ fact' ∈ session'.facts, ∀ pk old new new',
      Moved pk old new fact → Moved pk old new' fact' → pid = pid'

theorem movedOnce (hRun : Run (scheduler reading) A first pool)
    (hIdle : first.Idle) : MovedOnce pool := by
  refine invariant_of_moves hRun hIdle ?_ ?_
  · intro pid pid' request request' session session' hSession
    rw [sessionOf_idle hIdle] at hSession
    cases hSession
  · intro pool event pool' hBefore hOnce hMoves _ pid pid' request request' session
      session' hSession hSession' fact hFact fact' hFact' pk old new new' hMoved hMoved'
    have hAdvance := tasksAdvance hBefore hIdle
    cases hMoves with
    | quiet _ _ _ _ _ _ hNew =>
        rcases hNew pid request session hSession with hOld | ⟨-, rfl⟩
        · rcases hNew pid' request' session' hSession' with hOld' | ⟨-, rfl⟩
          · exact hOnce pid pid' request request' session session' hOld hOld' fact hFact
              fact' hFact' pk old new new' hMoved hMoved'
          · rw [Session.facts_start] at hFact'
            cases hFact'
        · rw [Session.facts_start] at hFact
          cases hFact
    | performed actor actorRequest before scope act reply _ hActor _ hExec _ hSessions =>
        rw [hSessions] at hSession hSession'
        -- one of the two moves may be the operation itself; the other is then older
        split at hSession
        · rename_i hPid
          cases hSession
          split at hSession'
          · rename_i hPid'
            rw [hPid, hPid']
          · rcases Session.of_mem_facts_next hFact with hOld | hNew
            · exact hPid ▸ hOnce actor pid' _ request' before session' hActor hSession' fact
                hOld fact' hFact' pk old new new' hMoved hMoved'
            · exact (hAdvance.no_second_move hExec (Act.movedTask_of_fact hNew hMoved)
                hSession' hFact' hMoved').elim
        · split at hSession'
          · rename_i hPid'
            cases hSession'
            rcases Session.of_mem_facts_next hFact' with hOld | hNew
            · exact hPid' ▸ hOnce pid actor request _ session before hSession hActor fact
                hFact fact' hOld pk old new new' hMoved hMoved'
            · exact (hAdvance.no_second_move hExec (Act.movedTask_of_fact hNew hMoved')
                hSession hFact hMoved).elim
          · exact hOnce pid pid' request request' session session' hSession hSession' fact
              hFact fact' hFact' pk old new new' hMoved hMoved'

/-! ## The log -/

/-- The facts a replay collects are operations of the log. -/
private theorem of_mem_facts_replay {request : Request} {init : Session} {pid : Nat}
    {fact : Fact} (log : List SchedulerEntry)
    (hFact : fact ∈ ((contract request).replay init pid log).facts) :
    fact ∈ init.facts ∨
      ∃ entry ∈ log, entry.pid = pid ∧ entry.op.act.fact entry.reply = some fact := by
  induction log with
  | nil => exact Or.inl hFact
  | cons entry log ih =>
      have hEarlier : fact ∈ ((contract request).replay init pid log).facts →
          fact ∈ init.facts ∨ ∃ other ∈ entry :: log,
            other.pid = pid ∧ other.op.act.fact other.reply = some fact := by
        intro hMem
        refine (ih hMem).imp_right ?_
        rintro ⟨other, hOther, hOwn⟩
        exact ⟨other, List.mem_cons_of_mem _ hOther, hOwn⟩
      by_cases hPid : entry.pid = pid
      · rw [Protocol.replay, if_pos hPid] at hFact
        rcases Session.of_mem_facts_next hFact with hOld | hNew
        · exact hEarlier hOld
        · exact Or.inr ⟨entry, List.mem_cons_self, hPid, hNew⟩
      · rw [Protocol.replay, if_neg hPid] at hFact
        exact hEarlier hFact

/-- The facts a call has recorded are operations it performed. -/
theorem logged_of_mem_facts {pid : Nat} {request : Request} {session : Session}
    {fact : Fact} (hSession : sessionOf pool pid = some (request, session))
    (hFact : fact ∈ session.facts) :
    ∃ entry ∈ pool.log, entry.pid = pid ∧ entry.op.act.fact entry.reply = some fact := by
  obtain ⟨proc, -, hState⟩ := Option.map_eq_some_iff.mp hSession
  cases hState
  refine (of_mem_facts_replay pool.log hFact).resolve_left fun hStart => ?_
  rw [Session.facts_start] at hStart
  cases hStart

/-- What an operation of the log records is among the facts of the replay. -/
private theorem mem_facts_replay {request : Request} {init : Session} {fact : Fact}
    {entry : SchedulerEntry} (log : List SchedulerEntry) (hEntry : entry ∈ log)
    (hRecords : ∀ before : Session,
      fact ∈ (before.next entry.op.act entry.reply).facts) :
    fact ∈ ((contract request).replay init entry.pid log).facts := by
  induction log with
  | nil => cases hEntry
  | cons later log ih =>
      rcases List.mem_cons.mp hEntry with rfl | hOlder
      · rw [Protocol.replay, if_pos rfl]
        exact hRecords _
      · by_cases hPid : later.pid = entry.pid
        · rw [Protocol.replay, if_pos hPid]
          exact Session.mem_facts_next (ih hOlder)
        · rw [Protocol.replay, if_neg hPid]
          exact ih hOlder

/-- A call has recorded the operations on tasks it performed, but for what it
looked up before it took a lease. -/
theorem mem_facts_of_logged {request : Request} {session : Session}
    {entry : SchedulerEntry} {fact : Fact} (hEntry : entry ∈ pool.log)
    (hSession : sessionOf pool entry.pid = some (request, session))
    (hRecords : ∀ before : Session,
      fact ∈ (before.next entry.op.act entry.reply).facts) : fact ∈ session.facts := by
  obtain ⟨proc, -, hState⟩ := Option.map_eq_some_iff.mp hSession
  cases hState
  exact mem_facts_replay pool.log hEntry hRecords

/-- A move in the log is a fact of the call that made it. -/
theorem moved_of_logged {request : Request} {session : Session} {entry : SchedulerEntry}
    {pk : PrimaryKeyType} {old new : TaskStateType} (hEntry : entry ∈ pool.log)
    (hSession : sessionOf pool entry.pid = some (request, session))
    (hMoved : entry.op.act.MovedTask pk old new entry.reply) :
    ∃ fact ∈ session.facts, Moved pk old new fact := by
  obtain ⟨pid, ⟨scope, act⟩, reply, before⟩ := entry
  cases act <;> simp only [Act.MovedTask] at hMoved
  rename_i taskPk newValues conditional
  rcases reply with e | _ | count
  · exact hMoved.elim
  · exact hMoved.elim
  · obtain ⟨rfl, rfl, hState⟩ := hMoved
    exact ⟨_, mem_facts_of_logged hEntry hSession fun _ => List.mem_cons_self,
      newValues, count, rfl, hState⟩

theorem session_of_logged (hRun : Run (scheduler reading) A first pool)
    (hIdle : first.Idle) {entry : SchedulerEntry} (hEntry : entry ∈ pool.log) :
    ∃ request session, sessionOf pool entry.pid = some (request, session) := by
  have hBound := hRun.logOwned hIdle entry hEntry
  exact ⟨_, _, Pool.stateOf_eq_some (List.getElem?_eq_getElem hBound)⟩

/-- No task that a call moved to started is moved from queued by it again. -/
theorem never_failedAfterStart (hRun : Run (scheduler reading) A first pool)
    (hIdle : first.Idle) :
    ∀ pid request session, sessionOf pool pid = some (request, session) →
      ¬ FailedAfterStart session.facts := by
  refine invariant_of_moves (I := fun pool => ∀ pid request session,
    sessionOf pool pid = some (request, session) → ¬ FailedAfterStart session.facts)
    hRun hIdle ?_ ?_
  · intro pid request session hSession
    rw [sessionOf_idle hIdle] at hSession
    cases hSession
  · intro pool event pool' hBefore hNever hMoves _ pid request session hSession
    cases hMoves with
    | quiet _ _ _ _ _ _ hNew =>
        rcases hNew pid request session hSession with hOld | ⟨-, rfl⟩
        · exact hNever pid request session hOld
        · rintro ⟨pk, first, second, earlier, -, -, hSuffix⟩
          rw [Session.facts_start] at hSuffix
          cases List.suffix_nil.mp hSuffix
    | performed actor actorRequest before scope act reply _ hActor _ hExec _ hSessions =>
        rw [hSessions] at hSession
        split at hSession
        · cases hSession
          rintro ⟨pk, first, second, earlier, hFirst, hSecond, hSuffix⟩
          rcases before.facts_next act reply with hSame | ⟨fact, hFact, hCons⟩
          · rw [hSame] at hSuffix
            exact hNever actor _ before hActor
              ⟨pk, first, second, earlier, hFirst, hSecond, hSuffix⟩
          · rw [hCons] at hSuffix
            rcases List.suffix_cons_iff.mp hSuffix with hNow | hOld
            · -- The second move is the operation itself, and the task has left queued.
              obtain ⟨rfl, hFacts⟩ := List.cons.inj hNow
              exact (tasksAdvance hBefore hIdle).no_second_move hExec
                (Act.movedTask_of_fact hFact hSecond) hActor
                (hFacts ▸ List.mem_cons_self) hFirst
            · exact hNever actor _ before hActor
                ⟨pk, first, second, earlier, hFirst, hSecond, hOld⟩
        · exact hNever pid request session hSession

end TernScheduler
