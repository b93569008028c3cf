import TernScheduler.Controller.CourseRuns

/-!
# Events tell the truth

Outside systems act on the events without seeing the store.  The emissions are
scattered over functions that call one another: the follow-up of a launch tells that a
running task has finished, a completed task is told of twice, and a failed one not at
all when its strategies throw or disable the job.

* `truthful` is the condition on runs: no call takes one of those turns.
* `events_truthful` is the law over such runs.
* `running_task_told_finished` is a run outside of it.
-/

namespace TernScheduler

open Interleaving Database

/-- No call strays from the turns after which its events tell the truth. -/
def truthful : RunCondition signature Database Request Settled :=
  fun pool event _ => ∀ entry ∈ event.entry, ∀ caller ∈ courseOf pool entry.pid,
    caller.2.strays caller.1 entry.op.act entry.reply = false

instance (pool : SchedulerPool) (event : Event signature Database Request)
    (pool' : SchedulerPool) : Decidable (truthful pool event pool') := by
  unfold truthful
  infer_instance

/-- The operation tells that the task was created. -/
def tellsCreatedOf (pk : PrimaryKeyType) (entry : SchedulerEntry) : Bool :=
  entry.op.act.tellsCreated.any fun row => row.pk = pk

/-- The operation tells that the task has finished. -/
def tellsFinishedOf (pk : PrimaryKeyType) (entry : SchedulerEntry) : Bool :=
  entry.op.act.tellsFinished.any fun task => task.pk = pk

/-- The operation added the task. -/
def storesTask (pk : PrimaryKeyType) (entry : SchedulerEntry) : Bool :=
  (entry.op.act.storedTask entry.reply).any fun row => row.pk = pk

/-- The operation put the task in a finished state. -/
def endsTask (pk : PrimaryKeyType) (entry : SchedulerEntry) : Bool :=
  entry.op.act.endedTask entry.reply = some pk

/-- Among the operations of the log there is one that satisfies the test at most, and
one if the call of the given number has settled. -/
def ToldOnce (pool : SchedulerPool) (pid : Nat) (tells : SchedulerEntry → Bool) : Prop :=
  (pool.log.filter tells).length ≤ 1 ∧
    (HasSettled pool pid → (pool.log.filter tells).length = 1)

/-- The events of a run tell the truth.  `taskCreated` is emitted for stored tasks, once
for each; `taskFinished` is emitted for tasks in a finished state, once for each that a
notice put there; and `taskFinishedNotUpdated` carries the state of the row. -/
structure TruthfulEvents (pool : SchedulerPool) : Prop where
  stored : ∀ pk row, pool.shared.task pk = some row →
    ∃ entry ∈ pool.log, storesTask pk entry = true
  created : ∀ entry ∈ pool.log, ∀ row, entry.op.act = .emit (.taskCreated row) →
    entry.before.task row.pk ≠ none
  createdOnce : ∀ entry ∈ pool.log, ∀ pk, storesTask pk entry = true →
    ToldOnce pool entry.pid (tellsCreatedOf pk)
  finished : ∀ entry ∈ pool.log, ∀ task, entry.op.act = .emit (.taskFinished task) →
    ∃ row, entry.before.task task.pk = some row ∧ row.state ∈ finishedStates
  finishedOnce : ∀ entry ∈ pool.log, ∀ proc ∈ pool.procs[entry.pid]?,
    proc.request.call.finishes = true → ∀ pk, endsTask pk entry = true →
    ToldOnce pool entry.pid (tellsFinishedOf pk)
  discovered : ∀ entry ∈ pool.log, ∀ task discoveredState finishedState,
    entry.op.act = .emit (.taskFinishedNotUpdated task discoveredState finishedState) →
    ∃ row, entry.before.task task.pk = some row ∧ row.state = discoveredState

variable {reading : BeforeDateReading}
  {A : RunCondition signature Database Request Settled} {clock : Date}
  {first pool pool' : SchedulerPool} {event : Event signature Database Request}

/-! ## What is done to a task once -/

/-- An operation that ends a task writes to it. -/
theorem Act.wroteTask_of_ended {act : Act} {reply : act.Reply} {pk : PrimaryKeyType}
    (h : act.endedTask reply = some pk) : act.WroteTask reply := by
  cases act with
  | updateTask taskPk newValues conditional =>
      rcases reply with e | _ | count
      · cases h
      · cases h
      · trivial
  | _ => cases h

/-- An operation that ends a task asks for a finished state of it. -/
theorem Act.finished_of_ended {pk taskPk : PrimaryKeyType} {newValues : TaskPatch}
    {conditional : Conditional TaskColumn} {count : Nat} {new : TaskStateType}
    (h : Act.endedTask (.updateTask taskPk newValues conditional) (Except.ok (count + 1)) =
      some pk) (hNew : newValues.state = some new) : taskPk = pk ∧ new ∈ finishedStates := by
  simp only [Act.endedTask, hNew, Option.any_some, Option.ite_none_right_eq_some,
    decide_eq_true_eq] at h
  exact ⟨Option.some.inj h.2, h.1⟩

/-- A task is stored by one operation. -/
theorem stored_once (hRun : Run (scheduler reading) A first pool) (hIdle : first.Idle)
    (pk : PrimaryKeyType) :
    (∀ entry ∈ pool.log, storesTask pk entry = true → pool.shared.task pk ≠ none) ∧
      (pool.log.filter (storesTask pk)).length ≤ 1 := by
  refine hRun.performed_once (D := fun db => db.task pk ≠ none) hIdle ?_ ?_
  · rintro pool ⟨pid, ⟨scope, act⟩, reply, before⟩ pool' hBefore hStep hStores
    cases hStep with
    | run _ request _ next _ after hProc hExec =>
        cases act <;> simp only [storesTask, Act.storedTask, Option.any_none,
          Bool.false_eq_true] at hStores
        rename_i row
        cases reply with
        | error e => cases hStores
        | ok done =>
            obtain rfl : row.pk = pk := of_decide_eq_true hStores
            have hEffect := Exec.taskEffect hExec
            cases hEffect with
            | kept hNone _ => exact absurd trivial hNone
            | created _ hAbsent hTasks =>
                exact ⟨fun h => h hAbsent, by simp [hTasks]⟩
  · intro pool event pool' hBefore hStep hStored
    obtain ⟨row, hRow⟩ := Option.ne_none_iff_exists'.mp hStored
    obtain ⟨row', hRow', -⟩ := (moves_of_step hBefore hIdle hStep).task_advances hRow
    simp [hRow']

/-- A task is put in a finished state by one operation. -/
theorem ended_once (hRun : Run (scheduler reading) A first pool) (hIdle : first.Idle)
    (pk : PrimaryKeyType) :
    (∀ entry ∈ pool.log, endsTask pk entry = true →
        ∃ row, pool.shared.task pk = some row ∧ row.state ∈ finishedStates) ∧
      (pool.log.filter (endsTask pk)).length ≤ 1 := by
  refine hRun.performed_once
    (D := fun db => ∃ row, db.task pk = some row ∧ row.state ∈ finishedStates) hIdle ?_ ?_
  · intro pool entry pool' hBefore hStep hEnds
    cases moves_of_step hBefore hIdle hStep with
    | quiet _ _ _ _ hLog _ _ =>
        cases hStep
        exact absurd hLog (List.cons_ne_self _ _)
    | performed pid request session scope act reply _ hSession hMay hExec _ _ =>
        have hEnded : act.endedTask reply = some pk := of_decide_eq_true hEnds
        cases hMay.taskChange hExec with
        | kept hNone _ => exact absurd (Act.wroteTask_of_ended hEnded) hNone
        | added row _ _ _ _ _ => cases hEnded
        | moved task sched leaseId old new newValues count row _ _ _ _ hRow hOld hNew hMove
            hTasks =>
            obtain ⟨rfl, hFinished⟩ := Act.finished_of_ended hEnded hNew
            have hAfter : (newValues.apply row).state ∈ finishedStates := by
              simpa [TaskPatch.apply, hNew] using hFinished
            refine ⟨?_, newValues.apply row, by rw [hTasks, if_pos rfl], hAfter⟩
            -- A task in a finished state is not moved on.
            rintro ⟨stored, hStored, hState⟩
            obtain rfl : row = stored := Option.some.inj (hRow.symm.trans hStored)
            have hLe := TaskStateType.rank_of_finished hState new
            rw [hOld] at hLe
            exact absurd hMove.rank_lt (Nat.not_lt.mpr hLe)
  · rintro pool event pool' hBefore hStep ⟨row, hRow, hState⟩
    exact ⟨row, (moves_of_step hBefore hIdle hStep).ended_kept hRow hState, hState⟩

/-! ## What a call has told -/

/-- The tasks the call of the given number has added. -/
def storedBy (pid : Nat) (log : List SchedulerEntry) : List TaskModel :=
  (log.filter fun entry => entry.pid = pid).filterMap fun entry =>
    entry.op.act.storedTask entry.reply

/-- The tasks the call of the given number has told were created. -/
def toldBy (pid : Nat) (log : List SchedulerEntry) : List TaskModel :=
  (log.filter fun entry => entry.pid = pid).filterMap fun entry => entry.op.act.tellsCreated

theorem storedBy_cons (entry : SchedulerEntry) (log : List SchedulerEntry) :
    storedBy entry.pid (entry :: log) =
      (entry.op.act.storedTask entry.reply).toList ++ storedBy entry.pid log := by
  rw [storedBy, List.filter_cons_of_pos (by simp), List.filterMap_cons]
  cases entry.op.act.storedTask entry.reply <;> rfl

theorem toldBy_cons (entry : SchedulerEntry) (log : List SchedulerEntry) :
    toldBy entry.pid (entry :: log) =
      entry.op.act.tellsCreated.toList ++ toldBy entry.pid log := by
  rw [toldBy, List.filter_cons_of_pos (by simp), List.filterMap_cons]
  cases entry.op.act.tellsCreated <;> rfl

/-- The operation of the call tells that a task has finished. -/
def tellsFinishedBy (pid : Nat) (entry : SchedulerEntry) : Bool :=
  entry.pid = pid && entry.op.act.tellsFinished.isSome

/-- What the course of a call says of the events in the log: what the call has added is
what it has told of and what it still owes, what it ended is its own task, and unless it
strayed it has told of the end of that task as often as the course says. -/
structure Recounts (pid : Nat) (course : Course) (log : List SchedulerEntry) : Prop where
  stored : storedBy pid log = course.owed.toList ++ toldBy pid log
  ended : ∀ entry ∈ log, entry.pid = pid → ∀ pk,
    entry.op.act.endedTask entry.reply = some pk →
    course.ended = true ∧ ∃ own, course.task = some own ∧ own.pk = pk
  finished : course.strayed = false → ∀ entry ∈ log, entry.pid = pid → ∀ task,
    entry.op.act.tellsFinished = some task →
    course.ended = true ∧ ∃ own, course.task = some own ∧ task.pk = own.pk
  told : course.strayed = false →
    (log.filter (tellsFinishedBy pid)).length = if course.told then 1 else 0

/-- The operation that tells a task has finished. -/
theorem Act.eq_of_tellsFinished {act : Act} {task : TaskModel}
    (h : act.tellsFinished = some task) : act = .emit (.taskFinished task) := by
  cases act with
  | emit event =>
      cases event with
      | taskFinished other =>
          cases h
          rfl
      | _ => cases h
  | _ => cases h

section Guards

variable {request : Request} {course : Course} {act : Act} {reply : act.Reply}

/-- What an operation adds is told of by it or owed after it. -/
theorem MayCourse.owed_next (hMay : MayCourse request course act) :
    (course.next request act reply).owed.toList ++ act.tellsCreated.toList =
      (act.storedTask reply).toList ++ course.owed.toList := by
  have hSame : act.storedTask reply = none → act.tellsCreated = none →
      (course.next request act reply).owed.toList ++ act.tellsCreated.toList =
        (act.storedTask reply).toList ++ course.owed.toList := by
    intro hStored hTold
    rw [(course.next_follows request act reply).owed hStored hTold, hStored, hTold]
    simp
  cases act with
  | createTask row =>
      cases reply with
      | error e => exact hSame rfl rfl
      | ok done =>
          have hOwed : course.owed = none := hMay.1
          simp [Course.next, Course.note, Act.tellsCreated, Act.storedTask, hOwed]
  | emit event =>
      cases event with
      | taskCreated row =>
          have hOwed : course.owed = some row := hMay
          simp [Course.next, Course.note, Act.tellsCreated, Act.storedTask, hOwed]
      | _ => exact hSame rfl rfl
  | _ => exact hSame rfl rfl

/-- A call ends the task it is about. -/
theorem MayCourse.ended_own {pk : PrimaryKeyType} (hMay : MayCourse request course act)
    (hEnds : act.endedTask reply = some pk) : ∃ own, course.task = some own ∧ own.pk = pk := by
  have hChanged := Act.changed_of_ended hEnds
  cases act with
  | updateTask taskPk newValues conditional =>
      obtain ⟨-, ⟨own, hOwn, rfl⟩, -⟩ := hMay
      rcases reply with e | _ | count
      · cases hChanged
      · cases hChanged
      · exact ⟨own, hOwn, Option.some.inj hChanged⟩
  | _ => cases hChanged

/-- A call tells that its own task has finished, once, and after it ended it. -/
theorem MayCourse.tells_own {task : TaskModel} (hMay : MayCourse request course act)
    (hStrayed : course.strayed = false) (hTells : act.tellsFinished = some task) :
    course.told = false ∧ course.ended = true ∧
      ∃ own, course.task = some own ∧ task.pk = own.pk := by
  rw [Act.eq_of_tellsFinished hTells] at hMay
  exact hMay.2 hStrayed

end Guards

/-- Every call has told what its course says. -/
theorem recounts_of_run (hRun : Run (scheduler reading) A first pool) (hIdle : first.Idle) :
    ∀ pid request course, courseOf pool pid = some (request, course) →
      Recounts pid course pool.log := by
  refine course_log_invariant (I := fun pid _ course log => Recounts pid course log)
    hRun hIdle ?_ ?_ ?_
  · intro pid request log hNone
    have hEmpty : (log.filter fun entry => decide (entry.pid = pid)) = [] :=
      List.filter_eq_nil_iff.mpr fun entry hEntry => by simp [hNone entry hEntry]
    have hFinished : log.filter (tellsFinishedBy pid) = [] :=
      List.filter_eq_nil_iff.mpr fun entry hEntry => by
        simp [tellsFinishedBy, hNone entry hEntry]
    refine ⟨?_, fun entry hEntry hPid => absurd hPid (hNone entry hEntry),
      fun _ entry hEntry hPid => absurd hPid (hNone entry hEntry), fun _ => ?_⟩
    · rw [storedBy, toldBy, hEmpty]
      cases request.call <;> rfl
    · rw [hFinished]
      cases request.call <;> rfl
  · intro request course log entry hBefore hMay
    -- the call itself has acted: what it has stored, told and ended grows by this operation
    have hFollows := course.next_follows request entry.op.act entry.reply
    have hStrayed : (course.next request entry.op.act entry.reply).strayed = false →
        course.strayed = false := by
      intro hNot
      simp only [Course.next, Bool.or_eq_false_iff] at hNot
      exact hNot.2.2
    refine ⟨?_, fun other hOther hPid pk hEnds => ?_,
      fun hNot other hOther hPid task hTells => ?_, fun hNot => ?_⟩
    · rw [storedBy_cons, toldBy_cons, hBefore.stored, ← List.append_assoc, ← hMay.owed_next,
        List.append_assoc]
    · rcases List.mem_cons.mp hOther with rfl | hOld
      · obtain ⟨own, hOwn, hPk⟩ := hMay.ended_own hEnds
        exact ⟨by simp [hFollows.ended, hEnds], own, hFollows.task own hOwn, hPk⟩
      · obtain ⟨hEnded, own, hOwn, hPk⟩ := hBefore.ended other hOld hPid pk hEnds
        exact ⟨by simp [hFollows.ended, hEnded], own, hFollows.task own hOwn, hPk⟩
    · have hEarlier := hStrayed hNot
      rcases List.mem_cons.mp hOther with rfl | hOld
      · obtain ⟨-, hEnded, own, hOwn, hPk⟩ := hMay.tells_own hEarlier hTells
        exact ⟨by simp [hFollows.ended, hEnded], own, hFollows.task own hOwn, hPk⟩
      · obtain ⟨hEnded, own, hOwn, hPk⟩ :=
          hBefore.finished hEarlier other hOld hPid task hTells
        exact ⟨by simp [hFollows.ended, hEnded], own, hFollows.task own hOwn, hPk⟩
    · have hEarlier := hStrayed hNot
      have hCount := hBefore.told hEarlier
      rw [hFollows.told, List.filter_cons]
      cases hTells : entry.op.act.tellsFinished with
      | none => simp [tellsFinishedBy, hTells, hCount]
      | some task =>
          rw [(hMay.tells_own hEarlier hTells).1] at hCount
          simp [tellsFinishedBy, hTells] at hCount ⊢
          simpa using hCount
  · intro pid request course log entry hPid hBefore
    refine ⟨?_, fun other hOther hOwn => ?_, fun hNot other hOther hOwn => ?_, fun hNot => ?_⟩
    · simpa [storedBy, toldBy, hPid] using hBefore.stored
    · rcases List.mem_cons.mp hOther with rfl | hOld
      · exact absurd hOwn hPid
      · exact hBefore.ended other hOld hOwn
    · rcases List.mem_cons.mp hOther with rfl | hOld
      · exact absurd hOwn hPid
      · exact hBefore.finished hNot other hOld hOwn
    · rw [List.filter_cons_of_neg (by simp [tellsFinishedBy, hPid])]
      exact hBefore.told hNot

/-! ## Runs in which no call strays -/

/-- A task is put in the state of a failed start from queued only. -/
theorem MayMove.queued_of_failed {request : Request} {sched : ScheduledJobDataModel}
    {task : TaskModel} {facts : List Fact} {old : TaskStateType}
    {jobId : Option (Option ExecutionJobId)}
    (h : MayMove request sched task facts old .failed jobId) : old = .queued := by
  cases h with
  | abandon new hCall hNew => rfl
  | finish new hNew => rcases hNew with hNew | hNew <;> cases hNew

/-- A task that was started is not put in the state of a failed start, which is what
the source tries to do with it. -/
theorem Course.Backed.not_failsStarted {request request' : Request} {course : Course}
    {session : Session} {scope : Scope} {act : Act} {reply : act.Reply} {db after : Database}
    (hBacked : course.Backed reading db) (hMayCourse : MayCourse request course act)
    (hMay : May request' session ⟨scope, act⟩) (hExec : Exec reading db act reply after) :
    act.failsStarted reply = false := by
  cases hMay.taskChange hExec with
  | kept hNone _ =>
      cases act with
      | updateTask pk newValues conditional =>
          rcases reply with e | _ | count
          · rfl
          · rfl
          · exact absurd trivial hNone
      | _ => rfl
  | added row _ _ _ _ _ => rfl
  | moved task sched leaseId old new newValues count row _ _ _ _ hRow hOld hNew hMove _ =>
      rw [Bool.eq_false_iff]
      intro hFails
      have hFailed : newValues.state = some .failed := of_decide_eq_true hFails
      obtain rfl : new = .failed := Option.some.inj (hNew.symm.trans hFailed)
      obtain rfl := hMove.queued_of_failed
      obtain ⟨-, ⟨own, hOwn, hPk⟩, hStarts⟩ := hMayCourse
      obtain ⟨own', row', hOwn', hRow', hRank⟩ := hBacked.started (hStarts hFailed)
      obtain rfl : own = own' := Option.some.inj (hOwn.symm.trans hOwn')
      rw [← hPk, hRow, Option.some.injEq] at hRow'
      rw [← hRow', hOld] at hRank
      exact absurd hRank (by decide)

/-- In a truthful run no call has strayed. -/
theorem not_strayed (hRun : Run (scheduler reading) truthful first pool)
    (hIdle : first.Idle) : ∀ pid request course,
      courseOf pool pid = some (request, course) → course.strayed = false := by
  refine hRun.invariant (I := fun pool => ∀ pid request course,
    courseOf pool pid = some (request, course) → course.strayed = false) ?_ ?_
  · intro pid request course hCourse
    rw [courseOf_idle hIdle] at hCourse
    cases hCourse
  · intro pool event pool' hBefore hNever hStep hTruthful pid request course hCourse
    have hMoves := moves_of_step hBefore hIdle hStep
    cases courseMoves_of_step hBefore hIdle hStep with
    | quiet _ _ _ _ _ hNew =>
        rcases hNew pid request course hCourse with hOld | ⟨-, rfl⟩
        · exact hNever pid request course hOld
        · cases request.call <;> rfl
    | performed actor actorRequest before op reply _ hActor hMay hExec _ hCourses =>
        rw [courseOf, hCourses] at hCourse
        split at hCourse
        · cases hCourse
          have hStrays : before.strays request op.act reply = false :=
            hTruthful _ rfl _ hActor
          -- a start that fails is marked before the task is started
          have hFails : op.act.failsStarted reply = false := by
            cases hMoves with
            | quiet _ _ _ _ hLog _ _ =>
                cases hStep
                exact absurd hLog (List.cons_ne_self _ _)
            | performed _ _ session scope act _ _ _ hContract hExec _ _ =>
                exact (backed_of_run hBefore hIdle actor request before hActor).not_failsStarted
                  hMay hContract hExec
          show (before.strays request op.act reply ||
            (op.act.failsStarted reply || before.strayed)) = false
          rw [hStrays, hFails, hNever actor request before hActor]
          rfl
        · exact hNever pid request course hCourse

/-! ## The law -/

/-- A list that is no longer than one has one member. -/
theorem eq_of_length_filter_le_one {α : Type} {p : α → Bool} {l : List α} {a b : α}
    (hLength : (l.filter p).length ≤ 1) (ha : a ∈ l) (hpa : p a = true) (hb : b ∈ l)
    (hpb : p b = true) : a = b := by
  have hMemA : a ∈ l.filter p := List.mem_filter.mpr ⟨ha, hpa⟩
  have hMemB : b ∈ l.filter p := List.mem_filter.mpr ⟨hb, hpb⟩
  generalize l.filter p = found at hLength hMemA hMemB
  match found with
  | [] => cases hMemA
  | [c] => exact (List.mem_singleton.mp hMemA).trans (List.mem_singleton.mp hMemB).symm
  | _ :: _ :: _ => simp at hLength

/-- Filtering what the members of a list give is filtering the members. -/
theorem length_filter_filterMap {α β : Type} (p : α → Bool) (f : α → Option β)
    (q : β → Bool) (l : List α) :
    (((l.filter p).filterMap f).filter q).length =
      (l.filter fun a => p a && (f a).any q).length := by
  induction l with
  | nil => rfl
  | cons a l ih =>
      cases hp : p a <;> cases hf : f a <;> simp [List.filter_cons, hp, hf, ih]
      split <;> simp [ih]

theorem mem_storedBy {pid : Nat} {log : List SchedulerEntry} {row : TaskModel}
    (h : row ∈ storedBy pid log) :
    ∃ entry ∈ log, entry.pid = pid ∧ storesTask row.pk entry = true := by
  obtain ⟨entry, hMem, hStores⟩ := List.mem_filterMap.mp h
  obtain ⟨hEntry, hPid⟩ := List.mem_filter.mp hMem
  exact ⟨entry, hEntry, of_decide_eq_true hPid, by simp [storesTask, hStores]⟩

theorem course_of_logged (hRun : Run (scheduler reading) A first pool) (hIdle : first.Idle)
    {entry : SchedulerEntry} (hEntry : entry ∈ pool.log) :
    ∃ proc course, pool.procs[entry.pid]? = some proc ∧
      courseOf pool entry.pid = some (proc.request, course) := by
  have hProc := List.getElem?_eq_getElem (hRun.logOwned hIdle entry hEntry)
  exact ⟨_, _, hProc, Pool.stateOf_eq_some hProc⟩

/-- A stored task was stored by an operation of the log. -/
theorem stored_of_run (hRun : Run (scheduler reading) A (emptyPool clock) pool) :
    ∀ pk row, pool.shared.task pk = some row →
      ∃ entry ∈ pool.log, storesTask pk entry = true := by
  have hIdle := emptyPool_idle clock
  refine invariant_of_moves (I := fun pool => ∀ pk row, pool.shared.task pk = some row →
    ∃ entry ∈ pool.log, storesTask pk entry = true) hRun hIdle ?_ ?_
  · intro pk row hRow
    cases hRow
  · intro pool event pool' _ hAll hMoves _ pk row hRow
    cases hMoves with
    | quiet _ _ _ hTasks hLog _ _ =>
        rw [hLog]
        exact hAll pk row (hTasks pk ▸ hRow)
    | performed pid request session scope act reply _ _ _ hExec hLog _ =>
        rw [hLog]
        -- a task that was there was stored by an earlier operation
        have hEarlier : (∃ row, pool.shared.task pk = some row) →
            ∃ entry ∈ ⟨pid, ⟨scope, act⟩, reply, pool.shared⟩ :: pool.log,
              storesTask pk entry = true := by
          rintro ⟨row, hRow⟩
          obtain ⟨entry, hEntry, hStores⟩ := hAll pk row hRow
          exact ⟨entry, List.mem_cons_of_mem _ hEntry, hStores⟩
        cases hExec.taskEffect with
        | kept _ hTasks => exact hEarlier ⟨row, hTasks pk ▸ hRow⟩
        | created new _ hTasks =>
            by_cases hPk : pk = new.pk
            · exact ⟨_, List.mem_cons_self, by simp [storesTask, Act.storedTask, hPk]⟩
            · rw [hTasks, if_neg hPk] at hRow
              exact hEarlier ⟨row, hRow⟩
        | updated taskPk newValues conditional count old hOld _ hTasks =>
            by_cases hPk : pk = taskPk
            · exact hEarlier ⟨old, hPk ▸ hOld⟩
            · rw [hTasks, if_neg hPk] at hRow
              exact hEarlier ⟨row, hRow⟩

/-- The creation of a task is told once. -/
theorem created_once (hRun : Run (scheduler reading) A first pool) (hIdle : first.Idle)
    {entry : SchedulerEntry} (hEntry : entry ∈ pool.log) {pk : PrimaryKeyType}
    (hStores : storesTask pk entry = true) :
    ToldOnce pool entry.pid (tellsCreatedOf pk) := by
  have hOnce := (stored_once hRun hIdle pk).2
  have hRecounts := recounts_of_run hRun hIdle
  -- Whoever stores the task or tells of it is the one call.
  have hStorer : ∀ other ∈ pool.log, storesTask pk other = true → other.pid = entry.pid :=
    fun other hOther hStores' =>
      congrArg Entry.pid (eq_of_length_filter_le_one hOnce hOther hStores' hEntry hStores)
  have hTeller : ∀ other ∈ pool.log, tellsCreatedOf pk other = true →
      other.pid = entry.pid := by
    intro other hOther hTells
    obtain ⟨row, hTold, hPk⟩ := (Option.any_eq_true _ _).mp hTells
    obtain rfl : row.pk = pk := of_decide_eq_true hPk
    obtain ⟨proc, course, -, hCourse⟩ := course_of_logged hRun hIdle hOther
    have hMem : row ∈ storedBy other.pid pool.log := by
      rw [(hRecounts _ _ _ hCourse).stored]
      exact List.mem_append_right _ (List.mem_filterMap.mpr
        ⟨other, List.mem_filter.mpr ⟨hOther, by simp⟩, hTold⟩)
    obtain ⟨stored, hStored, hPid, hStores'⟩ := mem_storedBy hMem
    exact hPid ▸ hStorer stored hStored hStores'
  obtain ⟨proc, course, hProc, hCourse⟩ := course_of_logged hRun hIdle hEntry
  -- What is told of the task and what is still owed is what was stored of it.
  have hSum : (pool.log.filter fun other => other.pid = entry.pid && storesTask pk other).length =
      (course.owed.toList.filter fun row => row.pk = pk).length +
        (pool.log.filter fun other => other.pid = entry.pid && tellsCreatedOf pk other).length := by
    have hRows := congrArg (fun rows => (rows.filter fun row => decide (row.pk = pk)).length)
      (hRecounts _ _ _ hCourse).stored
    simp only [List.filter_append, List.length_append, storedBy, toldBy,
      length_filter_filterMap] at hRows
    exact hRows
  have hStored : (pool.log.filter (storesTask pk)).length = 1 :=
    Nat.le_antisymm hOnce (List.length_pos_of_mem (List.mem_filter.mpr ⟨hEntry, hStores⟩))
  rw [← length_filter_of_owner hStorer, ← length_filter_of_owner hTeller, hStored] at hSum
  constructor
  · omega
  · rintro ⟨request, settled, hSettled⟩
    obtain ⟨course', hCourse', hConcludes⟩ := concludes_of_run hRun hIdle hSettled
    rw [hCourse, Option.some.injEq, Prod.mk.injEq] at hCourse'
    obtain ⟨rfl, rfl⟩ := hCourse'
    rw [hConcludes.owed] at hSum
    simpa using hSum.symm

/-- In a truthful run the end of a task that a notice ended is told once. -/
theorem finished_once (hRun : Run (scheduler reading) truthful first pool)
    (hIdle : first.Idle) {entry : SchedulerEntry} (hEntry : entry ∈ pool.log)
    {proc : Proc signature Request Settled} (hProc : pool.procs[entry.pid]? = some proc)
    (hFinishes : proc.request.call.finishes = true) {pk : PrimaryKeyType}
    (hEnds : endsTask pk entry = true) : ToldOnce pool entry.pid (tellsFinishedOf pk) := by
  have hOnce := (ended_once hRun hIdle pk).2
  have hRecounts := recounts_of_run hRun hIdle
  have hNever := not_strayed hRun hIdle
  have hTeller : ∀ other ∈ pool.log, tellsFinishedOf pk other = true →
      other.pid = entry.pid := by
    intro other hOther hTells
    obtain ⟨task, hTold, hPk⟩ := (Option.any_eq_true _ _).mp hTells
    obtain rfl : task.pk = pk := of_decide_eq_true hPk
    obtain ⟨proc, course, -, hCourse⟩ := course_of_logged hRun hIdle hOther
    have hCounts := hRecounts _ _ _ hCourse
    obtain ⟨hEnded, own, hOwn, hPk⟩ :=
      hCounts.finished (hNever _ _ _ hCourse) other hOther rfl task hTold
    obtain ⟨ending, hEnding, hPid, hSome⟩ :=
      (sequenced_of_run hRun hIdle _ _ _ hCourse).ended hEnded
    obtain ⟨endedPk, hEndedPk⟩ := Option.isSome_iff_exists.mp hSome
    obtain ⟨-, own', hOwn', hPk'⟩ := hCounts.ended ending hEnding hPid endedPk hEndedPk
    obtain rfl : own = own' := Option.some.inj (hOwn.symm.trans hOwn')
    have hEnds' : endsTask task.pk ending = true := by
      simp [endsTask, hEndedPk, ← hPk', hPk]
    exact hPid ▸ congrArg Entry.pid
      (eq_of_length_filter_le_one hOnce hEnding hEnds' hEntry hEnds)
  obtain ⟨proc', course, hProc', hCourse⟩ := course_of_logged hRun hIdle hEntry
  obtain rfl : proc = proc' := Option.some.inj (hProc.symm.trans hProc')
  have hStrayed := hNever _ _ _ hCourse
  have hCounts := hRecounts _ _ _ hCourse
  obtain ⟨hEnded, own, hOwn, hPk⟩ := hCounts.ended entry hEntry rfl pk (of_decide_eq_true hEnds)
  -- The call tells of no other task.
  have hSame : (pool.log.filter fun other => other.pid = entry.pid && tellsFinishedOf pk other) =
      pool.log.filter (tellsFinishedBy entry.pid) := by
    refine List.filter_congr fun other hOther => ?_
    by_cases hPid : other.pid = entry.pid
    · cases hTells : other.op.act.tellsFinished with
      | none => simp [tellsFinishedOf, tellsFinishedBy, hTells]
      | some task =>
          obtain ⟨-, own', hOwn', hPk'⟩ :=
            hCounts.finished hStrayed other hOther hPid task hTells
          obtain rfl : own = own' := Option.some.inj (hOwn.symm.trans hOwn')
          simp [tellsFinishedOf, tellsFinishedBy, hTells, hPk', hPk]
    · simp [tellsFinishedBy, hPid]
  rw [ToldOnce, length_filter_of_owner hTeller, hSame, hCounts.told hStrayed]
  refine ⟨by split <;> omega, ?_⟩
  rintro ⟨request, settled, hSettled⟩
  obtain ⟨course', hCourse', hConcludes⟩ := concludes_of_run hRun hIdle hSettled
  obtain rfl : proc = ⟨request, some (.ret settled)⟩ :=
    Option.some.inj (hProc.symm.trans hSettled)
  rw [hCourse, Option.some.injEq, Prod.mk.injEq] at hCourse'
  obtain ⟨-, rfl⟩ := hCourse'
  rw [if_pos (hConcludes.told hFinishes hEnded hStrayed)]

theorem before_eq {entry : SchedulerEntry}
    (hStep : Step (scheduler reading) pool (.ran entry) pool') :
    entry.before = pool.shared := by
  cases hStep
  rfl

/-- **Events tell the truth, unless a call strays.**  In every truthful run, each stored
task is told of once, a task is told finished only in a finished state and once for each
that a notice put there, and a refused notice carries the state of the row. -/
theorem events_truthful
    (hRun : Run (scheduler reading) truthful (emptyPool clock) pool) : TruthfulEvents pool := by
  have hIdle := emptyPool_idle clock
  refine ⟨stored_of_run hRun, ?_, fun entry hEntry pk => created_once hRun hIdle hEntry, ?_,
    fun entry hEntry proc hProc hFinishes pk => finished_once hRun hIdle hEntry hProc hFinishes,
    ?_⟩
  · refine hRun.logged hIdle fun pool entry pool' hBefore hStep _ row hAct => ?_
    obtain ⟨request, course, hCourse, hMay⟩ := may_course_of_step hBefore hIdle hStep
    rw [hAct] at hMay
    have hOwed : course.owed = some row := hMay
    have hMem : row ∈ storedBy entry.pid pool.log := by
      rw [(recounts_of_run hBefore hIdle _ _ _ hCourse).stored, hOwed]
      exact List.mem_cons_self
    obtain ⟨stored, hStored, -, hStores⟩ := mem_storedBy hMem
    rw [before_eq hStep]
    exact (stored_once hBefore hIdle row.pk).1 stored hStored hStores
  · refine hRun.logged hIdle fun pool entry pool' hBefore hStep _ task hAct => ?_
    obtain ⟨request, course, hCourse, hMay⟩ := may_course_of_step hBefore hIdle hStep
    rw [hAct] at hMay
    obtain ⟨-, hEnded, own, hOwn, hPk⟩ := hMay.2 (not_strayed hBefore hIdle _ _ _ hCourse)
    obtain ⟨own', row, hOwn', hRow, hState⟩ :=
      (backed_of_run hBefore hIdle _ _ _ hCourse).ended hEnded
    obtain rfl : own = own' := Option.some.inj (hOwn.symm.trans hOwn')
    exact ⟨row, by rw [before_eq hStep, hPk, hRow], hState⟩
  · refine hRun.logged hIdle fun pool entry pool' hBefore hStep _ task state finished hAct => ?_
    obtain ⟨request, course, hCourse, hMay⟩ := may_course_of_step hBefore hIdle hStep
    rw [hAct] at hMay
    obtain ⟨row, hFound, hState, hFinished⟩ := hMay.2 (not_strayed hBefore hIdle _ _ _ hCourse)
    obtain ⟨hRow, hHolds⟩ :=
      (backed_of_run hBefore hIdle _ _ _ hCourse).found _ row hFound (hState ▸ hFinished)
    have hPk : row.pk = task.pk := (holds_tkPkEquals task.pk).mp hHolds
    exact ⟨row, by rw [before_eq hStep, ← hPk, hRow], hState⟩

/-- A failed task is told of, and so is the task that follows it. -/
theorem sample_events_truthful :
    ∃ pool : SchedulerPool,
      pool.shared.taskTable.rows.map (·.state) = [.completeError, .pending] ∧
        TruthfulEvents pool := by
  have hDriven : ((driver strictlyBefore).drive
      (fun pool event pool' => truthful pool event pool')
      (createSample sampleFinish ++
        .spawn ⟨sampleNode sampleFinish [], 1, .startTask sampleTask⟩ ::
          turns 1 10 { leaseId := "start", job := .ok (.running "run") } ++
        .spawn ⟨sampleNode sampleFinish [], 2, .taskFinished "run" (.failed "run" none)⟩ ::
          turns 2 11 { leaseId := "finish", primaryKey := "next" })
      (emptyPool 0)).any (fun pool =>
        pool.shared.taskTable.rows.map (·.state) = [.completeError, .pending]) = true := by
    decide +kernel
  obtain ⟨pool, hRun, hStates⟩ := Driver.exists_run_of_drive (A := truthful)
    (fun _ _ _ => of_decide_eq_true) hDriven
  exact ⟨pool, of_decide_eq_true hStates, events_truthful hRun⟩

/-- **A running task is told finished.**  The follow-up of a launch finds no pending
task, adds one, and tells that the task it follows has finished, which runs. -/
theorem running_task_told_finished :
    ¬ ∀ pool : SchedulerPool,
      Run (scheduler strictlyBefore) (storeAnswers strictlyBefore) (emptyPool 0) pool →
      TruthfulEvents pool := by
  intro hTruthful
  have hDriven : ((driver strictlyBefore).drive
      (fun pool event pool' => storeAnswers strictlyBefore pool event pool')
      (createSample sampleStart ++
        .spawn ⟨sampleNode sampleStart [], 1, .startTask sampleTask⟩ ::
          turns 1 15 { leaseId := "start", primaryKey := "next", job := .ok (.running "run") })
      (emptyPool 0)).any (fun pool => pool.log.any fun entry =>
        tellsFinishedOf "task" entry &&
          (entry.before.task "task").all fun row => row.state = .started) = true := by
    decide +kernel
  obtain ⟨pool, hRun, hTold⟩ := Driver.exists_run_of_drive (A := storeAnswers strictlyBefore)
    (fun _ _ _ => of_decide_eq_true) hDriven
  obtain ⟨entry, hEntry, hBoth⟩ := List.any_eq_true.mp hTold
  rw [Bool.and_eq_true] at hBoth
  obtain ⟨task, hTells, hPk⟩ := (Option.any_eq_true _ _).mp hBoth.1
  have hPk : task.pk = "task" := of_decide_eq_true hPk
  obtain ⟨row, hRow, hState⟩ :=
    (hTruthful pool hRun).finished entry hEntry task (Act.eq_of_tellsFinished hTells)
  have hStarted := hBoth.2
  rw [← hPk, hRow, Option.all_some, decide_eq_true_iff] at hStarted
  rw [hStarted] at hState
  exact absurd hState (by decide)

end TernScheduler
