import TernScheduler.Controller.Conformance
import TernScheduler.Library.Sessions
import TernScheduler.Datastore.Effects

/-!
# Runs of the scheduler

A run interleaves calls of any number of nodes.  Since every call follows its
contract, one step of a run is one of two things: a call performs an operation
its contract allows, or the tables stay as they are while a call starts, a node
stops or the clock moves on.  The invariants of the later modules are proved by
cases on `Moves`, without looking at a program.
-/

namespace TernScheduler

open Interleaving

/-- The request and the session of a call. -/
def sessionOf (pool : SchedulerPool) (pid : Nat) : Option (Request × Session) :=
  pool.stateOf contract (fun request => .start request.call) pid

/-- What one step of the scheduler can do, seen from the sessions: at most start
a call, or perform an operation that a call's contract allows. -/
inductive Moves (reading : BeforeDateReading) (pool : SchedulerPool) :
    Event signature Database Request → SchedulerPool → Prop
  | quiet (event : Event signature Database Request) (pool' : SchedulerPool)
      (hJobs : ∀ pk, pool'.shared.job pk = pool.shared.job pk)
      (hTasks : ∀ pk, pool'.shared.task pk = pool.shared.task pk)
      (hLog : pool'.log = pool.log)
      (hOld : ∀ pid state, sessionOf pool pid = some state →
        sessionOf pool' pid = some state)
      (hNew : ∀ pid request session, sessionOf pool' pid = some (request, session) →
        sessionOf pool pid = some (request, session) ∨
          (event = .spawned request ∧ session = .start request.call)) :
      Moves reading pool event pool'
  | performed (pid : Nat) (request : Request) (session : Session) (scope : Scope)
      (act : Act) (reply : act.Reply) (pool' : SchedulerPool)
      (hSession : sessionOf pool pid = some (request, session))
      (hMay : May request session ⟨scope, act⟩)
      (hExec : Database.Exec reading pool.shared act reply pool'.shared)
      (hLog : pool'.log = ⟨pid, ⟨scope, act⟩, reply, pool.shared⟩ :: pool.log)
      (hSessions : ∀ other, sessionOf pool' other =
        if other = pid then some (request, session.next act reply)
        else sessionOf pool other) :
      Moves reading pool (.ran ⟨pid, ⟨scope, act⟩, reply, pool.shared⟩) pool'

variable {reading : BeforeDateReading}
  {A : RunCondition signature Database Request Settled}
  {first pool pool' : SchedulerPool} {event : Event signature Database Request}

theorem before_eq_of_step {entry : SchedulerEntry}
    (hStep : Step (scheduler reading) pool (.ran entry) pool') :
    entry.before = pool.shared := by
  cases hStep
  rfl

/-- After a run, what is left of each call follows its contract. -/
theorem honors_of_run (hRun : Run (scheduler reading) A first pool)
    (hIdle : first.Idle) :
    pool.Honors contract (fun request => .start request.call)
      (fun request after _ => Settles request after) := by
  refine hRun.honors (fun request => ?_) hIdle
  refine Prog.Sat.mono request.honors_contract fun after result hAfter => ?_
  cases result with
  | ok value => exact hAfter
  | error e => exact hAfter

theorem settles_of_run (hRun : Run (scheduler reading) A first pool)
    (hIdle : first.Idle) {pid : Nat} {request : Request} {settled : Settled}
    (hSettled : pool.procs[pid]? = some ⟨request, some (.ret settled)⟩) :
    ∃ session, sessionOf pool pid = some (request, session) ∧ Settles request session :=
  ⟨_, Pool.stateOf_eq_some hSettled, honors_of_run hRun hIdle pid request _ hSettled⟩

/-- **Inversion of a step**: the sessions before and after it. -/
theorem moves_of_step (hRun : Run (scheduler reading) A first pool)
    (hIdle : first.Idle) (hStep : Step (scheduler reading) pool event pool') :
    Moves reading pool event pool' := by
  cases hStep.moves (hRun.logOwned hIdle) (honors_of_run hRun hIdle) with
  | quiet _ _ hShared hLog hOld hNew =>
      obtain ⟨hJobs, hTasks⟩ := Database.tables_of_quiet hShared
      exact .quiet _ _ hJobs hTasks hLog hOld hNew
  | performed pid request session op reply _ hSession hMay hExec hLog hSessions =>
      exact .performed pid request session op.scope op.act reply _ hSession hMay hExec hLog
        hSessions

/-- The induction over a run, on its sessions. -/
theorem invariant_of_moves {I : SchedulerPool → Prop}
    (hRun : Run (scheduler reading) A first pool) (hIdle : first.Idle)
    (hInit : I first)
    (hMoves : ∀ pool event pool', Run (scheduler reading) A first pool → I pool →
      Moves reading pool event pool' → A pool event pool' → I pool') : I pool :=
  hRun.invariant hInit fun pool event pool' hBefore hI hStep hA =>
    hMoves pool event pool' hBefore hI (moves_of_step hBefore hIdle hStep) hA

/-- Every store call is answered by the store. -/
def storeAnswers (reading : BeforeDateReading) :
    RunCondition signature Database Request Settled :=
  fun pool event _ => ∀ entry ∈ event.entry,
    Database.Answered reading pool.shared entry.op.act entry.reply

instance (reading : BeforeDateReading) (pool : SchedulerPool)
    (event : Event signature Database Request) (pool' : SchedulerPool) :
    Decidable (storeAnswers reading pool event pool') := by
  unfold storeAnswers
  infer_instance

theorem sessionOf_idle (hIdle : first.Idle) (pid : Nat) :
    sessionOf first pid = none := Pool.stateOf_idle hIdle pid

/-- The induction over a run for a property of each session by itself: it holds
when a call starts, and every operation the contract allows keeps it. -/
theorem session_invariant {I : Request → Session → Prop}
    (hRun : Run (scheduler reading) A first pool) (hIdle : first.Idle)
    (hStart : ∀ request, I request (.start request.call))
    (hNext : ∀ request session scope act reply db after, I request session →
      May request session ⟨scope, act⟩ → Database.Exec reading db act reply after →
      I request (session.next act reply)) :
    ∀ pid request session, sessionOf pool pid = some (request, session) →
      I request session := by
  refine invariant_of_moves (I := fun pool => ∀ pid request session,
    sessionOf pool pid = some (request, session) → I request session) hRun hIdle ?_ ?_
  · intro pid request session hSession
    rw [sessionOf_idle hIdle] at hSession
    cases hSession
  · intro pool event pool' _ hAll hMoves _ pid request session hSession
    cases hMoves with
    | quiet _ _ _ _ _ _ hNew =>
        rcases hNew pid request session hSession with hBefore | ⟨-, rfl⟩
        · exact hAll pid request session hBefore
        · exact hStart request
    | performed actor actorRequest before scope act reply _ hActor hMay hExec _ hSessions =>
        rw [hSessions] at hSession
        split at hSession
        · cases hSession
          exact hNext _ _ _ _ _ _ _ (hAll actor _ before hActor) hMay hExec
        · exact hAll pid request session hSession

/-- What holds of every request that is started holds of the request of every
session. -/
theorem request_of_session {Q : Request → Prop}
    (hRun : Run (scheduler reading) A first pool) (hIdle : first.Idle)
    (hStarted : ∀ pool event pool', A pool event pool' → ∀ request ∈ event.request,
      Q request) :
    ∀ pid request session, sessionOf pool pid = some (request, session) → Q request := by
  refine invariant_of_moves (I := fun pool => ∀ pid request session,
    sessionOf pool pid = some (request, session) → Q request) hRun hIdle ?_ ?_
  · intro pid request session hSession
    rw [sessionOf_idle hIdle] at hSession
    cases hSession
  · intro pool event pool' _ hAll hMoves hA pid request session hSession
    cases hMoves with
    | quiet _ _ _ _ _ _ hNew =>
        rcases hNew pid request session hSession with hOld | ⟨hSpawned, -⟩
        · exact hAll pid request session hOld
        · exact hStarted _ _ _ hA request (by rw [hSpawned]; rfl)
    | performed actor actorRequest before scope act reply _ hActor _ _ _ hSessions =>
        rw [hSessions] at hSession
        split at hSession
        · cases hSession
          exact hAll actor _ before hActor
        · exact hAll pid request session hSession

/-- The call of the given number has settled. -/
def HasSettled (pool : SchedulerPool) (pid : Nat) : Prop :=
  ∃ request settled, pool.procs[pid]? = some ⟨request, some (.ret settled)⟩

/-- Every operation of the log was executed in the state recorded with it. -/
theorem exec_of_logged (hRun : Run (scheduler reading) A first pool)
    (hIdle : first.Idle) {entry : SchedulerEntry} (hEntry : entry ∈ pool.log) :
    ∃ after, Database.Exec reading entry.before entry.op.act entry.reply after := by
  refine hRun.logged (C := fun entry : SchedulerEntry => ∃ after,
    Database.Exec reading entry.before entry.op.act entry.reply after) hIdle
    (fun _ _ _ _ hStep _ => ?_) entry hEntry
  cases hStep with
  | run pid request op next reply after hProc hExec => exact ⟨after, hExec⟩

end TernScheduler
