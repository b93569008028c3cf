import TernScheduler.Controller.Watched

/-!
# The runs of the lease runners

A run as the list of its operations and their replies, whatever the environment answers.

* `Retried` is the retry loop as its documentation describes it, and `retried_of_plays`
  says that the chain of handlers the source builds runs that way.
* `AfterLease` is what follows a granted lease.
* `plays_runUpdateInLease` takes a run of `runUpdateInLease` apart.
-/

namespace TernScheduler

open Interleaving

variable {α : Type} {done : List (Exchange signature)}

theorem plays_ask {act : Act} {answer : act.Reply → Except JsError α} {last : Except JsError α}
    (h : (ask act answer).Plays done last) :
    ∃ reply, done = [⟨outside act, reply⟩] ∧ last = answer reply := by
  obtain ⟨reply, rest, rfl, rfl, rfl⟩ := h
  exact ⟨reply, rfl, rfl⟩

/-- A label is put on each part of a sequence. -/
theorem relabel_bind {β : Type} (scope : Scope) (program : Prog signature α)
    (rest : α → Prog signature β) :
    relabel scope (program.bind rest) =
      (relabel scope program).bind fun value => relabel scope (rest value) := by
  induction program with
  | ret value => rfl
  | call operation next ih =>
      obtain ⟨old, act⟩ := operation
      simp only [Prog.bind, relabel, ih]

/-- The work of a lease runner never rejects: it ends with an exit state. -/
theorem plays_settleLease {scope : Scope} {work : Js (LeaseExitState α)}
    {last : Except JsError (LeaseExitState α)}
    (h : (inScope scope (settleLease work)).Plays done last) :
    ∃ result, (inScope scope work).Plays done result ∧ last = .ok (exitOf result) := by
  have hSettle : inScope scope (settleLease work) = Prog.bind (inScope scope work)
      fun result => Prog.ret (.ok (exitOf result)) := by
    refine (relabel_bind scope work _).trans (congrArg (Prog.bind _) (funext fun result => ?_))
    cases result <;> rfl
  rw [hSettle] at h
  obtain ⟨first, second, result, rfl, hFirst, rfl, rfl⟩ := Prog.Plays.bind h
  exact ⟨result, by rwa [List.append_nil], rfl⟩

/-! ## The retry loop -/

/-- The delay an operation asks for. -/
def Act.delay : Act → Option Int
  | .retryDelay delaySeconds => some delaySeconds
  | _ => none

/-- One lease attempt: its operations, and how it ended. -/
structure LeaseTry where
  log : List (Exchange signature)
  outcome : Except JsError Unit

/-- The attempt was granted the lease. -/
def LeaseTry.granted (attempt : LeaseTry) : Bool :=
  match attempt.outcome with
  | .ok _ => true
  | .error _ => false

/-- One attempt for each item of the list after the first, as long as they fail, each after
its delay. -/
inductive Retried (attempt : Js Unit) :
    List Int → List LeaseTry → List (Exchange signature) → Except JsError Unit → Prop
  | granted {delays : List Int} {log : List (Exchange signature)}
      (hRun : attempt.Plays log (.ok ())) : Retried attempt delays [⟨log, .ok ()⟩] log (.ok ())
  | refused {log : List (Exchange signature)} {reason : JsError}
      (hRun : attempt.Plays log (.error reason)) :
      Retried attempt [] [⟨log, .error reason⟩] log (.error reason)
  | again {delay : Int} {delays : List Int} {log rest : List (Exchange signature)}
      {reason : JsError} {tries : List LeaseTry} {outcome : Except JsError Unit}
      (hRun : attempt.Plays log (.error reason))
      (hRest : Retried attempt delays tries rest outcome) :
      Retried attempt (delay :: delays) (⟨log, .error reason⟩ :: tries)
        (log ++ ⟨outside (.retryDelay delay), ()⟩ :: rest) outcome

/-- What is left of the retry loop after an attempt that failed. -/
inductive RetriedAfter (attempt : Js Unit) (reason : JsError) :
    List Int → List (Exchange signature) → Except JsError Unit → Prop
  | ended : RetriedAfter attempt reason [] [] (.error reason)
  | again {delay : Int} {delays : List Int} {rest : List (Exchange signature)}
      {tries : List LeaseTry} {outcome : Except JsError Unit}
      (hRest : Retried attempt delays tries rest outcome) :
      RetriedAfter attempt reason (delay :: delays)
        (⟨outside (.retryDelay delay), ()⟩ :: rest) outcome

variable {attempt previous : Js Unit} {outcome : Except JsError Unit} {delays : List Int}
  {tries : List LeaseTry}

/-- An attempt that failed, and what is left of the loop. -/
theorem RetriedAfter.retried {log rest : List (Exchange signature)} {reason : JsError}
    (hRun : attempt.Plays log (.error reason))
    (h : RetriedAfter attempt reason delays rest outcome) :
    ∃ tries, Retried attempt delays tries (log ++ rest) outcome := by
  cases h with
  | ended => exact ⟨_, by rw [List.append_nil]; exact .refused hRun⟩
  | again hRest => exact ⟨_, .again hRun hRest⟩

/-- One round of the loop: the value of the attempts so far, or the next attempt after a
delay. -/
theorem plays_retryLease {delay : Int}
    (h : (retryLease attempt previous delay).Plays done outcome) :
    (previous.Plays done (.ok ()) ∧ outcome = .ok ()) ∨
      ∃ first second reason, previous.Plays first (.error reason) ∧
        done = first ++ ⟨outside (.retryDelay delay), ()⟩ :: second ∧
        attempt.Plays second outcome := by
  rcases Promise.plays_handle h with ⟨value, hWaited, rfl⟩ | ⟨waited, second, reason, rfl, hWaited,
    hSecond⟩
  · rcases Promise.plays_handle hWaited with ⟨_, hPrevious, -⟩ | ⟨_, _, _, -, -, hHandler⟩
    · exact Or.inl ⟨hPrevious, rfl⟩
    · -- After the delay the handler rejects again.
      rcases Promise.plays_bind hHandler with ⟨_, _, _, -, -, -, hNone⟩ | ⟨_, -, hNone⟩ <;>
        cases hNone
  · rcases Promise.plays_handle hWaited with ⟨_, -, hNone⟩ | ⟨first, last, given, rfl, hFirst,
      hHandler⟩
    · cases hNone
    · rcases Promise.plays_bind hHandler with ⟨delayed, _, _, rfl, hDelay, rfl, -⟩ |
        ⟨_, hDelay, -⟩
      · obtain ⟨reply, rfl, -⟩ := plays_ask hDelay
        exact Or.inr ⟨first, second, given, hFirst, by simp, hSecond⟩
      · obtain ⟨reply, -, hNone⟩ := plays_ask hDelay
        cases hNone

/-- The chain of handlers, from the attempts so far. -/
theorem retriedAfter_of_plays
    (h : (delays.foldl (retryLease attempt) previous).Plays done outcome) :
    (previous.Plays done (.ok ()) ∧ outcome = .ok ()) ∨
      ∃ first reason rest, previous.Plays first (.error reason) ∧ done = first ++ rest ∧
        RetriedAfter attempt reason delays rest outcome := by
  induction delays generalizing previous with
  | nil =>
      cases outcome with
      | ok value => exact Or.inl ⟨h, rfl⟩
      | error reason => exact Or.inr ⟨done, reason, [], h, (List.append_nil _).symm, .ended⟩
  | cons delay delays ih =>
      rcases ih h with ⟨hRound, rfl⟩ | ⟨first, reason, rest, hRound, rfl, hRest⟩
      · rcases plays_retryLease hRound with ⟨hPrevious, -⟩ | ⟨first, second, reason, hFirst, rfl,
          hSecond⟩
        · exact Or.inl ⟨hPrevious, rfl⟩
        · exact Or.inr ⟨first, reason, _, hFirst, rfl, .again (.granted hSecond)⟩
      · rcases plays_retryLease hRound with ⟨-, hNone⟩ | ⟨start, second, given, hStart, rfl,
          hSecond⟩
        · cases hNone
        · obtain ⟨tries, hTries⟩ := hRest.retried hSecond
          exact Or.inr ⟨start, given, _, hStart, by simp, .again hTries⟩

/-- **The chain of handlers retries as documented.** -/
theorem retried_of_plays (h : (delays.foldl (retryLease attempt) attempt).Plays done outcome) :
    ∃ tries, Retried attempt delays tries done outcome := by
  rcases retriedAfter_of_plays h with ⟨hRun, rfl⟩ | ⟨first, reason, rest, hRun, rfl, hRest⟩
  · exact ⟨_, .granted hRun⟩
  · exact hRest.retried hRun

namespace Retried

/-- The number of attempts is one for each item of the list and one more, or the position of
the first success. -/
theorem length_eq (h : Retried attempt delays tries done outcome) :
    tries.length = min (1 + delays.length) (tries.findIdx LeaseTry.granted + 1) := by
  induction h with
  | granted hRun => simp [List.findIdx_cons, LeaseTry.granted]
  | refused hRun => simp [List.findIdx_cons, LeaseTry.granted]
  | again hRun hRest ih =>
      simp only [List.length_cons, List.findIdx_cons, LeaseTry.granted, cond_false]
      omega

theorem length_pos (h : Retried attempt delays tries done outcome) : 0 < tries.length := by
  cases h <;> exact Nat.succ_pos _

/-- The loop ends as its last attempt does. -/
theorem getLast (h : Retried attempt delays tries done outcome) :
    tries.getLast?.map LeaseTry.outcome = some outcome := by
  induction h with
  | granted hRun => rfl
  | refused hRun => rfl
  | @again _ _ _ _ _ later _ hRun hRest ih =>
      cases later with
      | nil => cases ih
      | cons head tail => rwa [List.getLast?_cons_cons]

/-- The delays that are requested are the first ones of the list, one for each attempt after
the first. -/
theorem delays_eq (hQuiet : attempt.Uses fun op : Operation => op.act.delay = none)
    (h : Retried attempt delays tries done outcome) :
    done.filterMap (fun exchange => exchange.1.act.delay) = delays.take (tries.length - 1) := by
  have hNone : ∀ {log : List (Exchange signature)} {given : Except JsError Unit},
      attempt.Plays log given → log.filterMap (fun exchange => exchange.1.act.delay) = [] := by
    intro log given hRun
    rw [List.filterMap_eq_nil_iff]
    exact hQuiet.forall_of_plays hRun
  induction h with
  | granted hRun => exact hNone hRun
  | refused hRun => exact hNone hRun
  | @again _ _ _ _ _ later _ hRun hRest ih =>
      obtain ⟨count, hCount⟩ := Nat.exists_eq_succ_of_ne_zero (Nat.ne_of_gt hRest.length_pos)
      rw [List.filterMap_append, hNone hRun, List.nil_append]
      refine (congrArg (List.cons _) ih).trans ?_
      rw [List.length_cons, hCount]
      rfl

/-- What holds of the operations of every attempt, and of the delays, holds of all. -/
theorem forall_log {Q : Exchange signature → Prop}
    (hDelay : ∀ delay, Q ⟨outside (.retryDelay delay), ()⟩)
    (hRefused : ∀ log reason, attempt.Plays log (.error reason) → ∀ exchange ∈ log, Q exchange)
    (hLast : ∀ log, attempt.Plays log outcome → ∀ exchange ∈ log, Q exchange)
    (h : Retried attempt delays tries done outcome) : ∀ exchange ∈ done, Q exchange := by
  induction h with
  | granted hRun => exact hLast _ hRun
  | refused hRun => exact hRefused _ _ hRun
  | again hRun hRest ih =>
      intro exchange hMem
      rcases List.mem_append.mp hMem with hLog | hLater
      · exact hRefused _ _ hRun exchange hLog
      · rcases List.mem_cons.mp hLater with rfl | hRest
        · exact hDelay _
        · exact ih hLast exchange hRest

end Retried

/-! ## The end of a lease -/

/-- The reason a promise that settled was rejected with, if it was. -/
def failureOf {β : Type} : Except JsError β → List JsError
  | .ok _ => []
  | .error reason => [reason]

/-- The events that tell of failures. -/
def tellings (failures : List JsError) : List (Exchange signature) :=
  failures.map fun reason => ⟨outside (.emit (.generalError reason)), ()⟩

/-- After a failure, another one is told of and the first is passed on. -/
theorem plays_tellAndReject {ending : Js Unit} {reason : JsError} {settled : Except JsError α}
    (h : ((ending.handle fun e => do
      emit (.generalError e)
      Promise.reject reason) >>= fun _ => Promise.reject reason).Plays done settled) :
    ∃ closing ended, done = closing ++ tellings (failureOf ended) ∧ ending.Plays closing ended ∧
      settled = .error reason := by
  rcases Promise.plays_bind h with ⟨first, second, _, rfl, hHandled, rfl, rfl⟩ |
    ⟨given, hHandled, rfl⟩
  · rcases Promise.plays_handle hHandled with ⟨_, hEnding, -⟩ | ⟨_, _, e, -, -, hHandler⟩
    · exact ⟨first, .ok (), rfl, hEnding, rfl⟩
    · -- The handler rejects in any case.
      rcases Promise.plays_bind hHandler with ⟨_, _, _, -, -, -, hNone⟩ | ⟨_, -, hNone⟩ <;>
        cases hNone
  · rcases Promise.plays_handle hHandled with ⟨_, -, hNone⟩ | ⟨closing, last, e, rfl, hEnding,
      hHandler⟩
    · cases hNone
    · rcases Promise.plays_bind hHandler with ⟨told, _, _, rfl, hTold, rfl, hGiven⟩ |
        ⟨_, hTold, -⟩
      · obtain ⟨reply, rfl, -⟩ := plays_ask hTold
        exact ⟨closing, .error e, rfl, hEnding, congrArg Except.error (Except.error.inj hGiven)⟩
      · obtain ⟨reply, -, hNone⟩ := plays_ask hTold
        cases hNone

/-- The end of a lease is one closing write, and it settles with the failure of the work, or
with that of the write. -/
theorem plays_closeLease {sched : ScheduledJobDataModel} {leaseOwner : LeaseIdType} {now : Date}
    {exit : LeaseExitState α} {settled : Except JsError (Option α)}
    (h : (closeLease sched leaseOwner now exit).Plays done settled) :
    ∃ closing ended, (endLease sched leaseOwner now exit).Plays closing ended ∧
      ((∃ reason, exit.asError = some reason ∧ done = closing ++ tellings (failureOf ended) ∧
          settled = .error reason) ∨
        exit.asError = none ∧ done = closing ∧ settled = ended.map fun _ => exit.result) := by
  unfold closeLease at h
  cases hError : exit.asError with
  | some reason =>
      simp only [hError] at h
      obtain ⟨closing, ended, hDone, hEnding, hSettled⟩ := plays_tellAndReject h
      exact ⟨closing, ended, hEnding, Or.inl ⟨reason, rfl, hDone, hSettled⟩⟩
  | none =>
      simp only [hError] at h
      rcases Promise.plays_bind h with ⟨first, second, _, rfl, hHandled, rfl, rfl⟩ |
        ⟨reason, hHandled, rfl⟩
      · rcases Promise.plays_handle hHandled with ⟨_, hEnding, -⟩ | ⟨_, _, _, -, -, -, hNone⟩
        · exact ⟨first, .ok (), hEnding, Or.inr ⟨rfl, List.append_nil _, rfl⟩⟩
        · cases hNone
      · rcases Promise.plays_handle hHandled with ⟨_, -, hNone⟩ | ⟨first, _, e, rfl, hEnding, rfl,
          hReason⟩
        · cases hNone
        · cases hReason
          exact ⟨first, .error reason, hEnding, Or.inr ⟨rfl, List.append_nil _, rfl⟩⟩

/-! ## After the attempts -/

/-- What follows a granted lease: the job is read, and if it is there the work is run once
and the lease is ended. -/
inductive AfterLease (withLease : ScheduledJobDataModel → LeaseIdType → Js (LeaseExitState α))
    (leaseOwner : LeaseIdType) (jobPk : PrimaryKeyType) (now : Date) :
    List (Exchange signature) → Except JsError (Option α) → Prop
  | unread (reason : JsError) :
      AfterLease withLease leaseOwner jobPk now
        [⟨outside (readJob jobPk), Except.error reason⟩] (.error reason)
  | missing :
      AfterLease withLease leaseOwner jobPk now [⟨outside (readJob jobPk), Except.ok []⟩]
        (.error (.scheduledJobNotFound jobPk))
  | worked {sched : ScheduledJobDataModel} {rest : List ScheduledJobDataModel}
      {work closing : List (Exchange signature)} {result : Except JsError (LeaseExitState α)}
      {settled : Except JsError (Option α)}
      (hWork : (inScope (.callback leaseOwner) (withLease sched leaseOwner)).Plays work result)
      (hClosing : (closeLease sched leaseOwner now (exitOf result)).Plays closing settled) :
      AfterLease withLease leaseOwner jobPk now
        (⟨outside (readJob jobPk), Except.ok (sched :: rest)⟩ :: (work ++ closing)) settled

variable {node : Node} {updateOperation : ScheduleUpdateStateType} {jobPk : PrimaryKeyType}
  {updateTaskPk : Option PrimaryKeyType} {now : Date} {leaseOwner : LeaseIdType}
  {withLease : ScheduledJobDataModel → LeaseIdType → Js (LeaseExitState α)}
  {settled : Except JsError (Option α)}

/-- Work that is run under a lease, and the end of the lease. -/
theorem plays_workAndClose {sched : ScheduledJobDataModel} {work : Js (LeaseExitState α)}
    (h : (inScope (.callback leaseOwner) (settleLease work) >>= fun result =>
      closeLease sched leaseOwner now result).Plays done settled) :
    ∃ worked closing result, done = worked ++ closing ∧
      (inScope (.callback leaseOwner) work).Plays worked result ∧
      (closeLease sched leaseOwner now (exitOf result)).Plays closing settled := by
  rcases Promise.plays_bind h with ⟨worked, closing, exit, rfl, hWork, hClosing⟩ |
    ⟨reason, hWork, -⟩
  · obtain ⟨result, hResult, hExit⟩ := plays_settleLease hWork
    obtain rfl := Except.ok.inj hExit
    exact ⟨worked, closing, result, rfl, hResult, hClosing⟩
  · obtain ⟨result, -, hNone⟩ := plays_settleLease hWork
    cases hNone

/-- A run of `runUpdateInLease`: the lease id, the attempts, and what follows a granted
one. -/
theorem plays_runUpdateInLease
    (h : (runUpdateInLease node updateOperation jobPk updateTaskPk now withLease).Plays done
      settled) :
    ∃ leaseOwner tries log rest outcome,
      done = ⟨outside .createLeaseId, leaseOwner⟩ :: (log ++ rest) ∧
      Retried (leaseAttempt node updateOperation jobPk updateTaskPk now leaseOwner)
        node.leaseBehavior.retrySecondsDelay tries log outcome ∧
      (outcome = .ok () → AfterLease withLease leaseOwner jobPk now rest settled) ∧
      ∀ reason, outcome = .error reason → rest = [] ∧ settled = .error reason := by
  rcases Promise.plays_bind h with ⟨drawn, after, leaseOwner, rfl, hDrawn, hAfter⟩ |
    ⟨reason, hDrawn, -⟩
  swap
  · obtain ⟨reply, -, hNone⟩ := plays_ask hDrawn
    cases hNone
  obtain ⟨reply, rfl, hReply⟩ := plays_ask hDrawn
  obtain rfl := Except.ok.inj hReply
  rcases Promise.plays_bind hAfter with ⟨log, rest, _, rfl, hLoop, hRest⟩ | ⟨reason, hLoop, rfl⟩
  swap
  · obtain ⟨tries, hTries⟩ := retried_of_plays hLoop
    refine ⟨_, tries, after, [], _, by rw [List.append_nil]; rfl, hTries, fun hNone => ?_, ?_⟩
    · cases hNone
    · rintro given hGiven
      exact ⟨rfl, congrArg Except.error (Except.error.inj hGiven)⟩
  obtain ⟨tries, hTries⟩ := retried_of_plays hLoop
  refine ⟨_, tries, log, rest, _, rfl, hTries, fun _ => ?_, fun given hNone => by cases hNone⟩
  rcases Promise.plays_bind hRest with ⟨read, last, found, rfl, hRead, hLast⟩ |
    ⟨reason, hRead, rfl⟩
  · rcases Promise.plays_bind hRead with ⟨_, _, rows, rfl, hFind, rfl, hFound⟩ | ⟨_, -, hNone⟩
    swap
    · cases hNone
    obtain ⟨reply, rfl, hReply⟩ := plays_ask hFind
    obtain rfl := Except.ok.inj hFound
    cases reply with
    | error reason => cases hReply
    | ok given =>
        obtain rfl : rows = given := Except.ok.inj hReply
        cases rows with
        | nil =>
            obtain ⟨rfl, rfl⟩ := hLast
            exact .missing
        | cons sched rest =>
            obtain ⟨work, closing, result, rfl, hWork, hClosing⟩ := plays_workAndClose hLast
            have hWorked : AfterLease withLease _ jobPk now
                (⟨outside (readJob jobPk), Except.ok (sched :: rest)⟩ :: (work ++ closing))
                settled := .worked hWork hClosing
            exact hWorked
  · rcases Promise.plays_bind hRead with ⟨_, _, _, rfl, -, -, hNone⟩ | ⟨given, hFind, hGiven⟩
    · cases hNone
    · obtain rfl := Except.error.inj hGiven
      obtain ⟨reply, rfl, hReply⟩ := plays_ask hFind
      cases reply with
      | ok rows => cases hReply
      | error told =>
          obtain rfl := Except.error.inj hReply
          exact .unread _

/-! ## Creating a job -/

/-- A run of `createScheduledJobAlone`: the ids, the write of the job, and what follows it. A
write that failed is followed by the one that marks the job. -/
theorem plays_createScheduledJobAlone {scheduledJob : NewScheduledJob}
    {withTask : ScheduledJobDataModel → PrimaryKeyType → Js (LeaseExitState α)}
    (h : (createScheduledJobAlone node scheduledJob now withTask).Plays done settled) :
    ∃ leaseOwner schedPk taskPk add rest outcome,
      done = ⟨outside .createLeaseId, leaseOwner⟩ :: ⟨outside .createPrimaryKey, schedPk⟩ ::
        ⟨outside .createPrimaryKey, taskPk⟩ :: (add ++ rest) ∧
      (addScheduledJobModel node.zone (newScheduledJobModel scheduledJob now schedPk taskPk)
        leaseOwner now node.leaseBehavior.leaseTimeSeconds).Plays add outcome ∧
      (outcome = .ok () → ∃ sched work closing result, rest = work ++ closing ∧
        sched = leasedRow node.zone (newScheduledJobModel scheduledJob now schedPk taskPk)
          leaseOwner now node.leaseBehavior.leaseTimeSeconds ∧
        (inScope (.callback leaseOwner) (withTask sched taskPk)).Plays work result ∧
        (closeLease sched leaseOwner now (exitOf result)).Plays closing settled) ∧
      ∀ reason, outcome = .error reason → ∃ closing ended,
        rest = closing ++ tellings (failureOf ended) ∧
        (markLeasedScheduledJobNeedsRepair schedPk leaseOwner now false none).Plays closing ended ∧
        settled = .error reason := by
  rcases Promise.plays_bind h with ⟨_, afterLease, leaseOwner, rfl, hLease, hKeys⟩ |
    ⟨reason, hNone, -⟩
  swap
  · obtain ⟨reply, -, hNone⟩ := plays_ask hNone
    cases hNone
  rcases Promise.plays_bind hKeys with ⟨_, afterKey, schedPk, rfl, hKey, hTask⟩ |
    ⟨reason, hNone, -⟩
  swap
  · obtain ⟨reply, -, hNone⟩ := plays_ask hNone
    cases hNone
  rcases Promise.plays_bind hTask with ⟨_, afterTask, taskPk, rfl, hTaskKey, hAdd⟩ |
    ⟨reason, hNone, -⟩
  swap
  · obtain ⟨reply, -, hNone⟩ := plays_ask hNone
    cases hNone
  obtain ⟨leaseReply, rfl, hReply⟩ := plays_ask hLease
  obtain rfl := Except.ok.inj hReply
  obtain ⟨keyReply, rfl, hReply⟩ := plays_ask hKey
  obtain rfl := Except.ok.inj hReply
  obtain ⟨taskReply, rfl, hReply⟩ := plays_ask hTaskKey
  obtain rfl := Except.ok.inj hReply
  rcases Promise.plays_bind hAdd with ⟨first, closing, exit, rfl, hHandled, hClosing⟩ |
    ⟨reason, hHandled, rfl⟩
  · rcases Promise.plays_handle hHandled with ⟨value, hBoth, hExit⟩ | ⟨_, _, _, -, -, hHandler⟩
    · obtain rfl := Except.ok.inj hExit
      rcases Promise.plays_bind hBoth with ⟨add, work, _, rfl, hAdded, hWork⟩ | ⟨_, -, hNone⟩
      · obtain ⟨result, hResult, hExit⟩ := plays_settleLease hWork
        obtain rfl := Except.ok.inj hExit
        refine ⟨_, _, _, add, work ++ closing, .ok (), by simp, hAdded, fun _ => ?_, ?_⟩
        · exact ⟨_, work, closing, result, rfl, rfl, hResult, hClosing⟩
        · rintro reason hNone
          cases hNone
      · cases hNone
    · obtain ⟨_, _, -, -, hNone⟩ := plays_tellAndReject hHandler
      cases hNone
  · rcases Promise.plays_handle hHandled with ⟨_, -, hNone⟩ | ⟨first, second, given, rfl, hBoth,
      hHandler⟩
    · cases hNone
    · obtain ⟨closing, ended, rfl, hMark, hReason⟩ := plays_tellAndReject hHandler
      obtain rfl := Except.error.inj hReason
      rcases Promise.plays_bind hBoth with ⟨add, work, _, -, -, hWork⟩ | ⟨given, hFailed, hGiven⟩
      · -- The work under the lease settles with an exit state.
        obtain ⟨result, -, hNone⟩ := plays_settleLease hWork
        cases hNone
      · obtain rfl := Except.error.inj hGiven
        refine ⟨_, _, _, first, _, _, rfl, hFailed, fun hNone => ?_, ?_⟩
        · cases hNone
        · rintro other hOther
          obtain rfl := Except.error.inj hOther
          exact ⟨closing, ended, rfl, hMark, rfl⟩

end TernScheduler
