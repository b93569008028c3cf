import TernScheduler.Controller.Watched

/-!
# What a granted lease ends with

`runUpdateInLease` owns the job once an attempt was granted.  Then it reads the job again,
does its work and ends the lease, and each of these can fail.

* `LeaseOutcome` is what was met, and `Met` reads it off the record of a run.
* `LeaseAccounted` is what should become of the row and of the promise.
* `lease_accounted_iff` says for which outcomes this is what happens: a read that fails is
  outside of all handlers, a falsy reason passes for success, and the class of
  `InvalidScheduleDefinitionError` is never recognised.
-/

namespace TernScheduler

open Interleaving Database

/-! ## What a lease runner meets -/

/-- The write asks for the job to be owned by the lease, as the release and needs-repair
writes do. -/
def Act.closesLease (leaseId : LeaseIdType) : Act → Bool
  | .updateSchedule _ _ (.and [.notNull .updateState, .eq .leaseOwner (.text owner)]) =>
      owner = leaseId
  | _ => false

/-- The release and needs-repair writes are served, the call draws this lease id, and nobody
touches a job while the lease owns it.  Any other call may be rejected. -/
def servedClosing (reading : BeforeDateReading) (leaseId : LeaseIdType) : Surroundings where
  reading := reading
  allowed seen op reply :=
    (∀ drawn ∈ op.act.drawn reply, drawn = leaseId) ∧
      (op.act.closesLease leaseId = true → Answered reading seen.shared op.act reply)
  others db db' := ∀ pk row, db.job pk = some row → row.leaseOwner = some leaseId →
    db'.job pk = some row

/-- What a lease runner met after its lease was granted: the job could not be read, or the
work was done and ended with a result. -/
inductive LeaseOutcome (α : Type)
  | unread (reason : JsError)
  | worked (result : Except JsError (LeaseExitState α))

namespace LeaseOutcome

variable {α : Type}

/-- The value the work produced. -/
def produced : LeaseOutcome α → Option α
  | unread _ => none
  | worked result => (exitOf result).result

/-- The reason the work failed for. -/
def failure : LeaseOutcome α → Option JsError
  | worked (.error reason) => some reason
  | worked (.ok (.error reason _ _)) => some reason
  | _ => none

/-- The work produced a value, or its schedule definition was invalid. -/
def GivesBack (outcome : LeaseOutcome α) : Prop :=
  outcome.produced ≠ none ∨ ∃ pk definition problem,
    outcome.failure = some (.invalidScheduleDefinition pk definition problem)

/-- Every failure of the work is an object of another class than
`InvalidScheduleDefinitionError`, and a job that could not be read had a lease that was
expired from the start. -/
def Recognised (node : Node) (now : Date) : LeaseOutcome α → Prop
  | unread _ => updateDate node.zone now node.leaseBehavior.leaseTimeSeconds = now
  | worked result => ∀ reason ∈ (worked result).failure, reason.truthy = true ∧
      ∀ pk definition problem, reason ≠ .invalidScheduleDefinition pk definition problem

end LeaseOutcome

/-- What is on record of a lease runner: its attempts, the read of the job, the run of its
work and the end of its lease. -/
inductive Met {α : Type} (withLease : ConfinedWork α) (leaseId : LeaseIdType)
    (jobPk : PrimaryKeyType) : List (Exchange signature) → LeaseOutcome α → Prop
  | unread {attempts : List (Exchange signature)} (reason : JsError)
      (hAttempts : NothingLeased attempts) :
      Met withLease leaseId jobPk
        (attempts ++ [⟨outside (readJob jobPk), Except.error reason⟩]) (.unread reason)
  | worked {attempts done closing : List (Exchange signature)} {sched : ScheduledJobDataModel}
      {result : Except JsError (LeaseExitState α)} (hAttempts : NothingLeased attempts)
      (hWork : Prog.Plays (inScope (.callback leaseId) (withLease.run sched leaseId)) done
        result) (hClosing : NothingLeased closing) :
      Met withLease leaseId jobPk
        (attempts ++ [⟨outside (readJob jobPk), Except.ok [sched]⟩] ++ done ++ closing)
        (.worked result)

/-- An attempt to lease the job was granted. -/
def LeaseGranted (jobPk : PrimaryKeyType) (record : List (Exchange signature)) : Prop :=
  ∃ exchange ∈ record, exchange.1.act.granted exchange.2 = some jobPk

/-- The row is unleased if the work gave the job back, and expired at `now` otherwise; the
promise resolves with the value of the work, and only then. -/
structure LeaseAccounted {α : Type} (updateOperation : ScheduleUpdateStateType)
    (jobPk : PrimaryKeyType) (now : Date) (outcome : LeaseOutcome α) (after : Seen)
    (settled : Except JsError (Option α)) : Prop where
  unleased : (∃ row, after.shared.job jobPk = some row ∧ row.updateState = none) ↔
    outcome.GivesBack
  kept : ¬ outcome.GivesBack → ∃ row, after.shared.job jobPk = some row ∧
    row.updateState = some updateOperation ∧ row.leaseExpires = some now
  resolves : ∀ value, settled = .ok value ↔ value ≠ none ∧ outcome.produced = value

section Outcomes

variable {reading : BeforeDateReading} {leaseId : LeaseIdType} {α : Type} {node : Node}
  {updateOperation : ScheduleUpdateStateType} {jobPk : PrimaryKeyType}
  {updateTaskPk : Option PrimaryKeyType} {now : Date} {after : Seen}
  {old : ScheduledJobDataModel}

theorem InVain.not_granted {record : List (Exchange signature)} (h : InVain record) :
    ¬ LeaseGranted jobPk record := by
  rintro ⟨⟨⟨scope, act⟩, reply⟩, hMem, hGranted⟩
  refine (h _ hMem).1 ?_
  cases act with
  | createSchedule row =>
      cases reply with
      | ok done => trivial
      | error reason => cases hGranted
  | updateSchedule pk newValues conditional =>
      rcases reply with reason | _ | count
      · cases hGranted
      · cases hGranted
      · trivial
  | _ => cases hGranted

/-- A job that could not be read is left as it was granted. -/
theorem accounted_unread {reason given : JsError}
    (hJob : after.shared.job jobPk =
      some (grantedRow node updateOperation updateTaskPk now leaseId old)) :
    LeaseAccounted updateOperation jobPk now (.unread given : LeaseOutcome α) after
        (.error reason) ↔ (LeaseOutcome.unread given : LeaseOutcome α).Recognised node now := by
  have hLeased : ¬ (LeaseOutcome.unread given : LeaseOutcome α).GivesBack := by
    rintro (hProduced | ⟨pk, definition, problem, hFailure⟩)
    · exact hProduced rfl
    · cases hFailure
  constructor
  · intro hAccounted
    obtain ⟨row, hRow, -, hExpires⟩ := hAccounted.kept hLeased
    obtain rfl := Option.some.inj (hJob.symm.trans hRow)
    exact Option.some.inj hExpires
  · intro hNow
    refine ⟨⟨?_, fun hGives => absurd hGives hLeased⟩, fun _ => ⟨_, hJob, rfl, ?_⟩, ?_⟩
    · rintro ⟨row, hRow, hFree⟩
      obtain rfl := Option.some.inj (hJob.symm.trans hRow)
      cases hFree
    · exact congrArg some hNow
    · refine fun value => ⟨fun hOk => ?_, fun ⟨hSome, hNone⟩ => absurd hNone.symm hSome⟩
      cases hOk

/-- Work that failed is accounted for when its reason is truthy, and not when it should have
been recognised by its class. -/
theorem accounted_failed {outcome : LeaseOutcome α} {settled : Except JsError (Option α)}
    {reason : JsError} {pasture : Bool} {pastureReason : Option String}
    {exit : LeaseExitState α} (hExit : exit = .error reason pasture pastureReason)
    (hProduced : outcome.produced = none) (hFailure : outcome.failure = some reason)
    (hJob : after.shared.job jobPk = some (closedRow now
      (grantedRow node updateOperation updateTaskPk now leaseId old) exit))
    (hSettled : settled = exit.asError.elim (.ok exit.result) .error) :
    LeaseAccounted updateOperation jobPk now outcome after settled ↔ reason.truthy = true ∧
      ∀ pk definition problem, reason ≠ .invalidScheduleDefinition pk definition problem := by
  have hGives : outcome.GivesBack ↔ ∃ pk definition problem,
      reason = .invalidScheduleDefinition pk definition problem := by
    simp only [LeaseOutcome.GivesBack, hProduced, hFailure, ne_eq, not_true_eq_false, false_or,
      Option.some.injEq]
  subst hExit
  cases hTruthy : reason.truthy with
  | false =>
      -- The reason is taken for success: the promise resolves, with no value.
      have hNone : (LeaseExitState.error reason pasture pastureReason :
          LeaseExitState α).asError = none := by simp [LeaseExitState.asError, hTruthy]
      rw [hNone] at hSettled
      refine iff_of_false (fun hAccounted => ?_) fun hBoth => by cases hBoth.1
      exact ((hAccounted.resolves none).mp hSettled).1 rfl
  | true =>
      -- Every truthy reason keeps the lease, also the one that should give it back.
      have hError : (LeaseExitState.error reason pasture pastureReason :
          LeaseExitState α).asError = some reason := if_pos hTruthy
      rw [closedRow, hError] at hJob
      rw [hError] at hSettled
      have hNotFree : ¬ ∃ row, after.shared.job jobPk = some row ∧ row.updateState = none := by
        rintro ⟨row, hRow, hFree⟩
        obtain rfl := Option.some.inj (hJob.symm.trans hRow)
        cases hFree
      constructor
      · intro hAccounted
        refine ⟨rfl, fun pk definition problem hInvalid => hNotFree (hAccounted.unleased.mpr ?_)⟩
        exact hGives.mpr ⟨pk, definition, problem, hInvalid⟩
      · rintro ⟨-, hOther⟩
        have hLeased : ¬ outcome.GivesBack := by
          rw [hGives]
          rintro ⟨pk, definition, problem, hInvalid⟩
          exact hOther pk definition problem hInvalid
        refine ⟨iff_of_false hNotFree hLeased, fun _ => ⟨_, hJob, rfl, rfl⟩, fun value => ?_⟩
        refine iff_of_false (fun hOk => ?_) fun ⟨hSome, hNone⟩ => ?_
        · rw [hSettled] at hOk
          cases hOk
        · exact hSome (hNone.symm.trans hProduced)

/-- Work that produced a value is accounted for. -/
theorem accounted_produced {exit : LeaseExitStateValue α} {settled : Except JsError (Option α)}
    (hJob : after.shared.job jobPk = some (closedRow now
      (grantedRow node updateOperation updateTaskPk now leaseId old) (.value exit)))
    (hSettled : settled = .ok (some exit.value)) :
    LeaseAccounted updateOperation jobPk now (.worked (.ok (.value exit))) after settled := by
  have hGives : (LeaseOutcome.worked (.ok (.value exit))).GivesBack :=
    Or.inl (Option.some_ne_none exit.value)
  refine ⟨iff_of_true ⟨_, hJob, rfl⟩ hGives, fun hLeased => absurd hGives hLeased,
    fun value => ?_⟩
  rw [hSettled, Except.ok.injEq]
  constructor
  · rintro rfl
    exact ⟨Option.some_ne_none _, rfl⟩
  · exact fun hProduced => hProduced.2

/-- What becomes of the row and of the promise, for each way the work can end. -/
theorem accounted_worked {result : Except JsError (LeaseExitState α)}
    {settled : Except JsError (Option α)}
    (hJob : after.shared.job jobPk = some (closedRow now
      (grantedRow node updateOperation updateTaskPk now leaseId old) (exitOf result)))
    (hSettled : settled =
      (exitOf result).asError.elim (.ok (exitOf result).result) .error) :
    LeaseAccounted updateOperation jobPk now (.worked result) after settled ↔
      (LeaseOutcome.worked result).Recognised node now := by
  have hFailed : ∀ {reason : JsError}, (LeaseOutcome.worked result).failure = some reason →
      ((LeaseOutcome.worked result).Recognised node now ↔ reason.truthy = true ∧
        ∀ pk definition problem, reason ≠ .invalidScheduleDefinition pk definition problem) := by
    intro reason hFailure
    simp only [LeaseOutcome.Recognised, hFailure, Option.mem_some_iff, forall_eq']
  cases result with
  | error reason =>
      exact (accounted_failed rfl rfl rfl hJob hSettled).trans (hFailed rfl).symm
  | ok exit =>
      cases exit with
      | error reason pasture pastureReason =>
          exact (accounted_failed rfl rfl rfl hJob hSettled).trans (hFailed rfl).symm
      | value exit =>
          refine iff_of_true (accounted_produced hJob hSettled) fun reason hReason => ?_
          cases hReason

end Outcomes

/-- **For which outcomes a granted lease is accounted for.** -/
theorem lease_accounted_iff {α : Type} (reading : BeforeDateReading) (leaseId : LeaseIdType)
    (node : Node) (updateOperation : ScheduleUpdateStateType) (jobPk : PrimaryKeyType)
    (updateTaskPk : Option PrimaryKeyType) (now : Date) (withLease : ConfinedWork α)
    (db : Database) :
    Prog.Ensures ((servedClosing reading leaseId).calls none)
      (fun after settled => LeaseGranted jobPk after.record →
        ∃ outcome, Met withLease leaseId jobPk after.record outcome ∧
          (LeaseAccounted updateOperation jobPk now outcome after settled ↔
            outcome.Recognised node now))
      ⟨db, []⟩
      (runUpdateInLease node updateOperation jobPk updateTaskPk now withLease.run) := by
  have hSpares : (servedClosing reading leaseId).Spares leaseId jobPk :=
    fun _ _ hOthers row hRow hOwner => hOthers jobPk row hRow hOwner
  -- the environment is asked for these two only: it spares the lease and serves its end
  have hCloses : (servedClosing reading leaseId).Closes leaseId jobPk := by
    intro newValues seen reply hAllowed
    exact hAllowed.2 (decide_eq_true rfl)
  have hSat : Meets (servedClosing reading leaseId) none
      (fun after value => LeaseGranted jobPk after.record →
        ∃ outcome, Met withLease leaseId jobPk after.record outcome ∧
          (LeaseAccounted updateOperation jobPk now outcome after (.ok value) ↔
            outcome.Recognised node now))
      (fun after reason => LeaseGranted jobPk after.record →
        ∃ outcome, Met withLease leaseId jobPk after.record outcome ∧
          (LeaseAccounted updateOperation jobPk now outcome after (.error reason) ↔
            outcome.Recognised node now)) ⟨db, []⟩
      (runUpdateInLease node updateOperation jobPk updateTaskPk now withLease.run) := by
    refine meets_runUpdateInLease (fun _ drawn hAllowed => hAllowed.1 drawn rfl) hSpares ?_ ?_
      (fun after reason hVain hGranted => absurd hGranted hVain.not_granted)
      (fun exchange hMem => by cases hMem) (fun exchange hMem => by cases hMem)
    · -- The rejected read is caught nowhere, so the row is left as the attempt wrote it.
      intro old seen before after reason hNothing _ _ hPk hHeld _
      exact ⟨.unread reason, .unread reason hNothing, accounted_unread (hPk ▸ hHeld.job)⟩
    · intro old seen attempts hNothing hPk hHeld hRecord
      subst hPk
      refine (meets_leasedWork ((held_of_confined (withLease.confined _ _) hHeld hSpares).and
        (ensures_labelled _ _ seen)) hSpares hCloses).mono ?_ ?_
      · rintro after value ⟨worked, result, ⟨done, hDone, hPlays⟩, hNone, rfl, hClosed⟩ -
        obtain ⟨closing, hClosing, hNothing'⟩ := hClosed.record
        refine ⟨.worked result, ?_, accounted_worked hClosed.job (by rw [hNone]; rfl)⟩
        rw [hClosing, hDone, hRecord]
        exact .worked hNothing hPlays hNothing'
      · rintro after reason ⟨worked, result, ⟨done, hDone, hPlays⟩, hError, hClosed⟩ -
        obtain ⟨closing, hClosing, hNothing'⟩ := hClosed.record
        refine ⟨.worked result, ?_, accounted_worked hClosed.job (by rw [hError]; rfl)⟩
        rw [hClosing, hDone, hRecord]
        exact .worked hNothing hPlays hNothing'
  refine Prog.Sat.mono hSat fun after settled hAfter => ?_
  cases settled with
  | ok value => exact hAfter
  | error reason => exact hAfter

/-! ## Outcomes that are mistaken -/

instance (reading : BeforeDateReading) (leaseId : LeaseIdType) (seen : Seen) (op : Operation)
    (reply : op.act.Reply) :
    Decidable ((servedClosing reading leaseId).allowed seen op reply) :=
  inferInstanceAs (Decidable ((∀ drawn ∈ op.act.drawn reply, drawn = leaseId) ∧
    (op.act.closesLease leaseId = true → Answered reading seen.shared op.act reply)))

/-- Work that does nothing and ends with a result. -/
def endingWith (result : Except JsError (LeaseExitState Unit)) : ConfinedWork Unit where
  run _ _ := Promise.ofExcept result
  confined _ _ := trivial

/-- An update of the sample job whose work ends with a result. -/
def sampleUpdate (result : Except JsError (LeaseExitState Unit)) : Js (Option Unit) :=
  runUpdateInLease (sampleNode sampleStart []) .startTask "job" none 0 (endingWith result).run

/-- What the sample update meets under its lease is accounted for, in every run. -/
def SampleAccounted (result : Except JsError (LeaseExitState Unit)) : Prop :=
  Prog.Ensures ((servedClosing strictlyBefore "").calls none)
    (fun after settled => LeaseGranted "job" after.record →
      ∃ outcome, Met (endingWith result) "" "job" after.record outcome ∧
        LeaseAccounted .startTask "job" 0 outcome after settled)
    sampleLaunch (sampleUpdate result)

instance (jobPk : PrimaryKeyType) (record : List (Exchange signature)) :
    Decidable (LeaseGranted jobPk record) :=
  inferInstanceAs (Decidable (∃ exchange ∈ record,
    exchange.1.act.granted exchange.2 = some jobPk))

/-- The read of the job is the third operation of the sample update. -/
def rejectedRead (seen : Seen) : Answers :=
  if seen.record.length = 2 then { rejects := some (.foreign true "no store") } else {}

/-- The run of the sample update that is answered as told obtains the lease, and ends as
`check` says. -/
def sampleEnds (result : Except JsError (LeaseExitState Unit)) (answers : Seen → Answers)
    (check : ScheduledJobDataModel → Except JsError (Option Unit) → Bool) : Bool :=
  ((sampleUpdate result).run ((servedClosing strictlyBefore "").respond none answers)
    sampleLaunch).any fun last => LeaseGranted "job" last.1.record ∧
      (last.1.shared.job "job").any fun row => check row last.2

theorem exists_of_sampleEnds {result : Except JsError (LeaseExitState Unit)}
    {answers : Seen → Answers}
    {check : ScheduledJobDataModel → Except JsError (Option Unit) → Bool}
    (hEnds : sampleEnds result answers check = true) (h : SampleAccounted result) :
    ∃ after settled outcome row, after.shared.job "job" = some row ∧ check row settled = true ∧
      Met (endingWith result) "" "job" after.record outcome ∧
      LeaseAccounted .startTask "job" 0 outcome after settled := by
  obtain ⟨last, hLast, hCheck⟩ := (Option.any_eq_true _ _).mp hEnds
  obtain ⟨hGranted, hJob⟩ := of_decide_eq_true hCheck
  obtain ⟨row, hRow, hRowCheck⟩ := (Option.any_eq_true _ _).mp hJob
  have hIdle : ∀ db, (servedClosing strictlyBefore "").others db db := fun _ _ _ h _ => h
  obtain ⟨outcome, hMet, hAccounted⟩ :=
    Surroundings.ensures_respond hIdle h answers last hLast hGranted
  exact ⟨last.1, last.2, outcome, row, hRow, hRowCheck, hMet, hAccounted⟩

/-- A rejection with `undefined` is taken for success, and the lease of a job that cannot be
read again is left behind. -/
theorem leaseOutcome_mistaken :
    ¬ SampleAccounted (.error (.foreign false "undefined")) ∧
      ¬ SampleAccounted (.ok (.value { value := () })) := by
  constructor
  · intro hAccounted
    obtain ⟨after, settled, outcome, row, -, hOk, -, hLast⟩ := exists_of_sampleEnds
      (show sampleEnds _ (fun _ => {}) (fun _ settled => settled = .ok none) = true by
        decide +kernel) hAccounted
    exact ((hLast.resolves none).mp (of_decide_eq_true hOk)).1 rfl
  · intro hAccounted
    obtain ⟨after, settled, outcome, row, hRow, hLeased, -, hLast⟩ := exists_of_sampleEnds
      (show sampleEnds _ rejectedRead
        (fun row _ => row.updateState ≠ none ∧ row.leaseExpires ≠ some 0) = true by
          decide +kernel) hAccounted
    obtain ⟨hUpdating, hExpires⟩ := of_decide_eq_true hLeased
    by_cases hGives : outcome.GivesBack
    · obtain ⟨found, hFound, hFree⟩ := hLast.unleased.mpr hGives
      obtain rfl : found = row := Option.some.inj (hFound.symm.trans hRow)
      exact hUpdating hFree
    · obtain ⟨found, hFound, -, hNow⟩ := hLast.kept hGives
      obtain rfl : found = row := Option.some.inj (hFound.symm.trans hRow)
      exact hExpires hNow

end TernScheduler
