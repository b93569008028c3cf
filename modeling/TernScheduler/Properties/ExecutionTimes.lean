import TernScheduler.Wire.Agenda

/-!
# Execution times

A schedule that repeats is kept going by `startTask`: the call that launches a task
plans the next one.  Two nodes may hold the same task, the clock may have moved on
since the task was found, and the tasks of one schedule are started by different
calls.

* `wired_refines_agenda`: all the same, a run of the wired system is a run of one agenda.
* `execution_times_distinct`: no time of a schedule is used twice.
* `launched_in_time_order`: the jobs of a schedule are launched in the order of their
  times.
-/

namespace TernScheduler

open Interleaving Database Planning

variable {clock : Date} {wired : Wired} {Kind : NewScheduledJob → Prop}

/-- A strategy that plans the next task for one millisecond after the start. -/
def sampleAhead : TaskCreationStrategy :=
  .start (fun now _ => .ok (some now)) fun now _ => .ok (.queue (some (now + 1)))

theorem sampleAhead_plansAhead :
    (sampleNode sampleAhead []).PlansAhead fun _ => True where
  clock host now hReads := le_of_eq hReads.symm
  afterStart now sched date _ hAnswer := by
    cases hAnswer
    exact Int.lt_succ now
  afterFinish now sched runAt _ hAnswer := by cases hAnswer
  retry sched task reason seconds _ hAnswer := by cases hAnswer

/-- A run in which two tasks of the sample job are launched. -/
theorem exists_wiredRun_relaunching :
    ∃ wired, WiredRun .sql (leasesRespected.and (plansAhead fun _ => True)) (Wired.start 0) wired ∧
      (wired.pool.log.filterMap fun entry => entry.op.act.launched).map Prod.fst =
        ["second", "first"] := by
  have hDriven : ((wireDriver .sql (sampleNode sampleAhead [])).driveMail
      (fun pool event pool' => decide (freshLeaseIds pool event pool' ∧
        noTakeover pool event pool')) (wiredLaunches sampleSchedule 1 3)
      (Wired.start 0)).any (fun wired =>
        decide ((wired.pool.log.filterMap fun entry => entry.op.act.launched).map Prod.fst =
          ["second", "first"])) = true := by
    decide +kernel
  obtain ⟨wired, hRun, hLaunched⟩ := exists_wiredRun rfl
    (A := leasesRespected.and (plansAhead fun _ => True)) (fun pool event pool' hCheck hNode =>
      ⟨(of_decide_eq_true hCheck).imp_right noTakeoverAtWork_of_noTakeover,
        fun request hRequest => (hNode request hRequest).symm ▸ sampleAhead_plansAhead,
        fun _ _ _ _ => trivial⟩) hDriven
  exact ⟨wired, hRun, of_decide_eq_true hLaunched⟩

/-- **The wired system keeps an agenda**, over SQL, when no lease is taken from a call at work
and the nodes plan ahead: the next task of a job is planned after a start only, for a later time
than the call reads, and no clock is behind the host's.  Jobs are posted, tasks planned after all
the others of their job, taken when their time has passed, and launched once and last. -/
theorem wired_refines_agenda
    (hRun : WiredRun .sql (leasesRespected.and (plansAhead Kind)) (Wired.start clock) wired) :
    Agenda.Reachable (clock : WithTop Date) (agendaOf wired.pool) :=
  (agenda_of_run hRun.projects).1

/-- The sample run is one of the agenda, and launches two tasks. -/
theorem sample_refines_agenda :
    ∃ wired : Wired, (agendaOf wired.pool).launched.map Prod.fst = ["second", "first"] ∧
      Agenda.Reachable ((0 : Date) : WithTop Date) (agendaOf wired.pool) := by
  obtain ⟨wired, hRun, hLaunched⟩ := exists_wiredRun_relaunching
  exact ⟨wired, hLaunched, wired_refines_agenda hRun⟩

/-- **No execution time is used twice**, under the same conditions.  Two tasks of one schedule
are never planned for the same time, and a pending one is planned for a later time than all the
others. -/
theorem execution_times_distinct
    (hRun : WiredRun .sql (leasesRespected.and (plansAhead Kind)) (Wired.start clock) wired) :
    ∀ row ∈ wired.pool.shared.taskTable, ∀ row' ∈ wired.pool.shared.taskTable,
      row.schedule = row'.schedule → row.pk ≠ row'.pk →
        row.executeAt ≠ row'.executeAt ∧
          (row'.state = .pending → row.executeAt.time < row'.executeAt.time) := by
  intro row hRow row' hRow' hSchedule hNe
  have hSound := (agenda_of_run hRun.projects).1.sound
  have hTask := tasks_of_mem hRow
  have hTask' := tasks_of_mem hRow'
  rw [hSchedule] at hTask
  have hApart : row.executeAt.time ≠ row'.executeAt.time := by
    intro hAt
    rw [hAt] at hTask
    exact hNe (hSound.apart _ _ _ _ hTask hTask')
  refine ⟨fun hAt => hApart (congrArg _ hAt), fun hPending => lt_of_le_of_ne ?_ hApart⟩
  exact hSound.last _ _ _ _ _ ⟨row', task_of_mem hRow', hPending⟩ hTask' hTask

/-- The tasks of the sample run have different times. -/
theorem sample_times_distinct :
    ∃ wired : Wired, (agendaOf wired.pool).launched.map Prod.fst = ["second", "first"] ∧
      ∀ row ∈ wired.pool.shared.taskTable, ∀ row' ∈ wired.pool.shared.taskTable,
        row.schedule = row'.schedule → row.pk ≠ row'.pk →
          row.executeAt ≠ row'.executeAt ∧
            (row'.state = .pending → row.executeAt.time < row'.executeAt.time) := by
  obtain ⟨wired, hRun, hLaunched⟩ := exists_wiredRun_relaunching
  exact ⟨wired, hLaunched, execution_times_distinct hRun⟩

/-- **Jobs are launched in the order of their times**, under the same conditions.  Of two tasks
of one schedule, the one that is launched later is planned for a later time, whichever nodes
launch them. -/
theorem launched_in_time_order
    (hRun : WiredRun .sql (leasesRespected.and (plansAhead Kind)) (Wired.start clock) wired) :
    wired.pool.log.Pairwise fun later earlier =>
      ∀ row ∈ wired.pool.shared.taskTable, ∀ row' ∈ wired.pool.shared.taskTable,
        row.schedule = row'.schedule → later.op.act.launches row.pk = true →
          earlier.op.act.launches row'.pk = true →
            row'.executeAt.time < row.executeAt.time :=
  launches_of_agenda (agenda_of_run hRun.projects).1

/-- The second task of the sample run is planned for a later time than the first. -/
theorem sample_launched_in_order :
    ∃ wired : Wired, (agendaOf wired.pool).launched.map Prod.fst = ["second", "first"] ∧
      wired.pool.log.Pairwise fun later earlier =>
        ∀ row ∈ wired.pool.shared.taskTable, ∀ row' ∈ wired.pool.shared.taskTable,
          row.schedule = row'.schedule → later.op.act.launches row.pk = true →
            earlier.op.act.launches row'.pk = true →
              row'.executeAt.time < row.executeAt.time := by
  obtain ⟨wired, hRun, hLaunched⟩ := exists_wiredRun_relaunching
  exact ⟨wired, hLaunched, launched_in_time_order hRun⟩

end TernScheduler
