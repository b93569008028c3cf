import Mathlib.Logic.Relation
import Mathlib.Order.Lattice

/-!
# An agenda of jobs

What a scheduler is for, without its nodes, leases and tables: jobs are posted, tasks
of them are planned for a time, a planned task is taken when its time has passed, and
what was posted is launched.  Jobs, tasks, times and what is launched are arbitrary.

* `Agenda.Step` are the moves: a job has one open task at most, each task is planned
  after the earlier ones, and only the last task of a job is launched, once.
* `Agenda.Sound` is their invariant.
* `Agenda.launched_in_order`: the tasks of a job are launched in the order of their
  times, each after its time.
-/

namespace Planning

/-- The jobs with what they launch, the tasks with their jobs and times, the tasks that
wait to be taken, and what was launched, the latest first. -/
@[ext] structure Agenda (K T D τ : Type) where
  clock : τ
  jobs : K → Option D
  tasks : T → Option (K × τ)
  pending : T → Prop
  launched : List (T × D)

namespace Agenda

variable {K T D τ : Type}

/-- Nothing is planned. -/
def empty (clock : τ) : Agenda K T D τ :=
  ⟨clock, fun _ => none, fun _ => none, fun _ => False, []⟩

/-- No task of the job waits to be taken. -/
def Idle (agenda : Agenda K T D τ) (k : K) : Prop :=
  ∀ t time, agenda.tasks t = some (k, time) → ¬ agenda.pending t

variable [LinearOrder τ]

/-- A move. -/
inductive Step [DecidableEq K] [DecidableEq T] :
    Agenda K T D τ → Agenda K T D τ → Prop
  | wait (agenda : Agenda K T D τ) (later : τ) (hLater : agenda.clock ≤ later) :
      Step agenda { agenda with clock := later }
  | post (agenda : Agenda K T D τ) (k : K) (d : D) (hNew : agenda.jobs k = none) :
      Step agenda
        { agenda with jobs := fun other => if other = k then some d else agenda.jobs other }
  | plan (agenda : Agenda K T D τ) (t : T) (k : K) (time : τ)
      (hJob : agenda.jobs k ≠ none) (hNew : agenda.tasks t = none) (hIdle : agenda.Idle k)
      (hLast : ∀ other before, agenda.tasks other = some (k, before) → before < time) :
      Step agenda
        { agenda with
          tasks := fun other => if other = t then some (k, time) else agenda.tasks other
          pending := fun other => other = t ∨ agenda.pending other }
  | take (agenda : Agenda K T D τ) (t : T) (k : K) (time : τ)
      (hTask : agenda.tasks t = some (k, time)) (hPending : agenda.pending t)
      (hDue : time < agenda.clock) :
      Step agenda { agenda with pending := fun other => other ≠ t ∧ agenda.pending other }
  | launch (agenda : Agenda K T D τ) (t : T) (k : K) (time : τ) (d : D)
      (hTask : agenda.tasks t = some (k, time)) (hJob : agenda.jobs k = some d)
      (hIdle : agenda.Idle k)
      (hLast : ∀ other before, agenda.tasks other = some (k, before) → before ≤ time)
      (hDue : time < agenda.clock) (hOnce : ∀ entry ∈ agenda.launched, entry.1 ≠ t) :
      Step agenda { agenda with launched := (t, d) :: agenda.launched }

/-- The tasks of one job have different times, a task that waits is the last one, and
what was launched was launched in order, as it was posted, and after its time. -/
structure Sound (agenda : Agenda K T D τ) : Prop where
  apart : ∀ t t' k time, agenda.tasks t = some (k, time) →
    agenda.tasks t' = some (k, time) → t = t'
  last : ∀ t t' k time time', agenda.pending t → agenda.tasks t = some (k, time) →
    agenda.tasks t' = some (k, time') → time' ≤ time
  posted : ∀ entry ∈ agenda.launched, ∃ k time, agenda.tasks entry.1 = some (k, time) ∧
    agenda.jobs k = some entry.2 ∧ time < agenda.clock
  ordered : agenda.launched.Pairwise fun later earlier => ∀ k time time',
    agenda.tasks later.1 = some (k, time) → agenda.tasks earlier.1 = some (k, time') →
      time' < time

theorem sound_empty (clock : τ) : (empty clock : Agenda K T D τ).Sound where
  apart _ _ _ _ hTask := nomatch hTask
  last _ _ _ _ _ hPending := hPending.elim
  posted _ hEntry := nomatch hEntry
  ordered := .nil

variable {agenda agenda' : Agenda K T D τ}

/-- Two waiting tasks of a job are one. -/
theorem Sound.pending_unique (hSound : agenda.Sound) {t t' : T} {k : K} {time time' : τ}
    (hPending : agenda.pending t) (hPending' : agenda.pending t')
    (hTask : agenda.tasks t = some (k, time)) (hTask' : agenda.tasks t' = some (k, time')) :
    t = t' := by
  have hLe : time' ≤ time := hSound.last t t' k time time' hPending hTask hTask'
  have hLe' : time ≤ time' := hSound.last t' t k time' time hPending' hTask' hTask
  rw [le_antisymm hLe hLe'] at hTask'
  exact hSound.apart t t' k time hTask hTask'

/-- Planning a task after the others. -/
theorem Sound.plan [DecidableEq T] (hSound : agenda.Sound) {t : T} {k : K} {time : τ}
    (hNew : agenda.tasks t = none) (hIdle : agenda.Idle k)
    (hLast : ∀ other before, agenda.tasks other = some (k, before) → before < time) :
    Sound { agenda with
      tasks := fun other => if other = t then some (k, time) else agenda.tasks other
      pending := fun other => other = t ∨ agenda.pending other } := by
  -- A task that was launched was planned before.
  have hOld : ∀ entry ∈ agenda.launched, entry.1 ≠ t := by
    rintro entry hEntry rfl
    obtain ⟨k', time', hTask, -⟩ := hSound.posted entry hEntry
    rw [hNew] at hTask
    cases hTask
  constructor
  · intro first second k' time' hFirst hSecond
    dsimp only at hFirst hSecond
    split at hFirst <;> split at hSecond
    · simp_all
    · cases hFirst
      exact absurd (hLast second time hSecond) (lt_irrefl time)
    · cases hSecond
      exact absurd (hLast first time hFirst) (lt_irrefl time)
    · exact hSound.apart first second k' time' hFirst hSecond
  · intro first second k' time' time'' hPending hFirst hSecond
    dsimp only at hPending hFirst hSecond
    split at hFirst <;> split at hSecond
    · cases hFirst
      cases hSecond
      exact le_refl time
    · cases hFirst
      exact le_of_lt (hLast second time'' hSecond)
    · rename_i hNe _
      cases hSecond
      exact absurd (hPending.resolve_left hNe) (hIdle first time' hFirst)
    · rename_i hNe _
      exact hSound.last first second k' time' time'' (hPending.resolve_left hNe) hFirst hSecond
  · intro entry hEntry
    obtain ⟨k', time', hTask, hJob, hDue⟩ := hSound.posted entry hEntry
    exact ⟨k', time', by simp only [if_neg (hOld entry hEntry), hTask], hJob, hDue⟩
  · refine hSound.ordered.imp_of_mem fun {later earlier} hLater hEarlier hBefore => ?_
    simp only [if_neg (hOld later hLater), if_neg (hOld earlier hEarlier)]
    exact hBefore

/-- Launching the last task of a job. -/
theorem Sound.launch (hSound : agenda.Sound) {t : T} {k : K} {time : τ} {d : D}
    (hTask : agenda.tasks t = some (k, time)) (hJob : agenda.jobs k = some d)
    (hLast : ∀ other before, agenda.tasks other = some (k, before) → before ≤ time)
    (hDue : time < agenda.clock) (hOnce : ∀ entry ∈ agenda.launched, entry.1 ≠ t) :
    Sound { agenda with launched := (t, d) :: agenda.launched } where
  apart := hSound.apart
  last := hSound.last
  posted entry hEntry := by
    rcases List.mem_cons.mp hEntry with rfl | hEntry
    · exact ⟨k, time, hTask, hJob, hDue⟩
    · exact hSound.posted entry hEntry
  ordered := by
    refine List.pairwise_cons.mpr ⟨fun earlier hEarlier k' time' before hTask' hBefore => ?_,
      hSound.ordered⟩
    obtain ⟨rfl, rfl⟩ : k = k' ∧ time = time' := by
      simpa using Option.some.inj (hTask.symm.trans hTask')
    refine lt_of_le_of_ne (hLast earlier.1 before hBefore) ?_
    rintro rfl
    exact hOnce earlier hEarlier (hSound.apart earlier.1 t k _ hBefore hTask)

variable [DecidableEq K] [DecidableEq T]

/-- **Every move keeps an agenda sound.** -/
theorem Step.sound (hStep : Step agenda agenda') (hSound : agenda.Sound) : agenda'.Sound := by
  cases hStep with
  | wait later hLater =>
      refine ⟨hSound.apart, hSound.last, fun entry hEntry => ?_, hSound.ordered⟩
      obtain ⟨k, time, hTask, hJob, hDue⟩ := hSound.posted entry hEntry
      exact ⟨k, time, hTask, hJob, lt_of_lt_of_le hDue hLater⟩
  | post k d hNew =>
      refine ⟨hSound.apart, hSound.last, fun entry hEntry => ?_, hSound.ordered⟩
      obtain ⟨k', time, hTask, hJob, hDue⟩ := hSound.posted entry hEntry
      have hNe : k' ≠ k := by
        rintro rfl
        rw [hNew] at hJob
        cases hJob
      exact ⟨k', time, hTask, by simp only [if_neg hNe, hJob], hDue⟩
  | plan t k time hJob hNew hIdle hLast => exact hSound.plan hNew hIdle hLast
  | take t k time hTask hPending hDue =>
      exact ⟨hSound.apart, fun first second k' time' time'' hWaits =>
        hSound.last first second k' time' time'' hWaits.2, hSound.posted, hSound.ordered⟩
  | launch t k time d hTask hJob hIdle hLast hDue hOnce =>
      exact hSound.launch hTask hJob hLast hDue hOnce

/-- The agenda was reached by moves. -/
def Reachable (clock : τ) (agenda : Agenda K T D τ) : Prop :=
  Relation.ReflTransGen Step (empty clock) agenda

theorem Reachable.sound {clock : τ} (hReachable : Reachable clock agenda) : agenda.Sound := by
  induction hReachable with
  | refl => exact sound_empty clock
  | tail _ hStep ih => exact hStep.sound ih

/-- **The tasks of a job are launched in the order of their times**, whatever is moved in
between. -/
theorem launched_in_order {clock : τ} (hReachable : Reachable clock agenda) :
    agenda.launched.Pairwise fun later earlier => ∀ k time time',
      agenda.tasks later.1 = some (k, time) → agenda.tasks earlier.1 = some (k, time') →
        time' < time :=
  hReachable.sound.ordered

end Agenda

end Planning
