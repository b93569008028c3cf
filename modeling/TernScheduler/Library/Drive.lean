import TernScheduler.Library.Pool

/-!
# Driving a pool

A list of turns drives a pool along one particular run: which program moves
next, and how the environment answers.  Driving is a computation, so a concrete
run can be evaluated; `Driver.run_of_drive` turns a successful computation into
a run of the pool.
-/

namespace Interleaving

variable {Sg : Signature} {σ κ ρ C : Type}

/-- How a choice of the environment answers an operation, and moves the shared
state on its own.  Both are moves of the system. -/
structure Driver (sys : System Sg σ κ ρ) (C : Type) where
  resolve : C → σ → (op : Sg.Op) → Option (Sg.Reply op × σ)
  move : C → σ → Option σ
  resolve_exec : ∀ choice shared op reply after,
    resolve choice shared op = some (reply, after) → sys.exec shared op reply after
  move_drift : ∀ choice shared after,
    move choice shared = some after → sys.drift shared after

/-- One turn: start a program, let one perform its next operation, stop one, or
let the environment move. -/
inductive Turn (κ C : Type)
  | spawn (request : κ)
  | run (pid : Nat) (choice : C)
  | stop (pid : Nat)
  | drift (choice : C)

namespace Driver

variable {sys : System Sg σ κ ρ}

/-- Take one turn, if it can be taken. -/
def take (driver : Driver sys C) (pool : Pool Sg σ κ ρ) :
    Turn κ C → Option (Event Sg σ κ × Pool Sg σ κ ρ)
  | .spawn request =>
      some (.spawned request,
        { pool with procs := pool.procs ++ [⟨request, some (sys.program request)⟩] })
  | .run pid choice =>
      match pool.procs[pid]? with
      | some ⟨request, some (.call op next)⟩ =>
          match driver.resolve choice pool.shared op with
          | some (reply, after) =>
              some (.ran ⟨pid, op, reply, pool.shared⟩,
                { shared := after
                  procs := pool.procs.set pid ⟨request, some (next reply)⟩
                  log := ⟨pid, op, reply, pool.shared⟩ :: pool.log })
          | none => none
      | _ => none
  | .stop pid =>
      match pool.procs[pid]? with
      | some proc =>
          some (.stopped pid,
            { pool with procs := pool.procs.set pid ⟨proc.request, none⟩ })
      | none => none
  | .drift choice =>
      match driver.move choice pool.shared with
      | some after => some (.drifted, { pool with shared := after })
      | none => none

/-- A turn that can be taken is a step. -/
theorem step_of_take {driver : Driver sys C} {pool pool' : Pool Sg σ κ ρ}
    {turn : Turn κ C} {event : Event Sg σ κ}
    (h : driver.take pool turn = some (event, pool')) : Step sys pool event pool' := by
  cases turn with
  | spawn request =>
      obtain ⟨rfl, rfl⟩ := Prod.mk.inj (Option.some.inj h)
      exact .spawn pool request
  | run pid choice =>
      simp only [take] at h
      split at h
      · rename_i request op next hProc
        split at h
        · rename_i reply after hResolve
          obtain ⟨rfl, rfl⟩ := Prod.mk.inj (Option.some.inj h)
          exact .run pool pid request op next reply after hProc
            (driver.resolve_exec _ _ _ _ _ hResolve)
        · cases h
      · cases h
  | stop pid =>
      simp only [take] at h
      split at h
      · rename_i proc hProc
        obtain ⟨rfl, rfl⟩ := Prod.mk.inj (Option.some.inj h)
        exact .stop pool pid proc hProc
      · cases h
  | drift choice =>
      simp only [take] at h
      split at h
      · rename_i after hMove
        obtain ⟨rfl, rfl⟩ := Prod.mk.inj (Option.some.inj h)
        exact .drift pool after (driver.move_drift _ _ _ hMove)
      · cases h

/-- Take the turns in order, checking each step. -/
def drive (driver : Driver sys C)
    (check : Pool Sg σ κ ρ → Event Sg σ κ → Pool Sg σ κ ρ → Bool) :
    List (Turn κ C) → Pool Sg σ κ ρ → Option (Pool Sg σ κ ρ)
  | [], pool => some pool
  | turn :: turns, pool =>
      match driver.take pool turn with
      | some (event, pool') =>
          if check pool event pool' then drive driver check turns pool' else none
      | none => none

/-- A turn that starts a program was told to start it. -/
theorem spawn_of_take {driver : Driver sys C} {pool pool' : Pool Sg σ κ ρ}
    {turn : Turn κ C} {request : κ}
    (h : driver.take pool turn = some (.spawned request, pool')) :
    turn = .spawn request := by
  cases turn with
  | spawn other =>
      obtain ⟨hEvent, -⟩ := Prod.mk.inj (Option.some.inj h)
      cases hEvent
      rfl
  | run pid choice =>
      simp only [take] at h
      split at h
      · split at h <;> cases h
      · cases h
  | stop pid =>
      simp only [take] at h
      split at h <;> cases h
  | drift choice =>
      simp only [take] at h
      split at h <;> cases h

/-- **Driving is running.**  A pool that was driven is reached by a run whose
steps satisfy every condition that the checks and the turns imply. -/
theorem run_of_drive {driver : Driver sys C} {A : RunCondition Sg σ κ ρ}
    {check : Pool Sg σ κ ρ → Event Sg σ κ → Pool Sg σ κ ρ → Bool}
    {turns : List (Turn κ C)}
    (hCheck : ∀ turn ∈ turns, ∀ pool event pool',
      driver.take pool turn = some (event, pool') → check pool event pool' = true →
        A pool event pool')
    {first last : Pool Sg σ κ ρ}
    (h : driver.drive check turns first = some last) : Run sys A first last := by
  induction turns generalizing first with
  | nil =>
      obtain rfl := Option.some.inj h
      exact .refl first
  | cons turn turns ih =>
      rw [drive] at h
      split at h
      · rename_i event pool' hTake
        split at h
        · rename_i hPassed
          have hStep := hCheck turn List.mem_cons_self _ _ _ hTake hPassed
          have hLater := ih (fun later hLater => hCheck later (List.mem_cons_of_mem _ hLater)) h
          exact (Run.tail (.refl first) (step_of_take hTake) hStep).trans hLater
        · cases h
      · cases h

/-- A driven pool that satisfies a test is reached by a run. -/
theorem exists_run_of_turns {driver : Driver sys C} {A : RunCondition Sg σ κ ρ}
    {check : Pool Sg σ κ ρ → Event Sg σ κ → Pool Sg σ κ ρ → Bool}
    {test : Pool Sg σ κ ρ → Bool} {turns : List (Turn κ C)} {first : Pool Sg σ κ ρ}
    (hCheck : ∀ turn ∈ turns, ∀ pool event pool',
      driver.take pool turn = some (event, pool') → check pool event pool' = true →
        A pool event pool')
    (h : (driver.drive check turns first).any test = true) :
    ∃ last, Run sys A first last ∧ test last = true := by
  obtain ⟨last, hDrive, hTest⟩ := (Option.any_eq_true _ _).mp h
  exact ⟨last, run_of_drive hCheck hDrive, hTest⟩

/-- The same for a condition that the checks alone imply. -/
theorem exists_run_of_drive {driver : Driver sys C} {A : RunCondition Sg σ κ ρ}
    {check : Pool Sg σ κ ρ → Event Sg σ κ → Pool Sg σ κ ρ → Bool}
    {test : Pool Sg σ κ ρ → Bool} {turns : List (Turn κ C)} {first : Pool Sg σ κ ρ}
    (hCheck : ∀ pool event pool', check pool event pool' = true → A pool event pool')
    (h : (driver.drive check turns first).any test = true) :
    ∃ last, Run sys A first last ∧ test last = true :=
  exists_run_of_turns (fun _ _ pool event pool' _ => hCheck pool event pool') h

end Driver

end Interleaving
