import TernScheduler.Library.Pool

/-!
# Isolation

A program that holds something has it to itself when the others leave it as it is.  Then all
that happens to it between two operations of the program is what the program does.

* `Isolates` is the rule for one step.
* `Isolates.undisturbed`: since its last operation, what a program holds has not changed.
* `Isolates.isolated`: the same between any two operations that follow one another.

What it is to hold something, and to leave it as it is, are arbitrary.
-/

namespace Interleaving

variable {Sg : Signature} {σ κ ρ K : Type}

/-- What a program holds after a step of others it held before, and they left it as it
was. -/
structure Isolates (sys : System Sg σ κ ρ) (A : RunCondition Sg σ κ ρ) (first : Pool Sg σ κ ρ)
    (Holds : Pool Sg σ κ ρ → Nat → K → Prop) (Same : K → σ → σ → Prop) : Prop where
  trans : ∀ k before between after, Same k before between → Same k between after →
    Same k before after
  keeps : ∀ pool event pool', Run sys A first pool → Step sys pool event pool' →
    A pool event pool' → ∀ pid k, (∀ entry ∈ event.entry, entry.pid ≠ pid) →
      Holds pool' pid k → Holds pool pid k ∧ Same k pool.shared pool'.shared

namespace Isolates

variable {sys : System Sg σ κ ρ} {A : RunCondition Sg σ κ ρ} {first last : Pool Sg σ κ ρ}
  {Holds : Pool Sg σ κ ρ → Nat → K → Prop} {Same : K → σ → σ → Prop}

/-- **Since its last operation**, what a program holds is as it was. -/
theorem undisturbed (hIsolates : Isolates sys A first Holds Same) (hRun : Run sys A first last)
    (hIdle : first.Idle) :
    ∀ pid k, Holds last pid k → ∀ newer own older, last.log = newer ++ own :: older →
      own.pid = pid → (∀ entry ∈ newer, entry.pid ≠ pid) →
        ∀ entry ∈ newer, Same k entry.before last.shared := by
  refine hRun.invariant (I := fun pool => ∀ pid k, Holds pool pid k → ∀ newer own older,
    pool.log = newer ++ own :: older → own.pid = pid → (∀ entry ∈ newer, entry.pid ≠ pid) →
      ∀ entry ∈ newer, Same k entry.before pool.shared) ?_ ?_
  · intro pid k _ newer own older hLog
    simp [hIdle.2] at hLog
  · intro pool event pool' hBefore hAll hStep hA pid k hHolds newer own older hLog hOwn hOthers
    by_cases hPid : ∀ entry ∈ event.entry, entry.pid ≠ pid
    · obtain ⟨hHeld, hSame⟩ := hIsolates.keeps _ _ _ hBefore hStep hA pid k hPid hHolds
      -- What was undisturbed before the step is undisturbed after it.
      have hKept : pool.log = newer ++ own :: older →
          ∀ entry ∈ newer, Same k entry.before pool'.shared := fun hOld entry hEntry =>
        hIsolates.trans k _ _ _ (hAll pid k hHeld newer own older hOld hOwn hOthers entry hEntry)
          hSame
      cases hStep with
      | spawn request => exact hKept hLog
      | stop other proc hProc => exact hKept hLog
      | drift after hDrift => exact hKept hLog
      | run actor request op next reply after hProc hExec =>
          cases newer with
          | nil =>
              cases hLog
              exact absurd hOwn (hPid _ rfl)
          | cons head newer =>
              obtain ⟨rfl, hRest⟩ := List.cons.inj hLog
              intro entry hEntry
              rcases List.mem_cons.mp hEntry with rfl | hEntry
              · exact hSame
              · exact hIsolates.trans k _ _ _ (hAll pid k hHeld newer own older hRest hOwn
                  (fun entry hOld => hOthers entry (List.mem_cons_of_mem _ hOld)) entry hEntry)
                  hSame
    · -- The program has just performed an operation, and it is the last one.
      cases hStep with
      | spawn request => exact absurd (fun entry h => by cases h) hPid
      | stop other proc hProc => exact absurd (fun entry h => by cases h) hPid
      | drift after hDrift => exact absurd (fun entry h => by cases h) hPid
      | run actor request op next reply after hProc hExec =>
          cases newer with
          | nil => exact fun entry hEntry => by cases hEntry
          | cons head newer =>
              obtain ⟨rfl, -⟩ := List.cons.inj hLog
              refine absurd (fun entry hEntry => ?_) hPid
              cases hEntry
              exact hOthers _ List.mem_cons_self

/-- **Between two operations** that follow one another, what a program holds at the second
one is only changed by the first.  `C` are the operations that a program performs on what it
holds, and `G` remembers what that was. -/
theorem isolated (hIsolates : Isolates sys A first Holds Same) {C : Entry Sg σ → Prop}
    {G : Pool Sg σ κ ρ → Entry Sg σ → K → Prop}
    (hHolds : ∀ pool entry pool', Run sys A first pool → Step sys pool (.ran entry) pool' →
      A pool (.ran entry) pool' → C entry → ∃ k, Holds pool entry.pid k ∧ G pool' entry k)
    (hKept : ∀ pool event pool', Run sys A first pool → Step sys pool event pool' →
      ∀ entry k, G pool entry k → G pool' entry k)
    (hRun : Run sys A first last) (hIdle : first.Idle) :
    ∀ newer work mid own older, last.log = newer ++ work :: (mid ++ own :: older) →
      own.pid = work.pid → (∀ entry ∈ mid, entry.pid ≠ work.pid) → C work →
        ∃ k, G last work k ∧ ∀ entry ∈ mid, Same k entry.before work.before := by
  refine hRun.invariant (I := fun pool => ∀ newer work mid own older,
    pool.log = newer ++ work :: (mid ++ own :: older) → own.pid = work.pid →
      (∀ entry ∈ mid, entry.pid ≠ work.pid) → C work →
        ∃ k, G pool work k ∧ ∀ entry ∈ mid, Same k entry.before work.before) ?_ ?_
  · intro newer work mid own older hLog
    simp [hIdle.2] at hLog
  · intro pool event pool' hBefore hAll hStep hA newer work mid own older hLog hOwn hOthers hC
    -- work that was in the log before has its token still
    have hOld : ∀ rest, pool.log = rest ++ work :: (mid ++ own :: older) →
        ∃ k, G pool' work k ∧ ∀ entry ∈ mid, Same k entry.before work.before := by
      intro rest hRest
      obtain ⟨k, hG, hSame⟩ := hAll rest work mid own older hRest hOwn hOthers hC
      exact ⟨k, hKept _ _ _ hBefore hStep work k hG, hSame⟩
    have hStep' := hStep
    cases hStep with
    | spawn request => exact hOld newer hLog
    | stop other proc hProc => exact hOld newer hLog
    | drift after hDrift => exact hOld newer hLog
    | run actor request op next reply after hProc hExec =>
        cases newer with
        -- the work is the step itself
        | nil =>
            obtain ⟨rfl, hRest⟩ := List.cons.inj hLog
            obtain ⟨k, hHeld, hG⟩ := hHolds _ _ _ hBefore hStep' hA hC
            exact ⟨k, hG, hIsolates.undisturbed hBefore hIdle _ k hHeld mid own older hRest hOwn
              hOthers⟩
        | cons head newer => exact hOld newer (List.cons.inj hLog).2

end Isolates

end Interleaving
