import Mathlib.Tactic.Common

/-!
# Whether an iteration ends

An iteration goes from a state to the next one until there is none.

* `Halts.of_measure`: it ends where a measure falls with every step.
* `not_halts`: it goes on where every state of a kind has a next one of the kind.
* `halts_comp_iff`: two iterations whose states correspond end alike.
-/

namespace Stepping

variable {σ τ : Type}

/-- The iteration reaches a state that has no next one. -/
inductive Halts (next : σ → Option σ) : σ → Prop
  | last {s : σ} (hLast : next s = none) : Halts next s
  | step {s t : σ} (hNext : next s = some t) (hRest : Halts next t) : Halts next s

section

variable {next : σ → Option σ} {Inv : σ → Prop}

/-- An iteration ends when a measure of its states falls with every step. -/
theorem Halts.of_measure (measure : σ → ℕ)
    (hStep : ∀ s t, Inv s → next s = some t → Inv t ∧ measure t < measure s) {s : σ}
    (hInv : Inv s) : Halts next s := by
  induction hMeasure : measure s using Nat.strongRecOn generalizing s with
  | ind _ ih =>
      cases hNext : next s with
      | none => exact .last hNext
      | some t =>
          obtain ⟨hInvT, hLess⟩ := hStep s t hInv hNext
          exact .step hNext (ih _ (hMeasure ▸ hLess) hInvT rfl)

/-- An iteration does not end while every state has a next one. -/
theorem not_halts (hNext : ∀ s, Inv s → ∃ t, next s = some t ∧ Inv t) {s : σ} (hInv : Inv s) :
    ¬ Halts next s := by
  intro hHalts
  induction hHalts with
  | last hLast =>
      obtain ⟨t, hSome, -⟩ := hNext _ hInv
      rw [hLast] at hSome
      cases hSome
  | step hStep hRest ih =>
      obtain ⟨t, hSome, hInvT⟩ := hNext _ hInv
      rw [hStep, Option.some_inj] at hSome
      exact ih (hSome ▸ hInvT)

/-- Whether an iteration ends does not depend on how its states are written. -/
theorem halts_comp_iff {next' : τ → Option τ} {read : τ → σ}
    (hRead : ∀ t, (next' t).map read = next (read t)) (t : τ) :
    Halts next' t ↔ Halts next (read t) := by
  constructor
  · intro hHalts
    induction hHalts with
    | last hLast =>
        refine .last ?_
        rw [← hRead, hLast]
        rfl
    | step hNext hRest ih =>
        refine .step ?_ ih
        rw [← hRead, hNext]
        rfl
  · intro hHalts
    -- the induction is on the run of what is read, so the state varies
    generalize hState : read t = s at hHalts
    induction hHalts generalizing t with
    | last hLast =>
        refine .last ?_
        have hNone := hRead t
        rwa [hState, hLast, Option.map_eq_none_iff] at hNone
    | step hNext hRest ih =>
        have hSome := hRead t
        rw [hState, hNext] at hSome
        obtain ⟨t', hNext', hRead'⟩ := Option.map_eq_some_iff.mp hSome
        exact .step hNext' (ih t' hRead')

end

end Stepping
