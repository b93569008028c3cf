import Mathlib.Tactic.Common

/-!
# Paths of a step function

A step function takes an action in a state, or refuses it.

* `Path` records the state before each action.
* `Path.keeps`: what every step keeps, under a condition on the state and the action, holds
  all along a path whose steps meet the condition.
* `Path.keeps_back`: what no step brings about was true before, if it is true at the end.
* `Path.carries`: what every step carries on, of the path up to it and of its state, holds of
  the whole path.
-/

namespace Stepping

variable {σ α : Type}

/-- A path of the step function, with the state before each of its actions. -/
inductive Path (step : σ → α → Option σ) : σ → List (σ × α) → σ → Prop
  | nil (s : σ) : Path step s [] s
  | cons {s next last : σ} {a : α} {trace : List (σ × α)} (hStep : step s a = some next)
      (hPath : Path step next trace last) : Path step s ((s, a) :: trace) last

namespace Path

variable {step : σ → α → Option σ} {s last : σ} {trace : List (σ × α)}

/-- The states of a path: before each action, and at the end. -/
def states (trace : List (σ × α)) (last : σ) : List σ := trace.map Prod.fst ++ [last]

theorem start_mem (hPath : Path step s trace last) : s ∈ states trace last := by
  cases hPath with
  | nil => exact List.mem_singleton_self s
  | cons hStep hRest => exact List.mem_cons_self

/-- What every step that meets the condition keeps holds in all states of a path that meets
it. -/
theorem keeps {Inv : σ → Prop} {Meets : σ → α → Prop}
    (hKeeps : ∀ s a next, Inv s → Meets s a → step s a = some next → Inv next)
    (hPath : Path step s trace last) (hStart : Inv s) (hMeets : ∀ p ∈ trace, Meets p.1 p.2) :
    ∀ state ∈ states trace last, Inv state := by
  induction hPath with
  | nil s =>
      intro state hState
      obtain rfl := List.mem_singleton.mp hState
      exact hStart
  | cons hStep hRest ih =>
      have hNext := hKeeps _ _ _ hStart (hMeets _ List.mem_cons_self) hStep
      intro state hState
      rcases List.mem_cons.mp hState with rfl | hLater
      · exact hStart
      · exact ih hNext (fun p hp => hMeets p (List.mem_cons_of_mem _ hp)) state hLater

/-- What no step can bring about was true in all states of a path if it is at its end. -/
theorem keeps_back {Inv : σ → Prop} (hBack : ∀ s a next, step s a = some next → Inv next → Inv s)
    (hPath : Path step s trace last) (hLast : Inv last) :
    ∀ state ∈ states trace last, Inv state := by
  induction hPath with
  | nil s =>
      intro state hState
      obtain rfl := List.mem_singleton.mp hState
      exact hLast
  | cons hStep hRest ih =>
      intro state hState
      rcases List.mem_cons.mp hState with rfl | hLater
      · exact hBack _ _ _ hStep (ih hLast _ hRest.start_mem)
      · exact ih hLast state hLater

theorem append {mid : σ} {rest : List (σ × α)} (hPath : Path step s trace mid)
    (hRest : Path step mid rest last) : Path step s (trace ++ rest) last := by
  induction hPath with
  | nil => exact hRest
  | cons hStep _ ih => exact .cons hStep (ih hRest)

/-- A state of two paths in a row is one of the first or one of the second. -/
theorem mem_states_append {mid state : σ} {rest : List (σ × α)}
    (hState : state ∈ states (trace ++ rest) last) :
    state ∈ states trace mid ∨ state ∈ states rest last := by
  unfold states at *
  rw [List.map_append, List.append_assoc] at hState
  rcases List.mem_append.mp hState with hFirst | hSecond
  · exact Or.inl (List.mem_append_left _ hFirst)
  · exact Or.inr hSecond

/-- What holds of nothing done, and is carried on by every step, holds of the whole path with
its end. -/
theorem carries {Inv : List (σ × α) → σ → Prop}
    (hCarries : ∀ trace s a next, Inv trace s → step s a = some next →
      Inv (trace ++ [(s, a)]) next)
    (hPath : Path step s trace last) (hStart : Inv [] s) : Inv trace last := by
  -- The induction goes from the front, so what was done before is generalized.
  suffices hFrom : ∀ done, Inv done s → Inv (done ++ trace) last from hFrom [] hStart
  clear hStart
  induction hPath with
  | nil s =>
      intro done hDone
      rwa [List.append_nil]
  | cons hStep hRest ih =>
      intro done hDone
      have hNext := ih _ (hCarries done _ _ _ hDone hStep)
      rwa [List.append_assoc, List.singleton_append] at hNext

/-- The state before an action is one of the path's, and so is the state after it. -/
theorem mem_states (hPath : Path step s trace last) {p : σ × α} (hMem : p ∈ trace) :
    p.1 ∈ states trace last ∧ ∃ next, step p.1 p.2 = some next ∧ next ∈ states trace last := by
  induction hPath with
  | nil s => cases hMem
  | cons hStep hRest ih =>
      rcases List.mem_cons.mp hMem with rfl | hLater
      · exact ⟨List.mem_cons_self, _, hStep, List.mem_cons_of_mem _ hRest.start_mem⟩
      · obtain ⟨hBefore, next, hNext, hAfter⟩ := ih hLater
        exact ⟨List.mem_cons_of_mem _ hBefore, next, hNext, List.mem_cons_of_mem _ hAfter⟩

/-- The path of a list of actions, as far as none of them is refused. -/
def follow (step : σ → α → Option σ) : σ → List α → List (σ × α) × σ
  | s, [] => ([], s)
  | s, a :: actions =>
      match step s a with
      | none => ([], s)
      | some next =>
          let (trace, last) := follow step next actions
          ((s, a) :: trace, last)

theorem path_follow (step : σ → α → Option σ) (s : σ) (actions : List α) :
    Path step s (follow step s actions).1 (follow step s actions).2 := by
  induction actions generalizing s with
  | nil => exact .nil s
  | cons a actions ih =>
      rw [follow]
      cases hStep : step s a with
      | none => exact .nil s
      | some next => exact .cons hStep (ih next)

end Path

end Stepping
