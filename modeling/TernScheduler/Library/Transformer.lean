import TernScheduler.Library.Promise

/-!
# Programs as predicate transformers

A transformer says, for each operation, what must hold before it so that a
condition holds of its reply and of the state after it.  `Prog.Sat` extends it
to programs and `Promise.Sat` to promises, with one condition for each way a
promise can settle.

Two readings of the operations are instances: a protocol that guards them, and
an execution relation that performs them.  The rules for sequencing, handlers and
consequence are proved once, here.
-/

namespace Interleaving

/-- A monotone predicate transformer for the operations of a signature, over
states `M`. -/
structure Transformer (Sg : Signature) (M : Type) where
  wp : M → (op : Sg.Op) → (Sg.Reply op → M → Prop) → Prop
  monotone : ∀ state op (post post' : Sg.Reply op → M → Prop),
    (∀ reply after, post reply after → post' reply after) →
      wp state op post → wp state op post'

variable {Sg : Signature} {M α β ε : Type}

/-- From `state`, the operations of the program lead to a result that satisfies
`post`. -/
def Prog.Sat (T : Transformer Sg M) (post : M → α → Prop) : M → Prog Sg α → Prop
  | state, .ret value => post state value
  | state, .call op next =>
      T.wp state op fun reply after => (next reply).Sat T post after

namespace Prog

variable {T : Transformer Sg M}

/-- Sequencing: the continuation is satisfied from every state and result the
first program can leave. -/
theorem sat_bind (post : M → β → Prop) (state : M) (program : Prog Sg α)
    (rest : α → Prog Sg β) :
    (program.bind rest).Sat T post state ↔
      program.Sat T (fun after value => (rest value).Sat T post after) state := by
  induction program generalizing state with
  | ret value => exact Iff.rfl
  | call op next ih =>
      have hNext : (fun reply after => ((next reply).bind rest).Sat T post after) =
          fun reply after => (next reply).Sat T
            (fun after value => (rest value).Sat T post after) after := by
        funext reply after
        exact propext (ih reply after)
      show T.wp state op (fun reply after => ((next reply).bind rest).Sat T post after) ↔ _
      rw [hNext]
      exact Iff.rfl

/-- The consequence rule. -/
theorem Sat.mono {post post' : M → α → Prop} {state : M} {program : Prog Sg α}
    (h : program.Sat T post state)
    (hImp : ∀ after value, post after value → post' after value) :
    program.Sat T post' state := by
  induction program generalizing state with
  | ret value => exact hImp _ _ h
  | call op next ih =>
      exact T.monotone state op _ _ (fun reply after hAfter => ih reply hAfter) h

end Prog

/-- What a promise ensures when it resolves, and when it is rejected. -/
def Promise.Sat (T : Transformer Sg M) (resolved : M → α → Prop)
    (rejected : M → ε → Prop) (state : M) (promise : Promise Sg ε α) : Prop :=
  Prog.Sat T
    (fun after result =>
      match result with
      | .ok value => resolved after value
      | .error reason => rejected after reason)
    state promise

namespace Promise

variable {T : Transformer Sg M} {resolved resolved' : M → α → Prop}
  {rejected rejected' : M → ε → Prop} {state : M}

theorem sat_ofExcept (result : Except ε α) :
    (ofExcept result : Promise Sg ε α).Sat T resolved rejected state ↔
      match result with
      | .ok value => resolved state value
      | .error reason => rejected state reason := Iff.rfl

/-- Two ways of splitting a settled result into its cases give the same
condition. -/
private theorem sat_congr_result {program : Prog Sg (Except ε α)}
    {first second : M → Except ε α → Prop}
    (hOk : ∀ after value, first after (.ok value) ↔ second after (.ok value))
    (hError : ∀ after reason,
      first after (.error reason) ↔ second after (.error reason)) :
    program.Sat T first state ↔ program.Sat T second state := by
  have hSame : first = second := by
    funext after result
    cases result with
    | ok value => exact propext (hOk after value)
    | error reason => exact propext (hError after reason)
  rw [hSame]

/-- `.then`: the handler is satisfied after a resolution, and a rejection passes
through. -/
theorem sat_bind {promise : Promise Sg ε α} {rest : α → Promise Sg ε β}
    {resolved : M → β → Prop} :
    (promise >>= rest).Sat T resolved rejected state ↔
      promise.Sat T (fun after value => (rest value).Sat T resolved rejected after)
        rejected state :=
  (Prog.sat_bind _ _ _ _).trans
    (sat_congr_result (fun _ _ => Iff.rfl) fun _ _ => Iff.rfl)

/-- `.catch`: the handler is satisfied after a rejection, and a value passes
through. -/
theorem sat_handle {promise : Promise Sg ε α} {handler : ε → Promise Sg ε α} :
    (promise.handle handler).Sat T resolved rejected state ↔
      promise.Sat T resolved
        (fun after reason => (handler reason).Sat T resolved rejected after) state :=
  (Prog.sat_bind _ _ _ _).trans
    (sat_congr_result (fun _ _ => Iff.rfl) fun _ _ => Iff.rfl)

/-- The consequence rule for promises. -/
theorem Sat.mono {promise : Promise Sg ε α}
    (h : promise.Sat T resolved rejected state)
    (hOk : ∀ after value, resolved after value → resolved' after value)
    (hError : ∀ after reason, rejected after reason → rejected' after reason) :
    promise.Sat T resolved' rejected' state := by
  refine Prog.Sat.mono h fun after result hResult => ?_
  cases result with
  | ok value => exact hOk _ _ hResult
  | error reason => exact hError _ _ hResult

end Promise

end Interleaving
