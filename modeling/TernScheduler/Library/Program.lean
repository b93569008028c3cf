import Mathlib.Logic.Basic
import Mathlib.Tactic.Common

/-!
# Programs over an effect signature

A program is a finite tree of calls to its environment: each node issues one
operation and continues with whatever the environment replies.  Every level of
an asynchronous promise chain has this shape once the calls that leave the
process are named, so the tree is the natural unit to interleave, to replay and
to reason about.

* `Prog.bind` grafts a continuation on the leaves.
* `Prog.Reaches P` says that some sequence of replies leads the program to an
  operation satisfying `P`: the operations it may still issue.
* `Prog.Uses P` says that every operation the program may issue satisfies `P`.
-/

namespace Interleaving

/-- The operations a program may issue, and the type of each reply. -/
structure Signature where
  Op : Type
  Reply : Op → Type

/-- A program: either a result, or an operation and a continuation that awaits
its reply. -/
inductive Prog (Sg : Signature) (α : Type) : Type
  | ret (value : α) : Prog Sg α
  | call (op : Sg.Op) (next : Sg.Reply op → Prog Sg α) : Prog Sg α

namespace Prog

variable {Sg : Signature} {α β γ : Type}

/-- Sequential composition: run the program, then the continuation. -/
def bind : Prog Sg α → (α → Prog Sg β) → Prog Sg β
  | ret value, rest => rest value
  | call op next, rest => call op fun reply => (next reply).bind rest

/-! ## Operations a program may still issue -/

/-- Some sequence of replies leads the program to an operation in `P`. -/
def Reaches (P : Sg.Op → Prop) : Prog Sg α → Prop
  | ret _ => False
  | call op next => P op ∨ ∃ reply, (next reply).Reaches P

/-- Every operation the program may issue is in `P`. -/
def Uses (P : Sg.Op → Prop) : Prog Sg α → Prop
  | ret _ => True
  | call op next => P op ∧ ∀ reply, (next reply).Uses P

theorem Reaches.of_next {P : Sg.Op → Prop} {op : Sg.Op}
    {next : Sg.Reply op → Prog Sg α} {reply : Sg.Reply op}
    (h : (next reply).Reaches P) : (call op next).Reaches P :=
  Or.inr ⟨reply, h⟩

theorem uses_bind {P : Sg.Op → Prop} {program : Prog Sg α}
    {rest : α → Prog Sg β} (hFirst : program.Uses P)
    (hRest : ∀ value, (rest value).Uses P) : (program.bind rest).Uses P := by
  induction program with
  | ret value => exact hRest value
  | call op next ih => exact ⟨hFirst.1, fun reply => ih reply (hFirst.2 reply)⟩

theorem Uses.mono {P Q : Sg.Op → Prop} {program : Prog Sg α}
    (hUses : program.Uses P) (hImp : ∀ op, P op → Q op) : program.Uses Q := by
  induction program with
  | ret value => trivial
  | call op next ih =>
      exact ⟨hImp op hUses.1, fun reply => ih reply (hUses.2 reply)⟩

end Prog

end Interleaving
