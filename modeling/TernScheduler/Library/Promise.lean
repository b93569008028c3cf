import TernScheduler.Library.Program

/-!
# Promises

A promise is a program whose result is either a value or a rejection.  `bind`
is `.then` with a success handler, `handle` is `.catch`, and a handler that
throws is one that returns a rejected promise.
-/

namespace Interleaving

/-- A program that resolves with a value or rejects with a reason. -/
def Promise (Sg : Signature) (ε α : Type) : Type := Prog Sg (Except ε α)

namespace Promise

variable {Sg : Signature} {ε α β : Type}

/-- A promise already resolved. -/
def resolve (value : α) : Promise Sg ε α := Prog.ret (.ok value)

/-- A promise already rejected. -/
def reject (reason : ε) : Promise Sg ε α := Prog.ret (.error reason)

/-- `.then(rest)`: a rejection skips the handler. -/
def bind (promise : Promise Sg ε α) (rest : α → Promise Sg ε β) :
    Promise Sg ε β :=
  Prog.bind promise fun
    | .ok value => rest value
    | .error reason => reject reason

/-- `.catch(handler)`: a resolved promise skips the handler. -/
def handle (promise : Promise Sg ε α) (handler : ε → Promise Sg ε α) :
    Promise Sg ε α :=
  Prog.bind promise fun
    | .ok value => resolve value
    | .error reason => handler reason

/-- Running a function that may throw inside a handler. -/
def ofExcept : Except ε α → Promise Sg ε α := Prog.ret

/-- An operation whose reply is itself a settled result. -/
def perform (op : Sg.Op) (answer : Sg.Reply op → Except ε α) :
    Promise Sg ε α :=
  Prog.call op fun reply => Prog.ret (answer reply)

instance : Monad (Promise Sg ε) where
  pure := resolve
  bind := bind

/-- Every operation the promise may issue is in `Q`. -/
def Uses (Q : Sg.Op → Prop) (promise : Promise Sg ε α) : Prop := Prog.Uses Q promise

section Uses

variable {Q : Sg.Op → Prop} {promise : Promise Sg ε α}

theorem uses_resolve (value : α) : (resolve value : Promise Sg ε α).Uses Q := trivial

theorem uses_reject (reason : ε) : (reject reason : Promise Sg ε α).Uses Q := trivial

theorem uses_perform {op : Sg.Op} (hOp : Q op) (answer : Sg.Reply op → Except ε α) :
    (perform op answer : Promise Sg ε α).Uses Q := ⟨hOp, fun _ => trivial⟩

theorem uses_bind {rest : α → Promise Sg ε β} (hFirst : promise.Uses Q)
    (hRest : ∀ value, (rest value).Uses Q) : (promise >>= rest).Uses Q :=
  Prog.uses_bind hFirst fun result => by
    cases result with
    | ok value => exact hRest value
    | error reason => exact uses_reject reason

theorem uses_handle {handler : ε → Promise Sg ε α} (hFirst : promise.Uses Q)
    (hHandler : ∀ reason, (handler reason).Uses Q) : (promise.handle handler).Uses Q :=
  Prog.uses_bind hFirst fun result => by
    cases result with
    | ok value => exact uses_resolve value
    | error reason => exact hHandler reason

end Uses

end Promise

end Interleaving
