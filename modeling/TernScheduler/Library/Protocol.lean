import TernScheduler.Library.Transformer

/-!
# Call protocols

A protocol is a local automaton over the operations and replies of one
program.  `may` is the guard under which an operation is allowed and `next` is
the state after its reply.  `Prog.Honors` says that a program respects the
guards whatever the environment replies, and that it ends in a state satisfying
a postcondition.

Nothing here mentions the state shared with other programs.  A protocol
therefore separates the two halves of a concurrency proof: a program is walked
once, alone, to show that it honors its protocol; the interleavings are then
analysed on the protocol states, without looking at a program again.
-/

namespace Interleaving

/-- A local automaton over operations and their replies. -/
structure Protocol (Sg : Signature) (M : Type) where
  next : M → (op : Sg.Op) → Sg.Reply op → M
  may : M → Sg.Op → Prop

variable {Sg : Signature} {M α β ε : Type}

/-- A protocol as a transformer: the operation is allowed, and whatever the reply,
the condition holds of the next protocol state. -/
def Protocol.transformer (P : Protocol Sg M) : Transformer Sg M where
  wp state op post := P.may state op ∧ ∀ reply, post reply (P.next state op reply)
  monotone _ _ _ _ hImp h := ⟨h.1, fun reply => hImp reply _ (h.2 reply)⟩

/-- From protocol state `state` the program only issues allowed operations,
whatever the replies, and every result it can return satisfies `post`. -/
abbrev Prog.Honors (P : Protocol Sg M) (post : M → α → Prop) (state : M)
    (program : Prog Sg α) : Prop :=
  program.Sat P.transformer post state

namespace Prog

variable {P : Protocol Sg M}

theorem honors_of_may (h : ∀ state op, P.may state op) (state : M) (program : Prog Sg α) :
    program.Honors P (fun _ _ => True) state := by
  induction program generalizing state with
  | ret value => trivial
  | call op next ih => exact ⟨h state op, fun reply => ih reply (P.next state op reply)⟩

/-- A program whose operations are allowed in every state of an invariant, and keep
it, honors the protocol. -/
theorem Uses.honors {I : M → Prop} {Q : Sg.Op → Prop} {program : Prog Sg α} {state : M}
    (hUses : program.Uses Q) (hState : I state)
    (hKeeps : ∀ state op, I state → Q op →
      P.may state op ∧ ∀ reply, I (P.next state op reply)) :
    program.Honors P (fun after _ => I after) state := by
  induction program generalizing state with
  | ret value => exact hState
  | call op next ih =>
      obtain ⟨hMay, hNext⟩ := hKeeps state op hState hUses.1
      exact ⟨hMay, fun reply => ih reply (hUses.2 reply) (hNext reply)⟩

/-- A program that honors a protocol does not reach what the protocol forbids
from every state it can still lead to. -/
theorem Honors.not_reaches {post : M → α → Prop} {program : Prog Sg α} {state : M}
    {I : M → Prop} {Q : Sg.Op → Prop} (h : program.Honors P post state)
    (hState : I state)
    (hKeeps : ∀ state op reply, I state → P.may state op → I (P.next state op reply))
    (hForbids : ∀ state op, I state → P.may state op → ¬ Q op) :
    ¬ program.Reaches Q := by
  induction program generalizing state with
  | ret value => exact id
  | call op next ih =>
      rintro (hOp | ⟨reply, hReply⟩)
      · exact hForbids state op hState h.1 hOp
      · exact ih reply (h.2 reply) (hKeeps state op reply hState h.1) hReply

end Prog

namespace Promise

variable {P : Protocol Sg M}

/-- A protocol triple for promises: what holds on resolution and what holds on
rejection. -/
abbrev Honors (P : Protocol Sg M) (resolved : M → α → Prop)
    (rejected : M → ε → Prop) (state : M) (promise : Promise Sg ε α) : Prop :=
  promise.Sat P.transformer resolved rejected state

variable {resolved : M → α → Prop} {rejected : M → ε → Prop} {state : M}

@[simp] theorem honors_perform (op : Sg.Op)
    (answer : Sg.Reply op → Except ε α) :
    (perform op answer : Promise Sg ε α).Honors P resolved rejected state ↔
      P.may state op ∧
        ∀ reply,
          match answer reply with
          | .ok value => resolved (P.next state op reply) value
          | .error reason => rejected (P.next state op reply) reason := Iff.rfl

/-- The rule for a promise whose operations keep an invariant of the protocol. -/
theorem honors_of_uses {I : M → Prop} {Q : Sg.Op → Prop} {promise : Promise Sg ε α}
    (hUses : promise.Uses Q) (hState : I state)
    (hKeeps : ∀ state op, I state → Q op →
      P.may state op ∧ ∀ reply, I (P.next state op reply)) :
    promise.Honors P (fun after _ => I after) (fun after _ => I after) state := by
  refine (Prog.Uses.honors hUses hState hKeeps).mono fun after result hAfter => ?_
  cases result with
  | ok value => exact hAfter
  | error reason => exact hAfter

end Promise

end Interleaving
