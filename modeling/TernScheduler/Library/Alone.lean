import TernScheduler.Library.Transformer

/-!
# Programs run alone

A program that nobody interferes with performs its operations one after the other
on the shared state.  `Prog.Ensures` says that every such run ends as required, and
`Each` says the same of each program of a sequence, run one after the other.
-/

namespace Interleaving

variable {Sg : Signature} {σ κ α : Type}

/-- How operations act on the shared state. -/
abbrev Execution (Sg : Signature) (σ : Type) := σ → (op : Sg.Op) → Sg.Reply op → σ → Prop

/-- Every operation can be performed in every state. -/
def Execution.Total (exec : Execution Sg σ) : Prop :=
  ∀ state op, ∃ reply after, exec state op reply after

/-- An execution as a transformer: the condition holds of every reply and state the
operation can lead to. -/
def Execution.transformer (exec : Execution Sg σ) : Transformer Sg σ where
  wp state op post := ∀ reply after, exec state op reply after → post reply after
  monotone _ _ _ _ hImp h := fun reply after hExec => hImp reply after (h reply after hExec)

/-- Every run of the program alone, from `state`, ends as required. -/
abbrev Prog.Ensures (exec : Execution Sg σ) (post : σ → α → Prop) (state : σ)
    (program : Prog Sg α) : Prop :=
  program.Sat exec.transformer post state

variable {exec : Execution Sg σ}

/-- A program can be run to its end, so what all its runs ensure happens. -/
theorem Prog.Ensures.exists_end (hTotal : exec.Total) {post : σ → α → Prop} {state : σ}
    {program : Prog Sg α} (h : program.Ensures exec post state) :
    ∃ after value, post after value := by
  induction program generalizing state with
  | ret value => exact ⟨state, value, h⟩
  | call op next ih =>
      obtain ⟨reply, after, hExec⟩ := hTotal state op
      exact ih reply (h reply after hExec)

/-- Two conditions that all runs ensure are ensured together. -/
theorem Prog.Ensures.and {post post' : σ → α → Prop} {state : σ} {program : Prog Sg α}
    (h : program.Ensures exec post state) (h' : program.Ensures exec post' state) :
    program.Ensures exec (fun after value => post after value ∧ post' after value) state := by
  induction program generalizing state with
  | ret value => exact ⟨h, h'⟩
  | call op next ih =>
      exact fun reply after hExec => ih reply (h reply after hExec) (h' reply after hExec)

/-! ## Sequences of programs -/

/-- Each program of the sequence, run alone after the ones before it, changes the
state only as `R` allows. -/
def Each (exec : Execution Sg σ) (program : κ → Prog Sg α) (R : σ → σ → Prop) :
    σ → List κ → Prop
  | _, [] => True
  | state, request :: requests =>
      (program request).Ensures exec
        (fun after _ => R state after ∧ Each exec program R after requests) state

variable {program : κ → Prog Sg α} {R : σ → σ → Prop}

/-- A sequence of programs each of which does what is required wherever `R` leads
to. -/
theorem each_of_forall (hRefl : ∀ state, R state state)
    (hTrans : ∀ first middle last, R first middle → R middle last → R first last)
    {state : σ} {requests : List κ}
    (h : ∀ request ∈ requests, ∀ reached, R state reached →
      (program request).Ensures exec (fun after _ => R reached after) reached) :
    Each exec program R state requests := by
  induction requests generalizing state with
  | nil => trivial
  | cons request requests ih =>
      have hHead := h request List.mem_cons_self state (hRefl state)
      refine Prog.Sat.mono hHead fun after _ hAfter => ⟨hAfter, ih ?_⟩
      intro later hLater reached hReached
      exact h later (List.mem_cons_of_mem _ hLater) reached
        (hTrans state after reached hAfter hReached)

/-- Each program of a sequence does what is required in some state that the ones
before it lead to. -/
theorem Each.exists_of_mem (hTotal : exec.Total) (hRefl : ∀ state, R state state)
    (hTrans : ∀ first middle last, R first middle → R middle last → R first last)
    {state : σ} {requests : List κ} (h : Each exec program R state requests)
    {request : κ} (hMem : request ∈ requests) :
    ∃ reached, R state reached ∧
      (program request).Ensures exec (fun after _ => R reached after) reached := by
  induction requests generalizing state with
  | nil => cases hMem
  | cons first requests ih =>
      rcases List.mem_cons.mp hMem with rfl | hLater
      · exact ⟨state, hRefl state, Prog.Sat.mono h fun _ _ hAfter => hAfter.1⟩
      · obtain ⟨after, -, hAfter, hRest⟩ := Prog.Ensures.exists_end hTotal h
        obtain ⟨reached, hReached, hEnsures⟩ := ih hRest hLater
        exact ⟨reached, hTrans state after reached hAfter hReached, hEnsures⟩

end Interleaving
