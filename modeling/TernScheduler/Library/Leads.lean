import TernScheduler.Library.Pool
import TernScheduler.Library.Promise

/-!
# What an operation leads on to

A run condition may protect the programs that still have an operation to perform.
Whether a program that is about to perform one operation still has another one before
it is a question about the rest of the program, which no protocol sees.

* `Prog.Leads P Q`: wherever the program performs an operation in `P`, some reply leads
  it on to one in `Q`.
* `Run.mayReach_of_ran` says so of the programs of a pool.
-/

namespace Interleaving

variable {Sg : Signature} {σ κ ρ ε α β : Type} {P Q : Sg.Op → Prop}

namespace Prog

/-- Wherever the program performs an operation in `P`, some reply leads it on to one in
`Q`. -/
def Leads (P Q : Sg.Op → Prop) : Prog Sg α → Prop
  | ret _ => True
  | call op next => (P op → ∃ reply, (next reply).Reaches Q) ∧ ∀ reply, (next reply).Leads P Q

theorem Uses.leads {program : Prog Sg α} (hUses : program.Uses fun op => ¬ P op) :
    program.Leads P Q := by
  induction program with
  | ret value => trivial
  | call op next ih => exact ⟨fun hOp => absurd hOp hUses.1, fun reply => ih reply (hUses.2 reply)⟩

theorem reaches_bind {program : Prog Sg α} {rest : α → Prog Sg β}
    (hReaches : program.Reaches Q) : (program.bind rest).Reaches Q := by
  induction program with
  | ret value => exact hReaches.elim
  | call op next ih =>
      rcases hReaches with hOp | ⟨reply, hNext⟩
      · exact Or.inl hOp
      · exact Or.inr ⟨reply, ih reply hNext⟩

theorem leads_bind {program : Prog Sg α} {rest : α → Prog Sg β}
    (hFirst : program.Leads P Q) (hRest : ∀ value, (rest value).Leads P Q) :
    (program.bind rest).Leads P Q := by
  induction program with
  | ret value => exact hRest value
  | call op next ih =>
      refine ⟨fun hOp => ?_, fun reply => ih reply (hFirst.2 reply)⟩
      obtain ⟨reply, hReply⟩ := hFirst.1 hOp
      exact ⟨reply, reaches_bind hReply⟩

end Prog

namespace Promise

/-- Wherever the promise performs an operation in `P`, some reply leads it on to one in
`Q`. -/
def Leads (P Q : Sg.Op → Prop) (promise : Promise Sg ε α) : Prop := Prog.Leads P Q promise

variable {promise : Promise Sg ε α}

theorem Uses.leads (hUses : promise.Uses fun op => ¬ P op) : promise.Leads P Q :=
  Prog.Uses.leads hUses

theorem leads_bind {rest : α → Promise Sg ε β} (hFirst : promise.Leads P Q)
    (hRest : ∀ value, (rest value).Leads P Q) : (promise >>= rest).Leads P Q :=
  Prog.leads_bind hFirst fun result => by
    cases result with
    | ok value => exact hRest value
    | error reason => trivial

theorem leads_handle {handler : ε → Promise Sg ε α} (hFirst : promise.Leads P Q)
    (hHandler : ∀ reason, (handler reason).Leads P Q) : (promise.handle handler).Leads P Q :=
  Prog.leads_bind hFirst fun result => by
    cases result with
    | ok value => trivial
    | error reason => exact hHandler reason

end Promise

/-! ## In a pool -/

section Pools

variable {sys : System Sg σ κ ρ} {A : RunCondition Sg σ κ ρ} {first pool pool' : Pool Sg σ κ ρ}
  {event : Event Sg σ κ}

/-- What is left of every program leads on. -/
def Pool.Leads (P Q : Sg.Op → Prop) (pool : Pool Sg σ κ ρ) : Prop :=
  ∀ (pid : Nat) (request : κ) (program : Prog Sg ρ),
    pool.procs[pid]? = some ⟨request, some program⟩ → program.Leads P Q

theorem Step.leads (hProgram : ∀ request, (sys.program request).Leads P Q)
    (hStep : Step sys pool event pool') (hLeads : pool.Leads P Q) : pool'.Leads P Q := by
  intro pid request program hProc
  cases hStep with
  | spawn other =>
      rcases List.mem_append.mp (List.mem_of_getElem? hProc) with hOld | hNew
      · obtain ⟨before, hBefore⟩ := List.mem_iff_getElem?.mp hOld
        exact hLeads before request program hBefore
      · cases List.mem_singleton.mp hNew
        exact hProgram _
  | run actor actorRequest op next reply after hActor hExec =>
      -- the caller that acts goes on with what its program does next
      by_cases hPid : actor = pid
      · subst hPid
        rw [List.getElem?_set_self (List.getElem?_eq_some_iff.mp hActor).1] at hProc
        cases hProc
        exact (hLeads actor _ _ hActor).2 reply
      · rw [List.getElem?_set_ne hPid] at hProc
        exact hLeads pid request program hProc
  | stop other proc hOther =>
      by_cases hPid : other = pid
      · subst hPid
        rw [List.getElem?_set_self (List.getElem?_eq_some_iff.mp hOther).1] at hProc
        cases hProc
      · rw [List.getElem?_set_ne hPid] at hProc
        exact hLeads pid request program hProc
  | drift after hDrift => exact hLeads pid request program hProc

/-- **A program about to perform an operation in `P`** may still perform one in `Q`
after it. -/
theorem Run.mayReach_of_ran (hProgram : ∀ request, (sys.program request).Leads P Q)
    (hRun : Run sys A first pool) (hIdle : first.Idle) {entry : Entry Sg σ}
    (hStep : Step sys pool (.ran entry) pool') (hOp : P entry.op) :
    pool.MayReach Q entry.pid := by
  have hLeads : pool.Leads P Q := by
    refine hRun.invariant (I := Pool.Leads P Q) ?_ fun _ _ _ _ hBefore hOther _ =>
      hOther.leads hProgram hBefore
    intro pid request program hProc
    rw [hIdle.1] at hProc
    cases hProc
  cases hStep with
  | run pid request op next reply after hProc hExec =>
      obtain ⟨other, hOther⟩ := (hLeads pid request _ hProc).1 hOp
      exact ⟨request, _, hProc, Or.inr ⟨other, hOther⟩⟩

end Pools

end Interleaving
