import TernScheduler.Library.Alone
import TernScheduler.Library.Mailbox

/-!
# What a system can still do

A safety property says what no run does.  That a system is not stuck says what some run does,
from every state it can get into.

* `exists_mailRun_of_ensures`: a program of a pool can be run to its end while nothing else
  moves, and does there what all its runs alone do.
* `exists_measure_zero`: what can be made smaller, round by round, can be brought to zero.
-/

namespace Interleaving

variable {Sg : Signature} {σ κ ρ μ : Type} {sys : System Sg σ κ ρ} {M : Mailing σ κ μ}
  {A : RunCondition Sg σ κ ρ}

/-- **A program that nobody interferes with** runs to its end, in a pool of any others. -/
theorem exists_mailRun_of_ensures {exec : Execution Sg σ}
    (hSound : ∀ state op reply after, exec state op reply after → sys.exec state op reply after)
    (hTotal : exec.Total) (hCondition : ∀ pool entry pool', A pool (.ran entry) pool')
    {post : σ → ρ → Prop} {program : Prog Sg ρ} {request : κ} {pid : Nat}
    {mailed : Mailed Sg σ κ ρ μ}
    (hProc : mailed.pool.procs[pid]? = some ⟨request, some program⟩)
    (hEnsures : program.Ensures exec post mailed.pool.shared) :
    ∃ last value, MailRun sys M A mailed last ∧ post last.pool.shared value := by
  induction program generalizing mailed with
  | ret value => exact ⟨mailed, value, .refl, hEnsures⟩
  | call op next ih =>
      obtain ⟨reply, after, hExec⟩ := hTotal mailed.pool.shared op
      let pool' : Pool Sg σ κ ρ :=
        { shared := after
          procs := mailed.pool.procs.set pid ⟨request, some (next reply)⟩
          log := ⟨pid, op, reply, mailed.pool.shared⟩ :: mailed.pool.log }
      have hStep : Step sys mailed.pool (.ran ⟨pid, op, reply, mailed.pool.shared⟩) pool' :=
        .run mailed.pool pid request op next reply after hProc (hSound _ _ _ _ hExec)
      have hBound := (List.getElem?_eq_some_iff.mp hProc).1
      obtain ⟨last, value, hRun, hPost⟩ := @ih reply ⟨pool', mailed.inFlight⟩
        (List.getElem?_set_self hBound) (hEnsures reply after hExec)
      exact ⟨last, value, .head (.move mailed _ pool' rfl hStep (hCondition _ _ _)) hRun, hPost⟩

/-- **Round by round.**  Where a round can always make the measure smaller, and keeps what is
known, the measure can be brought to zero. -/
theorem exists_measure_zero {α : Type} {R : α → α → Prop} {I : α → Prop} (measure : α → Nat)
    (hRound : ∀ state, I state → measure state ≠ 0 →
      ∃ state', Relation.ReflTransGen R state state' ∧ I state' ∧ measure state' < measure state)
    {first : α} (hFirst : I first) :
    ∃ last, Relation.ReflTransGen R first last ∧ I last ∧ measure last = 0 := by
  induction hMeasure : measure first using Nat.strongRecOn generalizing first with
  | _ size ih =>
      by_cases hZero : measure first = 0
      · exact ⟨first, .refl, hFirst, hZero⟩
      · obtain ⟨state', hRun, hKnown, hSmaller⟩ := hRound first hFirst hZero
        obtain ⟨last, hRest, hLast⟩ := ih _ (hMeasure ▸ hSmaller) hKnown rfl
        exact ⟨last, hRun.trans hRest, hLast⟩

end Interleaving
