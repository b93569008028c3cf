import Mathlib.Logic.Function.Basic
import Mathlib.Logic.Relation
import Mathlib.Order.Defs.LinearOrder
import Mathlib.Order.Lattice

/-!
# Leases with a term

What leases are for: whoever is granted a key may count on having it alone until
the term of the grant ends or the lease is given up.  A ledger records the
grants; its holders, keys and times are arbitrary.

* `Ledger.Step` are the fair moves: time passes, a key is granted to a new holder
  while no term of its present holder runs, and a holder gives its lease up.
* `Ledger.Sound` says that whoever has a running term still holds the key, and
  `Step.sound` that every fair move keeps it.
* `Ledger.exclusive_of_reachable`: along fair moves, two running terms of one key
  belong to one holder.
-/

namespace Leasing

/-- What has been granted: the holder of each key, the key and the end of the term
each holder was given, and who has given its lease up. -/
structure Ledger (K H T : Type) where
  clock : T
  holder : K → Option H
  term : H → Option (K × T)
  stopped : H → Prop

namespace Ledger

variable {K H T : Type}

/-- Nothing has been granted yet. -/
def empty (clock : T) : Ledger K H T :=
  ⟨clock, fun _ => none, fun _ => none, fun _ => False⟩

variable [LinearOrder T] {ledger ledger' : Ledger K H T} {h other : H} {k : K}

/-- The term the holder was given for the key has not ended, and the holder has
not given the lease up. -/
def Running (ledger : Ledger K H T) (h : H) (k : K) : Prop :=
  ∃ ending, ledger.term h = some (k, ending) ∧ ¬ ledger.stopped h ∧ ledger.clock ≤ ending

/-- Whoever has a running term holds the key. -/
def Sound (ledger : Ledger K H T) : Prop :=
  ∀ h k, ledger.Running h k → ledger.holder k = some h

theorem sound_empty (clock : T) : (empty clock : Ledger K H T).Sound := by
  rintro h k ⟨ending, hTerm, -⟩
  cases hTerm

variable [DecidableEq K] [DecidableEq H]

/-- A fair move. -/
inductive Step : Ledger K H T → Ledger K H T → Prop
  | wait (ledger : Ledger K H T) (later : T) (hLater : ledger.clock ≤ later) :
      Step ledger { ledger with clock := later }
  | grant (ledger : Ledger K H T) (h : H) (k : K) (ending : T)
      (hNew : ledger.term h = none)
      (hFree : ∀ other, ledger.holder k = some other → ¬ ledger.Running other k) :
      Step ledger
        { ledger with
          holder := Function.update ledger.holder k (some h)
          term := Function.update ledger.term h (some (k, ending)) }
  | giveUp (ledger : Ledger K H T) (h : H) :
      Step ledger { ledger with stopped := fun other => other = h ∨ ledger.stopped other }
  | release (ledger : Ledger K H T) (h : H) (k : K) (hHolder : ledger.holder k = some h) :
      Step ledger
        { ledger with
          holder := Function.update ledger.holder k none
          stopped := fun other => other = h ∨ ledger.stopped other }

/-- Every fair move keeps a ledger sound. -/
theorem Step.sound (hStep : Step ledger ledger') (hSound : ledger.Sound) :
    ledger'.Sound := by
  cases hStep with
  | wait later hLater =>
      rintro h k ⟨ending, hTerm, hOver, hClock⟩
      exact hSound h k ⟨ending, hTerm, hOver, le_trans hLater hClock⟩
  | grant new key ending hNew hFree =>
      rintro h k ⟨ending', hTerm, hOver, hClock⟩
      by_cases hSame : h = new
      · subst hSame
        simp only [Function.update_self, Option.some.injEq, Prod.mk.injEq] at hTerm
        simp [hTerm.1]
      · simp only [Function.update_of_ne hSame] at hTerm
        have hRunning : ledger.Running h k := ⟨ending', hTerm, hOver, hClock⟩
        have hHolder := hSound h k hRunning
        -- The key was not granted away, since the term of its holder runs.
        have hOther : k ≠ key := by
          rintro rfl
          exact hFree h hHolder hRunning
        simpa [Function.update_of_ne hOther] using hHolder
  | giveUp giver =>
      rintro h k ⟨ending, hTerm, hOver, hClock⟩
      exact hSound h k ⟨ending, hTerm, fun hOld => hOver (Or.inr hOld), hClock⟩
  | release giver key hHolder =>
      rintro h k ⟨ending, hTerm, hOver, hClock⟩
      have hKept := hSound h k ⟨ending, hTerm, fun hOld => hOver (Or.inr hOld), hClock⟩
      have hOther : k ≠ key := by
        rintro rfl
        exact hOver (Or.inl (Option.some.inj (hKept.symm.trans hHolder)))
      simpa [Function.update_of_ne hOther] using hKept

/-- The ledger was reached by fair moves. -/
def Reachable (clock : T) (ledger : Ledger K H T) : Prop :=
  Relation.ReflTransGen Step (empty clock) ledger

theorem Reachable.sound {clock : T} (hReachable : Reachable clock ledger) :
    ledger.Sound := by
  induction hReachable with
  | refl => exact sound_empty clock
  | tail _ hStep ih => exact hStep.sound ih

/-- **Fair leases exclude each other.** -/
theorem exclusive_of_reachable {clock : T} (hReachable : Reachable clock ledger)
    (hRunning : ledger.Running h k) (hOther : ledger.Running other k) : h = other :=
  Option.some.inj
    ((hReachable.sound h k hRunning).symm.trans (hReachable.sound other k hOther))

end Ledger

end Leasing
