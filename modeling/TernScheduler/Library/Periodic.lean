import Mathlib.Order.Bounds.Basic
import Mathlib.Tactic.Common
import Mathlib.Tactic.Linarith

/-!
# Listed values of a periodic field

A field that runs through the values `base, …, base + period - 1` over and over has at
`n` the value `base + n % period`.  Some of its values are listed, in increasing order.

* `Periodic.find_isLeast`: the first element of an increasing list that is not less than
  a bound is the least one.
* `Periodic.nextListed` computes the next number at which the field has a listed value,
  wrapping around after the last one; `Periodic.nextListed_isLeast` says so.
-/

namespace Periodic

/-- The listed values: some values of the field, in increasing order. -/
structure Values (period base : Int) (values : List Int) : Prop where
  nonempty : values ≠ []
  sorted : values.Pairwise (· < ·)
  bounds : ∀ value ∈ values, base ≤ value ∧ value < base + period

instance (period base : Int) (values : List Int) : Decidable (Values period base values) :=
  decidable_of_iff (values ≠ [] ∧ values.Pairwise (· < ·) ∧
      ∀ value ∈ values, base ≤ value ∧ value < base + period)
    ⟨fun h => ⟨h.1, h.2.1, h.2.2⟩, fun h => ⟨h.nonempty, h.sorted, h.bounds⟩⟩

/-- Values of the field in increasing order; there may be none. -/
structure Ordered (period base : Int) (values : List Int) : Prop where
  sorted : values.Pairwise (· < ·)
  bounds : ∀ value ∈ values, base ≤ value ∧ value < base + period

theorem Values.ordered {period base : Int} {values : List Int} (h : Values period base values) :
    Ordered period base values := ⟨h.sorted, h.bounds⟩

theorem Ordered.values {period base : Int} {values : List Int} (h : Ordered period base values)
    (hNonempty : values ≠ []) : Values period base values := ⟨hNonempty, h.sorted, h.bounds⟩

/-- In an increasing list the first element that is not less than a bound is the least
one. -/
theorem find_isLeast {values : List Int} (hSorted : values.Pairwise (· < ·))
    {bound value : Int} (hFind : values.find? (bound ≤ ·) = some value) :
    IsLeast {v | v ∈ values ∧ bound ≤ v} value := by
  induction values with
  | nil => cases hFind
  | cons first rest ih =>
      obtain ⟨hFirst, hRest⟩ := List.pairwise_cons.mp hSorted
      by_cases hLe : bound ≤ first
      · rw [List.find?_cons_of_pos (by simpa using hLe)] at hFind
        cases hFind
        refine ⟨⟨List.mem_cons_self, hLe⟩, ?_⟩
        rintro v ⟨hv, -⟩
        cases List.mem_cons.mp hv with
        | inl hEq => exact hEq.ge
        | inr hMem => exact (hFirst v hMem).le
      · rw [List.find?_cons_of_neg (by simpa using hLe)] at hFind
        obtain ⟨⟨hMem, hBound⟩, hLeast⟩ := ih hRest hFind
        refine ⟨⟨List.mem_cons_of_mem _ hMem, hBound⟩, ?_⟩
        rintro v ⟨hv, hv'⟩
        cases List.mem_cons.mp hv with
        | inl hEq => exact absurd (hEq ▸ hv') hLe
        | inr hMem => exact hLeast ⟨hMem, hv'⟩

/-- A listed bound is its own first element. -/
theorem find_eq_self {values : List Int} (hSorted : values.Pairwise (· < ·))
    {bound : Int} (hMem : bound ∈ values) : values.find? (bound ≤ ·) = some bound := by
  cases hFind : values.find? (bound ≤ ·) with
  | none => simpa using List.find?_eq_none.mp hFind bound hMem
  | some value =>
      obtain ⟨⟨-, hBound⟩, hLeast⟩ := find_isLeast hSorted hFind
      rw [le_antisymm (hLeast ⟨hMem, le_rfl⟩) hBound]

/-- The head of an increasing list is its least element. -/
theorem head_isLeast {values : List Int} (hSorted : values.Pairwise (· < ·))
    {value : Int} (hHead : values.head? = some value) :
    IsLeast {v | v ∈ values} value := by
  cases values with
  | nil => cases hHead
  | cons first rest =>
      cases hHead
      obtain ⟨hFirst, -⟩ := List.pairwise_cons.mp hSorted
      refine ⟨List.mem_cons_self, ?_⟩
      intro v hv
      cases List.mem_cons.mp hv with
      | inl hEq => exact hEq.ge
      | inr hMem => exact (hFirst v hMem).le

/-- The next number from `n` on at which the field has a listed value. -/
def nextListed (period base : Int) (values : List Int) (n : Int) : Int :=
  match values.find? (base + n % period ≤ ·) with
  | some value => n + (value - (base + n % period))
  | none => n + (values.headD base - (base + n % period) + period)

section

variable {period base : Int} {values : List Int}

theorem Values.exists_head (h : Values period base values) :
    ∃ value, values.head? = some value := by
  cases values with
  | nil => exact absurd rfl h.nonempty
  | cons first rest => exact ⟨first, rfl⟩

theorem Values.period_pos (h : Values period base values) : 0 < period := by
  obtain ⟨value, hHead⟩ := h.exists_head
  have := h.bounds value (List.mem_of_head? hHead)
  omega

/-- The field at a number written as a multiple of the period and a rest. -/
theorem emod_of_split {q r : Int} (hr : 0 ≤ r) (hLt : r < period) :
    (period * q + r) % period = r := by
  rw [Int.mul_add_emod_self_left]
  exact Int.emod_eq_of_lt hr hLt

theorem nextListed_isLeast (h : Values period base values) (n : Int) :
    IsLeast {m | n ≤ m ∧ base + m % period ∈ values} (nextListed period base values n) := by
  have hPos := h.period_pos
  have hSplit := Int.mul_ediv_add_emod n period
  have hMod := Int.emod_nonneg n hPos.ne'
  unfold nextListed
  split
  · next value hFind =>
      -- a later value of the same period
      obtain ⟨⟨hMem, hBound⟩, hLeast⟩ := find_isLeast h.sorted hFind
      have hValue := h.bounds value hMem
      have hNext : n + (value - (base + n % period)) =
          period * (n / period) + (value - base) := by linarith
      refine ⟨⟨by linarith, ?_⟩, ?_⟩
      · rw [hNext, emod_of_split (by linarith) (by linarith)]
        simpa using hMem
      · rintro m ⟨hm, hListed⟩
        have hq : n / period ≤ m / period := Int.ediv_le_ediv hPos hm
        have hMSplit := Int.mul_ediv_add_emod m period
        rcases hq.eq_or_lt with hEq | hLt
        · rw [← hEq] at hMSplit
          have := hLeast ⟨hListed, by linarith⟩
          linarith
        · have hMul : period * (n / period + 1) ≤ period * (m / period) :=
            Int.mul_le_mul_of_nonneg_left (by omega) hPos.le
          have := Int.emod_nonneg m hPos.ne'
          rw [mul_add] at hMul
          linarith
  · next hFind =>
      -- no value is left in this period
      obtain ⟨value, hHead⟩ := h.exists_head
      obtain ⟨hMem, hLeast⟩ := head_isLeast h.sorted hHead
      have hValue := h.bounds value hMem
      have hAll : ∀ v ∈ values, v < base + n % period := by
        simpa using List.find?_eq_none.mp hFind
      rw [List.headD_eq_head?_getD, hHead, Option.getD_some]
      have hNext : n + (value - (base + n % period) + period) =
          period * (n / period + 1) + (value - base) := by linarith
      refine ⟨⟨?_, ?_⟩, ?_⟩
      · have := Int.emod_lt_of_pos n hPos
        linarith
      · rw [hNext, emod_of_split (by linarith) (by linarith)]
        simpa using hMem
      · rintro m ⟨hm, hListed⟩
        have hq : n / period ≤ m / period := Int.ediv_le_ediv hPos hm
        have hMSplit := Int.mul_ediv_add_emod m period
        have hFirst := hLeast hListed
        rcases hq.eq_or_lt with hEq | hLt
        · rw [← hEq] at hMSplit
          have := hAll _ hListed
          linarith
        · have hMul : period * (n / period + 1) ≤ period * (m / period) :=
            Int.mul_le_mul_of_nonneg_left (by omega) hPos.le
          linarith

theorem le_nextListed (h : Values period base values) (n : Int) :
    n ≤ nextListed period base values n := (nextListed_isLeast h n).1.1

/-- The next listed value comes within one period: after the least number of steps at which
the field has one. -/
theorem exists_steps_nextListed (h : Values period base values) (n : Int) :
    ∃ steps : Nat, nextListed period base values n = n + steps ∧ (steps : Int) < period ∧
      IsLeast {k : Nat | base + (n + k) % period ∈ values} steps := by
  obtain ⟨⟨hLe, hMem⟩, hLeast⟩ := nextListed_isLeast h n
  obtain ⟨steps, hSteps⟩ := Int.eq_ofNat_of_zero_le (sub_nonneg.mpr hLe)
  have hNext : nextListed period base values n = n + steps := by linarith
  refine ⟨steps, hNext, ?_, ?_, ?_⟩
  · -- the number a whole period before is not listed, or it comes before `n`
    by_contra hFar
    have hBefore : base + (n + steps - period) % period ∈ values := by
      rw [Int.sub_emod_right, ← hNext]
      exact hMem
    have := hLeast ⟨by linarith, hBefore⟩
    have := h.period_pos
    linarith
  · show base + (n + (steps : Int)) % period ∈ values
    rw [← hNext]
    exact hMem
  · intro k hk
    have := hLeast (show n + (k : Int) ∈ {m | n ≤ m ∧ base + m % period ∈ values} from
      ⟨by linarith [Int.natCast_nonneg k], hk⟩)
    rw [hNext] at this
    exact Int.ofNat_le.mp (by linarith)

end

end Periodic
