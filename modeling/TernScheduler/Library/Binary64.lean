import Mathlib.Data.Int.Log
import Mathlib.Data.Rat.Floor
import Mathlib.Algebra.Order.Field.Power
import Mathlib.Tactic.Linarith
import Mathlib.Tactic.Positivity
import Mathlib.Tactic.Ring

/-!
# Rounding to binary64

The rounding of a rational number to 53 binary digits, with ties to even, and with the least
exponent of the format; the greatest one is left to the user.

* `Binary64.round` rounds to a multiple of two to the power of `Binary64.lastPlace`.
* `Binary64.round_round`: a rounded number stays as it is.
* `Binary64.round_add_increases`: an addend that moves a negative number twice moves it on,
  also where the addend is small against the distance of the rounded numbers.
-/

namespace Binary64

/-! ## The nearest integer -/

/-- The nearest integer, and of two the even one. -/
def halfEven (q : ℚ) : ℤ :=
  if q - ⌊q⌋ < 1 / 2 ∨ q - ⌊q⌋ = 1 / 2 ∧ ⌊q⌋ % 2 = 0 then ⌊q⌋ else ⌊q⌋ + 1

@[simp] theorem halfEven_intCast (n : ℤ) : halfEven (n : ℚ) = n := by
  unfold halfEven
  rw [Int.floor_intCast, sub_self, if_pos (Or.inl (by norm_num))]

theorem halfEven_error (q : ℚ) : |(halfEven q : ℚ) - q| ≤ 1 / 2 := by
  have hLow := Int.floor_le q
  have hHigh := Int.lt_floor_add_one q
  unfold halfEven
  rw [abs_le]
  split
  · rename_i hNear
    rcases hNear with hLess | ⟨hTie, -⟩
    · constructor <;> linarith
    · constructor <;> linarith
  · rename_i hFar
    have hMore : 1 / 2 ≤ q - ⌊q⌋ := not_lt.mp fun hLess => hFar (Or.inl hLess)
    push_cast
    constructor <;> linarith

/-- In the middle between two integers the even one is taken. -/
theorem halfEven_even_of_tie {q : ℚ} (hTie : |(halfEven q : ℚ) - q| = 1 / 2) :
    halfEven q % 2 = 0 := by
  have hLow := Int.floor_le q
  have hHigh := Int.lt_floor_add_one q
  unfold halfEven at hTie ⊢
  split at hTie
  · rename_i hNear
    rw [if_pos hNear]
    rcases hNear with hLess | ⟨-, hEven⟩
    · rw [abs_sub_comm, abs_of_nonneg (sub_nonneg.mpr hLow)] at hTie
      exact absurd hTie hLess.ne
    · exact hEven
  · rename_i hFar
    rw [if_neg hFar]
    push_cast at hTie
    rw [abs_of_nonneg (by linarith)] at hTie
    have hHalf : q - ⌊q⌋ = 1 / 2 := by linarith
    have hOdd : ¬ ⌊q⌋ % 2 = 0 := fun hEven => hFar (Or.inr ⟨hHalf, hEven⟩)
    omega

theorem le_halfEven {n : ℤ} {q : ℚ} (hLe : (n : ℚ) ≤ q) : n ≤ halfEven q := by
  have hFloor : n ≤ ⌊q⌋ := Int.le_floor.mpr hLe
  unfold halfEven
  split <;> omega

theorem halfEven_le {n : ℤ} {q : ℚ} (hLe : q ≤ n) : halfEven q ≤ n := by
  rcases hLe.eq_or_lt with rfl | hLt
  · rw [halfEven_intCast]
  · have hFloor : ⌊q⌋ < n := Int.floor_lt.mpr hLt
    unfold halfEven
    split <;> omega

/-- The rounding is symmetric. -/
theorem halfEven_neg (q : ℚ) : halfEven (-q) = -halfEven q := by
  by_cases hWhole : (⌊q⌋ : ℚ) = q
  · rw [← hWhole, ← Int.cast_neg, halfEven_intCast, halfEven_intCast]
  · have hLow := lt_of_le_of_ne (Int.floor_le q) hWhole
    have hHigh := Int.lt_floor_add_one q
    have hFloor : ⌊-q⌋ = -⌊q⌋ - 1 := by
      rw [Int.floor_eq_iff]
      push_cast
      constructor <;> linarith
    unfold halfEven
    rw [hFloor]
    push_cast
    rcases lt_trichotomy (q - ⌊q⌋) (1 / 2) with hLess | hTie | hMore
    · rw [if_neg (by rintro (hNear | ⟨hNear, -⟩) <;> linarith), if_pos (Or.inl hLess)]
      ring
    · -- in the middle, one of the two floors is even
      by_cases hEven : ⌊q⌋ % 2 = 0
      · rw [if_neg, if_pos (Or.inr ⟨hTie, hEven⟩)]
        · ring
        · rintro (hNear | ⟨-, hOther⟩)
          · linarith
          · omega
      · rw [if_pos (Or.inr ⟨by linarith, by omega⟩), if_neg]
        · ring
        · rintro (hNear | ⟨-, hSame⟩)
          · linarith
          · exact hEven hSame
    · rw [if_pos (Or.inl (by linarith)), if_neg (by rintro (hNear | ⟨hNear, -⟩) <;> linarith)]
      ring

/-! ## The last place -/

/-- The exponent of the last of 53 binary digits, or the least one there is. -/
def lastPlace (q : ℚ) : ℤ := max (Int.log 2 |q| - 52) (-1074)

/-- The number rounded to its last place. -/
def round (q : ℚ) : ℚ := halfEven (q / 2 ^ lastPlace q) * 2 ^ lastPlace q

theorem two_zpow_pos (e : ℤ) : (0 : ℚ) < 2 ^ e := zpow_pos two_pos e

theorem le_lastPlace (q : ℚ) : -1074 ≤ lastPlace q := le_max_right _ _

theorem lastPlace_mono {q r : ℚ} (hZero : q ≠ 0) (hLe : |q| ≤ |r|) :
    lastPlace q ≤ lastPlace r :=
  max_le_max_right _ (Int.sub_le_sub_right (Int.log_mono_right (abs_pos.mpr hZero) hLe) 52)

/-- A number has no more than 53 digits before its last place. -/
theorem abs_lt_lastPlace (q : ℚ) : |q| < 2 ^ (lastPlace q + 53) := by
  have hLog := @Int.lt_zpow_succ_log_self ℚ _ _ _ _ 2 (by decide) |q|
  refine hLog.trans_le ?_
  rw [Nat.cast_ofNat]
  exact zpow_le_zpow_right₀ one_le_two (by unfold lastPlace; omega)

/-- A number below two to a power has its last place 53 digits below that. -/
theorem lastPlace_le {q : ℚ} {e : ℤ} (hZero : q ≠ 0) (hLt : |q| < 2 ^ (e + 53))
    (hLow : -1074 ≤ e) : lastPlace q ≤ e := by
  have hLog : Int.log 2 |q| < e + 53 :=
    (Int.lt_zpow_iff_log_lt (by decide) (abs_pos.mpr hZero)).mp (by exact_mod_cast hLt)
  exact max_le (by omega) hLow

/-- A multiple of a power of two is one of every smaller power. -/
theorem exists_mul_of_le {e e' : ℤ} (hLe : e' ≤ e) (m : ℤ) :
    ∃ k : ℤ, (m : ℚ) * 2 ^ e = k * 2 ^ e' := by
  obtain ⟨d, hd⟩ := Int.eq_ofNat_of_zero_le (sub_nonneg.mpr hLe)
  refine ⟨m * 2 ^ d, ?_⟩
  rw [show e = (d : ℤ) + e' by omega, zpow_add₀ two_ne_zero, zpow_natCast]
  push_cast
  ring

/-! ## The rounded numbers -/

/-- A rounded number has at most 53 digits. -/
theorem exists_round_eq (q : ℚ) :
    ∃ m : ℤ, |m| ≤ 2 ^ 53 ∧ round q = m * 2 ^ lastPlace q := by
  refine ⟨halfEven (q / 2 ^ lastPlace q), ?_, rfl⟩
  have hScaled : |q / 2 ^ lastPlace q| < 2 ^ 53 := by
    rw [abs_div, abs_of_pos (two_zpow_pos _), div_lt_iff₀ (two_zpow_pos _), ← zpow_natCast,
      ← zpow_add₀ two_ne_zero, add_comm]
    exact abs_lt_lastPlace q
  obtain ⟨hLow, hHigh⟩ := abs_lt.mp hScaled
  refine abs_le.mpr ⟨?_, ?_⟩
  · exact le_halfEven (by push_cast; exact hLow.le)
  · exact halfEven_le (by push_cast; exact hHigh.le)

theorem round_error (q : ℚ) : |round q - q| ≤ 2 ^ lastPlace q / 2 := by
  have hPos := two_zpow_pos (lastPlace q)
  have hError := halfEven_error (q / 2 ^ lastPlace q)
  have hScaled : round q - q =
      (halfEven (q / 2 ^ lastPlace q) - q / 2 ^ lastPlace q) * 2 ^ lastPlace q := by
    rw [round, sub_mul, div_mul_cancel₀ _ hPos.ne']
  rw [hScaled, abs_mul, abs_of_pos hPos]
  linarith [mul_le_mul_of_nonneg_right hError hPos.le]

theorem round_neg (q : ℚ) : round (-q) = -round q := by
  have hPlace : lastPlace (-q) = lastPlace q := by
    rw [lastPlace, lastPlace, abs_neg]
  rw [round, round, hPlace, neg_div, halfEven_neg, Int.cast_neg, neg_mul]

/-- A multiple of its last place stays as it is. -/
theorem round_of_mul {x : ℚ} {k : ℤ} (hMul : x = k * 2 ^ lastPlace x) : round x = x := by
  have hScaled : x / 2 ^ lastPlace x = k := by
    rw [div_eq_iff (two_zpow_pos _).ne']
    exact hMul
  rw [round, hScaled, halfEven_intCast]
  exact hMul.symm

@[simp] theorem round_zero : round 0 = 0 := by
  rw [round, zero_div, ← Int.cast_zero, halfEven_intCast, Int.cast_zero, zero_mul]

/-- A number of at most 53 digits stays as it is. -/
theorem round_exact {m e : ℤ} (hDigits : |m| ≤ 2 ^ 53) (hLow : -1074 ≤ e) :
    round ((m : ℚ) * 2 ^ e) = m * 2 ^ e := by
  rcases eq_or_ne m 0 with rfl | hZero
  · simp
  · have hNonzero : (m : ℚ) * 2 ^ e ≠ 0 :=
      mul_ne_zero (Int.cast_ne_zero.mpr hZero) (two_zpow_pos e).ne'
    have hAbs : |(m : ℚ) * 2 ^ e| = (|m| : ℤ) * 2 ^ e := by
      rw [abs_mul, abs_of_pos (two_zpow_pos e), Int.cast_abs]
    rcases hDigits.eq_or_lt with hLast | hLess
    · -- the one number of 54 digits has its last place one further up
      have hPlace : lastPlace ((m : ℚ) * 2 ^ e) ≤ e + 1 := by
        refine lastPlace_le hNonzero ?_ (by omega)
        rw [hAbs, hLast, show e + 1 + 53 = 54 + e by omega, zpow_add₀ two_ne_zero]
        push_cast
        exact mul_lt_mul_of_pos_right (by norm_num) (two_zpow_pos e)
      have hHalf : (m : ℚ) * 2 ^ e = (m / 2 : ℤ) * 2 ^ (e + 1) := by
        have hEven : m / 2 * 2 = m := by
          rcases abs_choice m with hSign | hSign <;> omega
        rw [zpow_add₀ two_ne_zero, zpow_one, mul_comm ((2 : ℚ) ^ e) 2, ← mul_assoc]
        congr 1
        exact_mod_cast hEven.symm
      -- half of it is a number of 53 digits, one place up
      obtain ⟨k, hk⟩ := exists_mul_of_le hPlace (m / 2)
      exact round_of_mul (hHalf.trans hk)
    · have hPlace : lastPlace ((m : ℚ) * 2 ^ e) ≤ e := by
        refine lastPlace_le hNonzero ?_ hLow
        rw [hAbs, add_comm, zpow_add₀ two_ne_zero]
        exact mul_lt_mul_of_pos_right (by exact_mod_cast hLess) (two_zpow_pos e)
      obtain ⟨k, hk⟩ := exists_mul_of_le hPlace m
      exact round_of_mul hk

/-- **A rounded number stays as it is.** -/
@[simp] theorem round_round (q : ℚ) : round (round q) = round q := by
  obtain ⟨m, hDigits, hRound⟩ := exists_round_eq q
  rw [hRound]
  exact round_exact hDigits (le_lastPlace q)

/-- An integer of at most 53 digits stays as it is. -/
theorem round_intCast {n : ℤ} (hDigits : |n| ≤ 2 ^ 53) : round (n : ℚ) = n := by
  have hExact := round_exact hDigits (show (-1074 : ℤ) ≤ 0 by decide)
  rwa [zpow_zero, mul_one] at hExact

theorem round_nonneg {q : ℚ} (hNonneg : 0 ≤ q) : 0 ≤ round q := by
  have hScaled : ((0 : ℤ) : ℚ) ≤ q / 2 ^ lastPlace q := by
    rw [Int.cast_zero]
    exact div_nonneg hNonneg (two_zpow_pos _).le
  exact mul_nonneg (Int.cast_nonneg (le_halfEven hScaled)) (two_zpow_pos _).le

/-- Rounding does not take a number below an integer of at most 53 digits. -/
theorem le_round {n : ℕ} {q : ℚ} (hDigits : n ≤ 2 ^ 53) (hLe : (n : ℚ) ≤ q) :
    (n : ℚ) ≤ round q := by
  rcases le_or_gt (lastPlace q) 0 with hFine | hCoarse
  · obtain ⟨k, hk⟩ := exists_mul_of_le hFine n
    rw [zpow_zero, mul_one, Int.cast_natCast] at hk
    have hScaled : (k : ℚ) ≤ q / 2 ^ lastPlace q := by
      rwa [le_div_iff₀ (two_zpow_pos _), ← hk]
    calc (n : ℚ) = k * 2 ^ lastPlace q := hk
      _ ≤ round q :=
        mul_le_mul_of_nonneg_right (Int.cast_le.mpr (le_halfEven hScaled)) (two_zpow_pos _).le
  · -- the number has its first digit above all those of the integer
    have hPos : 0 < q := by
      rcases (le_trans (Nat.cast_nonneg n) hLe).eq_or_lt with rfl | hPos
      · unfold lastPlace at hCoarse
        rw [abs_zero, Int.log_zero_right] at hCoarse
        omega
      · exact hPos
    have hPlace : lastPlace q = Int.log 2 |q| - 52 := by
      unfold lastPlace at hCoarse ⊢
      omega
    have hLog := @Int.zpow_log_le_self ℚ _ _ _ _ 2 |q| (by decide) (abs_pos.mpr hPos.ne')
    rw [abs_of_pos hPos, Nat.cast_ofNat] at hLog
    rw [abs_of_pos hPos] at hPlace
    have hScaled : ((2 ^ 52 : ℤ) : ℚ) ≤ q / 2 ^ lastPlace q := by
      rw [le_div_iff₀ (two_zpow_pos _), hPlace, Int.cast_pow, Int.cast_ofNat, ← zpow_natCast,
        ← zpow_add₀ two_ne_zero]
      exact le_of_eq_of_le (by congr 1; omega) hLog
    -- its last place is worth two at least, so it is above 2 ^ 53
    have hTwo : (2 : ℚ) ≤ 2 ^ lastPlace q := by
      calc (2 : ℚ) = 2 ^ (1 : ℤ) := (zpow_one 2).symm
        _ ≤ 2 ^ lastPlace q := zpow_le_zpow_right₀ one_le_two (by omega)
    have hFirst : ((2 ^ 52 : ℤ) : ℚ) ≤ halfEven (q / 2 ^ lastPlace q) :=
      Int.cast_le.mpr (le_halfEven hScaled)
    calc (n : ℚ) ≤ (2 ^ 52 : ℤ) * 2 := by exact_mod_cast hDigits
      _ ≤ round q := mul_le_mul hFirst hTwo two_pos.le ((Int.cast_nonneg (by decide)).trans hFirst)

/-- An integer that is rounded to one below 53 digits is that one. -/
theorem eq_of_round_natCast {m n : ℕ} (hDigits : n < 2 ^ 53) (hRound : round (m : ℚ) = n) :
    m = n := by
  rcases le_total m (2 ^ 53) with hFew | hMany
  · have hSame : round ((m : ℤ) : ℚ) = (m : ℤ) :=
      round_intCast (by rw [Nat.abs_cast]; exact_mod_cast hFew)
    rw [Int.cast_natCast] at hSame
    exact_mod_cast hSame.symm.trans hRound
  · have hLow := le_round (n := 2 ^ 53) le_rfl (show ((2 ^ 53 : ℕ) : ℚ) ≤ m by exact_mod_cast hMany)
    rw [hRound] at hLow
    exact absurd hDigits (Nat.not_lt.mpr (by exact_mod_cast hLow))

theorem rounded_neg {x : ℚ} (hRounded : round x = x) : round (-x) = -x := by
  rw [round_neg, hRounded]

theorem round_nonpos {q : ℚ} (hNonpos : q ≤ 0) : round q ≤ 0 := by
  have hOpposite := round_nonneg (neg_nonneg.mpr hNonpos)
  rw [round_neg] at hOpposite
  exact neg_nonneg.mp hOpposite

/-- Every rounded number is a multiple of the least one. -/
theorem exists_mul_of_rounded {x : ℚ} (hRounded : round x = x) :
    ∃ k : ℤ, x = k * 2 ^ (-1074 : ℤ) := by
  obtain ⟨m, -, hRound⟩ := exists_round_eq x
  obtain ⟨k, hk⟩ := exists_mul_of_le (le_lastPlace x) m
  exact ⟨k, hRounded.symm.trans (hRound.trans hk)⟩

/-! ## Adding to a negative number -/

section

variable {x addend : ℚ}

/-- A rounded negative number is a multiple of the last place of a greater one. -/
theorem exists_mul_lastPlace_add (hRounded : round x = x) (hAddend : 0 < addend)
    (hNeg : x + addend < 0) : ∃ m : ℤ, x = m * 2 ^ lastPlace (x + addend) := by
  obtain ⟨m, -, hRound⟩ := exists_round_eq x
  have hLe : |x + addend| ≤ |x| := by
    rw [abs_of_neg hNeg, abs_of_neg (by linarith)]
    linarith
  obtain ⟨k, hk⟩ := exists_mul_of_le (lastPlace_mono hNeg.ne hLe) m
  exact ⟨k, hRounded.symm.trans (hRound.trans hk)⟩

/-- The sum is not less than the number. -/
theorem le_round_add (hRounded : round x = x) (hAddend : 0 < addend) (hLow : x ≤ 0) :
    x ≤ round (x + addend) := by
  rcases le_or_gt 0 (x + addend) with hNonneg | hNeg
  · exact hLow.trans (round_nonneg hNonneg)
  · obtain ⟨m, hm⟩ := exists_mul_lastPlace_add hRounded hAddend hNeg
    have hPos := two_zpow_pos (lastPlace (x + addend))
    have hScaled : (m : ℚ) ≤ (x + addend) / 2 ^ lastPlace (x + addend) := by
      rw [le_div_iff₀ hPos, ← hm]
      linarith
    calc x = m * 2 ^ lastPlace (x + addend) := hm
      _ ≤ round (x + addend) :=
        mul_le_mul_of_nonneg_right (Int.cast_le.mpr (le_halfEven hScaled)) hPos.le

/-- An addend of at most half the last place is lost, or it is exactly half of it, and takes
the number to the next one, which is even. -/
theorem round_add_of_small (hRounded : round x = x) (hAddend : 0 < addend)
    (hNeg : x + addend < 0) (hSmall : addend ≤ 2 ^ lastPlace (x + addend) / 2) :
    round (x + addend) = x ∨ addend = 2 ^ lastPlace (x + addend) / 2 ∧
      ∃ m : ℤ, m % 2 = 0 ∧ round (x + addend) = m * 2 ^ lastPlace (x + addend) ∧
        x = (m - 1 : ℤ) * 2 ^ lastPlace (x + addend) := by
  obtain ⟨m, hm⟩ := exists_mul_lastPlace_add hRounded hAddend hNeg
  have hPos := two_zpow_pos (lastPlace (x + addend))
  set unit : ℚ := 2 ^ lastPlace (x + addend) with hUnit
  have hScaled : (x + addend) / unit = m + addend / unit := by
    rw [hm, add_div, mul_div_cancel_right₀ _ hPos.ne']
  have hLow : 0 < addend / unit := div_pos hAddend hPos
  have hHigh : addend / unit ≤ 1 / 2 := by
    rw [div_le_iff₀ hPos]
    linarith
  have hLe : m ≤ halfEven ((x + addend) / unit) := le_halfEven (by rw [hScaled]; linarith)
  have hError := halfEven_error ((x + addend) / unit)
  have hNext : halfEven ((x + addend) / unit) ≤ m + 1 := by
    have hBound := (abs_le.mp hError).2
    rw [hScaled] at hBound ⊢
    have : (halfEven (m + addend / unit) : ℚ) ≤ (m + 1 : ℤ) := by
      push_cast
      linarith
    exact_mod_cast this
  have hRound : round (x + addend) = halfEven ((x + addend) / unit) * unit := rfl
  rcases hLe.eq_or_lt with hSame | hMore
  · left
    rw [hRound, ← hSame, ← hm]
  · have hOne : halfEven ((x + addend) / unit) = m + 1 := by omega
    -- the next multiple is taken, so the sum lies in the middle
    have hHalf : addend / unit = 1 / 2 := by
      have hBound := (abs_le.mp hError).2
      rw [hOne, hScaled] at hBound
      push_cast at hBound
      linarith
    have hTie : |(halfEven ((x + addend) / unit) : ℚ) - (x + addend) / unit| = 1 / 2 := by
      rw [hOne, hScaled, hHalf]
      push_cast
      rw [abs_of_nonneg (by linarith)]
      ring
    refine Or.inr ⟨?_, m + 1, hOne ▸ halfEven_even_of_tie hTie, ?_, ?_⟩
    · rw [div_eq_iff hPos.ne'] at hHalf
      linarith
    · rw [hRound, hOne]
    · rw [add_sub_cancel_right]
      exact hm

/-- **An addend that moves a negative number twice moves it on.**  It is more than half the
last place; or it is half of it, and takes an odd multiple to an even one, where it is
lost. -/
theorem round_add_increases {y z : ℚ} (hRounded : round x = x) (hAddend : 0 < addend)
    (hY : round (x + addend) = y) (hZ : round (y + addend) = z) (hFirst : x < y)
    (hSecond : y < z) (hNeg : z < 0) : z < round (z + addend) := by
  have hRoundedY : round y = y := by rw [← hY, round_round]
  have hRoundedZ : round z = z := by rw [← hZ, round_round]
  refine lt_of_le_of_ne (le_round_add hRoundedZ hAddend hNeg.le) fun hStuck => ?_
  have hNegZ : z + addend < 0 := by
    by_contra hNonneg
    have := round_nonneg (not_lt.mp hNonneg)
    linarith
  have hSmallZ : addend ≤ 2 ^ lastPlace (z + addend) / 2 := by
    have hError := (abs_le.mp (round_error (z + addend))).1
    rw [← hStuck] at hError
    linarith
  -- the last place of the sums does not grow
  have hPlace : ∀ {u v : ℚ}, u < v → v + addend < 0 →
      lastPlace (v + addend) ≤ lastPlace (u + addend) := by
    intro u v hLt hNegV
    refine lastPlace_mono hNegV.ne ?_
    rw [abs_of_neg hNegV, abs_of_neg (by linarith)]
    linarith
  have hPow : ∀ {e e' : ℤ}, e ≤ e' → (2 : ℚ) ^ e ≤ 2 ^ e' := fun hLe =>
    zpow_le_zpow_right₀ one_le_two hLe
  have hPowInj : ∀ {e e' : ℤ}, (2 : ℚ) ^ e ≤ 2 ^ e' → e ≤ e' := fun hLe =>
    (zpow_le_zpow_iff_right₀ one_lt_two).mp hLe
  have hYZ := hPlace hSecond hNegZ
  have hXY := hPlace hFirst (show y + addend < 0 by linarith)
  have hSmallY := hSmallZ.trans (div_le_div_of_nonneg_right (hPow hYZ) two_pos.le)
  have hSmallX := hSmallY.trans (div_le_div_of_nonneg_right (hPow hXY) two_pos.le)
  rcases round_add_of_small hRoundedY hAddend (by linarith) hSmallY with
    hLost | ⟨hHalfY, m, hEven, -, hOdd⟩
  · exact hSecond.ne' (hZ.symm.trans hLost)
  · rcases round_add_of_small hRounded hAddend (by linarith) hSmallX with
      hLost | ⟨hHalfX, n, hEven', hSum, -⟩
    · exact hFirst.ne' (hY.symm.trans hLost)
    · -- both sums have one last place, and the number between them is even and odd
      have hSame : lastPlace (x + addend) = lastPlace (y + addend) :=
        le_antisymm (hPowInj (by linarith)) hXY
      rw [hY, hSame] at hSum
      have hEq := mul_right_cancel₀ (two_zpow_pos _).ne' (hSum.symm.trans hOdd)
      have hInt : n = m - 1 := by exact_mod_cast hEq
      omega

end

/-! ## Adding to a number that is not negative -/

/-- Below 53 digits the last place is at most one. -/
theorem two_zpow_lastPlace_le {q : ℚ} (hPos : 0 < q) (hDigits : q < 2 ^ 53) :
    (2 : ℚ) ^ lastPlace q ≤ 1 := by
  have hPlace : lastPlace q ≤ 0 := by
    refine lastPlace_le hPos.ne' ?_ (by decide)
    rw [abs_of_pos hPos, zero_add]
    exact_mod_cast hDigits
  rw [← zpow_zero (2 : ℚ)]
  exact zpow_le_zpow_right₀ one_le_two hPlace

/-- Below 53 digits a number is rounded by less than one. -/
theorem round_lt_add_one {q : ℚ} (hPos : 0 < q) (hDigits : q < 2 ^ 53) : round q < q + 1 := by
  have hUnit := two_zpow_lastPlace_le hPos hDigits
  have hError := (abs_le.mp (round_error q)).2
  linarith

end Binary64
