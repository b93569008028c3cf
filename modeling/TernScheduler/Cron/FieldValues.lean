import TernScheduler.Cron.Rewriting

/-!
# The values of a field

What `convertStep` reads off a rewritten field, and what `removeDuplicates` leaves of it.

* `Number.whole` are the integers among the numbers; up to 53 digits they are compared and
  divided as integers.
* `removeDuplicates_map`: the result is strictly increasing, and holds the values in the range.
* `convertStep_small`: with small runs all that is read off is whole.
* `convertField_ordered`: the values of a field are in order and in its range, whatever the text.
-/

namespace TernScheduler

/-- A whole number. -/
def Number.whole (n : ℤ) : Number := .ofRat n

open Number (whole)

theorem whole_natCast (n : ℕ) : Number.ofRat n = whole n := by
  rw [whole, Int.cast_natCast]

theorem whole_le {m n : ℤ} (hM : |m| ≤ 2 ^ 53) (hN : |n| ≤ 2 ^ 53) :
    (whole m).le (whole n) = decide (m ≤ n) := Number.le_intCast hM hN

theorem whole_strictEq {m n : ℤ} (hM : |m| ≤ 2 ^ 53) (hN : |n| ≤ 2 ^ 53) :
    (whole m).strictEq (whole n) = decide (m = n) := Number.strictEq_intCast hM hN

theorem toInt_whole {n : ℤ} (hDigits : |n| ≤ 2 ^ 53) : (whole n).toInt = n := by
  rw [whole, Number.ofRat_intCast hDigits, Number.toInt, FiniteNumber.ofInt, Int.floor_intCast]

/-- Numbers that are whole one by one are so as a list. -/
theorem exists_map_whole {P : ℤ → Prop} {vals : List Number}
    (hWhole : ∀ v ∈ vals, ∃ n, P n ∧ v = whole n) :
    ∃ ns : List ℤ, vals = ns.map whole ∧ ∀ n ∈ ns, P n := by
  induction vals with
  | nil => exact ⟨[], rfl, fun n hMem => by cases hMem⟩
  | cons v vals ih =>
      obtain ⟨n, hN, rfl⟩ := hWhole v List.mem_cons_self
      obtain ⟨ns, rfl, hNs⟩ := ih fun w hMem => hWhole w (List.mem_cons_of_mem _ hMem)
      exact ⟨n :: ns, rfl, List.forall_mem_cons.mpr ⟨hN, hNs⟩⟩

/-! ## Sorting without duplicates -/

/-- The range holds the number. -/
def InNumberRange (range : Number × Number) (v : Number) : Prop :=
  range.1.le v = true ∧ v.le range.2 = true

instance (range : Number × Number) (v : Number) : Decidable (InNumberRange range v) :=
  inferInstanceAs (Decidable (_ ∧ _))

/-- A range of whole numbers holds the integers between its ends. -/
theorem inNumberRange_whole {range : ℕ × ℕ} (hLow : range.1 < 2 ^ 53) (hHigh : range.2 < 2 ^ 53)
    {n : ℤ} (hN : |n| ≤ 2 ^ 53) :
    InNumberRange (numberRange range) (whole n) ↔ range.1 ≤ n ∧ n ≤ range.2 := by
  have hFrom := @whole_le range.1 n (by rw [Nat.abs_cast]; omega) hN
  have hTo := @whole_le n range.2 hN (by rw [Nat.abs_cast]; omega)
  rw [← whole_natCast] at hFrom hTo
  rw [InNumberRange, numberRange, hFrom, hTo, decide_eq_true_iff, decide_eq_true_iff]

section Keep

variable {range : Number × Number} {rs : List ℤ} {n : ℤ}

/-- A turn of the loop of `removeDuplicates`, on integers. -/
def keep (range : Number × Number) (rs : List ℤ) (n : ℤ) : List ℤ :=
  if InNumberRange range (whole n) ∧ n ∉ rs then rs ++ [n] else rs

theorem map_keep (hN : |n| ≤ 2 ^ 53) (hRs : ∀ m ∈ rs, |m| ≤ 2 ^ 53) :
    (if range.1.le (whole n) && (whole n).le range.2 &&
        !(rs.map whole).any (·.strictEq (whole n)) then rs.map whole ++ [whole n]
      else rs.map whole) = (keep range rs n).map whole := by
  have hKnown : (rs.map whole).any (·.strictEq (whole n)) = decide (n ∈ rs) := by
    rw [Bool.eq_iff_iff, List.any_map, List.any_eq_true, decide_eq_true_iff]
    constructor
    · rintro ⟨m, hM, hSame⟩
      rw [Function.comp_apply, whole_strictEq (hRs m hM) hN, decide_eq_true_iff] at hSame
      exact hSame ▸ hM
    · intro hMem
      refine ⟨n, hMem, ?_⟩
      rw [Function.comp_apply, whole_strictEq hN hN, decide_eq_true rfl]
  have hTest : (range.1.le (whole n) && (whole n).le range.2 && !decide (n ∈ rs)) =
      decide (InNumberRange range (whole n) ∧ n ∉ rs) := by
    rw [Bool.eq_iff_iff, decide_eq_true_iff]
    simp [InNumberRange]
  rw [hKnown, hTest, keep]
  by_cases hNew : InNumberRange range (whole n) ∧ n ∉ rs
  · rw [if_pos (decide_eq_true hNew), if_pos hNew, List.map_append, List.map_singleton]
  · rw [if_neg (by simpa using hNew), if_neg hNew]

theorem mem_keep {m : ℤ} :
    m ∈ keep range rs n ↔ m ∈ rs ∨ m = n ∧ InNumberRange range (whole m) := by
  unfold keep
  split
  · rename_i hNew
    rw [List.mem_append, List.mem_singleton]
    refine or_congr_right ⟨fun hSame => ⟨hSame, hSame ▸ hNew.1⟩, And.left⟩
  · rename_i hOld
    refine (or_iff_left_of_imp ?_).symm
    rintro ⟨rfl, hIn⟩
    by_contra hMem
    exact hOld ⟨hIn, hMem⟩

theorem nodup_keep (hNodup : rs.Nodup) : (keep range rs n).Nodup := by
  unfold keep
  split
  · rename_i hNew
    exact List.nodup_append.mpr ⟨hNodup, List.nodup_singleton n, fun a hA b hB hSame =>
      hNew.2 (List.mem_singleton.mp hB ▸ hSame ▸ hA)⟩
  · exact hNodup

end Keep

/-- The loop of `removeDuplicates` on whole numbers. -/
theorem foldl_whole (range : Number × Number) {ns rs : List ℤ} (hNs : ∀ n ∈ ns, |n| ≤ 2 ^ 53)
    (hRs : ∀ n ∈ rs, |n| ≤ 2 ^ 53) (hNodup : rs.Nodup) :
    ∃ ret : List ℤ, (ns.map whole).foldl
        (fun ret v =>
          if range.1.le v && v.le range.2 && !ret.any (·.strictEq v) then ret ++ [v] else ret)
        (rs.map whole) = ret.map whole ∧ (∀ n ∈ ret, |n| ≤ 2 ^ 53) ∧ ret.Nodup ∧
      ∀ n, n ∈ ret ↔ n ∈ rs ∨ n ∈ ns ∧ InNumberRange range (whole n) := by
  induction ns generalizing rs with
  | nil => exact ⟨rs, rfl, hRs, hNodup, fun n => by simp⟩
  | cons n ns ih =>
      obtain ⟨hN, hNs'⟩ := List.forall_mem_cons.mp hNs
      have hKept : ∀ m ∈ keep range rs n, |m| ≤ 2 ^ 53 := by
        intro m hMem
        rcases mem_keep.mp hMem with hOld | ⟨rfl, -⟩
        · exact hRs m hOld
        · exact hN
      -- what is kept so far has no duplicates, so the result has none
      obtain ⟨ret, hRet, hDigits, hRetNodup, hMem⟩ := ih hNs' hKept (nodup_keep hNodup)
      rw [List.map_cons, List.foldl_cons, map_keep hN hRs]
      refine ⟨ret, hRet, hDigits, hRetNodup, fun m => ?_⟩
      rw [hMem, mem_keep, List.mem_cons, or_assoc, or_and_right]

theorem removeDuplicates_map (range : Number × Number) {ns : List ℤ}
    (hNs : ∀ n ∈ ns, |n| ≤ 2 ^ 53) :
    ∃ result : List ℤ, removeDuplicates (ns.map whole) range = result.map whole ∧
      result.Pairwise (· < ·) ∧ ∀ n, n ∈ result ↔ n ∈ ns ∧ InNumberRange range (whole n) := by
  obtain ⟨ret, hRet, hDigits, hNodup, hMem⟩ :=
    foldl_whole range hNs (fun n hMem => by cases hMem) List.nodup_nil
  refine ⟨ret.mergeSort (fun m n => decide (m ≤ n)), ?_, ?_, fun n => ?_⟩
  · rw [List.map_mergeSort fun m hM n hN => (whole_le (hDigits m hM) (hDigits n hN)).symm, ← hRet]
    rfl
  -- sorted by `≤`, and strictly as no value is there twice
  · have hSorted := @List.pairwise_mergeSort _ (fun m n : ℤ => decide (m ≤ n))
      (fun a b c hAB hBC => by simp only [decide_eq_true_eq] at *; exact hAB.trans hBC)
      (fun a b => by simpa using le_total a b) ret
    have hDistinct := (List.mergeSort_perm ret fun m n => decide (m ≤ n)).nodup_iff.mpr hNodup
    refine (hSorted.and hDistinct).imp fun hBoth => ?_
    exact lt_of_le_of_ne (of_decide_eq_true hBoth.1) hBoth.2
  · rw [List.mem_mergeSort, hMem]
    simp

/-! ## The fields of an expression -/

theorem allowedRange_small (field : CronField) :
    (allowedRange field).1 < 2 ^ 53 ∧ (allowedRange field).2 < 2 ^ 53 := by
  cases field <;> decide

theorem map_toInt_whole {ns : List ℤ} (hNs : ∀ n ∈ ns, |n| ≤ 2 ^ 53) :
    (ns.map whole).map Number.toInt = ns := by
  rw [List.map_map]
  exact (List.map_congr_left fun n hN => toInt_whole (hNs n hN)).trans (List.map_id _)

/-- Sundays are written as 0, and the other days stay. -/
theorem handleSundays_map {ns : List ℤ} (hNs : ∀ n ∈ ns, 0 ≤ n ∧ n ≤ 7) :
    ∃ result : List ℤ, handleSundays (ns.map whole) = result.map whole ∧
      result.Pairwise (· < ·) ∧ (∀ n ∈ result, |n| ≤ 2 ^ 53) ∧
      ∀ n, n ∈ result ↔ ∃ m ∈ ns, n = if m = 7 then 0 else m := by
  have hSmall : ∀ n : ℤ, 0 ≤ n → n ≤ 7 → |n| ≤ 2 ^ 53 := fun n hLow hHigh => by
    rw [abs_of_nonneg hLow]
    omega
  have hSunday : (ns.map whole).map (fun v => if v.strictEq (.ofRat 7) then .ofRat 0 else v) =
      (ns.map fun m => if m = 7 then 0 else m).map whole := by
    rw [List.map_map, List.map_map]
    refine List.map_congr_left fun m hM => ?_
    obtain ⟨hLow, hHigh⟩ := hNs m hM
    have hSeven := @whole_strictEq m 7 (hSmall m hLow hHigh) (by decide)
    have hText : whole (7 : ℤ) = Number.ofRat 7 := congrArg Number.ofRat (Int.cast_ofNat 7)
    rw [hText] at hSeven
    rw [Function.comp_apply, Function.comp_apply, hSeven]
    by_cases hSame : m = 7
    · rw [if_pos (decide_eq_true hSame), if_pos hSame, whole, Int.cast_zero]
    · rw [if_neg (by simpa using hSame), if_neg hSame]
  have hDay : ∀ n ∈ ns.map fun m => if m = 7 then 0 else m, 0 ≤ n ∧ n ≤ 6 := by
    intro n hMem
    obtain ⟨m, hM, rfl⟩ := List.mem_map.mp hMem
    have hRange := hNs m hM
    split <;> omega
  -- all days are in the range then, so none is dropped
  obtain ⟨result, hResult, hSorted, hMem⟩ := removeDuplicates_map (numberRange (0, 6))
    fun n hN => hSmall n (hDay n hN).1 (by have := hDay n hN; omega)
  have hIn : ∀ n, n ∈ result ↔ n ∈ ns.map fun m => if m = 7 then 0 else m := by
    intro n
    rw [hMem, and_iff_left_iff_imp]
    intro hN
    obtain ⟨hLow, hHigh⟩ := hDay n hN
    exact (@inNumberRange_whole (0, 6) (by decide) (by decide) n
      (hSmall n hLow (by omega))).mpr ⟨hLow, hHigh⟩
  refine ⟨result, ?_, hSorted, fun n hN => ?_, fun n => ?_⟩
  · rw [handleSundays, hSunday, hResult]
  · obtain ⟨hLow, hHigh⟩ := hDay n ((hIn n).mp hN)
    exact hSmall n hLow (by omega)
  · rw [hIn, List.mem_map]
    simp only [eq_comm]

/-! ## The parts between commas -/

theorem smallRuns_of_intercalate {texts : List (List Char)}
    (hSmall : SmallRuns ([','].intercalate texts)) : ∀ text ∈ texts, SmallRuns text := by
  induction texts with
  | nil => exact fun text hMem => by cases hMem
  | cons text texts ih =>
      cases texts with
      | nil =>
          rw [List.intercalate_singleton] at hSmall
          exact List.forall_mem_singleton.mpr hSmall
      | cons other texts =>
          rw [List.intercalate_cons_cons, List.append_assoc, List.singleton_append,
            smallRuns_append_cons rfl] at hSmall
          exact List.forall_mem_cons.mpr ⟨hSmall.1, ih hSmall.2⟩

/-- A part with small runs is read as NaN or as a whole number of at most 53 digits. -/
theorem parseInt_small {part : List Char} (hSmall : SmallRuns part) :
    parseInt part = .nan ∨ ∃ n : ℤ, |n| < 2 ^ 53 ∧ parseInt part = whole n := by
  refine (parseInt_cases part).imp_right ?_
  rintro ⟨before, digits, after, rfl, hBefore, hDigits, hAfter, n, hAbs, hNumber⟩
  refine ⟨n, ?_, hNumber⟩
  have hLast : ∀ c ∈ before.getLast?, c.isDigit = false := fun c hMem =>
    hBefore c (List.mem_of_mem_getLast? hMem)
  rw [smallRuns_append_right hLast, smallRuns_append_left hAfter,
    smallRuns_digits hDigits] at hSmall
  rw [Int.abs_eq_natAbs, hAbs]
  exact_mod_cast hSmall.2.1

/-- Adding to 0 changes nothing. -/
theorem zero_add_number (v : Number) : (Number.ofRat 0).add v = v := by
  obtain ⟨zero, hZero, hValue⟩ := @Number.ofRat_natCast 0 (by decide)
  rw [Nat.cast_zero] at hZero hValue
  rw [hZero]
  cases v with
  | nan => rfl
  | infinity negative => rfl
  | finite a => rw [Number.add, hValue, zero_add, Number.ofRat_value]

/-- `v % step === 0`. -/
def isMultiple (step v : Number) : Bool := (v.remainder step).strictEq (.ofRat 0)

theorem isMultiple_nan (step : Number) : isMultiple step .nan = false := by
  cases step <;> rfl

/-- Whole numbers that are not negative are divided as natural numbers. -/
theorem isMultiple_whole {step v : ℕ} (hStep : 1 ≤ step) (hSmallStep : step ≤ 2 ^ 53)
    (hSmall : v ≤ 2 ^ 53) : isMultiple (whole step) (whole v) = decide (step ∣ v) := by
  have hBound : ∀ {n : ℕ}, n ≤ 2 ^ 53 → |(n : ℤ)| ≤ 2 ^ 53 := fun hN => by
    rw [Nat.abs_cast]
    exact_mod_cast hN
  have hModSmall : v % step ≤ 2 ^ 53 := (Nat.mod_le v step).trans hSmall
  have hRemainder : (whole v).remainder (whole step) = whole (v % step : ℕ) := by
    have hNonzero : (step : ℚ) ≠ 0 := by
      rw [Nat.cast_ne_zero]
      omega
    rw [whole, whole, whole, Number.ofRat_intCast (hBound hSmall),
      Number.ofRat_intCast (hBound hSmallStep), Number.remainder]
    simp only [FiniteNumber.ofInt, Int.cast_natCast]
    rw [if_neg hNonzero, Number.truncate, if_pos (by positivity), Rat.floor_natCast_div_natCast]
    congr 1
    rw [← Int.cast_natCast (v % step), Int.natCast_emod, Int.emod_def]
    push_cast
    rfl
  have hZero := @whole_strictEq (v % step : ℕ) 0 (hBound hModSmall) (by decide)
  rw [isMultiple, hRemainder]
  refine (Eq.trans ?_ hZero).trans ?_
  · rw [whole, whole, Int.cast_zero]
  · rw [decide_eq_decide, Nat.dvd_iff_mod_eq_zero]
    omega

/-- With small runs all that is read off a field is whole. -/
theorem convertStep_small {expr : List Char} (hSmall : SmallRuns expr) :
    ∃ ns : List ℤ, convertStep expr = ns.map whole ∧ ∀ n ∈ ns, |n| < 2 ^ 53 := by
  refine exists_map_whole fun v hMem => ?_
  rw [convertStep, List.mem_filter, List.mem_map] at hMem
  obtain ⟨⟨part, hPart, rfl⟩, hMultiple⟩ := hMem
  have hSplit : [','].intercalate (expr.splitOn ',') = expr := List.intercalate_splitOn ','
  rw [← hSplit] at hSmall
  -- NaN does not pass the test of the step
  rcases parseInt_small (smallRuns_of_intercalate hSmall part hPart) with hNaN | ⟨n, hN, hWhole⟩
  · rw [hNaN, zero_add_number] at hMultiple
    cases (isMultiple_nan _).symm.trans hMultiple
  · exact ⟨n, hN, (zero_add_number _).trans hWhole⟩

/-! ## Any text -/

/-- An integer of more than 53 digits is in no range of smaller ones. -/
theorem not_inNumberRange_of_large {range : ℕ × ℕ} (hLow : range.1 < 2 ^ 53)
    (hHigh : range.2 < 2 ^ 53) {n : ℤ} (hLarge : 2 ^ 53 < |n|) :
    ¬ InNumberRange (numberRange range) (whole n) := by
  obtain ⟨low, hFrom, hLowValue⟩ := Number.ofRat_natCast hLow.le
  obtain ⟨high, hTo, hHighValue⟩ := Number.ofRat_natCast hHigh.le
  have hHighSmall : high.value < 2 ^ 53 := by
    rw [hHighValue]
    exact_mod_cast hHigh
  -- rounding does not bring the number back below the bound
  have hAway : ((2 ^ 53 : ℕ) : ℚ) ≤ Binary64.round |(n : ℚ)| :=
    Binary64.le_round le_rfl (by exact_mod_cast hLarge.le)
  push_cast at hAway
  rintro ⟨hAbove, hBelow⟩
  rw [numberRange, hFrom] at hAbove
  rw [numberRange, hTo] at hBelow
  rcases lt_or_ge n 0 with hNegative | hPositive
  · -- it is below every number that is not negative
    have hSign : (n : ℚ) < 0 := by exact_mod_cast hNegative
    rw [abs_of_neg hSign, Binary64.round_neg] at hAway
    rcases Number.ofRat_cases n with ⟨a, hFinite, hValue⟩ | hInfinite
    · have hNonneg : (0 : ℚ) ≤ range.1 := Nat.cast_nonneg _
      rw [whole, hFinite, Number.le_finite, decide_eq_true_iff, hLowValue, hValue] at hAbove
      linarith
    · rw [whole, hInfinite, decide_eq_true hSign] at hAbove
      cases hAbove
  · have hSign : (0 : ℚ) ≤ n := by exact_mod_cast hPositive
    rw [abs_of_nonneg hSign] at hAway
    rcases Number.ofRat_cases n with ⟨a, hFinite, hValue⟩ | hInfinite
    · rw [whole, hFinite, Number.le_finite, decide_eq_true_iff, hValue] at hBelow
      linarith
    · rw [whole, hInfinite, decide_eq_false (not_lt.mpr hSign)] at hBelow
      cases hBelow

/-- Of any text, what is read off and lies in the range is whole. -/
theorem convertStep_inRange {expr : List Char} {range : ℕ × ℕ} (hLow : range.1 < 2 ^ 53)
    (hHigh : range.2 < 2 ^ 53) {v : Number} (hMem : v ∈ convertStep expr)
    (hIn : InNumberRange (numberRange range) v) : ∃ n : ℤ, |n| ≤ 2 ^ 53 ∧ v = whole n := by
  rw [convertStep, List.mem_filter, List.mem_map] at hMem
  obtain ⟨⟨part, -, rfl⟩, hMultiple⟩ := hMem
  rw [zero_add_number] at hIn hMultiple ⊢
  rcases parseInt_cases part with hNaN | ⟨_, _, _, -, -, -, -, n, -, hNumber⟩
  · rw [hNaN] at hMultiple
    cases (isMultiple_nan _).symm.trans hMultiple
  · refine ⟨n, ?_, hNumber⟩
    by_contra hLarge
    rw [hNumber] at hIn
    exact not_inNumberRange_of_large hLow hHigh (not_le.mp hLarge) hIn

/-- `removeDuplicates` passes over what is out of the range. -/
theorem removeDuplicates_filter (vals : List Number) (range : Number × Number) :
    removeDuplicates (vals.filter fun v => InNumberRange range v) range =
      removeDuplicates vals range := by
  rw [removeDuplicates, removeDuplicates, List.foldl_filter]
  refine congrArg (fun turn => (vals.foldl turn []).mergeSort Number.le) ?_
  funext ret v
  by_cases hIn : InNumberRange range v
  · rw [if_pos (decide_eq_true hIn)]
  · rw [if_neg (by simpa using hIn), if_neg]
    rintro hKeep
    rw [Bool.and_eq_true, Bool.and_eq_true] at hKeep
    exact hIn hKeep.1

/-- **The values of a field of any text** are in order and in the range. -/
theorem convertField_ordered {fuel : ℕ} {field : CronField} {part : List Char}
    {vals : List Number} (hConvert : convertField fuel field part = some vals) :
    ∃ ns : List ℤ, vals = ns.map whole ∧ ns.Pairwise (· < ·) ∧
      ∀ n ∈ ns, ((allowedRange field).1 : ℤ) ≤ n ∧ n ≤ (allowedRange field).2 := by
  obtain ⟨hLow, hHigh⟩ := allowedRange_small field
  obtain ⟨rewritten, -, rfl⟩ := Option.map_eq_some_iff.mp hConvert
  -- a number of more than 53 digits is out of the range, and dropped
  obtain ⟨ns, hNs, hDigits⟩ := exists_map_whole
    fun v (hMem : v ∈ (convertStep rewritten).filter
        fun v => InNumberRange (numberRange (allowedRange field)) v) => by
      rw [List.mem_filter] at hMem
      exact convertStep_inRange hLow hHigh hMem.1 (of_decide_eq_true hMem.2)
  obtain ⟨result, hResult, hSorted, hMem⟩ :=
    removeDuplicates_map (numberRange (allowedRange field)) hDigits
  refine ⟨result, ?_, hSorted, fun n hN => ?_⟩
  · rw [← removeDuplicates_filter, hNs, hResult]
  · obtain ⟨hRead, hIn⟩ := (hMem n).mp hN
    exact (inNumberRange_whole hLow hHigh (hDigits n hRead)).mp hIn

end TernScheduler
