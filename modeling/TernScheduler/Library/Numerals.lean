import TernScheduler.Library.Binary64
import Mathlib.Data.List.DropRight
import Mathlib.Data.Nat.Find

/-!
# Decimal numerals

Reading and writing rational numbers in decimal, as ECMAScript and its relatives do.

* `Numerals.unsignedDecimal` reads digits with an optional point and an optional exponent.
* `Numerals.layout` writes digits and the place of the point, and `unsignedDecimal_layout` is the
  round trip.
* `Numerals.shortest` finds the decimal of the fewest digits that is read as a number, for any
  notion of reading.
-/

namespace Numerals

/-! ## Reading -/

/-- The number the digits are. -/
def digitsValue (digits : List Char) : ℕ := Nat.ofDigitChars 10 digits 0

/-- Nothing but digits, and at least one. -/
def natural (text : List Char) : Option ℕ :=
  if text ≠ [] ∧ text.all Char.isDigit = true then some (digitsValue text) else none

/-- Digits behind an optional sign. -/
def integer : List Char → Option ℤ
  | '+' :: digits => (natural digits).map fun n : ℕ => (n : ℤ)
  | '-' :: digits => (natural digits).map fun n : ℕ => -(n : ℤ)
  | digits => (natural digits).map fun n : ℕ => (n : ℤ)

/-- The exponent that ends a numeral, or zero where there is none. -/
def exponent : List Char → Option ℤ
  | [] => some 0
  | c :: rest => if c = 'e' ∨ c = 'E' then integer rest else none

/-- The digits behind a point, and what follows. -/
def afterPoint : List Char → List Char × List Char
  | '.' :: rest => (rest.takeWhile Char.isDigit, rest.dropWhile Char.isDigit)
  | rest => ([], rest)

/-- Digits, a point and an exponent, where one digit stands before or behind the point. -/
def unsignedDecimal (text : List Char) : Option ℚ :=
  let whole := text.takeWhile Char.isDigit
  let fraction := (afterPoint (text.dropWhile Char.isDigit)).1
  let rest := (afterPoint (text.dropWhile Char.isDigit)).2
  if whole ++ fraction = [] then none
  else
    (exponent rest).map fun e =>
      (digitsValue (whole ++ fraction) : ℚ) * 10 ^ (e - (fraction.length : ℤ))

/-! ## Writing -/

/-- The digits with the point behind the first `n` of them: without an exponent where the point
stands near the digits. -/
def layout (digits : List Char) (n : ℤ) : List Char :=
  if digits.length ≤ n ∧ n ≤ 21 then digits ++ List.replicate (n - digits.length).toNat '0'
  else if 0 < n ∧ n ≤ 21 then digits.take n.toNat ++ '.' :: digits.drop n.toNat
  else if -6 < n ∧ n ≤ 0 then '0' :: '.' :: (List.replicate (-n).toNat '0' ++ digits)
  else
    digits.take 1 ++ (if digits.length = 1 then [] else '.' :: digits.drop 1) ++
      'e' :: (if n ≤ 0 then '-' else '+') :: Nat.toDigits 10 (n - 1).natAbs

section Digits

variable {digits rest : List Char}

theorem takeWhile_digits (hDigits : ∀ c ∈ digits, c.isDigit = true)
    (hRest : ∀ c ∈ rest.head?, c.isDigit = false) :
    (digits ++ rest).takeWhile Char.isDigit = digits := by
  rw [List.takeWhile_append_of_pos hDigits]
  cases rest with
  | nil => rw [List.takeWhile_nil, List.append_nil]
  | cons c rest =>
      rw [List.takeWhile_cons_of_neg (by rw [hRest c rfl]; exact Bool.false_ne_true),
        List.append_nil]

theorem dropWhile_digits (hDigits : ∀ c ∈ digits, c.isDigit = true)
    (hRest : ∀ c ∈ rest.head?, c.isDigit = false) :
    (digits ++ rest).dropWhile Char.isDigit = rest := by
  rw [List.dropWhile_append_of_pos hDigits]
  cases rest with
  | nil => rfl
  | cons c rest =>
      rw [List.dropWhile_cons_of_neg (by rw [hRest c rfl]; exact Bool.false_ne_true)]

theorem isDigit_of_mem_takeWhile {text : List Char} :
    ∀ c ∈ text.takeWhile Char.isDigit, c.isDigit = true := fun _ hMem =>
  List.mem_takeWhile_imp hMem

theorem not_isDigit_head_dropWhile {text : List Char} :
    ∀ c ∈ (text.dropWhile Char.isDigit).head?, c.isDigit = false := by
  intro c hMem
  obtain ⟨rest, hRest⟩ := List.head?_eq_some_iff.mp hMem
  have hNot := List.dropWhile_get_zero_not Char.isDigit text (by rw [hRest]; exact Nat.succ_pos _)
  simpa [hRest] using hNot

theorem natural_eq_some (hDigits : ∀ c ∈ digits, c.isDigit = true) (hNonempty : digits ≠ []) :
    natural digits = some (digitsValue digits) := by
  rw [natural, if_pos ⟨hNonempty, List.all_eq_true.mpr hDigits⟩]

theorem digitsValue_append_zeros (n : ℕ) :
    digitsValue (digits ++ List.replicate n '0') = digitsValue digits * 10 ^ n := by
  rw [digitsValue, Nat.ofDigitChars_append, Nat.ofDigitChars_replicate_zero, mul_comm]
  rfl

theorem digitsValue_zeros_append (n : ℕ) :
    digitsValue (List.replicate n '0' ++ digits) = digitsValue digits := by
  rw [digitsValue, Nat.ofDigitChars_append, Nat.ofDigitChars_replicate_zero, mul_zero]
  rfl

theorem isDigit_toDigits {n : ℕ} : ∀ c ∈ Nat.toDigits 10 n, c.isDigit = true := fun _ hMem =>
  Nat.isDigit_of_mem_toDigits (by decide) (by decide) hMem

/-- A numeral of three parts. -/
theorem unsignedDecimal_append {fraction : List Char} {e : ℤ}
    (hDigits : ∀ c ∈ digits, c.isDigit = true) (hFraction : ∀ c ∈ fraction, c.isDigit = true)
    (hNonempty : digits ++ fraction ≠ []) (hRest : ∀ c ∈ rest.head?, c.isDigit = false)
    (hPoint : rest.head? ≠ some '.') (hExponent : exponent rest = some e) :
    unsignedDecimal (digits ++ (if fraction = [] then [] else '.' :: fraction) ++ rest) =
      some ((digitsValue (digits ++ fraction) : ℚ) * 10 ^ (e - (fraction.length : ℤ))) := by
  rcases eq_or_ne fraction [] with rfl | hPart
  · rw [if_pos rfl, List.append_nil] at *
    have hAfter : afterPoint rest = ([], rest) := by
      unfold afterPoint
      split
      · exact absurd rfl hPoint
      · rfl
    rw [unsignedDecimal, takeWhile_digits hDigits hRest, dropWhile_digits hDigits hRest, hAfter]
    rw [List.append_nil, if_neg hNonempty, hExponent]
    rfl
  · rw [if_neg hPart, List.append_assoc, List.cons_append]
    have hDot : ∀ c ∈ ('.' :: (fraction ++ rest)).head?, c.isDigit = false := by
      rintro _ ⟨rfl⟩
      rfl
    rw [unsignedDecimal, takeWhile_digits hDigits hDot, dropWhile_digits hDigits hDot, afterPoint,
      takeWhile_digits hFraction hRest, dropWhile_digits hFraction hRest, if_neg hNonempty,
      hExponent]
    rfl

theorem exponent_toDigits (n : ℤ) :
    exponent ('e' :: (if n ≤ 0 then '-' else '+') :: Nat.toDigits 10 (n - 1).natAbs) =
      some (n - 1) := by
  have hNatural := natural_eq_some (@isDigit_toDigits (n - 1).natAbs) Nat.toDigits_ne_nil
  rw [digitsValue, Nat.ofDigitChars_ten_toDigits] at hNatural
  rw [exponent, if_pos (Or.inl rfl)]
  by_cases hLow : n ≤ 0
  · rw [if_pos hLow, integer, hNatural, Option.map_some, Option.some_inj]
    omega
  · rw [if_neg hLow, integer, hNatural, Option.map_some, Option.some_inj]
    omega

/-- **What is written is read back.** -/
theorem unsignedDecimal_layout (hDigits : ∀ c ∈ digits, c.isDigit = true)
    (hNonempty : digits ≠ []) (n : ℤ) :
    unsignedDecimal (layout digits n) =
      some ((digitsValue digits : ℚ) * 10 ^ (n - (digits.length : ℤ))) := by
  -- the zeros that fill up are digits
  have hZero : ∀ {k : ℕ}, ∀ c ∈ List.replicate k '0', c.isDigit = true := by
    intro k c hMem
    rw [List.eq_of_mem_replicate hMem]
    rfl
  have hEnd : ∀ c ∈ ([] : List Char).head?, c.isDigit = false := fun c hMem => by cases hMem
  unfold layout
  split
  · rename_i hZeros
    have hRead := @unsignedDecimal_append (digits ++ List.replicate (n - digits.length).toNat '0')
      [] [] 0 (List.forall_mem_append.mpr ⟨hDigits, hZero⟩) (fun c hMem => by cases hMem)
      (by simp [hNonempty]) hEnd (by simp) rfl
    rw [if_pos rfl, List.append_nil, List.append_nil, digitsValue_append_zeros] at hRead
    rw [hRead, Option.some_inj, List.length_nil, Nat.cast_zero, sub_zero, zpow_zero, mul_one,
      Nat.cast_mul, Nat.cast_pow, Nat.cast_ofNat, ← zpow_natCast,
      Int.toNat_of_nonneg (sub_nonneg.mpr hZeros.1)]
  · split
    · rename_i hFew hPoint
      have hLess : n.toNat < digits.length := by omega
      have hRead := @unsignedDecimal_append (digits.take n.toNat) [] (digits.drop n.toNat) 0
        (fun c hMem => hDigits c (List.mem_of_mem_take hMem))
        (fun c hMem => hDigits c (List.mem_of_mem_drop hMem))
        (by rwa [List.take_append_drop]) hEnd (by simp) rfl
      rw [if_neg (by simpa using hLess), List.append_nil, List.take_append_drop] at hRead
      rw [hRead, List.length_drop]
      congr 3
      omega
    · split
      · rename_i hFew hPoint hSmall
        have hRead := @unsignedDecimal_append ['0'] [] (List.replicate (-n).toNat '0' ++ digits) 0
          (by simp) (List.forall_mem_append.mpr ⟨hZero, hDigits⟩) (by simp) hEnd (by simp) rfl
        rw [if_neg (by simp [hNonempty]), List.append_nil, ← List.append_assoc] at hRead
        refine hRead.trans ?_
        rw [show ['0'] = List.replicate 1 '0' from rfl, List.replicate_append_replicate,
          digitsValue_zeros_append, List.length_append, List.length_replicate]
        congr 3
        omega
      · rename_i hFew hPoint hSmall
        obtain ⟨first, others, rfl⟩ := List.exists_cons_of_ne_nil hNonempty
        have hRead := @unsignedDecimal_append [first]
          ('e' :: (if n ≤ 0 then '-' else '+') :: Nat.toDigits 10 (n - 1).natAbs) others (n - 1)
          (fun c hMem => hDigits c (List.mem_cons.mpr (Or.inl (List.mem_singleton.mp hMem))))
          (fun c hMem => hDigits c (List.mem_cons_of_mem _ hMem)) (by simp) (by simp)
          (by simp) (exponent_toDigits n)
        have hOne : (first :: others).length = 1 ↔ others = [] := by simp
        simp only [hOne, List.take_succ_cons, List.take_zero, List.drop_succ_cons, List.drop_zero]
        refine hRead.trans ?_
        rw [List.singleton_append, List.length_cons]
        congr 3
        omega

/-- A character of a written number. -/
def IsPart (c : Char) : Prop := c.isDigit = true ∨ c = '.' ∨ c = 'e' ∨ c = '+' ∨ c = '-'

instance : DecidablePred IsPart := fun _ => inferInstanceAs (Decidable (_ ∨ _))

/-- Among the characters of a written number the greatest is the one of the exponent. -/
theorem IsPart.toNat_le {c : Char} (hPart : IsPart c) : c.toNat ≤ 101 := by
  rcases hPart with hDigit | rfl | rfl | rfl | rfl
  · exact (Char.isDigit_iff_toNat.mp hDigit).2.trans (by decide)
  all_goals decide

theorem isPart_layout (hDigits : ∀ c ∈ digits, c.isDigit = true) (n : ℤ) :
    ∀ c ∈ layout digits n, IsPart c := by
  have hZero : ∀ {k : ℕ}, ∀ c ∈ List.replicate k '0', c.isDigit = true := by
    intro k c hMem
    rw [List.eq_of_mem_replicate hMem]
    rfl
  have hTake : ∀ k, ∀ c ∈ digits.take k, c.isDigit = true := fun k c hMem =>
    hDigits c (List.mem_of_mem_take hMem)
  have hDrop : ∀ k, ∀ c ∈ digits.drop k, c.isDigit = true := fun k c hMem =>
    hDigits c (List.mem_of_mem_drop hMem)
  intro c hMem
  unfold layout at hMem
  unfold IsPart
  split at hMem
  · rcases List.mem_append.mp hMem with hMem | hMem
    · exact Or.inl (hDigits c hMem)
    · exact Or.inl (hZero c hMem)
  · split at hMem
    · rcases List.mem_append.mp hMem with hMem | hMem
      · exact Or.inl (hTake _ c hMem)
      · rcases List.mem_cons.mp hMem with rfl | hMem
        · exact Or.inr (Or.inl rfl)
        · exact Or.inl (hDrop _ c hMem)
    · split at hMem
      · simp only [List.mem_cons, List.mem_append] at hMem
        rcases hMem with rfl | rfl | hMem | hMem
        · exact Or.inl rfl
        · exact Or.inr (Or.inl rfl)
        · exact Or.inl (hZero c hMem)
        · exact Or.inl (hDigits c hMem)
      · simp only [List.mem_cons, List.mem_append] at hMem
        rcases hMem with (hMem | hMem) | rfl | rfl | hMem
        · exact Or.inl (hTake _ c hMem)
        · split at hMem
          · cases hMem
          · rcases List.mem_cons.mp hMem with rfl | hMem
            · exact Or.inr (Or.inl rfl)
            · exact Or.inl (hDrop _ c hMem)
        · exact Or.inr (Or.inr (Or.inl rfl))
        · split
          · exact Or.inr (Or.inr (Or.inr (Or.inr rfl)))
          · exact Or.inr (Or.inr (Or.inr (Or.inl rfl)))
        · exact Or.inl (isDigit_toDigits c hMem)

/-- A written number starts with a digit. -/
theorem head_layout (hDigits : ∀ c ∈ digits, c.isDigit = true) (hNonempty : digits ≠ [])
    (n : ℤ) : ∃ first others, layout digits n = first :: others ∧ first.isDigit = true := by
  obtain ⟨first, others, rfl⟩ := List.exists_cons_of_ne_nil hNonempty
  have hFirst := hDigits first List.mem_cons_self
  unfold layout
  split
  · exact ⟨first, _, rfl, hFirst⟩
  · split
    · rename_i hFew hPoint
      obtain ⟨k, hk⟩ := Nat.exists_eq_succ_of_ne_zero (show n.toNat ≠ 0 by omega)
      rw [hk]
      exact ⟨first, _, rfl, hFirst⟩
    · split
      · exact ⟨'0', _, rfl, rfl⟩
      · exact ⟨first, _, rfl, hFirst⟩

end Digits

/-! ## The shortest decimal -/

/-- The number of places before the point. -/
def place (x : ℚ) : ℤ := Int.log 10 x + 1

/-- The last of the given number of places. -/
def unit (x : ℚ) (digits : ℕ) : ℚ := 10 ^ (place x - (digits : ℤ))

theorem unit_pos (x : ℚ) (digits : ℕ) : 0 < unit x digits := zpow_pos (by norm_num) _

section Shortest

variable {reads : ℚ → ℚ} {x : ℚ}

/-- The decimals next to a number, the nearest one first. -/
def neighbours (x : ℚ) (digits : ℕ) : List ℕ :=
  [(Binary64.halfEven (x / unit x digits)).toNat, ⌊x / unit x digits⌋.toNat,
    ⌊x / unit x digits⌋.toNat + 1]

/-- A decimal of the given number of digits that is read as the number. -/
def candidate (reads : ℚ → ℚ) (x : ℚ) (digits : ℕ) : Option ℕ :=
  (neighbours x digits).find? fun s => decide (reads ((s : ℚ) * unit x digits) = x)

/-- A positive number that is read as itself, and that has finitely many digits. -/
structure Written (reads : ℚ → ℚ) (x : ℚ) : Prop where
  positive : 0 < x
  zero : reads 0 = 0
  readsBack : reads x = x
  ends : ∃ m d : ℕ, x * 10 ^ d = m

/-- A number that is a multiple of the unit is its own candidate. -/
theorem candidate_exact (hReads : reads x = x) {digits m : ℕ} (hExact : x = m * unit x digits) :
    candidate reads x digits = some m := by
  have hScaled : x / unit x digits = (m : ℤ) := by
    rw [div_eq_iff (unit_pos x digits).ne']
    exact_mod_cast hExact
  have hNearest : (Binary64.halfEven (x / unit x digits)).toNat = m := by
    rw [hScaled, Binary64.halfEven_intCast]
    rfl
  rw [candidate, neighbours, hNearest, List.find?_cons_of_pos]
  rw [← hExact, decide_eq_true_iff]
  exact hReads

theorem exists_candidate (hWritten : Written reads x) :
    ∃ k, (candidate reads x (k + 1)).isSome = true := by
  obtain ⟨m, d, hEnds⟩ := hWritten.ends
  refine ⟨(place x + d).toNat, ?_⟩
  obtain ⟨j, hj⟩ := Int.eq_ofNat_of_zero_le
    (show 0 ≤ ((place x + d).toNat + 1 : ℕ) - (place x + d) by omega)
  have hExact : x = (m * 10 ^ j : ℕ) * unit x ((place x + d).toNat + 1) := by
    rw [unit, show place x - (((place x + d).toNat + 1 : ℕ) : ℤ) = -(d : ℤ) - j by omega,
      zpow_sub₀ (by norm_num), zpow_neg, zpow_natCast, zpow_natCast]
    push_cast
    rw [← hEnds]
    field_simp
  rw [candidate_exact hWritten.readsBack hExact]
  rfl

/-- The fewest digits that are read as the number. -/
def digitCount (hWritten : Written reads x) : ℕ := Nat.find (exists_candidate hWritten) + 1

/-- The shortest decimal, as a multiple of the last place. -/
def significand (hWritten : Written reads x) : ℕ :=
  (candidate reads x (digitCount hWritten)).get (Nat.find_spec (exists_candidate hWritten))

/-- The digits of the shortest decimal. -/
def shortest (hWritten : Written reads x) : List Char :=
  (Nat.toDigits 10 (significand hWritten)).rdropWhile (· == '0')

/-- Where the point of the shortest decimal stands. -/
def point (hWritten : Written reads x) : ℤ :=
  (Nat.toDigits 10 (significand hWritten)).length + (place x - digitCount hWritten)

theorem reads_significand (hWritten : Written reads x) :
    reads (significand hWritten * unit x (digitCount hWritten)) = x := by
  have hFound : candidate reads x (digitCount hWritten) = some (significand hWritten) :=
    (Option.some_get _).symm
  have hRead := List.find?_some hFound
  rwa [decide_eq_true_iff] at hRead

theorem significand_ne_zero (hWritten : Written reads x) : significand hWritten ≠ 0 := by
  intro hZero
  have hReads := reads_significand hWritten
  rw [hZero, Nat.cast_zero, zero_mul, hWritten.zero] at hReads
  exact hWritten.positive.ne hReads

/-- The shortest decimal has the digits of its significand without the last zeros. -/
theorem toDigits_significand (hWritten : Written reads x) :
    ∃ zeros, Nat.toDigits 10 (significand hWritten) =
      shortest hWritten ++ List.replicate zeros '0' := by
  refine ⟨((Nat.toDigits 10 (significand hWritten)).rtakeWhile (· == '0')).length, ?_⟩
  have hZeros : ∀ c ∈ (Nat.toDigits 10 (significand hWritten)).rtakeWhile (· == '0'), c = '0' := by
    intro c hMem
    have hZero := List.mem_rtakeWhile_imp hMem
    exact beq_iff_eq.mp hZero
  rw [← List.eq_replicate_length.mpr hZeros]
  exact List.rdropWhile_append_rtakeWhile.symm

theorem isDigit_shortest (hWritten : Written reads x) :
    ∀ c ∈ shortest hWritten, c.isDigit = true := by
  intro c hMem
  obtain ⟨zeros, hDigits⟩ := toDigits_significand hWritten
  refine @isDigit_toDigits (significand hWritten) c ?_
  rw [hDigits]
  exact List.mem_append_left _ hMem

theorem digitsValue_toDigits (n : ℕ) : digitsValue (Nat.toDigits 10 n) = n :=
  Nat.ofDigitChars_ten_toDigits

theorem shortest_ne_nil (hWritten : Written reads x) : shortest hWritten ≠ [] := by
  intro hNil
  obtain ⟨zeros, hDigits⟩ := toDigits_significand hWritten
  have hValue := congrArg digitsValue hDigits
  rw [hNil, List.nil_append, ← List.append_nil (List.replicate _ _), digitsValue_zeros_append,
    digitsValue_toDigits] at hValue
  exact significand_ne_zero hWritten hValue

/-- The value of the shortest decimal. -/
theorem shortest_value (hWritten : Written reads x) :
    (digitsValue (shortest hWritten) : ℚ) * 10 ^ (point hWritten - (shortest hWritten).length) =
      significand hWritten * unit x (digitCount hWritten) := by
  obtain ⟨zeros, hDigits⟩ := toDigits_significand hWritten
  have hValue := congrArg digitsValue hDigits
  rw [digitsValue_append_zeros, digitsValue_toDigits] at hValue
  have hPoint : point hWritten - (shortest hWritten).length =
      zeros + (place x - digitCount hWritten) := by
    rw [point, hDigits, List.length_append, List.length_replicate]
    push_cast
    ring
  rw [hPoint, hValue, unit, zpow_add₀ (by norm_num), zpow_natCast]
  push_cast
  ring

/-- **The shortest decimal is read as the number.** -/
theorem reads_layout (hWritten : Written reads x) :
    (unsignedDecimal (layout (shortest hWritten) (point hWritten))).map reads = some x := by
  rw [unsignedDecimal_layout (isDigit_shortest hWritten) (shortest_ne_nil hWritten),
    shortest_value, Option.map_some, reads_significand hWritten]

/-! ## Natural numbers -/

theorem toDigits_mul_pow {n : ℕ} (hPos : 0 < n) (zeros : ℕ) :
    Nat.toDigits 10 (n * 10 ^ zeros) = Nat.toDigits 10 n ++ List.replicate zeros '0' := by
  induction zeros with
  | zero => rw [pow_zero, mul_one, List.replicate_zero, List.append_nil]
  | succ zeros ih =>
      have hStep := Nat.toDigits_append_toDigits (show 1 < 10 by decide)
        (show 0 < n * 10 ^ zeros by positivity) (show 0 < 10 by decide)
      rw [pow_succ, ← mul_assoc, mul_comm _ 10, ← Nat.add_zero (10 * _), ← hStep, ih,
        List.replicate_succ', ← List.append_assoc]
      rfl

/-- A natural number of at most 21 digits that no other one is read as is written as its
digits. -/
theorem layout_natCast {n : ℕ} (hWritten : Written reads (n : ℚ)) (hSmall : n < 10 ^ 21)
    (hAlone : ∀ m : ℕ, reads m = n → m = n) :
    layout (shortest hWritten) (point hWritten) = Nat.toDigits 10 n := by
  have hPos : 0 < n := by exact_mod_cast hWritten.positive
  have hPlace : 1 ≤ place (n : ℚ) := by
    rw [place, Int.log_natCast]
    omega
  -- as many digits as there are places suffice
  have hCount : (digitCount hWritten : ℤ) ≤ place (n : ℚ) := by
    have hExact : (n : ℚ) = n * unit n ((place (n : ℚ) - 1).toNat + 1) := by
      rw [unit, show place (n : ℚ) - (((place (n : ℚ) - 1).toNat + 1 : ℕ) : ℤ) = 0 by omega,
        zpow_zero, mul_one]
    have hFound := candidate_exact hWritten.readsBack hExact
    have hLeast := Nat.find_min' (exists_candidate hWritten) (by rw [hFound]; rfl)
    unfold digitCount
    omega
  obtain ⟨j, hj⟩ := Int.eq_ofNat_of_zero_le (sub_nonneg.mpr hCount)
  have hUnit : unit (n : ℚ) (digitCount hWritten) = (10 ^ j : ℕ) := by
    rw [unit, hj, zpow_natCast]
    push_cast
    rfl
  have hValue : significand hWritten * 10 ^ j = n := by
    have hReads := reads_significand hWritten
    rw [hUnit, ← Nat.cast_mul] at hReads
    exact hAlone _ hReads
  obtain ⟨zeros, hDigits⟩ := toDigits_significand hWritten
  have hAll : Nat.toDigits 10 n = shortest hWritten ++ List.replicate (zeros + j) '0' := by
    have hWhole := toDigits_mul_pow (Nat.pos_of_ne_zero (significand_ne_zero hWritten)) j
    rwa [hValue, hDigits, List.append_assoc, List.replicate_append_replicate] at hWhole
  have hPoint : point hWritten = (shortest hWritten).length + (zeros + j : ℕ) := by
    rw [point, hDigits, List.length_append, List.length_replicate, hj]
    push_cast
    ring
  have hLength : (Nat.toDigits 10 n).length ≤ 21 :=
    (Nat.length_toDigits_le_iff (by decide) (by decide)).mpr hSmall
  rw [hAll, List.length_append, List.length_replicate] at hLength
  rw [layout, if_pos (by omega), hAll, hPoint]
  congr 2
  omega

end Shortest

end Numerals
