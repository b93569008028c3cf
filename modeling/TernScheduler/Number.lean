import TernScheduler.Library.Numerals

/-!
# Numbers of the language

`Number` of the host with what the page keys and the cron fields make of it: sums, remainders,
comparisons, and the texts a number is read from and written as.

* `Number.ofRat` is the number nearest to a rational one.
* `stringToNumber` is `Number(text)`, `parseInt` is that of radix 10, and `Number.toText` is
  `toString`.
* `stringToNumber_toText`: a number is read back from its text.
-/

namespace TernScheduler

/-- A finite number.  Both zeros are one, as nothing here tells them apart. -/
structure FiniteNumber where
  value : ℚ
  rounded : Binary64.round value = value
  bounded : |value| < 2 ^ 1024
  deriving DecidableEq

/-- A number of the language. -/
inductive Number
  | nan
  | infinity (negative : Bool)
  | finite (number : FiniteNumber)
  deriving DecidableEq

namespace Number

/-- The number nearest to a rational one. -/
def ofRat (value : ℚ) : Number :=
  if hBounded : |Binary64.round value| < 2 ^ 1024 then
    finite ⟨Binary64.round value, Binary64.round_round value, hBounded⟩
  else infinity (decide (value < 0))

/-- `a + b`. -/
def add : Number → Number → Number
  | nan, _ => nan
  | _, nan => nan
  | infinity a, infinity b => if a = b then infinity a else nan
  | infinity a, finite _ => infinity a
  | finite _, infinity b => infinity b
  | finite a, finite b => ofRat (a.value + b.value)

/-- `-a`. -/
def neg : Number → Number
  | nan => nan
  | infinity negative => infinity !negative
  | finite a => ofRat (-a.value)

/-- The whole part, towards zero. -/
def truncate (value : ℚ) : ℤ := if 0 ≤ value then ⌊value⌋ else ⌈value⌉

/-- `a % b`. -/
def remainder : Number → Number → Number
  | finite a, infinity _ => finite a
  | finite a, finite b =>
      if b.value = 0 then nan else ofRat (a.value - b.value * truncate (a.value / b.value))
  | _, _ => nan

/-- `a <= b`. -/
def le : Number → Number → Bool
  | nan, _ => false
  | _, nan => false
  | infinity a, infinity b => a || !b
  | infinity a, finite _ => a
  | finite _, infinity b => !b
  | finite a, finite b => decide (a.value ≤ b.value)

/-- `a < b`. -/
def lt : Number → Number → Bool
  | nan, _ => false
  | _, nan => false
  | a, b => !le b a

@[simp] theorem le_finite (a b : FiniteNumber) :
    le (finite a) (finite b) = decide (a.value ≤ b.value) := rfl

@[simp] theorem lt_finite (a b : FiniteNumber) :
    lt (finite a) (finite b) = decide (a.value < b.value) := by
  show (!decide (b.value ≤ a.value)) = decide (a.value < b.value)
  rw [← decide_not, decide_eq_decide, not_le]

/-- `a === b`. -/
def strictEq : Number → Number → Bool
  | nan, _ => false
  | a, b => decide (a = b)

end Number

/-! ## Texts -/

/-- `WhiteSpace` and `LineTerminator`, which is also the class `\s`. -/
def isWhiteSpace (c : Char) : Bool :=
  c ∈ ['\t', '\n', '\x0b', '\x0c', '\r', ' ', '\u00a0', '\u1680', '\u2028', '\u2029', '\u202f',
    '\u205f', '\u3000', '\ufeff'] || ('\u2000' ≤ c && c ≤ '\u200a')

/-- The text without white space at both ends. -/
def trimText (text : List Char) : List Char :=
  (text.dropWhile isWhiteSpace).rdropWhile isWhiteSpace

/-- The digit of a radix that a character is. -/
def digitOf (radix : ℕ) (c : Char) : Option ℕ :=
  let digit :=
    if '0' ≤ c ∧ c ≤ '9' then c.toNat - '0'.toNat
    else if 'a' ≤ c ∧ c ≤ 'z' then c.toNat - 'a'.toNat + 10
    else if 'A' ≤ c ∧ c ≤ 'Z' then c.toNat - 'A'.toNat + 10
    else radix
  if digit < radix then some digit else none

/-- `NonDecimalIntegerLiteral` behind its prefix. -/
def radixLiteral (radix : ℕ) (digits : List Char) : Number :=
  if digits = [] then .nan
  else
    ((digits.mapM (digitOf radix)).map fun values =>
      Number.ofRat ((values.foldl (fun n digit => radix * n + digit) 0 : ℕ) : ℚ)).getD .nan

/-- `StrUnsignedDecimalLiteral`. -/
def unsignedLiteral (text : List Char) : Number :=
  if text = "Infinity".toList then .infinity false
  else ((Numerals.unsignedDecimal text).map Number.ofRat).getD .nan

/-- A literal without white space around it. -/
def numericLiteral : List Char → Number
  | [] => .ofRat 0
  | '+' :: text => unsignedLiteral text
  | '-' :: text => (unsignedLiteral text).neg
  | '0' :: 'x' :: digits => radixLiteral 16 digits
  | '0' :: 'X' :: digits => radixLiteral 16 digits
  | '0' :: 'o' :: digits => radixLiteral 8 digits
  | '0' :: 'O' :: digits => radixLiteral 8 digits
  | '0' :: 'b' :: digits => radixLiteral 2 digits
  | '0' :: 'B' :: digits => radixLiteral 2 digits
  | text => unsignedLiteral text

/-- `Number(text)`. -/
def stringToNumber (text : String) : Number := numericLiteral (trimText text.toList)

/-- The number of the digits a text starts with. -/
def leadingDigits (text : List Char) : Option ℕ :=
  Numerals.natural (text.takeWhile Char.isDigit)

/-- The number of the digits a text starts with, behind its sign. -/
def signedDigits (negative : Bool) (text : List Char) : Number :=
  match leadingDigits text with
  | none => .nan
  | some n => .ofRat (if negative then -(n : ℚ) else n)

/-- `parseInt(text, 10)`. -/
def parseInt (text : List Char) : Number :=
  match text.dropWhile isWhiteSpace with
  | '+' :: digits => signedDigits false digits
  | '-' :: digits => signedDigits true digits
  | digits => signedDigits false digits

namespace FiniteNumber

/-- A positive number has finitely many decimal digits. -/
theorem written (a : FiniteNumber) (hPos : 0 < a.value) :
    Numerals.Written Binary64.round a.value := by
  refine ⟨hPos, Binary64.round_zero, a.rounded, ?_⟩
  obtain ⟨k, hk⟩ := Binary64.exists_mul_of_rounded a.rounded
  have hNonneg : 0 ≤ k := by
    by_contra hNeg
    have hLess : (k : ℚ) * 2 ^ (-1074 : ℤ) < 0 :=
      mul_neg_of_neg_of_pos (Int.cast_lt_zero.mpr (not_le.mp hNeg)) (Binary64.two_zpow_pos _)
    linarith
  obtain ⟨m, rfl⟩ := Int.eq_ofNat_of_zero_le hNonneg
  refine ⟨m * 5 ^ 1074, 1074, ?_⟩
  rw [hk, zpow_neg, show (1074 : ℤ) = (1074 : ℕ) from rfl, zpow_natCast]
  generalize 1074 = d
  have hTen : (10 : ℚ) ^ d = 2 ^ d * 5 ^ d := by rw [← mul_pow]; norm_num
  rw [hTen, Int.cast_natCast, mul_assoc, inv_mul_cancel_left₀ (pow_ne_zero d two_ne_zero)]
  push_cast
  rfl

/-- The opposite number. -/
def opposite (a : FiniteNumber) : FiniteNumber where
  value := -a.value
  rounded := Binary64.rounded_neg a.rounded
  bounded := by
    rw [abs_neg]
    exact a.bounded

/-- The shortest decimal of a positive number. -/
def positiveText (a : FiniteNumber) (hPos : 0 < a.value) : List Char :=
  Numerals.layout (Numerals.shortest (a.written hPos)) (Numerals.point (a.written hPos))

/-- `Number::toString` of a finite number. -/
def text (a : FiniteNumber) : List Char :=
  if hPos : 0 < a.value then a.positiveText hPos
  else if hNeg : 0 < a.opposite.value then '-' :: a.opposite.positiveText hNeg
  else ['0']

end FiniteNumber

/-- `toString`, and what a template or `String(value)` makes of a number. -/
def Number.toText : Number → String
  | .nan => "NaN"
  | .infinity false => "Infinity"
  | .infinity true => "-Infinity"
  | .finite a => String.ofList a.text

/-! ## The nearest number -/

theorem Number.ofRat_eq_finite {value : ℚ} {a : FiniteNumber}
    (hRound : Binary64.round value = a.value) : Number.ofRat value = .finite a := by
  have hBounded : |Binary64.round value| < 2 ^ 1024 := by
    rw [hRound]
    exact a.bounded
  rw [Number.ofRat, dif_pos hBounded]
  congr 1
  cases a
  congr 1

/-- The nearest number is the rounded one, or an infinity of its sign. -/
theorem Number.ofRat_cases (value : ℚ) :
    (∃ a : FiniteNumber, Number.ofRat value = .finite a ∧ a.value = Binary64.round value) ∨
      Number.ofRat value = .infinity (decide (value < 0)) := by
  unfold Number.ofRat
  split
  · exact Or.inl ⟨_, rfl, rfl⟩
  · exact Or.inr rfl

/-- A whole number of at most 53 digits. -/
def FiniteNumber.ofInt (n : ℤ) (hDigits : |n| ≤ 2 ^ 53) : FiniteNumber where
  value := n
  rounded := Binary64.round_intCast hDigits
  bounded := by
    rw [← Int.cast_abs]
    calc ((|n| : ℤ) : ℚ) ≤ 2 ^ 53 := by exact_mod_cast hDigits
      _ < 2 ^ 1024 := pow_lt_pow_right₀ one_lt_two (by decide)

theorem Number.ofRat_intCast {n : ℤ} (hDigits : |n| ≤ 2 ^ 53) :
    Number.ofRat n = .finite (.ofInt n hDigits) :=
  Number.ofRat_eq_finite (Binary64.round_intCast hDigits)

theorem Number.ofRat_natCast {n : ℕ} (hDigits : n ≤ 2 ^ 53) :
    ∃ a, Number.ofRat n = .finite a ∧ a.value = n := by
  have hInt : |(n : ℤ)| ≤ 2 ^ 53 := by
    rw [Nat.abs_cast]
    exact_mod_cast hDigits
  exact ⟨_, Number.ofRat_intCast hInt, Int.cast_natCast n⟩

theorem Number.le_intCast {m n : ℤ} (hM : |m| ≤ 2 ^ 53) (hN : |n| ≤ 2 ^ 53) :
    (Number.ofRat m).le (.ofRat n) = decide (m ≤ n) := by
  rw [Number.ofRat_intCast hM, Number.ofRat_intCast hN, Number.le_finite, decide_eq_decide]
  exact Int.cast_le

theorem Number.lt_intCast {m n : ℤ} (hM : |m| ≤ 2 ^ 53) (hN : |n| ≤ 2 ^ 53) :
    (Number.ofRat m).lt (.ofRat n) = decide (m < n) := by
  rw [Number.ofRat_intCast hM, Number.ofRat_intCast hN, Number.lt_finite, decide_eq_decide]
  exact Int.cast_lt

theorem Number.strictEq_intCast {m n : ℤ} (hM : |m| ≤ 2 ^ 53) (hN : |n| ≤ 2 ^ 53) :
    (Number.ofRat m).strictEq (.ofRat n) = decide (m = n) := by
  rw [Number.ofRat_intCast hM, Number.ofRat_intCast hN]
  show decide (Number.finite _ = Number.finite _) = decide (m = n)
  simp [FiniteNumber.ofInt]

/-- Whole numbers are added without rounding, up to 53 digits. -/
theorem Number.add_intCast {m n : ℤ} (hM : |m| ≤ 2 ^ 53) (hN : |n| ≤ 2 ^ 53) :
    (Number.ofRat m).add (.ofRat n) = .ofRat ((m + n : ℤ) : ℚ) := by
  rw [Number.ofRat_intCast hM, Number.ofRat_intCast hN, Number.add, FiniteNumber.ofInt,
    FiniteNumber.ofInt, Int.cast_add]

theorem Number.add_natCast {m n : ℕ} (hSum : m + n ≤ 2 ^ 53) :
    (Number.ofRat m).add (.ofRat n) = .ofRat ((m + n : ℕ) : ℚ) := by
  have hAdd := @Number.add_intCast m n (by rw [Nat.abs_cast]; omega) (by rw [Nat.abs_cast]; omega)
  simpa using hAdd

theorem Number.ofRat_value (a : FiniteNumber) : Number.ofRat a.value = .finite a :=
  Number.ofRat_eq_finite a.rounded

/-! ## Reading back what was written -/

theorem Number.neg_finite (a : FiniteNumber) : (Number.finite a).neg = .finite a.opposite :=
  Number.ofRat_value a.opposite

theorem not_isWhiteSpace_of_isPart {c : Char} (hPart : Numerals.IsPart c) :
    isWhiteSpace c = false := by
  rw [← Bool.not_eq_true]
  intro hWhite
  rw [isWhiteSpace, Bool.or_eq_true, decide_eq_true_iff] at hWhite
  rcases hWhite with hListed | hRange
  · simp only [List.mem_cons, List.not_mem_nil, or_false] at hListed
    rcases hListed with rfl | rfl | rfl | rfl | rfl | rfl | rfl | rfl | rfl | rfl | rfl | rfl |
      rfl | rfl
    all_goals exact absurd hPart (by decide)
  · rw [Bool.and_eq_true, decide_eq_true_iff] at hRange
    have hLow : 8192 ≤ c.toNat := hRange.1
    have hHigh := hPart.toNat_le
    omega

theorem trimText_eq_self {text : List Char} (hText : ∀ c ∈ text, isWhiteSpace c = false) :
    trimText text = text := by
  have hFront : text.dropWhile isWhiteSpace = text := by
    cases text with
    | nil => rfl
    | cons c text =>
        rw [List.dropWhile_cons_of_neg]
        rw [hText c List.mem_cons_self]
        exact Bool.false_ne_true
  rw [trimText, hFront, List.rdropWhile_eq_self_iff]
  intro hNonempty
  rw [hText _ (List.getLast_mem hNonempty)]
  exact Bool.false_ne_true

/-- A literal that starts with a digit and has the characters of a written number. -/
theorem numericLiteral_parts {first : Char} {others : List Char}
    (hFirst : first.isDigit = true) (hParts : ∀ c ∈ others, Numerals.IsPart c) :
    numericLiteral (first :: others) = unsignedLiteral (first :: others) := by
  have hLetter : ∀ c ∈ others.head?, c ∉ ['x', 'X', 'o', 'O', 'b', 'B'] := by
    intro c hMem hLetter
    have hPart := hParts c (List.mem_of_mem_head? hMem)
    simp only [List.mem_cons, List.not_mem_nil, or_false] at hLetter
    rcases hLetter with rfl | rfl | rfl | rfl | rfl | rfl
    all_goals exact absurd hPart (by decide)
  unfold numericLiteral
  split
  case h_10 => rfl
  case h_1 => cases ‹_ = []›
  case h_2 hText | h_3 hText =>
    cases hText
    exact absurd hFirst (by decide)
  all_goals
    rename_i hText
    cases hText
    exact absurd (by decide) (hLetter _ rfl)

/-- The text of a positive number is read as the number. -/
theorem unsignedLiteral_positiveText (a : FiniteNumber) (hPos : 0 < a.value) :
    unsignedLiteral (a.positiveText hPos) = .finite a := by
  have hRead := Numerals.reads_layout (a.written hPos)
  obtain ⟨value, hValue, hRound⟩ := Option.map_eq_some_iff.mp hRead
  have hNotInfinity : a.positiveText hPos ≠ "Infinity".toList := by
    intro hText
    obtain ⟨first, others, hHead, hDigit⟩ := Numerals.head_layout
      (Numerals.isDigit_shortest (a.written hPos)) (Numerals.shortest_ne_nil (a.written hPos))
      (Numerals.point (a.written hPos))
    rw [FiniteNumber.positiveText, hHead] at hText
    cases hText
    exact absurd hDigit (by decide)
  rw [unsignedLiteral, if_neg hNotInfinity, FiniteNumber.positiveText, hValue, Option.map_some,
    Option.getD_some, Number.ofRat_eq_finite hRound]

theorem isPart_positiveText (a : FiniteNumber) (hPos : 0 < a.value) :
    ∀ c ∈ a.positiveText hPos, Numerals.IsPart c :=
  Numerals.isPart_layout (Numerals.isDigit_shortest (a.written hPos)) _

theorem numericLiteral_positiveText (a : FiniteNumber) (hPos : 0 < a.value) :
    numericLiteral (a.positiveText hPos) = .finite a := by
  obtain ⟨first, others, hHead, hDigit⟩ := Numerals.head_layout
    (Numerals.isDigit_shortest (a.written hPos)) (Numerals.shortest_ne_nil (a.written hPos))
    (Numerals.point (a.written hPos))
  have hText : a.positiveText hPos = first :: others := hHead
  have hParts : ∀ c ∈ others, Numerals.IsPart c := fun c hMem =>
    isPart_positiveText a hPos c (hText ▸ List.mem_cons_of_mem _ hMem)
  rw [hText, numericLiteral_parts hDigit hParts, ← hText, unsignedLiteral_positiveText]

/-- The text of a finite number is read as the number. -/
theorem numericLiteral_text (a : FiniteNumber) : numericLiteral a.text = .finite a := by
  unfold FiniteNumber.text
  split
  · exact numericLiteral_positiveText a _
  · split
    · rename_i hNeg
      rw [numericLiteral, unsignedLiteral_positiveText, Number.neg_finite]
      congr 1
      cases a
      simp [FiniteNumber.opposite]
    · rename_i hNotPos hNotNeg
      have hZero : a.value = 0 :=
        le_antisymm (not_lt.mp hNotPos) (neg_nonpos.mp (not_lt.mp hNotNeg))
      have hRead : Numerals.unsignedDecimal ['0'] = some 0 := by
        refine (@Numerals.unsignedDecimal_layout ['0'] (by simp) (by simp) 1).trans ?_
        rw [show Numerals.digitsValue ['0'] = 0 from rfl, Nat.cast_zero, zero_mul]
      rw [show numericLiteral ['0'] = unsignedLiteral ['0'] from rfl, unsignedLiteral,
        if_neg (by decide), hRead, Option.map_some, Option.getD_some]
      exact Number.ofRat_eq_finite (Binary64.round_zero.trans hZero.symm)

theorem isPart_text (a : FiniteNumber) : ∀ c ∈ a.text, Numerals.IsPart c := by
  intro c hMem
  unfold FiniteNumber.text at hMem
  split at hMem
  · exact isPart_positiveText a _ c hMem
  · split at hMem
    · rcases List.mem_cons.mp hMem with rfl | hMem
      · decide
      · exact isPart_positiveText _ _ c hMem
    · rw [List.mem_singleton.mp hMem]
      decide

/-- **A number is read back from its text.** -/
theorem stringToNumber_toText (number : Number) : stringToNumber number.toText = number := by
  cases number with
  | nan => decide
  | infinity negative => cases negative <;> decide
  | finite a =>
      have hTrim := trimText_eq_self fun c hMem => not_isWhiteSpace_of_isPart (isPart_text a c hMem)
      rw [stringToNumber, Number.toText, String.toList_ofList, hTrim, numericLiteral_text]

/-- A natural number of at most 53 digits is written as its decimal digits. -/
theorem toText_natCast {n : ℕ} (hDigits : n < 2 ^ 53) : (Number.ofRat n).toText = toString n := by
  obtain ⟨a, hNumber, hValue⟩ := Number.ofRat_natCast hDigits.le
  rw [hNumber, Number.toText, Nat.toString_eq_ofList_toDigits]
  congr 1
  unfold FiniteNumber.text
  split
  · rename_i hPos
    obtain ⟨value, hRounded, hBounded⟩ := a
    subst hValue
    exact Numerals.layout_natCast _ (hDigits.trans (by decide)) fun m hRound =>
      Binary64.eq_of_round_natCast hDigits hRound
  · rename_i hNotPos
    rw [hValue, Nat.cast_pos, Nat.pos_iff_ne_zero, not_not] at hNotPos
    subst hNotPos
    rw [dif_neg]
    · rfl
    · show ¬ 0 < -a.value
      rw [hValue]
      simp

/-! ## Reading digits -/

theorem not_isWhiteSpace_of_isDigit {c : Char} (hDigit : c.isDigit = true) :
    isWhiteSpace c = false :=
  not_isWhiteSpace_of_isPart (Or.inl hDigit)

/-- A text that starts with digits is read as their number. -/
theorem parseInt_digits {digits rest : List Char} (hDigits : ∀ c ∈ digits, c.isDigit = true)
    (hNonempty : digits ≠ []) (hRest : ∀ c ∈ rest.head?, c.isDigit = false) :
    parseInt (digits ++ rest) = .ofRat (Numerals.digitsValue digits) := by
  have hLeading : leadingDigits (digits ++ rest) = some (Numerals.digitsValue digits) := by
    rw [leadingDigits, Numerals.takeWhile_digits hDigits hRest,
      Numerals.natural_eq_some hDigits hNonempty]
  obtain ⟨first, others, rfl⟩ := List.exists_cons_of_ne_nil hNonempty
  have hFirst := hDigits first List.mem_cons_self
  have hFront : (first :: others ++ rest).dropWhile isWhiteSpace = first :: others ++ rest := by
    rw [List.cons_append, List.dropWhile_cons_of_neg]
    rw [not_isWhiteSpace_of_isDigit hFirst]
    exact Bool.false_ne_true
  unfold parseInt
  rw [hFront]
  split
  case h_1 hText =>
    cases hText
    exact absurd hFirst (by decide)
  case h_2 hText =>
    cases hText
    exact absurd hFirst (by decide)
  case h_3 =>
    rw [signedDigits, hLeading]
    rfl

theorem parseInt_run {digits : List Char} (hDigits : ∀ c ∈ digits, c.isDigit = true)
    (hNonempty : digits ≠ []) : parseInt digits = .ofRat (Numerals.digitsValue digits) := by
  have hRead := @parseInt_digits digits [] hDigits hNonempty (by simp)
  rwa [List.append_nil] at hRead

/-- A text is read as NaN, or as the digits it starts with. -/
theorem signedDigits_cases (negative : Bool) (text : List Char) :
    signedDigits negative text = .nan ∨ ∃ digits after : List Char, text = digits ++ after ∧
      (∀ c ∈ digits, c.isDigit = true) ∧ (∀ c ∈ after.head?, c.isDigit = false) ∧
      ∃ n : ℤ, n.natAbs = Numerals.digitsValue digits ∧ signedDigits negative text = .ofRat n := by
  rcases eq_or_ne (text.takeWhile Char.isDigit) [] with hNone | hSome
  · left
    rw [signedDigits, leadingDigits, hNone]
    rfl
  · right
    have hValue := Numerals.natural_eq_some Numerals.isDigit_of_mem_takeWhile hSome
    refine ⟨text.takeWhile Char.isDigit, text.dropWhile Char.isDigit,
      List.takeWhile_append_dropWhile.symm, Numerals.isDigit_of_mem_takeWhile,
      Numerals.not_isDigit_head_dropWhile, ?_⟩
    rw [signedDigits, leadingDigits, hValue]
    cases negative with
    | false =>
        refine ⟨Numerals.digitsValue (text.takeWhile Char.isDigit), Int.natAbs_natCast _, ?_⟩
        simp
    | true =>
        refine ⟨-(Numerals.digitsValue (text.takeWhile Char.isDigit) : ℤ), ?_, ?_⟩
        · rw [Int.natAbs_neg, Int.natAbs_natCast]
        · simp

/-- A text is read as NaN, or as the digits behind white space and a sign. -/
theorem parseInt_cases (text : List Char) :
    parseInt text = .nan ∨ ∃ before digits after : List Char, text = before ++ (digits ++ after) ∧
      (∀ c ∈ before, c.isDigit = false) ∧ (∀ c ∈ digits, c.isDigit = true) ∧
      (∀ c ∈ after.head?, c.isDigit = false) ∧
      ∃ n : ℤ, n.natAbs = Numerals.digitsValue digits ∧ parseInt text = .ofRat n := by
  have hSpace : ∀ c ∈ text.takeWhile isWhiteSpace, c.isDigit = false := by
    intro c hMem
    rw [← Bool.not_eq_true]
    intro hDigit
    have hWhite := List.mem_takeWhile_imp hMem
    rw [not_isWhiteSpace_of_isDigit hDigit] at hWhite
    cases hWhite
  have hText := (@List.takeWhile_append_dropWhile _ isWhiteSpace text).symm
  -- what is read behind the white space, and behind a sign
  have hRead : ∀ (negative : Bool) (sign body : List Char), (∀ c ∈ sign, c.isDigit = false) →
      text.dropWhile isWhiteSpace = sign ++ body → parseInt text = signedDigits negative body →
        parseInt text = .nan ∨ ∃ before digits after : List Char,
          text = before ++ (digits ++ after) ∧ (∀ c ∈ before, c.isDigit = false) ∧
          (∀ c ∈ digits, c.isDigit = true) ∧ (∀ c ∈ after.head?, c.isDigit = false) ∧
          ∃ n : ℤ, n.natAbs = Numerals.digitsValue digits ∧ parseInt text = .ofRat n := by
    intro negative sign body hSign hBody hParse
    rw [hParse]
    refine (signedDigits_cases negative body).imp_right ?_
    rintro ⟨digits, after, hSplit, hDigits, hAfter, hNumber⟩
    refine ⟨text.takeWhile isWhiteSpace ++ sign, digits, after, ?_,
      List.forall_mem_append.mpr ⟨hSpace, hSign⟩, hDigits, hAfter, hNumber⟩
    rw [List.append_assoc, ← hSplit, ← hBody]
    exact hText
  have hParse : parseInt text = parseInt text := rfl
  conv_rhs at hParse => unfold parseInt
  split at hParse
  · rename_i body hBody
    exact hRead false ['+'] body (List.forall_mem_singleton.mpr rfl) hBody hParse
  · rename_i body hBody
    exact hRead true ['-'] body (List.forall_mem_singleton.mpr rfl) hBody hParse
  · exact hRead false [] _ (List.forall_mem_nil _) rfl hParse

end TernScheduler
