import TernScheduler.Datastore.PageKeys
import TernScheduler.Properties.PageWalk
import TernScheduler.Controller.Combined
import TernScheduler.Library.Halting

/-!
# Whether paging ends from any key

A client asks for the page of the key it was given, until it is given none.  The index a page key
is read as may be NaN, an infinity, negative or not whole, and it is moved by sums that are
rounded.

* `PagingEnds`: the client comes to a page without a next key.
* `AnyKey.readsToEnd` says when it does, and `paging_ends_iff` that it is so.
* `AnyKey.pages_natCast`: from an index that the store hands out, the pages are those of the
  queries that count with natural numbers.
-/

namespace TernScheduler

open Stepping

/-- An array of the language has less than 2³² elements. -/
def FitsArray {ρ : Type} (rows : List ρ) : Prop := rows.length < 2 ^ 32

namespace AnyKey

/-- Reading on from a page key comes to a page that gives no next key. -/
def PagingEnds {ρ : Type} (query : Option String → Page ρ) (pageKey : Option String) : Prop :=
  Halts (fun pageKey => ((query pageKey).nextPageKey).map some) pageKey

/-- Adding the limit takes an index to a greater one. -/
def moves (limit start : Number) : Bool := start.lt (start.add limit)

/-- The limit is not less than the number of rows, or the index is not negative, or the limit moves
it, and moves it again where it is still negative. -/
def readsToEnd (rows : ℕ) (limit start : Number) : Bool :=
  !limit.lt (.ofRat rows) || (Number.ofRat 0).le start ||
    (moves limit start &&
      ((Number.ofRat 0).le (start.add limit) || moves limit (start.add limit)))

/-- The index of the next page. -/
def nextIndex (rows : ℕ) (limit start : Number) : Option Number :=
  if limit.lt (.ofRat ((rows - spliceCount start rows : ℕ) : ℚ)) then some (start.add limit)
  else none

/-! ## From page keys to indexes -/

theorem toText_ne_empty (number : Number) : number.toText ≠ "" := by
  intro hEmpty
  have hRead := stringToNumber_toText number
  rw [hEmpty] at hRead
  have hZero : stringToNumber "" = .ofRat 0 := rfl
  rw [hZero] at hRead
  rw [← hRead, Number.ofRat_eq_finite (a := .ofInt 0 (by decide)) (by simp [FiniteNumber.ofInt]),
    Number.toText] at hEmpty
  exact absurd hEmpty (by decide)

@[simp] theorem parsePageKey_toText (number : Number) :
    parsePageKey (some number.toText) = number := by
  have hNaN : number.strictEq .nan = false := by
    cases number <;> simp [Number.strictEq]
  rw [parsePageKey, orNull, Option.filter_some,
    if_pos (decide_eq_true (toText_ne_empty number)), Option.getD_some, stringToNumber_toText,
    hNaN]
  rfl

theorem parsePageKey_none : parsePageKey none = .ofRat 0 := by
  have hRead := parsePageKey_toText (.ofRat (0 : ℕ))
  rwa [toText_natCast (by decide), Nat.cast_zero] at hRead

/-! ## Sums and comparisons -/

/-- A limit of at least one is the infinity or a finite number. -/
theorem limit_cases {limit : Number} (hLimit : (Number.ofRat 1).le limit = true) :
    limit = .infinity false ∨ ∃ a, limit = .finite a ∧ 1 ≤ a.value := by
  obtain ⟨one, hOne, hValue⟩ := Number.ofRat_natCast (n := 1) (by decide)
  rw [Nat.cast_one] at hOne hValue
  rw [hOne] at hLimit
  cases limit with
  | nan => cases hLimit
  | infinity negative =>
      left
      rw [Number.le, Bool.not_eq_true'] at hLimit
      rw [hLimit]
  | finite a =>
      right
      rw [Number.le, decide_eq_true_iff, hValue] at hLimit
      exact ⟨a, rfl, hLimit⟩

theorem lt_natCast {n : ℕ} (hDigits : n ≤ 2 ^ 53) (a : FiniteNumber) :
    (Number.finite a).lt (.ofRat n) = decide (a.value < n) := by
  obtain ⟨b, hB, hValue⟩ := Number.ofRat_natCast hDigits
  rw [hB, Number.lt_finite, hValue]

theorem infinity_lt_natCast {n : ℕ} (hDigits : n ≤ 2 ^ 53) :
    (Number.infinity false).lt (.ofRat n) = false := by
  obtain ⟨b, hB, hValue⟩ := Number.ofRat_natCast hDigits
  rw [hB]
  rfl

theorem zero_le_finite (a : FiniteNumber) :
    (Number.ofRat 0).le (.finite a) = decide (0 ≤ a.value) := by
  obtain ⟨zero, hZero, hValue⟩ := Number.ofRat_natCast (n := 0) (by decide)
  rw [Nat.cast_zero] at hZero hValue
  rw [hZero, Number.le, hValue]

theorem exists_add {a b : FiniteNumber}
    (hBounded : |Binary64.round (a.value + b.value)| < 2 ^ 1024) :
    ∃ c, (Number.finite a).add (.finite b) = .finite c ∧
      c.value = Binary64.round (a.value + b.value) :=
  ⟨_, dif_pos hBounded, rfl⟩

/-- The limit is added to an index below the greatest length without overflow. -/
theorem exists_add_limit {a limit : FiniteNumber} (hLimit : 1 ≤ limit.value)
    (hSmall : limit.value < 2 ^ 32) (hStart : a.value < 2 ^ 32) :
    ∃ b, (Number.finite a).add (.finite limit) = .finite b ∧
      b.value = Binary64.round (a.value + limit.value) := by
  refine exists_add (abs_lt.mpr ?_)
  have hGreat : (2 : ℚ) ^ 34 ≤ 2 ^ 1024 := pow_le_pow_right₀ one_le_two (by decide)
  have hBounded := (abs_lt.mp a.bounded).1
  generalize (2 : ℚ) ^ 1024 = greatest at hGreat hBounded ⊢
  norm_num at hSmall hStart hGreat
  rcases lt_or_ge 0 (a.value + limit.value) with hPos | hNonpos
  · have hNonneg := Binary64.round_nonneg hPos.le
    have hLess := Binary64.round_lt_add_one hPos
      (show a.value + limit.value < 2 ^ 53 by norm_num; linarith)
    constructor <;> linarith
  · have hLow := Binary64.le_round_add a.rounded (by linarith : 0 < limit.value) (by linarith)
    have hHigh := Binary64.round_nonpos hNonpos
    constructor <;> linarith

/-! ## The rows that are found -/

section Query

variable {ρ : Type} {pk : ρ → PrimaryKeyType} {table : MemTable pk} {matching : ρ → Bool}
  {limit : Number}

/-- One row more than the limit suffices to see whether there are more than the limit. -/
theorem lt_min_spliceStart (hLimit : (Number.ofRat 1).le limit = true) {left : ℕ}
    (hLeft : left < 2 ^ 32) :
    limit.lt (.ofRat (min (spliceStart (limit.add (.ofRat 1)) left) left : ℕ)) =
      limit.lt (.ofRat left) := by
  have hLeft' : left ≤ 2 ^ 53 := hLeft.le.trans (by decide)
  rcases limit_cases hLimit with rfl | ⟨a, rfl, hOne⟩
  · rw [infinity_lt_natCast hLeft', infinity_lt_natCast ((min_le_right _ _).trans hLeft')]
  · rw [lt_natCast hLeft', lt_natCast ((min_le_right _ _).trans hLeft'), decide_eq_decide]
    constructor
    · intro hLess
      exact hLess.trans_le (Nat.cast_le.mpr (min_le_right _ _))
    · intro hLess
      have hSmall : a.value < 2 ^ 32 := hLess.trans (by exact_mod_cast hLeft)
      obtain ⟨one, hOneNumber, hOneValue⟩ := Number.ofRat_natCast (n := 1) (by decide)
      rw [Nat.cast_one] at hOneNumber hOneValue
      obtain ⟨sum, hSum, hSumValue⟩ :=
        @exists_add_limit a one (by rw [hOneValue]) (by rw [hOneValue]; norm_num) hSmall
      -- the limit and one is not rounded below the next whole number
      have hFloor : ⌊a.value⌋₊ < 2 ^ 32 := by
        rw [Nat.floor_lt (by linarith)]
        exact_mod_cast hSmall
      have hNext : ((⌊a.value⌋₊ + 1 : ℕ) : ℚ) ≤ sum.value := by
        rw [hSumValue, hOneValue]
        refine Binary64.le_round (by omega) ?_
        push_cast
        linarith [Nat.floor_le (show 0 ≤ a.value by linarith)]
      have hAbove := Nat.lt_floor_add_one a.value
      have hTruncate : ((⌊a.value⌋₊ + 1 : ℕ) : ℤ) ≤ Number.truncate sum.value := by
        rw [Number.truncate, if_pos ((Nat.cast_nonneg _).trans hNext)]
        exact Int.le_floor.mpr (by exact_mod_cast hNext)
      have hStart : min (⌊a.value⌋₊ + 1) left ≤ spliceStart (.finite sum) left := by
        rw [spliceStart, if_neg (by omega)]
        omega
      rw [hOneNumber, hSum]
      have hMin : min (⌊a.value⌋₊ + 1) left ≤ min (spliceStart (.finite sum) left) left := by omega
      refine lt_of_lt_of_le ?_ (Nat.cast_le.mpr hMin)
      rw [Nat.cast_min]
      exact lt_min (by exact_mod_cast hAbove) hLess

/-- The key of the next page is the text of the next index. -/
theorem nextPageKey_eq (hLimit : (Number.ofRat 1).le limit = true) (hFits : FitsArray table.rows)
    (pageKey : Option String) :
    (pagedQuery table matching pageKey limit).nextPageKey =
      (nextIndex (table.rows.filter matching).length limit (parsePageKey pageKey)).map
        Number.toText := by
  have hLength : (find table (parsePageKey pageKey) (limit.add (.ofRat 1)) (some matching)).length =
      min (spliceStart (limit.add (.ofRat 1)) ((table.rows.filter matching).length -
          spliceCount (parsePageKey pageKey) (table.rows.filter matching).length))
        ((table.rows.filter matching).length -
          spliceCount (parsePageKey pageKey) (table.rows.filter matching).length) := by
    simp only [find, MemTable.matching_none, List.length_take, List.length_drop]
  have hLeft : (table.rows.filter matching).length -
      spliceCount (parsePageKey pageKey) (table.rows.filter matching).length < 2 ^ 32 :=
    ((Nat.sub_le _ _).trans (List.length_filter_le _ _)).trans_lt hFits
  rw [pagedQuery, pageResults, hLength, lt_min_spliceStart hLimit hLeft, nextIndex]
  split <;> rfl

/-- Paging ends when the iteration of the index does. -/
theorem pagingEnds_iff_halts (hLimit : (Number.ofRat 1).le limit = true)
    (hFits : FitsArray table.rows) (pageKey : Option String) :
    PagingEnds (fun pageKey => pagedQuery table matching pageKey limit) pageKey ↔
      Halts (nextIndex (table.rows.filter matching).length limit) (parsePageKey pageKey) := by
  refine halts_comp_iff (fun pageKey => ?_) pageKey
  -- the key of the next page is read back as the index it was made of
  have hRead : (parsePageKey ∘ some) ∘ Number.toText = id := funext parsePageKey_toText
  rw [nextPageKey_eq hLimit hFits, Option.map_map, Option.map_map, hRead, Option.map_id, id]

theorem spliceCount_natCast {n : ℕ} (hDigits : n ≤ 2 ^ 53) (length : ℕ) :
    spliceCount (.ofRat n) length = min n length := by
  obtain ⟨a, hNumber, hValue⟩ := Number.ofRat_natCast hDigits
  rw [hNumber, spliceCount, hValue, Number.truncate, if_pos (Nat.cast_nonneg n), Int.floor_natCast,
    Int.toNat_natCast]

theorem spliceStart_natCast {n : ℕ} (hDigits : n ≤ 2 ^ 53) (length : ℕ) :
    spliceStart (.ofRat n) length = min n length := by
  obtain ⟨a, hNumber, hValue⟩ := Number.ofRat_natCast hDigits
  rw [hNumber, spliceStart, hValue, Number.truncate, if_pos (Nat.cast_nonneg n), Int.floor_natCast,
    if_neg (by omega), Int.toNat_natCast]

/-- From an index the store hands out, the page and the next key are those of the queries that
count with natural numbers. -/
theorem pagedQuery_natCast {start most : ℕ} (hSum : start + most < 2 ^ 53) :
    (pagedQuery table matching (some (toString start)) (.ofRat most)).page =
        (TernScheduler.pagedQuery table matching (some (toString start)) most).page ∧
      (pagedQuery table matching (some (toString start)) (.ofRat most)).nextPageKey =
        (TernScheduler.pagedQuery table matching (some (toString start)) most).nextPageKey := by
  have hStart : parsePageKey (some (toString start)) = .ofRat start := by
    rw [← toText_natCast (show start < 2 ^ 53 by omega), parsePageKey_toText]
  have hOne := @Number.add_natCast most 1 (by omega)
  rw [Nat.cast_one] at hOne
  have hFind : find table (.ofRat start) ((Number.ofRat most).add (.ofRat 1)) (some matching) =
      table.find start (most + 1) (some matching) := by
    simp only [find, MemTable.find, MemTable.matching_none, hOne]
    rw [spliceCount_natCast (by omega), spliceStart_natCast (by omega)]
    have hDrop : (table.rows.filter matching).drop (min start (table.rows.filter matching).length) =
        (table.rows.filter matching).drop start := by
      rcases le_total start (table.rows.filter matching).length with hIn | hOut
      · rw [min_eq_left hIn]
      · rw [min_eq_right hOut, List.drop_length, List.drop_eq_nil_of_le hOut]
    rw [hDrop, List.take_eq_take_iff]
    omega
  have hLength : (table.find start (most + 1) (some matching)).length ≤ 2 ^ 53 := by
    rw [MemTable.find, MemTable.matching_none, List.length_take, List.length_drop]
    omega
  obtain ⟨limit, hLimit, hValue⟩ := @Number.ofRat_natCast most (by omega)
  have hMore : (Number.ofRat most).lt
      (.ofRat (table.find start (most + 1) (some matching)).length) =
      decide (most < (table.find start (most + 1) (some matching)).length) := by
    rw [hLimit, lt_natCast hLength, hValue, decide_eq_decide, Nat.cast_lt]
  have hText : ((Number.ofRat start).add (.ofRat most)).toText = toString (start + most) := by
    rw [Number.add_natCast hSum.le, toText_natCast hSum]
  rw [pagedQuery, hStart, hFind, TernScheduler.pagedQuery, parsePageKey_some, Option.getD_some,
    pageResults, hMore, TernScheduler.pageResults]
  by_cases hOver : most < (table.find start (most + 1) (some matching)).length
  · rw [decide_eq_true hOver, if_pos rfl, if_pos hOver, hText]
    exact ⟨rfl, rfl⟩
  · rw [decide_eq_false hOver, if_neg Bool.false_ne_true, if_neg hOver]
    exact ⟨rfl, rfl⟩

end Query

/-! ## The iteration of the index -/

section Iteration

variable {rows : ℕ} {limit : FiniteNumber}

theorem nextIndex_finite (hRows : rows ≤ 2 ^ 53) (start : Number) :
    nextIndex rows (.finite limit) start =
      if limit.value < (rows - spliceCount start rows : ℕ) then some (start.add (.finite limit))
      else none := by
  rw [nextIndex, lt_natCast ((Nat.sub_le _ _).trans hRows)]
  simp only [decide_eq_true_eq]

/-- The index is not negative, or the limit moves it, and moves it again where it is still
negative. -/
def Advances (limit start : ℚ) : Prop :=
  0 ≤ start ∨ start < Binary64.round (start + limit) ∧
    (0 ≤ Binary64.round (start + limit) ∨ Binary64.round (start + limit) <
      Binary64.round (Binary64.round (start + limit) + limit))

/-- One step of the iteration keeps the index advancing. -/
theorem Advances.step {limit start : ℚ} (hRounded : Binary64.round start = start)
    (hLimit : 0 < limit) (hAdvances : Advances limit start) :
    Advances limit (Binary64.round (start + limit)) := by
  rcases hAdvances with hNonneg | ⟨hFirst, hNonneg | hSecond⟩
  · exact Or.inl (Binary64.round_nonneg (by linarith))
  · exact Or.inl hNonneg
  · refine Or.inr ⟨hSecond, ?_⟩
    refine (le_or_gt 0 _).imp_right fun hNeg => ?_
    exact Binary64.round_add_increases hRounded hLimit rfl rfl hFirst hSecond hNeg

/-- How much there is before the end: rows from a start that is not negative, and units of the
format below zero. -/
def remaining (rows : ℕ) : Number → ℕ
  | .finite a =>
      if a.value < 0 then rows + 1 + ⌈-(a.value * 2 ^ 1074)⌉₊ else rows - ⌊a.value⌋₊
  | _ => 0

/-- A greater negative number is less units of the format below zero. -/
theorem ceil_units_lt {a b : FiniteNumber} (hLess : a.value < b.value) (hNeg : b.value < 0) :
    ⌈-(b.value * 2 ^ 1074)⌉₊ < ⌈-(a.value * 2 ^ 1074)⌉₊ := by
  have hUnits : ∀ c : FiniteNumber, ∃ k : ℤ, -(c.value * 2 ^ 1074) = k := by
    intro c
    obtain ⟨k, hk⟩ := Binary64.exists_mul_of_rounded c.rounded
    refine ⟨-k, ?_⟩
    rw [hk, show (-1074 : ℤ) = -((1074 : ℕ) : ℤ) from rfl, zpow_neg, zpow_natCast]
    generalize 1074 = d
    rw [inv_mul_cancel_right₀ (pow_ne_zero d two_ne_zero), Int.cast_neg]
  obtain ⟨k, hk⟩ := hUnits a
  obtain ⟨k', hk'⟩ := hUnits b
  have hPos : (0 : ℚ) < 2 ^ 1074 := pow_pos two_pos _
  have hLess' : k' < k := by
    have hMul := mul_lt_mul_of_pos_right hLess hPos
    exact_mod_cast (show (k' : ℚ) < k by rw [← hk, ← hk']; exact neg_lt_neg hMul)
  have hPos' : 0 < k' := by
    have hMul := mul_neg_of_neg_of_pos hNeg hPos
    exact_mod_cast (show (0 : ℚ) < k' by rw [← hk']; exact neg_pos.mpr hMul)
  rw [hk, hk', Nat.ceil_intCast, Nat.ceil_intCast]
  omega

/-- There are rows behind an index from which more than the limit are left. -/
theorem floor_lt_rows {a : FiniteNumber} (hLimit : 1 ≤ limit.value) (hNonneg : 0 ≤ a.value)
    (hMore : limit.value < (rows - spliceCount (.finite a) rows : ℕ)) : ⌊a.value⌋₊ < rows := by
  have hTruncate : (Number.truncate a.value).toNat = ⌊a.value⌋₊ := by
    rw [Number.truncate, if_pos hNonneg]
    rfl
  have hSome : 0 < rows - spliceCount (.finite a) rows := by
    have hPos : (0 : ℚ) < (rows - spliceCount (.finite a) rows : ℕ) := by linarith
    exact_mod_cast hPos
  rw [spliceCount, hTruncate] at hSome
  omega

/-- A step leaves less before the end. -/
theorem remaining_lt {a b : FiniteNumber} (hLimit : 1 ≤ limit.value) (hRows : rows < 2 ^ 32)
    (hMore : limit.value < (rows - spliceCount (.finite a) rows : ℕ))
    (hValue : b.value = Binary64.round (a.value + limit.value))
    (hAdvances : Advances limit.value a.value) :
    remaining rows (.finite b) < remaining rows (.finite a) := by
  rcases le_or_gt 0 a.value with hNonneg | hNeg
  · have hFloorA := floor_lt_rows hLimit hNonneg hMore
    -- the sum is not rounded below the next whole number
    have hNext : ((⌊a.value⌋₊ + 1 : ℕ) : ℚ) ≤ b.value := by
      rw [hValue]
      refine Binary64.le_round (by omega) ?_
      push_cast
      linarith [Nat.floor_le hNonneg]
    have hFloor : ⌊a.value⌋₊ + 1 ≤ ⌊b.value⌋₊ := Nat.le_floor hNext
    have hNonnegB : 0 ≤ b.value := (Nat.cast_nonneg _).trans hNext
    rw [remaining, remaining, if_neg (not_lt.mpr hNonnegB), if_neg (not_lt.mpr hNonneg)]
    omega
  · rw [remaining, remaining, if_pos hNeg]
    split
    · rename_i hNegB
      have hFirst : a.value < b.value := by
        rw [hValue]
        exact (hAdvances.resolve_left (not_le.mpr hNeg)).1
      have hUnits := ceil_units_lt hFirst hNegB
      omega
    · omega

/-- An index that advances comes to the end of the rows. -/
theorem halts_of_advances {a : FiniteNumber} (hLimit : 1 ≤ limit.value)
    (hSmall : limit.value < 2 ^ 32) (hRows : rows < 2 ^ 32)
    (hAdvances : Advances limit.value a.value) :
    Halts (nextIndex rows (.finite limit)) (.finite a) := by
  -- an advancing index stays one, with less before the end
  have hStep : ∀ s t, (∃ a, s = .finite a ∧ Advances limit.value a.value) →
      nextIndex rows (.finite limit) s = some t →
      (∃ b, t = .finite b ∧ Advances limit.value b.value) ∧
        remaining rows t < remaining rows s := by
    rintro s t ⟨a, rfl, hAdvances⟩ hNext
    rw [nextIndex_finite (hRows.le.trans (by decide))] at hNext
    split at hNext
    · rename_i hMore
      have hStart : a.value < 2 ^ 32 := by
        rcases le_or_gt 0 a.value with hNonneg | hNeg
        · have hFloor := (floor_lt_rows hLimit hNonneg hMore).trans hRows
          rw [Nat.floor_lt hNonneg] at hFloor
          exact_mod_cast hFloor
        · exact hNeg.trans (by positivity)
      obtain ⟨b, hSum, hValue⟩ := exists_add_limit hLimit hSmall hStart
      rw [hSum, Option.some_inj] at hNext
      rw [← hNext]
      refine ⟨⟨b, rfl, ?_⟩, remaining_lt hLimit hRows hMore hValue hAdvances⟩
      rw [hValue]
      exact hAdvances.step a.rounded (by linarith)
    · cases hNext
  exact Halts.of_measure (remaining rows) hStep ⟨a, rfl, hAdvances⟩

/-- From a negative index on all rows are left. -/
theorem nextIndex_negative {a : FiniteNumber} (hMore : limit.value < rows) (hRows : rows < 2 ^ 32)
    (hNeg : a.value < 0) :
    nextIndex rows (.finite limit) (.finite a) =
      some ((Number.finite a).add (.finite limit)) := by
  have hTruncate : (Number.truncate a.value).toNat = 0 := by
    rw [Number.truncate, if_neg (not_le.mpr hNeg), Int.toNat_eq_zero]
    exact Int.ceil_le.mpr (by exact_mod_cast hNeg.le)
  rw [nextIndex_finite (hRows.le.trans (by decide)), spliceCount, hTruncate, Nat.zero_min,
    Nat.sub_zero, if_pos hMore]

/-- A negative index that the limit does not move is asked for again and again. -/
theorem not_halts_of_stuck {a : FiniteNumber} (hLimit : 1 ≤ limit.value)
    (hMore : limit.value < rows) (hRows : rows < 2 ^ 32) (hNeg : a.value < 0)
    (hStuck : ¬ a.value < Binary64.round (a.value + limit.value)) :
    ¬ Halts (nextIndex rows (.finite limit)) (.finite a) := by
  have hSmall : limit.value < 2 ^ 32 := hMore.trans (by exact_mod_cast hRows)
  obtain ⟨b, hSum, hValue⟩ := exists_add_limit hLimit hSmall (hNeg.trans (by positivity))
  have hSame : b.value = a.value := by
    rw [hValue]
    exact le_antisymm (not_lt.mp hStuck)
      (Binary64.le_round_add a.rounded (by linarith) hNeg.le)
  have hStep : ∀ s, s = Number.finite a →
      ∃ t, nextIndex rows (.finite limit) s = some t ∧ t = Number.finite a := by
    rintro s rfl
    refine ⟨_, nextIndex_negative hMore hRows hNeg, hSum.trans ?_⟩
    cases a
    cases b
    simp only at hSame
    congr
  exact not_halts hStep rfl

/-- An index that does not advance is stuck where it is, or one step further. -/
theorem not_halts_of_not_advances {a : FiniteNumber} (hLimit : 1 ≤ limit.value)
    (hMore : limit.value < rows) (hRows : rows < 2 ^ 32) (hNot : ¬ Advances limit.value a.value) :
    ¬ Halts (nextIndex rows (.finite limit)) (.finite a) := by
  have hNeg : a.value < 0 := not_le.mp fun hNonneg => hNot (Or.inl hNonneg)
  rcases Classical.em (a.value < Binary64.round (a.value + limit.value)) with hFirst | hStuck
  · have hSmall : limit.value < 2 ^ 32 := hMore.trans (by exact_mod_cast hRows)
    obtain ⟨b, hSum, hValue⟩ := exists_add_limit hLimit hSmall (hNeg.trans (by positivity))
    have hNegB : b.value < 0 := by
      rw [hValue]
      exact not_le.mp fun hNonneg => hNot (Or.inr ⟨hFirst, Or.inl hNonneg⟩)
    have hStuckB : ¬ b.value < Binary64.round (b.value + limit.value) := by
      rw [hValue]
      exact fun hSecond => hNot (Or.inr ⟨hFirst, Or.inr hSecond⟩)
    -- the first step goes to `b`, and from there it does not end
    intro hHalts
    have hNext := (nextIndex_negative hMore hRows hNeg).trans (congrArg some hSum)
    cases hHalts with
    | last hLast =>
        rw [hNext] at hLast
        cases hLast
    | step hStep hRest =>
        rw [hNext, Option.some_inj] at hStep
        rw [← hStep] at hRest
        exact not_halts_of_stuck hLimit hMore hRows hNegB hStuckB hRest
  · exact not_halts_of_stuck hLimit hMore hRows hNeg hStuck

/-- What is executed says whether an index advances. -/
theorem readsToEnd_finite_iff {a : FiniteNumber} (hLimit : 1 ≤ limit.value)
    (hMore : limit.value < rows) (hRows : rows < 2 ^ 32) :
    readsToEnd rows (.finite limit) (.finite a) = true ↔ Advances limit.value a.value := by
  have hSmall : limit.value < 2 ^ 32 := hMore.trans (by exact_mod_cast hRows)
  rw [readsToEnd, lt_natCast (hRows.le.trans (by decide)), decide_eq_true hMore, zero_le_finite]
  rcases le_or_gt 0 a.value with hNonneg | hNeg
  · rw [decide_eq_true hNonneg]
    exact iff_of_true rfl (Or.inl hNonneg)
  · obtain ⟨b, hSum, hValue⟩ := exists_add_limit hLimit hSmall (hNeg.trans (by positivity))
    -- a sum with a negative index is small again
    have hStart : b.value < 2 ^ 32 := by
      rw [hValue]
      rcases lt_or_ge 0 (a.value + limit.value) with hPos | hNonpos
      · have hLength : (rows : ℚ) + 1 ≤ 2 ^ 32 := by exact_mod_cast hRows
        have hLess := Binary64.round_lt_add_one hPos (by norm_num at hSmall ⊢; linarith)
        linarith
      · exact (Binary64.round_nonpos hNonpos).trans_lt (by positivity)
    obtain ⟨c, hSum', hValue'⟩ := exists_add_limit hLimit hSmall hStart
    rw [moves, moves, hSum, hSum', Number.lt_finite, Number.lt_finite, zero_le_finite, Advances,
      hValue', hValue]
    simp [not_le.mpr hNeg]

end Iteration

/-- Paging from an index ends exactly when it is read to the end. -/
theorem halts_nextIndex_iff {rows : ℕ} {limit : Number}
    (hLimit : (Number.ofRat 1).le limit = true) (hRows : rows < 2 ^ 32) (start : Number) :
    Halts (nextIndex rows limit) start ↔ readsToEnd rows limit start = true := by
  have hDigits : rows ≤ 2 ^ 53 := hRows.le.trans (by decide)
  obtain ⟨zero, hZero, -⟩ := Number.ofRat_natCast (n := 0) (by decide)
  rw [Nat.cast_zero] at hZero
  rcases limit_cases hLimit with rfl | ⟨limit, rfl, hOne⟩
  · have hLast : nextIndex rows (.infinity false) start = none := by
      rw [nextIndex, infinity_lt_natCast ((Nat.sub_le _ _).trans hDigits)]
      rfl
    refine iff_of_true (.last hLast) ?_
    rw [readsToEnd, infinity_lt_natCast hDigits]
    rfl
  · rcases Classical.em (limit.value < rows) with hMore | hAll
    · have hLess := (lt_natCast hDigits limit).trans (decide_eq_true hMore)
      -- an index that is taken for the start, and that a sum leaves as it is
      have hStays : ∀ s, spliceCount s rows = 0 → s.add (.finite limit) = s →
          ¬ Halts (nextIndex rows (.finite limit)) s := by
        intro s hCount hSame
        have hStep : ∀ t, t = s → ∃ u, nextIndex rows (.finite limit) t = some u ∧ u = s := by
          rintro t rfl
          refine ⟨t, ?_, rfl⟩
          rw [nextIndex_finite hDigits, hCount, Nat.sub_zero, if_pos hMore, hSame]
        exact not_halts hStep rfl
      cases start with
      | nan =>
          refine iff_of_false (hStays _ rfl rfl) ?_
          rw [readsToEnd, hLess, hZero]
          exact Bool.false_ne_true
      | infinity negative =>
          cases negative with
          | false =>
              have hLast : nextIndex rows (.finite limit) (.infinity false) = none := by
                rw [nextIndex_finite hDigits, spliceCount, if_neg Bool.false_ne_true,
                  Nat.sub_self, if_neg (by rw [Nat.cast_zero]; linarith)]
              refine iff_of_true (.last hLast) ?_
              rw [readsToEnd, hLess, hZero]
              rfl
          | true =>
              refine iff_of_false (hStays _ rfl rfl) ?_
              rw [readsToEnd, hLess, hZero]
              exact Bool.false_ne_true
      | finite a =>
          rw [readsToEnd_finite_iff hOne hMore hRows]
          refine ⟨fun hHalts => Classical.not_not.mp fun hNot => ?_, fun hAdvances => ?_⟩
          · exact not_halts_of_not_advances hOne hMore hRows hNot hHalts
          · exact halts_of_advances hOne (hMore.trans (by exact_mod_cast hRows)) hRows hAdvances
    · have hLast : nextIndex rows (.finite limit) start = none := by
        have hLeft : ((rows - spliceCount start rows : ℕ) : ℚ) ≤ rows :=
          Nat.cast_le.mpr (Nat.sub_le _ _)
        rw [nextIndex_finite hDigits, if_neg]
        exact fun hLess => hAll (hLess.trans_le hLeft)
      refine iff_of_true (.last hLast) ?_
      rw [readsToEnd, lt_natCast hDigits, decide_eq_false hAll]
      rfl

/-! ## The queries of the data store -/

theorem scheduledJobPage_eq (query : ScheduledJobQuery) (db : MemoryDatabase) (limit : Number) :
    scheduledJobPage query db limit =
      fun pageKey => pagedQuery db.scheduledJobTable query.wants pageKey limit := by
  funext pageKey
  rw [scheduledJobPage, query.matches_conditional]

theorem taskPage_eq (query : TaskQuery) (db : MemoryDatabase) (limit : Number) :
    taskPage query db limit =
      fun pageKey => pagedQuery db.taskTable query.wants pageKey limit := by
  funext pageKey
  rw [taskPage, query.matches_conditional]

/-- **From an index the store hands out** every query answers as it does with natural numbers. -/
theorem pages_natCast (db : MemoryDatabase) {start most : ℕ} (hSum : start + most < 2 ^ 53) :
    (∀ query : ScheduledJobQuery,
      (scheduledJobPage query db (.ofRat most) (some (toString start))).page =
          (query.page db most (some (toString start))).page ∧
        (scheduledJobPage query db (.ofRat most) (some (toString start))).nextPageKey =
          (query.page db most (some (toString start))).nextPageKey) ∧
      ∀ query : TaskQuery,
        (taskPage query db (.ofRat most) (some (toString start))).page =
            (query.page db most (some (toString start))).page ∧
          (taskPage query db (.ofRat most) (some (toString start))).nextPageKey =
            (query.page db most (some (toString start))).nextPageKey := by
  constructor
  · intro query
    rw [query.page_def]
    exact pagedQuery_natCast hSum
  · intro query
    rw [query.page_def]
    exact pagedQuery_natCast hSum

end AnyKey

/-- **Paging ends from a page key** exactly when the rows the query is about are read to the end
from the index of the key. -/
theorem paging_ends_iff (db : MemoryDatabase) {limit : Number}
    (hLimit : (Number.ofRat 1).le limit = true) (hJobs : FitsArray db.scheduledJobTable.rows)
    (hTasks : FitsArray db.taskTable.rows) (pageKey : Option String) :
    (∀ query : ScheduledJobQuery,
      AnyKey.PagingEnds (AnyKey.scheduledJobPage query db limit) pageKey ↔
        AnyKey.readsToEnd (db.scheduledJobTable.rows.filter query.wants).length limit
          (AnyKey.parsePageKey pageKey) = true) ∧
      ∀ query : TaskQuery,
        AnyKey.PagingEnds (AnyKey.taskPage query db limit) pageKey ↔
          AnyKey.readsToEnd (db.taskTable.rows.filter query.wants).length limit
            (AnyKey.parsePageKey pageKey) = true := by
  constructor
  · intro query
    rw [AnyKey.scheduledJobPage_eq, AnyKey.pagingEnds_iff_halts hLimit hJobs,
      AnyKey.halts_nextIndex_iff hLimit ((List.length_filter_le _ _).trans_lt hJobs)]
  · intro query
    rw [AnyKey.taskPage_eq, AnyKey.pagingEnds_iff_halts hLimit hTasks,
      AnyKey.halts_nextIndex_iff hLimit ((List.length_filter_le _ _).trans_lt hTasks)]

/-- A store of two pending tasks. -/
private def twoPending : MemoryDatabase where
  taskTable :=
    { name := "ScheduledJob"
      rows := [pendingTask "first" "job" 0 (some 0), pendingTask "second" "job" 0 (some 0)]
      pks := ["first", "second"] }

private theorem one_le_one : (Number.ofRat 1).le (.ofRat 1) = true := by
  obtain ⟨one, hOne, -⟩ := Number.ofRat_natCast (n := 1) (by decide)
  rw [Nat.cast_one] at hOne
  rw [hOne, Number.le_finite, decide_eq_true_iff]

/-- Two pending tasks are read to the end from the first page, one at a time. -/
theorem paging_ends_from_start :
    AnyKey.PagingEnds (AnyKey.taskPage .getPendingTasks twoPending (.ofRat 1)) none := by
  refine ((paging_ends_iff twoPending one_le_one (by decide : (0 : ℕ) < 2 ^ 32)
    (by decide : (2 : ℕ) < 2 ^ 32) none).2 .getPendingTasks).mpr ?_
  obtain ⟨zero, hZero, -⟩ := Number.ofRat_natCast (n := 0) (by decide)
  rw [Nat.cast_zero] at hZero
  rw [AnyKey.parsePageKey_none, AnyKey.readsToEnd, hZero, Number.le_finite, decide_eq_true le_rfl,
    Bool.or_true, Bool.true_or]

/-- **A text that is no number never comes to an end.**  Two pending tasks are read from the key
"x", one at a time. -/
theorem paging_repeats :
    ¬ ∀ (db : MemoryDatabase) (limit : Number), (Number.ofRat 1).le limit = true →
      FitsArray db.scheduledJobTable.rows → FitsArray db.taskTable.rows →
        ∀ (pageKey : Option String) (query : TaskQuery),
          AnyKey.PagingEnds (AnyKey.taskPage query db limit) pageKey := by
  intro hLaw
  have hTasks : FitsArray twoPending.taskTable.rows := (by decide : (2 : ℕ) < 2 ^ 32)
  have hEnds := hLaw twoPending (.ofRat 1) one_le_one (by decide : (0 : ℕ) < 2 ^ 32) hTasks
    (some "x") .getPendingTasks
  have hNaN : AnyKey.parsePageKey (some "x") = .nan := by decide
  have hRows : (twoPending.taskTable.rows.filter TaskQuery.getPendingTasks.wants).length = 2 := by
    decide
  rw [AnyKey.taskPage_eq, AnyKey.pagingEnds_iff_halts one_le_one hTasks, hNaN, hRows,
    AnyKey.halts_nextIndex_iff one_le_one (by decide)] at hEnds
  obtain ⟨one, hOne, hOneValue⟩ := Number.ofRat_natCast (n := 1) (by decide)
  obtain ⟨zero, hZero, -⟩ := Number.ofRat_natCast (n := 0) (by decide)
  rw [Nat.cast_one] at hOne hOneValue
  rw [Nat.cast_zero] at hZero
  rw [AnyKey.readsToEnd, hOne, AnyKey.lt_natCast (by decide), hOneValue, hZero,
    decide_eq_true (by norm_num)] at hEnds
  exact Bool.false_ne_true hEnds

end TernScheduler
