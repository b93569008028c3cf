import TernScheduler.Cron.Expression

/-!
# Rewriting the ranges of a field

What one step of `convertRange` does to a text, and what all of them do.

* `RangeMatch.Splits` is what a match of the range expression is; `execMatch` finds one.
* `writeNumbers_eq`: the loop over a range writes its numbers, separated by commas.
* `SmallRuns`: all digit runs of a text are numbers below 2⁵³.  A step keeps that, and takes a
  dash out of the text, so the rewriting ends (`convertRange_ends`).
-/

namespace TernScheduler

/-! ## Matches -/

/-- A text and the match of two digit runs and a dash in it. -/
structure RangeMatch.Splits (found : RangeMatch) (text : List Char) : Prop where
  text : text = found.before ++ (found.first ++ '-' :: (found.last ++ found.after))
  first : ∀ c ∈ found.first, c.isDigit = true
  first_nonempty : found.first ≠ []
  last : ∀ c ∈ found.last, c.isDigit = true
  last_nonempty : found.last ≠ []
  before : ∀ c ∈ found.before.getLast?, c.isDigit = false
  after : ∀ c ∈ found.after.head?, c.isDigit = false

/-- A match at the first position starts with the digits there. -/
theorem splits_of_matchHere {text : List Char} {found : RangeMatch}
    (hFound : matchHere text = some found) : found.before = [] ∧ found.Splits text := by
  unfold matchHere at hFound
  split at hFound
  · rename_i rest hDash
    split at hFound
    · rename_i hDigits
      rw [Option.some_inj] at hFound
      subst hFound
      refine ⟨rfl, ?_, Numerals.isDigit_of_mem_takeWhile, hDigits.1,
        Numerals.isDigit_of_mem_takeWhile, hDigits.2,
        by simp, Numerals.not_isDigit_head_dropWhile⟩
      rw [List.takeWhile_append_dropWhile, ← hDash]
      exact List.takeWhile_append_dropWhile.symm
    · cases hFound
  · cases hFound

/-- A match at the first position, from its parts. -/
theorem matchHere_of_splits {text : List Char} {found : RangeMatch}
    (hBefore : found.before = []) (hSplits : found.Splits text) :
    matchHere text = some found := by
  have hDash : ∀ c ∈ ('-' :: (found.last ++ found.after)).head?, c.isDigit = false := by
    rintro _ ⟨rfl⟩
    rfl
  rw [hSplits.text, hBefore, List.nil_append, matchHere,
    Numerals.dropWhile_digits hSplits.first hDash, Numerals.takeWhile_digits hSplits.first hDash]
  simp only [Numerals.takeWhile_digits hSplits.last hSplits.after,
    Numerals.dropWhile_digits hSplits.last hSplits.after]
  rw [if_pos ⟨hSplits.first_nonempty, hSplits.last_nonempty⟩, ← hBefore]

theorem splits_of_execMatch {text : List Char} {found : RangeMatch}
    (hFound : execMatch text = some found) : found.Splits text := by
  induction text generalizing found with
  | nil => cases hFound
  | cons c text ih =>
      rw [execMatch] at hFound
      cases hHere : matchHere (c :: text) with
      | some here =>
          rw [hHere] at hFound
          cases hFound
          exact (splits_of_matchHere hHere).2
      | none =>
          rw [hHere] at hFound
          obtain ⟨later, hLater, rfl⟩ := Option.map_eq_some_iff.mp hFound
          have hSplits := ih hLater
          refine { hSplits with text := ?_, before := ?_ }
          · rw [List.cons_append]
            exact congrArg (c :: ·) hSplits.text
          · intro d hMem
            cases hBefore : later.before with
            | nil =>
                -- a digit before the match would belong to it
                rw [hBefore, List.getLast?_singleton, Option.mem_some_iff] at hMem
                subst hMem
                rw [← Bool.not_eq_true]
                intro hDigit
                have hMore : RangeMatch.Splits { later with first := c :: later.first }
                    (c :: text) :=
                  { hSplits with
                    text := by
                      rw [hBefore, List.nil_append, List.cons_append]
                      have hText := hSplits.text
                      rw [hBefore, List.nil_append] at hText
                      exact congrArg (c :: ·) hText
                    first := List.forall_mem_cons.mpr ⟨hDigit, hSplits.first⟩
                    first_nonempty := List.cons_ne_nil _ _ }
                have hMatch := @matchHere_of_splits _ { later with first := c :: later.first }
                  hBefore hMore
                rw [hMatch] at hHere
                cases hHere
            | cons e before =>
                refine hSplits.before d ?_
                rw [hBefore, List.getLast?_cons_cons] at hMem
                rwa [hBefore]

theorem execMatch_of_not_mem {text : List Char} (hDash : '-' ∉ text) : execMatch text = none := by
  cases hFound : execMatch text with
  | none => rfl
  | some found =>
      refine absurd ?_ hDash
      rw [(splits_of_execMatch hFound).text]
      simp

/-! ## The numbers of a range -/

/-- The numbers from the first to the last one, separated by commas. -/
def numbersText (first last : ℕ) : List Char :=
  [','].intercalate ((List.range' first (last + 1 - first)).map (Nat.toDigits 10))

theorem templateText_natCast {n : ℕ} (hDigits : n < 2 ^ 53) :
    templateText (.ofRat n) = Nat.toDigits 10 n := by
  rw [templateText, toText_natCast hDigits, Nat.toString_eq_ofList_toDigits, String.toList_ofList]

/-- One turn of the loop over a range. -/
theorem writeNumbers_succ {i last : ℕ} (hI : i ≤ last + 1) (hDigits : last < 2 ^ 53) (fuel : ℕ)
    (nx : List Char) :
    writeNumbers (.ofRat last) (fuel + 1) (.ofRat i) nx =
      if i ≤ last then
        writeNumbers (.ofRat last) fuel (.ofRat (i + 1 : ℕ))
          (nx ++ Nat.toDigits 10 i ++ if i = last then [] else [','])
      else some nx := by
  have hBound : |((i : ℤ))| ≤ 2 ^ 53 := by rw [Nat.abs_cast]; omega
  have hBound' : |((last : ℤ))| ≤ 2 ^ 53 := by rw [Nat.abs_cast]; omega
  have hLe := Number.le_intCast hBound hBound'
  have hEq := Number.strictEq_intCast hBound hBound'
  simp only [Int.cast_natCast, Nat.cast_le, Nat.cast_inj] at hLe hEq
  rw [writeNumbers, hLe, hEq]
  by_cases hIn : i ≤ last
  · have hNext := Number.add_natCast (show i + 1 ≤ 2 ^ 53 by omega)
    rw [Nat.cast_one] at hNext
    rw [if_pos (decide_eq_true hIn), if_pos hIn, templateText_natCast (by omega), hNext]
    by_cases hSame : i = last
    · simp only [hSame, decide_true, if_pos, List.append_nil]
    · simp only [hSame, decide_false, Bool.false_eq_true, if_false]
  · rw [if_neg (by simpa using hIn), if_neg hIn]

theorem numbersText_self (n : ℕ) : numbersText n n = Nat.toDigits 10 n := by
  rw [numbersText, Nat.add_sub_cancel_left, List.range'_succ, List.range'_zero, List.map_cons,
    List.map_nil, List.intercalate_singleton]

theorem numbersText_of_lt {first last : ℕ} (hLt : first < last) :
    numbersText first last = Nat.toDigits 10 first ++ ',' :: numbersText (first + 1) last := by
  obtain ⟨count, rfl⟩ := Nat.exists_eq_add_of_lt hLt
  rw [numbersText, numbersText, show first + count + 1 + 1 - first = count + 1 + 1 by omega,
    show first + count + 1 + 1 - (first + 1) = count + 1 by omega, List.range'_succ,
    List.range'_succ, List.map_cons, List.map_cons, List.intercalate_cons_cons]
  simp

/-- The loop over a range ends, and writes its numbers. -/
theorem writeNumbers_eq {first last : ℕ} (hLe : first ≤ last) (hDigits : last < 2 ^ 53)
    {fuel : ℕ} (hFuel : last - first + 2 ≤ fuel) (nx : List Char) :
    writeNumbers (.ofRat last) fuel (.ofRat first) nx = some (nx ++ numbersText first last) := by
  induction hCount : last - first generalizing first fuel nx with
  | zero =>
      obtain rfl : first = last := by omega
      obtain ⟨fuel, rfl⟩ := Nat.exists_eq_add_of_le' (show 2 ≤ fuel by omega)
      rw [writeNumbers_succ (by omega) hDigits, if_pos le_rfl, if_pos rfl, List.append_nil,
        writeNumbers_succ le_rfl hDigits, if_neg (by omega), numbersText_self]
  | succ count ih =>
      obtain ⟨fuel, rfl⟩ := Nat.exists_eq_add_of_le' (show 1 ≤ fuel by omega)
      rw [writeNumbers_succ (by omega) hDigits, if_pos hLe, if_neg (by omega),
        ih (by omega) (by omega) _ (by omega), numbersText_of_lt (show first < last by omega)]
      simp only [List.append_assoc, List.cons_append, List.nil_append]

/-! ## Steps of the rewriting -/

/-- The text of a match with its range written out. -/
def RangeMatch.rewritten (found : RangeMatch) : List Char :=
  found.before ++
    (numbersText (min (Numerals.digitsValue found.first) (Numerals.digitsValue found.last))
        (max (Numerals.digitsValue found.first) (Numerals.digitsValue found.last)) ++
      found.after)

/-- The turns of the loop over the range of a match. -/
def RangeMatch.turns (found : RangeMatch) : ℕ :=
  max (Numerals.digitsValue found.first) (Numerals.digitsValue found.last) + 2

/-- A step of the rewriting writes the first range out, from its lesser end to its greater one. -/
theorem convertRange_succ {text : List Char} {found : RangeMatch}
    (hFound : execMatch text = some found) (hFirst : Numerals.digitsValue found.first < 2 ^ 53)
    (hLast : Numerals.digitsValue found.last < 2 ^ 53) {fuel : ℕ} (hFuel : found.turns ≤ fuel) :
    convertRange (fuel + 1) text = convertRange fuel found.rewritten := by
  have hSplits := splits_of_execMatch hFound
  have hLt := @Number.lt_intCast (Numerals.digitsValue found.last)
    (Numerals.digitsValue found.first) (by rw [Nat.abs_cast]; omega) (by rw [Nat.abs_cast]; omega)
  simp only [Int.cast_natCast, Nat.cast_lt] at hLt
  unfold RangeMatch.turns at hFuel
  rw [convertRange, hFound]
  simp only [parseInt_run hSplits.first hSplits.first_nonempty,
    parseInt_run hSplits.last hSplits.last_nonempty, hLt, RangeMatch.rewritten]
  rcases Nat.lt_or_ge (Numerals.digitsValue found.last) (Numerals.digitsValue found.first) with
    hSwapped | hOrdered
  · rw [if_pos (decide_eq_true hSwapped), min_eq_right hSwapped.le, max_eq_left hSwapped.le]
    simp only
    rw [writeNumbers_eq hSwapped.le hFirst (by omega), Option.bind_some, List.append_assoc]
  · rw [if_neg (by simpa using hOrdered), min_eq_left hOrdered, max_eq_right hOrdered]
    simp only
    rw [writeNumbers_eq hOrdered hLast (by omega), Option.bind_some, List.append_assoc]

/-- The rewriting of a text ends with the result. -/
def RewritesTo (text result : List Char) : Prop :=
  ∃ least, ∀ fuel, least ≤ fuel → convertRange fuel text = some result

theorem RewritesTo.done {text : List Char} (hDone : execMatch text = none) :
    RewritesTo text text := by
  refine ⟨1, fun fuel hFuel => ?_⟩
  obtain ⟨fuel, rfl⟩ := Nat.exists_eq_add_of_le' hFuel
  rw [convertRange, hDone]

/-- Before the result is reached, the first range is written out. -/
theorem RewritesTo.step {text result : List Char} {found : RangeMatch}
    (hFound : execMatch text = some found) (hFirst : Numerals.digitsValue found.first < 2 ^ 53)
    (hLast : Numerals.digitsValue found.last < 2 ^ 53)
    (hRest : RewritesTo found.rewritten result) : RewritesTo text result := by
  obtain ⟨least, hEnds⟩ := hRest
  refine ⟨max least found.turns + 1, fun fuel hFuel => ?_⟩
  obtain ⟨fuel, rfl⟩ := Nat.exists_eq_add_of_le' (show 1 ≤ fuel by omega)
  rw [convertRange_succ hFound hFirst hLast (by omega)]
  exact hEnds fuel (by omega)

/-! ## Small runs -/

/-- The digit runs of a text, with an empty one where two other characters meet. -/
def digitRuns (text : List Char) : List (List Char) := text.splitOnP fun c => !c.isDigit

/-- The digit runs are numbers below 2⁵³. -/
def SmallRuns (text : List Char) : Prop :=
  ∀ run ∈ digitRuns text, Numerals.digitsValue run < 2 ^ 53

instance : DecidablePred SmallRuns := fun _ => inferInstanceAs (Decidable (∀ _ ∈ _, _))

theorem smallRuns_nil : SmallRuns [] := by decide

theorem smallRuns_append_cons {a b : List Char} {c : Char} (hOther : c.isDigit = false) :
    SmallRuns (a ++ c :: b) ↔ SmallRuns a ∧ SmallRuns b := by
  rw [SmallRuns, digitRuns, List.splitOnP_append_cons a b (by rw [hOther]; rfl),
    List.forall_mem_append]
  rfl

theorem smallRuns_cons {b : List Char} {c : Char} (hOther : c.isDigit = false) :
    SmallRuns (c :: b) ↔ SmallRuns b := by
  have hSplit := @smallRuns_append_cons [] b c hOther
  rw [List.nil_append] at hSplit
  exact hSplit.trans (and_iff_right smallRuns_nil)

theorem smallRuns_digits {digits : List Char} (hDigits : ∀ c ∈ digits, c.isDigit = true) :
    SmallRuns digits ↔ Numerals.digitsValue digits < 2 ^ 53 := by
  rw [SmallRuns, digitRuns, List.splitOnP_eq_singleton fun c hMem => by rw [hDigits c hMem]; rfl,
    List.forall_mem_singleton]

theorem smallRuns_append_left {a b : List Char} (hHead : ∀ c ∈ b.head?, c.isDigit = false) :
    SmallRuns (a ++ b) ↔ SmallRuns a ∧ SmallRuns b := by
  cases b with
  | nil => rw [List.append_nil, and_iff_left smallRuns_nil]
  | cons c b => rw [smallRuns_append_cons (hHead c rfl), smallRuns_cons (hHead c rfl)]

/-- A text is cut into two behind a character that is no digit. -/
theorem smallRuns_append_right {a b : List Char} (hLast : ∀ c ∈ a.getLast?, c.isDigit = false) :
    SmallRuns (a ++ b) ↔ SmallRuns a ∧ SmallRuns b := by
  rcases List.eq_nil_or_concat' a with rfl | ⟨a, c, rfl⟩
  · rw [List.nil_append, and_iff_right smallRuns_nil]
  · have hOther : c.isDigit = false := hLast c (by simp)
    rw [List.append_assoc, List.singleton_append, smallRuns_append_cons hOther,
      smallRuns_append_cons hOther, and_iff_left smallRuns_nil]

theorem smallRuns_intercalate {texts : List (List Char)} (hSmall : ∀ text ∈ texts, SmallRuns text) :
    SmallRuns ([','].intercalate texts) := by
  induction texts with
  | nil => exact smallRuns_nil
  | cons text texts ih =>
      have hText := hSmall text List.mem_cons_self
      have hTexts := ih fun other hMem => hSmall other (List.mem_cons_of_mem _ hMem)
      cases texts with
      | nil => rwa [List.intercalate_singleton]
      | cons other texts =>
          rw [List.intercalate_cons_cons, List.append_assoc, List.singleton_append,
            smallRuns_append_cons rfl]
          exact ⟨hText, hTexts⟩

theorem smallRuns_numbersText {first last : ℕ} (hDigits : last < 2 ^ 53) :
    SmallRuns (numbersText first last) := by
  refine smallRuns_intercalate fun text hMem => ?_
  obtain ⟨n, hN, rfl⟩ := List.mem_map.mp hMem
  rw [smallRuns_digits Numerals.isDigit_toDigits, Numerals.digitsValue_toDigits]
  obtain ⟨hLow, hHigh⟩ := List.mem_range'_1.mp hN
  omega

/-- What a match finds in a text with small runs, and what it leaves. -/
theorem RangeMatch.Splits.smallRuns {text : List Char} {found : RangeMatch}
    (hSplits : found.Splits text) :
    SmallRuns text ↔ SmallRuns found.before ∧ Numerals.digitsValue found.first < 2 ^ 53 ∧
      Numerals.digitsValue found.last < 2 ^ 53 ∧ SmallRuns found.after := by
  rw [hSplits.text, smallRuns_append_right hSplits.before, smallRuns_append_cons rfl,
    smallRuns_append_left hSplits.after, smallRuns_digits hSplits.first,
    smallRuns_digits hSplits.last]

theorem smallRuns_rewritten {text : List Char} {found : RangeMatch}
    (hSplits : found.Splits text) (hSmall : SmallRuns text) : SmallRuns found.rewritten := by
  obtain ⟨hBefore, hFirst, hLast, hAfter⟩ := hSplits.smallRuns.mp hSmall
  rw [RangeMatch.rewritten, smallRuns_append_right hSplits.before,
    smallRuns_append_left hSplits.after]
  exact ⟨hBefore, smallRuns_numbersText (max_lt hFirst hLast), hAfter⟩

/-! ## The end of the rewriting -/

theorem mem_intercalate {sep c : Char} {texts : List (List Char)}
    (hMem : c ∈ [sep].intercalate texts) : c = sep ∨ ∃ text ∈ texts, c ∈ text := by
  induction texts with
  | nil => cases hMem
  | cons text texts ih =>
      cases texts with
      | nil =>
          rw [List.intercalate_singleton] at hMem
          exact Or.inr ⟨text, List.mem_cons_self, hMem⟩
      | cons other texts =>
          rw [List.intercalate_cons_cons] at hMem
          simp only [List.append_assoc, List.mem_append, List.mem_singleton] at hMem
          rcases hMem with hText | hSep | hRest
          · exact Or.inr ⟨text, List.mem_cons_self, hText⟩
          · exact Or.inl hSep
          · refine (ih hRest).imp_right ?_
            rintro ⟨later, hLater, hChar⟩
            exact ⟨later, List.mem_cons_of_mem _ hLater, hChar⟩

theorem not_mem_numbersText {c : Char} (hOther : c.isDigit = false) (hComma : c ≠ ',')
    (first last : ℕ) : c ∉ numbersText first last := by
  intro hMem
  rcases mem_intercalate hMem with hSame | ⟨text, hText, hChar⟩
  · exact hComma hSame
  · obtain ⟨n, -, rfl⟩ := List.mem_map.mp hText
    rw [Numerals.isDigit_toDigits _ hChar] at hOther
    cases hOther

/-- A step takes a dash out of the text. -/
theorem count_rewritten {text : List Char} {found : RangeMatch} (hSplits : found.Splits text) :
    found.rewritten.count '-' + 1 = text.count '-' := by
  have hDigits : ∀ {digits : List Char}, (∀ c ∈ digits, c.isDigit = true) →
      digits.count '-' = 0 := fun hDigits =>
    List.count_eq_zero.mpr fun hMem => absurd (hDigits _ hMem) (by decide)
  have hNumbers := List.count_eq_zero.mpr (@not_mem_numbersText '-' rfl (by decide)
    (min (Numerals.digitsValue found.first) (Numerals.digitsValue found.last))
    (max (Numerals.digitsValue found.first) (Numerals.digitsValue found.last)))
  rw [hSplits.text, RangeMatch.rewritten]
  simp only [List.count_append, List.count_cons_self, hDigits hSplits.first,
    hDigits hSplits.last, hNumbers]
  omega

/-- **The rewriting ends** on a text with small runs, and what it leaves has small runs. -/
theorem convertRange_ends {text : List Char} (hSmall : SmallRuns text) :
    ∃ result, SmallRuns result ∧ RewritesTo text result := by
  -- Every step lowers the number of dashes.
  induction hCount : text.count '-' generalizing text with
  | zero =>
      exact ⟨text, hSmall, .done (execMatch_of_not_mem (List.count_eq_zero.mp hCount))⟩
  | succ count ih =>
      cases hFound : execMatch text with
      | none => exact ⟨text, hSmall, .done hFound⟩
      | some found =>
          have hSplits := splits_of_execMatch hFound
          obtain ⟨-, hFirst, hLast, -⟩ := hSplits.smallRuns.mp hSmall
          have hLess := count_rewritten hSplits
          obtain ⟨result, hResult, hRest⟩ :=
            ih (smallRuns_rewritten hSplits hSmall) (by omega)
          exact ⟨result, hResult, hRest.step hFound hFirst hLast⟩

end TernScheduler
