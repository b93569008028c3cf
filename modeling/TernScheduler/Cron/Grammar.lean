import TernScheduler.Cron.FieldValues

/-!
# The grammar of cron expressions

What an expression is, as a syntax tree with its text and its meaning: a field is a list of
numbers, ranges and stars, and may have a step.

* `FieldSyntax.text` and `FieldSyntax.Denotes` are the text of a field and the values it stands
  for.
* `convertToModel_text`: the rewriting of the text finds the values.
-/

namespace TernScheduler

open Number (whole)

/-- A number as it is written, zeros in front included, below 2⁵³. -/
structure CronNumeral where
  digits : List Char
  isDigit : ∀ c ∈ digits, c.isDigit = true
  nonempty : digits ≠ []
  small : Numerals.digitsValue digits < 2 ^ 53

/-- The number. -/
def CronNumeral.value (numeral : CronNumeral) : ℕ := Numerals.digitsValue numeral.digits

/-- An item of a field: `n`, `n-m` or `*`. -/
inductive CronItem
  | number (n : CronNumeral)
  | range (n m : CronNumeral)
  | star

namespace CronItem

/-- The text of an item. -/
def text : CronItem → List Char
  | number n => n.digits
  | range n m => n.digits ++ '-' :: m.digits
  | star => ['*']

/-- The values of an item in a field of the given range; the ends of a range stand in either
order. -/
def Denotes (range : ℕ × ℕ) (v : ℕ) : CronItem → Prop
  | number n => v = n.value
  | .range n m => min n.value m.value ≤ v ∧ v ≤ max n.value m.value
  | star => range.1 ≤ v ∧ v ≤ range.2

end CronItem

/-- A field: items between commas, and the step. -/
structure FieldSyntax where
  items : List CronItem
  nonempty : items ≠ []
  step : Option CronNumeral
  step_pos : ∀ s ∈ step, 1 ≤ s.value

namespace FieldSyntax

/-- The text of the step. -/
def stepText (field : FieldSyntax) : List Char :=
  match field.step with
  | none => []
  | some s => '/' :: s.digits

/-- The text of a field. -/
def text (field : FieldSyntax) : List Char :=
  [','].intercalate (field.items.map CronItem.text) ++ field.stepText

/-- The step. -/
def stepValue (field : FieldSyntax) : ℕ :=
  match field.step with
  | none => 1
  | some s => s.value

/-- The values of a field: the multiples of the step in some item and in the range. -/
def Denotes (field : FieldSyntax) (range : ℕ × ℕ) (v : ℕ) : Prop :=
  (∃ item ∈ field.items, item.Denotes range v) ∧ field.stepValue ∣ v ∧ range.1 ≤ v ∧ v ≤ range.2

/-- The field `*`. -/
def star : FieldSyntax where
  items := [.star]
  nonempty := List.cons_ne_nil _ _
  step := none
  step_pos := fun s hMem => by cases hMem

end FieldSyntax

/-! ## Texts between commas -/

section Joined

variable {first : List Char} {texts done : List (List Char)}

/-- Texts behind a comma each. -/
def tailOf (texts : List (List Char)) : List Char := texts.flatMap fun text => ',' :: text

theorem intercalate_cons (first : List Char) (texts : List (List Char)) :
    [','].intercalate (first :: texts) = first ++ tailOf texts := by
  induction texts generalizing first with
  | nil => rw [List.intercalate_singleton, tailOf, List.flatMap_nil, List.append_nil]
  | cons text texts ih =>
      rw [List.intercalate_cons_cons, ih, tailOf, tailOf, List.flatMap_cons]
      simp

theorem intercalate_append_cons (done : List (List Char)) (first : List Char)
    (texts : List (List Char)) :
    [','].intercalate (done ++ first :: texts) =
      (done.flatMap fun text => text ++ [',']) ++ (first ++ tailOf texts) := by
  induction done with
  | nil => exact intercalate_cons first texts
  | cons text done ih =>
      rw [List.cons_append, List.intercalate_cons_of_ne_nil (by simp), ih, List.flatMap_cons]
      simp

end Joined

/-! ## The star -/

/-- A number as the template writes it. -/
def CronNumeral.ofNat (n : ℕ) (hDigits : n < 2 ^ 53) : CronNumeral where
  digits := Nat.toDigits 10 n
  isDigit := Numerals.isDigit_toDigits
  nonempty := Nat.toDigits_ne_nil
  small := by rwa [Numerals.digitsValue_toDigits]

@[simp] theorem CronNumeral.value_ofNat (n : ℕ) (hDigits : n < 2 ^ 53) :
    (CronNumeral.ofNat n hDigits).value = n := Numerals.digitsValue_toDigits n

theorem CronNumeral.not_mem_digits (n : CronNumeral) {c : Char} (hOther : c.isDigit = false) :
    c ∉ n.digits := by
  intro hMem
  rw [n.isDigit c hMem] at hOther
  cases hOther

theorem replaceAsterisk_of_not_mem {expr : List Char} (hStar : '*' ∉ expr)
    (range : Number × Number) : replaceAsteriskWithRange expr range = expr := by
  have hAll : expr.dropWhile (· ≠ '*') = [] := by
    rw [List.dropWhile_eq_nil_iff]
    intro c hMem
    exact decide_eq_true fun hSame => hStar (hSame ▸ hMem)
  rw [replaceAsteriskWithRange, hAll]

theorem replaceAsterisk_append {before : List Char} (hStar : '*' ∉ before) (after : List Char)
    (range : Number × Number) :
    replaceAsteriskWithRange (before ++ '*' :: after) range =
      before ++ (templateText range.1 ++ '-' :: templateText range.2 ++ after) := by
  have hPass : ∀ c ∈ before, decide (c ≠ '*') = true := fun c hMem =>
    decide_eq_true fun hSame => hStar (hSame ▸ hMem)
  have hDrop : (before ++ '*' :: after).dropWhile (· ≠ '*') = '*' :: after := by
    rw [List.dropWhile_append_of_pos hPass, List.dropWhile_cons_of_neg (by decide)]
  have hTake : (before ++ '*' :: after).takeWhile (· ≠ '*') = before := by
    rw [List.takeWhile_append_of_pos hPass, List.takeWhile_cons_of_neg (by decide),
      List.append_nil]
  rw [replaceAsteriskWithRange, hDrop]
  simp only [hTake, List.append_assoc, List.cons_append]

namespace CronItem

/-- The numbers the rewriting makes of an item. -/
def values : CronItem → List ℕ
  | number n => [n.value]
  | range n m =>
      List.range' (min n.value m.value) (max n.value m.value + 1 - min n.value m.value)
  | star => []

theorem mem_values_iff {item : CronItem} (hStar : item ≠ .star) (bounds : ℕ × ℕ) (v : ℕ) :
    v ∈ item.values ↔ item.Denotes bounds v := by
  cases item with
  | number n => exact List.mem_singleton
  | range n m =>
      rw [values, List.mem_range'_1, Denotes]
      omega
  | star => exact absurd rfl hStar

theorem star_not_mem_text {item : CronItem} (hStar : item ≠ .star) : '*' ∉ item.text := by
  cases item with
  | number n => exact n.not_mem_digits rfl
  | range n m =>
      simp only [text, List.mem_append, List.mem_cons, not_or]
      exact ⟨n.not_mem_digits rfl, by decide, m.not_mem_digits rfl⟩
  | star => exact absurd rfl hStar

end CronItem

namespace FieldSyntax

variable (field : FieldSyntax)

theorem not_mem_stepText {c : Char} (hOther : c.isDigit = false) (hSlash : c ≠ '/') :
    c ∉ field.stepText := by
  unfold stepText
  split
  · exact List.not_mem_nil
  · rename_i s hStep
    rw [List.mem_cons, not_or]
    exact ⟨hSlash, s.not_mem_digits hOther⟩

theorem head_stepText : ∀ c ∈ field.stepText.head?, c.isDigit = false := by
  unfold stepText
  split
  · simp
  · simp

/-- The first star becomes a range; the values in the range stay. -/
theorem replaceAsterisk_text {range : ℕ × ℕ} (hLow : range.1 < 2 ^ 53) (hHigh : range.2 < 2 ^ 53) :
    ∃ items : List CronItem, items ≠ [] ∧
      replaceAsteriskWithRange field.text (numberRange range) =
        [','].intercalate (items.map CronItem.text) ++ field.stepText ∧
      ∀ v, range.1 ≤ v → v ≤ range.2 →
        ((∃ item ∈ items, v ∈ item.values) ↔ ∃ item ∈ field.items, item.Denotes range v) := by
  by_cases hStar : CronItem.star ∈ field.items
  · obtain ⟨done, rest, hItems, hNone⟩ := List.eq_append_cons_of_mem hStar
    refine ⟨done ++ .range (.ofNat _ hLow) (.ofNat _ hHigh) :: rest, by simp, ?_, ?_⟩
    · -- the first asterisk is the one that is replaced
      have hBefore : '*' ∉ (done.map CronItem.text).flatMap fun text => text ++ [','] := by
        simp only [List.mem_flatMap, List.mem_map, List.mem_append, List.mem_singleton]
        rintro ⟨_, ⟨item, hItem, rfl⟩, hText | hComma⟩
        · exact CronItem.star_not_mem_text (fun hSame => hNone (hSame ▸ hItem)) hText
        · cases hComma
      have hText : field.text = ((done.map CronItem.text).flatMap fun text => text ++ [',']) ++
          '*' :: (tailOf (rest.map CronItem.text) ++ field.stepText) := by
        rw [text, hItems, List.map_append, List.map_cons, intercalate_append_cons,
          List.append_assoc]
        rfl
      rw [hText, replaceAsterisk_append hBefore, List.map_append, List.map_cons,
        intercalate_append_cons, List.append_assoc, List.append_assoc]
      simp only [numberRange, templateText_natCast hLow, templateText_natCast hHigh,
        CronItem.text, CronNumeral.ofNat, List.append_assoc, List.cons_append]
    · intro v hV hV'
      -- with an asterisk among the items every value of the range is denoted
      refine iff_of_true ⟨_, List.mem_append_right _ List.mem_cons_self, ?_⟩ ⟨_, hStar, hV, hV'⟩
      rw [CronItem.mem_values_iff (by simp) range, CronItem.Denotes, CronNumeral.value_ofNat,
        CronNumeral.value_ofNat]
      omega
  · refine ⟨field.items, field.nonempty, replaceAsterisk_of_not_mem ?_ _, ?_⟩
    · rw [text, List.mem_append, not_or]
      refine ⟨fun hMem => ?_, field.not_mem_stepText rfl (by decide)⟩
      rcases mem_intercalate hMem with hComma | ⟨itemText, hText, hChar⟩
      · cases hComma
      · obtain ⟨item, hItem, rfl⟩ := List.mem_map.mp hText
        exact CronItem.star_not_mem_text (fun hSame => hStar (hSame ▸ hItem)) hChar
    · intro v _ _
      refine exists_congr fun item => and_congr_right fun hItem => ?_
      exact CronItem.mem_values_iff (fun hSame => hStar (hSame ▸ hItem)) range v

end FieldSyntax

/-! ## The ranges -/

theorem execMatch_of_splits {text : List Char} {found : RangeMatch}
    (hSplits : found.Splits text) (hDash : '-' ∉ found.before) :
    execMatch text = some found := by
  obtain ⟨before, first, last, after⟩ := found
  induction before generalizing text with
  | nil =>
      have hHere := matchHere_of_splits rfl hSplits
      cases text with
      | nil => cases hHere
      | cons c text => rw [execMatch, hHere]
  | cons c before ih =>
      have hText : text = c :: (before ++ (first ++ '-' :: (last ++ after))) := hSplits.text
      -- the digits before the match are followed by what is neither a digit nor a dash
      have hHere : matchHere text = none := by
        have hSome : (c :: before).dropWhile Char.isDigit ≠ [] := by
          intro hNil
          have hLast := List.getLast_mem (List.cons_ne_nil c before)
          have hDigit := List.dropWhile_eq_nil_iff.mp hNil _ hLast
          rw [hSplits.before _
            (List.getLast?_eq_some_getLast (List.cons_ne_nil c before))] at hDigit
          cases hDigit
        obtain ⟨e, more, hDrop⟩ := List.exists_cons_of_ne_nil hSome
        have hOther : e ≠ '-' := by
          rintro rfl
          refine hDash ((List.dropWhile_suffix Char.isDigit).mem ?_)
          rw [hDrop]
          exact List.mem_cons_self
        have hAll : text.dropWhile Char.isDigit =
            e :: (more ++ (first ++ '-' :: (last ++ after))) := by
          rw [hText, ← List.cons_append, List.dropWhile_append, hDrop]
          rfl
        unfold matchHere
        rw [hAll]
        split
        · rename_i hSame
          exact absurd (List.cons.inj hSame).1 hOther
        · rfl
      have hLater : RangeMatch.Splits ⟨before, first, last, after⟩
          (before ++ (first ++ '-' :: (last ++ after))) := by
        refine { hSplits with text := rfl, before := fun d hMem => hSplits.before d ?_ }
        cases before with
        | nil => cases hMem
        | cons e before => rwa [List.getLast?_cons_cons]
      rw [hText] at hHere ⊢
      rw [execMatch, hHere, ih hLater fun hMem => hDash (List.mem_cons_of_mem _ hMem)]
      rfl

namespace CronItem

/-- What the rewriting leaves of an item. -/
def chunk : CronItem → List Char
  | number n => n.digits
  | range n m => numbersText (min n.value m.value) (max n.value m.value)
  | star => ['*']

theorem not_mem_chunk (item : CronItem) {c : Char} (hOther : c.isDigit = false)
    (hComma : c ≠ ',') (hStar : c ≠ '*') : c ∉ item.chunk := by
  cases item with
  | number n => exact n.not_mem_digits hOther
  | range n m => exact not_mem_numbersText hOther hComma _ _
  | star => exact List.mem_singleton.not.mpr hStar

/-- An item is rewritten, if it is not left as it is. -/
theorem rewritesTo_item (item : CronItem) {before after result : List Char}
    (hDash : '-' ∉ before) (hBefore : ∀ c ∈ before.getLast?, c.isDigit = false)
    (hAfter : ∀ c ∈ after.head?, c.isDigit = false)
    (hRest : RewritesTo (before ++ (item.chunk ++ after)) result) :
    RewritesTo (before ++ (item.text ++ after)) result := by
  cases item with
  | number n => exact hRest
  | star => exact hRest
  | range n m =>
      have hSplits : RangeMatch.Splits ⟨before, n.digits, m.digits, after⟩
          (before ++ ((range n m).text ++ after)) :=
        { text := by rw [text, List.append_assoc, List.cons_append]
          first := n.isDigit
          first_nonempty := n.nonempty
          last := m.isDigit
          last_nonempty := m.nonempty
          before := hBefore
          after := hAfter }
      exact hRest.step (execMatch_of_splits hSplits hDash) n.small m.small

/-- The items of a field are rewritten one after the other. -/
theorem rewritesTo_items (item : CronItem) (rest : List CronItem) {before suffix : List Char}
    (hDash : '-' ∉ before) (hBefore : ∀ c ∈ before.getLast?, c.isDigit = false)
    (hSuffix : '-' ∉ suffix) (hHead : ∀ c ∈ suffix.head?, c.isDigit = false) :
    RewritesTo (before ++ (item.text ++ (tailOf (rest.map text) ++ suffix)))
      (before ++ (item.chunk ++ (tailOf (rest.map chunk) ++ suffix))) := by
  induction rest generalizing item before with
  | nil =>
      refine rewritesTo_item item hDash hBefore hHead (.done (execMatch_of_not_mem ?_))
      simp only [List.mem_append, not_or]
      exact ⟨hDash, item.not_mem_chunk rfl (by decide) (by decide), List.not_mem_nil, hSuffix⟩
  | cons next rest ih =>
      have hComma : ∀ c ∈ (',' :: (next.text ++ (tailOf (rest.map text) ++ suffix))).head?,
          c.isDigit = false := by
        rintro _ ⟨rfl⟩
        rfl
      have hDash' : '-' ∉ before ++ (item.chunk ++ [',']) := by
        simp only [List.mem_append, List.mem_singleton, not_or]
        exact ⟨hDash, item.not_mem_chunk rfl (by decide) (by decide), by decide⟩
      have hRest := ih next hDash' (by simp)
      simp only [tailOf, List.map_cons, List.flatMap_cons, List.append_assoc, List.cons_append,
        List.nil_append] at hRest hComma ⊢
      exact rewritesTo_item item hDash hBefore hComma hRest

end CronItem

/-! ## The values -/

/-- A part of a field, read with nothing but its digits. -/
def reading (part : List Char) : Number := (Number.ofRat 0).add (parseInt part)

theorem reading_digits {digits rest : List Char} (hDigits : ∀ c ∈ digits, c.isDigit = true)
    (hNonempty : digits ≠ []) (hRest : ∀ c ∈ rest.head?, c.isDigit = false) :
    reading (digits ++ rest) = whole (Numerals.digitsValue digits) := by
  rw [reading, parseInt_digits hDigits hNonempty hRest]
  exact (zero_add_number _).trans (whole_natCast _)

/-- The parts of a text between commas, read. -/
def readings (text : List Char) : List Number := (text.splitOn ',').map reading

theorem readings_append_cons (xs ys : List Char) :
    readings (xs ++ ',' :: ys) = readings xs ++ readings ys := by
  rw [readings, List.splitOn_append_cons_self, List.map_append]
  rfl

theorem readings_of_not_mem {text : List Char} (hComma : ',' ∉ text) :
    readings text = [reading text] := by
  rw [readings, List.splitOn_eq_singleton hComma]
  rfl

/-- The numbers of a range are read as they were written. -/
theorem readings_numbersText {first last : ℕ} (hLe : first ≤ last) {suffix : List Char}
    (hHead : ∀ c ∈ suffix.head?, c.isDigit = false) (hComma : ',' ∉ suffix) :
    readings (numbersText first last ++ suffix) =
      (List.range' first (last + 1 - first)).map fun n : ℕ => whole (n : ℤ) := by
  -- a run of digits is read up to where it ends
  have hDigits : ∀ {n : ℕ} {rest : List Char}, (∀ c ∈ rest.head?, c.isDigit = false) →
      reading (Nat.toDigits 10 n ++ rest) = whole (n : ℤ) := by
    intro n rest hRest
    have hRead := @reading_digits (Nat.toDigits 10 n) rest Numerals.isDigit_toDigits
      Nat.toDigits_ne_nil hRest
    rwa [Numerals.digitsValue_toDigits] at hRead
  have hNoComma : ∀ n, ',' ∉ Nat.toDigits 10 n := fun n hMem =>
    absurd (Numerals.isDigit_toDigits _ hMem) (by decide)
  induction hCount : last - first generalizing first with
  | zero =>
      obtain rfl : first = last := by omega
      rw [numbersText_self, readings_of_not_mem (by
        rw [List.mem_append, not_or]
        exact ⟨hNoComma _, hComma⟩), hDigits hHead, Nat.add_sub_cancel_left]
      rfl
  | succ count ih =>
      have hFirst : reading (Nat.toDigits 10 first) = whole (first : ℤ) := by
        have hRead := @hDigits first [] (by simp)
        rwa [List.append_nil] at hRead
      rw [numbersText_of_lt (by omega), List.append_assoc, List.cons_append,
        readings_append_cons, readings_of_not_mem (hNoComma _), hFirst,
        ih (by omega) (by omega), show last + 1 - first = last + 1 - (first + 1) + 1 by omega,
        List.range'_succ]
      rfl

namespace CronItem

/-- What is read off an item: a star is read as NaN. -/
def readings : CronItem → List Number
  | star => [.nan]
  | item => item.values.map fun n : ℕ => whole (n : ℤ)

theorem readings_chunk (item : CronItem) {suffix : List Char}
    (hHead : ∀ c ∈ suffix.head?, c.isDigit = false) (hComma : ',' ∉ suffix) :
    TernScheduler.readings (item.chunk ++ suffix) = item.readings := by
  cases item with
  | number n =>
      rw [chunk, readings_of_not_mem (by
        rw [List.mem_append, not_or]
        exact ⟨n.not_mem_digits rfl, hComma⟩), reading_digits n.isDigit n.nonempty hHead]
      rfl
  | range n m =>
      exact readings_numbersText min_le_max hHead hComma
  | star =>
      have hNaN : parseInt ('*' :: suffix) = .nan := rfl
      rw [chunk, List.singleton_append, readings_of_not_mem (by simpa using hComma), reading, hNaN,
        zero_add_number]
      rfl

theorem values_small (item : CronItem) {v : ℕ} (hMem : v ∈ item.values) : v < 2 ^ 53 := by
  cases item with
  | number n =>
      rw [List.mem_singleton.mp hMem]
      exact n.small
  | range n m =>
      have hN : n.value < 2 ^ 53 := n.small
      have hM : m.value < 2 ^ 53 := m.small
      have hRange := List.mem_range'_1.mp hMem
      omega
  | star => cases hMem

/-- The multiples of the step among what is read off an item. -/
theorem filter_readings (item : CronItem) {step : ℕ} (hStep : 1 ≤ step) (hSmall : step ≤ 2 ^ 53) :
    item.readings.filter (isMultiple (whole step)) =
      (item.values.filter fun v => decide (step ∣ v)).map fun n : ℕ => whole (n : ℤ) := by
  have hValues : ∀ ns : List ℕ, (∀ n ∈ ns, n ≤ 2 ^ 53) →
      (ns.map fun n : ℕ => whole (n : ℤ)).filter (isMultiple (whole step)) =
        (ns.filter fun v => decide (step ∣ v)).map fun n : ℕ => whole (n : ℤ) := by
    intro ns hNs
    rw [List.filter_map]
    congr 1
    exact List.filter_congr fun n hMem => isMultiple_whole hStep hSmall (hNs n hMem)
  cases item with
  | number n => exact hValues _ fun v hMem => ((number n).values_small hMem).le
  | range n m => exact hValues _ fun v hMem => ((range n m).values_small hMem).le
  | star =>
      rw [readings, List.filter_cons_of_neg (by rw [isMultiple_nan]; exact Bool.false_ne_true)]
      rfl

end CronItem

/-- What is read off the items of a field. -/
theorem readings_items (item : CronItem) (rest : List CronItem) {suffix : List Char}
    (hHead : ∀ c ∈ suffix.head?, c.isDigit = false) (hComma : ',' ∉ suffix) :
    readings (item.chunk ++ (tailOf (rest.map CronItem.chunk) ++ suffix)) =
      (item :: rest).flatMap CronItem.readings := by
  induction rest generalizing item with
  | nil =>
      rw [List.map_nil, tailOf, List.flatMap_nil, List.nil_append,
        item.readings_chunk hHead hComma, List.flatMap_singleton]
  | cons next rest ih =>
      have hItem := @CronItem.readings_chunk item [] (by simp) List.not_mem_nil
      rw [List.append_nil] at hItem
      rw [List.map_cons, tailOf, List.flatMap_cons, List.cons_append, List.cons_append,
        readings_append_cons, hItem, List.append_assoc, List.flatMap_cons]
      exact congrArg (item.readings ++ ·) (ih next)

namespace FieldSyntax

variable (field : FieldSyntax)

theorem one_le_stepValue : 1 ≤ field.stepValue := by
  unfold stepValue
  split
  · exact le_rfl
  · rename_i s hStep
    exact field.step_pos s hStep

theorem stepValue_small : field.stepValue < 2 ^ 53 := by
  unfold stepValue
  split
  · decide
  · rename_i s hStep
    exact s.small

/-- The step is read behind the first slash. -/
theorem convertStep_eq {body : List Char} (hSlash : '/' ∉ body) :
    convertStep (body ++ field.stepText) =
      (readings (body ++ field.stepText)).filter (isMultiple (whole field.stepValue)) := by
  have hPass : ∀ c ∈ body, decide (c ≠ '/') = true := fun c hMem =>
    decide_eq_true fun hSame => hSlash (hSame ▸ hMem)
  have hDrop : (body ++ field.stepText).dropWhile (· ≠ '/') = field.stepText := by
    rw [List.dropWhile_append_of_pos hPass]
    unfold stepText
    split
    · rfl
    · rw [List.dropWhile_cons_of_neg (by decide)]
  rw [convertStep, hDrop]
  unfold stepText stepValue
  cases field.step with
  | none => rfl
  | some s =>
      have hStep : parseInt s.digits = whole (s.value : ℤ) :=
        (parseInt_run s.isDigit s.nonempty).trans (whole_natCast _)
      simp only [hStep]
      rfl

theorem slash_not_mem_tailOf (items : List CronItem) :
    '/' ∉ tailOf (items.map CronItem.chunk) := by
  simp only [tailOf, List.mem_flatMap, List.mem_map, List.mem_cons]
  rintro ⟨_, ⟨item, -, rfl⟩, hComma | hText⟩
  · cases hComma
  · exact item.not_mem_chunk rfl (by decide) (by decide) hText

/-- **The conversion of a field computes what the field denotes.** -/
theorem convertToModel_text {range : ℕ × ℕ} (hLow : range.1 < 2 ^ 53) (hHigh : range.2 < 2 ^ 53) :
    ∃ result : List ℤ, (∃ least, ∀ fuel, least ≤ fuel →
        convertToModel fuel field.text (numberRange range) = some (result.map whole)) ∧
      result.Pairwise (· < ·) ∧
      ∀ n : ℤ, n ∈ result ↔ ∃ v : ℕ, n = v ∧ field.Denotes range v := by
  obtain ⟨items, hItems, hReplaced, hValues⟩ := field.replaceAsterisk_text hLow hHigh
  obtain ⟨item, rest, rfl⟩ := List.exists_cons_of_ne_nil hItems
  obtain ⟨least, hEnds⟩ := @CronItem.rewritesTo_items item rest [] field.stepText
    List.not_mem_nil (by simp) (field.not_mem_stepText rfl (by decide)) field.head_stepText
  -- the numbers that are read off are the values of the items
  have hRead : convertStep (item.chunk ++ (tailOf (rest.map CronItem.chunk) ++ field.stepText)) =
      ((((item :: rest).flatMap CronItem.values).filter
        fun v => decide (field.stepValue ∣ v)).map fun n : ℕ => (n : ℤ)).map whole := by
    have hSlash : '/' ∉ item.chunk ++ tailOf (rest.map CronItem.chunk) := by
      rw [List.mem_append, not_or]
      exact ⟨item.not_mem_chunk rfl (by decide) (by decide), slash_not_mem_tailOf rest⟩
    rw [← List.append_assoc, field.convertStep_eq hSlash, List.append_assoc,
      readings_items item rest field.head_stepText (field.not_mem_stepText rfl (by decide)),
      List.filter_flatMap, List.filter_flatMap, List.map_flatMap, List.map_flatMap]
    refine congrArg (List.flatMap · (item :: rest)) (funext fun other => ?_)
    rw [other.filter_readings field.one_le_stepValue field.stepValue_small.le, List.map_map]
    rfl
  have hSmall : ∀ n ∈ (((item :: rest).flatMap CronItem.values).filter
      fun v => decide (field.stepValue ∣ v)).map fun n : ℕ => (n : ℤ), |n| ≤ 2 ^ 53 := by
    intro n hMem
    obtain ⟨v, hV, rfl⟩ := List.mem_map.mp hMem
    obtain ⟨other, -, hOther⟩ := List.mem_flatMap.mp (List.mem_filter.mp hV).1
    rw [Nat.abs_cast]
    exact_mod_cast (other.values_small hOther).le
  obtain ⟨result, hResult, hSorted, hMem⟩ := removeDuplicates_map (numberRange range) hSmall
  refine ⟨result, ⟨least, fun fuel hFuel => ?_⟩, hSorted, fun n => ?_⟩
  · have hRewritten := hEnds fuel hFuel
    simp only [List.nil_append] at hRewritten
    rw [convertToModel, hReplaced, List.map_cons, intercalate_cons, List.append_assoc, hRewritten,
      Option.map_some, hRead, hResult]
  · rw [hMem]
    constructor
    · rintro ⟨hN, hRange⟩
      obtain ⟨v, hV, rfl⟩ := List.mem_map.mp hN
      obtain ⟨hItem, hStep⟩ := List.mem_filter.mp hV
      obtain ⟨hLe, hGe⟩ := (inNumberRange_whole hLow hHigh (hSmall _ hN)).mp hRange
      refine ⟨v, rfl, ?_, of_decide_eq_true hStep, by omega, by omega⟩
      exact (hValues v (by omega) (by omega)).mp (List.mem_flatMap.mp hItem)
    · rintro ⟨v, rfl, hItem, hStep, hLe, hGe⟩
      have hV : v ∈ ((item :: rest).flatMap CronItem.values).filter
          fun v => decide (field.stepValue ∣ v) :=
        List.mem_filter.mpr
          ⟨List.mem_flatMap.mpr ((hValues v hLe hGe).mpr hItem), decide_eq_true hStep⟩
      have hN := List.mem_map_of_mem (f := fun n : ℕ => (n : ℤ)) hV
      refine ⟨hN, (inNumberRange_whole hLow hHigh (hSmall _ hN)).mpr ⟨?_, ?_⟩⟩
      · exact_mod_cast hLe
      · exact_mod_cast hGe

end FieldSyntax

end TernScheduler
