import TernScheduler.Cron.Grammar

/-!
# Whether the parser computes what its grammar denotes

The parser cuts an expression at its white space and rewrites each field as a text.

* `CronSyntax` is an expression as a syntax tree, with its text and, for each field, the values
  it denotes; 7 among the days of the week is Sunday once more.
* `cronToModel_denotes`: the model holds exactly these values, in order.
-/

namespace TernScheduler

open Number (whole)

/-- The white space between two fields. -/
structure Gap where
  text : List Char
  nonempty : text ≠ []
  white : ∀ c ∈ text, isWhiteSpace c = true

/-- An expression of five or six fields. -/
structure CronSyntax where
  seconds : Option (FieldSyntax × Gap)
  minutes : FieldSyntax
  beforeHours : Gap
  hours : FieldSyntax
  beforeDaysOfMonth : Gap
  daysOfMonth : FieldSyntax
  beforeMonths : Gap
  months : FieldSyntax
  beforeDaysOfWeek : Gap
  daysOfWeek : FieldSyntax

namespace CronSyntax

/-- The fields from the minutes on. -/
def minutesText (syn : CronSyntax) : List Char :=
  syn.minutes.text ++ (syn.beforeHours.text ++ (syn.hours.text ++ (syn.beforeDaysOfMonth.text ++
    (syn.daysOfMonth.text ++ (syn.beforeMonths.text ++ (syn.months.text ++
      (syn.beforeDaysOfWeek.text ++ syn.daysOfWeek.text)))))))

/-- The text of an expression. -/
def text (syn : CronSyntax) : List Char :=
  match syn.seconds with
  | none => syn.minutesText
  | some (seconds, gap) => seconds.text ++ (gap.text ++ syn.minutesText)

/-- A field of an expression; the seconds are a star where they are missing. -/
def field (syn : CronSyntax) : CronField → FieldSyntax
  | .seconds =>
      match syn.seconds with
      | none => .star
      | some (seconds, _) => seconds
  | .minutes => syn.minutes
  | .hours => syn.hours
  | .daysOfMonth => syn.daysOfMonth
  | .months => syn.months
  | .daysOfWeek => syn.daysOfWeek

/-- The values a field of an expression stands for. -/
def Denotes (syn : CronSyntax) (field : CronField) (n : ℤ) : Prop :=
  ∃ v : ℕ, (syn.field field).Denotes (allowedRange field) v ∧
    n = if field = .daysOfWeek ∧ v = 7 then 0 else v

end CronSyntax

/-- The values of a field of the model. -/
def CronModel.values (model : CronModel) : CronField → List Int
  | .seconds => model.seconds
  | .minutes => model.minutes
  | .hours => model.hours
  | .daysOfMonth => model.daysOfMonth
  | .months => model.months
  | .daysOfWeek => model.daysOfWeek

/-! ## White space -/

theorem splitWhiteSpace_text {text : List Char} (hText : ∀ c ∈ text, isWhiteSpace c = false)
    (rest : List Char) :
    splitWhiteSpace (text ++ rest) = (splitWhiteSpace rest).modifyHead (text ++ ·) := by
  induction text with
  | nil =>
      rw [List.nil_append]
      cases splitWhiteSpace rest <;> rfl
  | cons c text ih =>
      obtain ⟨hC, hRest⟩ := List.forall_mem_cons.mp hText
      rw [List.cons_append, splitWhiteSpace, hC, if_neg Bool.false_ne_true, ih hRest,
        List.modifyHead_modifyHead]
      rfl

theorem splitWhiteSpace_gap (gap : Gap) {rest : List Char}
    (hRest : ∀ c ∈ rest.head?, isWhiteSpace c = false) :
    splitWhiteSpace (gap.text ++ rest) = [] :: splitWhiteSpace rest := by
  obtain ⟨text, hNonempty, hWhite⟩ := gap
  simp only
  induction text with
  | nil => exact absurd rfl hNonempty
  | cons c text ih =>
      obtain ⟨hC, hText⟩ := List.forall_mem_cons.mp hWhite
      rw [List.cons_append, splitWhiteSpace, if_pos hC]
      -- only the last character of a gap ends it
      cases text with
      | nil =>
          rw [List.nil_append, if_neg]
          cases rest with
          | nil => exact Bool.false_ne_true
          | cons d rest =>
              rw [List.head?_cons, Option.map_some, Option.getD_some, hRest d rfl]
              exact Bool.false_ne_true
      | cons d text =>
          refine (if_pos ?_).trans (ih (List.cons_ne_nil d text) hText)
          exact hText d List.mem_cons_self

theorem splitWhiteSpace_last {text : List Char} (hText : ∀ c ∈ text, isWhiteSpace c = false) :
    splitWhiteSpace text = [text] := by
  have hSplit := splitWhiteSpace_text hText []
  rw [List.append_nil] at hSplit
  rw [hSplit, splitWhiteSpace, List.modifyHead_cons, List.append_nil]

theorem splitWhiteSpace_cons {text : List Char} (hText : ∀ c ∈ text, isWhiteSpace c = false)
    (gap : Gap) {rest : List Char} (hRest : ∀ c ∈ rest.head?, isWhiteSpace c = false) :
    splitWhiteSpace (text ++ (gap.text ++ rest)) = text :: splitWhiteSpace rest := by
  rw [splitWhiteSpace_text hText, splitWhiteSpace_gap gap hRest, List.modifyHead_cons,
    List.append_nil]

namespace FieldSyntax

variable (field : FieldSyntax)

/-- A character of a field. -/
theorem mem_text {c : Char} (hMem : c ∈ field.text) :
    c.isDigit = true ∨ c = ',' ∨ c = '-' ∨ c = '*' ∨ c = '/' := by
  rcases List.mem_append.mp hMem with hItems | hStep
  · rcases mem_intercalate hItems with hComma | ⟨itemText, hText, hChar⟩
    · exact Or.inr (Or.inl hComma)
    · obtain ⟨item, -, rfl⟩ := List.mem_map.mp hText
      cases item with
      | number n => exact Or.inl (n.isDigit c hChar)
      | range n m =>
          rcases List.mem_append.mp hChar with hFirst | hDash
          · exact Or.inl (n.isDigit c hFirst)
          · rcases List.mem_cons.mp hDash with rfl | hLast
            · exact Or.inr (Or.inr (Or.inl rfl))
            · exact Or.inl (m.isDigit c hLast)
      | star => exact Or.inr (Or.inr (Or.inr (Or.inl (List.mem_singleton.mp hChar))))
  · unfold stepText at hStep
    split at hStep
    · cases hStep
    · rename_i s _
      rcases List.mem_cons.mp hStep with rfl | hDigit
      · exact Or.inr (Or.inr (Or.inr (Or.inr rfl)))
      · exact Or.inl (s.isDigit c hDigit)

theorem not_isWhiteSpace_text : ∀ c ∈ field.text, isWhiteSpace c = false := by
  intro c hMem
  rcases field.mem_text hMem with hDigit | rfl | rfl | rfl | rfl
  · exact not_isWhiteSpace_of_isDigit hDigit
  all_goals decide

theorem text_ne_nil : field.text ≠ [] := by
  obtain ⟨item, rest, hItems⟩ := List.exists_cons_of_ne_nil field.nonempty
  have hItem : item.text ≠ [] := by
    cases item with
    | number n => exact n.nonempty
    | range n m => exact List.append_ne_nil_of_left_ne_nil n.nonempty _
    | star => exact List.cons_ne_nil _ _
  rw [text, hItems, List.map_cons, intercalate_cons, List.append_assoc]
  exact List.append_ne_nil_of_left_ne_nil hItem _

theorem head_text_append (rest : List Char) :
    ∀ c ∈ (field.text ++ rest).head?, isWhiteSpace c = false := by
  intro c hMem
  obtain ⟨first, others, hText⟩ := List.exists_cons_of_ne_nil field.text_ne_nil
  rw [hText, List.cons_append, List.head?_cons, Option.mem_some_iff] at hMem
  exact field.not_isWhiteSpace_text c (hText ▸ hMem ▸ List.mem_cons_self)

end FieldSyntax

/-- The parts of the text of an expression are the texts of its fields. -/
theorem CronSyntax.parts_text (syn : CronSyntax) :
    cronParts (String.ofList syn.text) =
      [(syn.field .seconds).text, syn.minutes.text, syn.hours.text, syn.daysOfMonth.text,
        syn.months.text, syn.daysOfWeek.text] := by
  have hMinutes : splitWhiteSpace syn.minutesText = [syn.minutes.text, syn.hours.text,
      syn.daysOfMonth.text, syn.months.text, syn.daysOfWeek.text] := by
    have hLast := syn.daysOfWeek.head_text_append []
    rw [List.append_nil] at hLast
    rw [minutesText, splitWhiteSpace_cons syn.minutes.not_isWhiteSpace_text _
        (syn.hours.head_text_append _),
      splitWhiteSpace_cons syn.hours.not_isWhiteSpace_text _
        (syn.daysOfMonth.head_text_append _),
      splitWhiteSpace_cons syn.daysOfMonth.not_isWhiteSpace_text _
        (syn.months.head_text_append _),
      splitWhiteSpace_cons syn.months.not_isWhiteSpace_text _ hLast,
      splitWhiteSpace_last syn.daysOfWeek.not_isWhiteSpace_text]
  have hHead : ∀ c ∈ syn.minutesText.head?, isWhiteSpace c = false :=
    syn.minutes.head_text_append _
  rw [cronParts, String.toList_ofList]
  unfold text field
  cases syn.seconds with
  | none =>
      simp only [hMinutes]
      rfl
  | some pair =>
      obtain ⟨seconds, gap⟩ := pair
      simp only
      rw [splitWhiteSpace_cons seconds.not_isWhiteSpace_text gap hHead, hMinutes]
      rfl

/-! ## The model -/

/-- A part is converted to the values of its field. -/
theorem convertField_text (cronField : CronField) (field : FieldSyntax) :
    ∃ result : List ℤ, (∃ least, ∀ fuel, least ≤ fuel →
        convertField fuel cronField field.text = some (result.map whole)) ∧
      result.Pairwise (· < ·) ∧ (∀ n ∈ result, |n| ≤ 2 ^ 53) ∧
      ∀ n : ℤ, n ∈ result ↔ ∃ v : ℕ, n = v ∧ field.Denotes (allowedRange cronField) v := by
  obtain ⟨hLow, hHigh⟩ := allowedRange_small cronField
  obtain ⟨result, hRuns, hSorted, hMem⟩ := field.convertToModel_text hLow hHigh
  refine ⟨result, hRuns, hSorted, fun n hN => ?_, hMem⟩
  obtain ⟨v, rfl, -, -, -, hGe⟩ := (hMem n).mp hN
  rw [Nat.abs_cast]
  omega

/-- Six parts that are converted make a model. -/
theorem cronToModel_of_fields {fuel : ℕ} {cronExpression : String}
    {parts : CronField → List Char}
    (hParts : cronParts cronExpression = [parts .seconds, parts .minutes, parts .hours,
      parts .daysOfMonth, parts .months, parts .daysOfWeek])
    {results : CronField → List ℤ} {days : List ℤ}
    (hField : ∀ field, convertField fuel field (parts field) = some ((results field).map whole))
    (hSmall : ∀ field, ∀ n ∈ results field, |n| ≤ 2 ^ 53)
    (hDays : handleSundays ((results .daysOfWeek).map whole) = days.map whole)
    (hDaysSmall : ∀ n ∈ days, |n| ≤ 2 ^ 53) :
    cronToModel fuel cronExpression = some (.ok ⟨results .seconds, results .minutes,
      results .hours, results .daysOfMonth, results .months, days⟩) := by
  rw [cronToModel, hParts]
  simp only [hField, hDays, map_toInt_whole (hSmall _), map_toInt_whole hDaysSmall,
    Option.bind_eq_bind, Option.bind_some]

/-- **The parser computes what its grammar denotes.** -/
theorem cronToModel_denotes (syn : CronSyntax) :
    ∃ model : CronModel, (∃ least, ∀ fuel, least ≤ fuel →
        cronToModel fuel (String.ofList syn.text) = some (.ok model)) ∧
      ∀ field, (model.values field).Pairwise (· < ·) ∧
        ∀ n, n ∈ model.values field ↔ syn.Denotes field n := by
  choose results hRuns hSorted hSmall hMem using fun field : CronField =>
    convertField_text field (syn.field field)
  choose least hEnds using hRuns
  -- the range of the days of the week holds 7 until `handleSundays`
  have hWeek : ∀ n ∈ results .daysOfWeek, 0 ≤ n ∧ n ≤ 7 := by
    intro n hN
    obtain ⟨v, rfl, -, -, hLe, hGe⟩ := (hMem .daysOfWeek n).mp hN
    have hGe' : v ≤ 7 := hGe
    omega
  obtain ⟨days, hDays, hDaysSorted, hDaysSmall, hDaysMem⟩ := handleSundays_map hWeek
  refine ⟨⟨results .seconds, results .minutes, results .hours, results .daysOfMonth,
    results .months, days⟩, ⟨max (max (max (least .seconds) (least .minutes))
      (max (least .hours) (least .daysOfMonth))) (max (least .months) (least .daysOfWeek)),
    fun fuel hFuel => ?_⟩, fun field => ?_⟩
  · have hField : ∀ field, convertField fuel field (syn.field field).text =
        some ((results field).map whole) := by
      intro field
      refine hEnds field fuel ?_
      cases field <;> omega
    exact @cronToModel_of_fields fuel _ (fun field => (syn.field field).text) syn.parts_text
      results days hField hSmall hDays hDaysSmall
  · have hPlain : ∀ field ≠ CronField.daysOfWeek, ∀ n, n ∈ results field ↔ syn.Denotes field n := by
      intro field hField n
      rw [hMem, CronSyntax.Denotes]
      simp only [hField, false_and, if_false, and_comm]
    cases field with
    | daysOfWeek =>
        have hSeven : ∀ v : ℕ, (v : ℤ) = 7 ↔ v = 7 := fun v => by omega
        refine ⟨hDaysSorted, fun n => (hDaysMem n).trans ⟨?_, ?_⟩⟩
        · rintro ⟨m, hM, hN⟩
          obtain ⟨v, rfl, hV⟩ := (hMem _ m).mp hM
          refine ⟨v, hV, hN.trans ?_⟩
          simp only [true_and, hSeven, Nat.cast_ite, Nat.cast_zero]
        · rintro ⟨v, hV, hN⟩
          refine ⟨v, (hMem _ _).mpr ⟨v, rfl, hV⟩, hN.trans ?_⟩
          simp only [true_and, hSeven, Nat.cast_ite, Nat.cast_zero]
    | seconds => exact ⟨hSorted _, hPlain _ (by decide)⟩
    | minutes => exact ⟨hSorted _, hPlain _ (by decide)⟩
    | hours => exact ⟨hSorted _, hPlain _ (by decide)⟩
    | daysOfMonth => exact ⟨hSorted _, hPlain _ (by decide)⟩
    | months => exact ⟨hSorted _, hPlain _ (by decide)⟩

end TernScheduler
