import TernScheduler.Cron.FieldValues

/-!
# The conversion of a field on any text

A field of a cron expression is rewritten until it has no range left.  Each step writes a longer
text and starts over, and what it cannot read it makes NaN of.

* `convertToModel_safe`: as long as no digit run is too great, the conversion ends on every text,
  and what it returns is strictly increasing and lies in the range.
-/

namespace TernScheduler

open Number (whole)

/-- **The conversion of a field is safe**: whatever the text is, it ends, with whole numbers that
are strictly increasing and lie in the range, if all digit runs are numbers below 2⁵³ once the
star is replaced. -/
theorem convertToModel_safe (expr : String) (range : Number × Number)
    (hSmall : SmallRuns (replaceAsteriskWithRange expr.toList range)) :
    ∃ values : List ℤ, values.Pairwise (· < ·) ∧
      (∀ n ∈ values, |n| < 2 ^ 53 ∧ range.1.le (whole n) = true ∧ (whole n).le range.2 = true) ∧
      ∃ least, ∀ fuel, least ≤ fuel →
        convertToModel fuel expr.toList range = some (values.map whole) := by
  obtain ⟨rewritten, hRewritten, least, hEnds⟩ := convertRange_ends hSmall
  obtain ⟨ns, hNs, hDigits⟩ := convertStep_small hRewritten
  obtain ⟨values, hValues, hSorted, hMem⟩ :=
    removeDuplicates_map range fun n hN => (hDigits n hN).le
  refine ⟨values, hSorted, fun n hN => ?_, least, fun fuel hFuel => ?_⟩
  · obtain ⟨hRead, hRange⟩ := (hMem n).mp hN
    exact ⟨hDigits n hRead, hRange⟩
  · rw [convertToModel, hEnds fuel hFuel, Option.map_some, hNs, hValues]

theorem replaceAsterisk_minutes :
    replaceAsteriskWithRange "*/15".toList (numberRange (allowedRange .minutes)) =
      "0-59/15".toList := by
  show templateText (.ofRat (0 : ℕ)) ++ '-' :: templateText (.ofRat (59 : ℕ)) ++ "/15".toList = _
  rw [templateText_natCast (by decide), templateText_natCast (by decide)]
  decide

/-- Every fifteenth minute, and whatever the minutes are, is in the hour. -/
theorem convertToModel_safe_minutes :
    ∃ values : List ℤ, values.Pairwise (· < ·) ∧ ∃ least, ∀ fuel, least ≤ fuel →
      convertToModel fuel "*/15".toList (numberRange (allowedRange .minutes)) =
        some (values.map whole) := by
  obtain ⟨values, hSorted, -, hEnds⟩ :=
    convertToModel_safe "*/15" (numberRange (allowedRange .minutes))
      (by rw [replaceAsterisk_minutes]; decide)
  exact ⟨values, hSorted, hEnds⟩

end TernScheduler
