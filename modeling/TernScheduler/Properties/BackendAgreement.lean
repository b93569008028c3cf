import TernScheduler.Datastore.Backends

/-!
# When the two backends read a condition alike

A record is accepted by the in-memory table when `conditionalMatchesRecord` says so,
and by the SQL table when the where clause of the condition selects it.

* `ReadAlike` is what a condition on one column must satisfy.
* `Means` is what a condition is documented to say of a record, and `Misread` takes every
  condition on one column that is not read alike for its opposite.
* `Decisive` says which parts of a condition the difference of these two depends on.
* `backends_agree_iff` says that the backends agree on a condition exactly when every decisive
  part of it is read alike.
-/

namespace TernScheduler

variable {K : Type} {heap : Heap} {record : K → JsValue}

/-- A condition on a date that both backends read alike: the bound of `before-date` is
the time of the date itself, and a list that has the time of the date has the date. -/
def ReadAlike (heap : Heap) (record : K → JsValue) : Conditional K JsValue → Prop
  | .beforeDate key before => ∀ reference, record key = .date reference →
      heap reference = before
  | .oneOf key values => ∀ reference, record key = .date reference →
      ∀ other, .date other ∈ values → heap other = heap reference → .date reference ∈ values
  | _ => True

/-- Both backends accept the record, or neither does. -/
def Agree (heap : Heap) (record : K → JsValue) (c : Conditional K JsValue) : Prop :=
  conditionalMatchesRecord heap record c = true ↔ (conditionalLink c).Selects heap record

/-- A bound on a date: `before < value` and `value < before` agree where both are
false. -/
theorem agree_beforeDate {key : K} {before : Date} :
    Agree heap record (.beforeDate key before) ↔
      ReadAlike heap record (.beforeDate key before) := by
  cases hValue : record key with
  | date reference =>
      have hOrder : ∀ time : Date, (before < time ↔ time < before) ↔ time = before := by
        intro time
        unfold Date at *
        omega
      simp [Agree, ReadAlike, conditionalMatchesRecord, conditionalLink, WhereClause.Selects,
        WhereClause.truth, WhereOp.truth, JsValue.stored, hValue, hOrder]
  | _ =>
      simp [Agree, ReadAlike, conditionalMatchesRecord, conditionalLink, WhereClause.Selects,
        WhereClause.truth, WhereOp.truth, JsValue.stored, hValue]

/-- A list: the in-memory table looks for the date, the SQL table for its time. -/
theorem agree_oneOf {key : K} {values : List JsValue} (hNull : .null ∉ values) :
    Agree heap record (.oneOf key values) ↔ ReadAlike heap record (.oneOf key values) := by
  have hSelects : (conditionalLink (.oneOf key values)).Selects heap record ↔
      ∃ value ∈ values, value.stored heap = (record key).stored heap := by
    rw [conditionalLink, selects_column, WhereOp.truth_oneOf, List.mem_map]
    refine and_iff_right_of_imp ?_
    rintro ⟨value, hListed, hSame⟩ hStored
    exact hNull (JsValue.stored_eq_null.mp (hSame.trans hStored) ▸ hListed)
  rw [Agree, hSelects, conditionalMatchesRecord, decide_eq_true_iff]
  -- only a date is looked for by its object in memory, and by its time in SQL
  cases hDate : (record key).isDate with
  | false =>
      have hAlike : ReadAlike heap record (.oneOf key values) := by
        intro reference hReference
        rw [hReference] at hDate
        cases hDate
      refine iff_of_true ⟨fun hListed => ⟨_, hListed, rfl⟩, ?_⟩ hAlike
      rintro ⟨value, hListed, hSame⟩
      exact (JsValue.stored_inj hDate).mp hSame.symm ▸ hListed
  | true =>
      obtain ⟨reference, hReference⟩ : ∃ reference, record key = .date reference := by
        cases hValue : record key <;> simp [hValue, JsValue.isDate] at hDate ⊢
      have hStored : ∀ value : JsValue, value.stored heap = .date (heap reference) ↔
          ∃ other, value = .date other ∧ heap other = heap reference := by
        intro value
        cases value <;> simp [JsValue.stored]
      have hTime : (record key).stored heap = .date (heap reference) := by
        rw [hReference, JsValue.stored]
      simp only [hTime, hStored]
      simp only [ReadAlike, hReference, JsValue.date.injEq, forall_eq']
      constructor
      · intro hAgree other hListed hSame
        exact hAgree.mpr ⟨_, hListed, other, rfl, hSame⟩
      · intro hAlike
        constructor
        · exact fun hListed => ⟨_, hListed, reference, rfl, rfl⟩
        · rintro ⟨value, hListed, other, rfl, hSame⟩
          exact hAlike other hListed hSame

/-- What `eq`, `is-null` and `notnull` say of a column is the same in both tables. -/
theorem agree_of_holds {c : Conditional K JsValue}
    (hScope : ∀ part, SubCondition part c → InScope record part)
    (hMatches : conditionalMatchesRecord heap record c = true ↔
      (c.stored heap).holds strictlyBefore (fun key => (record key).stored heap) = true) :
    Agree heap record c :=
  hMatches.trans (selects_iff_holds c hScope).symm

/-- A condition on one column: not an `and`, and not an `or`. -/
def IsLeaf : Conditional K JsValue → Prop
  | .and _ | .or _ => False
  | _ => True

/-- Of an `and` or an `or` itself nothing is asked. -/
theorem readAlike_of_not_isLeaf {c : Conditional K JsValue} (hGroup : ¬ IsLeaf c) :
    ReadAlike heap record c := by
  cases c <;> first | trivial | exact absurd trivial hGroup

/-- On one column the backends agree exactly when it is read alike. -/
theorem agree_leaf_iff {c : Conditional K JsValue} (hLeaf : IsLeaf c)
    (hScope : ∀ part, SubCondition part c → InScope record part) :
    Agree heap record c ↔ ReadAlike heap record c := by
  cases c with
  | eq key value =>
      have hDate : (record key).isDate = false := hScope _ .whole
      refine iff_of_true (agree_of_holds hScope ?_) trivial
      simp [conditionalMatchesRecord, Conditional.stored, Conditional.holds,
        JsValue.stored_inj hDate]
  | beforeDate key before => exact agree_beforeDate
  | oneOf key values => exact agree_oneOf (hScope _ .whole)
  | isNull key =>
      refine iff_of_true (agree_of_holds hScope ?_) trivial
      simp [conditionalMatchesRecord, Conditional.stored, Conditional.holds]
  | notNull key =>
      refine iff_of_true (agree_of_holds hScope ?_) trivial
      simp [conditionalMatchesRecord, Conditional.stored, Conditional.holds]
  | or conditionals => exact hLeaf.elim
  | and conditionals => exact hLeaf.elim

/-! ## What a difference depends on -/

/-- No other part hides this one from two readings `P` and `Q` of the whole: wherever it
stands in an `and`, the first reading accepts all parts of that, and wherever it stands in an
`or`, the second one rejects all parts. -/
inductive Exposed (P Q : Conditional K JsValue → Prop) (part : Conditional K JsValue) :
    Conditional K JsValue → Prop
  | whole : Exposed P Q part part
  | inAnd (c : Conditional K JsValue) (conditionals : List (Conditional K JsValue))
      (hPart : Exposed P Q part c) (hMem : c ∈ conditionals) (hAll : ∀ d ∈ conditionals, P d) :
      Exposed P Q part (.and conditionals)
  | inOr (c : Conditional K JsValue) (conditionals : List (Conditional K JsValue))
      (hPart : Exposed P Q part c) (hMem : c ∈ conditionals)
      (hNone : ∀ d ∈ conditionals, ¬ Q d) :
      Exposed P Q part (.or conditionals)

section Readings

variable {P Q : Conditional K JsValue → Prop} {part c : Conditional K JsValue}

/-- A part of a group is accepted by the first reading, or rejected by the second. -/
theorem Exposed.of_ne (hExposed : Exposed P Q part c) (hNe : part ≠ c) : P part ∨ ¬ Q part := by
  induction hExposed with
  | whole => exact absurd rfl hNe
  | inAnd c conditionals hPart hMem hAll ih =>
      by_cases hSame : part = c
      · exact Or.inl (hSame ▸ hAll c hMem)
      · exact ih hSame
  | inOr c conditionals hPart hMem hNone ih =>
      by_cases hSame : part = c
      · exact Or.inr (hSame ▸ hNone c hMem)
      · exact ih hSame

/-- A reading takes an `and` for all of its parts, and an `or` for one of them. -/
structure Reads (P : Conditional K JsValue → Prop) : Prop where
  and_iff : ∀ conditionals, P (.and conditionals) ↔ ∀ c ∈ conditionals, P c
  or_iff : ∀ conditionals, P (.or conditionals) ↔ ∃ c ∈ conditionals, P c

/-- A difference in an exposed part is one of the whole. -/
theorem Exposed.differs (hP : Reads P) (hQ : Reads Q) (hExposed : Exposed P Q part c)
    (hPart : P part ∧ ¬ Q part) : P c ∧ ¬ Q c := by
  induction hExposed with
  | whole => exact hPart
  | inAnd c conditionals _ hMem hAll ih =>
      rw [hP.and_iff, hQ.and_iff]
      exact ⟨hAll, fun hEvery => ih.2 (hEvery c hMem)⟩
  | inOr c conditionals _ hMem hNone ih =>
      rw [hP.or_iff, hQ.or_iff]
      exact ⟨⟨c, hMem, ih.1⟩, fun ⟨d, hOther, hAccepted⟩ => hNone d hOther hAccepted⟩

/-- A difference of the whole comes from an exposed part on one column. -/
theorem exists_exposed (hP : Reads P) (hQ : Reads Q) (c : Conditional K JsValue)
    (hAccepted : P c) (hRejected : ¬ Q c) :
    ∃ part, IsLeaf part ∧ Exposed P Q part c ∧ P part ∧ ¬ Q part := by
  cases c with
  | and conditionals =>
      have hAll := (hP.and_iff conditionals).mp hAccepted
      rw [hQ.and_iff] at hRejected
      push Not at hRejected
      obtain ⟨c, hMem, hNot⟩ := hRejected
      obtain ⟨part, hLeaf, hExposed, hDiffers⟩ := exists_exposed hP hQ c (hAll c hMem) hNot
      exact ⟨part, hLeaf, .inAnd c conditionals hExposed hMem hAll, hDiffers⟩
  | or conditionals =>
      obtain ⟨c, hMem, hSome⟩ := (hP.or_iff conditionals).mp hAccepted
      have hNone : ∀ d ∈ conditionals, ¬ Q d := fun d hOther hQd =>
        hRejected ((hQ.or_iff conditionals).mpr ⟨d, hOther, hQd⟩)
      obtain ⟨part, hLeaf, hExposed, hDiffers⟩ := exists_exposed hP hQ c hSome (hNone c hMem)
      exact ⟨part, hLeaf, .inOr c conditionals hExposed hMem hNone, hDiffers⟩
  | eq key value => exact ⟨.eq key value, trivial, .whole, hAccepted, hRejected⟩
  | beforeDate key before =>
      exact ⟨.beforeDate key before, trivial, .whole, hAccepted, hRejected⟩
  | oneOf key values => exact ⟨.oneOf key values, trivial, .whole, hAccepted, hRejected⟩
  | isNull key => exact ⟨.isNull key, trivial, .whole, hAccepted, hRejected⟩
  | notNull key => exact ⟨.notNull key, trivial, .whole, hAccepted, hRejected⟩

/-- Readings that agree on the whole agree on an exposed part. -/
theorem Exposed.agree (hP : Reads P) (hQ : Reads Q) (hExposed : Exposed P Q part c)
    (hSame : P c ↔ Q c) : P part ↔ Q part := by
  by_cases hWhole : part = c
  · exact hWhole ▸ hSame
  · refine ⟨fun hYes => ?_, fun hYes => ?_⟩
    · by_contra hNo
      have hDiffers := hExposed.differs hP hQ ⟨hYes, hNo⟩
      exact hDiffers.2 (hSame.mp hDiffers.1)
    · exact (hExposed.of_ne hWhole).resolve_right fun hNo => hNo hYes

/-- Two readings agree on the whole exactly when they agree on its exposed parts on one
column. -/
theorem agree_iff_exposed (hP : Reads P) (hQ : Reads Q) :
    (P c ↔ Q c) ↔ ∀ part, IsLeaf part → Exposed P Q part c ∨ Exposed Q P part c →
      (P part ↔ Q part) := by
  constructor
  · rintro hSame part - (hPart | hPart)
    · exact hPart.agree hP hQ hSame
    · exact (hPart.agree hQ hP hSame.symm).symm
  · intro hParts
    refine ⟨fun hYes => ?_, fun hYes => ?_⟩
    · by_contra hNo
      obtain ⟨part, hLeaf, hPart, hAccepted, hRejected⟩ := exists_exposed hP hQ c hYes hNo
      exact hRejected ((hParts part hLeaf (Or.inl hPart)).mp hAccepted)
    · by_contra hNo
      obtain ⟨part, hLeaf, hPart, hAccepted, hRejected⟩ := exists_exposed hQ hP c hYes hNo
      exact hRejected ((hParts part hLeaf (Or.inr hPart)).mpr hAccepted)

end Readings

/-! ## The two meanings of a condition -/

/-- What the condition is documented to say of the record. -/
def Means (heap : Heap) (record : K → JsValue) (c : Conditional K JsValue) : Prop :=
  (c.stored heap).holds strictlyBefore (fun key => (record key).stored heap) = true

/-- What it says when each condition on one column that is not read alike is taken for its
opposite. -/
inductive Misread (heap : Heap) (record : K → JsValue) : Conditional K JsValue → Prop
  | leaf (c : Conditional K JsValue) (hLeaf : IsLeaf c)
      (hAlike : Means heap record c ↔ ReadAlike heap record c) : Misread heap record c
  | and (conditionals : List (Conditional K JsValue))
      (hAll : ∀ c ∈ conditionals, Misread heap record c) : Misread heap record (.and conditionals)
  | or (c : Conditional K JsValue) (conditionals : List (Conditional K JsValue))
      (hMem : c ∈ conditionals) (hPart : Misread heap record c) :
      Misread heap record (.or conditionals)

theorem reads_means (heap : Heap) (record : K → JsValue) : Reads (Means heap record) where
  and_iff conditionals := by
    rw [Means, Conditional.stored, Conditional.holds, allHold_storedAll]
    exact Iff.rfl
  or_iff conditionals := by
    rw [Means, Conditional.stored, Conditional.holds, anyHolds_storedAll]
    exact Iff.rfl

theorem reads_misread (heap : Heap) (record : K → JsValue) : Reads (Misread heap record) where
  and_iff conditionals := by
    refine ⟨fun hMisread => ?_, .and conditionals⟩
    cases hMisread with
    | leaf _ hLeaf _ => exact hLeaf.elim
    | and _ hAll => exact hAll
  or_iff conditionals := by
    refine ⟨fun hMisread => ?_, fun ⟨c, hMem, hPart⟩ => .or c conditionals hMem hPart⟩
    cases hMisread with
    | leaf _ hLeaf _ => exact hLeaf.elim
    | or c _ hMem hPart => exact ⟨c, hMem, hPart⟩

theorem misread_leaf_iff {c : Conditional K JsValue} (hLeaf : IsLeaf c) :
    Misread heap record c ↔ (Means heap record c ↔ ReadAlike heap record c) := by
  refine ⟨fun hMisread => ?_, .leaf c hLeaf⟩
  cases hMisread with
  | leaf _ _ hAlike => exact hAlike
  | and => exact hLeaf.elim
  | or => exact hLeaf.elim

/-- The in-memory table misreads a condition on one column that is not read alike. -/
theorem matches_iff_misread_leaf {c : Conditional K JsValue} (hLeaf : IsLeaf c)
    (hScope : ∀ part, SubCondition part c → InScope record part) :
    conditionalMatchesRecord heap record c = true ↔ Misread heap record c := by
  rw [misread_leaf_iff hLeaf, ← agree_leaf_iff hLeaf hScope, Agree, selects_iff_holds c hScope,
    Means]
  tauto

/-- And it misreads no more of a whole condition than that. -/
theorem matches_iff_misread (c : Conditional K JsValue)
    (hScope : ∀ part, SubCondition part c → InScope record part) :
    conditionalMatchesRecord heap record c = true ↔ Misread heap record c := by
  cases c with
  | and conditionals =>
      rw [conditionalMatchesRecord, everyMatches_iff, (reads_misread heap record).and_iff]
      refine forall₂_congr fun c hMem => ?_
      exact matches_iff_misread c fun part hPart => hScope part (.inAnd c conditionals hPart hMem)
  | or conditionals =>
      rw [conditionalMatchesRecord, someMatches_iff, (reads_misread heap record).or_iff]
      refine exists_congr fun c => and_congr_right fun hMem => ?_
      exact matches_iff_misread c fun part hPart => hScope part (.inOr c conditionals hPart hMem)
  | eq key value => exact matches_iff_misread_leaf trivial hScope
  | beforeDate key before => exact matches_iff_misread_leaf trivial hScope
  | oneOf key values => exact matches_iff_misread_leaf trivial hScope
  | isNull key => exact matches_iff_misread_leaf trivial hScope
  | notNull key => exact matches_iff_misread_leaf trivial hScope

/-! ## Agreement -/

/-- Whether the two meanings of the whole differ depends on this part: where it stands in an
`and`, one of them takes all parts of that for true, and where it stands in an `or`, the other
one takes all parts for false. -/
def Decisive (heap : Heap) (record : K → JsValue) (part c : Conditional K JsValue) : Prop :=
  Exposed (Misread heap record) (Means heap record) part c ∨
    Exposed (Means heap record) (Misread heap record) part c

/-- **The backends read a condition alike** exactly when every part of it that is decisive is
read alike: a `before-date` reads a null or the very bound, and a list has no other date object
of the time of the date it is compared with. -/
theorem backends_agree_iff (heap : Heap) (record : K → JsValue) (c : Conditional K JsValue)
    (hScope : ∀ part, SubCondition part c → InScope record part) :
    Agree heap record c ↔ ∀ part, Decisive heap record part c → ReadAlike heap record part := by
  have hLeaves : ∀ part, IsLeaf part →
      ((Misread heap record part ↔ Means heap record part) ↔ ReadAlike heap record part) := by
    intro part hLeaf
    rw [misread_leaf_iff hLeaf]
    tauto
  calc Agree heap record c
      ↔ (Misread heap record c ↔ Means heap record c) := by
        rw [Agree, matches_iff_misread c hScope, selects_iff_holds c hScope, Means]
    _ ↔ ∀ part, IsLeaf part → Decisive heap record part c →
          (Misread heap record part ↔ Means heap record part) :=
        agree_iff_exposed (reads_misread heap record) (reads_means heap record)
    _ ↔ ∀ part, Decisive heap record part c → ReadAlike heap record part := by
        refine forall_congr' fun part => ⟨fun hPart hDecisive => ?_, fun hPart hLeaf hDecisive =>
          (hLeaves part hLeaf).mpr (hPart hDecisive)⟩
        by_cases hLeaf : IsLeaf part
        · exact (hLeaves part hLeaf).mp (hPart hLeaf hDecisive)
        · exact readAlike_of_not_isLeaf hLeaf

/-- A lease of a record that expires at the given time. -/
private def leaseRecord (leased : Bool) : ScheduledJobColumn → JsValue
  | .pk => .string "job"
  | .updateState => if leased then .string "start-task" else .null
  | .pasture => .boolean false
  | .leaseOwner => if leased then .string "owner" else .null
  | .leaseExpires => if leased then .date 0 else .null

/-- The job itself, or any job whose lease has expired. -/
private def jobOrExpiredBefore (now : Date) : Conditional ScheduledJobColumn JsValue :=
  .or [.eq .pk (.string "job"), .beforeDate .leaseExpires now]

/-- Both backends accept a leased job by its key, and the bound on its lease is hidden. -/
theorem sample_backends_agree :
    Agree (fun _ => 5) (leaseRecord true) (jobOrExpiredBefore 10) := by
  refine (backends_agree_iff (fun _ => 5) (leaseRecord true) (jobOrExpiredBefore 10) ?_).mpr ?_
  · intro part hPart
    cases hPart with
    | whole => exact List.cons_ne_nil _ _
    | inOr c conditionals hInner hMem =>
        rcases List.mem_pair.mp hMem with rfl | rfl
        · cases hInner
          exact rfl
        · cases hInner
          trivial
  · -- the key is true and read alike, so neither meaning takes all parts for false
    have hKey : Means (fun _ => 5) (leaseRecord true) (.eq .pk (.string "job")) := by
      simp [Means, Conditional.stored, Conditional.holds, leaseRecord]
    have hKey' : Misread (fun _ => 5) (leaseRecord true) (.eq .pk (.string "job")) :=
      .leaf _ trivial (iff_of_true hKey trivial)
    rintro part (hExposed | hExposed)
    · cases hExposed with
      | whole => trivial
      | inOr c conditionals _ _ hNone => exact absurd hKey (hNone _ List.mem_cons_self)
    · cases hExposed with
      | whole => trivial
      | inOr c conditionals _ _ hNone => exact absurd hKey' (hNone _ List.mem_cons_self)

/-- **A bound on a date is read in opposite ways.**  A lease that expired at 5 is found
expired at 10 by the SQL table alone. -/
theorem before_date_reversed :
    ¬ ∀ (heap : Heap) (record : ScheduledJobColumn → JsValue)
      (c : Conditional ScheduledJobColumn JsValue),
      (∀ part, SubCondition part c → InScope record part) → Agree heap record c := by
  intro hLaw
  have hAgree := hLaw (fun _ => 5) (leaseRecord true) (.beforeDate .leaseExpires 10) ?_
  · have hAlike := agree_beforeDate.mp hAgree 0 rfl
    exact absurd hAlike (by decide)
  · rintro part ⟨⟩
    trivial

end TernScheduler
