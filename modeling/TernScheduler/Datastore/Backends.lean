import TernScheduler.Datastore.Memory

/-!
# Two readings of a condition

The in-memory table interprets a condition on the record itself; the SQL table turns
it into a where clause for `sequelize`.  A date of a record is an object, known by its
reference; the two backends differ in whether they compare the reference or the time.

* `conditionalMatchesRecord` is the interpreter of `datastore/memory.ts`.
* `conditionalLink` is the translation of `datastore-sql`, and `WhereClause.truth` the
  meaning of its clauses, with unknown truth where a null is compared.
* `linked_holds` says that the translation reads a condition as `Conditional.holds`
  does.
-/

namespace TernScheduler

/-! ## Values -/

/-- A JavaScript value a column or a condition can hold. -/
inductive JsValue
  | null
  | boolean (value : Bool)
  | number (value : Int)
  | string (value : String)
  | date (reference : Nat)
  deriving DecidableEq, Repr

/-- The time of each date object. -/
abbrev Heap := Nat → Date

/-- The value a database stores for a JavaScript value. -/
def JsValue.stored (heap : Heap) : JsValue → ColumnValue
  | null => .null
  | boolean value => .bool value
  | number value => .number value
  | string value => .text value
  | date reference => .date (heap reference)

/-- The value is a date. -/
def JsValue.isDate : JsValue → Bool
  | date _ => true
  | _ => false

@[simp] theorem JsValue.stored_eq_null {heap : Heap} {value : JsValue} :
    value.stored heap = .null ↔ value = .null := by
  cases value <;> simp [stored]

/-- Only dates can be stored alike and differ. -/
theorem JsValue.stored_inj {heap : Heap} {value other : JsValue}
    (hDate : value.isDate = false) : value.stored heap = other.stored heap ↔ value = other := by
  cases value <;> cases other <;> simp [stored, isDate] at *

/-! ## The in-memory table -/

section Memory

variable {K : Type}

mutual

/-- `conditionalMatchesRecord` on a record that is there.  `===` compares dates by
their reference, and `<` compares their times. -/
def conditionalMatchesRecord (heap : Heap) (record : K → JsValue) :
    Conditional K JsValue → Bool
  | .and conditionals => everyMatches heap record conditionals
  | .or conditionals => someMatches heap record conditionals
  | .eq key value => record key = value
  | .beforeDate key before =>
      match record key with
      | .date reference => before < heap reference
      | _ => false
  | .notNull key => record key ≠ .null
  | .isNull key => record key = .null
  | .oneOf key values => record key ∈ values

/-- The loop over the parts of an `and`. -/
def everyMatches (heap : Heap) (record : K → JsValue) : List (Conditional K JsValue) → Bool
  | [] => true
  | c :: cs => if conditionalMatchesRecord heap record c then everyMatches heap record cs else false

/-- The loop over the parts of an `or`. -/
def someMatches (heap : Heap) (record : K → JsValue) : List (Conditional K JsValue) → Bool
  | [] => false
  | c :: cs => if conditionalMatchesRecord heap record c then true else someMatches heap record cs

end

theorem everyMatches_iff {heap : Heap} {record : K → JsValue}
    {conditionals : List (Conditional K JsValue)} :
    everyMatches heap record conditionals = true ↔
      ∀ c ∈ conditionals, conditionalMatchesRecord heap record c = true := by
  induction conditionals with
  | nil => simp [everyMatches]
  | cons c cs ih => simp [everyMatches, ih]

theorem someMatches_iff {heap : Heap} {record : K → JsValue}
    {conditionals : List (Conditional K JsValue)} :
    someMatches heap record conditionals = true ↔
      ∃ c ∈ conditionals, conditionalMatchesRecord heap record c = true := by
  induction conditionals with
  | nil => simp [someMatches]
  | cons c cs ih => simp [someMatches, ih]

end Memory

/-! ## The SQL table -/

/-- The operators of `sequelize` on one column that the translation uses. -/
inductive WhereOp
  | eq (value : JsValue)
  | ne (value : JsValue)
  | lt (before : Date)
  | oneOf (values : List JsValue)

/-- A where clause: `Op.and`, `Op.or`, or operators on a column, all of which are to
hold. -/
inductive WhereClause (K : Type) : Type
  | and (clauses : List (WhereClause K))
  | or (clauses : List (WhereClause K))
  | column (key : K) (ops : List WhereOp)

section Sql

variable {K : Type}

mutual

def conditionalLink : Conditional K JsValue → WhereClause K
  | .and conditionals => .and (linkAll conditionals)
  | .or conditionals => .or (linkAll conditionals)
  | .eq key value => .column key [.eq value]
  | .beforeDate key before => .column key [.ne .null, .lt before]
  | .oneOf key values => .column key [.oneOf values]
  | .notNull key => .column key [.ne .null]
  | .isNull key => .column key [.eq .null]

/-- The loop that links the parts of a condition. -/
def linkAll : List (Conditional K JsValue) → List (WhereClause K)
  | [] => []
  | c :: cs => conditionalLink c :: linkAll cs

end

/-- The truth value of SQL: true, false, or unknown. -/
abbrev Truth := Option Bool

/-- `AND` of SQL. -/
def Truth.and : Truth → Truth → Truth
  | some false, _ => some false
  | _, some false => some false
  | some true, some true => some true
  | _, _ => none

/-- `OR` of SQL. -/
def Truth.or : Truth → Truth → Truth
  | some true, _ => some true
  | _, some true => some true
  | some false, some false => some false
  | _, _ => none

@[simp] theorem Truth.and_eq_true {left right : Truth} :
    Truth.and left right = some true ↔ left = some true ∧ right = some true := by
  rcases left with _ | _ | _ <;> rcases right with _ | _ | _ <;> simp [Truth.and]

@[simp] theorem Truth.or_eq_true {left right : Truth} :
    Truth.or left right = some true ↔ left = some true ∨ right = some true := by
  rcases left with _ | _ | _ <;> rcases right with _ | _ | _ <;> simp [Truth.or]

/-- The meaning of an operator on a stored value.  A comparison with a null is `IS NULL`
or `IS NOT NULL`; any other comparison of a null is unknown, and so is a date compared
with what is no date. -/
def WhereOp.truth (heap : Heap) (value : ColumnValue) : WhereOp → Truth
  | .eq .null => some (value = .null)
  | .eq other => if value = .null then none else some (value = other.stored heap)
  | .ne .null => some (value ≠ .null)
  | .ne other => if value = .null then none else some (value ≠ other.stored heap)
  | .lt before =>
      match value with
      | .date time => some (time < before)
      | _ => none
  | .oneOf values =>
      if value = .null then none
      else if value ∈ values.map (·.stored heap) then some true
      else if .null ∈ values then none
      else some false

mutual

/-- The meaning of a where clause on a stored record. -/
def WhereClause.truth (heap : Heap) (record : K → ColumnValue) : WhereClause K → Truth
  | .and clauses => truthOfAll heap record clauses
  | .or clauses => truthOfAny heap record clauses
  | .column key ops => (ops.map (·.truth heap (record key))).foldr Truth.and (some true)

/-- The meaning of clauses joined by `AND`. -/
def truthOfAll (heap : Heap) (record : K → ColumnValue) : List (WhereClause K) → Truth
  | [] => some true
  | clause :: clauses =>
      Truth.and (clause.truth heap record) (truthOfAll heap record clauses)

/-- The meaning of clauses joined by `OR`. -/
def truthOfAny (heap : Heap) (record : K → ColumnValue) : List (WhereClause K) → Truth
  | [] => some false
  | clause :: clauses =>
      Truth.or (clause.truth heap record) (truthOfAny heap record clauses)

end

/-- A where clause selects the records it is true of. -/
def WhereClause.Selects (heap : Heap) (record : K → JsValue) (clause : WhereClause K) : Prop :=
  clause.truth heap (fun key => (record key).stored heap) = some true

instance (heap : Heap) (record : K → JsValue) (clause : WhereClause K) :
    Decidable (clause.Selects heap record) :=
  inferInstanceAs (Decidable (_ = _))

end Sql

/-! ## Both read the conditions of the data store -/

section Stored

variable {K : Type}

mutual

/-- The condition on stored values. -/
def Conditional.stored (heap : Heap) : Conditional K JsValue → Conditional K
  | .eq key value => .eq key (value.stored heap)
  | .beforeDate key before => .beforeDate key before
  | .oneOf key values => .oneOf key (values.map (·.stored heap))
  | .isNull key => .isNull key
  | .notNull key => .notNull key
  | .or conditionals => .or (storedAll heap conditionals)
  | .and conditionals => .and (storedAll heap conditionals)

/-- The conditions of a list on stored values. -/
def Conditional.storedAll (heap : Heap) : List (Conditional K JsValue) → List (Conditional K)
  | [] => []
  | c :: cs => c.stored heap :: Conditional.storedAll heap cs

end

/-- A condition is part of another one, or the whole of it. -/
inductive SubCondition (part : Conditional K JsValue) : Conditional K JsValue → Prop
  | whole : SubCondition part part
  | inAnd (c : Conditional K JsValue) (conditionals : List (Conditional K JsValue))
      (hPart : SubCondition part c) (hMem : c ∈ conditionals) :
      SubCondition part (.and conditionals)
  | inOr (c : Conditional K JsValue) (conditionals : List (Conditional K JsValue))
      (hPart : SubCondition part c) (hMem : c ∈ conditionals) :
      SubCondition part (.or conditionals)

/-- No date column is compared by `eq`, no null is listed, and no group is empty. -/
def InScope (record : K → JsValue) : Conditional K JsValue → Prop
  | .eq key _ => (record key).isDate = false
  | .oneOf _ values => .null ∉ values
  | .and conditionals | .or conditionals => conditionals ≠ []
  | _ => True

variable {heap : Heap} {record : K → JsValue}

/-- A column is selected by `in` when it is listed, and not null. -/
theorem WhereOp.truth_oneOf {value : ColumnValue} {values : List JsValue} :
    (WhereOp.oneOf values).truth heap value = some true ↔
      value ≠ .null ∧ value ∈ values.map (·.stored heap) := by
  simp only [WhereOp.truth]
  by_cases hNull : value = .null
  · simp [hNull]
  · by_cases hListed : value ∈ values.map (·.stored heap)
    · simp [hNull, hListed]
    · rw [if_neg hNull, if_neg hListed]
      split <;> simp [hListed]

theorem selects_column {key : K} {op : WhereOp} :
    (WhereClause.column key [op]).Selects heap record ↔
      op.truth heap ((record key).stored heap) = some true := by
  simp [WhereClause.Selects, WhereClause.truth]

theorem linkAll_eq (conditionals : List (Conditional K JsValue)) :
    linkAll conditionals = conditionals.map conditionalLink := by
  induction conditionals with
  | nil => rfl
  | cons c cs ih => rw [linkAll, ih, List.map_cons]

theorem truthOfAll_iff {clauses : List (WhereClause K)} {values : K → ColumnValue} :
    truthOfAll heap values clauses = some true ↔
      ∀ clause ∈ clauses, clause.truth heap values = some true := by
  induction clauses with
  | nil => simp [truthOfAll]
  | cons clause clauses ih => simp [truthOfAll, ih]

theorem truthOfAny_iff {clauses : List (WhereClause K)} {values : K → ColumnValue} :
    truthOfAny heap values clauses = some true ↔
      ∃ clause ∈ clauses, clause.truth heap values = some true := by
  induction clauses with
  | nil => simp [truthOfAny]
  | cons clause clauses ih => simp [truthOfAny, ih]

theorem selects_and {conditionals : List (Conditional K JsValue)} :
    (conditionalLink (.and conditionals)).Selects heap record ↔
      ∀ c ∈ conditionals, (conditionalLink c).Selects heap record := by
  rw [conditionalLink, WhereClause.Selects, WhereClause.truth, linkAll_eq, truthOfAll_iff]
  exact List.forall_mem_map

theorem selects_or {conditionals : List (Conditional K JsValue)} :
    (conditionalLink (.or conditionals)).Selects heap record ↔
      ∃ c ∈ conditionals, (conditionalLink c).Selects heap record := by
  rw [conditionalLink, WhereClause.Selects, WhereClause.truth, linkAll_eq, truthOfAny_iff]
  simp only [List.mem_map, exists_exists_and_eq_and]
  exact Iff.rfl

theorem allHold_storedAll {reading : BeforeDateReading} {values : K → ColumnValue}
    {conditionals : List (Conditional K JsValue)} :
    Conditional.allHold reading values (Conditional.storedAll heap conditionals) = true ↔
      ∀ c ∈ conditionals, (c.stored heap).holds reading values = true := by
  induction conditionals with
  | nil => simp [Conditional.storedAll, Conditional.allHold]
  | cons c cs ih => simp [Conditional.storedAll, Conditional.allHold, ih]

theorem anyHolds_storedAll {reading : BeforeDateReading} {values : K → ColumnValue}
    {conditionals : List (Conditional K JsValue)} :
    Conditional.anyHolds reading values (Conditional.storedAll heap conditionals) = true ↔
      ∃ c ∈ conditionals, (c.stored heap).holds reading values = true := by
  induction conditionals with
  | nil => simp [Conditional.storedAll, Conditional.anyHolds]
  | cons c cs ih => simp [Conditional.storedAll, Conditional.anyHolds, ih]

/-- **The SQL table reads conditions as documented.** -/
theorem selects_iff_holds (c : Conditional K JsValue)
    (hScope : ∀ part, SubCondition part c → InScope record part) :
    (conditionalLink c).Selects heap record ↔
      (c.stored heap).holds strictlyBefore (fun key => (record key).stored heap) = true := by
  cases c with
  | eq key value =>
      rw [conditionalLink, selects_column]
      cases value <;> cases hValue : record key <;>
        simp [WhereOp.truth, Conditional.stored, Conditional.holds, JsValue.stored, hValue]
  | beforeDate key before =>
      cases hValue : record key <;>
        simp [conditionalLink, WhereClause.Selects, WhereClause.truth, WhereOp.truth,
          Conditional.stored, Conditional.holds, JsValue.stored, hValue, strictlyBefore]
  | oneOf key values =>
      -- null in a list is the one value SQL never finds
      have hNull : .null ∉ values := hScope _ .whole
      rw [conditionalLink, selects_column, WhereOp.truth_oneOf, Conditional.stored,
        Conditional.holds, decide_eq_true_iff]
      refine and_iff_right_of_imp fun hListed hStored => hNull ?_
      obtain ⟨value, hValue, hSame⟩ := List.mem_map.mp hListed
      exact JsValue.stored_eq_null.mp (hSame.trans hStored) ▸ hValue
  | isNull key =>
      rw [conditionalLink, selects_column]
      simp [WhereOp.truth, Conditional.stored, Conditional.holds]
  | notNull key =>
      rw [conditionalLink, selects_column]
      simp [WhereOp.truth, Conditional.stored, Conditional.holds]
  | or conditionals =>
      rw [selects_or, Conditional.stored, Conditional.holds, anyHolds_storedAll]
      refine exists_congr fun c => and_congr_right fun hMem => ?_
      exact selects_iff_holds c fun part hPart => hScope part (.inOr c conditionals hPart hMem)
  | and conditionals =>
      rw [selects_and, Conditional.stored, Conditional.holds, allHold_storedAll]
      refine forall₂_congr fun c hMem => ?_
      exact selects_iff_holds c fun part hPart => hScope part (.inAnd c conditionals hPart hMem)

/-- A condition that lists no date. -/
def ListsNoDate : Conditional K JsValue → Prop
  | .oneOf _ values => ∀ value ∈ values, value.isDate = false
  | _ => True

/-- **The in-memory table reads `before-date` the other way.**  It compares dates in
no other condition, unless one is listed. -/
theorem matches_iff_holds (c : Conditional K JsValue)
    (hScope : ∀ part, SubCondition part c → InScope record part ∧ ListsNoDate part) :
    conditionalMatchesRecord heap record c = true ↔
      (c.stored heap).holds laterThan (fun key => (record key).stored heap) = true := by
  cases c with
  | eq key value =>
      have hDate : (record key).isDate = false := (hScope _ .whole).1
      simp [conditionalMatchesRecord, Conditional.stored, Conditional.holds,
        JsValue.stored_inj hDate]
  | beforeDate key before =>
      cases hValue : record key <;>
        simp [conditionalMatchesRecord, Conditional.stored, Conditional.holds, JsValue.stored,
          hValue, laterThan]
  | oneOf key values =>
      -- a date in a list is compared as an object, so there must be none
      have hDates : ∀ value ∈ values, value.isDate = false := (hScope _ .whole).2
      simp only [conditionalMatchesRecord, Conditional.stored, Conditional.holds,
        decide_eq_true_iff, List.mem_map]
      constructor
      · exact fun hListed => ⟨_, hListed, rfl⟩
      · rintro ⟨value, hValue, hSame⟩
        exact (JsValue.stored_inj (hDates value hValue)).mp hSame ▸ hValue
  | isNull key => simp [conditionalMatchesRecord, Conditional.stored, Conditional.holds]
  | notNull key => simp [conditionalMatchesRecord, Conditional.stored, Conditional.holds]
  | or conditionals =>
      rw [conditionalMatchesRecord, someMatches_iff, Conditional.stored, Conditional.holds,
        anyHolds_storedAll]
      refine exists_congr fun c => and_congr_right fun hMem => ?_
      exact matches_iff_holds c fun part hPart => hScope part (.inOr c conditionals hPart hMem)
  | and conditionals =>
      rw [conditionalMatchesRecord, everyMatches_iff, Conditional.stored, Conditional.holds,
        allHold_storedAll]
      refine forall₂_congr fun c hMem => ?_
      exact matches_iff_holds c fun part hPart => hScope part (.inAnd c conditionals hPart hMem)

end Stored

end TernScheduler
