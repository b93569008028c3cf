import TernScheduler.Datastore.Memory

/-!
# The in-memory table as a keyed table

The rows of `MemTable` and the object that indexes their keys are meant to be one
insertion-ordered map from keys to rows.

* `TableCall` is a call of the table, and `trace` what a sequence of calls gives:
  the reply to each, and the rows after it.
* `memTable_agrees_iff` says which sequences give what the map gives.
-/

namespace TernScheduler

open KeyedTable

variable {ρ : Type} {pk : ρ → PrimaryKeyType}

/-- A call of a table.  A row that is created has a key. -/
inductive TableCall (pk : ρ → PrimaryKeyType)
  | create (row : ρ) (hKey : pk row ≠ "")
  | conditionalUpdate (primaryKey : PrimaryKeyType) (newValues : NewValues pk)
      (conditional : Option (ρ → Bool))
  | find (startIndex maximumRecordCount : Nat) (conditional : Option (ρ → Bool))
  | remove (primaryKey : PrimaryKeyType) (conditional : Option (ρ → Bool))

/-- What a call resolves or rejects with. -/
inductive TableReply (ρ : Type)
  | created (result : Except JsError Unit)
  | touched (count : Nat)
  | found (rows : List ρ)

/-- The rows an optional condition accepts. -/
def accepted (conditional : Option (ρ → Bool)) : ρ → Bool :=
  conditional.getD fun _ => true

/-- A call of the in-memory table. -/
def MemTable.call (table : MemTable pk) : TableCall pk → TableReply ρ × MemTable pk
  | .create row _ => ((table.create row).1 |> .created, (table.create row).2)
  | .conditionalUpdate primaryKey newValues conditional =>
      ((table.conditionalUpdate primaryKey newValues conditional).1 |> .touched,
        (table.conditionalUpdate primaryKey newValues conditional).2)
  | .find startIndex maximumRecordCount conditional =>
      (.found (table.find startIndex maximumRecordCount conditional), table)
  | .remove primaryKey conditional =>
      ((table.remove primaryKey conditional).1 |> .touched,
        (table.remove primaryKey conditional).2)

/-- The same call of the map: rows in the order they were created, no two with the
same key. -/
def mapCall (name : String) (map : Table pk) : TableCall pk → TableReply ρ × Table pk
  | .create row _ =>
      match map.create row with
      | none => (.created (.error (.duplicatePrimaryKey name (pk row))), map)
      | some added => (.created (.ok ()), added)
  | .conditionalUpdate primaryKey newValues conditional =>
      let updated := map.modify primaryKey (accepted conditional) newValues.apply
        newValues.apply_pk
      (.touched updated.2, updated.1)
  | .find startIndex maximumRecordCount conditional =>
      (.found (map.select startIndex maximumRecordCount (accepted conditional)), map)
  | .remove primaryKey conditional =>
      let removed := map.remove primaryKey (accepted conditional)
      (.touched removed.2, removed.1)

/-- What a sequence of calls gives: the reply to each call, and the rows after it. -/
def trace {σ : Type} (call : σ → TableCall pk → TableReply ρ × σ) (rows : σ → List ρ) :
    σ → List (TableCall pk) → List (TableReply ρ × List ρ)
  | _, [] => []
  | state, next :: calls =>
      ((call state next).1, rows (call state next).2) ::
        trace call rows (call state next).2 calls

/-- The two ways a call can mistake a key.  A row is not created under a name that
every object has, and an update under the empty key finds no row to its condition. -/
def KeyedCall (map : Table pk) : TableCall pk → Prop
  | .create row _ => pk row ∉ inheritedNames
  | .conditionalUpdate primaryKey _ conditional =>
      primaryKey = "" → ∀ row ∈ map, accepted conditional row = false
  | _ => True

/-- Every call of a sequence is ordinary in the map it finds. -/
def KeyedCalls (name : String) : Table pk → List (TableCall pk) → Prop
  | _, [] => True
  | map, call :: calls => KeyedCall map call ∧ KeyedCalls name (mapCall name map call).2 calls

/-! ## The two structures agree -/

/-- The table holds the rows of the map, and its index their keys. -/
structure Indexes (table : MemTable pk) (map : Table pk) : Prop where
  rows : table.rows = map.rows
  pks : ∀ key, key ∈ table.pks ↔ ∃ row ∈ map, pk row = key
  named : ∀ row ∈ map, pk row ≠ "" ∧ pk row ∉ inheritedNames

theorem accepts_none (conditional : Option (ρ → Bool)) :
    MemTable.accepts pk none conditional = accepted conditional := by
  funext row
  cases conditional <;> simp [MemTable.accepts, orNull, accepted]

/-- An ordinary update accepts the row of the key, if the condition does. -/
theorem accepts_some {map : Table pk} {primaryKey : PrimaryKeyType}
    {conditional : Option (ρ → Bool)}
    (hKeyed : primaryKey = "" → ∀ row ∈ map, accepted conditional row = false) {row : ρ}
    (hRow : row ∈ map) :
    MemTable.accepts pk (some primaryKey) conditional row =
      decide (pk row = primaryKey ∧ accepted conditional row = true) := by
  by_cases hEmpty : primaryKey = ""
  · have hNone := hKeyed hEmpty row hRow
    subst hEmpty
    cases conditional with
    | none => cases hNone
    | some holds => simp_all [MemTable.accepts, orNull, accepted, Option.filter_some]
  · cases conditional with
    | none => simp [MemTable.accepts, orNull, accepted, Option.filter_some, hEmpty]
    | some holds =>
        rw [Bool.eq_iff_iff, decide_eq_true_iff]
        simp [MemTable.accepts, orNull, accepted, Option.filter_some, hEmpty]

theorem accepts_empty (conditional : Option (ρ → Bool)) :
    MemTable.accepts pk (some "") conditional = accepted conditional := by
  funext row
  cases conditional <;> simp [MemTable.accepts, orNull, accepted, Option.filter_some]

/-- The loop of `_remove` is a removal by key when keys are distinct. -/
theorem removeFirst_eq {rows : List ρ} (hNodup : (rows.map pk).Nodup)
    (primaryKey : PrimaryKeyType) (conditional : Option (ρ → Bool)) :
    MemTable.removeFirst pk primaryKey conditional rows =
      if ∃ row ∈ rows, pk row = primaryKey ∧ accepted conditional row = true then
        some (rows.filter fun row => ¬ (pk row = primaryKey ∧ accepted conditional row))
      else none := by
  induction rows with
  | nil => rfl
  | cons row rows ih =>
      obtain ⟨hFresh, hRest⟩ := List.nodup_cons.mp hNodup
      by_cases hKey : pk row = primaryKey
      · -- No later row has the key.
        have hLater : ∀ other ∈ rows, pk other ≠ primaryKey := fun other hOther hSame =>
          hFresh (hKey ▸ hSame ▸ List.mem_map_of_mem hOther)
        have hKept : (rows.filter fun other =>
            ¬ (pk other = primaryKey ∧ accepted conditional other)) = rows :=
          List.filter_eq_self.mpr fun other hOther => by simp [hLater other hOther]
        have hOnly : (∃ other ∈ row :: rows,
            pk other = primaryKey ∧ accepted conditional other = true) ↔
              accepted conditional row = true := by
          constructor
          · rintro ⟨other, hOther, hSame, hHolds⟩
            rcases List.mem_cons.mp hOther with rfl | hOther
            · exact hHolds
            · exact absurd hSame (hLater other hOther)
          · exact fun hHolds => ⟨row, List.mem_cons_self, hKey, hHolds⟩
        rw [List.filter_cons, hKept]
        simp only [hOnly]
        cases conditional with
        | none => simp [MemTable.removeFirst, hKey, accepted]
        | some holds => cases hHolds : holds row <;>
            simp [MemTable.removeFirst, hKey, accepted, hHolds]
      · simp only [MemTable.removeFirst, hKey, if_false, ih hRest, List.mem_cons, exists_eq_or_imp,
          false_and, false_or]
        split
        · simp [hKey]
        · rfl

/-- A row can be added under a key that is absent and not inherited. -/
theorem hasPk_iff {table : MemTable pk} {map : Table pk} (hIndexes : Indexes table map)
    {key : PrimaryKeyType} :
    table.hasPk key = true ↔ (∃ row ∈ map, pk row = key) ∨ key ∈ inheritedNames := by
  simp [MemTable.hasPk, hIndexes.pks]

section Steps

variable {table : MemTable pk} {map : Table pk} {primaryKey : PrimaryKeyType}
  {conditional : Option (ρ → Bool)}

/-- Creating a row under an ordinary key. -/
theorem Indexes.create (hIndexes : Indexes table map) {row : ρ} {hKey : pk row ≠ ""}
    (hNamed : pk row ∉ inheritedNames) :
    (table.call (.create row hKey)).1 = (mapCall table.name map (.create row hKey)).1 ∧
      Indexes (table.call (.create row hKey)).2
        (mapCall table.name map (.create row hKey)).2 := by
  cases hCreate : map.create row with
  | none =>
      -- the map refuses a key that it has, and so does the index of the table
      have hTaken : table.hasPk (pk row) = true :=
        (hasPk_iff hIndexes).mpr (Or.inl (Table.create_eq_none_iff.mp hCreate))
      have hAdd : table.add row = none := if_pos (Or.inr hTaken)
      simp only [MemTable.call, MemTable.create, hAdd, mapCall, hCreate]
      exact ⟨trivial, hIndexes⟩
  | some added =>
      obtain ⟨hRows, hAbsent⟩ := Table.create_eq_some hCreate
      -- no key that is inherited is asked for, so the index finds none
      have hFree : ¬ (pk row = "" ∨ table.hasPk (pk row) = true) := by
        rw [hasPk_iff hIndexes]
        rintro (hEmpty | ⟨other, hOther, hSame⟩ | hInherited)
        · exact hKey hEmpty
        · exact hAbsent other hOther hSame
        · exact hNamed hInherited
      have hAdd : table.add row = some { table with
          pks := pk row :: table.pks, rows := table.rows ++ [row] } := if_neg hFree
      simp only [MemTable.call, MemTable.create, hAdd, mapCall, hCreate]
      refine ⟨trivial, ?_, fun key => ?_, fun other hOther => ?_⟩
      · rw [hRows, hIndexes.rows]
      · simp only [List.mem_cons, hIndexes.pks, Table.mem_create hCreate, or_and_right,
          exists_or, exists_eq_left]
        constructor
        · rintro (rfl | hOld)
          · exact Or.inr rfl
          · exact Or.inl hOld
        · rintro (hOld | rfl)
          · exact Or.inr hOld
          · exact Or.inl rfl
      · rcases (Table.mem_create hCreate).mp hOther with hOld | rfl
        · exact hIndexes.named other hOld
        · exact ⟨hKey, hNamed⟩

/-- An ordinary update. -/
theorem Indexes.conditionalUpdate (hIndexes : Indexes table map) {newValues : NewValues pk}
    (hKeyed : primaryKey = "" → ∀ row ∈ map, accepted conditional row = false) :
    (table.call (.conditionalUpdate primaryKey newValues conditional)).1 =
        (mapCall table.name map (.conditionalUpdate primaryKey newValues conditional)).1 ∧
      Indexes (table.call (.conditionalUpdate primaryKey newValues conditional)).2
        (mapCall table.name map (.conditionalUpdate primaryKey newValues conditional)).2 := by
  have hMatching : table.matching (some primaryKey) conditional =
      map.rows.filter fun row => pk row = primaryKey ∧ accepted conditional row = true := by
    rw [MemTable.matching, hIndexes.rows]
    exact List.filter_congr fun row hRow => accepts_some hKeyed hRow
  have hRows : (table.rows.map fun row =>
      if MemTable.accepts pk (some primaryKey) conditional row then newValues.apply row
      else row) = map.rows.map fun row =>
        if pk row = primaryKey ∧ accepted conditional row = true then newValues.apply row
        else row := by
    rw [hIndexes.rows]
    refine List.map_congr_left fun row hRow => ?_
    rw [accepts_some hKeyed hRow]
    simp only [decide_eq_true_eq]
  -- Every row has the key of a row there was.
  have hKeys : ∀ key, (∃ row ∈ (map.modify primaryKey (accepted conditional) newValues.apply
      newValues.apply_pk).1, pk row = key) ↔ ∃ row ∈ map, pk row = key := by
    intro key
    constructor
    · rintro ⟨row, hRow, hPk⟩
      obtain ⟨old, hOld, rfl⟩ := Table.mem_modify.mp hRow
      refine ⟨old, hOld, ?_⟩
      split at hPk
      · exact (newValues.apply_pk old).symm.trans hPk
      · exact hPk
    · rintro ⟨row, hRow, hPk⟩
      refine ⟨_, Table.mem_modify.mpr ⟨row, hRow, rfl⟩, ?_⟩
      split
      · exact (newValues.apply_pk row).trans hPk
      · exact hPk
  refine ⟨?_, hRows, fun key => ?_, fun row hRow => ?_⟩
  · show TableReply.touched _ = TableReply.touched _
    rw [MemTable.conditionalUpdate, hMatching]
    rfl
  · exact (hIndexes.pks key).trans (hKeys key).symm
  · obtain ⟨old, hOld, hPk⟩ := (hKeys (pk row)).mp ⟨row, hRow, rfl⟩
    exact hPk ▸ hIndexes.named old hOld

/-- A removal. -/
theorem Indexes.remove (hIndexes : Indexes table map) :
    (table.call (.remove primaryKey conditional)).1 =
        (mapCall table.name map (.remove primaryKey conditional)).1 ∧
      Indexes (table.call (.remove primaryKey conditional)).2
        (mapCall table.name map (.remove primaryKey conditional)).2 := by
  have hLoop := removeFirst_eq map.nodup primaryKey conditional
  have hCount := map.remove_count primaryKey (accepted conditional)
  rw [← hIndexes.rows] at hLoop
  by_cases hFound : ∃ row ∈ map, pk row = primaryKey ∧ accepted conditional row = true
  · obtain ⟨taken, hTaken, hKey, hHolds⟩ := hFound
    rw [if_pos ⟨taken, hIndexes.rows ▸ hTaken, hKey, hHolds⟩] at hLoop
    rw [if_pos ⟨taken, hTaken, hKey, hHolds⟩] at hCount
    simp only [MemTable.call, MemTable.remove, hLoop, mapCall, hCount]
    refine ⟨trivial, by rw [hIndexes.rows]; rfl, fun key => ?_, fun row hRow => ?_⟩
    · simp only [List.mem_filter, decide_eq_true_eq, hIndexes.pks]
      constructor
      · rintro ⟨⟨row, hRow, rfl⟩, hOther⟩
        exact ⟨row, Table.mem_remove.mpr ⟨hRow, fun hBoth => hOther hBoth.1⟩, rfl⟩
      · rintro ⟨row, hRow, rfl⟩
        obtain ⟨hOld, hKept⟩ := Table.mem_remove.mp hRow
        -- a key has one row, so no other row with it is left
        refine ⟨⟨row, hOld, rfl⟩, fun hSame => hKept ?_⟩
        rw [Table.eq_of_key_eq hOld hTaken (hSame.trans hKey.symm)]
        exact ⟨hKey, hHolds⟩
    · exact hIndexes.named row (Table.mem_remove.mp hRow).1
  · rw [if_neg (hIndexes.rows ▸ hFound)] at hLoop
    rw [if_neg hFound] at hCount
    simp only [MemTable.call, MemTable.remove, hLoop, mapCall, hCount]
    have hKept : ∀ row ∈ map, ¬ (pk row = primaryKey ∧ accepted conditional row = true) :=
      fun row hRow hBoth => hFound ⟨row, hRow, hBoth⟩
    have hMem : ∀ row, row ∈ (map.remove primaryKey (accepted conditional)).1 ↔ row ∈ map :=
      fun row => Table.mem_remove.trans (and_iff_left_of_imp fun hRow => hKept row hRow)
    refine ⟨trivial, ?_, fun key => ?_, fun row hRow => ?_⟩
    · rw [hIndexes.rows]
      exact (List.filter_eq_self.mpr fun row hRow => decide_eq_true (hKept row hRow)).symm
    · simp only [hIndexes.pks, hMem]
    · exact hIndexes.named row ((hMem row).mp hRow)

end Steps

/-- **Step lemma.**  An ordinary call gives the same reply on both, and leaves them in
step. -/
theorem Indexes.call {table : MemTable pk} {map : Table pk} (hIndexes : Indexes table map)
    {next : TableCall pk} (hKeyed : KeyedCall map next) :
    (table.call next).1 = (mapCall table.name map next).1 ∧
      Indexes (table.call next).2 (mapCall table.name map next).2 := by
  cases next with
  | create row hKey => exact hIndexes.create hKeyed
  | conditionalUpdate primaryKey newValues conditional =>
      exact hIndexes.conditionalUpdate hKeyed
  | find startIndex maximumRecordCount conditional =>
      refine ⟨?_, hIndexes⟩
      simp only [MemTable.call, mapCall, MemTable.find, MemTable.matching, accepts_none,
        hIndexes.rows, Table.select]
  | remove primaryKey conditional => exact hIndexes.remove

theorem MemTable.call_name (table : MemTable pk) (next : TableCall pk) :
    (table.call next).2.name = table.name := by
  cases next with
  | create row hKey =>
      unfold MemTable.call MemTable.create MemTable.add
      by_cases hTaken : pk row = "" ∨ table.hasPk (pk row) = true <;> simp [hTaken]
  | conditionalUpdate primaryKey newValues conditional => rfl
  | find startIndex maximumRecordCount conditional => rfl
  | remove primaryKey conditional =>
      show (table.remove primaryKey conditional).2.name = table.name
      unfold MemTable.remove
      cases MemTable.removeFirst pk primaryKey conditional table.rows <;> rfl

/-- A call that is not ordinary shows in its reply. -/
theorem Indexes.ordinary_of_reply {table : MemTable pk} {map : Table pk}
    (hIndexes : Indexes table map) {next : TableCall pk}
    (hReply : (table.call next).1 = (mapCall table.name map next).1) :
    KeyedCall map next := by
  cases next with
  | create row hKey =>
      intro hInherited
      have hTaken : table.hasPk (pk row) = true := (hasPk_iff hIndexes).mpr (Or.inr hInherited)
      have hAdd : table.add row = none := if_pos (Or.inr hTaken)
      cases hCreate : map.create row with
      | none =>
          obtain ⟨other, hOther, hSame⟩ := Table.create_eq_none_iff.mp hCreate
          exact (hIndexes.named other hOther).2 (hSame ▸ hInherited)
      | some added =>
          simp [MemTable.call, MemTable.create, hAdd, mapCall, hCreate] at hReply
  | conditionalUpdate primaryKey newValues conditional =>
      rintro rfl row hRow
      have hNone : (map.modify "" (accepted conditional) newValues.apply
          newValues.apply_pk).2 = 0 := by
        refine Nat.eq_zero_of_not_pos fun hPos => ?_
        obtain ⟨other, hOther, hEmpty, -⟩ := Table.count_pos_iff.mp hPos
        exact (hIndexes.named other hOther).1 hEmpty
      have hCount : (table.matching (some "") conditional).length = 0 :=
        (TableReply.touched.inj hReply).trans hNone
      rw [MemTable.matching, accepts_empty, hIndexes.rows, List.length_eq_zero_iff,
        List.filter_eq_nil_iff] at hCount
      exact Bool.eq_false_iff.mpr (hCount row hRow)
  | find startIndex maximumRecordCount conditional => trivial
  | remove primaryKey conditional => trivial

/-- From a table and a map in step, the same replies and rows are given exactly by
ordinary calls. -/
theorem Indexes.trace_eq_iff {table : MemTable pk} {map : Table pk}
    (hIndexes : Indexes table map) (calls : List (TableCall pk)) :
    trace MemTable.call MemTable.rows table calls =
        trace (mapCall table.name) Table.rows map calls ↔
      KeyedCalls table.name map calls := by
  induction calls generalizing table map with
  | nil => exact ⟨fun _ => trivial, fun _ => rfl⟩
  | cons next calls ih =>
      simp only [trace, List.cons.injEq, Prod.mk.injEq, KeyedCalls]
      constructor
      · rintro ⟨⟨hReply, -⟩, hRest⟩
        have hKeyed := hIndexes.ordinary_of_reply hReply
        have hNext := (ih (hIndexes.call hKeyed).2).mp
        rw [MemTable.call_name] at hNext
        exact ⟨hKeyed, hNext hRest⟩
      · rintro ⟨hKeyed, hRest⟩
        obtain ⟨hReply, hStep⟩ := hIndexes.call hKeyed
        have hNext := (ih hStep).mpr
        rw [MemTable.call_name] at hNext
        exact ⟨⟨hReply, hStep.rows⟩, hNext hRest⟩

/-- Nothing is stored and nothing is indexed. -/
theorem indexes_empty (pk : ρ → PrimaryKeyType) (name : String) :
    Indexes ({ name := name } : MemTable pk) Table.empty := by
  constructor
  · rfl
  · intro key
    simp
  · intro row hRow
    exact absurd hRow (Table.not_mem_empty row)

/-- **The in-memory table is a keyed table** exactly for ordinary calls: no row is
created under a name that every object inherits, and no update under the empty key
finds a row. -/
theorem memTable_agrees_iff (pk : ρ → PrimaryKeyType) (name : String)
    (calls : List (TableCall pk)) :
    trace MemTable.call MemTable.rows { name := name } calls =
        trace (mapCall name) Table.rows Table.empty calls ↔
      KeyedCalls name Table.empty calls :=
  (indexes_empty pk name).trace_eq_iff calls

/-- A task whose key is the name of a function that every object inherits. -/
private def constructorTask : TaskModel where
  pk := "constructor"
  schedule := "job"
  state := .pending
  createdOn := 0
  executeAt := some 0
  executionJobId := none
  executionQueued := none
  executionStarted := none
  executionFinished := none
  nextTimeoutCheck := none
  retryIndex := 0
  completedInfo := none

/-- **An inherited name is refused.**  An empty table rejects the row as a duplicate. -/
theorem inherited_name_rejected :
    ¬ ∀ (name : String) (calls : List (TableCall fun row : TaskModel => row.pk)),
      trace MemTable.call MemTable.rows { name := name } calls =
        trace (mapCall name) Table.rows Table.empty calls := by
  intro hLaw
  have hTrace := hLaw "Task" [.create constructorTask (by decide)]
  have hReply := congrArg Prod.fst (List.cons.inj hTrace).1
  exact (indexes_empty _ "Task").ordinary_of_reply hReply (by decide)

end TernScheduler
