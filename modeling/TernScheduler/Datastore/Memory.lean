import TernScheduler.Datastore.Database

/-!
# The in-memory tables

`MemTable` and `MemoryDatabase` of `datastore/memory.ts`: the list of rows, and the
plain object that indexes their keys.  A condition is given by the rows it accepts.
-/

namespace TernScheduler

/-- The reading of `before-date` in `conditionalMatchesRecord`: `cnd.before < val`. -/
def laterThan : BeforeDateReading := fun before value => before < value

/-- `Partial<T>` with its `pk` ignored, by what it does to a row. -/
structure NewValues {ρ : Type} (pk : ρ → PrimaryKeyType) where
  apply : ρ → ρ
  apply_pk : ∀ row, pk (apply row) = pk row

/-- `MemTable`: its rows, and the keys of the object `pks`. -/
structure MemTable {ρ : Type} (pk : ρ → PrimaryKeyType) where
  name : String
  rows : List ρ := []
  pks : List PrimaryKeyType := []

namespace MemTable

variable {ρ : Type} {pk : ρ → PrimaryKeyType}

/-- `!!(this.pks[pk])`. -/
def hasPk (table : MemTable pk) (primaryKey : PrimaryKeyType) : Bool :=
  primaryKey ∈ table.pks || primaryKey ∈ inheritedNames

/-- The test of `_matches`.  The empty key is as good as none. -/
def accepts (pk : ρ → PrimaryKeyType) (primaryKey : Option PrimaryKeyType)
    (conditional : Option (ρ → Bool)) (row : ρ) : Bool :=
  (match orNull primaryKey with
    | none => true
    | some key => pk row = key) &&
  match conditional with
    | none => true
    | some holds => holds row

/-- `_matches`. -/
def matching (table : MemTable pk) (primaryKey : Option PrimaryKeyType)
    (conditional : Option (ρ → Bool)) : List ρ :=
  table.rows.filter (accepts pk primaryKey conditional)

/-- Without a key the condition decides. -/
theorem matching_none (table : MemTable pk) (conditional : ρ → Bool) :
    table.matching none (some conditional) = table.rows.filter conditional := by
  have hAccepts : accepts pk none (some conditional) = conditional := by
    funext row
    simp [accepts, orNull]
  rw [matching, hAccepts]

def conditionalUpdate (table : MemTable pk) (primaryKey : PrimaryKeyType)
    (newValues : NewValues pk) (conditional : Option (ρ → Bool)) : Nat × MemTable pk :=
  ((table.matching (some primaryKey) conditional).length,
    { table with
      rows := table.rows.map fun row =>
        if accepts pk (some primaryKey) conditional row then newValues.apply row else row })

/-- `_add`: the table with the row, unless its key is empty or taken. -/
def add (table : MemTable pk) (row : ρ) : Option (MemTable pk) :=
  if pk row = "" ∨ table.hasPk (pk row) then none
  else some { table with pks := pk row :: table.pks, rows := table.rows ++ [row] }

def create (table : MemTable pk) (row : ρ) : Except JsError Unit × MemTable pk :=
  match table.add row with
  | none => (.error (.duplicatePrimaryKey table.name (pk row)), table)
  | some added => (.ok (), added)

/-- `find`: the two `splice` calls. -/
def find (table : MemTable pk) (startIndex maximumRecordCount : Nat)
    (conditional : Option (ρ → Bool)) : List ρ :=
  ((table.matching none conditional).drop startIndex).take maximumRecordCount

/-- The loop of `_remove`: the rows without the first one of the key, if there is one
and the condition holds of it. -/
def removeFirst (pk : ρ → PrimaryKeyType) (primaryKey : PrimaryKeyType)
    (conditional : Option (ρ → Bool)) : List ρ → Option (List ρ)
  | [] => none
  | row :: rows =>
      if pk row = primaryKey then
        match conditional with
        | none => some rows
        | some holds => if holds row then some rows else none
      else (removeFirst pk primaryKey conditional rows).map (row :: ·)

def remove (table : MemTable pk) (primaryKey : PrimaryKeyType)
    (conditional : Option (ρ → Bool)) : Nat × MemTable pk :=
  match removeFirst pk primaryKey conditional table.rows with
  | none => (0, table)
  | some rows =>
      (1, { table with rows := rows, pks := table.pks.filter (· ≠ primaryKey) })

end MemTable

structure MemoryDatabase where
  scheduledJobTable : MemTable fun row : ScheduledJobDataModel => row.pk :=
    { name := "ScheduledJob" }
  taskTable : MemTable fun row : TaskModel => row.pk := { name := "ScheduledJob" }

end TernScheduler
