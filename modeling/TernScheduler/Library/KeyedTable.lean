import Mathlib.Data.List.Nodup
import Mathlib.Tactic.Common

/-!
# Keyed tables

An insertion-ordered table of rows with distinct keys.  `create` rejects a key
that is present, `modify` rewrites the row of one key when a condition on the
row holds and reports how many rows it rewrote, `remove` removes it, and `select`
reads a window of the rows satisfying a condition.  The distinctness of the keys
is a field of the table, so no operation has to re-establish it for its callers.
-/

namespace KeyedTable

variable {κ ρ : Type}

/-- Rows in insertion order, no two with the same key. -/
structure Table (key : ρ → κ) where
  rows : List ρ
  nodup : (rows.map key).Nodup

namespace Table

variable {key : ρ → κ}

/-- The table without rows. -/
def empty : Table key := ⟨[], List.nodup_nil⟩

instance : Membership ρ (Table key) where
  mem table row := row ∈ table.rows

theorem mem_def {table : Table key} {row : ρ} : row ∈ table ↔ row ∈ table.rows :=
  Iff.rfl

@[simp] theorem not_mem_empty (row : ρ) : row ∉ (empty : Table key) :=
  List.not_mem_nil

theorem eq_of_key_eq {table : Table key} {row row' : ρ} (hRow : row ∈ table)
    (hRow' : row' ∈ table) (hKey : key row = key row') : row = row' :=
  List.inj_on_of_nodup_map table.nodup hRow hRow' hKey

/-- A window of the rows satisfying a condition, in table order. -/
def select (table : Table key) (start count : Nat) (condition : ρ → Bool) :
    List ρ :=
  ((table.rows.filter condition).drop start).take count

theorem mem_of_mem_select {table : Table key} {start count : Nat}
    {condition : ρ → Bool} {row : ρ}
    (h : row ∈ table.select start count condition) :
    row ∈ table ∧ condition row = true :=
  List.mem_filter.mp (List.mem_of_mem_drop (List.mem_of_mem_take h))

/-- A read from the start that may return a row returns none only when no row
of the table satisfies the condition. -/
theorem forall_not_of_select_eq_nil {table : Table key} {count : Nat}
    {condition : ρ → Bool} (hCount : 0 < count)
    (h : table.select 0 count condition = []) :
    ∀ row ∈ table, condition row = false := by
  have hFilter : table.rows.filter condition = [] := by
    rw [select, List.drop_zero, List.take_eq_nil_iff] at h
    exact h.resolve_left (by omega)
  intro row hRow
  exact Bool.eq_false_iff.mpr (List.filter_eq_nil_iff.mp hFilter row hRow)

/-- A read from the start that may return two rows returns one only when no other row
of the table satisfies the condition. -/
theorem eq_of_select_eq_singleton {table : Table key} {count : Nat}
    {condition : ρ → Bool} {row : ρ} (hCount : 1 < count)
    (h : table.select 0 count condition = [row]) :
    ∀ row' ∈ table, condition row' = true → row' = row := by
  intro row' hRow' hCondition
  have hMem : row' ∈ table.rows.filter condition := List.mem_filter.mpr ⟨hRow', hCondition⟩
  rw [select, List.drop_zero] at h
  have hLength : (table.rows.filter condition).length = 1 := by
    have hTaken := congrArg List.length h
    rw [List.length_take, List.length_singleton] at hTaken
    omega
  rw [List.take_of_length_le (by omega)] at h
  rw [h] at hMem
  exact List.mem_singleton.mp hMem

section

variable [DecidableEq κ]

/-- The row with the given key. -/
def get? (table : Table key) (k : κ) : Option ρ :=
  table.rows.find? fun row => key row = k

theorem get?_eq_some_iff {table : Table key} {k : κ} {row : ρ} :
    table.get? k = some row ↔ row ∈ table ∧ key row = k := by
  constructor
  · intro h
    exact ⟨List.mem_of_find?_eq_some h, by simpa using List.find?_some h⟩
  · rintro ⟨hMem, rfl⟩
    cases hGet : table.get? (key row) with
    | none =>
        have hAbsent := List.find?_eq_none.mp hGet row hMem
        simp at hAbsent
    | some row' =>
        have hMem' : row' ∈ table := List.mem_of_find?_eq_some hGet
        have hKey : key row' = key row := by simpa using List.find?_some hGet
        rw [eq_of_key_eq hMem' hMem hKey]

theorem get?_eq_none_iff {table : Table key} {k : κ} :
    table.get? k = none ↔ ∀ row ∈ table, key row ≠ k := by
  simp only [get?, List.find?_eq_none, decide_eq_true_eq]
  exact Iff.rfl

/-- Reading by key returns the row with that key, if there is one. -/
theorem select_key (table : Table key) (k : κ) :
    table.select 0 1 (fun row => key row = k) = (table.get? k).toList := by
  rw [select, List.drop_zero, get?]
  induction table.rows with
  | nil => rfl
  | cons row rows ih =>
      by_cases hKey : key row = k
      · simp [hKey]
      · simpa [hKey] using ih

/-- Add a row at the end, unless its key is present. -/
def create (table : Table key) (row : ρ) : Option (Table key) :=
  if h : key row ∈ table.rows.map key then none
  else some
    { rows := table.rows ++ [row]
      nodup := by
        rw [List.map_append, List.map_cons, List.map_nil]
        exact List.nodup_append.mpr
          ⟨table.nodup, List.nodup_singleton _, by
            intro k hk k' hk'
            rw [List.mem_singleton] at hk'
            rintro rfl
            exact h (hk' ▸ hk)⟩ }

theorem create_eq_none_iff {table : Table key} {row : ρ} :
    table.create row = none ↔ ∃ row' ∈ table, key row' = key row := by
  unfold create
  split
  · rename_i h
    simp only [true_iff]
    exact List.mem_map.mp h
  · rename_i h
    simp only [reduceCtorEq, false_iff]
    exact fun ⟨row', hMem, hKey⟩ => h (List.mem_map.mpr ⟨row', hMem, hKey⟩)

/-- A successful creation adds exactly the row, under a key that was absent. -/
theorem create_eq_some {table table' : Table key} {row : ρ}
    (h : table.create row = some table') :
    table'.rows = table.rows ++ [row] ∧ ∀ row' ∈ table, key row' ≠ key row := by
  unfold create at h
  split at h
  · exact absurd h (by simp)
  · rename_i hAbsent
    simp only [Option.some.injEq] at h
    subst h
    exact ⟨rfl, fun row' hMem hKey => hAbsent (List.mem_map.mpr ⟨row', hMem, hKey⟩)⟩

theorem mem_create {table table' : Table key} {row row' : ρ}
    (h : table.create row = some table') :
    row' ∈ table' ↔ row' ∈ table ∨ row' = row := by
  rw [mem_def, (create_eq_some h).1, List.mem_append, List.mem_singleton]
  exact Iff.rfl

/-- Rewrite the row of one key when a condition holds of it; the rewriting
keeps the key.  The count is the number of rows rewritten. -/
def modify (table : Table key) (k : κ) (condition : ρ → Bool) (f : ρ → ρ)
    (hKey : ∀ row, key (f row) = key row) : Table key × Nat :=
  ({ rows := table.rows.map fun row =>
       if key row = k ∧ condition row then f row else row
     nodup := by
       rw [List.map_map]
       have hSame : (key ∘ fun row =>
           if key row = k ∧ condition row then f row else row) = key := by
         funext row
         simp only [Function.comp_apply]
         split
         · exact hKey row
         · rfl
       rw [hSame]
       exact table.nodup },
   (table.rows.filter fun row => key row = k ∧ condition row).length)

variable {k : κ} {condition : ρ → Bool} {f : ρ → ρ}
  {hKey : ∀ row, key (f row) = key row}

theorem mem_modify {table : Table key} {row' : ρ} :
    row' ∈ (table.modify k condition f hKey).1 ↔
      ∃ row ∈ table,
        (if key row = k ∧ condition row then f row else row) = row' :=
  List.mem_map

/-- No row rewritten: the table is as it was. -/
theorem modify_eq_of_count_eq_zero {table : Table key}
    (h : (table.modify k condition f hKey).2 = 0) :
    (table.modify k condition f hKey).1 = table := by
  have hFilter := List.filter_eq_nil_iff.mp (List.eq_nil_of_length_eq_zero h)
  have hRows : (table.modify k condition f hKey).1.rows = table.rows := by
    refine (List.map_congr_left fun row hRow => ?_).trans (List.map_id _)
    have := hFilter row hRow
    simp only [decide_eq_true_eq] at this
    rw [if_neg this, id]
  cases hModified : (table.modify k condition f hKey).1 with
  | mk rows nodup =>
      cases table
      rw [hModified] at hRows
      cases hRows
      rfl

theorem exists_of_count_pos {table : Table key}
    (h : 0 < (table.modify k condition f hKey).2) :
    ∃ row ∈ table, key row = k ∧ condition row = true := by
  obtain ⟨row, hRow⟩ := List.exists_mem_of_length_pos h
  have := List.mem_filter.mp hRow
  exact ⟨row, this.1, by simpa using this.2⟩

/-- The count is positive exactly when the row of the key satisfied the
condition. -/
theorem count_pos_iff {table : Table key} :
    0 < (table.modify k condition f hKey).2 ↔
      ∃ row ∈ table, key row = k ∧ condition row = true := by
  refine ⟨exists_of_count_pos, fun ⟨row, hRow, hCondition⟩ => ?_⟩
  exact List.length_pos_of_mem (List.mem_filter.mpr ⟨hRow, by simpa using hCondition⟩)

/-- Reading a key after a rewriting. -/
theorem get?_modify (table : Table key) (k' : κ) :
    (table.modify k condition f hKey).1.get? k' =
      if k' = k then
        (table.get? k').map fun row => if condition row then f row else row
      else table.get? k' := by
  -- the update changes no key, so the row is found where it was
  have hMap : (table.modify k condition f hKey).1.get? k' =
      (table.get? k').map fun row =>
        if key row = k ∧ condition row then f row else row := by
    unfold get? modify
    simp only [List.find?_map]
    congr 1
    refine congrArg (fun p => table.rows.find? p) (funext fun row => ?_)
    simp only [Function.comp_apply]
    split
    · rw [hKey]
    · rfl
  rw [hMap]
  by_cases hk : k' = k
  · rw [if_pos hk]
    cases hGet : table.get? k' with
    | none => rfl
    | some row =>
        have hRow : key row = k := (get?_eq_some_iff.mp hGet).2.trans hk
        simp [hRow]
  · rw [if_neg hk]
    cases hGet : table.get? k' with
    | none => rfl
    | some row =>
        have hRow : key row ≠ k := fun h => hk ((get?_eq_some_iff.mp hGet).2.symm.trans h)
        simp [hRow]

/-- **Spec of a rewriting.**  Either no row is rewritten and the table is as it
was, or the row of the key satisfied the condition and was rewritten. -/
theorem modify_cases (table : Table key) (k : κ) (condition : ρ → Bool) (f : ρ → ρ)
    (hKey : ∀ row, key (f row) = key row) :
    ((table.modify k condition f hKey).2 = 0 ∧
        (table.modify k condition f hKey).1 = table) ∨
      ∃ count row,
        (table.modify k condition f hKey).2 = count + 1 ∧ table.get? k = some row ∧
          condition row = true ∧
          ∀ other, (table.modify k condition f hKey).1.get? other =
            if other = k then some (f row) else table.get? other := by
  rcases Nat.eq_zero_or_pos (table.modify k condition f hKey).2 with hZero | hPos
  · exact Or.inl ⟨hZero, modify_eq_of_count_eq_zero hZero⟩
  · obtain ⟨row, hMem, hRowKey, hHolds⟩ := exists_of_count_pos hPos
    have hRow : table.get? k = some row := get?_eq_some_iff.mpr ⟨hMem, hRowKey⟩
    refine Or.inr ⟨(table.modify k condition f hKey).2 - 1, row, by omega, hRow, hHolds,
      fun other => ?_⟩
    rw [get?_modify]
    by_cases hOther : other = k
    · subst hOther
      simp [hRow, hHolds]
    · simp [hOther]

/-- Reading a key after a creation. -/
theorem get?_create {table table' : Table key} {row : ρ}
    (h : table.create row = some table') (k' : κ) :
    table'.get? k' = if k' = key row then some row else table.get? k' := by
  obtain ⟨hRows, hAbsent⟩ := create_eq_some h
  unfold get?
  rw [hRows, List.find?_append]
  by_cases hk : k' = key row
  · have hNone : table.rows.find? (fun r => key r = k') = none := by
      rw [List.find?_eq_none]
      intro row' hRow'
      simpa [hk] using hAbsent row' hRow'
    rw [if_pos hk, hNone]
    simp [hk]
  · simp [hk, Ne.symm hk]

/-- At most one row has a given key. -/
theorem length_filter_key_le_one (table : Table key) (k : κ) (condition : ρ → Bool) :
    (table.rows.filter fun row => key row = k ∧ condition row).length ≤ 1 := by
  have hKeys : ∀ k' ∈ (table.rows.filter fun row => key row = k ∧ condition row).map key,
      k' = k := by
    intro k' hk'
    obtain ⟨row, hRow, rfl⟩ := List.mem_map.mp hk'
    have := List.mem_filter.mp hRow
    simp only [decide_eq_true_eq] at this
    exact this.2.1
  have hNodup : ((table.rows.filter fun row => key row = k ∧ condition row).map key).Nodup :=
    (List.filter_sublist.map key).nodup table.nodup
  rw [List.eq_replicate_of_mem hKeys, List.nodup_replicate, List.length_map] at hNodup
  exact hNodup

/-- Remove the row of one key when a condition holds of it.  The count is the number
of rows removed. -/
def remove (table : Table key) (k : κ) (condition : ρ → Bool) : Table key × Nat :=
  ({ rows := table.rows.filter fun row => ¬ (key row = k ∧ condition row)
     nodup := (List.filter_sublist.map key).nodup table.nodup },
   (table.rows.filter fun row => key row = k ∧ condition row).length)

theorem mem_remove {table : Table key} {row : ρ} :
    row ∈ (table.remove k condition).1 ↔ row ∈ table ∧ ¬ (key row = k ∧ condition row = true) := by
  rw [mem_def, remove, List.mem_filter, decide_eq_true_eq]
  exact Iff.rfl

/-- A removal removes the row of the key when the condition holds of it. -/
theorem remove_count (table : Table key) (k : κ) (condition : ρ → Bool) :
    (table.remove k condition).2 =
      if ∃ row ∈ table, key row = k ∧ condition row = true then 1 else 0 := by
  have hLe : (table.remove k condition).2 ≤ 1 := length_filter_key_le_one table k condition
  have hPos : 0 < (table.remove k condition).2 ↔
      ∃ row ∈ table, key row = k ∧ condition row = true := by
    simp [remove, List.length_pos_iff_exists_mem, mem_def]
  split
  · rename_i hFound
    have := hPos.mpr hFound
    omega
  · rename_i hNone
    have := mt hPos.mp hNone
    omega

end

end Table

end KeyedTable
