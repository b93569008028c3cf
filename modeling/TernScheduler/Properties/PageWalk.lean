import TernScheduler.Datastore.Pages

/-!
# Walking the pages of a query

A client reads a query to its end: it asks for the first page, then for the page of
the key it was given, until it is given none.

* `Walk` is such a reading over a store that does not change.
* `walk_exists` shows that it ends, and `walk_is_partition_iff` when the pages are
  what they should be: the matching rows, cut into pieces of at most the limit.
-/

namespace TernScheduler

variable {ρ : Type} {pk : ρ → PrimaryKeyType}

/-- The pages a client is given from a page key on. -/
inductive Walk (query : Option String → Page ρ) : Option String → List (Page ρ) → Prop
  | last (pageKey : Option String) (hLast : (query pageKey).nextPageKey = none) :
      Walk query pageKey [query pageKey]
  | next (pageKey : Option String) (key : String) (pages : List (Page ρ))
      (hNext : (query pageKey).nextPageKey = some key)
      (hRest : Walk query (some key) pages) : Walk query pageKey (query pageKey :: pages)

/-- The pages hold the rows in order, each once, and no page more than the limit. -/
structure Partition (limit : Nat) (pages : List (Page ρ)) (rows : List ρ) : Prop where
  rows : pages.flatMap (·.page) = rows
  bounded : ∀ page ∈ pages, page.page.length ≤ limit

/-! ## Page keys -/

theorem number_toString (value : Nat) : number (toString value) = some value := by
  have hDigits : (toString value).toList = Nat.toDigits 10 value := Nat.toList_repr
  have hAll : (Nat.toDigits 10 value).all Char.isDigit = true :=
    List.all_eq_true.mpr fun _ hDigit =>
      Nat.isDigit_of_mem_toDigits (by decide) (by decide) hDigit
  rw [number, hDigits, if_pos hAll, Nat.ofDigitChars_ten_toDigits]

theorem toString_ne_empty (value : Nat) : toString value ≠ "" := by
  intro hEmpty
  have hDigits : (toString value).toList = Nat.toDigits 10 value := Nat.toList_repr
  rw [hEmpty] at hDigits
  exact Nat.toDigits_ne_nil hDigits.symm

@[simp] theorem parsePageKey_none : parsePageKey none = some 0 := by
  show number "0" = some 0
  exact number_toString 0

@[simp] theorem parsePageKey_some (value : Nat) :
    parsePageKey (some (toString value)) = some value := by
  rw [parsePageKey, orNull, Option.filter_some,
    if_pos (decide_eq_true (toString_ne_empty value)), Option.getD_some, number_toString]

/-! ## Pages -/

section Query

variable {table : MemTable pk} {matching : ρ → Bool} {limit start : Nat}
  {pageKey : Option String}

/-- A page is made of the limit and one more of the matching rows, if there are so
many. -/
theorem pagedQuery_eq (hKey : parsePageKey pageKey = some start) :
    pagedQuery table matching pageKey limit =
      pageResults (((table.rows.filter matching).drop start).take (limit + 1)) (some start)
        limit := by
  simp only [pagedQuery, hKey, Option.getD_some, MemTable.find, MemTable.matching_none]

theorem page_pageResults (rows : List ρ) (startIndex : Option Nat) (limit : Nat) :
    (pageResults rows startIndex limit).page = rows := by
  unfold pageResults
  split <;> rfl

/-- There is a next page while more than the limit of the matching rows are left. -/
theorem nextPageKey_pagedQuery (table : MemTable pk) (matching : ρ → Bool) (limit : Nat)
    (hKey : parsePageKey pageKey = some start) :
    (pagedQuery table matching pageKey limit).nextPageKey =
      if start + limit < (table.rows.filter matching).length then
        some (toString (start + limit))
      else none := by
  rw [pagedQuery_eq hKey, pageResults, List.length_take, List.length_drop]
  by_cases hMore : start + limit < (table.rows.filter matching).length
  · rw [if_pos (by omega), if_pos hMore]
    rfl
  · rw [if_neg (by omega), if_neg hMore]

/-- **Every walk ends.**  Each page moves the start by the limit. -/
theorem walk_exists (hLimit : 1 ≤ limit) (hKey : parsePageKey pageKey = some start) :
    ∃ pages, Walk (fun pageKey => pagedQuery table matching pageKey limit) pageKey pages := by
  -- The rows that are left from the start on decrease.
  induction hLeft : (table.rows.filter matching).length - start using Nat.strongRecOn
    generalizing start pageKey with
  | ind left ih =>
      have hNext := nextPageKey_pagedQuery table matching limit hKey
      split at hNext
      · rename_i hMore
        obtain ⟨pages, hRest⟩ := ih ((table.rows.filter matching).length - (start + limit))
          (by omega) (parsePageKey_some (start + limit)) rfl
        exact ⟨_, .next pageKey _ pages hNext hRest⟩
      · exact ⟨_, .last pageKey hNext⟩

/-- The pages of a walk from the start are a partition exactly when the first page holds
all there is. -/
theorem partition_iff {pages : List (Page ρ)}
    (hWalk : Walk (fun pageKey => pagedQuery table matching pageKey limit) none pages) :
    Partition limit pages (table.rows.filter matching) ↔
      (table.rows.filter matching).length ≤ limit := by
  have hFirst : (pagedQuery table matching none limit).page =
      (table.rows.filter matching).take (limit + 1) := by
    rw [pagedQuery_eq parsePageKey_none, page_pageResults, List.drop_zero]
  have hNext := nextPageKey_pagedQuery table matching limit parsePageKey_none
  constructor
  · intro hPartition
    have hBound : (pagedQuery table matching none limit).page.length ≤ limit := by
      cases hWalk with
      | last _ hLast => exact hPartition.bounded _ (List.mem_singleton_self _)
      | next _ key rest hKey hRest => exact hPartition.bounded _ List.mem_cons_self
    rw [hFirst, List.length_take] at hBound
    omega
  · intro hFew
    rw [if_neg (by omega)] at hNext
    have hAll : (pagedQuery table matching none limit).page = table.rows.filter matching := by
      rw [hFirst, List.take_of_length_le (by omega)]
    cases hWalk with
    | last _ hLast =>
        constructor
        · simp [hAll]
        · simpa [hAll] using hFew
    | next _ key rest hKey hRest =>
        rw [hNext] at hKey
        cases hKey

/-- The pages of a query, walked from the start. -/
structure WalksAsPartition (query : Option String → Page ρ) (limit : Nat) (rows : List ρ) :
    Prop where
  ends : ∃ pages, Walk query none pages
  partition : ∀ pages, Walk query none pages → Partition limit pages rows

theorem walksAsPartition_iff (hLimit : 1 ≤ limit) :
    WalksAsPartition (fun pageKey => pagedQuery table matching pageKey limit) limit
        (table.rows.filter matching) ↔
      (table.rows.filter matching).length ≤ limit := by
  constructor
  · rintro ⟨⟨pages, hWalk⟩, hPartition⟩
    exact (partition_iff hWalk).mp (hPartition pages hWalk)
  · intro hFew
    exact ⟨walk_exists hLimit parsePageKey_none, fun pages hWalk => (partition_iff hWalk).mpr hFew⟩

end Query

/-! ## The queries of the data store -/

/-- The rows a query is about. -/
def ScheduledJobQuery.wants (query : ScheduledJobQuery) (row : ScheduledJobDataModel) : Bool :=
  match query with
  | .getActiveScheduledJobs => !row.pasture
  | .getDisabledScheduledJobs => row.pasture

/-- The rows a query is about. -/
def TaskQuery.wants (query : TaskQuery) (row : TaskModel) : Bool :=
  match query with
  | .getExecutingTasks => row.state = .started
  | .getPendingTasks => row.state = .pending
  | .getFailedTasks => row.state ∈ failedStates
  | .getCompletedTasks => row.state = .completed
  | .getFinishedTasks => row.state ∈ finishedStates

theorem scheduledJobMatches_pasture (pasture : Bool) :
    scheduledJobMatches (pastureEquals pasture) = fun row => row.pasture == pasture := by
  funext row
  simp [scheduledJobMatches, pastureEquals, Conditional.holds, ScheduledJobDataModel.column,
    beq_eq_decide]

theorem taskMatches_state (state : TaskStateType) :
    taskMatches (stateEquals state) = fun row => decide (row.state = state) := by
  funext row
  rw [Bool.eq_iff_iff, taskMatches, holds_stateEquals, decide_eq_true_iff]

theorem taskMatches_states (states : List TaskStateType) :
    taskMatches (stateOneOf states) = fun row => decide (row.state ∈ states) := by
  funext row
  simp [taskMatches, stateOneOf, Conditional.holds, TaskModel.column,
    TaskStateType.text_injective.eq_iff]

/-- A query asks for the rows it is about. -/
theorem ScheduledJobQuery.matches_conditional (query : ScheduledJobQuery) :
    scheduledJobMatches query.conditional = query.wants := by
  cases query with
  | getActiveScheduledJobs =>
      refine (scheduledJobMatches_pasture false).trans (funext fun row => ?_)
      simp [wants]
  | getDisabledScheduledJobs =>
      refine (scheduledJobMatches_pasture true).trans (funext fun row => ?_)
      simp [wants]

theorem TaskQuery.matches_conditional (query : TaskQuery) :
    taskMatches query.conditional = query.wants := by
  cases query with
  | getExecutingTasks => exact taskMatches_state .started
  | getPendingTasks => exact taskMatches_state .pending
  | getFailedTasks => exact taskMatches_states failedStates
  | getCompletedTasks => exact taskMatches_state .completed
  | getFinishedTasks => exact taskMatches_states finishedStates

theorem ScheduledJobQuery.page_eq (query : ScheduledJobQuery) (db : MemoryDatabase)
    (limit : Nat) : query.page db limit =
      fun pageKey => pagedQuery db.scheduledJobTable query.wants pageKey limit := by
  funext pageKey
  rw [query.page_def, query.matches_conditional]

theorem TaskQuery.page_eq (query : TaskQuery) (db : MemoryDatabase) (limit : Nat) :
    query.page db limit =
      fun pageKey => pagedQuery db.taskTable query.wants pageKey limit := by
  funext pageKey
  rw [query.page_def, query.matches_conditional]

/-- **Walking pages is a partition** exactly when one page holds all the rows that the
query is about. -/
theorem walk_is_partition_iff (db : MemoryDatabase) {limit : Nat} (hLimit : 1 ≤ limit) :
    (∀ query : ScheduledJobQuery,
      WalksAsPartition (query.page db limit) limit
          (db.scheduledJobTable.rows.filter query.wants) ↔
        (db.scheduledJobTable.rows.filter query.wants).length ≤ limit) ∧
      ∀ query : TaskQuery,
        WalksAsPartition (query.page db limit) limit (db.taskTable.rows.filter query.wants) ↔
          (db.taskTable.rows.filter query.wants).length ≤ limit := by
  constructor
  · intro query
    rw [query.page_eq]
    exact walksAsPartition_iff hLimit
  · intro query
    rw [query.page_eq]
    exact walksAsPartition_iff hLimit

/-- A pending task. -/
private def waitingTask (pk : PrimaryKeyType) : TaskModel where
  pk := pk
  schedule := "job"
  state := .pending
  createdOn := 0
  executeAt := some 0
  executionJobId := none
  executionQueued := none
  executionStarted := none
  executionFinished := none
  nextTimeoutCheck := none
  retryIndex := 0
  completedInfo := none

/-- A store of the given tasks, all pending. -/
private def pendingStore (pks : List PrimaryKeyType) : MemoryDatabase where
  taskTable := { name := "ScheduledJob", rows := pks.map waitingTask, pks := pks }

/-- Two pending tasks are walked in one page of two. -/
theorem sample_walk :
    WalksAsPartition (TaskQuery.getPendingTasks.page (pendingStore ["first", "second"]) 2) 2
      ((pendingStore ["first", "second"]).taskTable.rows.filter
        TaskQuery.getPendingTasks.wants) := by
  have hIff := (walk_is_partition_iff (pendingStore ["first", "second"])
    (by decide : 1 ≤ 2)).2 .getPendingTasks
  exact hIff.mpr (by decide)

/-- **A page can hold too much.**  Two pending tasks asked for one at a time both come
in the first page. -/
theorem page_over_limit :
    ¬ ∀ (db : MemoryDatabase) (limit : Nat), 1 ≤ limit → ∀ query : TaskQuery,
      WalksAsPartition (query.page db limit) limit
        (db.taskTable.rows.filter query.wants) := by
  intro hLaw
  have hPartition := hLaw (pendingStore ["first", "second"]) 1 (by decide) .getPendingTasks
  rw [TaskQuery.page_eq, walksAsPartition_iff (by decide)] at hPartition
  revert hPartition
  decide

end TernScheduler
