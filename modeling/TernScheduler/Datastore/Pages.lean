import TernScheduler.Datastore.Memory

/-!
# Paged queries

The queries of `DatabaseDataStore` that answer page by page, over the in-memory
tables.  A page key is the text of the index the page starts at.
-/

namespace TernScheduler

structure Page (ρ : Type) where
  nextPageKey : Option String
  estimatedCount : Option Nat
  pageSize : Nat
  page : List ρ
  deriving DecidableEq, Repr

/-- `Number(text)`, where `none` is `NaN`.  A text of decimal digits is read as the
language reads it; the store hands out no other page key but `NaN`, and any other text
counts as `NaN` here. -/
def number (text : String) : Option Nat :=
  if text.toList.all Char.isDigit then some (Nat.ofDigitChars 10 text.toList 0) else none

/-- `toString` of a number. -/
def numberText : Option Nat → String
  | none => "NaN"
  | some value => toString value

/-- `parsePageKey`.  Its test `=== NaN` is false of every number, so a `NaN` is
returned as it is. -/
def parsePageKey (pageKey : Option String) : Option Nat :=
  number ((orNull pageKey).getD "0")

/-- `pageResults`.  The result of `rows.slice(1)` is dropped, so the page holds all the
rows that were found. -/
def pageResults {ρ : Type} (rows : List ρ) (startIndex : Option Nat) (limit : Nat) :
    Page ρ :=
  if rows.length > limit then
    { nextPageKey := some (numberText (startIndex.map (· + limit)))
      estimatedCount := startIndex.map (· + rows.length)
      pageSize := limit
      page := rows }
  else
    { nextPageKey := none
      estimatedCount := startIndex.map (· + rows.length)
      pageSize := limit
      page := rows }

/-- A paged query: one row more than the limit is asked for.  `splice` takes a `NaN`
start for zero. -/
def pagedQuery {ρ : Type} {pk : ρ → PrimaryKeyType} (table : MemTable pk)
    (conditional : ρ → Bool) (pageKey : Option String) (limit : Nat) : Page ρ :=
  let startIndex := parsePageKey pageKey
  pageResults (table.find (startIndex.getD 0) (limit + 1) (some conditional)) startIndex limit

/-- `conditionalMatchesRecord` on a row of the schedule table. -/
def scheduledJobMatches (conditional : Conditional ScheduledJobColumn)
    (row : ScheduledJobDataModel) : Bool :=
  conditional.holds laterThan row.column

/-- `conditionalMatchesRecord` on a row of the task table. -/
def taskMatches (conditional : Conditional TaskColumn) (row : TaskModel) : Bool :=
  conditional.holds laterThan row.column

/-- `sjEquals(SJ_PASTURE, pasture)`. -/
def pastureEquals (pasture : Bool) : Conditional ScheduledJobColumn :=
  .eq .pasture (.bool pasture)

/-- `tkOneOf(TK_STATE, states)`. -/
def stateOneOf (states : List TaskStateType) : Conditional TaskColumn :=
  .oneOf .state (states.map fun state => .text state.text)

/-- The states `getFailedTasks` lists. -/
def failedStates : List TaskStateType := [.completeError, .failed, .failRestarted, .startError]

/-- The states `getFinishedTasks` lists. -/
def finishedStates : List TaskStateType :=
  [.completeError, .failed, .failRestarted, .startError, .completed]

namespace MemoryDatabase

def getActiveScheduledJobs (db : MemoryDatabase) (pageKey : Option String) (limit : Nat) :
    Page ScheduledJobDataModel :=
  pagedQuery db.scheduledJobTable (scheduledJobMatches (pastureEquals false)) pageKey limit

def getDisabledScheduledJobs (db : MemoryDatabase) (pageKey : Option String) (limit : Nat) :
    Page ScheduledJobDataModel :=
  pagedQuery db.scheduledJobTable (scheduledJobMatches (pastureEquals true)) pageKey limit

def getExecutingTasks (db : MemoryDatabase) (pageKey : Option String) (limit : Nat) :
    Page TaskModel :=
  pagedQuery db.taskTable (taskMatches (stateEquals .started)) pageKey limit

def getPendingTasks (db : MemoryDatabase) (pageKey : Option String) (limit : Nat) :
    Page TaskModel :=
  pagedQuery db.taskTable (taskMatches (stateEquals .pending)) pageKey limit

/-- `getFailedTasks`, which makes no use of `since`. -/
def getFailedTasks (db : MemoryDatabase) (pageKey : Option String) (limit : Nat) :
    Page TaskModel :=
  pagedQuery db.taskTable (taskMatches (stateOneOf failedStates)) pageKey limit

/-- `getCompletedTasks`, which makes no use of `since`. -/
def getCompletedTasks (db : MemoryDatabase) (pageKey : Option String) (limit : Nat) :
    Page TaskModel :=
  pagedQuery db.taskTable (taskMatches (stateEquals .completed)) pageKey limit

/-- `getFinishedTasks`, which makes no use of `since`. -/
def getFinishedTasks (db : MemoryDatabase) (pageKey : Option String) (limit : Nat) :
    Page TaskModel :=
  pagedQuery db.taskTable (taskMatches (stateOneOf finishedStates)) pageKey limit

end MemoryDatabase

/-- The paged queries on the schedule table. -/
inductive ScheduledJobQuery
  | getActiveScheduledJobs
  | getDisabledScheduledJobs

/-- The paged queries on the task table. -/
inductive TaskQuery
  | getExecutingTasks
  | getPendingTasks
  | getFailedTasks
  | getCompletedTasks
  | getFinishedTasks

/-- What a query asks of a row. -/
def ScheduledJobQuery.conditional : ScheduledJobQuery → Conditional ScheduledJobColumn
  | .getActiveScheduledJobs => pastureEquals false
  | .getDisabledScheduledJobs => pastureEquals true

/-- What a query asks of a row. -/
def TaskQuery.conditional : TaskQuery → Conditional TaskColumn
  | .getExecutingTasks => stateEquals .started
  | .getPendingTasks => stateEquals .pending
  | .getFailedTasks => stateOneOf failedStates
  | .getCompletedTasks => stateEquals .completed
  | .getFinishedTasks => stateOneOf finishedStates

/-- The page a query answers with. -/
def ScheduledJobQuery.page (query : ScheduledJobQuery) (db : MemoryDatabase) (limit : Nat)
    (pageKey : Option String) : Page ScheduledJobDataModel :=
  match query with
  | .getActiveScheduledJobs => db.getActiveScheduledJobs pageKey limit
  | .getDisabledScheduledJobs => db.getDisabledScheduledJobs pageKey limit

/-- The page a query answers with. -/
def TaskQuery.page (query : TaskQuery) (db : MemoryDatabase) (limit : Nat)
    (pageKey : Option String) : Page TaskModel :=
  match query with
  | .getExecutingTasks => db.getExecutingTasks pageKey limit
  | .getPendingTasks => db.getPendingTasks pageKey limit
  | .getFailedTasks => db.getFailedTasks pageKey limit
  | .getCompletedTasks => db.getCompletedTasks pageKey limit
  | .getFinishedTasks => db.getFinishedTasks pageKey limit

theorem ScheduledJobQuery.page_def (query : ScheduledJobQuery) (db : MemoryDatabase)
    (limit : Nat) (pageKey : Option String) : query.page db limit pageKey =
      pagedQuery db.scheduledJobTable (scheduledJobMatches query.conditional) pageKey limit := by
  cases query <;> rfl

theorem TaskQuery.page_def (query : TaskQuery) (db : MemoryDatabase) (limit : Nat)
    (pageKey : Option String) : query.page db limit pageKey =
      pagedQuery db.taskTable (taskMatches query.conditional) pageKey limit := by
  cases query <;> rfl

end TernScheduler
