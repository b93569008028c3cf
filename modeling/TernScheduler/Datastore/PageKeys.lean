import TernScheduler.Datastore.Pages
import TernScheduler.Number

/-!
# Paged queries from any page key

The paged queries over the in-memory tables once more, with the numbers of the language for the
index, the limit and the estimated count: a page key is any text, which may be read as NaN, an
infinity, or a number that is negative or not whole.
-/

namespace TernScheduler

namespace AnyKey

structure Page (ρ : Type) where
  nextPageKey : Option String
  estimatedCount : Number
  pageSize : Number
  page : List ρ

/-- `parsePageKey`.  Its test `=== NaN` is false of every number. -/
def parsePageKey (pageKey : Option String) : Number :=
  let startIndexMaybe := stringToNumber ((orNull pageKey).getD "0")
  if startIndexMaybe.strictEq .nan then .ofRat 0 else startIndexMaybe

/-- `pageResults`.  The result of `rows.slice(1)` is dropped. -/
def pageResults {ρ : Type} (rows : List ρ) (startIndex limit : Number) : Page ρ :=
  if limit.lt (.ofRat rows.length) then
    { nextPageKey := some (startIndex.add limit).toText
      estimatedCount := startIndex.add (.ofRat rows.length)
      pageSize := limit
      page := rows }
  else
    { nextPageKey := none
      estimatedCount := startIndex.add (.ofRat rows.length)
      pageSize := limit
      page := rows }

/-- How many elements `splice(0, deleteCount)` takes out of an array. -/
def spliceCount (deleteCount : Number) (length : ℕ) : ℕ :=
  match deleteCount with
  | .nan => 0
  | .infinity negative => if negative then 0 else length
  | .finite a => min (Number.truncate a.value).toNat length

/-- Where `splice(start)` starts in an array, that is, how many elements it leaves. -/
def spliceStart (start : Number) (length : ℕ) : ℕ :=
  match start with
  | .nan => 0
  | .infinity negative => if negative then 0 else length
  | .finite a =>
      if Number.truncate a.value < 0 then (length + Number.truncate a.value).toNat
      else min (Number.truncate a.value).toNat length

/-- `find`: the two `splice` calls. -/
def find {ρ : Type} {pk : ρ → PrimaryKeyType} (table : MemTable pk)
    (startIndex maximumRecordCount : Number) (conditional : Option (ρ → Bool)) : List ρ :=
  let allMatches := table.matching none conditional
  let allMatches := allMatches.drop (spliceCount startIndex allMatches.length)
  allMatches.take (spliceStart maximumRecordCount allMatches.length)

/-- A paged query: one row more than the limit is asked for. -/
def pagedQuery {ρ : Type} {pk : ρ → PrimaryKeyType} (table : MemTable pk)
    (conditional : ρ → Bool) (pageKey : Option String) (limit : Number) : Page ρ :=
  let startIndex := parsePageKey pageKey
  pageResults (find table startIndex (limit.add (.ofRat 1)) (some conditional)) startIndex limit

/-- The page that `getActiveScheduledJobs` or `getDisabledScheduledJobs` answers with. -/
def scheduledJobPage (query : ScheduledJobQuery) (db : MemoryDatabase) (limit : Number)
    (pageKey : Option String) : Page ScheduledJobDataModel :=
  pagedQuery db.scheduledJobTable (scheduledJobMatches query.conditional) pageKey limit

/-- The page that one of the paged queries on tasks answers with. -/
def taskPage (query : TaskQuery) (db : MemoryDatabase) (limit : Number)
    (pageKey : Option String) : Page TaskModel :=
  pagedQuery db.taskTable (taskMatches query.conditional) pageKey limit

end AnyKey

end TernScheduler
