import TernScheduler.Cron.Next
import TernScheduler.Number

/-!
# Cron expressions

`strategies/task-creation/cron/expression.ts`, and `cronToDefinition` of `cron/index.ts`.  A field
of the expression is not parsed but rewritten: the star to a range, and the ranges to numbers,
until there is none left; the numbers are then read off.

The rewriting need not end, as a number may be too great for `i++` to move it, so it takes a
number of steps; `none` says that the steps ran out.
-/

namespace TernScheduler

/-- The fields of an expression. -/
inductive CronField
  | seconds
  | minutes
  | hours
  | daysOfMonth
  | months
  | daysOfWeek
  deriving DecidableEq, Repr

/-- `ALLOWED_RANGES`. -/
def allowedRange : CronField → ℕ × ℕ
  | .seconds => (0, 59)
  | .minutes => (0, 59)
  | .hours => (0, 23)
  | .daysOfMonth => (1, 31)
  | .months => (1, 12)
  | .daysOfWeek => (0, 7)

/-- A range of numbers of the language. -/
def numberRange (range : ℕ × ℕ) : Number × Number := (.ofRat range.1, .ofRat range.2)

/-! ## Rewriting a field -/

/-- The text of a number in a template. -/
def templateText (number : Number) : List Char := number.toText.toList

/-- `replaceAsteriskWithRange`: only the first star is replaced. -/
def replaceAsteriskWithRange (expr : List Char) (range : Number × Number) : List Char :=
  match expr.dropWhile (· ≠ '*') with
  | [] => expr
  | _ :: after =>
      expr.takeWhile (· ≠ '*') ++ templateText range.1 ++ '-' :: templateText range.2 ++ after

/-- What `/(\d+)\-(\d+)/` finds in a text, with what stands before and after it. -/
structure RangeMatch where
  before : List Char
  first : List Char
  last : List Char
  after : List Char
  deriving DecidableEq, Repr

/-- The expression at one position: it is greedy, and fewer digits are no better, as a digit
is no dash. -/
def matchHere (text : List Char) : Option RangeMatch :=
  match text.dropWhile Char.isDigit with
  | '-' :: rest =>
      if text.takeWhile Char.isDigit ≠ [] ∧ rest.takeWhile Char.isDigit ≠ [] then
        some
          { before := []
            first := text.takeWhile Char.isDigit
            last := rest.takeWhile Char.isDigit
            after := rest.dropWhile Char.isDigit }
      else none
  | _ => none

/-- `matchExpr.exec`: the first position where there is a match. -/
def execMatch : List Char → Option RangeMatch
  | [] => none
  | c :: text =>
      match matchHere (c :: text) with
      | some found => some found
      | none => (execMatch text).map fun found => { found with before := c :: found.before }

/-- The loop that writes the numbers of a range, from `i` on. -/
def writeNumbers (last : Number) : ℕ → Number → List Char → Option (List Char)
  | 0, _, _ => none
  | fuel + 1, i, nx =>
      if i.le last then
        let nx := nx ++ templateText i
        let nx := if i.strictEq last then nx else nx ++ [',']
        writeNumbers last fuel (i.add (.ofRat 1)) nx
      else some nx

def convertRange : ℕ → List Char → Option (List Char)
  | 0, _ => none
  | fuel + 1, expr =>
      match execMatch expr with
      | none => some expr
      | some found =>
          let first := parseInt found.first
          let last := parseInt found.last
          let (first, last) := if last.lt first then (last, first) else (first, last)
          (writeNumbers last fuel first found.before).bind fun nx =>
            convertRange fuel (nx ++ found.after)

/-! ## Reading off the numbers -/

/-- `convertStep`: the parts between commas that are a multiple of the step.  The text is split
as a whole, so the step itself ends the last part. -/
def convertStep (expr : List Char) : List Number :=
  let step :=
    match expr.dropWhile (· ≠ '/') with
    | [] => Number.ofRat 1
    | _ :: after => parseInt after
  ((expr.splitOn ',').map fun part => (Number.ofRat 0).add (parseInt part)).filter fun v =>
    (v.remainder step).strictEq (.ofRat 0)

/-- `removeDuplicates`.  The comparison of the sort is that of the numbers, as none is NaN. -/
def removeDuplicates (vals : List Number) (range : Number × Number) : List Number :=
  let ret := vals.foldl
    (fun ret v =>
      if range.1.le v && v.le range.2 && !ret.any (·.strictEq v) then ret ++ [v] else ret) []
  ret.mergeSort Number.le

def convertToModel (fuel : ℕ) (expr : List Char) (range : Number × Number) :
    Option (List Number) :=
  (convertRange fuel (replaceAsteriskWithRange expr range)).map fun expr =>
    removeDuplicates (convertStep expr) range

def handleSundays (vals : List Number) : List Number :=
  removeDuplicates (vals.map fun v => if v.strictEq (.ofRat 7) then .ofRat 0 else v)
    (numberRange (0, 6))

/-! ## Expressions -/

/-- `split(/\s+/g)`: what stands between the stretches of white space. -/
def splitWhiteSpace : List Char → List (List Char)
  | [] => [[]]
  | c :: text =>
      if isWhiteSpace c then
        if (text.head?.map isWhiteSpace).getD false then splitWhiteSpace text
        else [] :: splitWhiteSpace text
      else (splitWhiteSpace text).modifyHead (c :: ·)

/-- `CronModel` of `cron/api.ts`. -/
structure CronModel where
  seconds : List Int
  minutes : List Int
  hours : List Int
  daysOfMonth : List Int
  months : List Int
  daysOfWeek : List Int
  deriving DecidableEq, Repr

/-- The integer a whole number is. -/
def Number.toInt : Number → ℤ
  | finite a => ⌊a.value⌋
  | _ => 0

/-- `convertToModel` on a part of an expression. -/
def convertField (fuel : ℕ) (field : CronField) (part : List Char) : Option (List Number) :=
  convertToModel fuel part (numberRange (allowedRange field))

/-- The parts of an expression, with the missing seconds inserted. -/
def cronParts (cronExpression : String) : List (List Char) :=
  let parts := splitWhiteSpace cronExpression.toList
  if parts.length = 5 then ['*'] :: parts else parts

/-- `cronToModel`, or the text of the error it throws.  All values of a field are whole. -/
def cronToModel (fuel : ℕ) (cronExpression : String) : Option (Except String CronModel) :=
  match cronParts cronExpression with
  | [seconds, minutes, hours, daysOfMonth, months, daysOfWeek] => do
      let seconds ← convertField fuel .seconds seconds
      let minutes ← convertField fuel .minutes minutes
      let hours ← convertField fuel .hours hours
      let daysOfMonth ← convertField fuel .daysOfMonth daysOfMonth
      let months ← convertField fuel .months months
      let daysOfWeek ← convertField fuel .daysOfWeek daysOfWeek
      some (.ok
        { seconds := seconds.map Number.toInt
          minutes := minutes.map Number.toInt
          hours := hours.map Number.toInt
          daysOfMonth := daysOfMonth.map Number.toInt
          months := months.map Number.toInt
          daysOfWeek := (handleSundays daysOfWeek).map Number.toInt })
  | _ =>
      some (.error ("Invalid argument: cron expression must contain 5 or 6 values; found \"" ++
        cronExpression ++ "\""))

def cronToDefinition (fuel : ℕ) (cronExpression : String) :
    Option (Except String ScheduleCronModel) :=
  (cronToModel fuel cronExpression).map fun result =>
    result.map fun model =>
      { seconds := model.seconds
        minutes := model.minutes
        hours := model.hours
        daysOfMonth := model.daysOfMonth
        months := model.months
        daysOfWeek := model.daysOfWeek
        cronExpression := cronExpression
        utcOffsetMinutes := 0
        startAfter := none
        endBy := none }

end TernScheduler
