import TernScheduler.Cron.FieldValues
import TernScheduler.Cron.Forward
import TernScheduler.TaskCreation

/-!
# The definition of a cron schedule

A cron text becomes a definition, the definition a JSON text of the schedule, and the strategy
reads that text and checks it with `isScheduleCronModel` of `cron/api.ts`.

* `inOrder_of_cronToDefinition`: the lists of a definition are in order and in range, but any of
  them may be empty.
* `isScheduleCronModel_toJson`: the check passes on every definition, as it does not look into the
  lists.
-/

namespace TernScheduler

open Number (whole)
open Periodic

/-! ## JSON -/

/-- A value of JSON.  Its numbers are integers, as those of a definition are. -/
inductive Json
  | null
  | boolean (value : Bool)
  | number (value : Int)
  | string (value : String)
  | array (items : List Json)
  | object (members : List (String × Json))

namespace Json

/-- `!!v`; `none` is `undefined`. -/
def isTruthy : Option Json → Bool
  | none | some null => false
  | some (boolean value) => value
  | some (number value) => value ≠ 0
  | some (string value) => value ≠ ""
  | some (array _) | some (object _) => true

/-- A property of a value.  An array has none of those that are asked for. -/
def get (name : String) : Json → Option Json
  | object members => members.lookup name
  | _ => none

/-- `v === null`. -/
def isNull : Option Json → Bool
  | some null => true
  | _ => false

/-- `isObject` of `util`, which an array is as well. -/
def isObject : Option Json → Bool
  | some (array _) | some (object _) => true
  | _ => false

/-- `isArray` of `util`. -/
def isArray : Option Json → Bool
  | some (array _) => true
  | _ => false

/-- `isNumber` of `util`. -/
def isNumber : Option Json → Bool
  | some (number _) => true
  | _ => false

/-- `isString` of `util`. -/
def isString : Option Json → Bool
  | some (string _) => true
  | _ => false

end Json

/-- `isTimeStruct` of `time-util/encoding.ts`. -/
def isTimeStruct (v : Option Json) : Bool :=
  Json.isTruthy v && Json.isObject v &&
    Json.isNumber (v.bind (Json.get "millis")) &&
    Json.isNumber (v.bind (Json.get "seconds")) &&
    Json.isNumber (v.bind (Json.get "minutes")) &&
    Json.isNumber (v.bind (Json.get "hours")) &&
    Json.isNumber (v.bind (Json.get "day")) &&
    Json.isNumber (v.bind (Json.get "month")) &&
    Json.isNumber (v.bind (Json.get "year"))

def isScheduleCronModel (v : Json) : Bool :=
  Json.isTruthy v && Json.isObject v &&
    Json.isArray (v.get "seconds") &&
    Json.isArray (v.get "minutes") &&
    Json.isArray (v.get "hours") &&
    Json.isArray (v.get "daysOfMonth") &&
    Json.isArray (v.get "months") &&
    Json.isArray (v.get "daysOfWeek") &&
    Json.isString (v.get "cronExpression") &&
    Json.isNumber (v.get "utcOffsetMinutes") &&
    (Json.isNull (v.get "startAfter") || isTimeStruct (v.get "startAfter")) &&
    (Json.isNull (v.get "endBy") || isTimeStruct (v.get "endBy"))

/-- The JSON of a `TimeStruct`. -/
def TimeStruct.toJson (t : TimeStruct) : Json :=
  .object [("millis", .number t.millis), ("seconds", .number t.seconds),
    ("minutes", .number t.minutes), ("hours", .number t.hours), ("day", .number t.day),
    ("month", .number t.month), ("year", .number t.year)]

/-- The JSON of a definition, its members as `cronToDefinition` lists them. -/
def ScheduleCronModel.toJson (model : ScheduleCronModel) : Json :=
  let list (values : List Int) : Json := .array (values.map .number)
  let time (t : Option TimeStruct) : Json := (t.map TimeStruct.toJson).getD .null
  .object [("seconds", list model.seconds), ("minutes", list model.minutes),
    ("hours", list model.hours), ("daysOfMonth", list model.daysOfMonth),
    ("months", list model.months), ("daysOfWeek", list model.daysOfWeek),
    ("cronExpression", .string model.cronExpression),
    ("utcOffsetMinutes", .number model.utcOffsetMinutes), ("startAfter", time model.startAfter),
    ("endBy", time model.endBy)]

/-- **The check passes on every definition**, whatever its lists hold. -/
theorem isScheduleCronModel_toJson (model : ScheduleCronModel) :
    isScheduleCronModel model.toJson = true := by
  obtain ⟨_, _, _, _, _, _, _, _, startAfter, endBy⟩ := model
  cases startAfter <;> cases endBy <;> rfl

/-- The text of a schedule as a definition: `JSON.parse`, and the check.  `asModel` stands for
the type assertion, by which a value that passed is used as a definition. -/
def parseDefinition (jsonParse : String → Except String Json) (asModel : Json → ScheduleCronModel)
    (text : String) : Except String ScheduleCronModel :=
  match jsonParse text with
  | .error e => .error ("Not valid json: " ++ e)
  | .ok v =>
      if isScheduleCronModel v then .ok (asModel v)
      else .error "Not valid \"cron\" schedule definition"

theorem parseDefinition_toJson {jsonParse : String → Except String Json}
    {asModel : Json → ScheduleCronModel} {text : String} {model : ScheduleCronModel}
    (hText : jsonParse text = .ok model.toJson) (hModel : asModel model.toJson = model) :
    parseDefinition jsonParse asModel text = .ok model := by
  rw [parseDefinition, hText]
  simp only [isScheduleCronModel_toJson, if_true, hModel]

/-! ## The lists of a definition -/

/-- The lists are in order and in range.  Any of them may be empty. -/
structure ScheduleCronModel.InOrder (model : ScheduleCronModel) : Prop where
  seconds : Ordered 60 0 model.seconds
  minutes : Ordered 60 0 model.minutes
  hours : Ordered 24 0 model.hours
  daysOfMonth : Ordered 31 1 model.daysOfMonth
  months : Ordered 12 1 model.months
  daysOfWeek : Ordered 7 0 model.daysOfWeek

theorem ScheduleCronModel.InOrder.inFields {model : ScheduleCronModel} (hModel : model.InOrder) :
    model.InFields :=
  ⟨hModel.seconds.bounds, hModel.minutes.bounds, hModel.hours.bounds, hModel.daysOfMonth.bounds,
    hModel.months.bounds, hModel.daysOfWeek.bounds⟩

/-- The times are those of UTC, without bounds. -/
structure ScheduleCronModel.Plain (model : ScheduleCronModel) : Prop where
  offset : model.utcOffsetMinutes = 0
  startAfter : model.startAfter = none
  endBy : model.endBy = none

/-- What is read off a field, as a list of the definition. -/
theorem ordered_convertField {fuel : ℕ} {field : CronField} {part : List Char}
    {vals : List Number} (hConvert : convertField fuel field part = some vals) {period base : Int}
    (hBase : ((allowedRange field).1 : ℤ) = base)
    (hPeriod : ((allowedRange field).2 : ℤ) + 1 = base + period) :
    Ordered period base (vals.map Number.toInt) := by
  obtain ⟨hLow, hHigh⟩ := allowedRange_small field
  obtain ⟨ns, rfl, hSorted, hRange⟩ := convertField_ordered hConvert
  rw [map_toInt_whole fun n hN => by
    obtain ⟨hAbove, hBelow⟩ := hRange n hN
    rw [abs_of_nonneg (by omega)]
    omega]
  refine ⟨hSorted, fun n hN => ?_⟩
  obtain ⟨hAbove, hBelow⟩ := hRange n hN
  omega

/-- The days of the week are those of one week once Sunday is 0. -/
theorem ordered_handleSundays {fuel : ℕ} {part : List Char} {vals : List Number}
    (hConvert : convertField fuel .daysOfWeek part = some vals) :
    Ordered 7 0 ((handleSundays vals).map Number.toInt) := by
  obtain ⟨ns, rfl, -, hRange⟩ := convertField_ordered hConvert
  obtain ⟨days, hDays, hSorted, hSmall, hMem⟩ := handleSundays_map hRange
  rw [hDays, map_toInt_whole hSmall]
  refine ⟨hSorted, fun n hN => ?_⟩
  obtain ⟨m, hM, rfl⟩ := (hMem n).mp hN
  obtain ⟨hAbove, hBelow⟩ := hRange m hM
  simp only [allowedRange] at hAbove hBelow
  split <;> omega

/-- **What a text is accepted as**: lists in order and in range, in UTC and without bounds. -/
theorem inOrder_of_cronToDefinition {fuel : ℕ} {cronExpression : String}
    {definition : ScheduleCronModel}
    (hAccepted : cronToDefinition fuel cronExpression = some (.ok definition)) :
    definition.InOrder ∧ definition.Plain := by
  obtain ⟨result, hModel, hResult⟩ := Option.map_eq_some_iff.mp hAccepted
  unfold cronToModel at hModel
  -- six parts, or an error
  split at hModel
  · simp only [Option.bind_eq_bind, Option.bind_eq_some_iff] at hModel
    obtain ⟨_, hSeconds, _, hMinutes, _, hHours, _, hDaysOfMonth, _, hMonths, _, hDaysOfWeek,
      hModel⟩ := hModel
    obtain rfl := Option.some.inj hModel
    obtain rfl := Except.ok.inj hResult
    exact ⟨⟨ordered_convertField hSeconds rfl rfl, ordered_convertField hMinutes rfl rfl,
      ordered_convertField hHours rfl rfl, ordered_convertField hDaysOfMonth rfl rfl,
      ordered_convertField hMonths rfl rfl, ordered_handleSundays hDaysOfWeek⟩, ⟨rfl, rfl, rfl⟩⟩
  · obtain rfl := Option.some.inj hModel
    cases hResult

end TernScheduler
