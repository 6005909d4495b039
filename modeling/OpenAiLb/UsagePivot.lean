import OpenAiLb.Library.Binary64
import OpenAiLb.Library.OrderedMap

/-!
# The usage pivot of the console

The console groups the rows of the usage by labels: a table row for each combination of row
labels, and in it a cell for each combination of column labels. The cells of a table row are the
properties of a plain object, so a lookup that finds no property of the object itself goes on in
`Object.prototype`.
-/

namespace OpenAiLb.Web

/-- `PivotDimension`. -/
inductive PivotDimension where
  | user
  | consumer
  | model
  | date
  deriving DecidableEq

/-- `UsageMetric`: the properties of a `PivotCell`. -/
inductive UsageMetric where
  | requests
  | inputTokens
  | cachedTokens
  | outputTokens
  | costUsdNanos
  | networkTransportBytes
  deriving DecidableEq

/-- The name of the property. -/
def UsageMetric.property : UsageMetric → String
  | requests => "requests"
  | inputTokens => "input_tokens"
  | cachedTokens => "cached_tokens"
  | outputTokens => "output_tokens"
  | costUsdNanos => "cost_usd_nanos"
  | networkTransportBytes => "network_transport_bytes"

/-- The metrics, in the order in which `pivotUsageRows` adds them. -/
def usageMetrics : List UsageMetric :=
  [.requests, .inputTokens, .cachedTokens, .outputTokens, .costUsdNanos, .networkTransportBytes]

/-- `UsageRow`. The numbers come from JSON. -/
structure UsageRow where
  userId : String
  userEmail : Option String
  userName : Option String
  consumerId : String
  consumerName : String
  consumerPrefix : String
  model : String
  date : String
  metric : UsageMetric → Binary64

/-- `left || right`, for a text that may be missing. -/
def orText (left : Option String) (right : String) : String :=
  left.elim right fun text => if text = "" then right else text

/-- `usageUserLabel`. -/
def usageUserLabel (row : UsageRow) : String :=
  orText row.userName (orText row.userEmail row.userId)

/-- `usageConsumerLabel`. -/
def usageConsumerLabel (row : UsageRow) : String :=
  row.consumerName ++ " · " ++ row.consumerPrefix ++ "…"

/-- `usageDimensionLabel`. -/
def usageDimensionLabel (row : UsageRow) : PivotDimension → String
  | .user => usageUserLabel row
  | .consumer => usageConsumerLabel row
  | .model => row.model
  | .date => row.date

/-- `usagePivotKey`. -/
def usagePivotKey (row : UsageRow) (dimensions : List PivotDimension) : String :=
  orText (some ("\x1f".intercalate (dimensions.map (usageDimensionLabel row)))) "total"

/-- A number, or `none` for `NaN`. -/
abbrev JsNumber := Option Binary64

/-- Addition of numbers. -/
def JsNumber.add (x y : JsNumber) : JsNumber := x.bind fun x => y.bind fun y => x.add y

/-- What `row.requests` and the others add up to, from the first row to the last. -/
def JsNumber.sum (numbers : List Binary64) : JsNumber :=
  numbers.foldl (fun sum x => sum.add (some x)) (some (.finite 0))

/-- The object that a cell is. -/
inductive Cell where
  /-- A record that `pivotUsageRows` created. -/
  | record (i : ℕ)
  /-- A function that `Object.prototype` has under the name. -/
  | function (name : String)
  | objectPrototype
  deriving DecidableEq

/-- What a property of `cells` holds. -/
inductive Found where
  | cell (cell : Cell)
  /-- A primitive value. -/
  | number (x : JsNumber)

/-- The names of the functions of `Object.prototype`. -/
def inheritedFunctions : List String :=
  ["constructor", "__defineGetter__", "__defineSetter__", "hasOwnProperty", "__lookupGetter__",
    "__lookupSetter__", "isPrototypeOf", "propertyIsEnumerable", "toString", "valueOf",
    "toLocaleString"]

/-- The objects that exist. -/
structure Realm where
  /-- The metrics that were written to `Object.prototype`. -/
  prototype : UsageMetric → Option JsNumber
  /-- The metrics that were written to its functions. -/
  functions : String → UsageMetric → Option JsNumber
  /-- The records that `pivotUsageRows` created. -/
  records : List (UsageMetric → JsNumber)

namespace Realm

/-- What an object without the property inherits from `Object.prototype`. -/
def inherited (realm : Realm) (key : String) : Option Found :=
  if key = "__proto__" then some (.cell .objectPrototype)
  else if key ∈ inheritedFunctions then some (.cell (.function key))
  else (usageMetrics.find? fun metric => metric.property = key).bind fun metric =>
    (realm.prototype metric).map .number

/-- `pivotRow.cells[columnId]`; `none` is `undefined`. -/
def get (realm : Realm) (cells : OrderedMap String Cell) (columnId : String) : Option Found :=
  match OrderedMap.get cells columnId with
  | some cell => some (.cell cell)
  | none => realm.inherited columnId

/-- Reading a metric of a cell. What is `undefined` becomes `NaN` in a sum. -/
def read (realm : Realm) (cell : Cell) (metric : UsageMetric) : JsNumber :=
  match cell with
  | .record i => realm.records[i]?.elim none fun record => record metric
  | .function name => ((realm.functions name metric).or (realm.prototype metric)).getD none
  | .objectPrototype => (realm.prototype metric).getD none

/-- Writing a metric of a cell. -/
def write (realm : Realm) (cell : Cell) (metric : UsageMetric) (x : JsNumber) : Realm :=
  match cell with
  | .record i =>
    { realm with records := realm.records.modify i fun record => Function.update record metric x }
  | .function name =>
    { realm with
      functions := Function.update realm.functions name
        (Function.update (realm.functions name) metric (some x)) }
  | .objectPrototype => { realm with prototype := Function.update realm.prototype metric (some x) }

/-- The statements `cell.requests += row.requests` and so on. -/
def addRow (realm : Realm) (cell : Cell) (row : UsageRow) : Realm :=
  usageMetrics.foldl (fun realm metric =>
    realm.write cell metric ((realm.read cell metric).add (some (row.metric metric)))) realm

end Realm

/-- `pivotRow.cells[columnId] = cell`. Under `__proto__` the object sets its prototype, to the one
that it has found there and has already. -/
def setCell (cells : OrderedMap String Cell) (columnId : String) (cell : Cell) :
    OrderedMap String Cell :=
  if columnId = "__proto__" then cells else OrderedMap.set cells columnId cell

/-- `PivotTableRow`, under its id: the first row, and the own properties of `cells`. -/
structure PivotTableRow where
  id : String
  values : UsageRow
  cells : OrderedMap String Cell

/-- `PivotColumn`. -/
structure PivotColumn where
  id : String
  label : String

/-- The variables of `pivotUsageRows`. -/
structure PivotState where
  columns : OrderedMap String PivotColumn
  grouped : OrderedMap String PivotTableRow
  realm : Realm

/-- An exception of the engine. -/
inductive TypeError where
  /-- A property of a primitive value is assigned. -/
  | assignedToPrimitive
  deriving DecidableEq

/-- What `pivotUsageRows` returns. -/
structure UsagePivot where
  rows : List PivotTableRow
  columns : List PivotColumn
  /-- The objects that the cells of the rows refer to. -/
  realm : Realm

section Pivot

variable (rowDimensions columnDimensions : List PivotDimension) (label : UsageRow → String)

/-- Add the row to the cell, and store the cell and the table row. -/
def PivotState.store (s : PivotState) (row : UsageRow) (realm : Realm) (cell : Cell) : PivotState :=
  let rowId := usagePivotKey row rowDimensions
  let columnId := usagePivotKey row columnDimensions
  let pivotRow := (OrderedMap.get s.grouped rowId).getD ⟨rowId, row, .empty⟩
  { columns := OrderedMap.set s.columns columnId ⟨columnId, label row⟩
    grouped := OrderedMap.set s.grouped rowId
      { pivotRow with cells := setCell pivotRow.cells columnId cell }
    realm := realm.addRow cell row }

/-- One turn of the loop. -/
def PivotState.step (s : PivotState) (row : UsageRow) : Except TypeError PivotState :=
  let rowId := usagePivotKey row rowDimensions
  let columnId := usagePivotKey row columnDimensions
  let pivotRow := (OrderedMap.get s.grouped rowId).getD ⟨rowId, row, .empty⟩
  match s.realm.get pivotRow.cells columnId with
  | some (.number _) => .error .assignedToPrimitive
  | some (.cell cell) => .ok (s.store rowDimensions columnDimensions label row s.realm cell)
  | none =>
    -- The literal with six zeros.
    .ok (s.store rowDimensions columnDimensions label row
      { s.realm with records := s.realm.records ++ [fun _ => some (.finite 0)] }
      (.record s.realm.records.length))

/-- The loop. -/
def PivotState.run (s : PivotState) : List UsageRow → Except TypeError PivotState
  | [] => .ok s
  | row :: rows =>
    match s.step rowDimensions columnDimensions label row with
    | .ok s => s.run rows
    | .error error => .error error

/-- Nothing is grouped. -/
def PivotState.start (realm : Realm) : PivotState := ⟨.empty, .empty, { realm with records := [] }⟩

/-- `pivotUsageRows`. -/
def pivotUsageRows (localeCompare : String → String → Int) (realm : Realm) (rows : List UsageRow) :
    Except TypeError UsagePivot :=
  ((PivotState.start realm).run rowDimensions columnDimensions label rows).map fun s =>
    { rows := OrderedMap.values s.grouped
      columns := (OrderedMap.values s.columns).mergeSort fun left right =>
        localeCompare left.label right.label ≤ 0
      realm := s.realm }

end Pivot

end OpenAiLb.Web
