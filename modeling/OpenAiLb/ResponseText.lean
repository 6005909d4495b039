import OpenAiLb.Library.Binary64
import OpenAiLb.Library.Nested
import OpenAiLb.Library.OrderedMap

/-!
# The text of a response

The console shows the text of an archived response. A stream has it in parts, each under the
indices of an output item and of a content, which arrive in any order; the completed response has
it once more, as a nested list. The parts are put in order by their indices, and the completed
response is only read where they are all empty.
-/

namespace OpenAiLb.Web

/-- What `JSON.parse` returns. -/
inductive JsonValue where
  | null
  | boolean (b : Bool)
  | number (x : Binary64)
  | string (s : String)
  | array (items : List JsonValue)
  | object (properties : List (String × JsonValue))

namespace JsonValue

/-- `recordValue`. -/
def recordValue : JsonValue → Option (List (String × JsonValue))
  | object properties => some properties
  | _ => none

/-- `recordValue(value)?.name`. -/
def property (value : JsonValue) (name : String) : Option JsonValue :=
  value.recordValue.bind fun properties => properties.lookup name

/-- The text of a value with `typeof value === "string"`. -/
def asString : JsonValue → Option String
  | string s => some s
  | _ => none

/-- The number of a value with `typeof value === "number"`. -/
def asNumber : JsonValue → Option Binary64
  | number x => some x
  | _ => none

/-- The items of a value with `Array.isArray(value)`. -/
def asArray : JsonValue → Option (List JsonValue)
  | array items => some items
  | _ => none

/-- Whether the value counts as true. -/
def truthy : JsonValue → Bool
  | null => false
  | boolean b => b
  | number x => x ≠ .finite 0
  | string s => s ≠ ""
  | array _ => true
  | object _ => true

/-- The `type` of an event or of a part, if it is a text. -/
def type (value : JsonValue) : Option String := (value.property "type").bind asString

end JsonValue

/-- `responseBody.split(/\r?\n/)`. -/
def splitBodyLines (text : List Char) : List (List Char) :=
  let pieces := text.splitOn '\n'
  pieces.dropLast.map (fun line => if line.getLast? = some '\r' then line.dropLast else line) ++
    pieces.getLast?.toList

/-- `responseEventValues`. -/
def responseEventValues (jsonParse : String → Option JsonValue) (responseBody : Option String) :
    List JsonValue :=
  match responseBody with
  | none => []
  | some body =>
    if body = "" then []
    else
      let parsed := jsonParse body
      if (parsed.bind fun value => value.property "output").any JsonValue.truthy then parsed.toList
      else (splitBodyLines body.toList).filterMap fun line =>
        if "data: ".toList.isPrefixOf line then jsonParse (String.ofList (line.drop 6)) else none

/-- The contents of the output items of `completedResponseOutputParts`. An item without an array
has none. -/
def outputContents (value : JsonValue) : List (List JsonValue) :=
  let response := ((value.property "response").bind JsonValue.recordValue).or value.recordValue
  let output := ((response.bind fun response => response.lookup "output").bind
    JsonValue.asArray).getD []
  output.map fun item => ((item.property "content").bind JsonValue.asArray).getD []

/-- The text of an `output_text` part. -/
def outputText (part : JsonValue) : Option String :=
  if part.type = some "output_text" then (part.property "text").bind JsonValue.asString else none

/-- `completedResponseOutputParts`. -/
def completedResponseOutputParts (value : JsonValue) : List String :=
  (outputContents value).flatMap fun content =>
    content.flatMap fun part => (outputText part).toList.filter fun text => text ≠ ""

/-- `StreamTextPart`. -/
structure StreamTextPart where
  outputIndex : Binary64
  contentIndex : Binary64
  deltas : List String
  text : Option String

/-- What an event does to its part. Without a text it only makes sure that there is one. -/
inductive TextChange where
  | delta (delta : Option String)
  | done (text : Option String)

/-- The indices and the change of a text event. The key of a part is the text of both indices,
which no other two numbers have. -/
def textEvent (event : JsonValue) : Option ((Binary64 × Binary64) × TextChange) :=
  let change :=
    if event.type = some "response.output_text.delta" then
      some (TextChange.delta ((event.property "delta").bind JsonValue.asString))
    else if event.type = some "response.output_text.done" then
      some (TextChange.done ((event.property "text").bind JsonValue.asString))
    else none
  change.bind fun change =>
    ((event.property "output_index").bind JsonValue.asNumber).bind fun outputIndex =>
      ((event.property "content_index").bind JsonValue.asNumber).map fun contentIndex =>
        ((outputIndex, contentIndex), change)

namespace StreamTextPart

/-- A part without any text. -/
def start (key : Binary64 × Binary64) : StreamTextPart := ⟨key.1, key.2, [], none⟩

/-- Change the part as the event says. -/
def apply (part : StreamTextPart) : TextChange → StreamTextPart
  | .delta (some delta) => { part with deltas := part.deltas ++ [delta] }
  | .done (some text) => { part with text := some text }
  | _ => part

/-- `part.text ?? part.deltas.join("")`. -/
def shown (part : StreamTextPart) : String := part.text.getD (String.join part.deltas)

/-- The function that the parts are sorted by. -/
def compare (left right : StreamTextPart) : Option Binary64 :=
  let difference := left.outputIndex.add right.outputIndex.neg
  if difference = none ∨ difference = some (.finite 0) then
    left.contentIndex.add right.contentIndex.neg
  else difference

/-- The left part may stand before the right one. -/
def inOrder (left right : StreamTextPart) : Bool :=
  (compare left right).all fun x => x.le (.finite 0)

end StreamTextPart

/-- One turn of the loop of `streamTextParts`. -/
def addTextEvent (parts : OrderedMap (Binary64 × Binary64) StreamTextPart) (event : JsonValue) :
    OrderedMap (Binary64 × Binary64) StreamTextPart :=
  match textEvent event with
  | none => parts
  | some (key, change) =>
    OrderedMap.set parts key (((OrderedMap.get parts key).getD (.start key)).apply change)

/-- The parts after the loop. -/
def textParts (events : List JsonValue) : OrderedMap (Binary64 × Binary64) StreamTextPart :=
  events.foldl addTextEvent .empty

/-- `streamTextParts`. -/
def streamTextParts (events : List JsonValue) : List String :=
  (((OrderedMap.values (textParts events)).insertionSort fun left right =>
    StreamTextPart.inOrder left right = true).map StreamTextPart.shown).filter fun text => text ≠ ""

/-- What `responseOutputText` returns for the events of a body. -/
def eventsOutputText (events : List JsonValue) : Option String :=
  let parts := streamTextParts events
  if parts ≠ [] then some ("\n\n".intercalate parts)
  else
    let completedParts := events.flatMap completedResponseOutputParts
    if completedParts ≠ [] then some ("\n\n".intercalate completedParts) else none

/-- `responseOutputText`. -/
def responseOutputText (jsonParse : String → Option JsonValue) (responseBody : Option String) :
    Option String :=
  eventsOutputText (responseEventValues jsonParse responseBody)

end OpenAiLb.Web
