import OpenAiLb.Handlers
import OpenAiLb.Library.Folds
import OpenAiLb.Library.Utf8

/-!
# The images of an event stream

An image call answers with an event stream, which announces each item when it is done and lists
all of them again when the response is completed. `images_from_sse` takes the items of the first
kind, or those of the list when there is none of the first kind yet.
-/

namespace OpenAiLb

section Images

variable (serde : SerdeJson)

/-- The event of a data line that parses. -/
def lineEvent (line : List Char) : Option Value :=
  if "data: ".toList.isPrefixOf line then serde.fromSlice (asBytes (String.ofList (line.drop 6)))
  else none

/-- The events of a text: what its data lines that parse hold. -/
def streamEvents (text : String) : List Value := (lines text.toList).filterMap (lineEvent serde)

/-- The text of the field `type`. -/
def eventKind (event : Value) : Option String := (event.get "type").bind Value.asStr

/-- The image call that an event announces as done. -/
def announced (event : Value) : Option Value :=
  if eventKind event = some "response.output_item.done" then (event.get "item").filter isImageCall
  else none

/-- The event tells that the response is completed. -/
def IsCompleted (event : Value) : Prop := eventKind event = some "response.completed"

instance (event : Value) : Decidable (IsCompleted event) := inferInstanceAs (Decidable (_ = _))

/-- The image calls that the output of a response lists. -/
def listed (event : Value) : List Value :=
  (((event.pointer ["response", "output"]).bind Value.asArray).getD []).filter isImageCall

/-- What one event does to the items. -/
def collect (items : List Value) (event : Value) : List Value :=
  let items := items ++ (announced event).toList
  if IsCompleted event ∧ items = [] then listed event else items

/-- One line does what its event does. -/
theorem imageLine_fst (found : List Value × Usage) (line : List Char) :
    (imageLine serde found line).1 = (lineEvent serde line).elim found.1 (collect found.1) := by
  unfold imageLine lineEvent
  split
  · cases serde.fromSlice (asBytes (String.ofList (line.drop 6))) with
    | none => rfl
    | some event =>
      dsimp only [Option.elim_some]
      unfold collect announced IsCompleted eventKind listed
      by_cases hdone : (event.get "type").bind Value.asStr = some "response.output_item.done"
      · simp [hdone]
      · simp [hdone]
  · rfl

/-- The items of a stream are collected event by event. -/
theorem foldl_imageLine_fst (lines : List (List Char)) (found : List Value × Usage) :
    (lines.foldl (imageLine serde) found).1 =
      (lines.filterMap (lineEvent serde)).foldl collect found.1 := by
  induction lines generalizing found with
  | nil => rfl
  | cons line lines ih =>
    rw [List.foldl_cons, ih, imageLine_fst, List.filterMap_cons]
    cases lineEvent serde line with
    | none => rfl
    | some event => rfl

/-- Every event that tells of completion comes after the announced items, and lists exactly
those. -/
def CompletesLast (events : List Value) : Prop :=
  ∀ before event after, events = before ++ event :: after → IsCompleted event →
    after.filterMap announced = [] ∧ listed event = events.filterMap announced

/-- No item is announced, and the response is completed once at most. -/
def OnlyCompletes (events : List Value) : Prop :=
  events.filterMap announced = [] ∧ (events.filter IsCompleted).length ≤ 1

/-- The items of the stream: those announced, or those of the completed response. -/
def streamItems (events : List Value) : List Value :=
  if events.filterMap announced = [] then (events.filter IsCompleted).flatMap listed
  else events.filterMap announced

variable {events : List Value}

/-- What is made of a single element. -/
theorem filterMap_singleton {α β : Type} (f : α → Option β) (a : α) :
    [a].filterMap f = (f a).toList := by
  rw [List.filterMap_cons, List.filterMap_nil]
  cases f a <;> rfl

/-- **Announced items are collected once**: the list at the end adds none. -/
theorem collect_of_completesLast (h : CompletesLast events) :
    events.foldl collect [] = events.filterMap announced := by
  refine Folds.of_foldl (p := fun events items => items = events.filterMap announced) rfl ?_
  rintro before event after _ heq rfl
  rw [List.filterMap_append, filterMap_singleton]
  unfold collect
  dsimp only
  split
  · next hlist =>
    -- Here no item has been announced, and none will be, so the list has none.
    obtain ⟨hafter, hlisted⟩ := h before event after heq hlist.1
    rw [hlisted, heq, List.filterMap_append, ← List.singleton_append, List.filterMap_append,
      hafter, List.append_nil, filterMap_singleton]
  · rfl

/-- **Listed items are collected** where none is announced. -/
theorem collect_of_onlyCompletes (h : OnlyCompletes events) :
    events.foldl collect [] = (events.filter IsCompleted).flatMap listed := by
  rcases h with ⟨hnone, honce⟩
  refine Folds.of_foldl
    (p := fun events items => items = (events.filter IsCompleted).flatMap listed) rfl ?_
  rintro before event after _ heq rfl
  have hevent : announced event = none :=
    List.filterMap_eq_nil_iff.mp hnone event (by rw [heq]; simp)
  rw [List.filter_append, List.flatMap_append]
  unfold collect
  rw [hevent, Option.toList_none, List.append_nil]
  dsimp only
  by_cases hcompleted : IsCompleted event
  · have hfirst : before.filter IsCompleted = [] := by
      rw [heq, List.filter_append, List.filter_cons_of_pos (by simpa using hcompleted),
        List.length_append, List.length_cons] at honce
      exact List.length_eq_zero_iff.mp (by omega)
    simp [hfirst, hcompleted]
  · simp [hcompleted]

/-- In both orders the items of the stream are collected. -/
theorem collect_eq_streamItems (h : CompletesLast events ∨ OnlyCompletes events) :
    events.foldl collect [] = streamItems events := by
  unfold streamItems
  rcases h with hlast | honly
  · rw [collect_of_completesLast hlast]
    split
    · next hnone =>
      rw [hnone]
      refine (List.flatMap_eq_nil_iff.mpr fun event hevent => ?_).symm
      obtain ⟨hmem, hcompleted⟩ := List.mem_filter.mp hevent
      obtain ⟨before, after, heq⟩ := List.append_of_mem hmem
      rw [(hlast before event after heq (by simpa using hcompleted)).2, hnone]
    · rfl
  · rw [if_pos honly.1, collect_of_onlyCompletes honly]

/-- The item has a result that is a string. -/
def hasResult (item : Value) : Bool := ((item.get "result").bind Value.asStr).isSome

/-- The image has the result of the item, and its revised prompt, which is null where it has
none. -/
def ShowsItem (item image : Value) : Prop :=
  ∃ result, item.get "result" = some (.string result) ∧
    image = .object [("b64_json", .string result),
      ("revised_prompt", (item.get "revised_prompt").getD .null)]

/-- An item with a result becomes the image that shows it, and any other item none. -/
theorem imageData_eq (item : Value) :
    if hasResult item then ∃ image, imageData item = some image ∧ ShowsItem item image
    else imageData item = none := by
  unfold hasResult imageData
  cases hresult : (item.get "result").bind Value.asStr with
  | none => rfl
  | some result =>
    obtain ⟨value, hvalue, htext⟩ := Option.bind_eq_some_iff.mp hresult
    refine ⟨_, rfl, result, ?_, rfl⟩
    rw [hvalue, asStr_eq_some_iff.mp htext]

/-- The images show the items with a result, each once and in their order. -/
theorem forall₂_imageData (items : List Value) :
    List.Forall₂ ShowsItem (items.filter hasResult) (items.filterMap imageData) := by
  induction items with
  | nil => exact .nil
  | cons item items ih =>
    have hitem := imageData_eq item
    by_cases hresult : hasResult item = true
    · rw [if_pos hresult] at hitem
      obtain ⟨image, himage, hshows⟩ := hitem
      rw [List.filter_cons_of_pos hresult, List.filterMap_cons_some himage]
      exact .cons hshows ih
    · rw [if_neg hresult] at hitem
      rw [List.filter_cons_of_neg hresult, List.filterMap_cons_none hitem]
      exact ih

/-- **No image is lost or duplicated.** In a stream whose list of items, if there is one, comes
after the announced items and repeats them, or in which no item is announced and one response is
completed at most, the images show the items that have a result, each once and in the order of the
stream; it is an error exactly when there is no such item. -/
theorem images_of_stream {bytes : List UInt8} {text : String}
    (htext : String.fromUTF8? ⟨bytes.toArray⟩ = some text)
    (horder : CompletesLast (streamEvents serde text) ∨ OnlyCompletes (streamEvents serde text)) :
    ((∃ e, imagesFromSse serde bytes = .error e) ↔
      ∀ item ∈ streamItems (streamEvents serde text), hasResult item = false) ∧
    ∀ images usage, imagesFromSse serde bytes = .ok (images, usage) →
      List.Forall₂ ShowsItem ((streamItems (streamEvents serde text)).filter hasResult) images := by
  have hitems := foldl_imageLine_fst serde (lines text.toList) ([], .zero)
  rw [show (lines text.toList).filterMap (lineEvent serde) = streamEvents serde text from rfl,
    collect_eq_streamItems horder] at hitems
  have hrun : imagesFromSse serde bytes =
      if (streamItems (streamEvents serde text)).filterMap imageData = [] then
        .error (.upstream 502 "upstream did not return image data")
      else .ok ((streamItems (streamEvents serde text)).filterMap imageData,
        ((lines text.toList).foldl (imageLine serde) ([], .zero)).2) := by
    rw [imagesFromSse, htext, ← hitems]
  rw [hrun]
  have hshown := forall₂_imageData (streamItems (streamEvents serde text))
  split
  · next hnone =>
    rw [hnone, List.forall₂_nil_right_iff, List.filter_eq_nil_iff] at hshown
    refine ⟨iff_of_true ⟨_, rfl⟩ fun item hitem => ?_, nofun⟩
    exact Bool.not_eq_true _ ▸ hshown item hitem
  · next hsome =>
    constructor
    · refine iff_of_false nofun fun hall => hsome ?_
      rw [List.filter_eq_nil_iff.mpr fun item hitem => by simp [hall item hitem],
        List.forall₂_nil_left_iff] at hshown
      exact hshown
    · rintro images usage heq
      obtain rfl := (Prod.mk.inj (Except.ok.inj heq)).1
      exact hshown

/-- An item with a result. -/
def drawn : Value :=
  .object [("type", .string "image_generation_call"), ("result", .string "aW1hZ2U="),
    ("revised_prompt", .string "a cat")]

/-- The item is done. -/
def drawnDone : Value :=
  .object [("type", .string "response.output_item.done"), ("item", drawn)]

/-- The response that lists the item is completed. -/
def drawnCompleted : Value :=
  .object [("type", .string "response.completed"),
    ("response", .object [("output", .array [drawn])])]

/-- A text from its pieces. -/
def joined (pieces : List String) : List Char := pieces.flatMap String.toList

/-- The JSON text of the item. -/
def drawnText : List Char :=
  joined ["\x7b\"type\":", "\"image_", "generation_", "call\",", "\"result\":", "\"aW1hZ2U=\",",
    "\"revised_", "prompt\":", "\"a cat\"\x7d"]

/-- The JSON text of the first event. -/
def drawnDoneText : List Char :=
  joined ["\x7b\"type\":", "\"response.", "output_item.", "done\",", "\"item\":"] ++ drawnText ++
    ['\x7d']

/-- The JSON text of the second event. -/
def drawnCompletedText : List Char :=
  joined ["\x7b\"type\":", "\"response.", "completed\",", "\"response\":", "\x7b\"output\":["] ++
    drawnText ++ joined ["]\x7d\x7d"]

/-- A parser of the two events. -/
def drawnSerde : SerdeJson :=
  ⟨fun bytes => if bytes = asBytes (String.ofList drawnDoneText) then some drawnDone
    else if bytes = asBytes (String.ofList drawnCompletedText) then some drawnCompleted
    else none, fun _ => ""⟩

/-- A text with both events, a comment and a line that does not parse. -/
def drawnLines : List Char :=
  "data: ".toList ++ drawnDoneText ++ "\r\n: comment\n".toList ++ "data: \x7b\ndata: ".toList ++
    drawnCompletedText ++ ['\n']

/-- That text as a stream. -/
def drawnStream : String := String.ofList drawnLines

set_option maxRecDepth 4000 in
/-- The statement at a stream that announces an item and lists it again. -/
theorem images_of_drawnStream :
    ∃ usage, imagesFromSse drawnSerde (asBytes drawnStream) =
      .ok ([.object [("b64_json", .string "aW1hZ2U="), ("revised_prompt", .string "a cat")]],
        usage) := by
  have htext : String.fromUTF8? ⟨(asBytes drawnStream).toArray⟩ = some drawnStream :=
    fromUTF8?_eq_some_iff.mpr (toUTF8_eq_encoded drawnStream).symm
  have hevents : streamEvents drawnSerde drawnStream = [drawnDone, drawnCompleted] := by
    rw [streamEvents, drawnStream, String.toList_ofList]
    rfl
  have hlast : CompletesLast (streamEvents drawnSerde drawnStream) := by
    rw [hevents]
    intro before event after heq hcompleted
    rcases before with _ | ⟨first, _ | ⟨second, before⟩⟩
    · obtain ⟨rfl, -⟩ := List.cons.inj heq
      exact absurd hcompleted (by decide)
    · obtain ⟨-, htail⟩ := List.cons.inj heq
      obtain ⟨rfl, rfl⟩ := List.cons.inj htail
      exact ⟨rfl, rfl⟩
    · simp at heq
  have hitems : streamItems (streamEvents drawnSerde drawnStream) = [drawn] := by
    rw [hevents]
    rfl
  obtain ⟨herror, himages⟩ := images_of_stream drawnSerde htext (Or.inl hlast)
  rw [hitems] at herror himages
  cases hrun : imagesFromSse drawnSerde (asBytes drawnStream) with
  | error e => exact absurd (herror.mp ⟨e, hrun⟩ drawn List.mem_cons_self) (by decide)
  | ok found =>
    have hshown := himages found.1 found.2 hrun
    rw [List.filter_cons_of_pos rfl, List.filter_nil, List.forall₂_cons_left_iff] at hshown
    obtain ⟨image, rest, ⟨result, hresult, rfl⟩, hrest, hfound⟩ := hshown
    obtain rfl := Value.string.inj (Option.some.inj hresult)
    rw [List.forall₂_nil_left_iff] at hrest
    exact ⟨found.2, congrArg Except.ok (Prod.ext (hfound.trans (by rw [hrest]; rfl)) rfl)⟩

end Images

end OpenAiLb
