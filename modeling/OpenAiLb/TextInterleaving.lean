import OpenAiLb.Library.Folds
import OpenAiLb.ResponseText

/-!
# The order of the events of a response

The text of a response does not depend on how the events of different parts follow each other: the
parts are a map whose values depend on their own events only, and sorting by the indices forgets
the order of the map. Where the last texts agree with the completed response, so does the whole.
-/

namespace OpenAiLb.Web

open Nested

/-- The key of a part with these indices. -/
def partKey (p : ℕ × ℕ) : Binary64 × Binary64 := (.finite p.1, .finite p.2)

/-- All text events have indices that are natural numbers. -/
def NaturalIndices (events : List JsonValue) : Prop :=
  ∀ change ∈ events.filterMap textEvent, ∃ p, change.1 = partKey p

/-- The event belongs to the part. -/
def IsOfPart (p : ℕ × ℕ) (event : JsonValue) : Prop :=
  (textEvent event).map Prod.fst = some (partKey p)

instance decidableIsOfPart (p : ℕ × ℕ) : DecidablePred (IsOfPart p) := fun event =>
  inferInstanceAs (Decidable ((textEvent event).map Prod.fst = some (partKey p)))

/-- What the events do to a part, one after the other. -/
def partChanges (events : List JsonValue) (key : Binary64 × Binary64) : List TextChange :=
  ((events.filterMap textEvent).filter fun change => change.1 = key).map Prod.snd

/-- The text of a delta. -/
def TextChange.deltaText : TextChange → Option String
  | .delta text => text
  | .done _ => none

/-- The text of a final event. -/
def TextChange.doneText : TextChange → Option String
  | .delta _ => none
  | .done text => text

/-- The text of the last final event of a part that has one. -/
def lastDone (events : List JsonValue) (p : ℕ × ℕ) : Option String :=
  ((partChanges events (partKey p)).filterMap TextChange.doneText).getLast?

/-- **The text of a part**: the last final one, or else the deltas together. -/
def partText (events : List JsonValue) (p : ℕ × ℕ) : String :=
  (lastDone events p).getD
    (String.join ((partChanges events (partKey p)).filterMap TextChange.deltaText))

section Parts

variable {events : List JsonValue} {key : Binary64 × Binary64} {part : StreamTextPart}
  {changes : List TextChange}

/-- Different positions have different keys. -/
theorem partKey_injective : Function.Injective partKey := by
  rintro ⟨i, j⟩ ⟨i', j'⟩ h
  obtain ⟨hi, hj⟩ := Prod.mk.inj h
  have hi' : (i : ℚ) = i' := Binary64.finite.inj hi
  have hj' : (j : ℚ) = j' := Binary64.finite.inj hj
  exact Prod.ext (by exact_mod_cast hi') (by exact_mod_cast hj')

/-- **A part after its events.** -/
theorem foldl_apply (part : StreamTextPart) (changes : List TextChange) :
    changes.foldl StreamTextPart.apply part =
      { part with
        deltas := part.deltas ++ changes.filterMap TextChange.deltaText
        text := (changes.filterMap TextChange.doneText).getLast?.or part.text } := by
  refine Folds.of_foldl (p := fun changes t => t = { part with
    deltas := part.deltas ++ changes.filterMap TextChange.deltaText
    text := (changes.filterMap TextChange.doneText).getLast?.or part.text }) ?_ ?_
  · simp
  · rintro before change after _ - rfl
    rcases change with ⟨_ | text⟩ | ⟨_ | text⟩ <;>
      simp [StreamTextPart.apply, TextChange.deltaText, TextChange.doneText]

/-- The changes of a part that was there or was started. -/
theorem foldl_changes (key : Binary64 × Binary64) (part : StreamTextPart)
    (changes : List TextChange) :
    changes.foldl (fun found change => some ((found.getD (.start key)).apply change)) (some part) =
      some (changes.foldl StreamTextPart.apply part) := by
  induction changes generalizing part with
  | nil => rfl
  | cons change changes ih => exact ih (part.apply change)

/-- The part that the events make of nothing. -/
def partOf (events : List JsonValue) (key : Binary64 × Binary64) : StreamTextPart where
  outputIndex := key.1
  contentIndex := key.2
  deltas := (partChanges events key).filterMap TextChange.deltaText
  text := ((partChanges events key).filterMap TextChange.doneText).getLast?

/-- The changes of a part make of a new part the part of all its events. -/
theorem foldl_apply_start (events : List JsonValue) (key : Binary64 × Binary64) :
    (partChanges events key).foldl StreamTextPart.apply (.start key) = partOf events key := by
  rw [foldl_apply, StreamTextPart.start, List.nil_append, Option.or_none]
  rfl

/-- **A part of the stream** is what its events make of it. -/
theorem get_textParts (events : List JsonValue) (key : Binary64 × Binary64) :
    OrderedMap.get (textParts events) key =
      if partChanges events key = [] then none else some (partOf events key) := by
  have hparts : textParts events = OrderedMap.accumulate Prod.fst
      (fun found change => (found.getD (.start change.1)).apply change.2) .empty
      (events.filterMap textEvent) := by
    rw [OrderedMap.accumulate, List.foldl_filterMap]
    unfold textParts
    congr 1
    funext parts event
    unfold addTextEvent
    cases textEvent event with
    | none => rfl
    | some change => rfl
  have hchanges : ∀ found : Option StreamTextPart,
      ((events.filterMap textEvent).filter fun change => change.1 = key).foldl
        (fun found change => some ((found.getD (.start change.1)).apply change.2)) found =
      (partChanges events key).foldl
        (fun found change => some ((found.getD (.start key)).apply change)) found := by
    intro found
    rw [partChanges, List.foldl_map]
    refine List.foldl_ext _ _ _ fun found change hchange => ?_
    have hkey : change.1 = key := by simpa using (List.mem_filter.mp hchange).2
    rw [hkey]
  rw [hparts, OrderedMap.get_accumulate, hchanges, ← foldl_apply_start]
  cases partChanges events key with
  | nil => rfl
  | cons change changes => exact foldl_changes key _ changes

end Parts

section Order

variable {events : List JsonValue} {left right part : StreamTextPart} {p q : ℕ × ℕ}

/-- The indices of a part, as far as they are natural numbers. -/
def StreamTextPart.position (part : StreamTextPart) : ℕ × ℕ :=
  ((part.outputIndex.integer?.getD 0).toNat, (part.contentIndex.integer?.getD 0).toNat)

/-- The part with the key of a position stands there. -/
theorem position_eq (h : (part.outputIndex, part.contentIndex) = partKey p) :
    part.position = p := by
  have hindex : ∀ n : ℕ, ((Binary64.finite (n : ℚ)).integer?.getD 0).toNat = n := by
    intro n
    have hinteger : (Binary64.finite (n : ℚ)).integer? = some (n : ℤ) :=
      Binary64.integer?_eq_some_iff.mpr (by rw [Int.cast_natCast])
    rw [hinteger]
    rfl
  obtain ⟨houtput, hcontent⟩ := Prod.mk.inj h
  unfold StreamTextPart.position
  rw [houtput, hcontent, hindex, hindex]

/-- The difference of two indices. -/
theorem finite_add_neg (m n : ℕ) :
    (Binary64.finite m).add (Binary64.finite n).neg =
      some (Binary64.round (((m : ℤ) - n : ℤ) : ℚ)) := by
  have hcast : (m : ℚ) + -(n : ℚ) = (((m : ℤ) - n : ℤ) : ℚ) := by
    push_cast
    ring
  rw [← hcast]
  rfl

/-- **The function that the parts are sorted by** compares the positions: differences of indices
are rounded, but neither to zero nor across it. -/
theorem inOrder_iff (hleft : (left.outputIndex, left.contentIndex) = partKey p)
    (hright : (right.outputIndex, right.contentIndex) = partKey q) :
    left.inOrder right = true ↔ AtMost p q := by
  obtain ⟨hoiLeft, hciLeft⟩ := Prod.mk.inj hleft
  obtain ⟨hoiRight, hciRight⟩ := Prod.mk.inj hright
  have hzero : ∀ d : ℤ, Binary64.round (d : ℚ) = .finite 0 ↔ d = 0 := by
    intro d
    simpa using Binary64.round_intCast_eq_iff (m := 0) (n := d) (by norm_num)
  have hle : ∀ d : ℤ, (Binary64.round (d : ℚ)).le (.finite 0) = true ↔ d ≤ 0 := by
    intro d
    simpa using Binary64.round_intCast_le_iff (m := 0) (n := d) (by norm_num)
  unfold StreamTextPart.inOrder StreamTextPart.compare AtMost
  rw [hoiLeft, hciLeft, hoiRight, hciRight, finite_add_neg, finite_add_neg]
  dsimp only
  by_cases hsame : p.1 = q.1
  · rw [if_pos (.inr (congrArg some ((hzero _).mpr (by omega)))), Option.all_some, hle]
    omega
  · rw [if_neg, Option.all_some, hle]
    · omega
    · rintro (hnan | hnull)
      · cases hnan
      · have hdifference := (hzero _).mp (Option.some.inj hnull)
        omega

/-- What the loop leaves under a key. -/
theorem textParts_sound (h : NaturalIndices events) {key : Binary64 × Binary64}
    (hpart : (key, part) ∈ textParts events) :
    key = partKey part.position ∧ partChanges events key ≠ [] ∧
      (part.outputIndex, part.contentIndex) = partKey part.position ∧
      part.shown = partText events part.position := by
  have hget := OrderedMap.get_eq_some_iff.mpr hpart
  rw [get_textParts, Option.ite_none_left_eq_some] at hget
  obtain ⟨hchanges, hpart⟩ := hget
  obtain ⟨change, hchange⟩ := List.exists_mem_of_ne_nil _ hchanges
  obtain ⟨entry, hentry, -⟩ := List.mem_map.mp hchange
  obtain ⟨hmem, hkey⟩ := List.mem_filter.mp hentry
  obtain ⟨p, hp⟩ := h entry hmem
  obtain rfl : partKey p = key := hp.symm.trans (by simpa using hkey)
  obtain rfl := Option.some.inj hpart
  have hposition : (partOf events (partKey p)).position = p := position_eq rfl
  rw [hposition]
  exact ⟨rfl, hchanges, rfl, rfl⟩

/-- **The parts of the stream** are those with an event, in the order of their positions, as far as
they have a text. -/
theorem streamTextParts_eq (h : NaturalIndices events) :
    ∃ parts : List (ℕ × ℕ), parts.Pairwise Before ∧
      (∀ p, p ∈ parts ↔ partChanges events (partKey p) ≠ []) ∧
      streamTextParts events = (parts.map (partText events)).filter fun text => text ≠ "" := by
  have hsound : ∀ part ∈ OrderedMap.values (textParts events),
      partChanges events (partKey part.position) ≠ [] ∧
        (part.outputIndex, part.contentIndex) = partKey part.position ∧
        part.shown = partText events part.position := by
    intro part hpart
    obtain ⟨⟨key, part⟩, hentry, rfl⟩ := List.mem_map.mp hpart
    obtain ⟨rfl, hrest⟩ := textParts_sound h hentry
    exact hrest
  have hsort := List.map_insertionSort
    (fun left right => StreamTextPart.inOrder left right = true) AtMost StreamTextPart.position
    (OrderedMap.values (textParts events)) fun left hleft right hright =>
      inOrder_iff (hsound left hleft).2.1 (hsound right hright).2.1
  have hperm := List.perm_insertionSort (fun left right => StreamTextPart.inOrder left right = true)
    (OrderedMap.values (textParts events))
  refine ⟨((OrderedMap.values (textParts events)).insertionSort fun left right =>
    StreamTextPart.inOrder left right = true).map StreamTextPart.position, ?_, fun p => ?_, ?_⟩
  · refine pairwise_before ?_ ?_
    · rw [hsort]
      exact List.pairwise_insertionSort AtMost _
    · rw [(hperm.map StreamTextPart.position).nodup_iff]
      refine List.Nodup.of_map partKey ?_
      have hkeys :
          ((OrderedMap.values (textParts events)).map StreamTextPart.position).map partKey =
          (textParts events).rows.map Prod.fst := by
        rw [OrderedMap.values, List.map_map, List.map_map]
        exact List.map_congr_left fun entry hentry => (textParts_sound h hentry).1.symm
      rw [hkeys]
      exact (textParts events).nodup
  · rw [(hperm.map StreamTextPart.position).mem_iff, List.mem_map]
    constructor
    · rintro ⟨part, hpart, rfl⟩
      exact (hsound part hpart).1
    · intro hchanges
      have hget := get_textParts events (partKey p)
      rw [if_neg hchanges] at hget
      have hentry := OrderedMap.get_eq_some_iff.mp hget
      refine ⟨_, List.mem_map.mpr ⟨_, hentry, rfl⟩, ?_⟩
      exact (partKey_injective (textParts_sound h hentry).1).symm
  · rw [streamTextParts, List.map_map]
    congr 1
    refine List.map_congr_left fun part hpart => ?_
    exact (hsound part (hperm.mem_iff.mp hpart)).2.2

end Order

/-- The events in another order, in which those of each part keep theirs. -/
structure Interleaved (events events' : List JsonValue) : Prop where
  perm : events'.Perm events
  parts : ∀ p, events'.filter (IsOfPart p) = events.filter (IsOfPart p)

/-- The events with a completed output, in their order. -/
def completedEvents (events : List JsonValue) : List JsonValue :=
  events.filter fun event => completedResponseOutputParts event ≠ []

/-- The text of the `output_text` part at a position of the completed output. -/
def outputTextAt (completed : JsonValue) (p : ℕ × ℕ) : Option String :=
  ((outputContents completed)[p.1]?.bind fun content => content[p.2]?).bind outputText

/-- The parts of the stream are those of the completed output, with the same final texts. -/
structure Finalized (events : List JsonValue) (completed : JsonValue) : Prop where
  done : ∀ p text, outputTextAt completed p = some text → lastDone events p = some text
  listed : ∀ p, partChanges events (partKey p) ≠ [] → (outputTextAt completed p).isSome = true

section Results

variable {events events' : List JsonValue} {completed : JsonValue}

/-- What happens to a part is read off its events. -/
theorem partChanges_eq (events : List JsonValue) (p : ℕ × ℕ) :
    partChanges events (partKey p) =
      ((events.filter (IsOfPart p)).filterMap textEvent).map Prod.snd := by
  unfold partChanges
  rw [List.filter_filterMap, List.filterMap_filter]
  congr 2
  funext event
  by_cases hpart : IsOfPart p event
  · obtain ⟨change, hchange, hkey⟩ := Option.map_eq_some_iff.mp hpart
    rw [if_pos (by simpa using hpart), hchange, Option.filter_some_pos (by simpa using hkey)]
  · rw [if_neg (by simpa using hpart), Option.filter_eq_none_iff]
    intro change hchange hkey
    exact hpart (Option.map_eq_some_iff.mpr ⟨change, hchange, by simpa using hkey⟩)

/-- The order among different parts does not change the text of any part. -/
theorem Interleaved.partText_eq (h : Interleaved events events') :
    partText events' = partText events := by
  have hchanges : ∀ p, partChanges events' (partKey p) = partChanges events (partKey p) := by
    intro p
    rw [partChanges_eq, partChanges_eq, h.parts]
  funext p
  rw [partText, partText, lastDone, lastDone, hchanges]

/-- **The parts of the stream** do not depend on the order of the parts. -/
theorem Interleaved.streamTextParts_eq (h : Interleaved events events')
    (hnatural : NaturalIndices events) : streamTextParts events' = streamTextParts events := by
  have hnatural' : NaturalIndices events' := by
    intro change hchange
    exact hnatural change ((h.perm.filterMap textEvent).mem_iff.mp hchange)
  obtain ⟨parts, hordered, hmem, htext⟩ := Web.streamTextParts_eq hnatural
  obtain ⟨parts', hordered', hmem', htext'⟩ := Web.streamTextParts_eq hnatural'
  have hparts : parts' = parts := by
    refine hordered'.eq_of_mem_iff hordered fun p => ?_
    rw [hmem', hmem, partChanges_eq, partChanges_eq, h.parts]
  rw [htext, htext', hparts, h.partText_eq]

/-- Only the events with a completed output count for it. -/
theorem flatMap_completedEvents (events : List JsonValue) :
    (completedEvents events).flatMap completedResponseOutputParts =
      events.flatMap completedResponseOutputParts := by
  induction events with
  | nil => rfl
  | cons event events ih =>
    rw [completedEvents, List.filter_cons, List.flatMap_cons]
    by_cases hempty : completedResponseOutputParts event = []
    · rw [if_neg (by simpa using hempty), hempty, List.nil_append]
      exact ih
    · rw [if_pos (by simpa using hempty), List.flatMap_cons]
      exact congrArg _ ih

/-- **The text of a response** does not depend on the order of the parts. -/
theorem Interleaved.eventsOutputText_eq (h : Interleaved events events')
    (hnatural : NaturalIndices events)
    (hcompleted : completedEvents events' = completedEvents events) :
    eventsOutputText events' = eventsOutputText events := by
  unfold eventsOutputText
  rw [h.streamTextParts_eq hnatural, ← flatMap_completedEvents events', hcompleted,
    flatMap_completedEvents]

/-- The same for the bodies that the events were read from. -/
theorem responseOutputText_of_interleaved {jsonParse : String → Option JsonValue}
    {body body' : Option String}
    (h : Interleaved (responseEventValues jsonParse body) (responseEventValues jsonParse body'))
    (hnatural : NaturalIndices (responseEventValues jsonParse body))
    (hcompleted : completedEvents (responseEventValues jsonParse body') =
      completedEvents (responseEventValues jsonParse body)) :
    responseOutputText jsonParse body' = responseOutputText jsonParse body :=
  h.eventsOutputText_eq hnatural hcompleted

/-- The `output_text` parts of the completed output, under their positions. -/
def outputTexts (completed : JsonValue) : List ((ℕ × ℕ) × String) :=
  (positions (outputContents completed)).filterMap fun entry =>
    (outputText entry.2).map fun text => (entry.1, text)

/-- The texts of a completed output are those at its positions. -/
theorem mem_outputTexts {p : ℕ × ℕ} {text : String} :
    (p, text) ∈ outputTexts completed ↔ outputTextAt completed p = some text := by
  unfold outputTexts outputTextAt
  rw [List.mem_filterMap, Option.bind_eq_some_iff]
  constructor
  · rintro ⟨⟨p', part⟩, hmem, heq⟩
    obtain ⟨text', htext, hpair⟩ := Option.map_eq_some_iff.mp heq
    obtain ⟨rfl, rfl⟩ := Prod.mk.inj hpair
    exact ⟨part, mem_positions.mp hmem, htext⟩
  · rintro ⟨part, hpart, htext⟩
    exact ⟨(p, part), mem_positions.mpr hpart, by rw [htext]; rfl⟩

/-- The texts of a completed output come in the order of their positions. -/
theorem pairwise_outputTexts (completed : JsonValue) :
    ((outputTexts completed).map Prod.fst).Pairwise Before := by
  rw [List.pairwise_map]
  refine List.Pairwise.filterMap _ ?_ (List.pairwise_map.mp (pairwise_positions _))
  intro entry entry' hbefore found hfound found' hfound'
  obtain ⟨text, -, rfl⟩ := Option.map_eq_some_iff.mp hfound
  obtain ⟨text', -, rfl⟩ := Option.map_eq_some_iff.mp hfound'
  exact hbefore

/-- **The parts of the completed output**, from the first position to the last. -/
theorem completedResponseOutputParts_eq (completed : JsonValue) :
    completedResponseOutputParts completed =
      ((outputTexts completed).map Prod.snd).filter fun text => text ≠ "" := by
  have htexts : (outputTexts completed).map Prod.snd =
      (outputContents completed).flatten.filterMap outputText := by
    rw [← map_snd_positions, outputTexts, List.map_filterMap, List.filterMap_map]
    congr 1
    funext entry
    rw [Option.map_map]
    exact Option.map_id_apply
  rw [htexts, List.filterMap_eq_flatMap_toList, List.filter_flatMap, ← List.flatMap_id',
    List.flatMap_assoc]
  rfl

/-- **A stream with the final texts of the completed output** has its parts. -/
theorem Finalized.streamTextParts_eq (h : Finalized events completed)
    (hnatural : NaturalIndices events) :
    streamTextParts events = completedResponseOutputParts completed := by
  obtain ⟨parts, hordered, hmem, htext⟩ := Web.streamTextParts_eq hnatural
  have hparts : parts = (outputTexts completed).map Prod.fst := by
    refine hordered.eq_of_mem_iff (pairwise_outputTexts completed) fun p => ?_
    rw [hmem, List.mem_map]
    constructor
    · intro hchanges
      obtain ⟨text, hlisted⟩ := Option.isSome_iff_exists.mp (h.listed p hchanges)
      exact ⟨(p, text), mem_outputTexts.mpr hlisted, rfl⟩
    · rintro ⟨⟨p, text⟩, hentry, rfl⟩ hnone
      have hdone := h.done p text (mem_outputTexts.mp hentry)
      rw [lastDone, hnone] at hdone
      cases hdone
  rw [htext, hparts, completedResponseOutputParts_eq, List.map_map]
  congr 1
  refine List.map_congr_left fun entry hentry => ?_
  have hdone := h.done entry.1 entry.2 (mem_outputTexts.mp hentry)
  rw [Function.comp_apply, partText, hdone, Option.getD_some]

end Results

/-- **The text of a response.** It does not depend on how the events of different parts follow each
other. It consists of the parts in the order of their indices, each with its last final text
whatever its deltas, and agrees with a completed output that has the same final texts. -/
theorem response_text_of_events {events : List JsonValue} (h : NaturalIndices events) :
    (∀ events', Interleaved events events' → completedEvents events' = completedEvents events →
      eventsOutputText events' = eventsOutputText events) ∧
    (∃ parts : List (ℕ × ℕ), parts.Pairwise Before ∧
      (∀ p, p ∈ parts ↔ partChanges events (partKey p) ≠ []) ∧
      streamTextParts events = (parts.map (partText events)).filter fun text => text ≠ "") ∧
    (∀ p text, lastDone events p = some text → partText events p = text) ∧
    ∀ completed, Finalized events completed →
      streamTextParts events = completedResponseOutputParts completed := by
  refine ⟨?_, streamTextParts_eq h, ?_, ?_⟩
  · exact fun events' hinterleaved hcompleted => hinterleaved.eventsOutputText_eq h hcompleted
  · intro p text hdone
    rw [partText, hdone, Option.getD_some]
  · exact fun completed hfinalized => hfinalized.streamTextParts_eq h

section Samples

/-- A final event. -/
def doneEvent (p : ℕ × ℕ) (text : String) : JsonValue :=
  .object [("type", .string "response.output_text.done"),
    ("output_index", .number (.finite p.1)), ("content_index", .number (.finite p.2)),
    ("text", .string text)]

/-- A completed output with one item and one text. -/
def completedOutput (text : String) : JsonValue :=
  .object [("output", .array [.object [("content", .array [.object
    [("type", .string "output_text"), ("text", .string text)]])]])]

/-- An event with indices that has a completed output. -/
def completedEvent (p : ℕ × ℕ) (text : String) : JsonValue :=
  .object [("type", .string "response.completed"), ("output_index", .number (.finite p.1)),
    ("content_index", .number (.finite p.2)), ("response", completedOutput text)]

/-- The closing event of a part says what its text is. -/
theorem textEvent_doneEvent (p : ℕ × ℕ) (text : String) :
    textEvent (doneEvent p text) = some (partKey p, .done (some text)) := rfl

/-- A stream of final events. -/
theorem naturalIndices_doneEvents (entries : List ((ℕ × ℕ) × String)) :
    NaturalIndices (entries.map fun entry => doneEvent entry.1 entry.2) := by
  intro change hchange
  obtain ⟨event, hevent, htext⟩ := List.mem_filterMap.mp hchange
  obtain ⟨entry, -, rfl⟩ := List.mem_map.mp hevent
  rw [textEvent_doneEvent] at htext
  exact ⟨entry.1, congrArg Prod.fst (Option.some.inj htext).symm⟩

/-- The parts of a stream of final events. -/
theorem exists_doneEvent {entries : List ((ℕ × ℕ) × String)} {p : ℕ × ℕ}
    (h : partChanges (entries.map fun entry => doneEvent entry.1 entry.2) (partKey p) ≠ []) :
    ∃ entry ∈ entries, entry.1 = p := by
  rw [partChanges_eq] at h
  obtain ⟨change, hchange⟩ := List.exists_mem_of_ne_nil _ h
  obtain ⟨found, hfound, -⟩ := List.mem_map.mp hchange
  obtain ⟨event, hevent, -⟩ := List.mem_filterMap.mp hfound
  obtain ⟨hmem, hpart⟩ := List.mem_filter.mp hevent
  obtain ⟨entry, hentry, rfl⟩ := List.mem_map.mp hmem
  have hkey : some (partKey entry.1) = some (partKey p) := of_decide_eq_true hpart
  exact ⟨entry, hentry, partKey_injective (Option.some.inj hkey)⟩

/-- The completed output of one text has it at its first position. -/
theorem outputTextAt_completedOutput (text : String) (p : ℕ × ℕ) :
    outputTextAt (completedOutput text) p = if p = (0, 0) then some text else none := by
  rcases p with ⟨_ | i, _ | j⟩
  · rfl
  · rfl
  · rfl
  · rfl

/-- Events that do not belong to the same part may change places. -/
theorem interleaved_swap {event event' : JsonValue}
    (h : ∀ p, ¬ (IsOfPart p event ∧ IsOfPart p event')) :
    Interleaved [event, event'] [event', event] where
  perm := List.Perm.swap _ _ _
  parts p := by
    by_cases hevent : IsOfPart p event
    · have hevent' : ¬ IsOfPart p event' := fun hevent' => h p ⟨hevent, hevent'⟩
      simp [hevent, hevent']
    · simp [List.filter_cons, hevent]

end Samples

/-- Two texts in either order. -/
theorem response_text_of_events_swapped :
    eventsOutputText [doneEvent (0, 0) "First", doneEvent (1, 0) "Second"] =
        eventsOutputText [doneEvent (1, 0) "Second", doneEvent (0, 0) "First"] ∧
      streamTextParts [doneEvent (0, 0) "First"] =
        completedResponseOutputParts (completedOutput "First") := by
  constructor
  · refine (response_text_of_events
      (naturalIndices_doneEvents [((1, 0), "Second"), ((0, 0), "First")])).1 _ ?_ rfl
    refine interleaved_swap fun p hboth => ?_
    have hsecond := partKey_injective (Option.some.inj hboth.1)
    have hfirst := partKey_injective (Option.some.inj hboth.2)
    rw [← hfirst] at hsecond
    cases hsecond
  · refine (response_text_of_events
      (naturalIndices_doneEvents [((0, 0), "First")])).2.2.2 _ ⟨?_, ?_⟩
    · intro p text htext
      rw [outputTextAt_completedOutput, Option.ite_none_right_eq_some] at htext
      obtain ⟨rfl, htext⟩ := htext
      exact htext
    · intro p hchanges
      obtain ⟨entry, hentry, rfl⟩ := exists_doneEvent hchanges
      obtain rfl := List.mem_singleton.mp hentry
      rfl

/-- Events with completed outputs, when no text event has a text, count in the order in which they
come. And if a part has two final events, a completed output with the text of the first one
disagrees. -/
theorem outputs_in_order_and_last_text :
    (NaturalIndices [completedEvent (0, 0) "a", completedEvent (1, 0) "b"] ∧
      Interleaved [completedEvent (0, 0) "a", completedEvent (1, 0) "b"]
        [completedEvent (1, 0) "b", completedEvent (0, 0) "a"] ∧
      eventsOutputText [completedEvent (0, 0) "a", completedEvent (1, 0) "b"] =
        some "a\n\nb" ∧
      eventsOutputText [completedEvent (1, 0) "b", completedEvent (0, 0) "a"] =
        some "b\n\na") ∧
    (NaturalIndices [doneEvent (0, 0) "Draft", doneEvent (0, 0) "Final"] ∧
      (∀ p text, outputTextAt (completedOutput "Draft") p = some text →
        TextChange.done (some text) ∈
          partChanges [doneEvent (0, 0) "Draft", doneEvent (0, 0) "Final"] (partKey p)) ∧
      (∀ p, partChanges [doneEvent (0, 0) "Draft", doneEvent (0, 0) "Final"] (partKey p) ≠ [] →
        (outputTextAt (completedOutput "Draft") p).isSome = true) ∧
      streamTextParts [doneEvent (0, 0) "Draft", doneEvent (0, 0) "Final"] = ["Final"] ∧
      completedResponseOutputParts (completedOutput "Draft") = ["Draft"]) := by
  refine ⟨⟨?_, ?_, rfl, rfl⟩, naturalIndices_doneEvents [((0, 0), "Draft"), ((0, 0), "Final")],
    ?_, ?_, rfl, rfl⟩
  · rintro change ⟨⟩
  · refine interleaved_swap fun p hboth => ?_
    cases hboth.1
  · intro p text htext
    rw [outputTextAt_completedOutput, Option.ite_none_right_eq_some] at htext
    obtain ⟨rfl, htext⟩ := htext
    obtain rfl := Option.some.inj htext
    exact List.mem_of_mem_head? rfl
  · intro p hchanges
    obtain ⟨entry, hentry, rfl⟩ : ∃ entry ∈ [((0, 0), "Draft"), ((0, 0), "Final")], entry.1 = p :=
      exists_doneEvent hchanges
    rcases List.mem_pair.mp hentry with rfl | rfl
    · rfl
    · rfl

end OpenAiLb.Web
