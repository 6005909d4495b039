import Mathlib.Data.List.DropRight
import OpenAiLb.ImageStreams
import OpenAiLb.StreamedUsage

/-!
# The two readers of an event stream

`update_sse_usage` finds the lines of a stream byte by byte, with a buffer for the line that is not
complete; `images_from_sse` asks `str::lines` for those of a whole text. Both read the same
events where the stream is a text of complete lines, so both count the same usage.
-/

namespace OpenAiLb

/-- What the code relies on of `serde_json::from_slice`: nothing is no JSON text, and blanks behind
a text do not matter. -/
structure SerdeJson.IgnoresBlanks (serde : SerdeJson) : Prop where
  empty : serde.fromSlice [] = none
  trailing : ∀ text, ∀ blank ∈ ([32, 9, 10, 13] : List UInt8),
    serde.fromSlice (text ++ [blank]) = serde.fromSlice text

namespace Usage

/-- The greatest of each counter, from zero on. -/
def greatest (usages : List Usage) : Usage where
  inputTokens := (usages.map inputTokens).foldl max 0
  outputTokens := (usages.map outputTokens).foldl max 0
  cachedTokens := (usages.map cachedTokens).foldl max 0
  cacheWriteTokens := (usages.map cacheWriteTokens).foldl max 0

end Usage

section Lines

variable (serde : SerdeJson)

/-- The lines that a line feed ends, without it. -/
def completeLines (bytes : List UInt8) : List (List UInt8) := (bytes.splitOn lineFeed).dropLast

/-- The event of a complete data line that parses. -/
def dataEvent (line : List UInt8) : Option Value :=
  if asBytes "data: " <+: line then serde.fromSlice (line.drop 6) else none

/-- The events of a stream: what its complete data lines that parse hold. -/
def byteEvents (bytes : List UInt8) : List Value :=
  (completeLines bytes).filterMap (dataEvent serde)

/-- The bytes have no long stretch without a line feed. -/
def ShortLines (bytes : List UInt8) : Prop :=
  ∀ stretch, stretch <:+: bytes → lineFeed ∉ stretch → stretch.length ≤ 2 * 1024 * 1024

/-- What is drained and what is kept are the bytes. -/
theorem flatten_drainLines (line bytes : List UInt8) :
    (drainLines line bytes).1.flatten ++ (drainLines line bytes).2 = line ++ bytes := by
  induction bytes generalizing line with
  | nil => simp [drainLines]
  | cons byte rest ih =>
    by_cases hbyte : byte = lineFeed
    · have hrest := ih []
      rw [List.nil_append] at hrest
      simp [drainLines, hbyte, hrest]
    · simp [drainLines, hbyte, ih]

/-- Short lines fit the buffer. -/
theorem ShortLines.fitsBuffer {bytes : List UInt8} (h : ShortLines bytes) : FitsBuffer bytes := by
  intro seen hseen
  have hbytes := flatten_drainLines [] seen
  rw [List.nil_append] at hbytes
  have hsuffix : (drainLines [] seen).2 <:+ seen := ⟨_, hbytes⟩
  have hopen : lineFeed ∉ ([] : List UInt8) := List.not_mem_nil
  exact h _ (hsuffix.isInfix.trans hseen.isInfix) (lineFeed_notMem_drainLines hopen seen)

/-- The drained lines are the complete ones, each with its line feed. -/
theorem drainLines_fst (line bytes : List UInt8) :
    (drainLines line bytes).1 =
      (((bytes.splitOn lineFeed).modifyHead (line ++ ·)).dropLast).map (· ++ [lineFeed]) := by
  induction bytes generalizing line with
  | nil => rfl
  | cons byte rest ih =>
    rw [List.splitOn_cons_eq_if_modifyHead]
    by_cases hbyte : byte = lineFeed
    · have hrest := ih []
      have hid : (rest.splitOn lineFeed).modifyHead ([] ++ ·) = rest.splitOn lineFeed :=
        congrFun List.modifyHead_id _
      rw [hid] at hrest
      rw [if_pos (beq_iff_eq.mpr hbyte), List.modifyHead_cons, List.append_nil,
        List.dropLast_cons_of_ne_nil (List.splitOn_ne_nil lineFeed rest), List.map_cons, ← hrest]
      simp [drainLines, hbyte]
    · rw [if_neg (fun heq => hbyte (beq_iff_eq.mp heq)), List.modifyHead_modifyHead]
      have hrest := ih (line ++ [byte])
      have hfun : (fun rest => line ++ [byte] ++ rest) = (line ++ ·) ∘ (List.cons byte) := by
        funext rest
        simp
      rw [hfun] at hrest
      simp [drainLines, hbyte, hrest]

variable {serde}

/-- A line that is no data line is read as nothing, which is no event. -/
theorem fromSlice_eventData (hserde : serde.IgnoresBlanks) (line : List UInt8) :
    serde.fromSlice (eventData line) = dataEvent serde line := by
  unfold eventData dataEvent
  by_cases hdata : asBytes "data: " <+: line
  · rw [if_pos (List.isPrefixOf_iff_prefix.mpr hdata), if_pos hdata]
  · rw [if_neg (fun h => hdata (List.isPrefixOf_iff_prefix.mp h)), if_neg hdata, hserde.empty]

/-- The end of a line does not change its event. -/
theorem dataEvent_append (hserde : serde.IgnoresBlanks) (line : List UInt8) {blank : UInt8}
    (hblank : blank ∈ ([10, 13] : List UInt8)) :
    dataEvent serde (line ++ [blank]) = dataEvent serde line := by
  have hlength : (asBytes "data: ").length = 6 := by decide
  have hnone : ∀ blank ∈ ([10, 13] : List UInt8), blank ∉ asBytes "data: " :=
    List.forall_mem_cons.mpr ⟨by decide, List.forall_mem_singleton.mpr (by decide)⟩
  have htrailing : ([10, 13] : List UInt8) ⊆ [32, 9, 10, 13] := by simp
  have hstarts : asBytes "data: " <+: line ++ [blank] ↔ asBytes "data: " <+: line := by
    rw [List.prefix_concat_iff, or_iff_right]
    intro heq
    refine hnone blank hblank ?_
    rw [heq]
    exact List.mem_append_right _ List.mem_cons_self
  unfold dataEvent
  by_cases hdata : asBytes "data: " <+: line
  · have hsix : 6 ≤ line.length := hlength ▸ hdata.length_le
    rw [if_pos (hstarts.mpr hdata), if_pos hdata, List.drop_append_of_le_length hsix]
    exact hserde.trailing _ _ (htrailing hblank)
  · rw [if_neg (fun h => hdata (hstarts.mp h)), if_neg hdata]

/-- The usage of the drained lines is that of the events. -/
theorem foldl_mergeLine (hserde : serde.IgnoresBlanks) (lines : List (List UInt8))
    (usage : Usage) :
    (lines.map (· ++ [lineFeed])).foldl (mergeLine serde) usage =
      ((lines.filterMap (dataEvent serde)).map .fromValue).foldl Usage.merge usage := by
  induction lines generalizing usage with
  | nil => rfl
  | cons line lines ih =>
    have hend : dataEvent serde (line ++ [lineFeed]) = dataEvent serde line :=
      dataEvent_append hserde line List.mem_cons_self
    rw [List.map_cons, List.foldl_cons, ih, mergeLine, fromSlice_eventData hserde, hend,
      List.filterMap_cons]
    cases dataEvent serde line with
    | none => rfl
    | some event => rfl

/-- Merging takes the greatest of each counter. -/
theorem foldl_merge (usages : List Usage) (usage : Usage) :
    usages.foldl Usage.merge usage =
      { inputTokens := (usages.map Usage.inputTokens).foldl max usage.inputTokens
        outputTokens := (usages.map Usage.outputTokens).foldl max usage.outputTokens
        cachedTokens := (usages.map Usage.cachedTokens).foldl max usage.cachedTokens
        cacheWriteTokens :=
          (usages.map Usage.cacheWriteTokens).foldl max usage.cacheWriteTokens } := by
  induction usages generalizing usage with
  | nil => rfl
  | cons first usages ih =>
    rw [List.foldl_cons, ih]
    rfl

/-- **The usage of a stream**: the greatest of each counter over its events. -/
theorem usage_readChunks (hserde : serde.IgnoresBlanks) {chunks : List (List UInt8)}
    (hshort : ShortLines chunks.flatten) :
    (readChunks serde chunks).2 =
      .greatest ((byteEvents serde chunks.flatten).map .fromValue) := by
  have hid : (chunks.flatten.splitOn lineFeed).modifyHead ([] ++ ·) =
      chunks.flatten.splitOn lineFeed := congrFun List.modifyHead_id _
  rw [readChunks_of_fits hshort.fitsBuffer, drainLines_fst, hid]
  exact (foldl_mergeLine hserde _ .zero).trans (foldl_merge _ .zero)

section Text

/-- A line without the carriage return that it ends with, as `str::lines` yields it. -/
def stripReturn (line : List Char) : List Char :=
  if line.getLast? = some '\r' then line.dropLast else line

/-- A line of characters is read like its bytes. -/
theorem lineEvent_eq_dataEvent (line : List Char) :
    lineEvent serde line = dataEvent serde (encoded line) := by
  have hall : "data: ".toList.all (fun c => decide (c.toNat < 128)) = true := by decide
  have hascii : ∀ c ∈ "data: ".toList, c.toNat < 128 := fun c hc =>
    of_decide_eq_true (List.all_eq_true.mp hall c hc)
  have hbytes : asBytes "data: " = encoded "data: ".toList := toUTF8_eq_encoded "data: "
  unfold lineEvent dataEvent
  by_cases hdata : "data: ".toList <+: line
  · rw [if_pos (List.isPrefixOf_iff_prefix.mpr hdata), hbytes,
      if_pos ((encoded_prefix_iff hascii).mpr hdata)]
    obtain ⟨rest, rfl⟩ := hdata
    have hrest : asBytes (String.ofList rest) = encoded rest := by
      rw [asBytes, toUTF8_eq_encoded, String.toList_ofList]
    have hlength : (encoded "data: ".toList).length = 6 := by decide
    rw [encoded_append, List.drop_left' hlength, ← hrest]
    exact congrArg (fun text => serde.fromSlice (asBytes (String.ofList text)))
      (List.drop_left' rfl)
  · rw [if_neg (fun h => hdata (List.isPrefixOf_iff_prefix.mp h)), hbytes,
      if_neg (fun h => hdata ((encoded_prefix_iff hascii).mp h))]

/-- The event of a line does not depend on its carriage return. -/
theorem lineEvent_stripReturn (hserde : serde.IgnoresBlanks) (line : List Char) :
    lineEvent serde (stripReturn line) = dataEvent serde (encoded line) := by
  rw [lineEvent_eq_dataEvent]
  unfold stripReturn
  split
  · next hreturn =>
    have hline : line.dropLast ++ ['\r'] = line :=
      List.dropLast_append_getLast? '\r' hreturn
    have hencoded : encoded line = encoded line.dropLast ++ [13] := by
      rw [← hline, encoded_append, List.dropLast_concat]
      rfl
    rw [hencoded, dataEvent_append hserde _ (by decide)]
  · rfl

/-- A text that ends with a line feed has complete lines only. -/
theorem lines_of_complete {text : List Char} (h : text.getLast? = some '\n') :
    lines text = (text.splitOn '\n').dropLast.map stripReturn := by
  have htext : text.dropLast ++ ['\n'] = text := List.dropLast_append_getLast? '\n' h
  have hlast : (text.splitOn '\n').getLast? = some [] := by
    rw [← htext, List.splitOn_append_cons_self]
    exact List.getLast?_concat
  unfold lines
  dsimp only
  rw [hlast]
  exact List.append_nil _

/-- **Both readers find the same events** in a text of complete lines. -/
theorem streamEvents_eq_byteEvents (hserde : serde.IgnoresBlanks) {text : String}
    (h : text.toList.getLast? = some '\n') :
    streamEvents serde text = byteEvents serde (encoded text.toList) := by
  have hbyte : lineFeed.toNat < 128 := by decide
  have hsplit := splitOn_encoded hbyte (c := '\n') rfl text.toList
  unfold streamEvents byteEvents completeLines
  rw [lines_of_complete h, hsplit, ← List.map_dropLast, List.filterMap_map, List.filterMap_map]
  refine List.filterMap_congr fun line _ => ?_
  exact lineEvent_stripReturn hserde line

/-- One line adds the usage of its event. -/
theorem imageLine_snd (found : List Value × Usage) (line : List Char) :
    (imageLine serde found line).2 =
      (lineEvent serde line).elim found.2 fun event => found.2.merge (.fromValue event) := by
  unfold imageLine lineEvent
  split
  · cases serde.fromSlice (asBytes (String.ofList (line.drop 6))) <;> rfl
  · rfl

/-- The usage of a text is that of its events. -/
theorem foldl_imageLine_snd (lines : List (List Char)) (found : List Value × Usage) :
    (lines.foldl (imageLine serde) found).2 =
      ((lines.filterMap (lineEvent serde)).map .fromValue).foldl Usage.merge found.2 := by
  induction lines generalizing found with
  | nil => rfl
  | cons line lines ih =>
    rw [List.foldl_cons, ih, imageLine_snd, List.filterMap_cons]
    cases lineEvent serde line with
    | none => rfl
    | some event => rfl

end Text

/-- **Streamed usage does not depend on the chunks.** However a stream without a long line is cut
into chunks, each counter is the greatest, from zero on, over the complete data lines that parse;
and where the stream is a text that ends with a line feed, the usage is the one that the lines of
`images_from_sse` add up to. -/
theorem streamed_usage (hserde : serde.IgnoresBlanks) {chunks : List (List UInt8)}
    (hshort : ShortLines chunks.flatten) :
    (readChunks serde chunks).2 =
        .greatest ((byteEvents serde chunks.flatten).map .fromValue) ∧
      ∀ text, String.fromUTF8? ⟨chunks.flatten.toArray⟩ = some text →
        chunks.flatten.getLast? = some lineFeed →
        (readChunks serde chunks).2 =
          ((lines text.toList).foldl (imageLine serde) ([], .zero)).2 := by
  have husage := usage_readChunks hserde hshort
  refine ⟨husage, ?_⟩
  intro text htext hlast
  have hbytes := fromUTF8?_eq_some_iff.mp htext
  have hend : text.toList.getLast? = some '\n' :=
    getLast?_of_encoded (b := lineFeed) (by decide) rfl (hbytes ▸ hlast)
  rw [husage, foldl_imageLine_snd, ← hbytes, ← streamEvents_eq_byteEvents hserde hend]
  exact (foldl_merge _ .zero).symm

/-- A JSON text with a usage. -/
def countedText : List UInt8 := asBytes "\x7b\"usage\":\x7b\"input_tokens\":7\x7d\x7d"

/-- A parser of that text, blanks behind it left out. -/
def countedEvents : SerdeJson :=
  ⟨fun bytes =>
    if bytes.rdropWhile (· ∈ ([32, 9, 10, 13] : List UInt8)) = countedText then
      some (.object [("usage", .object [("input_tokens", .number (.integer 7))])])
    else none, fun _ => ""⟩

/-- Blanks behind a text change nothing. -/
theorem ignoresBlanks_countedEvents : countedEvents.IgnoresBlanks := by
  constructor
  · rfl
  · intro text blank hblank
    simp only [countedEvents, List.rdropWhile_concat, hblank, decide_true, if_true]

/-- A line with that text, cut in the field name and within the JSON. -/
def cutLine : List (List UInt8) :=
  [asBytes "da", asBytes "ta: \x7b\"usage\":\x7b\"in", asBytes "put_tokens\":7\x7d\x7d\r",
    asBytes "\n"]

/-- The statement at this line. -/
theorem streamed_usage_of_cut_line : (readChunks countedEvents cutLine).2 = ⟨7, 0, 0, 0⟩ := by
  have hshort : ShortLines cutLine.flatten := by
    intro stretch hstretch _
    have hlength := hstretch.length_le
    have hbytes : cutLine.flatten.length = 36 := by decide
    omega
  exact (streamed_usage ignoresBlanks_countedEvents hshort).1

end Lines

end OpenAiLb
