import Mathlib.Algebra.Group.Int.Defs
import OpenAiLb.Dispatch
import OpenAiLb.ImageSizes
import OpenAiLb.Library.Stoppable

/-!
# Translated requests

`transform_request` checks the JSON of an image request in one pass and reads it in another, with
accessors of its own. What the first pass lets through the second one finds: a default stands for
an absent field only. `serde_json::Map` keeps its fields sorted by name, so the objects that the
code builds are written in that order here.
-/

namespace OpenAiLb

/-- The fields of a JSON object. -/
abbrev Fields := List (String × Value)

/-- `Value::as_u64`. -/
def Value.asU64 : Value → Option ℕ
  | .number (.integer n) => if 0 ≤ n ∧ n < 2 ^ 64 then some n.toNat else none
  | _ => none

/-- `Map::insert`. -/
def insertField (name : String) (value : Value) : Fields → Fields
  | [] => [(name, value)]
  | field :: rest =>
    if name < field.1 then (name, value) :: field :: rest
    else if name = field.1 then (name, value) :: rest
    else field :: insertField name value rest

/-- `Map::remove`. -/
def removeField (name : String) (object : Fields) : Fields :=
  object.filter fun field => field.1 ≠ name

/-- `MAX_REFERENCE_IMAGES`. -/
def maxReferenceImages : ℕ := 4

/-- The MIME types of reference images. -/
def referenceImageTypes : List String :=
  ["image/png", "image/jpeg", "image/jpg", "image/webp", "image/gif"]

/-- `strip_prefix("data:")` and the filter on the MIME type. -/
def isReferenceMetadata (metadata : List Char) : Bool :=
  "data:".toList <+: metadata &&
    String.ofList (metadata.drop "data:".toList.length) ∈ referenceImageTypes

/-- `validate_reference_image_url`. -/
def validateReferenceImageUrl (imageUrl : String) : Except AppError Unit :=
  match splitOnce ";base64,".toList imageUrl.toList with
  | none => .error (.badRequest "reference images must be base64 data URLs")
  | some (metadata, encoded) =>
    if !isReferenceMetadata metadata || encoded.isEmpty then
      .error (.badRequest "reference images must be PNG, JPEG, WEBP, or GIF data URLs")
    else .ok ()

/-- The content item of a reference image. -/
def referenceInput (imageUrl : String) : Value :=
  .object [("detail", .string "auto"), ("image_url", .string imageUrl),
    ("type", .string "input_image")]

/-- The content item of one of the reference images. -/
def referenceImageInput (image : Value) : Except AppError Value :=
  match image.asStr with
  | none => .error (.badRequest "reference_images must contain strings")
  | some imageUrl => (validateReferenceImageUrl imageUrl).map fun _ => referenceInput imageUrl

/-- `reference_image_inputs`. -/
def referenceImageInputs (object : Fields) : Except AppError (List Value) :=
  match object.lookup "reference_images" with
  | none => .ok []
  | some value =>
    match value.asArray with
    | none => .error (.badRequest "reference_images must be an array")
    | some images =>
      if images.length > maxReferenceImages then
        .error (.badRequest s!"reference_images supports at most {maxReferenceImages} images")
      else images.mapM referenceImageInput

/-- A field that is there passes the check. -/
def checkField (object : Fields) (field : String) (check : Value → Except AppError Unit) :
    Except AppError Unit :=
  match object.lookup field with
  | none => .ok ()
  | some value => check value

/-- The check of `n`. -/
def checkN (value : Value) : Except AppError Unit :=
  if value.asI64 ≠ some 1 then .error (.badRequest "image generation supports integer n=1 only")
  else .ok ()

/-- The check of `stream`. -/
def checkStream (value : Value) : Except AppError Unit :=
  match value.asBool with
  | some false => .ok ()
  | some true => .error (.badRequest "streaming images are not supported by this endpoint")
  | none => .error (.badRequest "stream must be a boolean")

/-- The check of `response_format`. -/
def checkResponseFormat (value : Value) : Except AppError Unit :=
  if value.asStr ≠ some "b64_json" then
    .error (.badRequest "response_format must be the string b64_json")
  else .ok ()

/-- The check of `model`. -/
def checkModel (value : Value) : Except AppError Unit :=
  if value.asStr.all (· = "") then .error (.badRequest "model must be a non-empty string")
  else .ok ()

/-- The check of `size`. -/
def checkSize (model : Option String) (value : Value) : Except AppError Unit :=
  match value.asStr with
  | none => .error (.badRequest "size must be a string")
  | some size => validateImageSize size model

/-- `validate_enum`. -/
def validateEnum (object : Fields) (field : String) (allowed : List String) :
    Except AppError Unit :=
  checkField object field fun value =>
    match value.asStr with
    | none => .error (.badRequest s!"{field} must be a string")
    | some value =>
      if value ∈ allowed then .ok () else .error (.badRequest s!"unsupported {field}")

/-- The check of `output_compression`. -/
def checkOutputCompression (value : Value) : Except AppError Unit :=
  match value.asI64 with
  | none => .error (.badRequest "output_compression must be an integer from 0 to 100")
  | some compression =>
    if 0 ≤ compression ∧ compression ≤ 100 then .ok ()
    else .error (.badRequest "output_compression must be 0-100")

/-- A string field of an object. -/
def stringField (object : Fields) (field : String) : Option String :=
  (object.lookup field).bind Value.asStr

/-- `validate_image_request`. -/
def validateImageRequest (object : Fields) : Except AppError Unit := do
  checkField object "n" checkN
  checkField object "stream" checkStream
  checkField object "response_format" checkResponseFormat
  checkField object "model" checkModel
  checkField object "size" (checkSize (stringField object "model"))
  validateEnum object "quality" ["auto", "low", "medium", "high"]
  validateEnum object "background" ["auto", "opaque", "transparent"]
  validateEnum object "output_format" ["png", "jpeg", "webp"]
  validateEnum object "moderation" ["auto", "low"]
  let _ ← referenceImageInputs object
  checkField object "output_compression" checkOutputCompression

/-- The instructions of a translated image request. -/
def imageInstructions : String :=
  "You are an image generator. You MUST call image_generation exactly once and return only " ++
    "that tool call. Mirror the user's request verbatim into the prompt argument."

/-- The tool of a translated image request. -/
def imageTool (imageModel size quality background outputFormat : String)
    (outputCompression : ℕ) (moderation : String) : Value :=
  .object [("background", .string background), ("model", .string imageModel),
    ("moderation", .string moderation),
    ("output_compression", .number (.integer outputCompression)),
    ("output_format", .string outputFormat), ("quality", .string quality),
    ("size", .string size), ("type", .string "image_generation")]

/-- The content item of the prompt. -/
def promptInput (prompt : String) : Value :=
  .object [("text", .string prompt), ("type", .string "input_text")]

/-- The user message of a translated image request. -/
def userMessage (content : List Value) : Value :=
  .object [("content", .array content), ("role", .string "user"), ("type", .string "message")]

/-- A translated image request. -/
def translatedRequest (imageHostModel : String) (content : List Value) (tool : Value) : Value :=
  .object [("input", .array [userMessage content]), ("instructions", .string imageInstructions),
    ("model", .string imageHostModel), ("store", .bool false), ("stream", .bool true),
    ("tool_choice", .object [("type", .string "image_generation")]), ("tools", .array [tool])]

/-- The branch of `transform_request` for images, up to its `to_vec`. -/
def translateImageRequest (imageHostModel : String) (object : Fields) : Except AppError Value := do
  validateImageRequest object
  let prompt ← (stringField object "prompt").elim (.error (.badRequest "prompt is required")) .ok
  let imageModel := (stringField object "model").getD "gpt-image-1"
  let size := (stringField object "size").getD "1024x1024"
  let quality := (stringField object "quality").getD "auto"
  let background := (stringField object "background").getD "auto"
  let outputFormat := (stringField object "output_format").getD "png"
  let outputCompression := ((object.lookup "output_compression").bind Value.asU64).getD 100
  let moderation := (stringField object "moderation").getD "auto"
  let referenceImages ← referenceImageInputs object
  let content := promptInput prompt :: referenceImages
  pure (translatedRequest imageHostModel content
    (imageTool imageModel size quality background outputFormat outputCompression moderation))

/-- The other branch of `transform_request`, up to its `to_vec`. -/
def transformObject (path : String) (object : Fields) : Fields :=
  let object := if (object.lookup "instructions").isSome then object
    else insertField "instructions" (.string "") object
  if "/compact".toList <:+ path.toList then object
  else removeField "temperature" (removeField "max_output_tokens"
    (insertField "store" (.bool false) object))

/-- `transform_request`, with the model of the configuration. -/
def transformRequest (serde : SerdeJson) (imageHostModel path : String) (parsed : Option Value) :
    Except AppError (List UInt8) :=
  match parsed with
  | none => .error (.badRequest "JSON request body required")
  | some (.object object) =>
    if path = imagesPath then
      (translateImageRequest imageHostModel object).map fun value => asBytes (serde.toString value)
    else .ok (asBytes (serde.toString (.object (transformObject path object))))
  | some _ => .error (.badRequest "JSON object required")

section Insertion

/-- A field after another one was set. -/
theorem lookup_insertField (name : String) (value : Value) (object : Fields) (key : String) :
    (insertField name value object).lookup key =
      if key = name then some value else object.lookup key := by
  induction object with
  | nil =>
    rw [insertField, List.lookup_cons]
    by_cases heq : key = name
    · simp [heq]
    · rw [if_neg heq, beq_eq_false_iff_ne.mpr heq]
  | cons field rest ih =>
    unfold insertField
    by_cases heq : key = name
    · rw [if_pos heq]
      split
      · simp [heq]
      · split
        · simp [heq]
        · next hne =>
          rw [List.lookup_cons, ih, if_pos heq, heq, beq_eq_false_iff_ne.mpr hne]
    · rw [if_neg heq]
      have hkey : (key == name) = false := beq_eq_false_iff_ne.mpr heq
      split
      · rw [List.lookup_cons, hkey]
      · split
        · next hname => rw [List.lookup_cons, hkey, List.lookup_cons, ← hname, hkey]
        · rw [List.lookup_cons, ih, if_neg heq, List.lookup_cons]

/-- A field after another one was removed. -/
theorem lookup_removeField (name : String) (object : Fields) (key : String) :
    (removeField name object).lookup key = if key = name then none else object.lookup key := by
  unfold removeField
  induction object with
  | nil => simp
  | cons field rest ih =>
    rw [List.filter_cons]
    by_cases hname : field.1 = name
    · rw [if_neg (by simp [hname]), ih, List.lookup_cons, hname]
      by_cases heq : key = name
      · rw [if_pos heq, if_pos heq]
      · rw [if_neg heq, if_neg heq, beq_eq_false_iff_ne.mpr heq]
    · rw [if_pos (by simp [hname]), List.lookup_cons, ih, List.lookup_cons]
      by_cases heq : key = name
      · rw [if_pos heq, heq, beq_eq_false_iff_ne.mpr (Ne.symm hname), if_pos rfl]
      · rw [if_neg heq, if_neg heq]

/-- **What a request becomes that is not for images**: its own fields, and empty instructions where
it has none; unless it is a compaction, it is not stored, and two of its parameters are dropped. -/
theorem lookup_transformObject (path : String) (object : Fields) (key : String) :
    (transformObject path object).lookup key =
      if key = "instructions" then some ((object.lookup "instructions").getD (.string ""))
      else if "/compact".toList <:+ path.toList then object.lookup key
      else if key ∈ ["temperature", "max_output_tokens"] then none
      else if key = "store" then some (.bool false)
      else object.lookup key := by
  have hinstructions : (if (object.lookup "instructions").isSome then object
      else insertField "instructions" (.string "") object).lookup key =
        if key = "instructions" then some ((object.lookup "instructions").getD (.string ""))
        else object.lookup key := by
    cases hlookup : object.lookup "instructions" with
    | none => simp [lookup_insertField]
    | some value =>
      rw [Option.isSome_some, if_pos rfl, Option.getD_some]
      by_cases heq : key = "instructions"
      · rw [if_pos heq, heq, hlookup]
      · rw [if_neg heq]
  have hdropped (object : Fields) :
      (removeField "temperature" (removeField "max_output_tokens" object)).lookup key =
        if key ∈ ["temperature", "max_output_tokens"] then none else object.lookup key := by
    rw [lookup_removeField, lookup_removeField]
    by_cases htemperature : key = "temperature"
    · simp [htemperature]
    · by_cases htokens : key = "max_output_tokens"
      · simp [htokens]
      · simp [htemperature, htokens]
  unfold transformObject
  dsimp only
  by_cases hcompact : "/compact".toList <:+ path.toList
  · rw [if_pos hcompact, hinstructions, if_pos hcompact]
  · rw [if_neg hcompact, hdropped, lookup_insertField, hinstructions, if_neg hcompact]
    by_cases hkey : key = "instructions"
    · have hother : key ∉ ["temperature", "max_output_tokens"] ∧ key ≠ "store" := by
        rw [hkey]
        decide
      rw [if_neg hother.1, if_neg hother.2, if_pos hkey, if_pos hkey]
    · rw [if_neg hkey, if_neg hkey]

end Insertion

section References

variable {imageUrl : String} {object : Fields}

/-- `data:MIME;base64,DATA` with one of the MIME types and some data. -/
def IsReferenceImage (imageUrl : String) : Prop :=
  ∃ mime ∈ referenceImageTypes, ∃ encoded ≠ [],
    imageUrl.toList = "data:".toList ++ mime.toList ++ ";base64,".toList ++ encoded

/-- The metadata of a reference image name one of the admitted types. -/
theorem isReferenceMetadata_iff {metadata : List Char} :
    isReferenceMetadata metadata = true ↔
      ∃ mime ∈ referenceImageTypes, metadata = "data:".toList ++ mime.toList := by
  unfold isReferenceMetadata
  rw [Bool.and_eq_true, decide_eq_true_eq, decide_eq_true_eq]
  constructor
  · rintro ⟨⟨mime, rfl⟩, hmem⟩
    rw [List.drop_left] at hmem
    exact ⟨_, hmem, congrArg ("data:".toList ++ ·) String.toList_ofList.symm⟩
  · rintro ⟨mime, hmem, rfl⟩
    refine ⟨List.prefix_append .., ?_⟩
    rwa [List.drop_left, String.ofList_toList]

/-- The metadata of a reference image has no semicolon. -/
theorem not_mem_metadata : ∀ mime ∈ referenceImageTypes, ';' ∉ "data:".toList ++ mime.toList := by
  decide

/-- **The reference images that are let through.** -/
theorem validateReferenceImageUrl_eq_ok_iff :
    validateReferenceImageUrl imageUrl = .ok () ↔ IsReferenceImage imageUrl := by
  unfold validateReferenceImageUrl
  constructor
  · intro h
    split at h
    · cases h
    · next metadata encoded hsplit =>
      split at h
      · cases h
      · next hok =>
        rw [Bool.or_eq_true, not_or, Bool.not_eq_true, Bool.not_eq_false',
          Bool.not_eq_true, List.isEmpty_eq_false_iff, isReferenceMetadata_iff] at hok
        obtain ⟨⟨mime, hmem, rfl⟩, hencoded⟩ := hok
        exact ⟨mime, hmem, encoded, hencoded, eq_of_splitOnce hsplit⟩
  · rintro ⟨mime, hmem, encoded, hencoded, htext⟩
    have hsplit := splitOnce_append "base64,".toList encoded
      (not_mem_metadata mime hmem)
    have hmetadata := isReferenceMetadata_iff.mpr ⟨mime, hmem, rfl⟩
    rw [htext, show ";base64,".toList = ';' :: "base64,".toList from rfl, hsplit]
    dsimp only
    rw [hmetadata, List.isEmpty_eq_false_iff.mpr hencoded]
    rfl

/-- A reference image is accepted if it is a text that holds one, and is handed on as input. -/
theorem referenceImageInput_eq_ok_iff {image item : Value} :
    referenceImageInput image = .ok item ↔
      ∃ imageUrl, image = .string imageUrl ∧ IsReferenceImage imageUrl ∧
        item = referenceInput imageUrl := by
  cases image with
  | string imageUrl =>
    have hcheck : referenceImageInput (.string imageUrl) =
        (validateReferenceImageUrl imageUrl).map fun _ => referenceInput imageUrl := rfl
    rw [hcheck, Stoppable.map_eq_ok]
    constructor
    · rintro ⟨_, hvalid, hitem⟩
      exact ⟨imageUrl, rfl, validateReferenceImageUrl_eq_ok_iff.mp hvalid, hitem.symm⟩
    · rintro ⟨imageUrl', heq, hvalid, hitem⟩
      obtain rfl := Value.string.inj heq
      exact ⟨(), validateReferenceImageUrl_eq_ok_iff.mpr hvalid, hitem.symm⟩
  | _ =>
    refine iff_of_false nofun ?_
    rintro ⟨imageUrl, heq, -⟩
    cases heq

/-- Every image of an array is a reference image, and becomes a content item. -/
theorem mapM_referenceImageInput_eq_ok_iff {images items : List Value} :
    images.mapM referenceImageInput = .ok items ↔
      ∃ urls : List String, images = urls.map .string ∧ (∀ url ∈ urls, IsReferenceImage url) ∧
        items = urls.map referenceInput := by
  induction images generalizing items with
  | nil =>
    rw [List.mapM_nil]
    constructor
    · rintro ⟨⟩
      exact ⟨[], rfl, nofun, rfl⟩
    · rintro ⟨urls, hnil, -, rfl⟩
      rw [List.map_eq_nil_iff.mp hnil.symm]
      rfl
  | cons image images ih =>
    rw [List.mapM_cons, Stoppable.bind_eq_ok]
    constructor
    · rintro ⟨item, hitem, h⟩
      obtain ⟨items', hitems, heq⟩ := Stoppable.bind_eq_ok.mp h
      obtain rfl := Except.ok.inj heq
      obtain ⟨url, rfl, hurl, rfl⟩ := referenceImageInput_eq_ok_iff.mp hitem
      obtain ⟨urls, rfl, hurls, rfl⟩ := ih.mp hitems
      exact ⟨url :: urls, rfl, List.forall_mem_cons.mpr ⟨hurl, hurls⟩, rfl⟩
    · rintro ⟨urls, heq, hurls, rfl⟩
      cases urls with
      | nil => cases heq
      | cons url urls =>
        obtain ⟨rfl, rfl⟩ := List.cons.inj heq
        obtain ⟨hurl, hurls⟩ := List.forall_mem_cons.mp hurls
        exact ⟨_, referenceImageInput_eq_ok_iff.mpr ⟨url, rfl, hurl, rfl⟩,
          Stoppable.bind_eq_ok.mpr ⟨_, ih.mpr ⟨urls, rfl, hurls, rfl⟩, rfl⟩⟩

/-- An array of at most four reference images. -/
def AreReferenceImages (value : Value) (urls : List String) : Prop :=
  value = .array (urls.map .string) ∧ urls.length ≤ maxReferenceImages ∧
    ∀ url ∈ urls, IsReferenceImage url

/-- **The content items of the reference images**: one for each, in order. -/
theorem referenceImageInputs_eq_ok_iff {items : List Value} :
    referenceImageInputs object = .ok items ↔
      ∃ urls, AreReferenceImages ((object.lookup "reference_images").getD (.array [])) urls ∧
        items = urls.map referenceInput := by
  unfold referenceImageInputs
  cases hlookup : object.lookup "reference_images" with
  | none =>
    constructor
    · rintro ⟨⟩
      exact ⟨[], ⟨rfl, by decide, nofun⟩, rfl⟩
    · rintro ⟨urls, ⟨hnil, -⟩, rfl⟩
      have hurls : urls = [] := List.map_eq_nil_iff.mp (Value.array.inj hnil).symm
      rw [hurls]
      rfl
  | some value =>
    cases value with
    | array images =>
      simp only [Value.asArray, Option.getD_some]
      split
      · next hlong =>
        refine iff_of_false nofun ?_
        rintro ⟨urls, ⟨heq, hshort, -⟩, -⟩
        rw [Value.array.inj heq, List.length_map] at hlong
        omega
      · next hshort =>
        rw [mapM_referenceImageInput_eq_ok_iff]
        refine exists_congr fun urls => ?_
        constructor
        · rintro ⟨rfl, hurls, hitems⟩
          rw [List.length_map] at hshort
          exact ⟨⟨rfl, by omega, hurls⟩, hitems⟩
        · rintro ⟨⟨heq, -, hurls⟩, hitems⟩
          exact ⟨Value.array.inj heq, hurls, hitems⟩
    | _ =>
      refine iff_of_false nofun ?_
      rintro ⟨urls, ⟨heq, -⟩, -⟩
      cases heq

end References

section Fields

variable {object : Fields} {field : String}

/-- A field that is there has an allowed value. -/
def Allows (object : Fields) (field : String) (allowed : Value → Prop) : Prop :=
  ∀ value, object.lookup field = some value → allowed value

/-- One of the strings. -/
def IsOneOf (allowed : List String) (value : Value) : Prop := ∃ text ∈ allowed, value = .string text

/-- The other fields of an image request: each of them that is there has an allowed type and
value, where the sizes are those that a model has. -/
structure AllowsFields (sizes : String → Option String → Prop) (object : Fields) : Prop where
  n : Allows object "n" fun value => value = .number (.integer 1)
  stream : Allows object "stream" fun value => value = .bool false
  responseFormat : Allows object "response_format" fun value => value = .string "b64_json"
  model : Allows object "model" fun value => ∃ name, name ≠ "" ∧ value = .string name
  size : Allows object "size" fun value =>
    ∃ size, sizes size (stringField object "model") ∧ value = .string size
  quality : Allows object "quality" (IsOneOf ["auto", "low", "medium", "high"])
  background : Allows object "background" (IsOneOf ["auto", "opaque", "transparent"])
  outputFormat : Allows object "output_format" (IsOneOf ["png", "jpeg", "webp"])
  moderation : Allows object "moderation" (IsOneOf ["auto", "low"])
  referenceImages : Allows object "reference_images" fun value =>
    ∃ urls, AreReferenceImages value urls
  outputCompression : Allows object "output_compression" fun value =>
    ∃ percent : ℕ, percent ≤ 100 ∧ value = .number (.integer percent)

/-- The field is checked if it is there. -/
theorem checkField_eq_ok_iff {check : Value → Except AppError Unit} {allowed : Value → Prop}
    (hcheck : ∀ value, check value = .ok () ↔ allowed value) :
    checkField object field check = .ok () ↔ Allows object field allowed := by
  unfold checkField Allows
  cases object.lookup field with
  | none => exact iff_of_true rfl nofun
  | some value =>
    dsimp only
    rw [hcheck value]
    constructor
    · rintro hallowed value' ⟨⟩
      exact hallowed
    · exact fun hall => hall value rfl

/-- Only one image may be asked for. -/
theorem checkN_eq_ok_iff (value : Value) :
    checkN value = .ok () ↔ value = .number (.integer 1) := by
  unfold checkN
  have hone : value.asI64 = some 1 ↔ value = .number (.integer 1) := by
    cases value with
    | number number =>
      cases number with
      | integer n =>
        rw [Value.asI64, Option.ite_none_right_eq_some]
        constructor
        · rintro ⟨-, heq⟩
          rw [Option.some.inj heq]
        · intro heq
          obtain rfl := Number.integer.inj (Value.number.inj heq)
          exact ⟨by decide, rfl⟩
      | float text => exact iff_of_false nofun nofun
    | _ => exact iff_of_false nofun nofun
  rw [← hone]
  split
  · next hne => exact iff_of_false nofun hne
  · next heq => exact iff_of_true rfl (not_not.mp heq)

/-- Streaming may only be switched off. -/
theorem checkStream_eq_ok_iff (value : Value) :
    checkStream value = .ok () ↔ value = .bool false := by
  cases value with
  | bool b => cases b <;> simp [checkStream, Value.asBool]
  | _ => exact iff_of_false nofun nofun

/-- Images may only come as base64. -/
theorem checkResponseFormat_eq_ok_iff (value : Value) :
    checkResponseFormat value = .ok () ↔ value = .string "b64_json" := by
  unfold checkResponseFormat
  rw [← asStr_eq_some_iff]
  split
  · next hne => exact iff_of_false nofun hne
  · next heq => exact iff_of_true rfl (not_not.mp heq)

/-- The model is a text that is not empty. -/
theorem checkModel_eq_ok_iff (value : Value) :
    checkModel value = .ok () ↔ ∃ name, name ≠ "" ∧ value = .string name := by
  cases value with
  | string name => by_cases hempty : name = "" <;> simp [checkModel, Value.asStr, hempty]
  | _ => simp [checkModel, Value.asStr]

/-- The size is a text that is accepted for the model. -/
theorem checkSize_eq_ok_iff (model : Option String) (value : Value) :
    checkSize model value = .ok () ↔
      ∃ size, IsAcceptedSize size model ∧ value = .string size := by
  cases value with
  | string size =>
    have hcheck : checkSize model (.string size) = validateImageSize size model := rfl
    rw [hcheck, validateImageSize_eq_ok_iff]
    simp
  | _ => exact iff_of_false nofun nofun

/-- A field with an enumeration may be left out, or be one of its values. -/
theorem validateEnum_eq_ok_iff {allowed : List String} :
    validateEnum object field allowed = .ok () ↔ Allows object field (IsOneOf allowed) := by
  refine checkField_eq_ok_iff fun value => ?_
  cases value with
  | string text => by_cases hmem : text ∈ allowed <;> simp [Value.asStr, IsOneOf, hmem]
  | _ => simp [Value.asStr, IsOneOf]

/-- The compression is a percentage. -/
theorem checkOutputCompression_eq_ok_iff (value : Value) :
    checkOutputCompression value = .ok () ↔
      ∃ percent : ℕ, percent ≤ 100 ∧ value = .number (.integer percent) := by
  unfold checkOutputCompression
  cases value with
  | number number =>
    cases number with
    | integer n =>
      by_cases hrange : 0 ≤ n ∧ n ≤ 100
      · have hi64 : IsI64 n := by
          unfold IsI64 i64Min i64Max
          omega
        rw [Value.asI64, if_pos hi64]
        dsimp only
        rw [if_pos hrange]
        refine iff_of_true rfl ⟨n.toNat, by omega, ?_⟩
        rw [Int.toNat_of_nonneg hrange.1]
      · have hrejected : ¬ ∃ percent : ℕ, percent ≤ 100 ∧
            Value.number (.integer n) = .number (.integer percent) := by
          rintro ⟨percent, hle, heq⟩
          have hn := Number.integer.inj (Value.number.inj heq)
          omega
        refine iff_of_false ?_ hrejected
        rw [Value.asI64]
        by_cases hi64 : IsI64 n
        · rw [if_pos hi64]
          dsimp only
          rw [if_neg hrange]
          nofun
        · rw [if_neg hi64]
          nofun
    | float text => exact iff_of_false nofun nofun
  | _ => exact iff_of_false nofun nofun

/-- The reference images may be left out, or be a list of images. -/
theorem allows_referenceImages_iff :
    (∃ items, referenceImageInputs object = .ok items) ↔
      Allows object "reference_images" fun value => ∃ urls, AreReferenceImages value urls := by
  unfold Allows
  constructor
  · rintro ⟨items, hitems⟩ value hvalue
    obtain ⟨urls, hurls, -⟩ := referenceImageInputs_eq_ok_iff.mp hitems
    rw [hvalue] at hurls
    exact ⟨urls, hurls⟩
  · intro hall
    cases hlookup : object.lookup "reference_images" with
    | none =>
      refine ⟨[], referenceImageInputs_eq_ok_iff.mpr ⟨[], ?_, rfl⟩⟩
      rw [hlookup]
      exact ⟨rfl, by decide, nofun⟩
    | some value =>
      obtain ⟨urls, hurls⟩ := hall value hlookup
      refine ⟨_, referenceImageInputs_eq_ok_iff.mpr ⟨urls, ?_, rfl⟩⟩
      rw [hlookup]
      exact hurls

/-- **What the validation lets through**: every field that is there has an allowed value, and a
custom size may have signs. -/
theorem validateImageRequest_eq_ok_iff :
    validateImageRequest object = .ok () ↔ AllowsFields IsAcceptedSize object := by
  unfold validateImageRequest
  rw [Stoppable.check_bind_eq_ok, checkField_eq_ok_iff checkN_eq_ok_iff,
    Stoppable.check_bind_eq_ok, checkField_eq_ok_iff checkStream_eq_ok_iff,
    Stoppable.check_bind_eq_ok, checkField_eq_ok_iff checkResponseFormat_eq_ok_iff,
    Stoppable.check_bind_eq_ok, checkField_eq_ok_iff checkModel_eq_ok_iff,
    Stoppable.check_bind_eq_ok, checkField_eq_ok_iff (checkSize_eq_ok_iff _),
    Stoppable.check_bind_eq_ok, validateEnum_eq_ok_iff,
    Stoppable.check_bind_eq_ok, validateEnum_eq_ok_iff,
    Stoppable.check_bind_eq_ok, validateEnum_eq_ok_iff,
    Stoppable.check_bind_eq_ok, validateEnum_eq_ok_iff,
    Stoppable.bind_eq_ok, exists_and_right, allows_referenceImages_iff,
    checkField_eq_ok_iff checkOutputCompression_eq_ok_iff]
  constructor
  · rintro ⟨hn, hstream, hformat, hmodel, hsize, hquality, hbackground, houtput, hmoderation,
      hreferences, hcompression⟩
    exact ⟨hn, hstream, hformat, hmodel, hsize, hquality, hbackground, houtput, hmoderation,
      hreferences, hcompression⟩
  · rintro ⟨hn, hstream, hformat, hmodel, hsize, hquality, hbackground, houtput, hmoderation,
      hreferences, hcompression⟩
    exact ⟨hn, hstream, hformat, hmodel, hsize, hquality, hbackground, houtput, hmoderation,
      hreferences, hcompression⟩

end Fields

section Translation

variable {serde : SerdeJson} {imageHostModel : String} {object : Fields}
  {sizes sizes' : String → Option String → Prop}

/-- An image request: a prompt, and an allowed value in every other field that is there. -/
structure IsImageRequest (sizes : String → Option String → Prop) (object : Fields) : Prop extends
    AllowsFields sizes object where
  prompt : ∃ text, object.lookup "prompt" = some (.string text)

/-- An image request is one for other sizes as well when they have the size that it asks for. -/
theorem IsImageRequest.resize (h : IsImageRequest sizes object)
    (hsize : ∀ size, object.lookup "size" = some (.string size) →
      sizes size (stringField object "model") → sizes' size (stringField object "model")) :
    IsImageRequest sizes' object := by
  refine { h with size := ?_ }
  intro value hvalue
  obtain ⟨size, hallowed, rfl⟩ := h.size value hvalue
  exact ⟨size, hsize size hvalue hallowed, rfl⟩

/-- The fields of a request that the tool carries, with what stands for an absent field. -/
def toolDefaults : Fields :=
  [("model", .string "gpt-image-1"), ("size", .string "1024x1024"), ("quality", .string "auto"),
    ("background", .string "auto"), ("output_format", .string "png"),
    ("output_compression", .number (.integer 100)), ("moderation", .string "auto")]

/-- The translated request has one tool, with the values of the request, and one message of the
user, with the prompt and the reference images. -/
structure Carries (object : Fields) (prompt : String) (urls : List String) (translated : Value) :
    Prop where
  tool : ∃ tool, translated.get "tools" = some (.array [tool]) ∧
    tool.get "type" = some (.string "image_generation") ∧
    ∀ entry ∈ toolDefaults, tool.get entry.1 = some ((object.lookup entry.1).getD entry.2)
  message : ∃ message, translated.get "input" = some (.array [message]) ∧
    message.get "role" = some (.string "user") ∧
    message.get "content" = some (.array (promptInput prompt :: urls.map referenceInput))

/-- A string field is read as it was supplied. -/
theorem string_stringField {field : String} {allowed : Value → Prop}
    (h : Allows object field allowed)
    (hstring : ∀ value, allowed value → ∃ text, value = .string text) (default : String) :
    Value.string ((stringField object field).getD default) =
      (object.lookup field).getD (.string default) := by
  unfold stringField
  cases hlookup : object.lookup field with
  | none => rfl
  | some value =>
    obtain ⟨text, rfl⟩ := hstring value (h value hlookup)
    rfl

/-- A value of an enumeration is a text. -/
theorem IsOneOf.string {allowed : List String} {value : Value} (h : IsOneOf allowed value) :
    ∃ text, value = .string text := by
  obtain ⟨text, -, heq⟩ := h
  exact ⟨text, heq⟩

/-- The compression is read as it was supplied, although by another accessor than in its check. -/
theorem number_outputCompression (h : AllowsFields sizes object) :
    Value.number (.integer
        (((object.lookup "output_compression").bind Value.asU64).getD 100 : ℕ)) =
      (object.lookup "output_compression").getD (.number (.integer 100)) := by
  cases hlookup : object.lookup "output_compression" with
  | none => rfl
  | some value =>
    obtain ⟨percent, hle, rfl⟩ := h.outputCompression value hlookup
    have hu64 : 0 ≤ (percent : Int) ∧ (percent : Int) < 2 ^ 64 := by omega
    rw [Option.bind_some, Value.asU64, if_pos hu64]
    simp

/-- **What a translated request carries.** -/
theorem carries_translatedRequest (h : AllowsFields sizes object) (prompt : String)
    (urls : List String) :
    Carries object prompt urls (translatedRequest imageHostModel
      (promptInput prompt :: urls.map referenceInput)
      (imageTool ((stringField object "model").getD "gpt-image-1")
        ((stringField object "size").getD "1024x1024")
        ((stringField object "quality").getD "auto")
        ((stringField object "background").getD "auto")
        ((stringField object "output_format").getD "png")
        (((object.lookup "output_compression").bind Value.asU64).getD 100)
        ((stringField object "moderation").getD "auto"))) := by
  refine ⟨⟨_, rfl, rfl, ?_⟩, ⟨_, rfl, rfl, rfl⟩⟩
  have hmodel := string_stringField h.model (fun _ ⟨name, _, heq⟩ => ⟨name, heq⟩) "gpt-image-1"
  have hsize := string_stringField h.size (fun _ ⟨size, _, heq⟩ => ⟨size, heq⟩) "1024x1024"
  have hquality := string_stringField h.quality (fun _ => IsOneOf.string) "auto"
  have hbackground := string_stringField h.background (fun _ => IsOneOf.string) "auto"
  have hformat := string_stringField h.outputFormat (fun _ => IsOneOf.string) "png"
  have hmoderation := string_stringField h.moderation (fun _ => IsOneOf.string) "auto"
  simp only [toolDefaults, List.forall_mem_cons]
  exact ⟨congrArg some hmodel, congrArg some hsize, congrArg some hquality,
    congrArg some hbackground, congrArg some hformat,
    congrArg some (number_outputCompression h), congrArg some hmoderation, nofun⟩

/-- The translation succeeds for what was validated, and carries its values. -/
theorem translateImageRequest_eq_ok {translated : Value}
    (h : translateImageRequest imageHostModel object = .ok translated) :
    AllowsFields IsAcceptedSize object ∧ ∃ prompt urls,
      object.lookup "prompt" = some (.string prompt) ∧
      AreReferenceImages ((object.lookup "reference_images").getD (.array [])) urls ∧
      Carries object prompt urls translated := by
  unfold translateImageRequest at h
  obtain ⟨hvalid, h⟩ := Stoppable.check_bind_eq_ok.mp h
  obtain ⟨prompt, hprompt, h⟩ := Stoppable.bind_eq_ok.mp h
  obtain ⟨items, hitems, h⟩ := Stoppable.bind_eq_ok.mp h
  have hfields := validateImageRequest_eq_ok_iff.mp hvalid
  obtain ⟨urls, hurls, rfl⟩ := referenceImageInputs_eq_ok_iff.mp hitems
  obtain rfl := Except.ok.inj h
  refine ⟨hfields, prompt, urls, ?_, hurls, carries_translatedRequest hfields prompt urls⟩
  cases hfield : stringField object "prompt" with
  | none =>
    rw [hfield] at hprompt
    cases hprompt
  | some text =>
    rw [hfield] at hprompt
    obtain rfl := Except.ok.inj hprompt
    obtain ⟨value, hlookup, htext⟩ := Option.bind_eq_some_iff.mp hfield
    rw [hlookup, asStr_eq_some_iff.mp htext]

/-- What was validated is translated. -/
theorem IsImageRequest.translates (imageHostModel : String)
    (h : IsImageRequest IsAcceptedSize object) :
    ∃ translated, translateImageRequest imageHostModel object = .ok translated := by
  obtain ⟨prompt, hprompt⟩ := h.prompt
  have hvalid := validateImageRequest_eq_ok_iff.mpr h.toAllowsFields
  obtain ⟨items, hitems⟩ := allows_referenceImages_iff.mpr h.referenceImages
  have hfield : stringField object "prompt" = some prompt := by
    rw [stringField, hprompt]
    rfl
  unfold translateImageRequest
  refine ⟨_, Stoppable.check_bind_eq_ok.mpr ⟨hvalid, Stoppable.bind_eq_ok.mpr ⟨prompt, ?_,
    Stoppable.bind_eq_ok.mpr ⟨items, hitems, rfl⟩⟩⟩⟩
  rw [hfield]
  rfl

/-- The translation succeeds exactly for the image requests with a validated size, and carries their
values. -/
theorem transformRequest_images (serde : SerdeJson) (imageHostModel : String) (object : Fields) :
    ((∃ body, transformRequest serde imageHostModel imagesPath (some (.object object)) =
        .ok body) ↔ IsImageRequest IsAcceptedSize object) ∧
    ∀ body, transformRequest serde imageHostModel imagesPath (some (.object object)) = .ok body →
      ∃ prompt urls translated, body = asBytes (serde.toString translated) ∧
        object.lookup "prompt" = some (.string prompt) ∧
        AreReferenceImages ((object.lookup "reference_images").getD (.array [])) urls ∧
        Carries object prompt urls translated := by
  have hrequest : transformRequest serde imageHostModel imagesPath (some (.object object)) =
      (translateImageRequest imageHostModel object).map fun value =>
        asBytes (serde.toString value) := by
    rw [transformRequest, if_pos rfl]
  simp only [hrequest, Stoppable.map_eq_ok]
  constructor
  · constructor
    · rintro ⟨body, translated, htranslated, -⟩
      obtain ⟨hfields, prompt, -, hprompt, -⟩ := translateImageRequest_eq_ok htranslated
      exact ⟨hfields, prompt, hprompt⟩
    · intro h
      obtain ⟨translated, htranslated⟩ := h.translates imageHostModel
      exact ⟨_, translated, htranslated, rfl⟩
  · rintro body ⟨translated, htranslated, rfl⟩
    obtain ⟨-, prompt, urls, hprompt, hurls, hcarries⟩ := translateImageRequest_eq_ok htranslated
    exact ⟨prompt, urls, translated, rfl, hprompt, hurls, hcarries⟩

/-- **A translated image request is exactly what was validated.** The translation of a JSON object
succeeds exactly when its prompt is a string and every other field that is there has an allowed
type and value, where the sizes are the documented ones; and then the body has one tool and one
message, which carry the prompt, each supplied value and the reference images as they came, with a
default for an absent field only. -/
structure TranslatesExactly (serde : SerdeJson) (imageHostModel : String) (object : Fields) :
    Prop where
  succeeds : (∃ body, transformRequest serde imageHostModel imagesPath (some (.object object)) =
    .ok body) ↔ IsImageRequest IsDocumentedSize object
  carries : ∀ body,
    transformRequest serde imageHostModel imagesPath (some (.object object)) = .ok body →
      ∃ prompt urls translated, body = asBytes (serde.toString translated) ∧
        object.lookup "prompt" = some (.string prompt) ∧
        AreReferenceImages ((object.lookup "reference_images").getD (.array [])) urls ∧
        Carries object prompt urls translated

/-- An image request but for its size, which is a custom size with a sign. -/
def AsksSignedSize (object : Fields) : Prop :=
  IsImageRequest IsSignedSize object ∧ ∃ value, object.lookup "size" = some value

/-- An image request for signed sizes has no documented one. -/
theorem AsksSignedSize.not_documented (h : AsksSignedSize object) :
    ¬ IsImageRequest IsDocumentedSize object := by
  obtain ⟨hsigned, value, hvalue⟩ := h
  intro hdocumented
  obtain ⟨size, hsize, rfl⟩ := hsigned.size value hvalue
  obtain ⟨size', hsize', heq⟩ := hdocumented.size _ hvalue
  obtain rfl := Value.string.inj heq
  exact hsize.not_documented hsize'

/-- **Which requests are translated exactly**: all but those that ask for a custom size with a sign
and are image requests otherwise. -/
theorem image_request_translated_iff (serde : SerdeJson) (imageHostModel : String)
    (object : Fields) :
    TranslatesExactly serde imageHostModel object ↔ ¬ AsksSignedSize object := by
  obtain ⟨hsucceeds, hcarries⟩ := transformRequest_images serde imageHostModel object
  constructor
  · intro h hsigned
    have haccepted := hsigned.1.resize fun _ _ hsize => isAcceptedSize_iff.mpr (Or.inr hsize)
    exact hsigned.not_documented (h.succeeds.mp (hsucceeds.mpr haccepted))
  · intro hplain
    refine ⟨hsucceeds.trans ⟨fun haccepted => ?_, fun hdocumented => ?_⟩, hcarries⟩
    · refine haccepted.resize fun size hlookup hsize => ?_
      rcases isAcceptedSize_iff.mp hsize with hdocumented | hsigned
      · exact hdocumented
      · refine absurd ⟨haccepted.resize fun size' hlookup' _ => ?_, _, hlookup⟩ hplain
        -- There is one size in the object, and it is signed.
        obtain rfl := Value.string.inj (Option.some.inj (hlookup.symm.trans hlookup'))
        exact hsigned
    · exact hdocumented.resize fun _ _ hsize => isAcceptedSize_iff.mpr (Or.inl hsize)

/-- A request for a size with a sign. -/
def signedRequest : Fields :=
  [("model", .string "gpt-image-2"), ("prompt", .string "diagram"), ("size", .string "+1024x1024")]

/-- It is translated, although its size is not allowed. -/
theorem signed_size_translated :
    ¬ TranslatesExactly ⟨fun _ => none, fun _ => ""⟩ "gpt-5.4" signedRequest := by
  intro h
  have hrequest := h.succeeds.mp ⟨_, rfl⟩
  obtain ⟨size, hsize, heq⟩ := hrequest.size _ rfl
  obtain rfl := Value.string.inj heq
  exact isSignedSize_plus1024.not_documented hsize

end Translation

end OpenAiLb
