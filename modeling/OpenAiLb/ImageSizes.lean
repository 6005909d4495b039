import OpenAiLb.AppConfig
import OpenAiLb.Library.Split
import OpenAiLb.Oauth

/-!
# Image sizes

`validate_image_size` splits a custom size at its first `x` and reads both sides with
`parse::<u64>`, which takes a sign `+` in front of the digits. So it accepts the sizes
`WIDTHxHEIGHT` within its bounds, and the same sizes with a `+` in front of a number.
-/

namespace OpenAiLb

/-- `str::parse::<u64>`: the same as for a `usize` on 64 bits. -/
def parseU64 (s : String) : Option ℕ := parseUsize s

/-- The sizes that every model has. -/
def presetSizes : List String := ["auto", "1024x1024", "1536x1024", "1024x1536"]

/-- The model that has custom sizes. -/
def customSizeModel : String := "gpt-image-2"

/-- The error about the form of a size. -/
def sizeForm : AppError := .badRequest "size must use WIDTHxHEIGHT"

/-- The two numbers of a custom size. -/
def parseSize (size : String) : Except AppError (ℕ × ℕ) :=
  match splitOnce ['x'] size.toList with
  | none => .error sizeForm
  | some (width, height) =>
    match parseU64 (String.ofList width) with
    | none => .error sizeForm
    | some width =>
      match parseU64 (String.ofList height) with
      | none => .error sizeForm
      | some height => .ok (width, height)

/-- The bounds on each side of a custom size. -/
def checkDimensions (width height : ℕ) : Except AppError Unit :=
  if width > 3840 ∨ height > 3840 ∨ width % 16 ≠ 0 ∨ height % 16 ≠ 0 then
    .error (.badRequest "size dimensions must be multiples of 16 and no larger than 3840")
  else .ok ()

/-- The bounds on the two sides together, the products taken in a `u64`. -/
def checkPixels (width height : ℕ) : Except AppError Unit :=
  let pixels := width * height % 2 ^ 64
  if ¬ (655360 ≤ pixels ∧ pixels ≤ 8294400) ∨
      max width height > 3 * min width height % 2 ^ 64 then
    .error (.badRequest
      "size must contain 655360-8294400 pixels with an aspect ratio no wider than 3:1")
  else .ok ()

/-- `validate_image_size`. -/
def validateImageSize (size : String) (model : Option String) : Except AppError Unit :=
  if size ∈ presetSizes then .ok ()
  else if model ≠ some customSizeModel then
    .error (.badRequest "custom image sizes require model gpt-image-2")
  else do
    let (width, height) ← parseSize size
    checkDimensions width height
    checkPixels width height

section Numerals

/-- The characters are ASCII digits, at least one, and stand for `n`. -/
structure IsNumeral (digits : List Char) (n : ℕ) : Prop where
  nonempty : digits ≠ []
  digit : ∀ c ∈ digits, c.isDigit = true
  value : Nat.ofDigitChars 10 digits 0 = n

/-- The parser reads a numeral and nothing else. -/
theorem parseDigits_eq_some_iff {digits : List Char} {n : ℕ} :
    parseDigits digits = some n ↔ IsNumeral digits n := by
  unfold parseDigits
  rw [Option.ite_none_right_eq_some, Option.some.injEq, List.all_eq_true]
  constructor
  · rintro ⟨⟨hnonempty, hdigit⟩, hvalue⟩
    exact ⟨hnonempty, hdigit, hvalue⟩
  · rintro ⟨hnonempty, hdigit, hvalue⟩
    exact ⟨⟨hnonempty, hdigit⟩, hvalue⟩

/-- A character that is no digit is not in a numeral. -/
theorem IsNumeral.not_mem {digits : List Char} {n : ℕ} (h : IsNumeral digits n) {c : Char}
    (hc : c.isDigit = false) : c ∉ digits := by
  intro hmem
  rw [h.digit c hmem] at hc
  cases hc

/-- The sign `+`, or nothing. -/
def plus (signed : Bool) : List Char := if signed then ['+'] else []

/-- A numeral behind a sign has no `x` in it. -/
theorem IsNumeral.not_mem_signed {digits : List Char} {n : ℕ} (h : IsNumeral digits n)
    (signed : Bool) : 'x' ∉ plus signed ++ digits := by
  rw [List.mem_append, not_or]
  refine ⟨?_, h.not_mem rfl⟩
  cases signed <;> decide

/-- `parse::<u64>` reads the numerals of a `u64`, with or without a sign `+`. -/
theorem parseU64_eq_some_iff {text : List Char} {n : ℕ} :
    parseU64 (String.ofList text) = some n ↔
      n < 2 ^ 64 ∧ ∃ signed digits, text = plus signed ++ digits ∧ IsNumeral digits n := by
  unfold parseU64 parseUsize
  rw [String.toList_ofList, Option.filter_eq_some_iff, decide_eq_true_eq, and_comm]
  refine and_congr_right fun _ => ?_
  split
  · next digits =>
    rw [parseDigits_eq_some_iff]
    constructor
    · exact fun h => ⟨true, digits, rfl, h⟩
    · rintro ⟨signed, digits', htext, h⟩
      cases signed with
      | true =>
        obtain rfl := List.cons.inj htext |>.2
        exact h
      | false =>
        have hmem : '+' ∈ digits' := by
          rw [show digits' = '+' :: digits from htext.symm]
          exact List.mem_cons_self
        exact absurd hmem (h.not_mem rfl)
  · next hplain =>
    rw [parseDigits_eq_some_iff]
    constructor
    · exact fun h => ⟨false, text, rfl, h⟩
    · rintro ⟨signed, digits, htext, h⟩
      cases signed with
      | true => exact absurd htext (hplain digits)
      | false =>
        rw [show text = digits from htext]
        exact h

end Numerals

section Grammar

/-- Two sides within the bounds on custom sizes. -/
structure InBounds (width height : ℕ) : Prop where
  width_le : width ≤ 3840
  height_le : height ≤ 3840
  width_dvd : 16 ∣ width
  height_dvd : 16 ∣ height
  pixels : 655360 ≤ width * height ∧ width * height ≤ 8294400
  ratio : max width height ≤ 3 * min width height

/-- `WIDTHxHEIGHT` within the bounds, each number with or without a sign `+`. -/
def IsCustomSize (size : String) (signedWidth signedHeight : Bool) : Prop :=
  ∃ width height m n,
    size.toList = plus signedWidth ++ width ++ 'x' :: (plus signedHeight ++ height) ∧
    IsNumeral width m ∧ IsNumeral height n ∧ InBounds m n

/-- The sizes that the documentation lists: the presets, and for one model `WIDTHxHEIGHT`. -/
def IsDocumentedSize (size : String) (model : Option String) : Prop :=
  size ∈ presetSizes ∨ model = some customSizeModel ∧ IsCustomSize size false false

/-- The sizes that the validator lets through: a custom size may have signs. -/
def IsAcceptedSize (size : String) (model : Option String) : Prop :=
  size ∈ presetSizes ∨ model = some customSizeModel ∧
    ∃ signedWidth signedHeight, IsCustomSize size signedWidth signedHeight

/-- A custom size with a sign `+` in front of a number. -/
def IsSignedSize (size : String) (model : Option String) : Prop :=
  model = some customSizeModel ∧ ∃ signedWidth signedHeight,
    (signedWidth = true ∨ signedHeight = true) ∧ IsCustomSize size signedWidth signedHeight

variable {size : String} {model : Option String} {width height : ℕ}

/-- The dimensions are in range and multiples of 16. -/
theorem checkDimensions_eq_ok_iff :
    checkDimensions width height = .ok () ↔
      width ≤ 3840 ∧ height ≤ 3840 ∧ 16 ∣ width ∧ 16 ∣ height := by
  unfold checkDimensions
  split
  · next h =>
    refine iff_of_false nofun ?_
    omega
  · next h =>
    refine iff_of_true rfl ?_
    omega

/-- Sides that passed the first check have products that fit into a `u64`. -/
theorem products_fit (h : checkDimensions width height = .ok ()) :
    width * height < 2 ^ 64 ∧ 3 * min width height < 2 ^ 64 := by
  obtain ⟨hwidth, hheight, -⟩ := checkDimensions_eq_ok_iff.mp h
  have hproduct : width * height ≤ 3840 * 3840 := Nat.mul_le_mul hwidth hheight
  omega

/-- The two checks are the bounds. -/
theorem checks_eq_ok_iff :
    (checkDimensions width height = .ok () ∧ checkPixels width height = .ok ()) ↔
      InBounds width height := by
  constructor
  · rintro ⟨hdimensions, hpixels⟩
    obtain ⟨hproduct, hmin⟩ := products_fit hdimensions
    obtain ⟨hwidth, hheight, hwidthDvd, hheightDvd⟩ := checkDimensions_eq_ok_iff.mp hdimensions
    unfold checkPixels at hpixels
    rw [Nat.mod_eq_of_lt hproduct, Nat.mod_eq_of_lt hmin] at hpixels
    dsimp only at hpixels
    split at hpixels
    · cases hpixels
    · next hok =>
      rw [not_or, not_not] at hok
      exact ⟨hwidth, hheight, hwidthDvd, hheightDvd, hok.1, by omega⟩
  · intro h
    have hdimensions : checkDimensions width height = .ok () :=
      checkDimensions_eq_ok_iff.mpr ⟨h.width_le, h.height_le, h.width_dvd, h.height_dvd⟩
    obtain ⟨hproduct, hmin⟩ := products_fit hdimensions
    refine ⟨hdimensions, ?_⟩
    have hratio := h.ratio
    unfold checkPixels
    rw [Nat.mod_eq_of_lt hproduct, Nat.mod_eq_of_lt hmin]
    refine if_neg ?_
    rw [not_or, not_not]
    exact ⟨h.pixels, by omega⟩

/-- The numbers that `split_once` and the two calls of `parse` find. -/
theorem parseSize_eq_ok_iff :
    parseSize size = .ok (width, height) ↔
      width < 2 ^ 64 ∧ height < 2 ^ 64 ∧ ∃ signedWidth signedHeight front rest,
        size.toList = plus signedWidth ++ front ++ 'x' :: (plus signedHeight ++ rest) ∧
        IsNumeral front width ∧ IsNumeral rest height := by
  unfold parseSize
  constructor
  · intro h
    split at h
    · cases h
    · next front rest hsplit =>
      split at h
      · cases h
      · next m hm =>
        split at h
        · cases h
        · next n hn =>
          obtain ⟨rfl, rfl⟩ := Prod.mk.inj (Except.ok.inj h)
          obtain ⟨hfitsWidth, signedWidth, front, rfl, hfront⟩ := parseU64_eq_some_iff.mp hm
          obtain ⟨hfitsHeight, signedHeight, rest, rfl, hrest⟩ := parseU64_eq_some_iff.mp hn
          refine ⟨hfitsWidth, hfitsHeight, signedWidth, signedHeight, front, rest, ?_, hfront,
            hrest⟩
          rw [eq_of_splitOnce hsplit, List.append_assoc _ ['x'], List.singleton_append]
  · rintro ⟨hm, hn, signedWidth, signedHeight, front, rest, htext, hfront, hrest⟩
    have hsplit := splitOnce_append [] (plus signedHeight ++ rest)
      (hfront.not_mem_signed signedWidth)
    rw [List.append_assoc _ ['x'], List.singleton_append] at hsplit
    rw [htext, hsplit]
    dsimp only
    rw [parseU64_eq_some_iff.mpr ⟨hm, signedWidth, front, rfl, hfront⟩]
    dsimp only
    rw [parseU64_eq_some_iff.mpr ⟨hn, signedHeight, rest, rfl, hrest⟩]

/-- **What the validator accepts**: the presets, and for one model the custom sizes, with signs
or without. -/
theorem validateImageSize_eq_ok_iff :
    validateImageSize size model = .ok () ↔ IsAcceptedSize size model := by
  unfold validateImageSize IsAcceptedSize
  split
  · next hpreset => exact iff_of_true rfl (Or.inl hpreset)
  · next hpreset =>
    rw [or_iff_right hpreset]
    split
    · next hmodel => exact iff_of_false nofun (fun h => hmodel h.1)
    · next hmodel =>
      rw [not_not] at hmodel
      rw [and_iff_right hmodel]
      constructor
      · intro h
        obtain ⟨⟨m, n⟩, hparse, h⟩ := Stoppable.bind_eq_ok.mp h
        obtain ⟨⟨⟩, hdimensions, hpixels⟩ := Stoppable.bind_eq_ok.mp h
        obtain ⟨-, -, signedWidth, signedHeight, front, rest, htext, hfront, hrest⟩ :=
          parseSize_eq_ok_iff.mp hparse
        exact ⟨signedWidth, signedHeight, front, rest, m, n, htext, hfront, hrest,
          checks_eq_ok_iff.mp ⟨hdimensions, hpixels⟩⟩
      · rintro ⟨signedWidth, signedHeight, front, rest, m, n, htext, hfront, hrest, hbounds⟩
        have hwidth := hbounds.width_le
        have hheight := hbounds.height_le
        obtain ⟨hdimensions, hpixels⟩ := checks_eq_ok_iff.mpr hbounds
        refine Stoppable.bind_eq_ok.mpr ⟨(m, n), ?_, Stoppable.bind_eq_ok.mpr
          ⟨(), hdimensions, hpixels⟩⟩
        exact parseSize_eq_ok_iff.mpr ⟨by omega, by omega, signedWidth, signedHeight, front, rest,
          htext, hfront, hrest⟩

/-- A size with a sign is not documented. -/
theorem IsSignedSize.not_documented (h : IsSignedSize size model) :
    ¬ IsDocumentedSize size model := by
  obtain ⟨-, signedWidth, signedHeight, hsigned, width, height, m, n, htext, hrest⟩ := h
  have hplus : '+' ∈ size.toList := by
    rw [htext]
    rcases hsigned with rfl | rfl <;> simp [plus]
  rintro (hpreset | ⟨-, front, rest, m, n, hplain, hfront, hrest, -⟩)
  · have hnone : ∀ preset ∈ presetSizes, '+' ∉ preset.toList := by decide
    exact hnone size hpreset hplus
  · rw [hplain] at hplus
    simp [plus, hfront.not_mem, hrest.not_mem] at hplus

/-- The validator lets through the documented sizes, and those with a sign. -/
theorem isAcceptedSize_iff :
    IsAcceptedSize size model ↔ IsDocumentedSize size model ∨ IsSignedSize size model := by
  constructor
  · rintro (hpreset | ⟨hmodel, signedWidth, signedHeight, hcustom⟩)
    · exact Or.inl (Or.inl hpreset)
    · by_cases hsigned : signedWidth = true ∨ signedHeight = true
      · exact Or.inr ⟨hmodel, signedWidth, signedHeight, hsigned, hcustom⟩
      · rw [not_or, Bool.not_eq_true, Bool.not_eq_true] at hsigned
        obtain ⟨rfl, rfl⟩ := hsigned
        exact Or.inl (Or.inr ⟨hmodel, hcustom⟩)
  · rintro ((hpreset | ⟨hmodel, hcustom⟩) | ⟨hmodel, signedWidth, signedHeight, -, hcustom⟩)
    · exact Or.inl hpreset
    · exact Or.inr ⟨hmodel, false, false, hcustom⟩
    · exact Or.inr ⟨hmodel, signedWidth, signedHeight, hcustom⟩

/-- The products of a custom size are computed without overflow. -/
def ComputesProducts (size : String) : Prop :=
  ∀ width height, parseSize size = .ok (width, height) →
    checkDimensions width height = .ok () →
    width * height < 2 ^ 64 ∧ 3 * min width height < 2 ^ 64

/-- **The validator accepts the documented sizes and no others**, and computes its products
without overflow, exactly for the sizes without a sign `+`: a custom size with a `+` in front of
a number within the bounds is accepted too. -/
theorem image_sizes_iff (size : String) (model : Option String) :
    ((validateImageSize size model = .ok () ↔ IsDocumentedSize size model) ∧
      ComputesProducts size) ↔ ¬ IsSignedSize size model := by
  have hproducts : ComputesProducts size := fun _ _ _ hdimensions => products_fit hdimensions
  rw [and_iff_left hproducts, validateImageSize_eq_ok_iff, isAcceptedSize_iff]
  constructor
  · exact fun hiff hsigned => hsigned.not_documented (hiff.mp (Or.inr hsigned))
  · exact fun hplain => or_iff_left hplain

/-- A size with a sign in front of its width. -/
theorem isSignedSize_plus1024 : IsSignedSize "+1024x1024" (some customSizeModel) := by
  have hside : IsNumeral ['1', '0', '2', '4'] 1024 := parseDigits_eq_some_iff.mp (by decide)
  refine ⟨rfl, true, false, Or.inl rfl, ?_⟩
  exact ⟨['1', '0', '2', '4'], ['1', '0', '2', '4'], 1024, 1024, by decide, hside, hside,
    ⟨by decide, by decide, by decide, by decide, by decide, by decide⟩⟩

/-- A sign in front of the width is accepted. -/
theorem signed_size_accepted :
    validateImageSize "+1024x1024" (some "gpt-image-2") = .ok () ∧
      ¬ IsDocumentedSize "+1024x1024" (some "gpt-image-2") :=
  ⟨by decide, isSignedSize_plus1024.not_documented⟩

end Grammar

end OpenAiLb
