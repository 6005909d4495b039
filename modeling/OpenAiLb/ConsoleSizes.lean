import OpenAiLb.ImageSizes
import OpenAiLb.Library.Binary64

/-!
# The image sizes of the console

The console checks a custom size by the values of its two numbers, and submits their texts. It
reads a text with `Number`, which takes every literal of a floating-point number, and the server
reads it with `parse::<u64>`. The two agree on the literals that are digits, with or without a
sign `+`; on `1024.0` or `1.024e3` they do not.
-/

namespace OpenAiLb

/-- The sign of a literal. -/
inductive Sign where
  | plus
  | minus
  deriving DecidableEq

/-- The character of a sign, or nothing. -/
def signText : Option Sign → List Char
  | none => []
  | some .plus => ['+']
  | some .minus => ['-']

/-- The number with its sign. -/
def withSign (sign : Option Sign) (n : ℕ) : Int := if sign = some .minus then -n else n

/-- The exponent of a literal. -/
structure Exponent where
  marker : Char
  sign : Option Sign
  digits : List Char
  isMarker : marker = 'e' ∨ marker = 'E'
  nonempty : digits ≠ []
  isDigit : ∀ c ∈ digits, c.isDigit = true

/-- A literal of a floating-point number: `StrDecimalLiteral` without `Infinity`. -/
structure FloatLiteral where
  sign : Option Sign
  whole : List Char
  /-- The digits behind the point. -/
  fraction : Option (List Char)
  exponent : Option Exponent
  nonempty : whole ≠ [] ∨ ∃ digits, fraction = some digits ∧ digits ≠ []
  isDigit : ∀ c ∈ whole ++ fraction.getD [], c.isDigit = true

namespace FloatLiteral

/-- The characters of the literal. -/
def text (literal : FloatLiteral) : List Char :=
  signText literal.sign ++ literal.whole ++ literal.fraction.elim [] ('.' :: ·) ++
    literal.exponent.elim [] fun e => e.marker :: (signText e.sign ++ e.digits)

/-- The number that the literal denotes. -/
def value (literal : FloatLiteral) : ℚ :=
  let digits := literal.whole ++ literal.fraction.getD []
  let power := literal.exponent.elim 0 fun e => withSign e.sign (Nat.ofDigitChars 10 e.digits 0)
  withSign literal.sign (Nat.ofDigitChars 10 digits 0) *
    10 ^ (power - (literal.fraction.getD []).length)

/-- `Number(text)`. -/
def number (literal : FloatLiteral) : Binary64 := .round literal.value

end FloatLiteral

/-- `isSupportedImageSize`, with the products of `Number`. -/
def isSupportedImageSize (width height : FloatLiteral) : Bool :=
  match width.number.integer?, height.number.integer? with
  | some parsedWidth, some parsedHeight =>
    if parsedWidth > 3840 ∨ parsedHeight > 3840 ∨ parsedWidth.tmod 16 ≠ 0 ∨
        parsedHeight.tmod 16 ≠ 0 then false
    else
      let pixels := Binary64.round ((parsedWidth * parsedHeight : ℤ) : ℚ)
      Binary64.le (.finite (655360 : ℤ)) pixels && Binary64.le pixels (.finite (8294400 : ℤ)) &&
        Binary64.le (.finite (max parsedWidth parsedHeight : ℤ))
          (Binary64.round ((3 * min parsedWidth parsedHeight : ℤ) : ℚ))
  | _, _ => false

/-- What the console submits as the size. -/
def submittedSize (width height : FloatLiteral) : String :=
  String.ofList (width.text ++ 'x' :: height.text)

/-- The two numbers are within the bounds on custom sizes. -/
def HasBoundedValues (width height : FloatLiteral) : Prop :=
  ∃ m n : ℕ, width.number = .finite (m : ℤ) ∧ height.number = .finite (n : ℤ) ∧ InBounds m n

variable {width height : FloatLiteral}

/-- Factors of a bounded product that are negative together are not far below zero. -/
theorem neg_le_max_of_mul_le {a b bound : Int} (h : a * b ≤ bound) (hbound : 0 ≤ bound) :
    -bound ≤ max a b := by
  by_contra hlt
  have ha : bound + 1 ≤ -a := by omega
  have hb : 1 ≤ -b := by omega
  have hproduct : (bound + 1) * 1 ≤ -a * -b := Int.mul_le_mul ha hb (by omega) (by omega)
  rw [Int.neg_mul_neg] at hproduct
  omega

/-- The checks of the console on two integers are the bounds. -/
theorem console_checks_iff {a b : Int} :
    ((¬ (a > 3840 ∨ b > 3840 ∨ a.tmod 16 ≠ 0 ∨ b.tmod 16 ≠ 0)) ∧
      (655360 ≤ a * b ∧ a * b ≤ 8294400) ∧ max a b ≤ 3 * min a b) ↔
    ∃ m n : ℕ, a = m ∧ b = n ∧ InBounds m n := by
  constructor
  · rintro ⟨hsides, hpixels, hratio⟩
    simp only [not_or, not_not, not_lt, gt_iff_lt] at hsides
    obtain ⟨ha, hb, hadvd, hbdvd⟩ := hsides
    obtain ⟨m, rfl⟩ : ∃ m : ℕ, a = m := ⟨a.toNat, by omega⟩
    obtain ⟨n, rfl⟩ : ∃ n : ℕ, b = n := ⟨b.toNat, by omega⟩
    refine ⟨m, n, rfl, rfl, by omega, by omega, ?_, ?_, ?_, by omega⟩
    · exact_mod_cast Int.dvd_of_tmod_eq_zero hadvd
    · exact_mod_cast Int.dvd_of_tmod_eq_zero hbdvd
    · exact_mod_cast hpixels
  · rintro ⟨m, n, rfl, rfl, h⟩
    have hwidth := h.width_le
    have hheight := h.height_le
    have hratio := h.ratio
    have hwidthDvd : (16 : ℤ) ∣ m := by exact_mod_cast h.width_dvd
    have hheightDvd : (16 : ℤ) ∣ n := by exact_mod_cast h.height_dvd
    refine ⟨?_, ?_, by omega⟩
    · rw [Int.tmod_eq_zero_of_dvd hwidthDvd, Int.tmod_eq_zero_of_dvd hheightDvd]
      omega
    · exact_mod_cast h.pixels

/-- **What the console accepts**: numbers within the bounds. -/
theorem isSupportedImageSize_iff :
    isSupportedImageSize width height = true ↔ HasBoundedValues width height := by
  unfold isSupportedImageSize HasBoundedValues
  split
  · next a b ha hb =>
    rw [Binary64.integer?_eq_some_iff] at ha hb
    have hvalues : (∃ m n : ℕ, width.number = .finite (m : ℤ) ∧
        height.number = .finite (n : ℤ) ∧ InBounds m n) ↔
        ∃ m n : ℕ, a = m ∧ b = n ∧ InBounds m n := by
      simp only [ha, hb, Binary64.finite.injEq, Int.cast_inj]
    rw [hvalues, ← console_checks_iff]
    split
    · next hsides => exact iff_of_false nofun (fun h => h.1 hsides)
    · next hsides =>
      rw [and_iff_right hsides, Bool.and_eq_true, Bool.and_eq_true,
        Binary64.le_round_intCast_iff (by decide), Binary64.round_intCast_le_iff (by decide)]
      refine and_congr_right fun hpixels => ?_
      have hlow := neg_le_max_of_mul_le hpixels.2 (by omega)
      have hmax : |max a b| < 2 ^ 53 := abs_lt.mpr ⟨by omega, by omega⟩
      rw [Binary64.le_round_intCast_iff hmax]
  · next hnone =>
    refine iff_of_false nofun ?_
    rintro ⟨m, n, hm, hn, -⟩
    exact hnone _ _ (Binary64.integer?_eq_some_iff.mpr hm) (Binary64.integer?_eq_some_iff.mpr hn)

namespace FloatLiteral

variable {literal : FloatLiteral}

/-- The literal is digits, with or without a sign `+`. -/
structure IsPlain (literal : FloatLiteral) : Prop where
  sign : literal.sign ≠ some .minus
  fraction : literal.fraction = none
  exponent : literal.exponent = none

/-- The text of a plain literal. -/
theorem IsPlain.text_eq (h : literal.IsPlain) :
    ∃ signed, literal.text = plus signed ++ literal.whole := by
  unfold text
  rw [h.fraction, h.exponent, Option.elim_none, Option.elim_none, List.append_nil,
    List.append_nil]
  rcases hsign : literal.sign with _ | _ | _
  · exact ⟨false, rfl⟩
  · exact ⟨true, rfl⟩
  · exact absurd hsign h.sign

/-- A plain literal denotes the number of its digits. -/
theorem IsPlain.value_eq (h : literal.IsPlain) :
    literal.value = ((Nat.ofDigitChars 10 literal.whole 0 : ℕ) : ℤ) := by
  have hsign := h.sign
  simp [value, withSign, h.fraction, h.exponent, hsign]

/-- A plain literal whose number is a small integer is a numeral of it. -/
theorem IsPlain.isNumeral (h : literal.IsPlain) {n : ℕ} (hn : n ≤ 3840)
    (hnumber : literal.number = .finite (n : ℤ)) : IsNumeral literal.whole n := by
  have hsmall : |(n : ℤ)| < 2 ^ 53 := abs_lt.mpr ⟨by omega, by omega⟩
  unfold number at hnumber
  rw [h.value_eq, Binary64.round_intCast_eq_iff hsmall] at hnumber
  refine ⟨?_, ?_, by exact_mod_cast hnumber⟩
  · rcases literal.nonempty with hwhole | ⟨digits, hfraction, -⟩
    · exact hwhole
    · rw [h.fraction] at hfraction
      cases hfraction
  · exact fun c hc => literal.isDigit c (List.mem_append_left _ hc)

/-- A literal that is spelled with digits only behind a sign `+` is plain. -/
theorem isPlain_of_text {signed : Bool} {digits : List Char}
    (htext : literal.text = plus signed ++ digits) (hdigits : ∀ c ∈ digits, c.isDigit = true) :
    literal.IsPlain := by
  have hchars : ∀ c ∈ literal.text, c = '+' ∨ c.isDigit = true := by
    intro c hc
    rw [htext] at hc
    rcases List.mem_append.mp hc with hc | hc
    · cases signed with
      | true => exact Or.inl (List.mem_singleton.mp hc)
      | false => cases hc
    · exact Or.inr (hdigits c hc)
  unfold text at hchars
  refine ⟨?_, ?_, ?_⟩
  · intro hsign
    have hminus := hchars '-' (by simp [hsign, signText])
    exact absurd hminus (by decide)
  · cases hfraction : literal.fraction with
    | none => rfl
    | some fraction =>
      have hpoint := hchars '.' (by simp [hfraction])
      exact absurd hpoint (by decide)
  · cases hexponent : literal.exponent with
    | none => rfl
    | some exponent =>
      have hmarker := hchars exponent.marker (by simp [hexponent])
      rcases exponent.isMarker with he | he
      · rw [he] at hmarker
        exact absurd hmarker (by decide)
      · rw [he] at hmarker
        exact absurd hmarker (by decide)

/-- A literal has no `x` in it. -/
theorem not_mem_text : 'x' ∉ literal.text := by
  have hsign : ∀ sign, 'x' ∉ signText sign := by
    rintro (_ | _ | _) <;> decide
  have hdigits : ∀ digits : List Char, (∀ c ∈ digits, c.isDigit = true) → 'x' ∉ digits := by
    intro digits hall hmem
    exact absurd (hall 'x' hmem) (by decide)
  have hbody := hdigits _ literal.isDigit
  rw [List.mem_append, not_or] at hbody
  unfold text
  simp only [List.mem_append, not_or]
  refine ⟨⟨⟨hsign _, hbody.1⟩, ?_⟩, ?_⟩
  · cases hfraction : literal.fraction with
    | none => exact List.not_mem_nil
    | some fraction =>
      have hrest := hbody.2
      rw [hfraction] at hrest
      exact List.not_mem_cons_of_ne_of_not_mem (by decide) hrest
  · cases literal.exponent with
    | none => exact List.not_mem_nil
    | some e =>
      have hmarker : 'x' ≠ e.marker := by
        rcases e.isMarker with he | he <;> rw [he] <;> decide
      refine List.not_mem_cons_of_ne_of_not_mem hmarker ?_
      rw [List.mem_append, not_or]
      exact ⟨hsign _, hdigits _ e.isDigit⟩

end FloatLiteral

/-- The presets with an `x` are custom sizes, too. -/
theorem isCustomSize_of_preset :
    IsCustomSize "1024x1024" false false ∧ IsCustomSize "1536x1024" false false ∧
      IsCustomSize "1024x1536" false false := by
  have hsmall : IsNumeral ['1', '0', '2', '4'] 1024 := parseDigits_eq_some_iff.mp (by decide)
  have hlarge : IsNumeral ['1', '5', '3', '6'] 1536 := parseDigits_eq_some_iff.mp (by decide)
  refine ⟨⟨_, _, _, _, rfl, hsmall, hsmall, ?_⟩, ⟨_, _, _, _, rfl, hlarge, hsmall, ?_⟩,
    ⟨_, _, _, _, rfl, hsmall, hlarge, ?_⟩⟩ <;> constructor <;> decide

/-- **What the server reads of two literals**: numerals, each with or without a sign `+`. -/
theorem validateImageSize_submittedSize :
    validateImageSize (submittedSize width height) (some "gpt-image-2") = .ok () ↔
      ∃ signedWidth signedHeight front rest m n, width.text = plus signedWidth ++ front ∧
        height.text = plus signedHeight ++ rest ∧ IsNumeral front m ∧ IsNumeral rest n ∧
        InBounds m n := by
  have htext : (submittedSize width height).toList = width.text ++ 'x' :: height.text :=
    String.toList_ofList
  rw [validateImageSize_eq_ok_iff]
  constructor
  · intro h
    obtain ⟨signedWidth, signedHeight, front, rest, m, n, hsize, hfront, hrest, hbounds⟩ :
        ∃ signedWidth signedHeight,
          IsCustomSize (submittedSize width height) signedWidth signedHeight := by
      rcases h with hpreset | ⟨-, hcustom⟩
      · have hx : 'x' ∈ (submittedSize width height).toList := by
          rw [htext]
          exact List.mem_append_right _ List.mem_cons_self
        obtain ⟨hsquare, hlandscape, hportrait⟩ := isCustomSize_of_preset
        simp only [presetSizes, List.mem_cons, List.not_mem_nil, or_false] at hpreset
        rcases hpreset with heq | heq | heq | heq
        · rw [heq] at hx
          exact absurd hx (by decide)
        · exact ⟨false, false, heq ▸ hsquare⟩
        · exact ⟨false, false, heq ▸ hlandscape⟩
        · exact ⟨false, false, heq ▸ hportrait⟩
      · exact hcustom
    rw [htext] at hsize
    obtain ⟨hwidth, hheight⟩ := append_cons_inj_of_not_mem FloatLiteral.not_mem_text
      (hfront.not_mem_signed signedWidth) hsize
    exact ⟨signedWidth, signedHeight, front, rest, m, n, hwidth, hheight, hfront, hrest, hbounds⟩
  · rintro ⟨signedWidth, signedHeight, front, rest, m, n, hwidth, hheight, hfront, hrest, hbounds⟩
    refine Or.inr ⟨rfl, signedWidth, signedHeight, front, rest, m, n, ?_, hfront, hrest, hbounds⟩
    rw [htext, hwidth, hheight]

/-- **Console and server agree** on a pair of literals exactly when one of the two values is out of
the bounds or both literals are plain: what the console accepts is accepted by the server, too. -/
theorem console_agrees_iff (width height : FloatLiteral) :
    (isSupportedImageSize width height = true →
      validateImageSize (submittedSize width height) (some "gpt-image-2") = .ok ()) ↔
    ¬ (HasBoundedValues width height ∧ ¬ (width.IsPlain ∧ height.IsPlain)) := by
  rw [isSupportedImageSize_iff, validateImageSize_submittedSize, not_and, not_not]
  refine imp_congr_right fun hvalues => ?_
  constructor
  · rintro ⟨signedWidth, signedHeight, front, rest, m, n, hwidth, hheight, hfront, hrest, -⟩
    exact ⟨FloatLiteral.isPlain_of_text hwidth hfront.digit,
      FloatLiteral.isPlain_of_text hheight hrest.digit⟩
  · rintro ⟨hwidth, hheight⟩
    obtain ⟨m, n, hm, hn, hbounds⟩ := hvalues
    obtain ⟨signedWidth, hwidthText⟩ := hwidth.text_eq
    obtain ⟨signedHeight, hheightText⟩ := hheight.text_eq
    exact ⟨signedWidth, signedHeight, _, _, m, n, hwidthText, hheightText,
      hwidth.isNumeral hbounds.width_le hm, hheight.isNumeral hbounds.height_le hn, hbounds⟩

/-- The literal `1024.0`. -/
def pointed : FloatLiteral where
  sign := none
  whole := ['1', '0', '2', '4']
  fraction := some ['0']
  exponent := none
  nonempty := Or.inl (by decide)
  isDigit := List.all_eq_true.mp (by decide)

/-- The literal `1024`. -/
def unpointed : FloatLiteral where
  sign := none
  whole := ['1', '0', '2', '4']
  fraction := none
  exponent := none
  nonempty := Or.inl (by decide)
  isDigit := List.all_eq_true.mp (by decide)

/-- **A number with a point** is accepted by the console and refused by the server. -/
theorem console_disagrees_at_point :
    submittedSize pointed unpointed = "1024.0x1024" ∧
      isSupportedImageSize pointed unpointed = true ∧
      validateImageSize (submittedSize pointed unpointed) (some "gpt-image-2") =
        .error (.badRequest "size must use WIDTHxHEIGHT") := by
  have hsmall : |(1024 : ℤ)| < 2 ^ 53 := by decide
  have hpointed : pointed.value = (1024 : ℤ) := by
    have hdigits : withSign pointed.sign
        (Nat.ofDigitChars 10 (pointed.whole ++ pointed.fraction.getD []) 0) = 10240 := by decide
    unfold FloatLiteral.value
    dsimp only
    rw [hdigits]
    norm_num [pointed]
  have hplain : unpointed.IsPlain := ⟨by decide, rfl, rfl⟩
  have hunpointed : unpointed.value = (1024 : ℤ) := hplain.value_eq
  refine ⟨by decide, isSupportedImageSize_iff.mpr ⟨1024, 1024, ?_, ?_, ?_⟩, by decide⟩
  · rw [FloatLiteral.number, hpointed]
    exact (Binary64.round_intCast_eq_iff hsmall).mpr rfl
  · rw [FloatLiteral.number, hunpointed]
    exact (Binary64.round_intCast_eq_iff hsmall).mpr rfl
  · constructor <;> decide

end OpenAiLb
