import Mathlib.Algebra.Order.Field.Power
import Mathlib.Data.Int.Log
import Mathlib.Data.Rat.Floor
import Mathlib.Tactic.Linarith
import Mathlib.Tactic.NormNum
import Mathlib.Tactic.Positivity

/-!
# Rounding to binary64

A rational number is rounded to 53 significant bits, to the nearest one and to the even one of
two, with the smallest quantum of the subnormal numbers and an infinity from `2 ^ 1024` on. An
integer of 53 bits is a number of the format, so no rounding takes a number across it. The zero
has no sign here.
-/

/-- A number of the format, or an infinity. -/
inductive Binary64 where
  | negInfinity
  | finite (q : ℚ)
  | infinity
  deriving DecidableEq

namespace Binary64

/-- The order of the numbers. -/
def le : Binary64 → Binary64 → Bool
  | negInfinity, _ => true
  | finite _, negInfinity => false
  | finite q, finite r => q ≤ r
  | finite _, infinity => true
  | infinity, infinity => true
  | infinity, _ => false

/-- The nearest integer, the even one of two. -/
def roundEven (q : ℚ) : ℤ :=
  if q - ⌊q⌋ < 1 / 2 then ⌊q⌋
  else if 1 / 2 < q - ⌊q⌋ then ⌊q⌋ + 1
  else if 2 ∣ ⌊q⌋ then ⌊q⌋
  else ⌊q⌋ + 1

/-- The exponent of the last bit that a number of this size has. -/
def lastExponent (q : ℚ) : ℤ := max (Int.log 2 |q| - 52) (-1074)

/-- Rounded to the last bit. -/
def rounded (q : ℚ) : ℚ := roundEven (q / 2 ^ lastExponent q) * 2 ^ lastExponent q

/-- Rounding, with overflow. -/
def round (q : ℚ) : Binary64 :=
  if 2 ^ 1024 ≤ rounded q then infinity
  else if rounded q ≤ -2 ^ 1024 then negInfinity
  else finite (rounded q)

/-- Addition. Two opposite infinities have no sum. -/
def add : Binary64 → Binary64 → Option Binary64
  | finite q, finite r => some (round (q + r))
  | finite _, y => some y
  | x, finite _ => some x
  | infinity, infinity => some infinity
  | negInfinity, negInfinity => some negInfinity
  | _, _ => none

/-- The number with the other sign. -/
def neg : Binary64 → Binary64
  | negInfinity => infinity
  | finite q => finite (-q)
  | infinity => negInfinity

/-- The number as an integer, if it is one. -/
def integer? : Binary64 → Option ℤ
  | finite q => if q.den = 1 then some q.num else none
  | _ => none

/-- A number with an integer value is this integer. -/
theorem integer?_eq_some_iff {x : Binary64} {n : ℤ} : x.integer? = some n ↔ x = finite n := by
  cases x with
  | finite q =>
    rw [integer?, Option.ite_none_right_eq_some, Option.some.injEq, finite.injEq]
    constructor
    · rintro ⟨hden, rfl⟩
      exact (Rat.den_eq_one_iff q).mp hden |>.symm
    · rintro rfl
      exact ⟨Rat.den_intCast n, Rat.num_intCast n⟩
  | _ => exact iff_of_false nofun nofun

section Rounding

variable {q : ℚ} {k : ℤ}

/-- Rounding does not fall below an integer under the number. -/
theorem le_roundEven (h : (k : ℚ) ≤ q) : k ≤ roundEven q := by
  have hfloor : k ≤ ⌊q⌋ := Int.le_floor.mpr h
  unfold roundEven
  split_ifs <;> omega

/-- Nor does it rise above an integer over the number. -/
theorem roundEven_le (h : q ≤ (k : ℚ)) : roundEven q ≤ k := by
  rcases lt_or_ge ⌊q⌋ k with hlt | hge
  · unfold roundEven
    split_ifs <;> omega
  · have hfloor : (⌊q⌋ : ℚ) ≤ q := Int.floor_le q
    have hk : (k : ℚ) ≤ ⌊q⌋ := by exact_mod_cast hge
    have heq : ⌊q⌋ = k := by
      have hle : (⌊q⌋ : ℚ) ≤ k := hfloor.trans h
      have hle' : ⌊q⌋ ≤ k := by exact_mod_cast hle
      omega
    have hrest : q - ⌊q⌋ < 1 / 2 := by linarith
    unfold roundEven
    rw [if_pos hrest, heq]

/-- A multiple of the last bit below the number is below the rounded one. -/
theorem le_rounded (h : (k : ℚ) * 2 ^ lastExponent q ≤ q) :
    (k : ℚ) * 2 ^ lastExponent q ≤ rounded q := by
  have hpos : (0 : ℚ) < 2 ^ lastExponent q := by positivity
  have hround := le_roundEven ((le_div_iff₀ hpos).mpr h)
  exact mul_le_mul_of_nonneg_right (by exact_mod_cast hround) hpos.le

/-- A multiple of the last bit above the number is above the rounded one. -/
theorem rounded_le (h : q ≤ (k : ℚ) * 2 ^ lastExponent q) :
    rounded q ≤ (k : ℚ) * 2 ^ lastExponent q := by
  have hpos : (0 : ℚ) < 2 ^ lastExponent q := by positivity
  have hround := roundEven_le ((div_le_iff₀ hpos).mpr h)
  exact mul_le_mul_of_nonneg_right (by exact_mod_cast hround) hpos.le

/-- Where the last bit is at most one, every integer is a multiple of it. -/
theorem exists_eq_mul_last (m : ℤ) (h : lastExponent q ≤ 0) :
    ∃ k : ℤ, (m : ℚ) = k * 2 ^ lastExponent q := by
  obtain ⟨n, hn⟩ : ∃ n : ℕ, lastExponent q = -(n : ℤ) :=
    ⟨(-lastExponent q).toNat, by omega⟩
  refine ⟨m * 2 ^ n, ?_⟩
  rw [hn, zpow_neg, zpow_natCast]
  push_cast
  rw [mul_assoc, mul_inv_cancel₀ (by positivity), mul_one]

/-- Where it is more than one, the number has more than 53 bits. -/
theorem large_of_pos (h : 0 < lastExponent q) :
    (2 : ℚ) ^ 53 ≤ 2 ^ 52 * 2 ^ lastExponent q ∧ 2 ^ 52 * 2 ^ lastExponent q ≤ |q| := by
  have hlog : Int.log 2 |q| = 52 + lastExponent q := by
    unfold lastExponent at h ⊢
    omega
  have hpow : (2 : ℚ) ^ Int.log 2 |q| = 2 ^ 52 * 2 ^ lastExponent q := by
    rw [hlog, zpow_add₀ (by norm_num)]
    norm_num
  have hq : 0 < |q| := by
    rw [abs_pos]
    rintro rfl
    rw [abs_zero, Int.log_zero_right] at hlog
    omega
  have hself : (2 : ℚ) ^ Int.log 2 |q| ≤ |q| := by
    exact_mod_cast Int.zpow_log_le_self (b := 2) (by norm_num) hq
  constructor
  · rw [← hpow, show (2 : ℚ) ^ 53 = 2 ^ (53 : ℤ) by norm_num]
    exact zpow_le_zpow_right₀ (by norm_num) (by omega)
  · rwa [← hpow]

/-- There an integer of 53 bits is not beyond the number with only the first bit. -/
theorem abs_intCast_le {m : ℤ} (hm : |m| ≤ 2 ^ 53) (h : 0 < lastExponent q) :
    |(m : ℚ)| ≤ 2 ^ 52 * 2 ^ lastExponent q := by
  have hcast : |(m : ℚ)| ≤ 2 ^ 53 := by exact_mod_cast hm
  exact hcast.trans (large_of_pos h).1

/-- **Rounding does not take a number below an integer of 53 bits.** -/
theorem intCast_le_rounded {m : ℤ} (hm : |m| ≤ 2 ^ 53) (h : (m : ℚ) ≤ q) :
    (m : ℚ) ≤ rounded q := by
  rcases le_or_gt (lastExponent q) 0 with hsmall | hlarge
  · obtain ⟨k, hk⟩ := exists_eq_mul_last m hsmall
    rw [hk] at h ⊢
    exact le_rounded h
  · have hle := (large_of_pos hlarge).2
    obtain ⟨hlow, hhigh⟩ := abs_le.mp (abs_intCast_le hm hlarge)
    rcases le_or_gt 0 q with hpos | hneg
    · rw [abs_of_nonneg hpos] at hle
      have hround := le_rounded (q := q) (k := 2 ^ 52) (by push_cast; exact hle)
      push_cast at hround
      linarith
    · rw [abs_of_neg hneg] at hle
      have hk : (m : ℚ) = ((-2 ^ 52 : ℤ) : ℚ) * 2 ^ lastExponent q := by
        push_cast
        linarith
      rw [hk] at h ⊢
      exact le_rounded h

/-- **Rounding does not take a number above an integer of 53 bits.** -/
theorem rounded_le_intCast {m : ℤ} (hm : |m| ≤ 2 ^ 53) (h : q ≤ (m : ℚ)) :
    rounded q ≤ (m : ℚ) := by
  rcases le_or_gt (lastExponent q) 0 with hsmall | hlarge
  · obtain ⟨k, hk⟩ := exists_eq_mul_last m hsmall
    rw [hk] at h ⊢
    exact rounded_le h
  · have hle := (large_of_pos hlarge).2
    obtain ⟨hlow, hhigh⟩ := abs_le.mp (abs_intCast_le hm hlarge)
    rcases le_or_gt 0 q with hpos | hneg
    · rw [abs_of_nonneg hpos] at hle
      have hk : (m : ℚ) = ((2 ^ 52 : ℤ) : ℚ) * 2 ^ lastExponent q := by
        push_cast
        linarith
      rw [hk] at h ⊢
      exact rounded_le h
    · rw [abs_of_neg hneg] at hle
      have hround := rounded_le (q := q) (k := -2 ^ 52) (by push_cast; linarith)
      push_cast at hround
      linarith

/-- The integers of 53 bits are numbers of the format. -/
theorem rounded_intCast {m : ℤ} (hm : |m| ≤ 2 ^ 53) : rounded (m : ℚ) = m :=
  le_antisymm (rounded_le_intCast hm (le_refl _)) (intCast_le_rounded hm (le_refl _))

section Comparisons

variable {m n : ℤ}

/-- An integer below 53 bits compares with an integer as with the rounded one. -/
theorem intCast_le_rounded_iff (hm : |m| < 2 ^ 53) : (m : ℚ) ≤ rounded n ↔ m ≤ n := by
  constructor
  · intro h
    by_contra hlt
    have hbelow : (n : ℚ) ≤ ((m - 1 : ℤ) : ℚ) := by exact_mod_cast (show n ≤ m - 1 by omega)
    obtain ⟨hlow, hhigh⟩ := abs_lt.mp hm
    have hbits : |m - 1| ≤ 2 ^ 53 := abs_le.mpr ⟨by omega, by omega⟩
    have hround := rounded_le_intCast hbits hbelow
    push_cast at hround
    linarith
  · exact fun h => intCast_le_rounded hm.le (by exact_mod_cast h)

/-- Comparing a rounded number with a small integer is comparing the number itself. -/
theorem rounded_le_intCast_iff (hm : |m| < 2 ^ 53) : rounded n ≤ (m : ℚ) ↔ n ≤ m := by
  constructor
  · intro h
    by_contra hlt
    have habove : ((m + 1 : ℤ) : ℚ) ≤ (n : ℚ) := by exact_mod_cast (show m + 1 ≤ n by omega)
    obtain ⟨hlow, hhigh⟩ := abs_lt.mp hm
    have hbits : |m + 1| ≤ 2 ^ 53 := abs_le.mpr ⟨by omega, by omega⟩
    have hround := intCast_le_rounded hbits habove
    push_cast at hround
    linarith
  · exact fun h => rounded_le_intCast hm.le (by exact_mod_cast h)

/-- An integer below 53 bits is far from the infinities. -/
theorem abs_lt_overflow (hm : |m| < 2 ^ 53) : (-2 ^ 1024 : ℚ) < m ∧ (m : ℚ) < 2 ^ 1024 := by
  obtain ⟨hlow, hhigh⟩ := abs_lt.mp hm
  have hlow' : (-2 ^ 53 : ℚ) < m := by exact_mod_cast hlow
  have hhigh' : (m : ℚ) < 2 ^ 53 := by exact_mod_cast hhigh
  have hpow : (2 : ℚ) ^ 53 < 2 ^ 1024 := pow_lt_pow_right₀ (by norm_num) (by norm_num)
  exact ⟨(neg_lt_neg hpow).trans hlow', hhigh'.trans hpow⟩

/-- **Comparing with an integer below 53 bits** does not see the rounding of an integer. -/
theorem le_round_intCast_iff (hm : |m| < 2 ^ 53) :
    le (finite m) (round n) = true ↔ m ≤ n := by
  obtain ⟨hlow, hhigh⟩ := abs_lt_overflow hm
  rw [← intCast_le_rounded_iff hm]
  unfold round
  split
  · next hover => exact iff_of_true rfl (hhigh.le.trans hover)
  · split
    · next hunder => exact iff_of_false nofun (not_le.mpr (hunder.trans_lt hlow))
    · exact decide_eq_true_iff

/-- The same from above. -/
theorem round_intCast_le_iff (hm : |m| < 2 ^ 53) :
    le (round n) (finite m) = true ↔ n ≤ m := by
  obtain ⟨hlow, hhigh⟩ := abs_lt_overflow hm
  rw [← rounded_le_intCast_iff hm]
  unfold round
  split
  · next hover => exact iff_of_false nofun (not_le.mpr (hhigh.trans_le hover))
  · split
    · next hunder => exact iff_of_true rfl (hunder.trans hlow.le)
    · exact decide_eq_true_iff

/-- What an integer below 53 bits is the rounded value of. -/
theorem round_intCast_eq_iff (hm : |m| < 2 ^ 53) : round n = finite m ↔ n = m := by
  obtain ⟨hlow, hhigh⟩ := abs_lt_overflow hm
  constructor
  · intro h
    have hself : (m : ℚ) ≤ m := le_refl _
    have hle : n ≤ m := (round_intCast_le_iff hm).mp (by
      rw [h]
      exact decide_eq_true hself)
    have hge : m ≤ n := (le_round_intCast_iff hm).mp (by
      rw [h]
      exact decide_eq_true hself)
    omega
  · rintro rfl
    have hexact := rounded_intCast hm.le
    unfold round
    rw [hexact, if_neg (not_le.mpr hhigh), if_neg (not_le.mpr hlow)]

/-- Integers are added exactly as long as the sum stays below 53 bits. -/
theorem add_intCast (h : |m + n| < 2 ^ 53) :
    add (finite m) (finite n) = some (finite ((m + n : ℤ) : ℚ)) := by
  have hround := (round_intCast_eq_iff h).mpr rfl
  rw [Int.cast_add] at hround ⊢
  exact congrArg some hround

end Comparisons

end Rounding

end Binary64
