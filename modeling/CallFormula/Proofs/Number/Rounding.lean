import CallFormula.Number
import Mathlib

/-!
Rounding to a magnitude, stated on rationals.
-/

set_option autoImplicit false

namespace CallFormula

namespace Number

/-- The distance to the point half way down, in steps of the magnitude. Below a power of two the
floats lie twice as close, but not at the least exponent. -/
def downGap (b : Nat) : ℚ :=
  if significand b = 2 ^ 52 ∧ minExponent < exponent b then 1 / 4 else 1 / 2

/-- The rational is nearer to the magnitude than to any other, or as near and the even one. -/
structure RoundsTo (q : ℚ) (b : Nat) : Prop where
  low : (significand b - downGap b) * 2 ^ exponent b ≤ q
  high : q ≤ (significand b + 1 / 2) * 2 ^ exponent b
  odd : significand b % 2 = 1 →
    (significand b - downGap b) * 2 ^ exponent b < q ∧ q < (significand b + 1 / 2) * 2 ^ exponent b

theorem two_zpow_pos (e : Int) : (0 : ℚ) < 2 ^ e := zpow_pos (by norm_num) e

theorem zpow_eq_div {a : ℚ} (ha : a ≠ 0) (e : Int) : a ^ e = a ^ e.toNat / a ^ (-e).toNat := by
  rw [← zpow_natCast, ← zpow_natCast, ← zpow_sub₀ ha]
  congr 1
  omega

theorem scaled_eq (num den : Nat) (e : Int) :
    ((num * 2 ^ (-e).toNat : Nat) : ℚ) / (den * 2 ^ e.toNat : Nat) = num / den / 2 ^ e := by
  rw [zpow_eq_div two_ne_zero]
  push_cast
  field_simp

theorem roundHalfEven_eq {num den m : Nat} (hlow : 2 * (m * den) ≤ 2 * num + den)
    (hhigh : 2 * num ≤ 2 * (m * den) + den)
    (hodd : m % 2 = 1 → 2 * (m * den) < 2 * num + den ∧ 2 * num < 2 * (m * den) + den)
    (hden : 0 < den) : roundHalfEven num den = m := by
  have hsplit : num / den * den + num % den = num := Nat.div_add_mod' num den
  have hrest : num % den < den := Nat.mod_lt num hden
  generalize hq : num / den = q at hsplit
  have hnear : q = m ∨ q + 1 = m := by
    by_contra hfar
    have hcases : m + 1 ≤ q ∨ q + 2 ≤ m := by omega
    cases hcases with
    | inl h =>
      have := Nat.mul_le_mul_right den h
      rw [Nat.add_mul] at this
      omega
    | inr h =>
      have := Nat.mul_le_mul_right den h
      rw [Nat.add_mul] at this
      omega
  simp only [roundHalfEven, hq]
  cases hnear with
  | inl h =>
    subst h
    split
    · rfl
    · split <;> omega
  | inr h =>
    subst h
    rw [Nat.add_mul] at hlow hhigh hodd
    split
    · omega
    · split <;> omega

theorem roundHalfEven_eq_of_rat {num den m : Nat} (hden : 0 < den)
    (hlow : (m : ℚ) - 1 / 2 ≤ num / den) (hhigh : (num : ℚ) / den ≤ m + 1 / 2)
    (hodd : m % 2 = 1 → (m : ℚ) - 1 / 2 < num / den ∧ (num : ℚ) / den < m + 1 / 2) :
    roundHalfEven num den = m := by
  have hpos : (0 : ℚ) < den := by exact_mod_cast hden
  rw [le_div_iff₀ hpos] at hlow
  rw [div_le_iff₀ hpos] at hhigh
  rw [lt_div_iff₀ hpos, div_lt_iff₀ hpos] at hodd
  refine roundHalfEven_eq ?_ ?_ ?_ hden
  · have : (2 * (m * den) : ℚ) ≤ 2 * num + den := by linarith
    exact_mod_cast this
  · have : (2 * num : ℚ) ≤ 2 * (m * den) + den := by linarith
    exact_mod_cast this
  · intro h
    obtain ⟨hlow, hhigh⟩ := hodd h
    constructor
    · have : (2 * (m * den) : ℚ) < 2 * num + den := by linarith
      exact_mod_cast this
    · have : (2 * num : ℚ) < 2 * (m * den) + den := by linarith
      exact_mod_cast this

theorem isBelowTwoPow_iff {num den : Nat} (hden : 0 < den) (e : Int) :
    isBelowTwoPow num den e = true ↔ (num : ℚ) / den < 2 ^ e := by
  have hpos : (0 : ℚ) < den := by exact_mod_cast hden
  rw [zpow_eq_div two_ne_zero, div_lt_div_iff₀ hpos (by positivity), isBelowTwoPow,
    decide_eq_true_eq]
  rw [mul_comm ((2 : ℚ) ^ e.toNat)]
  exact_mod_cast Iff.rfl

theorem binaryLog_spec {num den : Nat} (hnum : num ≠ 0) (hden : den ≠ 0) :
    (2 : ℚ) ^ binaryLog num den ≤ num / den ∧
      (num : ℚ) / den < 2 ^ (binaryLog num den + 1) := by
  have hpos : (0 : ℚ) < den := by exact_mod_cast Nat.pos_of_ne_zero hden
  have hnumLow : (2 : ℚ) ^ num.log2 ≤ num := by exact_mod_cast Nat.log2_self_le hnum
  have hnumHigh : (num : ℚ) < 2 ^ (num.log2 + 1) := by exact_mod_cast Nat.lt_log2_self
  have hdenLow : (2 : ℚ) ^ den.log2 ≤ den := by exact_mod_cast Nat.log2_self_le hden
  have hdenHigh : (den : ℚ) < 2 ^ (den.log2 + 1) := by exact_mod_cast Nat.lt_log2_self
  have hhigh : (num : ℚ) / den < 2 ^ ((num.log2 : Int) - den.log2 + 1) := by
    rw [show (num.log2 : Int) - den.log2 + 1 = (num.log2 + 1 : Nat) - (den.log2 : Nat) by omega,
      zpow_sub₀ (by norm_num), zpow_natCast, zpow_natCast, div_lt_div_iff₀ hpos (by positivity)]
    calc (num : ℚ) * 2 ^ den.log2 ≤ num * den := by gcongr
      _ < 2 ^ (num.log2 + 1) * den := by gcongr
  have hlow : (2 : ℚ) ^ ((num.log2 : Int) - den.log2 - 1) ≤ num / den := by
    rw [show (num.log2 : Int) - den.log2 - 1 = (num.log2 : Nat) - (den.log2 + 1 : Nat) by omega,
      zpow_sub₀ (by norm_num), zpow_natCast, zpow_natCast, div_le_div_iff₀ (by positivity) hpos]
    calc (2 : ℚ) ^ num.log2 * den ≤ num * den := by gcongr
      _ ≤ num * 2 ^ (den.log2 + 1) := by gcongr
  simp only [binaryLog]
  split
  · rename_i h
    rw [isBelowTwoPow_iff (Nat.pos_of_ne_zero hden)] at h
    exact ⟨hlow, by simpa using h⟩
  · rename_i h
    rw [isBelowTwoPow_iff (Nat.pos_of_ne_zero hden), not_lt] at h
    exact ⟨h, hhigh⟩

theorem minExponent_le_exponent (b : Nat) : minExponent ≤ exponent b := by
  unfold exponent
  omega

theorem two_pow_le_significand {b : Nat} (h : minExponent < exponent b) :
    2 ^ 52 ≤ significand b := by
  rw [exponent] at h
  unfold significand
  split <;> omega

theorem magnitude_eq_of_carry {b : Nat} {e : Int} (hexp : minExponent < e)
    (h : (e - minExponent).toNat * 2 ^ 52 + 2 ^ 52 = b) :
    (e - 1 - minExponent).toNat * 2 ^ 52 + 2 ^ 53 = b := by
  have hstep : (e - minExponent).toNat = (e - 1 - minExponent).toNat + 1 := by omega
  rw [← h, hstep]
  ring

theorem downGap_le (b : Nat) : downGap b ≤ 1 / 2 := by
  unfold downGap
  split <;> norm_num

variable {num den b : Nat}

theorem RoundsTo.lt_two_zpow {q : ℚ} (h : RoundsTo q b) : q < 2 ^ (exponent b + 53) := by
  have hlt : (significand b : ℚ) + 1 ≤ 2 ^ 53 := by exact_mod_cast significand_lt b
  have hpos := two_zpow_pos (exponent b)
  calc q ≤ (significand b + 1 / 2) * 2 ^ exponent b := h.high
    _ < 2 ^ 53 * 2 ^ exponent b := by gcongr; linarith
    _ = 2 ^ (exponent b + 53) := by
      rw [zpow_add₀ (by norm_num), mul_comm]
      norm_num

theorem RoundsTo.eq_zero_of_lt {q : ℚ} (h : RoundsTo q b) (hq : q < 2 ^ (minExponent - 1)) :
    b = 0 := by
  have hpos := two_zpow_pos (exponent b)
  have hgap := downGap_le b
  have hexp : (2 : ℚ) ^ (minExponent - 1) ≤ 2 ^ exponent b * (1 / 2) := by
    rw [one_div, ← zpow_sub_one₀ (by norm_num)]
    exact zpow_le_zpow_right₀ (by norm_num) (by have := minExponent_le_exponent b; omega)
  have hlt : (significand b - downGap b) * 2 ^ exponent b < 1 / 2 * 2 ^ exponent b := by
    linarith [h.low]
  have hm : (significand b : ℚ) < 1 := by
    have := lt_of_mul_lt_mul_right hlt hpos.le
    linarith
  have hzero : significand b < 1 := by exact_mod_cast hm
  rw [significand] at hzero
  split at hzero <;> omega

theorem exponent_le (hb : b < infinityBits) : exponent b ≤ 971 := by
  rw [infinityBits] at hb
  rw [exponent, minExponent]
  omega

theorem RoundsTo.roundHalfEven_eq (h : RoundsTo ((num : ℚ) / den) b) (hden : 0 < den) :
    roundHalfEven (num * 2 ^ (-exponent b).toNat) (den * 2 ^ (exponent b).toNat) =
      significand b := by
  have hpos := two_zpow_pos (exponent b)
  have hgap := downGap_le b
  have hlow := h.low
  have hodd := h.odd
  rw [← le_div_iff₀ hpos] at hlow
  rw [← lt_div_iff₀ hpos, ← div_lt_iff₀ hpos] at hodd
  refine roundHalfEven_eq_of_rat (by positivity) ?_ ?_ ?_
  · rw [scaled_eq]
    linarith
  · rw [scaled_eq, div_le_iff₀ hpos]
    exact h.high
  · intro hm
    rw [scaled_eq]
    obtain ⟨hlow, hhigh⟩ := hodd hm
    exact ⟨by linarith, hhigh⟩

/-- Below a power of two the steps are half as long: there the quotient is rounded up to twice the
significand, and the carry makes it the power of two. -/
theorem RoundsTo.roundHalfEven_eq_of_lt (h : RoundsTo ((num : ℚ) / den) b) (hden : 0 < den)
    (hlt : (num : ℚ) / den < 2 ^ (exponent b + 52)) (hexp : minExponent < exponent b) :
    significand b = 2 ^ 52 ∧ (2 : ℚ) ^ (exponent b + 51) ≤ num / den ∧
      roundHalfEven (num * 2 ^ (-(exponent b - 1)).toNat) (den * 2 ^ (exponent b - 1).toNat) =
        2 ^ 53 := by
  have hpos := two_zpow_pos (exponent b)
  have hlow := h.low
  rw [← le_div_iff₀ hpos] at hlow
  rw [add_comm, zpow_add₀ (by norm_num), ← div_lt_iff₀ hpos] at hlt
  have hm : significand b = 2 ^ 52 := by
    have hge := two_pow_le_significand hexp
    have hgap := downGap_le b
    have hlt' : (significand b : ℚ) < 2 ^ 52 + 1 := by
      norm_num at hlt
      linarith
    have : significand b < 2 ^ 52 + 1 := by exact_mod_cast hlt'
    omega
  have hgap : downGap b = 1 / 4 := if_pos ⟨hm, hexp⟩
  rw [hm, hgap] at hlow
  push_cast at hlow
  refine ⟨hm, ?_, ?_⟩
  · rw [add_comm, zpow_add₀ (by norm_num), ← le_div_iff₀ hpos]
    norm_num at hlow ⊢
    linarith
  · have hhalf : (num : ℚ) / den / 2 ^ (exponent b - 1) = num / den / 2 ^ exponent b * 2 := by
      rw [zpow_sub_one₀ (by norm_num)]
      field_simp
    refine roundHalfEven_eq_of_rat (by positivity) ?_ ?_ (fun hodd => by norm_num at hodd)
    · rw [scaled_eq, hhalf]
      push_cast
      linarith
    · rw [scaled_eq, hhalf]
      push_cast
      norm_num at hlt ⊢
      linarith

/-- What rounds to a finite magnitude is read as it. -/
theorem nearestMagnitude_eq (h : RoundsTo ((num : ℚ) / den) b) (hden : 0 < den)
    (hb : b < infinityBits) : nearestMagnitude num den = b := by
  have hmin := minExponent_le_exponent b
  have hbits := magnitude_eq_of_significand b
  unfold nearestMagnitude
  split
  · rename_i hnum
    have hzero : RoundsTo 0 b := by simpa [hnum] using h
    exact (hzero.eq_zero_of_lt (two_zpow_pos _)).symm
  · rename_i hnum
    obtain ⟨hlogLow, hlogHigh⟩ := binaryLog_spec hnum hden.ne'
    have hlogLe : binaryLog num den ≤ exponent b + 52 := by
      have := hlogLow.trans_lt h.lt_two_zpow
      rw [zpow_lt_zpow_iff_right₀ (by norm_num)] at this
      omega
    by_cases hregular : (2 : ℚ) ^ (exponent b + 52) ≤ num / den ∨ exponent b = minExponent
    · have hexp : max (binaryLog num den - 52) minExponent = exponent b := by
        cases hregular with
        | inl hge =>
          have := hge.trans_lt hlogHigh
          rw [zpow_lt_zpow_iff_right₀ (by norm_num)] at this
          omega
        | inr heq => omega
      simp only [hexp, h.roundHalfEven_eq hden, hbits]
      exact Nat.min_eq_left hb.le
    · rw [not_or, not_le] at hregular
      have hexp : minExponent < exponent b := by omega
      obtain ⟨hm, hlog, hround⟩ := h.roundHalfEven_eq_of_lt hden hregular.1 hexp
      have hbelow : max (binaryLog num den - 52) minExponent = exponent b - 1 := by
        have hlt := hlogLow.trans_lt hregular.1
        have hge := hlog.trans_lt hlogHigh
        rw [zpow_lt_zpow_iff_right₀ (by norm_num)] at hlt hge
        omega
      simp only [hbelow, hround, magnitude_eq_of_carry hexp (hm ▸ hbits)]
      exact Nat.min_eq_left hb.le

def Decimal.value (d : Decimal) : ℚ := d.digits * 10 ^ d.scale

theorem Decimal.value_eq (d : Decimal) :
    d.value = ((d.digits * 10 ^ d.scale.toNat : Nat) : ℚ) / (10 ^ (-d.scale).toNat : Nat) := by
  have hten : (10 : ℚ) ≠ 0 := by norm_num
  rw [value, zpow_eq_div hten]
  push_cast
  ring

theorem Decimal.scale_lt {d : Decimal} (h : RoundsTo d.value b) (hb : b < infinityBits)
    (hdigits : d.digits ≠ 0) : d.scale < 310 := by
  by_contra hscale
  have hone : (1 : ℚ) ≤ d.digits := by exact_mod_cast Nat.pos_of_ne_zero hdigits
  have hnat : (2 : Nat) ^ 1024 ≤ 10 ^ 310 := by decide +kernel
  have hpowers : (2 : ℚ) ^ (1024 : Int) ≤ 10 ^ (310 : Int) := by exact_mod_cast hnat
  have hlarge : (2 : ℚ) ^ (1024 : Int) ≤ d.value := by
    calc (2 : ℚ) ^ (1024 : Int) ≤ 10 ^ (310 : Int) := hpowers
      _ ≤ 10 ^ d.scale := zpow_le_zpow_right₀ (by norm_num) (by omega)
      _ ≤ d.digits * 10 ^ d.scale := le_mul_of_one_le_left (by positivity) hone
  have hlt := hlarge.trans_lt h.lt_two_zpow
  rw [zpow_lt_zpow_iff_right₀ (by norm_num)] at hlt
  have := exponent_le hb
  omega

theorem Decimal.value_lt (d : Decimal) :
    d.value < 10 ^ (((d.digits.log2 + 1 : Nat) : Int) + d.scale) := by
  have hnat : d.digits < 10 ^ (d.digits.log2 + 1) :=
    Nat.lt_log2_self.trans_le (Nat.pow_le_pow_left (by norm_num) _)
  have hdigits : (d.digits : ℚ) < 10 ^ ((d.digits.log2 + 1 : Nat) : Int) := by
    exact_mod_cast hnat
  rw [value, zpow_add₀ (by norm_num)]
  gcongr

theorem Decimal.eq_zero_of_small {d : Decimal} (h : RoundsTo d.value b)
    (hsmall : ((d.digits.log2 + 1 : Nat) : Int) + d.scale ≤ -331) : b = 0 := by
  have hnat : (2 : Nat) ^ 1075 < 10 ^ 331 := by decide +kernel
  have hpowers : (2 : ℚ) ^ (1075 : Int) < 10 ^ (331 : Int) := by exact_mod_cast hnat
  have hleast : (10 : ℚ) ^ (-331 : Int) < 2 ^ (minExponent - 1) := by
    rw [show minExponent - 1 = -1075 from rfl, zpow_neg, zpow_neg]
    exact inv_strictAnti₀ (by positivity) hpowers
  have hvalue : d.value < 10 ^ (-331 : Int) :=
    d.value_lt.trans_le (zpow_le_zpow_right₀ (by norm_num) hsmall)
  exact h.eq_zero_of_lt (hvalue.trans hleast)

theorem Decimal.nearest_eq {d : Decimal} (h : RoundsTo d.value b) (hb : b < infinityBits) :
    d.nearest = b := by
  unfold nearest
  split
  · rename_i hdigits
    have hzero : RoundsTo 0 b := by simpa [value, hdigits] using h
    exact (hzero.eq_zero_of_lt (two_zpow_pos _)).symm
  · rename_i hdigits
    split
    · have := scale_lt h hb hdigits
      omega
    · split
      · rename_i hsmall
        exact (eq_zero_of_small h (by omega)).symm
      · rw [value_eq] at h
        exact nearestMagnitude_eq h (by positivity) hb

end Number

end CallFormula
