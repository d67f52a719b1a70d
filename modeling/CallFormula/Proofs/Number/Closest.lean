import CallFormula.Proofs.Number.Bits
import CallFormula.Proofs.Number.Rounding

/-!
The nearest finite magnitude is what `nearestMagnitude` computes, below the bound of overflow.
-/

set_option autoImplicit false

namespace CallFormula

namespace Number

def magnitudeValue (b : Nat) : ℚ := significand b * 2 ^ exponent b

/-- Half a step above the greatest finite magnitude. -/
def overflowBound : ℚ := 2 ^ 1024 - 2 ^ 970

/-- No finite magnitude is closer to the rational, and none but an even one has another as close. -/
structure IsClosest (q : ℚ) (b : Nat) : Prop where
  finite : b < infinityBits
  le : ∀ a < infinityBits, |q - magnitudeValue b| ≤ |q - magnitudeValue a|
  even : ∀ a < infinityBits, a ≠ b → |q - magnitudeValue a| = |q - magnitudeValue b| →
    significand b % 2 = 0

theorem significand_mod_two (b : Nat) : significand b % 2 = b % 2 := by
  unfold significand
  split <;> omega

theorem significand_succ (b : Nat) :
    (significand (b + 1) = significand b + 1 ∧ exponent (b + 1) = exponent b) ∨
      (significand b + 1 = 2 ^ 53 ∧ significand (b + 1) = 2 ^ 52 ∧
        exponent (b + 1) = exponent b + 1) := by
  unfold significand exponent
  split <;> split <;> omega

theorem magnitudeValue_succ (b : Nat) :
    magnitudeValue (b + 1) = magnitudeValue b + 2 ^ exponent b := by
  unfold magnitudeValue
  obtain ⟨hm, he⟩ | ⟨hlast, hm, he⟩ := significand_succ b
  · rw [hm, he]
    push_cast
    ring
  · have hlast' : (significand b : ℚ) + 1 = 2 ^ 53 := by exact_mod_cast hlast
    rw [hm, he, zpow_add_one₀ (by norm_num)]
    push_cast
    linear_combination -(2 : ℚ) ^ exponent b * hlast'

theorem downGap_succ (b : Nat) :
    2 * downGap (b + 1) * 2 ^ exponent (b + 1) = (2 : ℚ) ^ exponent b := by
  obtain ⟨hm, he⟩ | ⟨-, hm, he⟩ := significand_succ b
  · have hgap : downGap (b + 1) = 1 / 2 := by
      refine if_neg fun hfull => ?_
      have := two_pow_le_significand (he ▸ hfull.2)
      omega
    rw [hgap, he]
    ring
  · have hgap : downGap (b + 1) = 1 / 4 := by
      refine if_pos ⟨hm, ?_⟩
      have := minExponent_le_exponent b
      omega
    rw [hgap, he, zpow_add_one₀ (by norm_num)]
    ring

theorem magnitudeValue_strictMono : StrictMono magnitudeValue :=
  strictMono_nat_of_lt_succ fun b => by
    rw [magnitudeValue_succ]
    exact lt_add_of_pos_right _ (two_zpow_pos _)

theorem magnitudeValue_zero : magnitudeValue 0 = 0 := by simp [magnitudeValue, significand]

theorem magnitudeValue_nonneg (b : Nat) : 0 ≤ magnitudeValue b :=
  magnitudeValue_zero ▸ magnitudeValue_strictMono.monotone b.zero_le

def midpoint (b : Nat) : ℚ := (magnitudeValue b + magnitudeValue (b + 1)) / 2

theorem midpoint_eq_low (b : Nat) :
    midpoint b = (significand (b + 1) - downGap (b + 1)) * 2 ^ exponent (b + 1) := by
  have hgap := downGap_succ b
  have hstep := magnitudeValue_succ b
  have hvalue : magnitudeValue (b + 1) = significand (b + 1) * 2 ^ exponent (b + 1) := rfl
  unfold midpoint
  linear_combination (1 / 2) * hgap - (1 / 2) * hstep + hvalue

theorem midpoint_eq_high (b : Nat) : midpoint b = (significand b + 1 / 2) * 2 ^ exponent b := by
  rw [midpoint, magnitudeValue_succ, magnitudeValue]
  ring

theorem overflowBound_eq : overflowBound = (2 ^ 53 - 1 / 2) * 2 ^ (971 : Int) := by
  have hwhole : (2 : ℚ) ^ 1024 = 2 ^ 53 * 2 ^ 971 := by rw [← pow_add]
  have hhalf : (2 : ℚ) ^ 971 = 2 * 2 ^ 970 := pow_succ' 2 970
  have hpower : (2 : ℚ) ^ (971 : Int) = 2 ^ 971 := zpow_natCast 2 971
  rw [overflowBound, hpower, hwhole, hhalf]
  generalize (2 : ℚ) ^ 970 = p
  ring

theorem midpoint_last {b : Nat} (h : b + 1 = infinityBits) : midpoint b = overflowBound := by
  obtain rfl : b = infinityBits - 1 := Nat.eq_sub_of_add_eq h
  have hm : significand (infinityBits - 1) = 2 ^ 53 - 1 := by decide +kernel
  have he : exponent (infinityBits - 1) = 971 := by decide +kernel
  rw [midpoint_eq_high, hm, he, overflowBound_eq]
  norm_num

theorem midpoint_le_of_dist_le {q : ℚ} {b : Nat}
    (h : |q - magnitudeValue (b + 1)| ≤ |q - magnitudeValue b|) : midpoint b ≤ q := by
  have hlt := magnitudeValue_strictMono b.lt_succ_self
  unfold midpoint
  by_contra hq
  rw [abs_of_nonpos (by linarith : q - magnitudeValue (b + 1) ≤ 0)] at h
  cases abs_cases (q - magnitudeValue b) <;> linarith

theorem le_midpoint_of_dist_le {q : ℚ} {b : Nat}
    (h : |q - magnitudeValue b| ≤ |q - magnitudeValue (b + 1)|) : q ≤ midpoint b := by
  have hlt := magnitudeValue_strictMono b.lt_succ_self
  unfold midpoint
  by_contra hq
  rw [abs_of_nonneg (by linarith : 0 ≤ q - magnitudeValue b)] at h
  cases abs_cases (q - magnitudeValue (b + 1)) <;> linarith

theorem dist_midpoint (b : Nat) :
    |midpoint b - magnitudeValue b| = |midpoint b - magnitudeValue (b + 1)| := by
  rw [midpoint, ← abs_neg]
  congr 1
  ring

theorem dist_lt_of_between {q : ℚ} {a b c : Nat} (hab : a < b) (hbc : b < c)
    (h : |q - magnitudeValue a| = |q - magnitudeValue c|) :
    |q - magnitudeValue b| < |q - magnitudeValue a| := by
  have hlow := magnitudeValue_strictMono hab
  have hhigh := magnitudeValue_strictMono hbc
  cases abs_cases (q - magnitudeValue a) <;> cases abs_cases (q - magnitudeValue b) <;>
    cases abs_cases (q - magnitudeValue c) <;> linarith

/-- The first by distance, and of two at the same distance the even one before the odd one. -/
theorem exists_isClosest (q : ℚ) : ∃ b, IsClosest q b := by
  let rank (b : Nat) : ℚ ×ₗ Nat := toLex (|q - magnitudeValue b|, significand b % 2)
  have hzero : 0 ∈ Finset.range infinityBits := Finset.mem_range.2 (by decide)
  obtain ⟨b, hb, hmin⟩ := Finset.exists_min_image _ rank ⟨0, hzero⟩
  rw [Finset.mem_range] at hb
  have hle : ∀ a < infinityBits, |q - magnitudeValue b| ≤ |q - magnitudeValue a| := by
    intro a ha
    rcases Prod.Lex.toLex_le_toLex.1 (hmin a (Finset.mem_range.2 ha)) with h | h
    · exact h.le
    · exact h.1.le
  refine ⟨b, hb, hle, fun a ha hne htie => ?_⟩
  have hparity : significand b % 2 ≤ significand a % 2 := by
    rcases Prod.Lex.toLex_le_toLex.1 (hmin a (Finset.mem_range.2 ha)) with h | h
    · exact absurd htie h.ne'
    · exact h.2
  rw [significand_mod_two, significand_mod_two] at hparity
  rw [significand_mod_two]
  by_contra hodd
  -- Two odd magnitudes have an even one between them, which would be closer than both.
  rcases Nat.lt_or_gt_of_ne hne with hlt | hlt
  · have hnear := dist_lt_of_between (b := a + 1) a.lt_succ_self (by omega) htie
    have := hle (a + 1) (by omega)
    linarith
  · have hnear := dist_lt_of_between (b := b + 1) b.lt_succ_self (by omega) htie.symm
    have := hle (b + 1) (by omega)
    linarith

theorem IsClosest.midpoint_le {q : ℚ} {b : Nat} (h : IsClosest q (b + 1)) :
    midpoint b ≤ q ∧ (significand (b + 1) % 2 = 1 → midpoint b < q) := by
  have hb : b < infinityBits := b.lt_succ_self.trans h.finite
  have hle := midpoint_le_of_dist_le (h.le b hb)
  refine ⟨hle, fun hodd => hle.lt_of_ne fun heq => ?_⟩
  have := h.even b hb b.lt_succ_self.ne (heq ▸ dist_midpoint b)
  omega

theorem IsClosest.le_midpoint {q : ℚ} {b : Nat} (h : IsClosest q b) (hq : q < overflowBound) :
    q ≤ midpoint b ∧ (significand b % 2 = 1 → q < midpoint b) := by
  rcases Nat.lt_or_eq_of_le h.finite with hb | hb
  · have hle := le_midpoint_of_dist_le (h.le (b + 1) hb)
    refine ⟨hle, fun hodd => hle.lt_of_ne fun heq => ?_⟩
    have := h.even (b + 1) hb b.lt_succ_self.ne' (heq ▸ (dist_midpoint b).symm)
    omega
  · rw [midpoint_last hb]
    exact ⟨hq.le, fun _ => hq⟩

theorem IsClosest.roundsTo {q : ℚ} {b : Nat} (h : IsClosest q b) (hnonneg : 0 ≤ q)
    (hq : q < overflowBound) : RoundsTo q b := by
  obtain ⟨hhigh, hodd⟩ := h.le_midpoint hq
  rw [midpoint_eq_high] at hhigh hodd
  cases b with
  | zero =>
    have hgap : 0 ≤ downGap 0 * 2 ^ exponent 0 :=
      mul_nonneg (by unfold downGap; split <;> norm_num) (two_zpow_pos _).le
    have hm : significand 0 = 0 := rfl
    refine ⟨?_, hhigh, fun h => by rw [hm] at h; cases h⟩
    rw [hm, Nat.cast_zero, zero_sub, neg_mul]
    linarith
  | succ b =>
    obtain ⟨hlow, hodd'⟩ := h.midpoint_le
    rw [midpoint_eq_low] at hlow hodd'
    exact ⟨hlow, hhigh, fun h => ⟨hodd' h, hodd h⟩⟩

theorem Decimal.value_nonneg (d : Decimal) : 0 ≤ d.value := by
  unfold value
  positivity

theorem Decimal.isClosest_nearest {d : Decimal} (h : d.value < overflowBound) :
    IsClosest d.value d.nearest := by
  obtain ⟨b, hb⟩ := exists_isClosest d.value
  rwa [Decimal.nearest_eq (hb.roundsTo d.value_nonneg h) hb.finite]

theorem le_roundHalfEven {num den m : Nat} (hden : 0 < den) (heven : m % 2 = 0)
    (h : (m : ℚ) - 1 / 2 ≤ num / den) : m ≤ roundHalfEven num den := by
  have hpos : (0 : ℚ) < den := by exact_mod_cast hden
  rw [le_div_iff₀ hpos] at h
  have hnat : 2 * (m * den) ≤ 2 * num + den := by
    have : (2 * (m * den) : ℚ) ≤ 2 * num + den := by linarith
    exact_mod_cast this
  have hsplit : num / den * den + num % den = num := Nat.div_add_mod' num den
  have hrest : num % den < den := Nat.mod_lt num hden
  generalize hq : num / den = q at hsplit
  have hnear : m ≤ q + 1 := by
    by_contra hfar
    have := Nat.mul_le_mul_right den (show q + 2 ≤ m by omega)
    rw [Nat.add_mul] at this
    omega
  simp only [roundHalfEven, hq]
  rcases Nat.lt_or_eq_of_le hnear with hlt | heq
  · split
    · omega
    · split <;> omega
  · subst heq
    rw [Nat.add_mul] at hnat
    split
    · omega
    · split <;> omega

theorem two_zpow_le_overflowBound : (2 : ℚ) ^ (1023 : Int) ≤ overflowBound := by
  rw [overflowBound_eq, show (1023 : Int) = 52 + 971 from rfl, zpow_add₀ (by norm_num)]
  exact mul_le_mul_of_nonneg_right (by norm_num) (two_zpow_pos 971).le

theorem nearestMagnitude_eq_infinityBits {num den : Nat} (hden : 0 < den)
    (h : overflowBound ≤ num / den) : nearestMagnitude num den = infinityBits := by
  have hlarge : (2 : ℚ) ^ (1023 : Int) ≤ num / den := two_zpow_le_overflowBound.trans h
  have hnum : num ≠ 0 := by
    rintro rfl
    rw [Nat.cast_zero, zero_div] at hlarge
    exact (two_zpow_pos 1023).not_ge hlarge
  obtain ⟨hlogLow, hlogHigh⟩ := binaryLog_spec hnum hden.ne'
  unfold nearestMagnitude
  rw [if_neg hnum]
  -- The exponent by which the quotient is scaled is that of the greatest magnitude or above.
  obtain ⟨e, he⟩ : ∃ e, binaryLog num den = e + 52 := ⟨binaryLog num den - 52, by omega⟩
  have hge : 971 ≤ e := by
    have := hlarge.trans_lt hlogHigh
    rw [zpow_lt_zpow_iff_right₀ (by norm_num)] at this
    omega
  have hexp : max (binaryLog num den - 52) minExponent = e := by
    rw [minExponent]
    omega
  rw [he, zpow_add₀ (by norm_num)] at hlogLow
  simp only [hexp]
  refine Nat.min_eq_right ?_
  rcases Int.lt_or_eq_of_le hge with hlarger | hlast
  · have hm : 2 ^ 52 ≤ roundHalfEven (num * 2 ^ (-e).toNat) (den * 2 ^ e.toNat) := by
      refine le_roundHalfEven (by positivity) (by norm_num) ?_
      rw [scaled_eq, le_div_iff₀ (two_zpow_pos e)]
      rw [mul_comm] at hlogLow
      exact (mul_le_mul_of_nonneg_right (by norm_num) (two_zpow_pos e).le).trans hlogLow
    rw [infinityBits, minExponent]
    omega
  · have hm : 2 ^ 53 ≤ roundHalfEven (num * 2 ^ (-e).toNat) (den * 2 ^ e.toNat) := by
      refine le_roundHalfEven (by positivity) (by norm_num) ?_
      rw [overflowBound_eq, hlast] at h
      rw [scaled_eq, le_div_iff₀ (two_zpow_pos e)]
      exact_mod_cast h
    rw [infinityBits, minExponent]
    omega

theorem Decimal.nearest_eq_infinityBits {d : Decimal} (h : overflowBound ≤ d.value) :
    d.nearest = infinityBits := by
  have hpos : (1 : ℚ) < d.value :=
    (one_lt_zpow₀ (by norm_num) (by norm_num)).trans_le (two_zpow_le_overflowBound.trans h)
  unfold nearest
  split
  · rename_i hdigits
    rw [value, hdigits, Nat.cast_zero, zero_mul] at hpos
    exact absurd hpos (by norm_num)
  · split
    · rfl
    · split
      · rename_i hsmall
        have hlt := hpos.trans d.value_lt
        rw [one_lt_zpow_iff_right₀ (by norm_num)] at hlt
        omega
      · rw [value_eq] at h
        exact Number.nearestMagnitude_eq_infinityBits (by positivity) h

def signed (negative : Bool) (q : ℚ) : ℚ := if negative then -q else q

def toRat (x : Float) : ℚ := signed (isNegative x) (magnitudeValue (magnitude x))

/-- No finite float is closer to the rational, and none but an even one has another value as
close. -/
structure IsNearest (q : ℚ) (x : Float) : Prop where
  finite : x.isFinite = true
  le : ∀ y : Float, y.isFinite = true → |q - toRat x| ≤ |q - toRat y|
  even : ∀ y : Float, y.isFinite = true → toRat y ≠ toRat x → |q - toRat y| = |q - toRat x| →
    significand (magnitude x) % 2 = 0

theorem abs_signed (negative : Bool) {q : ℚ} (h : 0 ≤ q) : |signed negative q| = q := by
  cases negative with
  | true => exact (abs_neg q).trans (abs_of_nonneg h)
  | false => exact abs_of_nonneg h

theorem signed_neg_iff {negative : Bool} {q : ℚ} (hq : 0 < q) :
    signed negative q < 0 ↔ negative = true := by
  cases negative with
  | true => simpa [signed] using hq
  | false => simpa [signed] using hq.le

theorem dist_signed (negative : Bool) (q v : ℚ) :
    |signed negative q - signed negative v| = |q - v| := by
  cases negative with
  | true => rw [signed, signed, if_pos rfl, if_pos rfl, neg_sub_neg, abs_sub_comm]
  | false => rfl

theorem abs_toRat (x : Float) : |toRat x| = magnitudeValue (magnitude x) :=
  abs_signed _ (magnitudeValue_nonneg _)

theorem eq_zero_of_dist_neg {q x : ℚ} (h : |q - -x| = |q - x|) (hzero : q = 0 → x = 0) : x = 0 := by
  rcases abs_eq_abs.1 h with h | h
  · linarith
  · exact hzero (by linarith)

theorem IsClosest.magnitudeValue_eq_zero {b : Nat} (h : IsClosest 0 b) : magnitudeValue b = 0 := by
  have hle := h.le 0 (by decide)
  rwa [magnitudeValue_zero, sub_zero, abs_zero, abs_nonpos_iff, zero_sub, neg_eq_zero] at hle

/-- The sign changes no distance between numbers that share it, and makes none smaller. -/
theorem IsClosest.isNearest {q : ℚ} {b : Nat} (h : IsClosest q b) (hq : 0 ≤ q) (negative : Bool) :
    IsNearest (signed negative q) (ofMagnitude negative b) := by
  have hmagnitude := magnitude_ofMagnitude negative h.finite.le
  have hvalue : toRat (ofMagnitude negative b) = signed negative (magnitudeValue b) := by
    rw [toRat, hmagnitude, isNegative_ofMagnitude negative h.finite.le]
  generalize ofMagnitude negative b = x at hmagnitude hvalue ⊢
  have hdist : |signed negative q - toRat x| = |q - magnitudeValue b| := by
    rw [hvalue, dist_signed]
  have hfar : ∀ y, |q - magnitudeValue (magnitude y)| ≤ |signed negative q - toRat y| := by
    intro y
    have hle := abs_abs_sub_abs_le (signed negative q) (toRat y)
    rwa [abs_signed negative hq, abs_toRat] at hle
  refine ⟨(isFinite_iff x).2 (hmagnitude ▸ h.finite), fun y hy => ?_, fun y hy hne htie => ?_⟩
  · rw [hdist]
    exact (h.le _ ((isFinite_iff y).1 hy)).trans (hfar y)
  · rw [isFinite_iff] at hy
    rw [hmagnitude]
    by_cases hsame : magnitude y = b
    · have habs : |toRat y| = |toRat x| := by rw [abs_toRat, abs_toRat, hsame, hmagnitude]
      have hneg : toRat y = -toRat x := (abs_eq_abs.1 habs).resolve_left hne
      have hzero : toRat x = 0 := by
        refine eq_zero_of_dist_neg (hneg ▸ htie) fun hsigned => ?_
        have hq0 : q = 0 := by rw [← abs_signed negative hq, hsigned, abs_zero]
        rw [← abs_eq_zero, abs_toRat, hmagnitude]
        exact (hq0 ▸ h).magnitudeValue_eq_zero
      rw [hneg, hzero, neg_zero] at hne
      exact absurd rfl hne
    · refine h.even _ hy hsame (le_antisymm ?_ (h.le _ hy))
      rw [← hdist, ← htie]
      exact hfar y

theorem not_isFinite_infinity (negative : Bool) : ¬(infinity negative).isFinite = true := by
  rw [isFinite_iff, infinity, magnitude_ofMagnitude negative le_rfl]
  exact lt_irrefl _

end Number

end CallFormula
