import CallFormula.Proofs.Number.Bits
import CallFormula.Proofs.Number.Rounding
import CallFormula.Proofs.Registry.Names

set_option autoImplicit false

namespace CallFormula

namespace Number

theorem contains_of_onGrid {i : Interval} {n j d : Nat} (h : onGrid i n j = some d) :
    i.contains (4 * (d * 10 ^ j)) = true := by
  simp only [onGrid] at h
  split at h
  · rename_i hboth
    rw [Bool.and_eq_true] at hboth
    cases h
    split
    · exact hboth.1
    · exact hboth.2
  · split at h
    · rename_i hdown
      cases h
      exact hdown
    · split at h
      · rename_i hup
        cases h
        exact hup
      · cases h

theorem contains_firstHit {i : Interval} {n : Nat} (h : i.contains (4 * n) = true) (j : Nat) :
    i.contains (4 * ((firstHit i n j).1 * 10 ^ (firstHit i n j).2)) = true := by
  induction j with
  | zero => simpa [firstHit] using h
  | succ j ih =>
    unfold firstHit
    split
    · rename_i d hd
      exact contains_of_onGrid hd
    · exact ih

theorem unitSteps_pos (e : Int) : 0 < unitSteps e := by
  unfold unitSteps
  positivity

theorem unitSteps_mul (e : Int) : (unitSteps e : ℚ) * 10 ^ min e 0 = 2 ^ e := by
  have hten : (10 : ℚ) ^ min e 0 = 1 / (2 ^ (-e).toNat * 5 ^ (-e).toNat) := by
    rw [← mul_pow, show min e 0 = -((-e).toNat : Int) by omega, zpow_neg, zpow_natCast, one_div]
    norm_num
  rw [hten, zpow_eq_div two_ne_zero, unitSteps]
  push_cast
  field_simp

theorem significand_pos {b : Nat} (hb : 0 < b) : 0 < significand b := by
  unfold significand
  split <;> omega

theorem interval_low {b : Nat} (hb : 0 < b) : ((interval b).low : ℚ) =
    4 * (significand b - downGap b) * unitSteps (exponent b) := by
  have hm := significand_pos hb
  simp only [interval, downGap]
  split
  · rw [Nat.cast_mul, Nat.cast_sub (by omega)]
    push_cast
    ring
  · rw [Nat.cast_mul, Nat.cast_sub (by omega)]
    push_cast
    ring

theorem interval_high (b : Nat) : ((interval b).high : ℚ) =
    4 * (significand b + 1 / 2) * unitSteps (exponent b) := by
  simp only [interval]
  push_cast
  ring

theorem contains_iff (i : Interval) (n : Nat) : i.contains n = true ↔
    i.low ≤ n ∧ n ≤ i.high ∧ (i.closed = false → i.low < n ∧ n < i.high) := by
  unfold Interval.contains
  cases i.closed with
  | true => simp
  | false =>
    simp
    omega

theorem downGap_pos (b : Nat) : 0 < downGap b := by
  unfold downGap
  split <;> norm_num

theorem roundsTo_of_contains {b n : Nat} (hb : 0 < b)
    (h : (interval b).contains (4 * n) = true) : RoundsTo (n * 10 ^ min (exponent b) 0) b := by
  obtain ⟨hlow, hhigh, hopen⟩ := (contains_iff _ _).1 h
  rw [← Nat.cast_le (α := ℚ), interval_low hb] at hlow
  rw [← Nat.cast_le (α := ℚ), interval_high] at hhigh
  rw [← Nat.cast_lt (α := ℚ), ← Nat.cast_lt (α := ℚ), interval_low hb, interval_high] at hopen
  push_cast at hlow hhigh hopen
  have hten : (0 : ℚ) < 10 ^ min (exponent b) 0 := by positivity
  constructor
  · rw [← unitSteps_mul, ← mul_assoc]
    exact mul_le_mul_of_nonneg_right (by linarith) hten.le
  · rw [← unitSteps_mul, ← mul_assoc]
    exact mul_le_mul_of_nonneg_right (by linarith) hten.le
  · intro hodd
    have hclosed : (interval b).closed = false := by simp [interval, hodd]
    obtain ⟨hlow, hhigh⟩ := hopen hclosed
    rw [← unitSteps_mul, ← mul_assoc, ← mul_assoc]
    exact ⟨mul_lt_mul_of_pos_right (by linarith) hten, mul_lt_mul_of_pos_right (by linarith) hten⟩

theorem contains_self {b : Nat} (hb : 0 < b) :
    (interval b).contains (4 * (significand b * unitSteps (exponent b))) = true := by
  have hunit : (0 : ℚ) < unitSteps (exponent b) := by exact_mod_cast unitSteps_pos (exponent b)
  have hgap := mul_pos (downGap_pos b) hunit
  have hlow : (interval b).low < 4 * (significand b * unitSteps (exponent b)) := by
    rw [← Nat.cast_lt (α := ℚ), interval_low hb]
    push_cast
    linarith
  have hhigh : 4 * (significand b * unitSteps (exponent b)) < (interval b).high := by
    rw [← Nat.cast_lt (α := ℚ), interval_high]
    push_cast
    linarith
  exact (contains_iff _ _).2 ⟨hlow.le, hhigh.le, fun _ => ⟨hlow, hhigh⟩⟩

/-- The shortest decimal rounds back. -/
theorem roundsTo_shortest {b : Nat} (hb : 0 < b) :
    RoundsTo (Decimal.value ⟨(shortest b).1, (shortest b).2⟩) b := by
  have hhit := contains_firstHit (contains_self hb)
    (Nat.toDigits 10 (significand b * unitSteps (exponent b))).length
  have hrounds := roundsTo_of_contains hb hhit
  rw [Decimal.value, shortest]
  rwa [Nat.cast_mul, mul_assoc, Nat.cast_pow, Nat.cast_ofNat, ← zpow_natCast,
    ← zpow_add₀ (by norm_num), add_comm] at hrounds

open Lexeme

theorem splitDigits_of_digits {s : Text} (h : ∀ c ∈ s, c.isDigit = true) :
    splitDigits s = (s, []) := by
  simp [splitDigits, List.takeWhile_eq_self_iff.2 h, List.dropWhile_eq_nil_iff.2 h]

theorem splitDigits_point {s t : Text} (h : ∀ c ∈ s, c.isDigit = true) :
    splitDigits (s ++ '.' :: t) = (s, '.' :: t) := by
  simp [splitDigits, List.takeWhile_append_of_pos h, List.dropWhile_append_of_pos h]

theorem readDecimal_whole {s : Text} (hne : s ≠ []) (h : ∀ c ∈ s, c.isDigit = true) :
    readDecimal s = some ⟨digitsValue s, 0⟩ := by
  simp [readDecimal, splitDigits_of_digits h, splitFraction, readExponent, hne]

theorem readDecimal_pointed {s t : Text} (hne : s ≠ [] ∨ t ≠ [])
    (hs : ∀ c ∈ s, c.isDigit = true) (ht : ∀ c ∈ t, c.isDigit = true) :
    readDecimal (s ++ '.' :: t) = some ⟨digitsValue (s ++ t), -t.length⟩ := by
  have hsome : ¬(s = [] ∧ t = []) := by
    intro h
    cases hne with
    | inl hs => exact hs h.1
    | inr ht => exact ht h.2
  simp [readDecimal, splitDigits_point hs, splitDigits_of_digits ht, splitFraction, readExponent,
    hsome]

theorem lower_ne_word {t w : Text} {c : Char} (h : IsUnsigned t) (hc : c.isAlpha = true) :
    lower t ≠ c :: w := by
  rw [Text.lower_of_isLiteral (.unsigned h)]
  rintro rfl
  rw [(h.forall_isLiteralChar c List.mem_cons_self).isAlpha_eq_false] at hc
  cases hc

theorem splitSign_unsigned {t : Text} (h : IsUnsigned t) : splitSign t = (false, t) := by
  obtain ⟨c, t, rfl⟩ := List.exists_cons_of_ne_nil h.ne_nil
  have hsign := isSign_eq_false_of_head h.head
  unfold splitSign
  split
  · rename_i heq
    cases heq
    cases hsign
  · rename_i heq
    cases heq
    cases hsign
  · rfl

theorem read_of_splitSign {s t : Text} {negative : Bool} {d : Decimal} (h : IsUnsigned t)
    (hsplit : splitSign s = (negative, t)) (hd : readDecimal t = some d) :
    read s = some (ofMagnitude negative d.nearest) := by
  have hinf : ¬(lower t = ['i', 'n', 'f'] ∨
      lower t = ['i', 'n', 'f', 'i', 'n', 'i', 't', 'y']) := by
    intro hword
    cases hword with
    | inl hword => exact lower_ne_word h (by decide) hword
    | inr hword => exact lower_ne_word h (by decide) hword
  have hnan : lower t ≠ ['n', 'a', 'n'] := lower_ne_word h (by decide)
  simp only [read, hsplit]
  rw [if_neg hinf, if_neg hnan, hd, Option.map_some]

theorem isDigit_of_mem_digits {n : Nat} {c : Char} (h : c ∈ digits n) : c.isDigit = true :=
  Nat.isDigit_of_mem_toDigits (by decide) (by decide) h

theorem isDigit_of_mem_zeros {n : Nat} {c : Char} (h : c ∈ List.replicate n '0') :
    c.isDigit = true := by
  rw [List.eq_of_mem_replicate h]
  decide

theorem digitsValue_eq (ds : Text) : digitsValue ds = Nat.ofDigitChars 10 ds 0 := rfl

theorem digitsValue_digits_zeros (n k : Nat) :
    digitsValue (digits n ++ List.replicate k '0') = n * 10 ^ k := by
  rw [digitsValue_eq, Nat.ofDigitChars_append, digits, Nat.ofDigitChars_ten_toDigits,
    Nat.ofDigitChars_replicate_zero, Nat.mul_comm]

theorem digitsValue_zeros_digits (n k : Nat) :
    digitsValue (List.replicate k '0' ++ digits n) = n := by
  rw [digitsValue_eq, Nat.ofDigitChars_append, Nat.ofDigitChars_replicate_zero, Nat.mul_zero,
    digits, Nat.ofDigitChars_ten_toDigits]

theorem isDigit_of_mem_padded {n j k : Nat} {c : Char}
    (h : c ∈ List.replicate j '0' ++ digits n ++ List.replicate k '0') : c.isDigit = true := by
  rw [List.mem_append, List.mem_append] at h
  cases h with
  | inl h =>
    cases h with
    | inl h => exact isDigit_of_mem_zeros h
    | inr h => exact isDigit_of_mem_digits h
  | inr h => exact isDigit_of_mem_zeros h

theorem readDecimal_cut {ds : Text} {k : Nat} (h : ∀ c ∈ ds, c.isDigit = true)
    (hk : k < ds.length) :
    IsUnsigned (ds.take (ds.length - k) ++ '.' :: ds.drop (ds.length - k)) ∧
      readDecimal (ds.take (ds.length - k) ++ '.' :: ds.drop (ds.length - k)) =
        some ⟨digitsValue ds, -k⟩ := by
  have hne : ds.take (ds.length - k) ≠ [] := by
    rw [Ne, List.take_eq_nil_iff, ← List.length_eq_zero_iff]
    omega
  have htake : ∀ c ∈ ds.take (ds.length - k), c.isDigit = true :=
    fun c hc => h c (List.mem_of_mem_take hc)
  have hdrop : ∀ c ∈ ds.drop (ds.length - k), c.isDigit = true :=
    fun c hc => h c (List.mem_of_mem_drop hc)
  refine ⟨.pointed hne htake hdrop, ?_⟩
  rw [readDecimal_pointed (.inl hne) htake hdrop, List.take_append_drop, List.length_drop,
    Nat.sub_sub_self hk.le]

/-- Digits with a point set among them are a literal for the number that they spell. -/
theorem readDecimal_positionalText (n : Nat) (places : Int) :
    IsUnsigned (Layout.plain.positionalText (digits n) places) ∧
      ∃ d, readDecimal (Layout.plain.positionalText (digits n) places) = some d ∧
        d.value = Decimal.value ⟨n, -places⟩ := by
  have hne : digits n ≠ [] := Nat.toDigits_ne_nil
  unfold Layout.positionalText
  split
  · rename_i hplaces
    have hdigit : ∀ c ∈ digits n ++ List.replicate (-places).toNat '0', c.isDigit = true :=
      fun c hc => isDigit_of_mem_padded (j := 0) hc
    have hpadded : digits n ++ List.replicate (-places).toNat '0' ≠ [] := by simp [hne]
    have hpow : (10 : ℚ) ^ (-places) = 10 ^ (-places).toNat := by
      rw [← zpow_natCast, Int.toNat_of_nonneg (by omega)]
    simp only [Layout.plain, Bool.false_eq_true, if_false, List.append_nil]
    refine ⟨.whole hpadded hdigit, _, readDecimal_whole hpadded hdigit, ?_⟩
    rw [digitsValue_digits_zeros, Decimal.value, Decimal.value, hpow]
    push_cast
    simp
  · rename_i hplaces
    have hdigit : ∀ c ∈ List.replicate (places.toNat + 1 - (digits n).length) '0' ++ digits n,
        c.isDigit = true :=
      fun c hc => isDigit_of_mem_padded (k := 0) (by simpa using hc)
    have hlong : places.toNat <
        (List.replicate (places.toNat + 1 - (digits n).length) '0' ++ digits n).length := by
      rw [List.length_append, List.length_replicate]
      omega
    obtain ⟨hliteral, hread⟩ := readDecimal_cut hdigit hlong
    refine ⟨hliteral, _, hread, ?_⟩
    rw [digitsValue_zeros_digits, Int.toNat_of_nonneg (by omega)]

theorem roundsTo_zero : RoundsTo 0 0 := by
  have hm : significand 0 = 0 := rfl
  have hgap : downGap 0 = 1 / 2 := by simp [downGap, hm]
  have hpos := two_zpow_pos (exponent 0)
  constructor
  · rw [hm, hgap]
    push_cast
    linarith
  · rw [hm]
    push_cast
    linarith
  · intro h
    cases h

theorem readDecimal_magnitudeText {b : Nat} (hb : b < infinityBits) :
    IsUnsigned (Layout.plain.magnitudeText b) ∧
      ∃ d, readDecimal (Layout.plain.magnitudeText b) = some d ∧ d.nearest = b := by
  unfold Layout.magnitudeText
  split
  · rename_i hzero
    obtain ⟨hliteral, d, hd, hvalue⟩ := readDecimal_positionalText 0 0
    have hrounds : RoundsTo d.value 0 := by
      rw [hvalue, Decimal.value]
      simpa using roundsTo_zero
    exact ⟨hliteral, d, hd, hzero ▸ Decimal.nearest_eq hrounds (by decide)⟩
  · rename_i hpos
    obtain ⟨hliteral, d, hd, hvalue⟩ :=
      readDecimal_positionalText (shortest b).1 (-(shortest b).2)
    rw [neg_neg] at hvalue
    have hrounds := roundsTo_shortest (Nat.pos_of_ne_zero hpos)
    exact ⟨hliteral, d, hd, Decimal.nearest_eq (hvalue ▸ hrounds) hb⟩

theorem text_eq {x : Float} (h : x.isFinite = true) :
    text x = (if isNegative x then ['-'] else []) ++ Layout.plain.magnitudeText (magnitude x) := by
  have hlt := (isFinite_iff x).1 h
  simp only [text, Layout.text]
  rw [if_neg hlt.not_gt, if_neg hlt.ne]

theorem isLiteral_text {x : Float} (h : x.isFinite = true) : IsLiteral (text x) := by
  have hliteral := (readDecimal_magnitudeText ((isFinite_iff x).1 h)).1
  rw [text_eq h]
  cases isNegative x with
  | true => exact .signed (.inr rfl) hliteral
  | false => exact .unsigned hliteral

/-- Reading undoes printing, bit for bit, so that the sign of a zero is kept. -/
theorem read_text {x : Float} (h : x.isFinite = true) : read (text x) = some x := by
  obtain ⟨hliteral, d, hd, hnearest⟩ := readDecimal_magnitudeText ((isFinite_iff x).1 h)
  have hsplit : splitSign (text x) = (isNegative x, Layout.plain.magnitudeText (magnitude x)) := by
    rw [text_eq h]
    cases isNegative x with
    | true => rfl
    | false => exact splitSign_unsigned hliteral
  rw [read_of_splitSign hliteral hsplit hd, hnearest, ofMagnitude_magnitude]

end Number

end CallFormula
