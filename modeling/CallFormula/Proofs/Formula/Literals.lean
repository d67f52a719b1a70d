import CallFormula.Context
import CallFormula.Proofs.Formula.Purity
import CallFormula.Proofs.Formula.Pieces
import CallFormula.Proofs.Formula.Sketch
import CallFormula.Proofs.Number.Closest
import CallFormula.Proofs.Number.Texts

set_option autoImplicit false

namespace CallFormula

namespace Lexeme

def digitValue (c : Char) : ℚ := (c.toNat - '0'.toNat : Nat)

/-- The value of digits in front of the point: a digit counts by how many follow it. -/
def wholeValue : Text → ℚ
  | [] => 0
  | d :: ds => digitValue d * 10 ^ ds.length + wholeValue ds

/-- The value of digits behind the point: each one counts a tenth of the one in front of it. -/
def fractionValue : Text → ℚ
  | [] => 0
  | d :: ds => (digitValue d + fractionValue ds) / 10

def unsignedValue (t : Text) : ℚ :=
  wholeValue (t.takeWhile Char.isDigit) + fractionValue ((t.dropWhile Char.isDigit).drop 1)

def literalValue : Text → ℚ
  | '-' :: t => -unsignedValue t
  | '+' :: t => unsignedValue t
  | t => unsignedValue t

example : literalValue "-12.50".toList = -25 / 2 ∧ literalValue "+.5".toList = 1 / 2 := by
  decide +kernel

theorem fractionValue_eq (ds : Text) : fractionValue ds = wholeValue ds / 10 ^ ds.length := by
  induction ds with
  | nil => simp [fractionValue, wholeValue]
  | cons d ds ih =>
    rw [fractionValue, wholeValue, ih, List.length_cons, pow_succ]
    field_simp

theorem wholeValue_append (s t : Text) :
    wholeValue (s ++ t) = wholeValue s * 10 ^ t.length + wholeValue t := by
  induction s with
  | nil => simp [wholeValue]
  | cons d s ih =>
    rw [List.cons_append, wholeValue, wholeValue, ih, List.length_append, pow_add]
    ring

theorem digitsValue_eq_wholeValue (ds : Text) : (Number.digitsValue ds : ℚ) = wholeValue ds := by
  induction ds using List.reverseRecOn with
  | nil => rfl
  | append_singleton ds d ih =>
    have hlast : Number.digitsValue (ds ++ [d]) =
        10 * Number.digitsValue ds + (d.toNat - '0'.toNat) := List.foldl_append
    rw [wholeValue_append, ← ih, hlast, wholeValue, wholeValue, digitValue,
      List.length_singleton, List.length_nil]
    push_cast
    ring

theorem value_pointed (s t : Text) : Number.Decimal.value ⟨Number.digitsValue (s ++ t), -t.length⟩ =
    wholeValue s + fractionValue t := by
  rw [Number.Decimal.value, digitsValue_eq_wholeValue, wholeValue_append, fractionValue_eq,
    zpow_neg, zpow_natCast]
  field_simp

theorem unsignedValue_pointed {s t : Text} (h : ∀ c ∈ s, c.isDigit = true) :
    unsignedValue (s ++ '.' :: t) = wholeValue s + fractionValue t := by
  obtain ⟨hwhole, hrest⟩ := Prod.mk.inj (Number.splitDigits_point (t := t) h)
  rw [unsignedValue, hwhole, hrest, List.drop_one, List.tail_cons]

theorem unsignedValue_whole {s : Text} (h : ∀ c ∈ s, c.isDigit = true) :
    unsignedValue s = wholeValue s := by
  obtain ⟨hwhole, hrest⟩ := Prod.mk.inj (Number.splitDigits_of_digits h)
  rw [unsignedValue, hwhole, hrest, List.drop_nil, fractionValue, add_zero]

theorem IsUnsigned.exists_readDecimal {t : Text} (h : IsUnsigned t) :
    ∃ d, Number.readDecimal t = some d ∧ d.value = unsignedValue t := by
  cases h with
  | pointed hne hw hf =>
    refine ⟨_, Number.readDecimal_pointed (.inl hne) hw hf, ?_⟩
    rw [value_pointed, unsignedValue_pointed hw]
  | @fraction fraction hne hf =>
    have hnone : ∀ c ∈ ([] : Text), c.isDigit = true := fun c hc => absurd hc List.not_mem_nil
    refine ⟨_, Number.readDecimal_pointed (.inr hne) hnone hf, ?_⟩
    rw [value_pointed, ← unsignedValue_pointed hnone, List.nil_append]
  | whole hne hw =>
    refine ⟨_, Number.readDecimal_whole hne hw, ?_⟩
    rw [Number.Decimal.value, zpow_zero, mul_one, digitsValue_eq_wholeValue, unsignedValue_whole hw]

theorem IsUnsigned.isSign_head {c : Char} {t : Text} (h : IsUnsigned (c :: t)) :
    c ≠ '+' ∧ c ≠ '-' := by
  have hsign := isSign_eq_false_of_head h.head
  constructor
  · rintro rfl
    cases hsign
  · rintro rfl
    cases hsign

theorem IsUnsigned.literalValue_eq {t : Text} (h : IsUnsigned t) :
    literalValue t = unsignedValue t := by
  unfold literalValue
  split
  · exact absurd rfl h.isSign_head.2
  · exact absurd rfl h.isSign_head.1
  · rfl

theorem IsLiteral.exists_read {t : Text} (h : IsLiteral t) :
    ∃ (negative : Bool) (d : Number.Decimal),
      Number.read t = some (Number.ofMagnitude negative d.nearest) ∧
      literalValue t = Number.signed negative d.value ∧
      (negative = true ↔ t.head? = some '-') := by
  cases h with
  | unsigned h =>
    obtain ⟨d, hd, hvalue⟩ := h.exists_readDecimal
    refine ⟨false, d, Number.read_of_splitSign h (Number.splitSign_unsigned h) hd, ?_, ?_⟩
    · rw [h.literalValue_eq, Number.signed, if_neg Bool.false_ne_true, hvalue]
    · obtain ⟨c, t, rfl⟩ := List.exists_cons_of_ne_nil h.ne_nil
      simpa using h.isSign_head.2
  | @signed c t hc h =>
    obtain ⟨d, hd, hvalue⟩ := h.exists_readDecimal
    rcases hc with rfl | rfl
    · refine ⟨false, d, Number.read_of_splitSign h rfl hd, ?_, by simp⟩
      rw [literalValue, Number.signed, if_neg Bool.false_ne_true, hvalue]
    · refine ⟨true, d, Number.read_of_splitSign h rfl hd, ?_, by simp⟩
      rw [literalValue, Number.signed, if_pos rfl, hvalue]

end Lexeme

open Lexeme Number Text

theorem Context.setText_of_read {name t raw : Text} {value : Float} (c : Context)
    (hname : ¬IsBlank name) (hraw : trim raw = t) (hread : read t = some value) :
    c.setText name raw = .ok (value, c.set (trim name) value) := by
  have hne : trim name ≠ [] := fun h => hname (trim_eq_nil_iff.1 h)
  simp only [setText, hraw, hread, if_neg hne]

namespace Registry

variable {σ : Type}

/-- A literal is read as the float nearest to its value below the overflow bound, and is malformed
from there on. -/
theorem parse_literal (r : Registry σ) (limit : Option Nat) (c : Context)
    {front t back name : Text} (hf : IsBlank front) (ht : IsLiteral t) (hb : IsBlank back)
    (hname : ¬IsBlank name) :
    let typed := front ++ t ++ back
    let q := literalValue t
    (|q| < overflowBound → ∃ value, IsNearest q value ∧
        (isNegative value = true ↔ t.head? = some '-') ∧
        r.parse limit typed = pure (.number value) ∧
        c.setText name typed = .ok (value, c.set (trim name) value)) ∧
      (overflowBound ≤ |q| → r.parse limit typed = throw (.malformed t) ∧
        c.setText name typed =
          .ok (infinity (decide (q < 0)), c.set (trim name) (infinity (decide (q < 0))))) := by
  intro typed q
  obtain ⟨negative, d, hread, hvalue, hsign⟩ := ht.exists_read
  have habs : |q| = d.value := by rw [show q = _ from hvalue, abs_signed negative d.value_nonneg]
  have hparse : r.parse limit typed = Action.ofExcept (readLiteral t) :=
    parse_of_number (Piece.ofText_number hf ht hb) limit
  have htrim : trim typed = t := Piece.trim_between_lexeme hf hb ht.forall_isLexemeChar
  refine ⟨fun hlt => ?_, fun hle => ?_⟩
  · rw [habs] at hlt
    have hclosest := Decimal.isClosest_nearest hlt
    have hnearest := hclosest.isNearest d.value_nonneg negative
    refine ⟨_, ?_, ?_, ?_, c.setText_of_read hname htrim hread⟩
    · rwa [show q = _ from hvalue]
    · rw [isNegative_ofMagnitude negative hclosest.finite.le]
      exact hsign
    · rw [hparse, readLiteral_eq_ok_iff.2 ⟨_, hread, hnearest.finite, rfl⟩]
      rfl
  · rw [habs] at hle
    have hpos : 0 < d.value := (two_zpow_pos 1023).trans_le (two_zpow_le_overflowBound.trans hle)
    have hinfinite : read t = some (infinity negative) := by
      rw [hread, Decimal.nearest_eq_infinityBits hle]
      rfl
    have hneg : decide (q < 0) = negative := by
      rw [Bool.eq_iff_iff, decide_eq_true_iff, show q = _ from hvalue]
      exact signed_neg_iff hpos
    rw [hneg]
    refine ⟨?_, c.setText_of_read hname htrim hinfinite⟩
    rw [hparse, readLiteral_of_not_finite hinfinite (not_isFinite_infinity negative)]
    rfl

theorem parse_literal_bounds :
    let r : Registry Unit := .standard
    let zero := "-0.".toList
    let large := '+' :: '1' :: List.replicate 309 '0'
    |literalValue zero| < overflowBound ∧ overflowBound ≤ |literalValue large| ∧
      (∃ value, IsNearest (literalValue zero) value ∧ isNegative value = true ∧
        r.parse none (' ' :: zero) = pure (.number value)) ∧
      r.parse none (large ++ ['\n']) = throw (.malformed large) ∧
      Context.empty.setText ['x'] (large ++ ['\n']) =
        .ok (infinity false, Context.empty.set ['x'] (infinity false)) := by
  intro r zero large
  have hzero : IsLiteral zero := isNumber_iff.1 (by decide +kernel)
  have hlarge : IsLiteral large := isNumber_iff.1 (by decide +kernel)
  have hbelow : |literalValue zero| < overflowBound := by decide +kernel
  have habove : overflowBound ≤ |literalValue large| := by decide +kernel
  have hpositive : decide (literalValue large < 0) = false := by decide +kernel
  have hname : ¬IsBlank ['x'] := by decide
  have hspace : IsBlank [' '] := by decide
  have hline : IsBlank ['\n'] := by decide
  obtain ⟨value, hnearest, hsign, hparse, -⟩ :=
    (parse_literal r none .empty hspace hzero .nil hname).1 hbelow
  obtain ⟨hmalformed, htyped⟩ := (parse_literal r none .empty .nil hlarge hline hname).2 habove
  rw [hpositive] at htyped
  exact ⟨hbelow, habove, ⟨value, hnearest, hsign.2 rfl, hparse⟩, hmalformed, htyped⟩

end Registry

end CallFormula
