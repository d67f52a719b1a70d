import CallFormula.Number
import Mathlib

set_option autoImplicit false

namespace CallFormula

namespace Number

open Float.Model.UnpackedFloat (Sign unpackSign unpackExponent unpackMantissa)
open Float.Model (UnpackedFloat Format)

abbrev Pattern := BitVec Format.binary64.numBits

def exponentField (b : Pattern) : Nat := b.toNat / 2 ^ 52 % 2 ^ 11

def significandField (b : Pattern) : Nat := b.toNat % 2 ^ 52

def signField (b : Pattern) : Sign := Sign.ofBitVec (unpackSign b)

theorem toNat_unpackMantissa (b : Pattern) : (unpackMantissa b).toNat = significandField b := by
  simp [unpackMantissa, BitVec.extractLsb_toNat, significandField]

theorem toNat_unpackExponent (b : Pattern) : (unpackExponent b).toNat = exponentField b := by
  simp [unpackExponent, BitVec.extractLsb_toNat, Nat.shiftRight_eq_div_pow, exponentField]

theorem unpackExponent_eq_iff {b : Pattern} {e : BitVec 11} :
    unpackExponent b = e ↔ exponentField b = e.toNat := by
  rw [← toNat_unpackExponent, BitVec.toNat_inj]

theorem unpackMantissa_eq_iff {b : Pattern} {m : BitVec 52} :
    unpackMantissa b = m ↔ significandField b = m.toNat := by
  rw [← toNat_unpackMantissa, BitVec.toNat_inj]

/-- What a bit pattern of the given fields is opened into. -/
inductive IsOpened (b : Pattern) : UnpackedFloat → Prop where
  | infinity : exponentField b = 2047 → significandField b = 0 →
      IsOpened b (.infinity (signField b))
  | notANumber : exponentField b = 2047 → significandField b ≠ 0 → IsOpened b .notANumber
  | zero : exponentField b = 0 → significandField b = 0 →
      IsOpened b (.zero (signField b))
  | subnormal (h : 0 < significandField b) : exponentField b = 0 →
      IsOpened b (.finite (signField b) (significandField b) (-1074) h)
  | normal (h : 0 < 2 ^ 52 + significandField b) : 0 < exponentField b → exponentField b < 2047 →
      IsOpened b (.finite (signField b) (2 ^ 52 + significandField b)
        (exponentField b - 1075) h)

theorem isOpened_unpack (b : Pattern) : IsOpened b (UnpackedFloat.unpack .binary64 b) := by
  have hlt : exponentField b < 2 ^ 11 := Nat.mod_lt _ (by decide)
  rw [UnpackedFloat.unpack]
  split
  · rename_i he
    have he' : exponentField b = 2047 := unpackExponent_eq_iff.1 he
    split
    · rename_i hm
      exact .infinity he' (unpackMantissa_eq_iff.1 hm)
    · rename_i hm
      exact .notANumber he' fun h => hm (unpackMantissa_eq_iff.2 h)
  · rename_i hspecial
    split
    · rename_i he
      have he' : exponentField b = 0 := unpackExponent_eq_iff.1 he
      split
      · rename_i hm
        exact .zero he' (unpackMantissa_eq_iff.1 hm)
      · rename_i hm
        have hpos : 0 < significandField b :=
          Nat.pos_of_ne_zero fun h => hm (unpackMantissa_eq_iff.2 h)
        simp only [toNat_unpackMantissa, toNat_unpackExponent, he']
        exact .subnormal hpos he'
    · rename_i he
      have hne : exponentField b ≠ 2047 := fun h => hspecial (unpackExponent_eq_iff.2 h)
      have hpos : 0 < exponentField b := Nat.pos_of_ne_zero fun h => he (unpackExponent_eq_iff.2 h)
      have hm : (1#1 ++ unpackMantissa b).toNat = 2 ^ 52 + significandField b := by
        rw [BitVec.toNat_append, ← Nat.shiftLeft_add_eq_or_of_lt (unpackMantissa b).isLt,
          toNat_unpackMantissa]
        rfl
      simp only [toNat_unpackExponent, hm]
      exact .normal _ hpos (by omega)

theorem ofMagnitude_magnitude (x : Float) : ofMagnitude (isNegative x) (magnitude x) = x := by
  have hlt : x.toBits.toNat < 2 ^ 64 := x.toBits.toNat_lt
  have hbits : (if isNegative x then 2 ^ 63 + magnitude x else magnitude x) = x.toBits.toNat := by
    simp only [isNegative, magnitude, decide_eq_true_eq]
    split <;> omega
  rw [ofMagnitude, hbits, UInt64.ofNat_toNat, Float.ofBits_toBits]

/-- A pattern up to the one of an infinity is what the float is opened into, bit for bit. -/
theorem toNat_toBits_ofMagnitude (negative : Bool) {b : Nat} (hb : b ≤ infinityBits) :
    (ofMagnitude negative b).toBits.toNat = if negative then 2 ^ 63 + b else b := by
  rw [infinityBits] at hb
  generalize hn : (if negative then 2 ^ 63 + b else b) = n
  have hlt : n < 2 ^ 64 := by
    rw [← hn]
    split <;> omega
  have htoNat : (UInt64.ofNat n).toBitVec.toNat = n := UInt64.toNat_ofNat_of_lt' hlt
  have hvalid : Format.binary64.Valid (UInt64.ofNat n).toBitVec := by
    refine ⟨fun he hm => ?_⟩
    have he' : exponentField (UInt64.ofNat n).toBitVec = 2047 := unpackExponent_eq_iff.1 he
    have hm' : significandField (UInt64.ofNat n).toBitVec ≠ 0 :=
      fun h => hm (unpackMantissa_eq_iff.2 h)
    rw [exponentField, htoNat] at he'
    rw [significandField, htoNat] at hm'
    cases negative <;> simp at hn <;> omega
  have hbits : (Float.ofBits (UInt64.ofNat n)).toBits.toBitVec = (UInt64.ofNat n).toBitVec :=
    UnpackedFloat.pack_unpack_of_valid hvalid
  rw [ofMagnitude, hn, ← UInt64.toNat_toBitVec, hbits, htoNat]

theorem magnitude_ofMagnitude (negative : Bool) {b : Nat} (hb : b ≤ infinityBits) :
    magnitude (ofMagnitude negative b) = b := by
  rw [magnitude, toNat_toBits_ofMagnitude negative hb]
  rw [infinityBits] at hb
  split <;> omega

theorem isNegative_ofMagnitude (negative : Bool) {b : Nat} (hb : b ≤ infinityBits) :
    isNegative (ofMagnitude negative b) = negative := by
  rw [isNegative, toNat_toBits_ofMagnitude negative hb]
  rw [infinityBits] at hb
  cases negative <;> simp; omega

theorem magnitude_eq (x : Float) : magnitude x =
    exponentField x.toBits.toBitVec * 2 ^ 52 + significandField x.toBits.toBitVec := by
  simp only [magnitude, exponentField, significandField, UInt64.toNat_toBitVec]
  omega

theorem isFinite_iff (x : Float) : x.isFinite = true ↔ magnitude x < infinityBits := by
  have hlt : significandField x.toBits.toBitVec < 2 ^ 52 := Nat.mod_lt _ (by decide)
  have hfinite : x.isFinite = (UnpackedFloat.unpack .binary64 x.toBits.toBitVec).isFinite := rfl
  have hopened := isOpened_unpack x.toBits.toBitVec
  rw [hfinite, magnitude_eq, infinityBits]
  generalize UnpackedFloat.unpack .binary64 x.toBits.toBitVec = u at hopened ⊢
  cases hopened with
  | infinity he hm => simp [UnpackedFloat.isFinite]; omega
  | notANumber he hm => simp [UnpackedFloat.isFinite]; omega
  | zero he hm => simp [UnpackedFloat.isFinite]; omega
  | subnormal hm he => simp [UnpackedFloat.isFinite]; omega
  | normal hpos he hmax => simp [UnpackedFloat.isFinite]; omega

theorem beq_self_of_isFinite {x : Float} (h : x.isFinite = true) : (x == x) = true := by
  rw [Float.beq_self_iff]
  rintro rfl
  exact absurd h (by decide +kernel)

theorem magnitude_eq_zero_iff (x : Float) :
    magnitude x = 0 ↔ x = ofMagnitude false 0 ∨ x = ofMagnitude true 0 := by
  constructor
  · intro h
    rw [← ofMagnitude_magnitude x, h]
    cases isNegative x <;> simp
  · intro h
    cases h with
    | inl h => rw [h]; decide +kernel
    | inr h => rw [h]; decide +kernel

theorem beq_zero_iff (x : Float) : (x == ofMagnitude false 0) = true ↔ magnitude x = 0 := by
  have hpositive : ofMagnitude false 0 = 0 := by decide +kernel
  have hnegative : ofMagnitude true 0 = -0 := by decide +kernel
  rw [magnitude_eq_zero_iff, hpositive, hnegative]
  constructor
  · intro h
    obtain ⟨-, -, heq | hzeros | hzeros⟩ := Float.beq_iff_ne_nan_and_eq.1 h
    · exact .inl heq
    · exact .inl hzeros.1
    · exact .inr hzeros.1
  · rintro (rfl | rfl)
    · decide +kernel
    · decide +kernel

end Number

end CallFormula
