import CallFormula.Proofs.Number.Bits

/-!
Floats in the order of their places, which are integers.
-/

set_option autoImplicit false

namespace CallFormula

namespace Number

open Float.Model.UnpackedFloat (Sign unpackSign unpackSign_def)
open Float.Model (UnpackedFloat Format)

def place (x : Float) : Int := if isNegative x then -(magnitude x : Int) else magnitude x

def openedPlace : UnpackedFloat → Int
  | .notANumber => 0
  | .infinity s => s.apply infinityBits
  | .zero _ => 0
  | .finite s m e _ => s.apply ((e - minExponent).toNat * 2 ^ 52 + m : Nat)

/-- A finite number has 53 bits, or fewer at the least exponent, and lies below the infinities. -/
def IsCanonical : UnpackedFloat → Prop
  | .finite _ m e _ => minExponent ≤ e ∧ e ≤ 971 ∧ m < 2 ^ 53 ∧ (minExponent < e → 2 ^ 52 ≤ m)
  | _ => True

theorem IsOpened.isCanonical {b : Pattern} {u : UnpackedFloat} (h : IsOpened b u) :
    IsCanonical u := by
  have hlt : significandField b < 2 ^ 52 := Nat.mod_lt _ (by decide)
  cases h with
  | infinity | notANumber | zero => trivial
  | subnormal | normal =>
    simp only [IsCanonical, minExponent]
    omega

theorem IsOpened.openedPlace_eq {b : Pattern} {u : UnpackedFloat} (h : IsOpened b u)
    (hu : u ≠ .notANumber) :
    openedPlace u =
      (signField b).apply (exponentField b * 2 ^ 52 + significandField b : Nat) := by
  cases h with
  | notANumber => exact absurd rfl hu
  | infinity he hm => simp [openedPlace, infinityBits, he, hm]
  | zero he hm => cases signField b <;> simp [openedPlace, he, hm, Sign.apply]
  | subnormal hm he | normal hm he =>
    refine congrArg (fun n : Nat => (signField b).apply n) ?_
    simp only [minExponent]
    omega

/-- The exponent decides, and between equal ones the significand. -/
theorem compare_then_compare {m m' : Nat} {e e' : Int} (he : minExponent ≤ e)
    (he' : minExponent ≤ e') (hm : m < 2 ^ 53) (hm' : m' < 2 ^ 53)
    (hfull : minExponent < e → 2 ^ 52 ≤ m) (hfull' : minExponent < e' → 2 ^ 52 ≤ m') :
    (compare e e').then (compare m m') =
      compare (((e - minExponent).toNat * 2 ^ 52 + m : Nat) : Int)
        ((e' - minExponent).toNat * 2 ^ 52 + m' : Nat) := by
  simp only [minExponent] at *
  rcases lt_trichotomy e e' with hlt | rfl | hlt
  · rw [compare_lt_iff_lt.2 hlt, eq_comm]
    refine compare_lt_iff_lt.2 ?_
    omega
  · rcases lt_trichotomy m m' with hlt | rfl | hlt
    · rw [compare_lt_iff_lt.2 hlt, compare_eq_iff_eq.2 rfl, eq_comm]
      refine compare_lt_iff_lt.2 ?_
      omega
    · simp
    · rw [compare_gt_iff_gt.2 hlt, compare_eq_iff_eq.2 rfl, eq_comm]
      refine compare_gt_iff_gt.2 ?_
      omega
  · rw [compare_gt_iff_gt.2 hlt, eq_comm]
    refine compare_gt_iff_gt.2 ?_
    omega

theorem compare_neg_neg (i j : Int) : compare (-i) (-j) = compare j i := by
  rcases lt_trichotomy j i with hlt | rfl | hlt
  · rw [compare_lt_iff_lt.2 hlt, compare_lt_iff_lt.2 (by omega)]
  · simp
  · rw [compare_gt_iff_gt.2 hlt, compare_gt_iff_gt.2 (by omega)]

theorem apply_mem_of_isCanonical {s : Sign} {m : Nat} {e : Int} {hm : 0 < m}
    (h : IsCanonical (.finite s m e hm)) :
    0 < (e - minExponent).toNat * 2 ^ 52 + m ∧
      (e - minExponent).toNat * 2 ^ 52 + m < infinityBits := by
  simp only [IsCanonical, minExponent, infinityBits] at *
  omega

theorem compare_opened {u v : UnpackedFloat} (hu : IsCanonical u) (hv : IsCanonical v)
    (hnu : u ≠ .notANumber) (hnv : v ≠ .notANumber) :
    u.compare v = some (compare (openedPlace u) (openedPlace v)) := by
  have hlt : ∀ {i j : Int}, i < j → some .lt = some (compare i j) := fun h =>
    congrArg some (compare_lt_iff_lt.2 h).symm
  have hgt : ∀ {i j : Int}, j < i → some .gt = some (compare i j) := fun h =>
    congrArg some (compare_gt_iff_gt.2 h).symm
  cases u with
  | notANumber => exact absurd rfl hnu
  | infinity s =>
    cases v with
    | notANumber => exact absurd rfl hnv
    | infinity s' => cases s <;> cases s' <;> rfl
    | zero s' => cases s <;> rfl
    | finite s' m e hm =>
      have hbound := apply_mem_of_isCanonical hv
      cases s with
      | positive => exact hgt (by cases s' <;> simp only [openedPlace, Sign.apply] <;> omega)
      | negative => exact hlt (by cases s' <;> simp only [openedPlace, Sign.apply] <;> omega)
  | zero s =>
    cases v with
    | notANumber => exact absurd rfl hnv
    | infinity s' => cases s' <;> rfl
    | zero s' => rfl
    | finite s' m e hm =>
      have hbound := apply_mem_of_isCanonical hv
      cases s' with
      | positive => exact hlt (by simp only [openedPlace, Sign.apply]; omega)
      | negative => exact hgt (by simp only [openedPlace, Sign.apply]; omega)
  | finite s m e hm =>
    have hbound := apply_mem_of_isCanonical hu
    cases v with
    | notANumber => exact absurd rfl hnv
    | infinity s' =>
      cases s' with
      | positive => exact hlt (by cases s <;> simp only [openedPlace, Sign.apply] <;> omega)
      | negative => exact hgt (by cases s <;> simp only [openedPlace, Sign.apply] <;> omega)
    | zero s' =>
      cases s with
      | positive => exact hgt (by simp only [openedPlace, Sign.apply]; omega)
      | negative => exact hlt (by simp only [openedPlace, Sign.apply]; omega)
    | finite s' m' e' hm' =>
      have hbound' := apply_mem_of_isCanonical hv
      have hcompare := compare_then_compare hu.1 hv.1 hu.2.2.1 hv.2.2.1 hu.2.2.2 hv.2.2.2
      cases s with
      | positive =>
        cases s' with
        | positive => exact congrArg some hcompare
        | negative => exact hgt (by simp only [openedPlace, Sign.apply]; omega)
      | negative =>
        cases s' with
        | positive => exact hlt (by simp only [openedPlace, Sign.apply]; omega)
        | negative =>
          refine congrArg some ((congrArg Ordering.swap hcompare).trans ?_)
          rw [Int.compare_swap]
          exact (compare_neg_neg _ _).symm

theorem signField_eq (b : Pattern) :
    signField b = if 2 ^ 63 ≤ b.toNat then .negative else .positive := by
  have hlt : b.toNat < 2 ^ 64 := b.isLt
  have hbit : unpackSign b = 0#1 ↔ ¬2 ^ 63 ≤ b.toNat := by
    rw [← BitVec.toNat_inj, unpackSign_def, BitVec.extractLsb'_toNat, Nat.shiftRight_eq_div_pow]
    simp only [BitVec.toNat_ofNat, Format.binary64]
    omega
  rw [signField, Sign.ofBitVec]
  simp only [hbit, ite_not]

theorem place_eq (x : Float) : place x = (signField x.toBits.toBitVec).apply (magnitude x) := by
  rw [signField_eq, place, isNegative]
  simp only [decide_eq_true_eq, UInt64.toNat_toBitVec]
  split <;> rfl

theorem unpack_ne_of_isNaN {x : Float} (h : x.isNaN = false) :
    UnpackedFloat.unpack .binary64 x.toBits.toBitVec ≠ .notANumber := by
  intro hnan
  have hx : x.isNaN = (UnpackedFloat.unpack .binary64 x.toBits.toBitVec).isNaN := rfl
  rw [hx, hnan] at h
  cases h

theorem compare_eq {x y : Float} (hx : x.isNaN = false) (hy : y.isNaN = false) :
    x.toModel.compare y.toModel = some (compare (place x) (place y)) := by
  have hux := isOpened_unpack x.toBits.toBitVec
  have huy := isOpened_unpack y.toBits.toBitVec
  have hnx := unpack_ne_of_isNaN hx
  have hny := unpack_ne_of_isNaN hy
  rw [place_eq, place_eq, magnitude_eq, magnitude_eq, ← hux.openedPlace_eq hnx,
    ← huy.openedPlace_eq hny]
  exact compare_opened hux.isCanonical huy.isCanonical hnx hny

theorem compare_eq_none {x y : Float} (h : x.isNaN = true ∨ y.isNaN = true) :
    x.toModel.compare y.toModel = none := by
  have hnan : ∀ {z : Float}, z.isNaN = true → z.toModel.unpack = .notANumber :=
    Float.Model.UnpackedFloat.isNaN_iff.1
  have hcompare : x.toModel.compare y.toModel = x.toModel.unpack.compare y.toModel.unpack := rfl
  rw [hcompare]
  rcases h with hx | hy
  · rw [hnan hx]
    rfl
  · rw [hnan hy]
    cases x.toModel.unpack <;> rfl

theorem compare_eq_some_iff {x y : Float} {o : Ordering} :
    x.toModel.compare y.toModel = some o ↔
      x.isNaN = false ∧ y.isNaN = false ∧ compare (place x) (place y) = o := by
  cases hx : x.isNaN with
  | true => simp [compare_eq_none (.inl hx)]
  | false =>
    cases hy : y.isNaN with
    | true => simp [compare_eq_none (.inr hy)]
    | false => simp [compare_eq hx hy]

theorem lt_iff {x y : Float} :
    x < y ↔ x.isNaN = false ∧ y.isNaN = false ∧ place x < place y := by
  have hlt : x < y ↔ x.toModel.compare y.toModel = some .lt :=
    decide_eq_true_iff.trans beq_iff_eq
  rw [hlt, compare_eq_some_iff, compare_lt_iff_lt]

theorem le_iff {x y : Float} :
    x ≤ y ↔ x.isNaN = false ∧ y.isNaN = false ∧ place x ≤ place y := by
  have hle : x ≤ y ↔ (x.toModel.compare y.toModel).any (·.isLE) = true := decide_eq_true_iff
  rw [hle, Option.any_eq_true]
  simp only [compare_eq_some_iff, and_assoc]
  simp [Std.isLE_compare]

theorem beq_iff_place {x y : Float} :
    (x == y) = true ↔ x.isNaN = false ∧ y.isNaN = false ∧ place x = place y := by
  have hbeq : (x == y) = (x.toModel.compare y.toModel == some .eq) := rfl
  rw [hbeq, beq_iff_eq, compare_eq_some_iff, compare_eq_iff_eq]

theorem IsOpened.isNaN_iff {b : Pattern} {u : UnpackedFloat} (h : IsOpened b u) :
    u.isNaN = true ↔ infinityBits < exponentField b * 2 ^ 52 + significandField b := by
  have hlt : significandField b < 2 ^ 52 := Nat.mod_lt _ (by decide)
  rw [infinityBits]
  cases h with
  | infinity he hm => simp [UnpackedFloat.isNaN]; omega
  | notANumber he hm => simp [UnpackedFloat.isNaN]; omega
  | zero he hm => simp [UnpackedFloat.isNaN]; omega
  | subnormal hm he => simp [UnpackedFloat.isNaN]; omega
  | normal hpos he hmax => simp [UnpackedFloat.isNaN]; omega

theorem IsOpened.isInf_iff {b : Pattern} {u : UnpackedFloat} (h : IsOpened b u) :
    u.isInf = true ↔ exponentField b * 2 ^ 52 + significandField b = infinityBits := by
  have hlt : significandField b < 2 ^ 52 := Nat.mod_lt _ (by decide)
  rw [infinityBits]
  cases h with
  | infinity he hm => simp [UnpackedFloat.isInf]; omega
  | notANumber he hm => simp [UnpackedFloat.isInf]; omega
  | zero he hm => simp [UnpackedFloat.isInf]; omega
  | subnormal hm he => simp [UnpackedFloat.isInf]; omega
  | normal hpos he hmax => simp [UnpackedFloat.isInf]; omega

theorem isNaN_iff_magnitude (x : Float) : x.isNaN = true ↔ infinityBits < magnitude x := by
  rw [magnitude_eq]
  exact (isOpened_unpack x.toBits.toBitVec).isNaN_iff

theorem isInf_iff_magnitude (x : Float) : x.isInf = true ↔ magnitude x = infinityBits := by
  rw [magnitude_eq]
  exact (isOpened_unpack x.toBits.toBitVec).isInf_iff

theorem natAbs_place (x : Float) : (place x).natAbs = magnitude x := by
  rw [place]
  split <;> omega

theorem isInf_eq_of_beq {x y : Float} (h : (x == y) = true) : x.isInf = y.isInf := by
  have hplace := (beq_iff_place.1 h).2.2
  rw [Bool.eq_iff_iff, isInf_iff_magnitude, isInf_iff_magnitude, ← natAbs_place, hplace,
    natAbs_place]

@[simp] theorem isNaN_infinity (negative : Bool) : (infinity negative).isNaN = false := by
  cases negative <;> decide +kernel

theorem place_infinity (negative : Bool) :
    place (infinity negative) = if negative then -(infinityBits : Int) else infinityBits := by
  rw [place, infinity, isNegative_ofMagnitude negative le_rfl,
    magnitude_ofMagnitude negative le_rfl]

theorem place_bounds {x : Float} (h : x.isNaN = false) :
    place (infinity true) ≤ place x ∧ place x ≤ place (infinity false) := by
  have hle : ¬infinityBits < magnitude x := fun hlt => by
    rw [(isNaN_iff_magnitude x).2 hlt] at h
    cases h
  rw [place_infinity, place_infinity, if_pos rfl, if_neg Bool.false_ne_true, place]
  split <;> omega

end Number

end CallFormula
