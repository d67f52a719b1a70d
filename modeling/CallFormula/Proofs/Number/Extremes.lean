import CallFormula.Proofs.Number.Order
import CallFormula.Registry

set_option autoImplicit false

namespace CallFormula

namespace Number

def HasNumber (xs : List Float) : Prop := ∃ x ∈ xs, x.isNaN = false

instance (xs : List Float) : Decidable (HasNumber xs) :=
  inferInstanceAs (Decidable (∃ x ∈ xs, x.isNaN = false))

/-- The lists hold the same numbers, in whatever order, however often, and among whatever else. -/
def SameNumbers (xs ys : List Float) : Prop := ∀ x, x.isNaN = false → (x ∈ xs ↔ x ∈ ys)

theorem sameNumbers_of_perm {xs ys : List Float} (h : xs.Perm ys) : SameNumbers xs ys :=
  fun _ _ => h.mem_iff

theorem sameNumbers_insert {front back : List Float} {x : Float}
    (h : x.isNaN = true ∨ x ∈ front ++ back) :
    SameNumbers (front ++ back) (front ++ x :: back) := by
  intro y hy
  have hx : y = x → y ∈ front ++ back := by
    rintro rfl
    exact h.resolve_left (Bool.eq_false_iff.1 hy)
  simp only [List.mem_append, List.mem_cons] at hx ⊢
  tauto

theorem SameNumbers.trans {xs ys zs : List Float} (h : SameNumbers xs ys)
    (h' : SameNumbers ys zs) : SameNumbers xs zs := fun x hx => (h x hx).trans (h' x hx)

theorem SameNumbers.hasNumber {xs ys : List Float} (h : SameNumbers xs ys) (hxs : HasNumber xs) :
    HasNumber ys := by
  obtain ⟨x, hx, hnumber⟩ := hxs
  exact ⟨x, (h x hnumber).1 hx, hnumber⟩

/-- The value is one of the list: it equals a number in it, or it is no number and something in it
is none either. -/
def IsAmong (v : Float) (xs : List Float) : Prop :=
  (∃ x ∈ xs, (v == x) = true) ∨ v.isNaN = true ∧ ∃ x ∈ xs, x.isNaN = true

theorem not_isInf_of_isNaN {x : Float} (h : x.isNaN = true) : ¬x.isInf = true := by
  rw [isInf_iff_magnitude]
  exact ((isNaN_iff_magnitude x).1 h).ne'

theorem IsAmong.exists_isInf {v : Float} {xs : List Float} (h : IsAmong v xs)
    (hv : v.isInf = true) :
    ∃ x ∈ xs, x.isInf = true := by
  rcases h with ⟨x, hx, hbeq⟩ | ⟨hnan, -⟩
  · exact ⟨x, hx, isInf_eq_of_beq hbeq ▸ hv⟩
  · exact absurd hv (not_isInf_of_isNaN hnan)

/-- What is no number is passed over, and of two numbers the one with the smaller key is kept, the
first one if the keys are equal. -/
structure Keeps (pick : Float → Float → Float) (key : Float → Int) : Prop where
  pick_eq : ∀ x y, pick x y =
    if x.isNaN then y else if y.isNaN = false ∧ key y < key x then y else x
  key_eq_iff : ∀ x y, key x = key y ↔ place x = place y

/-- A start that is a number gives way to every number, but for those with the same key. -/
structure KeepsFrom (seed : Float) (pick : Float → Float → Float) (key : Float → Int) : Prop
    extends Keeps pick key where
  isNaN_seed : seed.isNaN = false
  key_le_seed : ∀ x, x.isNaN = false → key x ≤ key seed

theorem keepsFrom_lesser : KeepsFrom (infinity false) lesser place where
  pick_eq x y := by
    rw [lesser]
    split
    · rfl
    · simp only [lt_iff]
      simp_all
  key_eq_iff _ _ := Iff.rfl
  isNaN_seed := isNaN_infinity false
  key_le_seed _ hx := (place_bounds hx).2

theorem keepsFrom_greater : KeepsFrom (infinity true) greater fun x => -place x where
  pick_eq x y := by
    rw [greater]
    split
    · rfl
    · simp only [lt_iff]
      simp_all
  key_eq_iff _ _ := Int.neg_inj
  isNaN_seed := isNaN_infinity true
  key_le_seed _ hx := Int.neg_le_neg (place_bounds hx).1

variable {seed : Float} {pick : Float → Float → Float} {key : Float → Int} {xs ys : List Float}

theorem Keeps.beq_iff (h : Keeps pick key) {x y : Float} :
    (x == y) = true ↔ x.isNaN = false ∧ y.isNaN = false ∧ key x = key y := by
  rw [beq_iff_place, h.key_eq_iff]

/-- What is kept in the end is a number that was given, and no number has a smaller key. -/
theorem Keeps.foldl (h : Keeps pick key) (hseed : seed.isNaN = false) (xs : List Float) :
    (xs.foldl pick seed).isNaN = false ∧
      (xs.foldl pick seed = seed ∨ xs.foldl pick seed ∈ xs) ∧
      key (xs.foldl pick seed) ≤ key seed ∧
      ∀ x ∈ xs, x.isNaN = false → key (xs.foldl pick seed) ≤ key x := by
  induction xs generalizing seed with
  | nil => exact ⟨hseed, .inl rfl, le_rfl, fun x hx => absurd hx List.not_mem_nil⟩
  | cons y ys ih =>
    have hstep := h.pick_eq seed y
    rw [if_neg (Bool.eq_false_iff.1 hseed)] at hstep
    rw [List.foldl_cons, hstep]
    split
    · rename_i hy
      obtain ⟨hnumber, hmem, hle, hall⟩ := ih hy.1
      refine ⟨hnumber, .inr ?_, hle.trans hy.2.le, ?_⟩
      · exact List.mem_cons.2 hmem
      · exact List.forall_mem_cons.2 ⟨fun _ => hle, hall⟩
    · rename_i hy
      obtain ⟨hnumber, hmem, hle, hall⟩ := ih hseed
      refine ⟨hnumber, hmem.imp_right (List.mem_cons_of_mem y), hle, ?_⟩
      refine List.forall_mem_cons.2 ⟨fun hy' => hle.trans ?_, hall⟩
      exact not_lt.1 fun hlt => hy ⟨hy', hlt⟩

namespace KeepsFrom

theorem isNaN_foldl (h : KeepsFrom seed pick key) (xs : List Float) :
    (xs.foldl pick seed).isNaN = false := (h.foldl h.isNaN_seed xs).1

theorem key_le (h : KeepsFrom seed pick key) {x : Float} (hx : x ∈ xs)
    (hnumber : x.isNaN = false) : key (xs.foldl pick seed) ≤ key x :=
  (h.foldl h.isNaN_seed xs).2.2.2 x hx hnumber

theorem eq_seed (h : KeepsFrom seed pick key) (hxs : ¬HasNumber xs) :
    xs.foldl pick seed = seed := by
  obtain ⟨hnumber, hmem, -, -⟩ := h.foldl h.isNaN_seed xs
  exact hmem.resolve_right fun hmem => hxs ⟨_, hmem, hnumber⟩

theorem exists_beq (h : KeepsFrom seed pick key) (hxs : HasNumber xs) :
    ∃ x ∈ xs, (xs.foldl pick seed == x) = true := by
  obtain ⟨hnumber, hmem, -, hall⟩ := h.foldl h.isNaN_seed xs
  rcases hmem with hstart | hmem
  · obtain ⟨x, hx, hx'⟩ := hxs
    refine ⟨x, hx, h.beq_iff.2 ⟨hnumber, hx', le_antisymm (hall x hx hx') ?_⟩⟩
    rw [hstart]
    exact h.key_le_seed x hx'
  · exact ⟨_, hmem, h.beq_iff.2 ⟨hnumber, hnumber, rfl⟩⟩

theorem key_foldl_le (h : KeepsFrom seed pick key) (hxs : HasNumber xs)
    (hsub : ∀ x ∈ xs, x.isNaN = false → x ∈ ys) :
    key (ys.foldl pick seed) ≤ key (xs.foldl pick seed) := by
  obtain ⟨x, hx, hbeq⟩ := h.exists_beq hxs
  obtain ⟨-, hx', hkey⟩ := h.beq_iff.1 hbeq
  rw [hkey]
  exact h.key_le (hsub x hx hx') hx'

theorem beq_of_sameNumbers (h : KeepsFrom seed pick key) (hxs : HasNumber xs)
    (hsame : SameNumbers xs ys) : (ys.foldl pick seed == xs.foldl pick seed) = true := by
  refine h.beq_iff.2 ⟨h.isNaN_foldl ys, h.isNaN_foldl xs, le_antisymm ?_ ?_⟩
  · exact h.key_foldl_le hxs fun x hx hx' => (hsame x hx').1 hx
  · exact h.key_foldl_le (hsame.hasNumber hxs) fun x hx hx' => (hsame x hx').2 hx

theorem beq_append (h : KeepsFrom seed pick key) (hxs : HasNumber xs) (hys : HasNumber ys) :
    ((xs ++ ys).foldl pick seed ==
      [xs.foldl pick seed, ys.foldl pick seed].foldl pick seed) = true := by
  set kept := [xs.foldl pick seed, ys.foldl pick seed] with hkept
  have hfirst : xs.foldl pick seed ∈ kept := List.mem_cons_self
  have hsecond : ys.foldl pick seed ∈ kept := List.mem_cons_of_mem _ List.mem_cons_self
  refine h.beq_iff.2 ⟨h.isNaN_foldl _, h.isNaN_foldl _, le_antisymm ?_ ?_⟩
  · obtain ⟨z, hz, hbeq⟩ := h.exists_beq ⟨_, hfirst, h.isNaN_foldl xs⟩
    rw [(h.beq_iff.1 hbeq).2.2]
    rcases List.mem_cons.1 hz with rfl | hz
    · exact h.key_foldl_le hxs fun x hx _ => List.mem_append_left ys hx
    · obtain rfl := List.mem_singleton.1 hz
      exact h.key_foldl_le hys fun x hx _ => List.mem_append_right xs hx
  · have hboth : HasNumber (xs ++ ys) :=
      hxs.imp fun x hx => ⟨List.mem_append_left ys hx.1, hx.2⟩
    obtain ⟨z, hz, hbeq⟩ := h.exists_beq hboth
    obtain ⟨-, hnumber, hkey⟩ := h.beq_iff.1 hbeq
    rw [hkey]
    rcases List.mem_append.1 hz with hz | hz
    · exact (h.key_le hfirst (h.isNaN_foldl xs)).trans (h.key_le hz hnumber)
    · exact (h.key_le hsecond (h.isNaN_foldl ys)).trans (h.key_le hz hnumber)

theorem isAmong_iff (h : KeepsFrom seed pick key) :
    IsAmong (xs.foldl pick seed) xs ↔ HasNumber xs := by
  constructor
  · rintro (⟨x, hx, hbeq⟩ | ⟨hnan, -⟩)
    · exact ⟨x, hx, (h.beq_iff.1 hbeq).2.1⟩
    · exact absurd hnan (Bool.eq_false_iff.1 (h.isNaN_foldl xs))
  · intro hxs
    exact .inl (h.exists_beq hxs)

theorem isInf_imp_iff (h : KeepsFrom seed pick key) (hseed : seed.isInf = true) :
    ((xs.foldl pick seed).isInf = true → ∃ x ∈ xs, x.isInf = true) ↔ HasNumber xs := by
  constructor
  · intro himp
    by_contra hxs
    rw [h.eq_seed hxs] at himp
    obtain ⟨x, hx, hinf⟩ := himp hseed
    have hnan : x.isNaN = true := eq_true_of_ne_false fun hnumber => hxs ⟨x, hx, hnumber⟩
    exact not_isInf_of_isNaN hnan hinf
  · intro hxs
    exact (h.isAmong_iff.2 hxs).exists_isInf

end KeepsFrom

theorem least_le {x : Float} (hx : x ∈ xs) (hnumber : x.isNaN = false) : least xs ≤ x :=
  le_iff.2 ⟨keepsFrom_lesser.isNaN_foldl xs, hnumber, keepsFrom_lesser.key_le hx hnumber⟩

theorem le_greatest {x : Float} (hx : x ∈ xs) (hnumber : x.isNaN = false) : x ≤ greatest xs := by
  refine le_iff.2 ⟨hnumber, keepsFrom_greater.isNaN_foldl xs, ?_⟩
  exact Int.neg_le_neg_iff.1 (keepsFrom_greater.key_le hx hnumber)

theorem least_le_greatest (h : HasNumber xs) : least xs ≤ greatest xs := by
  obtain ⟨x, hx, hnumber⟩ := h
  obtain ⟨hleast, -, hle⟩ := le_iff.1 (least_le hx hnumber)
  obtain ⟨-, hgreatest, hge⟩ := le_iff.1 (le_greatest hx hnumber)
  exact le_iff.2 ⟨hleast, hgreatest, hle.trans hge⟩

/-- The least and the greatest of the arguments that are numbers, if there is one at all. -/
theorem extremes_laws (h : HasNumber xs) :
    (MathFunction.min.value xs = .ok (least xs) ∧
        (∃ x ∈ xs, (least xs == x) = true) ∧ ∀ x ∈ xs, x.isNaN = false → least xs ≤ x) ∧
      (MathFunction.max.value xs = .ok (greatest xs) ∧
        (∃ x ∈ xs, (greatest xs == x) = true) ∧ ∀ x ∈ xs, x.isNaN = false → x ≤ greatest xs) ∧
      (∀ ys, SameNumbers xs ys →
        (least ys == least xs) = true ∧ (greatest ys == greatest xs) = true) ∧
      (∀ ys, HasNumber ys →
        (least (xs ++ ys) == least [least xs, least ys]) = true ∧
          (greatest (xs ++ ys) == greatest [greatest xs, greatest ys]) = true) ∧
      least xs ≤ greatest xs := by
  refine ⟨⟨rfl, keepsFrom_lesser.exists_beq h, fun x => least_le⟩,
    ⟨rfl, keepsFrom_greater.exists_beq h, fun x => le_greatest⟩, fun ys hys => ⟨?_, ?_⟩,
    fun ys hys => ⟨?_, ?_⟩, least_le_greatest h⟩
  · exact keepsFrom_lesser.beq_of_sameNumbers h hys
  · exact keepsFrom_greater.beq_of_sameNumbers h hys
  · exact keepsFrom_lesser.beq_append h hys
  · exact keepsFrom_greater.beq_append h hys

theorem extremes_laws_infinity :
    let xs := [nan, infinity false]
    let ys := [infinity false, nan, nan, infinity false]
    HasNumber xs ∧ SameNumbers xs ys ∧ (least ys == least xs) = true ∧
      (greatest ys == greatest xs) = true ∧ (∀ x ∈ xs, x.isNaN = false → x ≤ greatest xs) ∧
      (least (xs ++ [1]) == least [least xs, least [1]]) = true := by
  intro xs ys
  have hxs : HasNumber xs := by decide +kernel
  have hone : HasNumber [1] := by decide +kernel
  have hswap : SameNumbers xs [infinity false, nan] :=
    sameNumbers_of_perm (List.Perm.swap _ _ _)
  have hnan : SameNumbers ([infinity false] ++ [nan]) ([infinity false] ++ nan :: [nan]) :=
    sameNumbers_insert (.inl (by decide +kernel))
  have htwice : SameNumbers ([infinity false, nan, nan] ++ [])
      ([infinity false, nan, nan] ++ infinity false :: []) :=
    sameNumbers_insert (.inr List.mem_cons_self)
  have hsame : SameNumbers xs ys := (hswap.trans hnan).trans htwice
  obtain ⟨-, ⟨-, -, hgreatest⟩, hequal, happend, -⟩ := extremes_laws hxs
  exact ⟨hxs, hsame, (hequal ys hsame).1, (hequal ys hsame).2, hgreatest, (happend [1] hone).1⟩

end Number

end CallFormula
