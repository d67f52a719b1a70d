import CallFormula.Proofs.Number.Bits
import CallFormula.Tree

set_option autoImplicit false

namespace CallFormula

namespace Number

theorem beq_symm {x y : Float} (h : (x == y) = true) : (y == x) = true := by
  rw [Float.beq_iff_ne_nan_and_eq] at h ⊢
  obtain ⟨hx, hy, heq | hzero | hzero⟩ := h
  · exact ⟨hy, hx, .inl heq.symm⟩
  · exact ⟨hy, hx, .inr (.inr hzero.symm)⟩
  · exact ⟨hy, hx, .inr (.inl hzero.symm)⟩

theorem beq_trans {x y z : Float} (hxy : (x == y) = true) (hyz : (y == z) = true) :
    (x == z) = true := by
  rw [Float.beq_iff_ne_nan_and_eq] at hxy hyz ⊢
  grind

theorem eq_of_beq {x y : Float} (h : (x == y) = true) (hzero : x ≠ 0 ∧ x ≠ -0) : x = y := by
  obtain ⟨-, -, heq | hx | hx⟩ := Float.beq_iff_ne_nan_and_eq.1 h
  · exact heq
  · exact absurd hx.1 hzero.1
  · exact absurd hx.1 hzero.2

end Number

/-- What a node does to the values of its parts. -/
inductive Head where
  | operator (op : Operator)
  | function (handle : Handle)
  deriving DecidableEq, Repr

namespace Tree

mutual

def IsFinite : Tree → Prop
  | .number value => value.isFinite = true
  | .variable _ => True
  | .binary left _ right => left.IsFinite ∧ right.IsFinite
  | .call _ args _ => AreFinite args

def AreFinite : List Tree → Prop
  | [] => True
  | t :: ts => t.IsFinite ∧ AreFinite ts

end

mutual

theorem same_self : ∀ t : Tree, t.IsFinite → same t t = true
  | .number _, h => Number.beq_self_of_isFinite h
  | .variable name, _ => beq_self_eq_true name
  | .binary left operator right, h => by
    rw [same, same_self left h.1, same_self right h.2, beq_self_eq_true]
    rfl
  | .call name args function, h => by
    rw [same, sameList_self args h, beq_self_eq_true, beq_self_eq_true]
    rfl

theorem sameList_self : ∀ ts : List Tree, AreFinite ts → sameList ts ts = true
  | [], _ => rfl
  | t :: ts, h => by
    rw [sameList, same_self t h.1, sameList_self ts h.2]
    rfl

end

mutual

def heads : Tree → List Head
  | .number _ => []
  | .variable _ => []
  | .binary left operator right => heads left ++ heads right ++ [.operator operator]
  | .call _ args function => headsAll args ++ [.function function]

def headsAll : List Tree → List Head
  | [] => []
  | t :: ts => heads t ++ headsAll ts

end

mutual

theorem heads_eq_of_same : ∀ t u : Tree, same t u = true → heads t = heads u
  | .number _, .number _, _ => rfl
  | .variable _, .variable _, _ => rfl
  | .binary left operator right, .binary left' operator' right', h => by
    simp only [same, Bool.and_eq_true, beq_iff_eq] at h
    obtain ⟨⟨hleft, rfl⟩, hright⟩ := h
    rw [heads, heads, heads_eq_of_same left left' hleft, heads_eq_of_same right right' hright]
  | .call name args function, .call name' args' function', h => by
    simp only [same, Bool.and_eq_true, beq_iff_eq] at h
    obtain ⟨⟨-, hargs⟩, rfl⟩ := h
    rw [heads, heads, headsAll_eq_of_sameList args args' hargs]

theorem headsAll_eq_of_sameList : ∀ ts us : List Tree, sameList ts us = true →
    headsAll ts = headsAll us
  | [], [], _ => rfl
  | t :: ts, u :: us, h => by
    simp only [sameList, Bool.and_eq_true] at h
    rw [headsAll, headsAll, heads_eq_of_same t u h.1, headsAll_eq_of_sameList ts us h.2]

end

mutual

def numbers : Tree → List Float
  | .number value => [value]
  | .variable _ => []
  | .binary left _ right => numbers left ++ numbers right
  | .call _ args _ => numbersAll args

def numbersAll : List Tree → List Float
  | [] => []
  | t :: ts => numbers t ++ numbersAll ts

end

mutual

theorem same_self_iff : ∀ t : Tree, same t t = true ↔ ∀ x ∈ t.numbers, x.isNaN = false
  | .number value => by simp [same, numbers]
  | .variable name => by simp [same, numbers]
  | .binary left operator right => by
    simp only [same, numbers, Bool.and_eq_true, same_self_iff left, same_self_iff right,
      List.forall_mem_append, beq_self_eq_true, and_true]
  | .call name args function => by
    simp only [same, numbers, Bool.and_eq_true, sameList_self_iff args, beq_self_eq_true, true_and,
      and_true]

theorem sameList_self_iff : ∀ ts : List Tree,
    sameList ts ts = true ↔ ∀ x ∈ numbersAll ts, x.isNaN = false
  | [] => by simp [sameList, numbersAll]
  | t :: ts => by
    simp only [sameList, numbersAll, Bool.and_eq_true, same_self_iff t, sameList_self_iff ts,
      List.forall_mem_append]

end

mutual

theorem same_symm : ∀ t u : Tree, same t u = true → same u t = true
  | .number _, .number _, h => Number.beq_symm h
  | .variable _, .variable _, h => BEq.symm h
  | .binary left _ right, .binary left' _ right', h => by
    simp only [same, Bool.and_eq_true] at h ⊢
    obtain ⟨⟨hleft, hoperator⟩, hright⟩ := h
    exact ⟨⟨same_symm left left' hleft, BEq.symm hoperator⟩, same_symm right right' hright⟩
  | .call _ args _, .call _ args' _, h => by
    simp only [same, Bool.and_eq_true] at h ⊢
    obtain ⟨⟨hname, hargs⟩, hfunction⟩ := h
    exact ⟨⟨BEq.symm hname, sameList_symm args args' hargs⟩, BEq.symm hfunction⟩

theorem sameList_symm : ∀ ts us : List Tree, sameList ts us = true → sameList us ts = true
  | [], [], _ => rfl
  | t :: ts, u :: us, h => by
    simp only [sameList, Bool.and_eq_true] at h ⊢
    exact ⟨same_symm t u h.1, sameList_symm ts us h.2⟩

end

mutual

theorem same_trans : ∀ t u v : Tree, same t u = true → same u v = true → same t v = true
  | .number _, .number _, .number _, h, h' => Number.beq_trans h h'
  | .variable _, .variable _, .variable _, h, h' => BEq.trans h h'
  | .binary left _ right, .binary left' _ right', .binary left'' _ right'', h, h' => by
    simp only [same, Bool.and_eq_true] at h h' ⊢
    obtain ⟨⟨hleft, hoperator⟩, hright⟩ := h
    obtain ⟨⟨hleft', hoperator'⟩, hright'⟩ := h'
    exact ⟨⟨same_trans left left' left'' hleft hleft', BEq.trans hoperator hoperator'⟩,
      same_trans right right' right'' hright hright'⟩
  | .call _ args _, .call _ args' _, .call _ args'' _, h, h' => by
    simp only [same, Bool.and_eq_true] at h h' ⊢
    obtain ⟨⟨hname, hargs⟩, hfunction⟩ := h
    obtain ⟨⟨hname', hargs'⟩, hfunction'⟩ := h'
    exact ⟨⟨BEq.trans hname hname', sameList_trans args args' args'' hargs hargs'⟩,
      BEq.trans hfunction hfunction'⟩

theorem sameList_trans : ∀ ts us vs : List Tree, sameList ts us = true → sameList us vs = true →
    sameList ts vs = true
  | [], [], [], _, _ => rfl
  | t :: ts, u :: us, v :: vs, h, h' => by
    simp only [sameList, Bool.and_eq_true] at h h' ⊢
    exact ⟨same_trans t u v h.1 h'.1, sameList_trans ts us vs h.2 h'.2⟩

end

mutual

/-- Equal trees are the same tree but for the signs of zeros. -/
theorem eq_of_same : ∀ t u : Tree, same t u = true → (∀ x ∈ t.numbers, x ≠ 0 ∧ x ≠ -0) → t = u
  | .number value, .number value', h, hzero => by
    rw [Number.eq_of_beq h (hzero value List.mem_cons_self)]
  | .variable name, .variable name', h, _ => by rw [eq_of_beq (h : (name == name') = true)]
  | .binary left operator right, .binary left' operator' right', h, hzero => by
    simp only [same, Bool.and_eq_true, beq_iff_eq] at h
    obtain ⟨⟨hleft, rfl⟩, hright⟩ := h
    rw [eq_of_same left left' hleft fun x hx => hzero x (List.mem_append_left _ hx),
      eq_of_same right right' hright fun x hx => hzero x (List.mem_append_right _ hx)]
  | .call name args function, .call name' args' function', h, hzero => by
    simp only [same, Bool.and_eq_true, beq_iff_eq] at h
    obtain ⟨⟨rfl, hargs⟩, rfl⟩ := h
    rw [eq_of_sameList args args' hargs hzero]

theorem eq_of_sameList : ∀ ts us : List Tree, sameList ts us = true →
    (∀ x ∈ numbersAll ts, x ≠ 0 ∧ x ≠ -0) → ts = us
  | [], [], _, _ => rfl
  | t :: ts, u :: us, h, hzero => by
    simp only [sameList, Bool.and_eq_true] at h
    rw [eq_of_same t u h.1 fun x hx => hzero x (List.mem_append_left _ hx),
      eq_of_sameList ts us h.2 fun x hx => hzero x (List.mem_append_right _ hx)]

end

end Tree

end CallFormula
