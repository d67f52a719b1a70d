import CallFormula.Formula
import CallFormula.Text.Capital
import CallFormula.Tree
import Mathlib

set_option autoImplicit false

namespace CallFormula

namespace Piece

/-- How many more brackets a text opens than it closes. -/
def level (t : Text) : Int := (t.map bracketStep).sum

@[simp] theorem level_nil : level [] = 0 := rfl

@[simp] theorem level_cons (c : Char) (t : Text) : level (c :: t) = bracketStep c + level t := by
  simp [level]

@[simp] theorem level_append (s t : Text) : level (s ++ t) = level s + level t := by
  simp [level]

def parts (t : Text) : List Text := (cut 0 t).1 :: (cut 0 t).2

theorem length_le_of_mem_parts {p t : Text} (h : p ∈ parts t) : p.length ≤ t.length := by
  have hle := length_cut_le 0 t
  cases List.mem_cons.1 h with
  | inl heq => exact heq ▸ hle.1
  | inr hmem => exact hle.2 p hmem

theorem arguments_of_ne_nil {t : Text} (h : t ≠ []) : arguments t = (parts t).map Text.trim := by
  simp only [arguments, if_neg h, parts]

theorem cut_cons (opened : Int) (c : Char) (t : Text) :
    cut opened (c :: t) =
      let rest := cut (opened + bracketStep c) t
      if c = ',' ∧ opened = 0 then ([], rest.1 :: rest.2) else (c :: rest.1, rest.2) := rfl

/-- A text without a cut of its own stays in one part with what follows up to the next cut. -/
theorem cut_append {opened : Int} {s : Text}
    (h : ∀ p q, s = p ++ ',' :: q → opened + level p ≠ 0) (t : Text) :
    cut opened (s ++ t) =
      (s ++ (cut (opened + level s) t).1, (cut (opened + level s) t).2) := by
  induction s generalizing opened with
  | nil => simp
  | cons c s ih =>
    have hc : ¬(c = ',' ∧ opened = 0) := by
      rintro ⟨rfl, rfl⟩
      exact h [] s rfl (by simp)
    have hs : ∀ p q, s = p ++ ',' :: q → opened + bracketStep c + level p ≠ 0 := by
      intro p q hpq
      have := h (c :: p) q (by rw [hpq]; rfl)
      simp only [level_cons] at this
      omega
    rw [List.cons_append, cut_cons]
    dsimp only
    rw [if_neg hc, ih hs, level_cons, Int.add_assoc]
    rfl

theorem cut_comma (t : Text) : cut 0 (',' :: t) = ([], parts t) := by
  rw [cut_cons]
  rfl

theorem cut_eq_self {opened : Int} {s : Text}
    (h : ∀ p q, s = p ++ ',' :: q → opened + level p ≠ 0) : cut opened s = (s, []) := by
  have := cut_append h []
  simpa [cut] using this

theorem joined_cons_cons (c : Char) (s : Text) (ts : List Text) :
    Text.joined [','] ((c :: s) :: ts) = c :: Text.joined [','] (s :: ts) := by
  cases ts <;> simp [Text.joined]

theorem joined_cut (opened : Int) (t : Text) :
    Text.joined [','] ((cut opened t).1 :: (cut opened t).2) = t := by
  induction t generalizing opened with
  | nil => simp [cut, Text.joined]
  | cons c t ih =>
    rw [cut_cons]
    dsimp only
    split
    · next hc =>
      simp only [Text.joined, ih, hc.1]
      rfl
    · rw [joined_cons_cons, ih]

theorem joined_parts (t : Text) : Text.joined [','] (parts t) = t := joined_cut 0 t

theorem isInfix_joined {between p : Text} {ps : List Text} (h : p ∈ ps) :
    p <:+: Text.joined between ps := by
  induction ps with
  | nil => cases h
  | cons q qs ih =>
    cases qs with
    | nil =>
      rw [List.mem_singleton.1 h]
      exact List.infix_rfl
    | cons q' qs =>
      rw [Text.joined, List.append_assoc]
      rcases List.mem_cons.1 h with rfl | h
      · exact (List.prefix_append _ _).isInfix
      · exact (ih h).trans ((List.suffix_append _ _).trans (List.suffix_append _ _)).isInfix

def IsPlainChar (c : Char) : Prop := c ≠ '(' ∧ c ≠ ')' ∧ c ≠ ','

theorem IsPlainChar.bracketStep_eq {c : Char} (h : IsPlainChar c) : bracketStep c = 0 := by
  simp [bracketStep, h.1, h.2.1]

theorem level_of_plain {t : Text} (h : ∀ c ∈ t, IsPlainChar c) : level t = 0 := by
  induction t with
  | nil => rfl
  | cons c t ih =>
    rw [level_cons, (h c (by simp)).bracketStep_eq, ih fun d hd => h d (by simp [hd])]
    rfl

theorem isPlainChar_of_isBlank {c : Char} (h : Text.isBlank c = true) : IsPlainChar c := by
  refine ⟨?_, ?_, ?_⟩ <;> rintro rfl <;> revert h <;> decide

theorem forall₂_cut_append_blank {b : Text} (hb : Text.IsBlank b) (opened : Int) (t : Text) :
    List.Forall₂ (fun p q => ∃ b', Text.IsBlank b' ∧ q = p ++ b')
      ((cut opened t).1 :: (cut opened t).2)
      ((cut opened (t ++ b)).1 :: (cut opened (t ++ b)).2) := by
  induction t generalizing opened with
  | nil =>
    have hcut : cut opened b = (b, []) := cut_eq_self fun p q hpq =>
      absurd rfl (isPlainChar_of_isBlank (hb ',' (by simp [hpq]))).2.2
    rw [List.nil_append, hcut]
    exact .cons ⟨b, hb, rfl⟩ .nil
  | cons c t ih =>
    rw [List.cons_append, cut_cons, cut_cons]
    dsimp only
    split
    · exact .cons ⟨[], .nil, rfl⟩ (ih _)
    · obtain ⟨⟨b', hb', hq⟩, hs⟩ := List.forall₂_cons.1 (ih (opened + bracketStep c))
      exact .cons ⟨b', hb', by rw [hq]; rfl⟩ hs

theorem map_trim_parts_append {b : Text} (t : Text) (hb : Text.IsBlank b) :
    (parts (t ++ b)).map Text.trim = (parts t).map Text.trim := by
  have := forall₂_cut_append_blank hb 0 t
  refine List.forall₂_eq_eq_eq ▸ ?_
  rw [List.forall₂_map_left_iff, List.forall₂_map_right_iff]
  refine this.flip.imp ?_
  rintro q p ⟨b', hb', rfl⟩
  exact Text.trim_append_blank p hb'

theorem map_trim_parts_blank_append {b : Text} (hb : Text.IsBlank b) (t : Text) :
    (parts (b ++ t)).map Text.trim = (parts t).map Text.trim := by
  have hplain : ∀ c ∈ b, IsPlainChar c := fun c hc => isPlainChar_of_isBlank (hb c hc)
  have hcut : ∀ p q, b = p ++ ',' :: q → (0 : Int) + level p ≠ 0 := fun p q hpq =>
    absurd rfl (hplain ',' (by simp [hpq])).2.2
  simp only [parts, cut_append hcut, level_of_plain hplain, Int.add_zero, List.map_cons,
    Text.trim_blank_append hb]

theorem map_trim_parts_trim (t : Text) :
    (parts (Text.trim t)).map Text.trim = (parts t).map Text.trim := by
  obtain ⟨front, back, hf, hb, ht⟩ := Text.exists_trim t
  rw [ht, map_trim_parts_append _ hb, map_trim_parts_blank_append hf, ← ht]

/-- Brackets that are closed after they are opened, all of them. -/
structure IsBalanced (t : Text) : Prop where
  level_eq : level t = 0
  level_nonneg : ∀ p q, t = p ++ q → 0 ≤ level p

/-- A balanced text whose commas stand inside brackets. -/
structure IsSealed (t : Text) : Prop extends IsBalanced t where
  level_pos : ∀ p q, t = p ++ ',' :: q → 0 < level p

theorem IsBalanced.append {s t : Text} (hs : IsBalanced s) (ht : IsBalanced t) :
    IsBalanced (s ++ t) where
  level_eq := by simp [hs.level_eq, ht.level_eq]
  level_nonneg p q h := by
    rcases List.append_eq_append_iff.1 h with ⟨a, rfl, hq⟩ | ⟨b, hp, -⟩
    · have := ht.level_nonneg a q hq
      simp [hs.level_eq, this]
    · exact hs.level_nonneg p b hp

theorem IsSealed.append {s t : Text} (hs : IsSealed s) (ht : IsSealed t) : IsSealed (s ++ t) where
  toIsBalanced := hs.toIsBalanced.append ht.toIsBalanced
  level_pos p q h := by
    rcases List.append_eq_append_iff.1 h with ⟨a, rfl, hq⟩ | ⟨b, hp, hq⟩
    · have := ht.level_pos a q hq
      simp [hs.level_eq, this]
    · cases b with
      | nil =>
        have := ht.level_pos [] q (by simpa using hq.symm)
        simp at this
      | cons c b =>
        obtain ⟨rfl, -⟩ := List.cons_eq_cons.1 hq
        exact hs.level_pos p b hp

theorem isSealed_of_plain {t : Text} (h : ∀ c ∈ t, IsPlainChar c) : IsSealed t where
  level_eq := level_of_plain h
  level_nonneg p q ht := by
    exact Int.le_of_eq (level_of_plain fun c hc => h c (by simp [ht, hc])).symm
  level_pos p q ht := absurd rfl (h ',' (by simp [ht])).2.2

theorem isBalanced_comma : IsBalanced [','] where
  level_eq := rfl
  level_nonneg p q h := by
    cases p with
    | nil => simp
    | cons c p =>
      obtain ⟨rfl, hp⟩ := List.cons_eq_cons.1 h
      obtain ⟨rfl, -⟩ := List.append_eq_nil_iff.1 hp.symm
      decide

theorem isBalanced_joined {ts : List Text} (h : ∀ t ∈ ts, IsBalanced t) :
    IsBalanced (Text.joined [','] ts) := by
  induction ts with
  | nil => exact (isSealed_of_plain fun c hc => absurd hc List.not_mem_nil).toIsBalanced
  | cons t ts ih =>
    cases ts with
    | nil => exact h t (by simp)
    | cons u us =>
      have ht := h t List.mem_cons_self
      have hus := ih fun v hv => h v (List.mem_cons_of_mem _ hv)
      exact (ht.append isBalanced_comma).append hus

/-- In front of the closing bracket of a balanced text no more is closed than was opened. -/
theorem IsBalanced.level_nonneg_closed {t p q : Text} (h : IsBalanced t)
    (hpq : t ++ [')'] = p ++ q) (hq : q ≠ []) : 0 ≤ level p := by
  rcases List.append_eq_append_iff.1 hpq with ⟨a, rfl, ha⟩ | ⟨b, hb, -⟩
  · cases a with
    | nil => simp [h.level_eq]
    | cons c a => simp_all
  · exact h.level_nonneg p b hb

theorem IsBalanced.isSealed_bracketed {t : Text} (h : IsBalanced t) :
    IsSealed ('(' :: t ++ [')']) where
  level_eq := by simp [h.level_eq, bracketStep]
  level_nonneg p q ht := by
    cases p with
    | nil => simp
    | cons c p =>
      simp only [List.cons_append, List.cons.injEq] at ht
      cases q with
      | nil =>
        rw [List.append_nil] at ht
        simp [← ht.1, ← ht.2, h.level_eq, bracketStep]
      | cons d q =>
        have := h.level_nonneg_closed ht.2 (List.cons_ne_nil d q)
        simp [← ht.1, bracketStep]
        omega
  level_pos p q ht := by
    cases p with
    | nil => simp at ht
    | cons c p =>
      simp only [List.cons_append, List.cons.injEq] at ht
      have := h.level_nonneg_closed ht.2 (List.cons_ne_nil ',' q)
      simp [← ht.1, bracketStep]
      omega

theorem IsSealed.not_cut {t : Text} (h : IsSealed t) :
    ∀ p q, t = p ++ ',' :: q → (0 : Int) + level p ≠ 0 := by
  intro p q hpq
  have := h.level_pos p q hpq
  omega

theorem parts_joined {t : Text} {ts : List Text} (h : ∀ u ∈ t :: ts, IsSealed u) :
    parts (Text.joined [','] (t :: ts)) = t :: ts := by
  induction ts generalizing t with
  | nil =>
    have ht := h t (by simp)
    simp only [Text.joined, parts, cut_eq_self ht.not_cut]
  | cons u us ih =>
    have ht := h t (by simp)
    have hus := ih fun v hv => h v (List.mem_cons_of_mem _ hv)
    have hcut : parts (t ++ ',' :: Text.joined [','] (u :: us)) =
        t :: parts (Text.joined [','] (u :: us)) := by
      simp only [parts, cut_append ht.not_cut, ht.level_eq, Int.add_zero, cut_comma,
        List.append_nil]
    simp only [Text.joined, List.append_assoc, List.singleton_append] at hcut ⊢
    rw [hcut]
    exact congrArg (t :: ·) hus

end Piece

end CallFormula
