import CallFormula.Proofs.Formula.Brackets

set_option autoImplicit false

namespace CallFormula

namespace Piece

open Text

/-- A comma in front of which as many brackets are opened as closed. -/
def IsCut (t : Text) (place : Nat) : Prop :=
  t[place]? = some ',' ∧ (t.take place).count '(' = (t.take place).count ')'

instance (t : Text) : DecidablePred (IsCut t) := fun place =>
  inferInstanceAs (Decidable (t[place]? = some ',' ∧
    (t.take place).count '(' = (t.take place).count ')'))

def cutsFrom (t : Text) (start : Nat) : List Nat :=
  (List.range' start (t.length - start)).filter fun place => IsCut t place

def cuts (t : Text) : List Nat := cutsFrom t 0

/-- What stands in a text from `start` on, strictly between the places. -/
def between (t : Text) (start : Nat) : List Nat → List Text
  | [] => [t.drop start]
  | place :: places => (t.take place).drop start :: between t (place + 1) places

/-- Brackets in equal number, and no cut. -/
structure IsUncut (t : Text) : Prop where
  count_eq : t.count '(' = t.count ')'
  not_isCut : ∀ place, ¬IsCut t place

/-- Texts with a comma between any two neighbours, and any blanks around each comma. -/
inductive IsStrung : List Text → Text → Prop where
  | nil : IsStrung [] []
  | single (p : Text) : IsStrung [p] p
  | cons (p before after : Text) {q t : Text} {ps : List Text} (hbefore : IsBlank before)
      (hafter : IsBlank after) (h : IsStrung (q :: ps) t) :
      IsStrung (p :: q :: ps) (p ++ before ++ ',' :: after ++ t)

theorem level_eq_count (t : Text) : level t = (t.count '(' : Int) - t.count ')' := by
  induction t with
  | nil => rfl
  | cons c t ih =>
    rw [level_cons, ih, bracketStep, List.count_cons, List.count_cons]
    by_cases hopen : c = '('
    · subst hopen
      simp
      omega
    · by_cases hclose : c = ')'
      · subst hclose
        simp
        omega
      · simp [hopen, hclose]

theorem level_eq_zero_iff {t : Text} : level t = 0 ↔ t.count '(' = t.count ')' := by
  rw [level_eq_count]
  omega

theorem mem_cuts {t : Text} {place : Nat} : place ∈ cuts t ↔ IsCut t place := by
  simp only [cuts, cutsFrom, List.mem_filter, List.mem_range'_1, decide_eq_true_eq]
  refine ⟨And.right, fun h => ⟨?_, h⟩⟩
  obtain ⟨hplace, -⟩ := List.getElem?_eq_some_iff.1 h.1
  omega

theorem isUncut_iff {t : Text} :
    IsUncut t ↔ t.count '(' = t.count ')' ∧ cuts t = [] := by
  simp only [List.eq_nil_iff_forall_not_mem, mem_cuts]
  exact ⟨fun h => ⟨h.count_eq, h.not_isCut⟩, fun h => ⟨h.1, h.2⟩⟩

instance (t : Text) : Decidable (IsUncut t) := decidable_of_iff' _ isUncut_iff

theorem sorted_cuts (t : Text) : (cuts t).Pairwise (· < ·) :=
  List.Pairwise.filter _ List.pairwise_lt_range'

theorem length_between (t : Text) (start : Nat) (places : List Nat) :
    (between t start places).length = places.length + 1 := by
  induction places generalizing start with
  | nil => rfl
  | cons place places ih => simp [between, ih]

theorem isCut_append_cons {s t : Text} {c : Char} :
    IsCut (s ++ c :: t) s.length ↔ c = ',' ∧ level s = 0 := by
  simp [IsCut, level_eq_zero_iff]

theorem cutsFrom_append_cons (s t : Text) (c : Char) :
    cutsFrom (s ++ c :: t) s.length =
      (if c = ',' ∧ level s = 0 then [s.length] else []) ++
        cutsFrom (s ++ c :: t) (s.length + 1) := by
  have hrange : List.range' s.length ((s ++ c :: t).length - s.length) =
      s.length :: List.range' (s.length + 1) ((s ++ c :: t).length - (s.length + 1)) := by
    rw [← List.range'_succ]
    congr 1
    simp
    omega
  rw [cutsFrom, hrange, List.filter_cons]
  simp only [isCut_append_cons, decide_eq_true_eq]
  split <;> rfl

/-- Behind `s` a text is cut as what is left of it is, beginning with the level of `s`; what was
read since `start` belongs to the first part. -/
theorem between_cutsFrom (s t : Text) {start : Nat} (hstart : start ≤ s.length) :
    between (s ++ t) start (cutsFrom (s ++ t) s.length) =
      (s.drop start ++ (cut (level s) t).1) :: (cut (level s) t).2 := by
  induction t generalizing s start with
  | nil => simp [cutsFrom, between, cut]
  | cons c t ih =>
    have hsnoc : s ++ c :: t = (s ++ [c]) ++ t := by simp
    have hlength : s.length + 1 = (s ++ [c]).length := by simp
    have hlevel : level (s ++ [c]) = level s + bracketStep c := by simp
    rw [cutsFrom_append_cons, cut_cons]
    dsimp only
    split
    -- At a cut the part that began at `start` ends, and one begins with nothing read of it.
    · have hnext := ih (s ++ [c]) (Nat.le_refl _)
      rw [← hsnoc, ← hlength, hlevel] at hnext
      rw [List.singleton_append, between, List.take_left, hnext]
      simp
    · have hbehind : start ≤ (s ++ [c]).length := by omega
      have hnext := ih (s ++ [c]) hbehind
      rw [← hsnoc, ← hlength, hlevel, List.drop_append_of_le_length hstart] at hnext
      rw [List.nil_append, hnext]
      simp

theorem between_cuts (t : Text) : between t 0 (cuts t) = parts t := by
  simpa [cuts, parts] using between_cutsFrom [] t (Nat.le_refl 0)

theorem IsUncut.level_eq {t : Text} (h : IsUncut t) : level t = 0 :=
  level_eq_zero_iff.2 h.count_eq

theorem IsUncut.not_cut {t : Text} (h : IsUncut t) :
    ∀ p q, t = p ++ ',' :: q → (0 : Int) + level p ≠ 0 := by
  intro p q hpq hlevel
  rw [Int.zero_add] at hlevel
  refine h.not_isCut p.length ?_
  rw [hpq]
  exact isCut_append_cons.2 ⟨rfl, hlevel⟩

theorem parts_append_comma {p before : Text} (hp : IsUncut p) (hbefore : IsBlank before)
    (t : Text) : parts (p ++ before ++ ',' :: t) = (p ++ before) :: parts t := by
  have hplain : ∀ c ∈ before, IsPlainChar c := fun c hc => isPlainChar_of_isBlank (hbefore c hc)
  have hblank : ∀ q r, before = q ++ ',' :: r → (0 : Int) + level q ≠ 0 := fun q r hqr =>
    absurd rfl (hplain ',' (by simp [hqr])).2.2
  have hrest : cut 0 (before ++ ',' :: t) = (before, parts t) := by
    rw [cut_append hblank, level_of_plain hplain, Int.add_zero, cut_comma, List.append_nil]
  rw [parts, List.append_assoc, cut_append hp.not_cut, hp.level_eq, Int.add_zero, hrest]

theorem IsStrung.map_trim_parts {p t : Text} {ps : List Text} (h : IsStrung (p :: ps) t)
    (hps : ∀ q ∈ p :: ps, IsUncut q) : (parts t).map trim = (p :: ps).map trim := by
  induction ps generalizing p t with
  | nil =>
    cases h
    rw [parts, cut_eq_self (hps p List.mem_cons_self).not_cut]
  | cons q ps ih =>
    cases h with
    | @cons _ before after _ t _ hbefore hafter h =>
      have hp : IsUncut p := hps p List.mem_cons_self
      have hothers := ih h fun r hr => hps r (List.mem_cons_of_mem p hr)
      rw [List.append_assoc, List.cons_append, parts_append_comma hp hbefore, List.map_cons,
        trim_append_blank p hbefore, map_trim_parts_blank_append hafter, hothers]
      rfl

theorem IsStrung.ne_nil {p t : Text} {ps : List Text} (h : IsStrung (p :: ps) t)
    (hps : p :: ps ≠ [[]]) : t ≠ [] := by
  cases h with
  | single => exact fun hp => hps (by rw [hp])
  | cons _ _ _ _ _ _ => simp

/-- The arguments in a text are the trimmed texts between its cuts, and whatever uncut texts it is
strung together from. -/
theorem arguments_between_cuts (t : Text) :
    (t = [] → arguments t = []) ∧
      (t ≠ [] →
        arguments t = (between t 0 (cuts t)).map trim ∧
        (cuts t).Pairwise (· < ·) ∧ (∀ place, place ∈ cuts t ↔ IsCut t place) ∧
        (arguments t).length = (cuts t).length + 1 ∧
        joined [','] (between t 0 (cuts t)) = t) ∧
      ∀ ps, IsStrung ps t → ps ≠ [[]] → (∀ p ∈ ps, IsTrimmed p ∧ IsUncut p) →
        arguments t = ps := by
  refine ⟨fun ht => ht ▸ rfl, fun ht => ?_, fun ps hstrung hne hps => ?_⟩
  · have hargs : arguments t = (between t 0 (cuts t)).map trim := by
      rw [arguments_of_ne_nil ht, between_cuts]
    refine ⟨hargs, sorted_cuts t, fun place => mem_cuts, ?_, ?_⟩
    · rw [hargs, List.length_map, length_between]
    · rw [between_cuts, joined_parts]
  · cases ps with
    | nil =>
      cases hstrung
      rfl
    | cons p ps =>
      have htrim : (p :: ps).map trim = (p :: ps).map id :=
        List.map_congr_left fun q hq => trim_eq_self (hps q hq).1
      rw [arguments_of_ne_nil (hstrung.ne_nil hne), hstrung.map_trim_parts fun q hq => (hps q hq).2,
        htrim, List.map_id]

/-- A comma behind a bracket that only closes is no cut, also if a later one opens. -/
theorem arguments_between_cuts_hidden :
    let t := "é,)a,(b".toList
    let ps := ["f(a, b)".toList, [], "é".toList]
    let u := "f(a, b) ,\u00A0,é".toList
    t ≠ [] ∧ cuts t = [1] ∧ arguments t = ["é".toList, ")a,(b".toList] ∧
      IsStrung ps u ∧ ps ≠ [[]] ∧ (∀ p ∈ ps, IsTrimmed p ∧ IsUncut p) ∧ arguments u = ps := by
  intro t ps u
  have ht : t ≠ [] := by decide
  have hcuts : cuts t = [1] := by decide +kernel
  have hbetween : (between t 0 [1]).map trim = ["é".toList, ")a,(b".toList] := by decide +kernel
  have hstrung : IsStrung ps u :=
    .cons "f(a, b)".toList [' '] ['\u00A0'] (by decide) (by decide)
      (.cons [] [] [] .nil .nil (.single "é".toList))
  have hne : ps ≠ [[]] := by decide
  have htrim : ∀ p ∈ ps, trim p = p := by decide +kernel
  have huncut : ∀ p ∈ ps, IsUncut p := by decide +kernel
  have hps : ∀ p ∈ ps, IsTrimmed p ∧ IsUncut p := fun p hp =>
    ⟨htrim p hp ▸ isTrimmed_trim p, huncut p hp⟩
  obtain ⟨hargs, -⟩ := (arguments_between_cuts t).2.1 ht
  rw [hcuts, hbetween] at hargs
  exact ⟨ht, hcuts, hargs, hstrung, hne, hps, (arguments_between_cuts u).2.2 ps hstrung hne hps⟩

end Piece

end CallFormula
