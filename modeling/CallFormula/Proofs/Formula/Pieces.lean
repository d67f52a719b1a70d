import CallFormula.Proofs.Formula.Lexemes

set_option autoImplicit false

namespace CallFormula

namespace Piece

open Text

theorem notOpening_of_not_mem {t : Text} (h : '(' ∉ t) : ∀ c ∈ t, notOpening c = true := by
  intro c hc
  rw [notOpening, bne_iff_ne]
  rintro rfl
  exact h hc

theorem span_opening {s t : Text} (h : '(' ∉ s) :
    (s ++ '(' :: t).takeWhile notOpening = s ∧ (s ++ '(' :: t).dropWhile notOpening = '(' :: t := by
  have hs := notOpening_of_not_mem h
  constructor
  · rw [List.takeWhile_append_of_pos hs]
    simp [notOpening]
  · rw [List.dropWhile_append_of_pos hs]
    simp [notOpening]

theorem asCall_eq_none_of_not_mem {t : Text} (h : '(' ∉ t) : asCall t = none := by
  have hdrop : t.dropWhile notOpening = [] := List.dropWhile_eq_nil_iff.2 (notOpening_of_not_mem h)
  simp [asCall, hdrop]

theorem asCall_opening {name : Text} (hname : '(' ∉ name) (rest : Text) :
    asCall (name ++ '(' :: rest) =
      if name = [] ∨ rest.getLast? ≠ some ')' then none
      else some (trim name, trim rest.dropLast) := by
  obtain ⟨htake, hdrop⟩ := span_opening (t := rest) hname
  simp only [asCall, htake, hdrop]

theorem asCall_append {name inside : Text} (hname : '(' ∉ name) (hne : name ≠ []) :
    asCall (name ++ '(' :: (inside ++ [')'])) = some (trim name, trim inside) := by
  simp [asCall_opening hname, hne]

theorem exists_of_asCall {t name inside : Text} (h : asCall t = some (name, inside)) :
    ∃ n i, t = n ++ '(' :: (i ++ [')']) ∧ '(' ∉ n ∧ n ≠ [] ∧ name = trim n ∧ inside = trim i := by
  rw [asCall] at h
  split at h
  · next rest hr =>
    split at h
    · contradiction
    · next hcond =>
      obtain ⟨hne, hlast⟩ := not_or.1 hcond
      rw [not_not] at hlast
      cases h
      refine ⟨t.takeWhile notOpening, rest.dropLast, ?_, ?_, hne, rfl, rfl⟩
      · rw [List.dropLast_append_getLast? _ hlast, ← hr, List.takeWhile_append_dropWhile]
      · intro hmem
        exact absurd (List.mem_takeWhile_imp hmem) (by decide)
  · contradiction

theorem isNumber_eq_false_of_mem {t : Text} (h : '(' ∈ t) : Lexeme.isNumber t = false := by
  rw [Bool.eq_false_iff, Ne, Lexeme.isNumber_iff]
  exact fun ht => (ht.forall_isLexemeChar _ h).isPlainChar.1 rfl

theorem isIdentifier_eq_false_of_mem {t : Text} (h : '(' ∈ t) :
    Lexeme.isIdentifier t = false := by
  rw [Bool.eq_false_iff, Ne, Lexeme.isIdentifier_iff]
  exact fun ht => (ht.forall_isLexemeChar _ h).isPlainChar.1 rfl

theorem trim_between_lexeme {front t back : Text} (hf : IsBlank front) (hb : IsBlank back)
    (ht : ∀ c ∈ t, Lexeme.IsLexemeChar c) : trim (front ++ t ++ back) = t := by
  rw [trim_between hf t hb]
  exact trim_eq_self (isTrimmed_of_forall fun c hc => (ht c hc).isBlank_eq_false)

theorem ofText_number {front t back : Text} (hf : IsBlank front) (ht : Lexeme.IsLiteral t)
    (hb : IsBlank back) : ofText (front ++ t ++ back) = .number t := by
  simp only [ofText, trim_between_lexeme hf hb ht.forall_isLexemeChar, Lexeme.isNumber_iff.2 ht,
    if_true]

theorem ofText_identifier {front t back : Text} (hf : IsBlank front) (ht : Lexeme.IsName t)
    (hb : IsBlank back) : ofText (front ++ t ++ back) = .identifier t := by
  have hnum : Lexeme.isNumber t = false := by
    rw [Bool.eq_false_iff, Ne, Lexeme.isNumber_iff]
    exact fun h => h.not_isName ht
  simp only [ofText, trim_between_lexeme hf hb ht.forall_isLexemeChar, hnum,
    Lexeme.isIdentifier_iff.2 ht, if_true, Bool.false_eq_true, if_false]

theorem exists_of_ofText_number {s t : Text} (h : ofText s = .number t) :
    t = trim s ∧ Lexeme.IsLiteral t := by
  simp only [ofText] at h
  split at h
  · next hn =>
    cases h
    exact ⟨rfl, Lexeme.isNumber_iff.1 hn⟩
  · split at h
    · contradiction
    · split at h <;> contradiction

theorem exists_of_ofText_identifier {s t : Text} (h : ofText s = .identifier t) :
    t = trim s ∧ Lexeme.IsName t := by
  simp only [ofText] at h
  split at h
  · contradiction
  · split at h
    · next hi =>
      cases h
      exact ⟨rfl, Lexeme.isIdentifier_iff.1 hi⟩
    · split at h <;> contradiction

theorem ofText_of_asCall {s name inside : Text} (h : asCall (trim s) = some (name, inside)) :
    ofText s = .call name (arguments inside) := by
  obtain ⟨n, i, ht, -⟩ := exists_of_asCall h
  have hmem : '(' ∈ trim s := by simp [ht]
  simp [ofText, isNumber_eq_false_of_mem hmem, isIdentifier_eq_false_of_mem hmem, h]

theorem asCall_of_ofText {s name : Text} {args : List Text} (h : ofText s = .call name args) :
    ∃ inside, asCall (trim s) = some (name, inside) ∧ args = arguments inside := by
  simp only [ofText] at h
  split at h
  · contradiction
  · split at h
    · contradiction
    · split at h
      · next inside hs =>
        cases h
        exact ⟨inside, hs, rfl⟩
      · contradiction

theorem trim_call {front name inside back : Text} (hf : IsBlank front) (hname : ¬IsBlank name)
    (hb : IsBlank back) :
    trim (front ++ name ++ '(' :: inside ++ ')' :: back) =
      trimFront name ++ '(' :: (inside ++ [')']) := by
  obtain ⟨b, hblank, hn⟩ := exists_trimFront name
  have hne : trimFront name ≠ [] := fun h => hname (isBlank_of_trimFront_eq_nil h)
  have htext : front ++ name ++ '(' :: inside ++ ')' :: back =
      front ++ (b ++ (trimFront name ++ '(' :: (inside ++ [')']))) ++ back := by
    conv => lhs; rw [hn]
    simp
  rw [htext, trim_between hf _ hb, trim_blank_append hblank]
  refine trim_eq_self ⟨fun c hc => ?_, fun c hc => ?_⟩
  · obtain ⟨d, t, hd⟩ := List.exists_cons_of_ne_nil hne
    exact head_trimFront name c (by simpa [hd] using hc)
  · rw [← List.cons_append, ← List.append_assoc, List.getLast?_concat] at hc
    cases hc
    decide

theorem ofText_call {front name inside back : Text} (hf : IsBlank front) (hopen : '(' ∉ name)
    (hname : ¬IsBlank name) (hb : IsBlank back) :
    ofText (front ++ name ++ '(' :: inside ++ ')' :: back) =
      .call (trim name) (arguments (trim inside)) := by
  obtain ⟨b, hblank, hn⟩ := exists_trimFront name
  have hne : trimFront name ≠ [] := fun h => hname (isBlank_of_trimFront_eq_nil h)
  have hfront : '(' ∉ trimFront name := fun h => hopen (by rw [hn]; simp [h])
  have htrim : trim (trimFront name) = trim name := by
    conv => rhs; rw [hn, trim_blank_append hblank]
  refine ofText_of_asCall ?_
  rw [trim_call hf hname hb, asCall_append hfront hne, htrim]

theorem exists_of_ofText_call {s name : Text} {args : List Text} (h : ofText s = .call name args) :
    ∃ front n inside back, IsBlank front ∧ IsBlank back ∧ '(' ∉ n ∧ ¬IsBlank n ∧
      s = front ++ n ++ '(' :: inside ++ ')' :: back ∧ name = trim n ∧
        args = arguments (trim inside) := by
  obtain ⟨inside, hcall, rfl⟩ := asCall_of_ofText h
  obtain ⟨n, i, ht, hopen, hne, rfl, rfl⟩ := exists_of_asCall hcall
  obtain ⟨front, back, hf, hb, hs⟩ := exists_trim s
  have hn : ¬IsBlank n := by
    obtain ⟨c, n, rfl⟩ := List.exists_cons_of_ne_nil hne
    intro hblank
    have := (isTrimmed_trim s).1 c (by simp [ht])
    simp [hblank c List.mem_cons_self] at this
  exact ⟨front, n, i, back, hf, hb, hopen, hn, by rw [hs, ht]; simp, rfl, rfl⟩

/-- The inside of a call has no arguments if it is blank, and else one in each of its parts. -/
theorem arguments_trim_of_isBlank {t : Text} (h : IsBlank t) : arguments (trim t) = [] := by
  rw [h.trim_eq]
  rfl

theorem arguments_trim_of_not_isBlank {t : Text} (h : ¬IsBlank t) :
    arguments (trim t) = (parts t).map trim := by
  rw [arguments_of_ne_nil fun ht => h (trim_eq_nil_iff.1 ht), map_trim_parts_trim]

theorem ofText_trim (t : Text) : ofText (trim t) = ofText t := by
  rw [ofText, ofText, trim_trim]

theorem eq_of_ofText_malformed {s t : Text} (h : ofText s = .malformed t) :
    t = trim s := by
  simp only [ofText] at h
  split at h
  · cases h
  · split at h
    · cases h
    · split at h
      · cases h
      · cases h
        rfl

theorem ofText_bare_call {name : Text} (hne : name ≠ []) (htrim : IsTrimmed name)
    (hopen : '(' ∉ name) : ofText (name ++ ['(', ')']) = .call name [] := by
  have heq : trim name = name := trim_eq_self htrim
  have hblank : ¬IsBlank name := fun h => hne (heq ▸ h.trim_eq)
  have hcall : ofText ([] ++ name ++ '(' :: [] ++ ')' :: []) =
      .call (trim name) (arguments (trim [])) := ofText_call .nil hopen hblank .nil
  have hnone : trim [] = [] := IsBlank.nil.trim_eq
  simpa [heq, hnone, arguments] using hcall

theorem isInfix_of_mem_args {t name a : Text} {args : List Text} (h : ofText t = .call name args)
    (ha : a ∈ args) : a <:+: t := by
  obtain ⟨front, n, inside, back, -, -, -, -, rfl, -, rfl⟩ := exists_of_ofText_call h
  by_cases hblank : IsBlank inside
  · rw [arguments_trim_of_isBlank hblank] at ha
    cases ha
  · rw [arguments_trim_of_not_isBlank hblank] at ha
    obtain ⟨p, hp, rfl⟩ := List.mem_map.1 ha
    have hpart : p <:+: inside := joined_parts inside ▸ isInfix_joined hp
    have hinside : inside <:+: front ++ n ++ '(' :: inside ++ ')' :: back :=
      ⟨front ++ n ++ ['('], ')' :: back, by simp⟩
    exact (p.trim_isInfix.trans hpart).trans hinside

end Piece

end CallFormula
