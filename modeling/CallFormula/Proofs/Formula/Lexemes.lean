import CallFormula.Proofs.Formula.Brackets

set_option autoImplicit false

namespace CallFormula

namespace Scanner

theorem many1_of_head {p : Char → Bool} {t : Text} (h : ∀ c ∈ t.head?, p c = false) :
    many1 p t = none := by
  cases t with
  | nil => rfl
  | cons c t => simp [many1, andThen, one, h c rfl]

theorem many1_append {p : Char → Bool} {s t : Text} (hne : s ≠ []) (hs : ∀ c ∈ s, p c = true)
    (ht : ∀ c ∈ t.head?, p c = false) : many1 p (s ++ t) = some t := by
  obtain ⟨c, s, rfl⟩ := List.exists_cons_of_ne_nil hne
  have hdrop : t.dropWhile p = t := by
    cases t with
    | nil => rfl
    | cons d t => simp [ht d rfl]
  have hc := hs c List.mem_cons_self
  simp only [List.cons_append, many1, andThen, one, hc, if_true, Option.bind_some, many,
    Option.some.injEq]
  rw [List.dropWhile_append_of_pos fun d hd => hs d (List.mem_cons_of_mem _ hd), hdrop]

theorem many_eq_some_nil_iff {p : Char → Bool} {t : Text} :
    many p t = some [] ↔ ∀ c ∈ t, p c = true := by
  rw [many, Option.some.injEq, List.dropWhile_eq_nil_iff]

theorem exists_of_many1 {p : Char → Bool} {t u : Text} (h : many1 p t = some u) :
    ∃ s, s ≠ [] ∧ (∀ c ∈ s, p c = true) ∧ t = s ++ u := by
  cases t with
  | nil => simp [many1, andThen, one] at h
  | cons c t =>
    by_cases hc : p c = true
    · simp only [many1, andThen, one, hc, if_true, Option.bind_some, many,
        Option.some.injEq] at h
      refine ⟨c :: t.takeWhile p, by simp, ?_, ?_⟩
      · intro d hd
        rcases List.mem_cons.1 hd with rfl | hd
        · exact hc
        · exact List.mem_takeWhile_imp hd
      · rw [← h, List.cons_append, List.takeWhile_append_dropWhile]
    · simp [many1, andThen, one, hc] at h

end Scanner

namespace Lexeme

open Scanner

inductive IsUnsigned : Text → Prop where
  | pointed {whole fraction : Text} : whole ≠ [] → (∀ c ∈ whole, c.isDigit = true) →
      (∀ c ∈ fraction, c.isDigit = true) → IsUnsigned (whole ++ '.' :: fraction)
  | fraction {fraction : Text} : fraction ≠ [] → (∀ c ∈ fraction, c.isDigit = true) →
      IsUnsigned ('.' :: fraction)
  | whole {whole : Text} : whole ≠ [] → (∀ c ∈ whole, c.isDigit = true) → IsUnsigned whole

/-- The language `[+-]? (D+ . D* | . D+ | D+)` of literals. -/
inductive IsLiteral : Text → Prop where
  | unsigned {t : Text} : IsUnsigned t → IsLiteral t
  | signed {c : Char} {t : Text} : c = '+' ∨ c = '-' → IsUnsigned t → IsLiteral (c :: t)

/-- The language `[A-Za-z_] [A-Za-z0-9_]*` of names. -/
inductive IsName : Text → Prop where
  | cons {c : Char} {t : Text} : c.isAlpha = true ∨ c = '_' →
      (∀ d ∈ t, d.isAlphanum = true ∨ d = '_') → IsName (c :: t)

theorem unsigned_of_isUnsigned {t : Text} (h : IsUnsigned t) : unsigned t = some [] := by
  cases h with
  | @pointed whole fraction hne hw hf =>
    have hmany := many1_append (t := '.' :: fraction) hne hw (by simp)
    simp [unsigned, orElse, andThen, hmany, one, isPoint, many_eq_some_nil_iff.2 hf]
  | @fraction fraction hne hf =>
    have hnone : many1 Char.isDigit ('.' :: fraction) = none := many1_of_head (by simp)
    have hmany := many1_append (t := []) hne hf (by simp)
    rw [List.append_nil] at hmany
    simp [unsigned, orElse, andThen, hnone, one, isPoint, hmany]
  | whole hne hw =>
    have hmany := many1_append (t := []) hne hw (by simp)
    rw [List.append_nil] at hmany
    obtain ⟨c, t, rfl⟩ := List.exists_cons_of_ne_nil hne
    have hc : isPoint c = false := by
      have := hw c List.mem_cons_self
      rw [isPoint, beq_eq_false_iff_ne]
      rintro rfl
      exact absurd this (by decide)
    simp [unsigned, orElse, andThen, hmany, one, hc]

theorem isUnsigned_of_unsigned {t : Text} (h : unsigned t = some []) : IsUnsigned t := by
  rw [unsigned, orElse, Option.or_eq_some_iff, orElse, Option.or_eq_some_iff] at h
  rcases h with h | ⟨-, h | ⟨-, h⟩⟩
  · obtain ⟨u, hu, hrest⟩ := Option.bind_eq_some_iff.1 h
    obtain ⟨whole, hne, hw, rfl⟩ := exists_of_many1 hu
    cases u with
    | nil => simp [andThen, one] at hrest
    | cons c fraction =>
      by_cases hc : c = '.'
      · subst hc
        refine .pointed hne hw (many_eq_some_nil_iff.1 ?_)
        simpa [andThen, one, isPoint] using hrest
      · simp [andThen, one, isPoint, hc] at hrest
  · cases t with
    | nil => simp [andThen, one] at h
    | cons c t =>
      by_cases hc : c = '.'
      · subst hc
        obtain ⟨s, hne, hs, rfl⟩ :=
          exists_of_many1 (by simpa [andThen, one, isPoint] using h)
        rw [List.append_nil]
        exact .fraction hne hs
      · simp [andThen, one, isPoint, hc] at h
  · obtain ⟨s, hne, hs, rfl⟩ := exists_of_many1 h
    rw [List.append_nil]
    exact .whole hne hs

theorem unsigned_eq_some_nil_iff {t : Text} : unsigned t = some [] ↔ IsUnsigned t :=
  ⟨isUnsigned_of_unsigned, unsigned_of_isUnsigned⟩

theorem IsUnsigned.head {c : Char} {t : Text} (h : IsUnsigned (c :: t)) :
    c.isDigit = true ∨ c = '.' := by
  generalize hs : c :: t = s at h
  cases h with
  | @pointed whole fraction hne hw _ =>
    obtain ⟨d, whole, rfl⟩ := List.exists_cons_of_ne_nil hne
    cases hs
    exact .inl (hw c List.mem_cons_self)
  | fraction _ _ =>
    cases hs
    exact .inr rfl
  | whole _ hw => exact .inl (hw c (by simp [← hs]))

theorem isSign_iff {c : Char} : isSign c = true ↔ c = '+' ∨ c = '-' := by simp [isSign]

theorem isSign_eq_false_of_head {c : Char} (h : c.isDigit = true ∨ c = '.') :
    isSign c = false := by
  rw [Bool.eq_false_iff, Ne, isSign_iff]
  rintro (rfl | rfl) <;> revert h <;> decide

theorem isNumber_iff {t : Text} : isNumber t = true ↔ IsLiteral t := by
  rw [isNumber, accepts, beq_iff_eq, number, andThen]
  cases t with
  | nil =>
    constructor
    · intro h
      exact .unsigned (isUnsigned_of_unsigned h)
    · intro h
      cases h with
      | unsigned h => exact unsigned_of_isUnsigned h
  | cons c t =>
    cases hc : isSign c with
    | true =>
      simp only [Scanner.optional, orElse, one, hc, if_true, Option.some_or, Option.bind_some,
        unsigned_eq_some_nil_iff]
      constructor
      · exact .signed (isSign_iff.1 hc)
      · intro h
        cases h with
        | unsigned h => simp [isSign_eq_false_of_head h.head] at hc
        | signed _ h => exact h
    | false =>
      simp only [Scanner.optional, orElse, one, hc, Bool.false_eq_true, if_false, Option.none_or,
        Option.bind_some, unsigned_eq_some_nil_iff]
      constructor
      · exact .unsigned
      · intro h
        cases h with
        | unsigned h => exact h
        | signed hs _ => simp [isSign_iff.2 hs] at hc

theorem isIdentifier_iff {t : Text} : isIdentifier t = true ↔ IsName t := by
  rw [isIdentifier, accepts, beq_iff_eq, identifier, andThen]
  cases t with
  | nil =>
    constructor
    · intro h
      simp [one] at h
    · intro h
      cases h
  | cons c t =>
    have hstart : isNameStart c = true ↔ c.isAlpha = true ∨ c = '_' := by simp [isNameStart]
    by_cases hc : isNameStart c = true
    · simp only [one, hc, if_true, Option.bind_some]
      rw [many_eq_some_nil_iff]
      constructor
      · intro h
        exact .cons (hstart.1 hc) (by simpa [isNamePart] using h)
      · intro h
        cases h with
        | cons _ ht => simpa [isNamePart] using ht
    · simp only [one, hc, Bool.false_eq_true, if_false, Option.bind_none]
      constructor
      · intro h
        cases h
      · intro h
        cases h with
        | cons h _ => exact absurd (hstart.2 h) hc

theorem isDigit_iff {c : Char} : c.isDigit = true ↔ 48 ≤ c.toNat ∧ c.toNat ≤ 57 := by
  simp only [Char.isDigit, Bool.and_eq_true, decide_eq_true_eq, UInt32.le_iff_toNat_le, ge_iff_le]
  rfl

theorem isAlpha_iff {c : Char} :
    c.isAlpha = true ↔ 65 ≤ c.toNat ∧ c.toNat ≤ 90 ∨ 97 ≤ c.toNat ∧ c.toNat ≤ 122 := by
  simp only [Char.isAlpha, Char.isUpper, Char.isLower, Bool.or_eq_true, Bool.and_eq_true,
    decide_eq_true_eq, UInt32.le_iff_toNat_le, ge_iff_le]
  rfl

def IsLexemeChar (c : Char) : Prop :=
  c.isDigit = true ∨ c.isAlpha = true ∨ c = '_' ∨ c = '.' ∨ c = '+' ∨ c = '-'

theorem IsLexemeChar.isBlank_eq_false {c : Char} (h : IsLexemeChar c) :
    Text.isBlank c = false := by
  rcases h with h | h | rfl | rfl | rfl | rfl
  · have := isDigit_iff.1 h
    simp [Text.isBlank]
    omega
  · have := isAlpha_iff.1 h
    simp [Text.isBlank]
    omega
  all_goals decide

theorem IsLexemeChar.isPlainChar {c : Char} (h : IsLexemeChar c) : Piece.IsPlainChar c := by
  refine ⟨?_, ?_, ?_⟩ <;> rintro rfl <;> revert h <;> simp [IsLexemeChar]

def IsLiteralChar (c : Char) : Prop := c.isDigit = true ∨ c = '.' ∨ c = '+' ∨ c = '-'

theorem IsLiteralChar.isLexemeChar {c : Char} (h : IsLiteralChar c) : IsLexemeChar c :=
  h.imp_right fun h => .inr (.inr h)

theorem IsLiteralChar.isAlpha_eq_false {c : Char} (h : IsLiteralChar c) : c.isAlpha = false := by
  rcases h with h | rfl | rfl | rfl
  · rw [Bool.eq_false_iff, Ne, isAlpha_iff]
    have := isDigit_iff.1 h
    omega
  all_goals decide

theorem IsUnsigned.forall_isLiteralChar {t : Text} (h : IsUnsigned t) :
    ∀ c ∈ t, IsLiteralChar c := by
  cases h with
  | pointed _ hw hf =>
    intro c hc
    rcases List.mem_append.1 hc with hc | hc
    · exact .inl (hw c hc)
    · rcases List.mem_cons.1 hc with rfl | hc
      · simp [IsLiteralChar]
      · exact .inl (hf c hc)
  | fraction _ hf =>
    intro c hc
    rcases List.mem_cons.1 hc with rfl | hc
    · simp [IsLiteralChar]
    · exact .inl (hf c hc)
  | whole _ hw => exact fun c hc => .inl (hw c hc)

theorem IsLiteral.forall_isLiteralChar {t : Text} (h : IsLiteral t) :
    ∀ c ∈ t, IsLiteralChar c := by
  cases h with
  | unsigned h => exact h.forall_isLiteralChar
  | signed hs h =>
    intro c hc
    rcases List.mem_cons.1 hc with rfl | hc
    · rcases hs with rfl | rfl <;> simp [IsLiteralChar]
    · exact h.forall_isLiteralChar c hc

theorem IsLiteral.forall_isLexemeChar {t : Text} (h : IsLiteral t) :
    ∀ c ∈ t, IsLexemeChar c := fun c hc => (h.forall_isLiteralChar c hc).isLexemeChar

theorem isLexemeChar_of_name {c : Char} (h : c.isAlphanum = true ∨ c = '_') :
    IsLexemeChar c := by
  rcases h with h | rfl
  · rcases Bool.or_eq_true_iff.1 h with h | h
    · exact .inr (.inl h)
    · exact .inl h
  · simp [IsLexemeChar]

theorem IsName.forall_isLexemeChar {t : Text} (h : IsName t) : ∀ c ∈ t, IsLexemeChar c := by
  cases h with
  | cons hstart ht =>
    intro c hc
    rcases List.mem_cons.1 hc with rfl | hc
    · exact isLexemeChar_of_name (hstart.imp_left fun h => by simp [Char.isAlphanum, h])
    · exact isLexemeChar_of_name (ht c hc)

theorem IsUnsigned.ne_nil {t : Text} (h : IsUnsigned t) : t ≠ [] := by
  cases h with
  | pointed _ _ _ => simp
  | fraction _ _ => simp
  | whole hne _ => exact hne

theorem IsLiteral.ne_nil {t : Text} (h : IsLiteral t) : t ≠ [] := by
  cases h with
  | unsigned h => exact h.ne_nil
  | signed _ _ => simp

theorem IsName.ne_nil {t : Text} (h : IsName t) : t ≠ [] := by
  cases h with
  | cons _ _ => simp

/-- A literal begins with a sign, a digit or a point, a name with none of them. -/
theorem IsLiteral.not_isName {t : Text} (h : IsLiteral t) : ¬IsName t := by
  rintro ⟨hstart, -⟩
  have hhead := h.forall_isLiteralChar _ List.mem_cons_self
  rcases hstart with ha | rfl
  · rw [hhead.isAlpha_eq_false] at ha
    cases ha
  · simp [IsLiteralChar] at hhead

end Lexeme

end CallFormula
