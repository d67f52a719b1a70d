import CallFormula.Proofs.Formula.Pieces
import Mathlib.Computability.RegularExpressions

/-!
The scanners against the regular expressions of the lexemes: going back is never needed.
-/

set_option autoImplicit false

namespace CallFormula

namespace Lexeme

open RegularExpression

def anyOf : List Char → RegularExpression Char
  | [] => 0
  | c :: cs => char c + anyOf cs

def digit : RegularExpression Char := anyOf "0123456789".toList

def letter : RegularExpression Char :=
  anyOf "ABCDEFGHIJKLMNOPQRSTUVWXYZ".toList + anyOf "abcdefghijklmnopqrstuvwxyz".toList

def repeated (e : RegularExpression Char) : RegularExpression Char := e * e.star

def unsignedLiterals : RegularExpression Char :=
  repeated digit * (char '.' * digit.star) + char '.' * repeated digit + repeated digit

/-- The expression `[+-]? (D+ . D* | . D+ | D+)`. -/
def literals : RegularExpression Char := (1 + anyOf ['+', '-']) * unsignedLiterals

/-- The expression `[A-Za-z_] [A-Za-z0-9_]*`. -/
def names : RegularExpression Char := (letter + char '_') * (letter + digit + char '_').star

/-- An expression for single characters, those with the property `p`. -/
def IsClass (p : Char → Prop) (e : RegularExpression Char) : Prop :=
  ∀ t, t ∈ e.matches' ↔ ∃ c, p c ∧ t = [c]

variable {p q : Char → Prop} {e f : RegularExpression Char}

theorem isClass_char (c : Char) : IsClass (· = c) (char c) := by
  intro t
  constructor
  · exact fun h => ⟨c, rfl, h⟩
  · rintro ⟨_, rfl, rfl⟩
    rfl

theorem IsClass.add (he : IsClass p e) (hf : IsClass q f) :
    IsClass (fun c => p c ∨ q c) (e + f) := by
  intro t
  rw [matches'_add, Language.mem_add, he, hf, ← exists_or]
  simp only [or_and_right]

theorem isClass_anyOf (cs : List Char) : IsClass (· ∈ cs) (anyOf cs) := by
  induction cs with
  | nil => exact fun t => by simp [anyOf, matches'_zero, Language.notMem_zero]
  | cons c cs ih =>
    intro t
    rw [anyOf, ((isClass_char c).add ih) t]
    simp only [List.mem_cons]

theorem IsClass.mem_star (h : IsClass p e) {t : Text} :
    t ∈ e.star.matches' ↔ ∀ c ∈ t, p c := by
  rw [matches'_star, Language.mem_kstar]
  constructor
  · rintro ⟨words, rfl, hwords⟩ c hc
    obtain ⟨word, hword, hc⟩ := List.mem_flatten.1 hc
    obtain ⟨d, hd, rfl⟩ := (h word).1 (hwords word hword)
    rwa [List.mem_singleton.1 hc]
  · intro ht
    have hflat : t = (t.map ([·])).flatten := by
      rw [← List.flatMap_def, List.flatMap_singleton']
    refine ⟨t.map ([·]), hflat, fun word hword => ?_⟩
    obtain ⟨c, hc, rfl⟩ := List.mem_map.1 hword
    exact (h [c]).2 ⟨c, ht c hc, rfl⟩

theorem IsClass.mem_mul (h : IsClass p e) {t : Text} :
    t ∈ (e * f).matches' ↔ ∃ c s, p c ∧ s ∈ f.matches' ∧ t = c :: s := by
  rw [matches'_mul, Language.mem_mul]
  constructor
  · rintro ⟨first, hfirst, s, hs, rfl⟩
    obtain ⟨c, hc, rfl⟩ := (h first).1 hfirst
    exact ⟨c, s, hc, hs, rfl⟩
  · rintro ⟨c, s, hc, hs, rfl⟩
    exact ⟨[c], (h [c]).2 ⟨c, hc, rfl⟩, s, hs, rfl⟩

theorem IsClass.mem_repeated (h : IsClass p e) {t : Text} :
    t ∈ (repeated e).matches' ↔ t ≠ [] ∧ ∀ c ∈ t, p c := by
  rw [repeated, h.mem_mul]
  cases t with
  | nil => simp
  | cons d t =>
    constructor
    · rintro ⟨c, s, hc, hs, heq⟩
      cases heq
      exact ⟨List.cons_ne_nil d t, List.forall_mem_cons.2 ⟨hc, h.mem_star.1 hs⟩⟩
    · rintro ⟨-, ht⟩
      obtain ⟨hd, ht⟩ := List.forall_mem_cons.1 ht
      exact ⟨d, t, hd, h.mem_star.2 ht, rfl⟩

theorem mem_map_ofNat_iff (first count : Nat) (h : first + count ≤ 0xD800) {c : Char} :
    c ∈ (List.range' first count).map Char.ofNat ↔
      first ≤ c.toNat ∧ c.toNat < first + count := by
  rw [List.mem_map]
  constructor
  · rintro ⟨n, hn, rfl⟩
    have hn := List.mem_range'_1.1 hn
    rwa [Text.toNat_ofNat (.inl (by omega))]
  · intro hc
    exact ⟨c.toNat, List.mem_range'_1.2 hc, Char.ofNat_toNat c⟩

theorem isClass_digit : IsClass (fun c => c.isDigit = true) digit := by
  have hlist : "0123456789".toList = (List.range' 48 10).map Char.ofNat := by decide +kernel
  intro t
  rw [digit, isClass_anyOf _ t, hlist]
  simp only [mem_map_ofNat_iff 48 10 (by decide), isDigit_iff,
    Nat.lt_succ_iff]

theorem isClass_letter : IsClass (fun c => c.isAlpha = true) letter := by
  have hupper : "ABCDEFGHIJKLMNOPQRSTUVWXYZ".toList = (List.range' 65 26).map Char.ofNat := by
    decide +kernel
  have hlower : "abcdefghijklmnopqrstuvwxyz".toList = (List.range' 97 26).map Char.ofNat := by
    decide +kernel
  intro t
  rw [letter, ((isClass_anyOf _).add (isClass_anyOf _)) t, hupper, hlower]
  simp only [mem_map_ofNat_iff 65 26 (by decide),
    mem_map_ofNat_iff 97 26 (by decide), isAlpha_iff, Nat.lt_succ_iff]

theorem isClass_nameStart : IsClass (fun c => c.isAlpha = true ∨ c = '_') (letter + char '_') :=
  isClass_letter.add (isClass_char '_')

theorem isClass_namePart :
    IsClass (fun c => c.isAlphanum = true ∨ c = '_') (letter + digit + char '_') := by
  have := (isClass_letter.add isClass_digit).add (isClass_char '_')
  simpa only [Char.isAlphanum, Bool.or_eq_true] using this

theorem mem_unsignedLiterals_iff {t : Text} :
    t ∈ unsignedLiterals.matches' ↔ IsUnsigned t := by
  simp only [unsignedLiterals, matches'_add, Language.mem_add]
  constructor
  · rintro ((h | h) | h)
    · obtain ⟨whole, hwhole, rest, hrest, rfl⟩ := Language.mem_mul.1 h
      obtain ⟨hne, hw⟩ := isClass_digit.mem_repeated.1 hwhole
      obtain ⟨_, fraction, rfl, hf, rfl⟩ := (isClass_char '.').mem_mul.1 hrest
      exact .pointed hne hw (isClass_digit.mem_star.1 hf)
    · obtain ⟨_, fraction, rfl, hf, rfl⟩ := (isClass_char '.').mem_mul.1 h
      obtain ⟨hne, hf⟩ := isClass_digit.mem_repeated.1 hf
      exact .fraction hne hf
    · obtain ⟨hne, hw⟩ := isClass_digit.mem_repeated.1 h
      exact .whole hne hw
  · intro h
    cases h with
    | pointed hne hw hf =>
      refine .inl (.inl (Language.append_mem_mul (isClass_digit.mem_repeated.2 ⟨hne, hw⟩) ?_))
      exact (isClass_char '.').mem_mul.2 ⟨_, _, rfl, isClass_digit.mem_star.2 hf, rfl⟩
    | fraction hne hf =>
      refine .inl (.inr ((isClass_char '.').mem_mul.2 ⟨_, _, rfl, ?_, rfl⟩))
      exact isClass_digit.mem_repeated.2 ⟨hne, hf⟩
    | whole hne hw => exact .inr (isClass_digit.mem_repeated.2 ⟨hne, hw⟩)

theorem mem_literals_iff {t : Text} : t ∈ literals.matches' ↔ IsLiteral t := by
  rw [literals, matches'_mul, Language.mem_mul]
  constructor
  · rintro ⟨sign, hsign, rest, hrest, rfl⟩
    rw [matches'_add, Language.mem_add, matches'_epsilon, Language.mem_one,
      isClass_anyOf _ sign] at hsign
    have hrest := mem_unsignedLiterals_iff.1 hrest
    obtain rfl | ⟨c, hc, rfl⟩ := hsign
    · exact .unsigned hrest
    · exact .signed (by simpa using hc) hrest
  · intro h
    cases h with
    | unsigned h => exact ⟨[], .inl rfl, _, mem_unsignedLiterals_iff.2 h, rfl⟩
    | @signed c t hc h =>
      refine ⟨[c], .inr ((isClass_anyOf _ [c]).2 ⟨c, ?_, rfl⟩), t,
        mem_unsignedLiterals_iff.2 h, rfl⟩
      simpa using hc

theorem mem_names_iff {t : Text} : t ∈ names.matches' ↔ IsName t := by
  rw [names, isClass_nameStart.mem_mul]
  simp only [isClass_namePart.mem_star]
  constructor
  · rintro ⟨c, s, hc, hs, rfl⟩
    exact .cons hc hs
  · intro h
    cases h with
    | cons hc hs => exact ⟨_, _, hc, hs, rfl⟩

end Lexeme

namespace Piece

def asNumber (t : Text) : Option Piece := if Lexeme.isNumber t then some (.number t) else none

def asIdentifier (t : Text) : Option Piece :=
  if Lexeme.isIdentifier t then some (.identifier t) else none

def asCallPiece (t : Text) : Option Piece :=
  (asCall t).map fun (name, inside) => .call name (arguments inside)

def tests : List (Text → Option Piece) := [asNumber, asIdentifier, asCallPiece]

/-- The piece that the first test to succeed makes of the trimmed text. -/
def ofTests (order : List (Text → Option Piece)) (t : Text) : Piece :=
  (order.findSome? fun test => test (Text.trim t)).getD (.malformed (Text.trim t))

theorem ofTests_tests (t : Text) : ofTests tests t = ofText t := by
  simp only [ofTests, tests, ofText, List.findSome?_cons, asNumber, asIdentifier, asCallPiece]
  cases Lexeme.isNumber (Text.trim t) with
  | true => rfl
  | false =>
    cases Lexeme.isIdentifier (Text.trim t) with
    | true => rfl
    | false => cases asCall (Text.trim t) <;> rfl

theorem mem_of_asCall {t : Text} (h : (asCall t).isSome = true) : '(' ∈ t := by
  obtain ⟨⟨name, inside⟩, hcall⟩ := Option.isSome_iff_exists.1 h
  obtain ⟨n, i, rfl, -⟩ := exists_of_asCall hcall
  simp

theorem length_filterMap_tests_le (t : Text) : (tests.filterMap fun test => test t).length ≤ 1 := by
  have hexclusive : Lexeme.isNumber t = true → Lexeme.isIdentifier t = false := by
    intro hnumber
    rw [Bool.eq_false_iff, Ne, Lexeme.isIdentifier_iff]
    exact (Lexeme.isNumber_iff.1 hnumber).not_isName
  cases hcall : asCall t with
  | some call =>
    have hmem : '(' ∈ t := mem_of_asCall (by rw [hcall]; rfl)
    simp [tests, asNumber, asIdentifier, asCallPiece, hcall, isNumber_eq_false_of_mem hmem,
      isIdentifier_eq_false_of_mem hmem]
  | none =>
    cases hnumber : Lexeme.isNumber t with
    | true => simp [tests, asNumber, asIdentifier, asCallPiece, hcall, hnumber, hexclusive hnumber]
    | false =>
      cases hname : Lexeme.isIdentifier t with
      | true => simp [tests, asNumber, asIdentifier, asCallPiece, hcall, hnumber, hname]
      | false => simp [tests, asNumber, asIdentifier, asCallPiece, hcall, hnumber, hname]

theorem ofTests_eq_of_perm {order : List (Text → Option Piece)} (h : order.Perm tests) (t : Text) :
    ofTests order t = ofText t := by
  have hperm := h.filterMap fun test => test (Text.trim t)
  have hle := length_filterMap_tests_le (Text.trim t)
  have heq : (order.filterMap fun test => test (Text.trim t)) =
      tests.filterMap fun test => test (Text.trim t) := by
    generalize (tests.filterMap fun test => test (Text.trim t)) = passed at hperm hle
    match passed, hle with
    | [], _ => exact hperm.eq_nil
    | [piece], _ => exact hperm.eq_singleton
  rw [← ofTests_tests, ofTests, ofTests, ← List.head?_filterMap, ← List.head?_filterMap, heq]

/-- The lexemes are two regular languages, apart from each other and from calls. -/
theorem lexemes_apart (t : Text) :
    (Lexeme.isNumber t = true ↔ t ∈ Lexeme.literals.matches') ∧
      (Lexeme.isIdentifier t = true ↔ t ∈ Lexeme.names.matches') ∧
      ¬(t ∈ Lexeme.literals.matches' ∧ t ∈ Lexeme.names.matches') ∧
      ((asCall t).isSome = true →
        t ∉ Lexeme.literals.matches' ∧ t ∉ Lexeme.names.matches') ∧
      ∀ order : List (Text → Option Piece), order.Perm tests → ofTests order t = ofText t := by
  have hnumber : Lexeme.isNumber t = true ↔ t ∈ Lexeme.literals.matches' :=
    Lexeme.isNumber_iff.trans Lexeme.mem_literals_iff.symm
  have hname : Lexeme.isIdentifier t = true ↔ t ∈ Lexeme.names.matches' :=
    Lexeme.isIdentifier_iff.trans Lexeme.mem_names_iff.symm
  refine ⟨hnumber, hname, ?_, fun hcall => ?_, fun order h => ofTests_eq_of_perm h t⟩
  · rintro ⟨hliteral, hidentifier⟩
    exact (Lexeme.mem_literals_iff.1 hliteral).not_isName (Lexeme.mem_names_iff.1 hidentifier)
  · have hmem := mem_of_asCall hcall
    rw [← hnumber, ← hname, isNumber_eq_false_of_mem hmem, isIdentifier_eq_false_of_mem hmem]
    exact ⟨Bool.false_ne_true, Bool.false_ne_true⟩

theorem lexemes_apart_point :
    "-5.".toList ∈ Lexeme.literals.matches' ∧ Lexeme.isNumber "-5.".toList = true ∧
      (asCall "5(a)".toList).isSome = true ∧ "5(a)".toList ∉ Lexeme.literals.matches' ∧
      [asCallPiece, asIdentifier, asNumber].Perm tests ∧
      ofTests [asCallPiece, asIdentifier, asNumber] "-5.".toList = .number "-5.".toList := by
  have hliteral : "-5.".toList ∈ Lexeme.literals.matches' := by decide +kernel
  have hcall : (asCall "5(a)".toList).isSome = true := by decide +kernel
  have hperm : [asCallPiece, asIdentifier, asNumber].Perm tests := List.reverse_perm tests
  have hpiece : ofText "-5.".toList = .number "-5.".toList := by decide +kernel
  obtain ⟨hnumber, -, -, -, horder⟩ := lexemes_apart "-5.".toList
  obtain ⟨-, -, -, hapart, -⟩ := lexemes_apart "5(a)".toList
  exact ⟨hliteral, hnumber.2 hliteral, hcall, (hapart hcall).1, hperm,
    (horder _ hperm).trans hpiece⟩

end Piece

end CallFormula
