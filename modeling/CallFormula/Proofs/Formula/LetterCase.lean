import CallFormula.Proofs.Formula.Pieces
import CallFormula.Proofs.Formula.Sketch
import CallFormula.Proofs.Registry.Ordinary
import CallFormula.Proofs.Registry.Names
import CallFormula.Proofs.Tree.Renaming

set_option autoImplicit false

namespace CallFormula

open Number (lower)

namespace Scanner

/-- The scanner eats as much of a text in lower case as of the text. -/
def IgnoresCase (a : Scanner) : Prop := ∀ t, a (lower t) = (a t).map lower

variable {a b : Scanner} {p : Char → Bool}

theorem ignoresCase_one (hp : ∀ c, p c.toLower = p c) : IgnoresCase (one p)
  | [] => rfl
  | c :: t => by
    have hcons : lower (c :: t) = c.toLower :: lower t := rfl
    simp only [hcons, one, hp]
    split <;> rfl

theorem ignoresCase_many (hp : ∀ c, p c.toLower = p c) : IgnoresCase (many p) := fun t => by
  have hclass : p ∘ Char.toLower = p := funext hp
  simp only [many, lower, List.dropWhile_map, hclass, Option.map_some]

theorem IgnoresCase.andThen (ha : a.IgnoresCase) (hb : b.IgnoresCase) :
    (a.andThen b).IgnoresCase := fun t => by
  simp only [Scanner.andThen, ha t]
  cases a t with
  | none => rfl
  | some u => exact hb u

theorem IgnoresCase.orElse (ha : a.IgnoresCase) (hb : b.IgnoresCase) :
    (a.orElse b).IgnoresCase := fun t => by
  simp only [Scanner.orElse, ha t, hb t]
  cases a t <;> rfl

theorem IgnoresCase.accepts_lower (ha : a.IgnoresCase) (t : Text) :
    a.accepts (lower t) = a.accepts t := by
  simp only [accepts, ha t]
  cases a t with
  | none => rfl
  | some u => cases u <;> rfl

end Scanner

namespace Lexeme

open Scanner

theorem ignoresCase_unsigned : unsigned.IgnoresCase :=
  have hdigits : (many Char.isDigit).IgnoresCase := ignoresCase_many Text.isDigit_toLower
  have hdigits1 : (many1 Char.isDigit).IgnoresCase :=
    (ignoresCase_one Text.isDigit_toLower).andThen hdigits
  have hpoint : (one isPoint).IgnoresCase := ignoresCase_one fun c => by
    rw [Bool.eq_iff_iff, isPoint, isPoint, beq_iff_eq, beq_iff_eq]
    exact Text.toLower_eq_iff (by decide)
  (hdigits1.andThen (hpoint.andThen hdigits)).orElse ((hpoint.andThen hdigits1).orElse hdigits1)

theorem ignoresCase_number : number.IgnoresCase :=
  have hsign : (one isSign).IgnoresCase := ignoresCase_one fun c => by
    rw [Bool.eq_iff_iff, isSign_iff, isSign_iff, Text.toLower_eq_iff (by decide),
      Text.toLower_eq_iff (by decide)]
  have hnone : IgnoresCase some := fun _ => rfl
  (hsign.orElse hnone).andThen ignoresCase_unsigned

theorem ignoresCase_identifier : identifier.IgnoresCase :=
  have hunderscore : ∀ c : Char, (c.toLower == '_') = (c == '_') := fun c => by
    rw [Bool.eq_iff_iff, beq_iff_eq, beq_iff_eq]
    exact Text.toLower_eq_iff (by decide)
  (ignoresCase_one fun c => by
    simp only [isNameStart, Char.isAlpha_toLower_eq_isAlpha, hunderscore]).andThen
  (ignoresCase_many fun c => by
    simp only [isNamePart, Char.isAlphanum, Char.isAlpha_toLower_eq_isAlpha,
      Text.isDigit_toLower, hunderscore])

theorem isNumber_lower (t : Text) : isNumber (lower t) = isNumber t :=
  ignoresCase_number.accepts_lower t

theorem isIdentifier_lower (t : Text) : isIdentifier (lower t) = isIdentifier t :=
  ignoresCase_identifier.accepts_lower t

end Lexeme

namespace Piece

theorem mem_lower_iff {t : Text} {c : Char} (hc : c.isAlpha = false) : c ∈ lower t ↔ c ∈ t := by
  simp only [lower, List.mem_map, Text.toLower_eq_iff hc, exists_eq_right]

theorem asCall_lower (t : Text) :
    asCall (lower t) = (asCall t).map (Prod.map lower lower) := by
  have hopening : ∀ s, '(' ∈ lower s ↔ '(' ∈ s := fun s => mem_lower_iff (by decide)
  by_cases hopen : '(' ∈ t
  · obtain ⟨name, rest, rfl, hname⟩ := List.eq_append_cons_of_mem hopen
    have htext : lower (name ++ '(' :: rest) = lower name ++ '(' :: lower rest := by
      simp [lower]
    have hnil : lower name = [] ↔ name = [] := List.map_eq_nil_iff
    have hlast : (lower rest).getLast? = some ')' ↔ rest.getLast? = some ')' := by
      rw [lower, List.getLast?_map, Option.map_eq_some_iff]
      simp only [Text.toLower_eq_iff (d := ')') (by decide), exists_eq_right]
    have hrest : lower rest.dropLast = (lower rest).dropLast := List.map_dropLast
    rw [htext, asCall_opening hname, asCall_opening (mt (hopening name).1 hname)]
    simp only [hnil, hlast, ne_eq, ← hrest, Text.trim_lower]
    split <;> rfl
  · rw [asCall_eq_none_of_not_mem hopen, asCall_eq_none_of_not_mem (mt (hopening t).1 hopen)]
    rfl

theorem cut_lower (opened : Int) (t : Text) :
    cut opened (lower t) = (lower (cut opened t).1, (cut opened t).2.map lower) := by
  induction t generalizing opened with
  | nil => rfl
  | cons c t ih =>
    have hcons : lower (c :: t) = c.toLower :: lower t := rfl
    have hcomma : c.toLower = ',' ↔ c = ',' := Text.toLower_eq_iff (by decide)
    have hstep : bracketStep c.toLower = bracketStep c := by
      simp only [bracketStep, Text.toLower_eq_iff (d := '(') (by decide),
        Text.toLower_eq_iff (d := ')') (by decide)]
    rw [hcons, cut_cons, cut_cons]
    simp only [hcomma, hstep, ih]
    split <;> rfl

theorem arguments_lower (t : Text) : arguments (lower t) = (arguments t).map lower := by
  cases t with
  | nil => rfl
  | cons c t =>
    have hne : lower (c :: t) ≠ [] := List.cons_ne_nil _ _
    rw [arguments_of_ne_nil hne, arguments_of_ne_nil (List.cons_ne_nil c t)]
    simp only [parts, cut_lower, List.map_cons, List.map_map, Function.comp_def, Text.trim_lower]

theorem ofText_lower (t : Text) : ofText (lower t) = (ofText t).reword lower lower := by
  simp only [ofText, Text.trim_lower, Lexeme.isNumber_lower, Lexeme.isIdentifier_lower,
    asCall_lower]
  cases hn : Lexeme.isNumber (Text.trim t) with
  | true => simp only [if_true, reword, Text.lower_of_isLiteral (Lexeme.isNumber_iff.1 hn)]
  | false =>
    cases Lexeme.isIdentifier (Text.trim t) with
    | true => rfl
    | false =>
      cases asCall (Text.trim t) with
      | none => rfl
      | some call =>
        obtain ⟨name, inside⟩ := call
        simp only [Bool.false_eq_true, if_false, Option.map_some, Prod.map, arguments_lower, reword]

end Piece

theorem Text.isRecasing_lower : IsRecasing lower := ⟨lower_lower, upper_lower⟩

namespace Registry

variable {σ : Type} {r : Registry σ}

theorem lookup_lower (r : Registry σ) (name : Text) : r.lookup (lower name) = r.lookup name := by
  rw [lookup, canonical_lower, lookup]

theorem IsNative.rewords (h : r.IsNative) :
    Sketch.Rewords lower lower Eq (fun e e' => e.reword lower = e'.reword lower)
      (fun t t' => t.rename lower = t'.rename lower) r.buildCall r.buildCall where
  error _ := rfl
  number _ := rfl
  identifier t := by simp only [Tree.rename, Text.lower_lower]
  malformed t := by simp only [ParseError.reword, Text.lower_lower]
  call name args args' hargs := by
    have htrees := Tree.renameAll_eq hargs
    have hlookup := r.lookup_lower name
    cases h.names name with
    | nothing hb =>
      rw [buildCall_of_none hb, buildCall_of_none (hlookup.trans hb)]
      refine Action.relates_ofExcept ?_
      simp only [Alike, ParseError.reword, Text.lower_lower]
    | operator op hb =>
      rw [buildCall_of_operator hb, buildCall_of_operator (hlookup.trans hb)]
      refine Action.relates_ofExcept (alike_of_map_eq ?_)
      rw [← Operator.build_renameAll, htrees, Operator.build_renameAll]
    | function arity handle hb =>
      rw [buildCall_of_function hb, buildCall_of_function (hlookup.trans hb), canonical_lower]
      refine Action.relates_ofExcept (alike_of_map_eq ?_)
      rw [← Arity.build_renameAll, htrees, Arity.build_renameAll]

/-- Letter case never changes a result, but in the names and texts that errors quote. -/
theorem parse_recased (h : r.IsNative) (limit : Option Nat) {s t : Text} (hst : Text.Recased s t)
    (bench : Workbench σ) :
    let parsed := (r.parse limit s).run bench
    let parsed' := (r.parse limit t).run bench
    Alike (fun e e' => e.reword lower = e'.reword lower)
        (fun tree tree' => tree.rename lower = tree'.rename lower) parsed.1 parsed'.1 ∧
      parsed.2 = parsed'.2 ∧
      ∀ tree tree', parsed.1 = .ok tree → parsed'.1 = .ok tree' →
        ∀ (fs : Functions σ) (c : Context) (host : σ),
          let ended := (tree.evaluate fs c).run host
          let ended' := (tree'.evaluate fs c).run host
          Alike (fun e e' => e.rename lower = e'.rename lower) Eq ended.1 ended'.1 ∧
            ended.2 = ended'.2 ∧
            ∃ calls,
              (tree.evaluate fs.observed c).run (host, []) = (ended.1, ended.2, calls) ∧
              (tree'.evaluate fs.observed c).run (host, []) = (ended'.1, ended'.2, calls) ∧
              ∀ call ∈ calls, ∀ e, call.answer = .error e →
                ended.1 = .error e ∧ ended'.1 = .error e := by
  intro parsed parsed'
  obtain ⟨halike, hstate⟩ := Sketch.walk_relates_of_reword_eq h.rewords Piece.ofText_lower
    hst.lower_eq limit 0 bench bench rfl
  rw [← parseAt_eq_walk, ← parseAt_eq_walk] at halike hstate
  refine ⟨halike, hstate, fun tree tree' htree htree' fs c host => ?_⟩
  have hrename : Alike _ _ parsed.1 parsed'.1 := halike
  rw [htree, htree'] at hrename
  exact Tree.exists_answers_of_rename_eq fs c Text.isRecasing_lower hrename host

theorem parse_recased_sum :
    let r : Registry Unit := standard
    r.IsNative ∧ Text.Recased "add(x, Y)".toList "ADD(x, y)".toList ∧
      ∃ tree, ((r.parse none "ADD(x, y)".toList).run ⟨(), []⟩).1 = .ok tree ∧
        tree.rename lower = .binary (.variable ['x']) .add (.variable ['y']) := by
  intro r
  have hnative : r.IsNative := isNative_standard
  have hst : Text.Recased "add(x, Y)".toList "ADD(x, y)".toList := by decide +kernel
  have hcall : Piece.ofText "add(x, Y)".toList = .call "add".toList ["x".toList, "Y".toList] := by
    decide +kernel
  have hx : Piece.ofText "x".toList = .identifier ['x'] := by decide +kernel
  have hy : Piece.ofText "Y".toList = .identifier ['Y'] := by decide +kernel
  have hadd : r.lookup "add".toList = some (.operator .add) := lookup_standard_add
  have hread : ((r.parse none "add(x, Y)".toList).run ⟨(), []⟩).1 =
      .ok (.binary (.variable ['x']) .add (.variable ['Y'])) := by
    simp only [parse, parseAt_eq_walk, Sketch.ofText_eq, hcall, hx, hy, List.map_cons,
      List.map_nil, Sketch.walk, Sketch.walkAll, checkDepth, buildCall_of_operator hadd]
    rfl
  have halike := (parse_recased hnative none hst ⟨(), []⟩).1
  rw [hread] at halike
  obtain ⟨tree, htree, hrename⟩ := halike.exists_ok
  exact ⟨hnative, hst, tree, htree, hrename.symm⟩

end Registry

end CallFormula
