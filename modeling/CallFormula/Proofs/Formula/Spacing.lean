import CallFormula.Proofs.Formula.Assembly
import CallFormula.Proofs.Formula.Tight
import CallFormula.Proofs.Registry.Ordinary

set_option autoImplicit false

namespace CallFormula

open Text

variable {σ : Type}

namespace Registry

variable {r : Registry σ}

theorem canonical_of_isPlain {name : Text} (h : Piece.IsPlain name) :
    canonical (Piece.tighten name) = canonical name := by
  rw [Piece.tighten_of_isPlain h, canonical_trim]

/-- A plain registry finds the same under a name and under the tight one: a name with marks is
bound to nothing. -/
theorem IsPlain.lookup_tighten (h : r.IsPlain) (name : Text) :
    r.lookup (Piece.tighten name) = r.lookup name := by
  by_cases hname : Piece.IsPlain name
  · rw [lookup, canonical_of_isPlain hname, lookup]
  · have hnone : ∀ {n : Text}, ¬Piece.IsPlain n → r.lookup n = none := fun hn => by
      rw [Option.eq_none_iff_forall_ne_some]
      exact fun b hb => hn (h.isPlainChar_of_lookup hb)
    rw [hnone hname, hnone (mt Piece.isPlain_tighten_iff.1 hname)]

theorem IsPlain.rewords (h : r.IsPlain) :
    Sketch.Rewords id Piece.tighten Eq (fun e e' => e.reword squeeze = e'.reword squeeze)
      (fun t t' => id t = id t') r.invoke r.invoke where
  error _ := rfl
  number _ := rfl
  identifier _ := rfl
  malformed t := by simp only [ParseError.reword, Piece.squeeze_tighten]
  call name args args' hargs := by
    obtain rfl : args = args' := List.forall₂_eq_eq_eq ▸ hargs
    cases hb : r.lookup name with
    | none =>
      have hnone : r.lookup (Piece.tighten name) = none := (h.lookup_tighten name).trans hb
      simp only [invoke, hb, hnone]
      refine Action.relates_ofExcept ?_
      simp only [Alike, ParseError.reword, Piece.squeeze_tighten]
    | some b =>
      have hinvoke : r.invoke (Piece.tighten name) args = r.invoke name args := by
        simp only [invoke, h.lookup_tighten, hb, canonical_of_isPlain (h.isPlainChar_of_lookup hb)]
      rw [hinvoke]
      exact Action.relates_self _

/-- Blanks around the structure do not show, but in the texts that errors quote. -/
theorem parse_spaced (h : r.IsPlain) (limit : Option Nat) {s t : Text}
    (hst : Relation.ReflTransGen Piece.Spacing s t) (bench : Workbench σ) :
    let parsed := (r.parse limit s).run bench
    let parsed' := (r.parse limit t).run bench
    Alike (fun e e' => e.reword squeeze = e'.reword squeeze) Eq parsed.1 parsed'.1 ∧
      parsed.2 = parsed'.2 ∧
      ∃ invocations,
        (r.recorded.parse limit s).run ⟨(bench, []), []⟩ =
          (parsed.1, ⟨(parsed.2, invocations), []⟩) ∧
        (r.recorded.parse limit t).run ⟨(bench, []), []⟩ =
          (parsed'.1, ⟨(parsed'.2, invocations), []⟩) ∧
        ∀ i ∈ invocations, ∀ e, i.answer r = some (.error e) →
          parsed.1 = .error e ∧ parsed'.1 = .error e := by
  intro parsed parsed'
  obtain ⟨invocations, hrecorded, hwalk, hanswers⟩ := r.exists_answers limit s bench
  obtain ⟨invocations', hrecorded', hwalk', hanswers'⟩ := r.exists_answers limit t bench
  obtain ⟨halike, hstate⟩ := Sketch.walk_relates_of_reword_eq h.rewords Piece.ofText_tighten
    (Piece.tighten_eq_of_spacings hst).symm limit 0 (bench, []) (bench, []) rfl
  rw [hwalk, hwalk'] at halike hstate
  obtain ⟨hbench, rfl⟩ := Prod.mk.inj hstate
  exact ⟨halike, hbench, invocations, hrecorded, hrecorded', fun i hi e he =>
    ⟨hanswers i hi e he, hanswers' i hi e he⟩⟩

theorem parse_spaced_sum :
    let r : Registry Unit := standard
    let s := "add(x,y)".toList
    let t := " add(\t x ,y)".toList
    r.IsPlain ∧ Relation.ReflTransGen Piece.Spacing s t ∧
      ((r.parse none t).run ⟨(), []⟩).1 =
        .ok (.binary (.variable ['x']) .add (.variable ['y'])) := by
  intro r s t
  have hplain : r.IsPlain := isPlain_standard
  have hfront : Piece.Spacing s " add(x,y)".toList := by
    have htext : " add(x,y)".toList = [' '] ++ s := by decide +kernel
    rw [htext]
    exact .front (by decide) s
  have hbracket : Piece.Spacing " add(x,y)".toList " add(\t x,y)".toList := by
    have htext : " add(x,y)".toList = " add".toList ++ '(' :: "x,y)".toList := by decide +kernel
    have hspaced : " add(\t x,y)".toList =
        " add".toList ++ '(' :: (['\t', ' '] ++ "x,y)".toList) := by decide +kernel
    rw [htext, hspaced]
    exact .behind _ (by decide) (by decide) _
  have hcomma : Piece.Spacing " add(\t x,y)".toList t := by
    have htext : " add(\t x,y)".toList = " add(\t x".toList ++ ',' :: "y)".toList := by
      decide +kernel
    have hspaced : t = " add(\t x".toList ++ [' '] ++ ',' :: "y)".toList := by decide +kernel
    rw [htext, hspaced]
    exact .before _ (by decide) (by decide) _
  have hst : Relation.ReflTransGen Piece.Spacing s t :=
    .tail (.tail (.single hfront) hbracket) hcomma
  have hcall : Piece.ofText s = .call "add".toList ["x".toList, "y".toList] := by decide +kernel
  have hx : Piece.ofText "x".toList = .identifier ['x'] := by decide +kernel
  have hy : Piece.ofText "y".toList = .identifier ['y'] := by decide +kernel
  have hadd : r.lookup "add".toList = some (.operator .add) := lookup_standard_add
  have hread : ((r.parse none s).run ⟨(), []⟩).1 =
      .ok (.binary (.variable ['x']) .add (.variable ['y'])) := by
    simp only [parse, parseAt_eq_walk, Sketch.ofText_eq, hcall, hx, hy, List.map_cons,
      List.map_nil, Sketch.walk, Sketch.walkAll, checkDepth, buildCall_of_operator hadd]
    rfl
  have halike := (parse_spaced hplain none hst ⟨(), []⟩).1
  rw [hread] at halike
  obtain ⟨tree, htree, rfl⟩ := halike.exists_ok
  exact ⟨hplain, hst, htree⟩

end Registry

end CallFormula
