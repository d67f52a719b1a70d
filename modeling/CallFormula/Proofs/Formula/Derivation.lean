import CallFormula.Proofs.Formula.Pieces
import CallFormula.Proofs.Formula.Purity
import CallFormula.Proofs.Formula.Sketch
import CallFormula.Proofs.Registry.Names

/-!
The grammar of formulas: texts put together from literals, names and calls. A text is read as a tree
just if it has a derivation with that tree.
-/

set_option autoImplicit false

namespace CallFormula

/-- How a text is put together. What stands in front of the opening bracket of a call is kept
whole: blanks at its front may be counted as part of the name or not. -/
inductive Derivation where
  | number (front literal back : Text)
  | identifier (front name back : Text)
  | bare (opening inside back : Text)
  | call (opening : Text) (first : Derivation) (others : List Derivation) (back : Text)

namespace Derivation

mutual

def text : Derivation → Text
  | .number front literal back => front ++ literal ++ back
  | .identifier front name back => front ++ name ++ back
  | .bare opening inside back => opening ++ '(' :: inside ++ ')' :: back
  | .call opening first others back =>
    opening ++ '(' :: Text.joined [','] (first.text :: texts others) ++ ')' :: back

def texts : List Derivation → List Text
  | [] => []
  | D :: Ds => D.text :: texts Ds

end

end Derivation

open Text

structure Registry.Opens {σ : Type} (r : Registry σ) (name : Text) (b : Binding σ) : Prop where
  not_opening : '(' ∉ name
  not_blank : ¬IsBlank name
  lookup_eq : r.lookup name = some b

mutual

/-- The derivations at a depth, and their trees. -/
inductive Derives {σ : Type} (r : Registry σ) (m : Nat) : Nat → Derivation → Tree → Prop where
  | number {d : Nat} {front literal back : Text} {value : Float} : d ≤ m → IsBlank front →
      Lexeme.IsLiteral literal → IsBlank back → Number.read literal = some value →
      value.isFinite = true → Derives r m d (.number front literal back) (.number value)
  | identifier {d : Nat} {front name back : Text} : d ≤ m → IsBlank front →
      Lexeme.IsName name → IsBlank back →
      Derives r m d (.identifier front name back) (.variable name)
  | bare {d : Nat} {front name inside back : Text} {b : Binding σ} {tree : Tree} : d ≤ m →
      IsBlank front → r.Opens name b → IsBlank inside → IsBlank back →
      b.build (canonical name) [] = pure tree →
      Derives r m d (.bare (front ++ name) inside back) tree
  | call {d : Nat} {front name back : Text} {first : Derivation} {others : List Derivation}
      {b : Binding σ} {arg : Tree} {args : List Tree} {tree : Tree} : d ≤ m →
      IsBlank front → r.Opens name b → Derives r m (d + 1) first arg →
      DerivesAll r m (d + 1) others args → IsBlank back →
      b.build (canonical name) (arg :: args) = pure tree →
      Derives r m d (.call (front ++ name) first others back) tree

inductive DerivesAll {σ : Type} (r : Registry σ) (m : Nat) :
    Nat → List Derivation → List Tree → Prop where
  | nil {d : Nat} : DerivesAll r m d [] []
  | cons {d : Nat} {D : Derivation} {Ds : List Derivation} {tree : Tree} {trees : List Tree} :
      Derives r m d D tree → DerivesAll r m d Ds trees →
      DerivesAll r m d (D :: Ds) (tree :: trees)

end

variable {σ : Type} {r : Registry σ} {m : Nat}

theorem Derives.not_isBlank {d : Nat} {D : Derivation} {tree : Tree}
    (h : Derives r m d D tree) : ¬IsBlank D.text := by
  have hlexeme : ∀ {front t back : Text}, t ≠ [] → (∀ c ∈ t, Lexeme.IsLexemeChar c) →
      ¬IsBlank (front ++ t ++ back) := by
    intro front t back hne ht hblank
    obtain ⟨c, s, rfl⟩ := List.exists_cons_of_ne_nil hne
    have := (ht c List.mem_cons_self).isBlank_eq_false
    simp [hblank c (by simp)] at this
  have hcall : ∀ {opening inside back : Text},
      ¬IsBlank (opening ++ '(' :: inside ++ ')' :: back) := by
    intro opening inside back hblank
    exact absurd (hblank '(' (by simp)) (by decide)
  cases h with
  | number _ _ hl _ _ _ => exact hlexeme hl.ne_nil hl.forall_isLexemeChar
  | identifier _ _ hn _ => exact hlexeme hn.ne_nil hn.forall_isLexemeChar
  | bare _ _ _ _ _ _ => exact hcall
  | call _ _ _ _ _ _ _ => exact hcall

theorem isBlank_of_joined {t : Text} {ts : List Text}
    (h : IsBlank (Text.joined [','] (t :: ts))) : IsBlank t := by
  cases ts with
  | nil => exact h
  | cons u us => exact fun c hc => h c (by simp [Text.joined, hc])

theorem Derives.not_isBlank_joined {d : Nat} {D : Derivation} {tree : Tree}
    (h : Derives r m d D tree) (ts : List Text) : ¬IsBlank (Text.joined [','] (D.text :: ts)) :=
  fun hblank => h.not_isBlank (isBlank_of_joined hblank)

theorem isSealed_of_isBlank {t : Text} (h : IsBlank t) : Piece.IsSealed t :=
  Piece.isSealed_of_plain fun c hc => Piece.isPlainChar_of_isBlank (h c hc)

theorem isSealed_between {front t back : Text} (hf : IsBlank front)
    (ht : ∀ c ∈ t, Piece.IsPlainChar c) (hb : IsBlank back) :
    Piece.IsSealed (front ++ t ++ back) :=
  ((isSealed_of_isBlank hf).append (Piece.isSealed_of_plain ht)).append (isSealed_of_isBlank hb)

theorem isSealed_call {front name inside back : Text} (hf : IsBlank front)
    (hn : ∀ c ∈ name, Piece.IsPlainChar c) (hi : Piece.IsBalanced inside) (hb : IsBlank back) :
    Piece.IsSealed (front ++ name ++ '(' :: inside ++ ')' :: back) := by
  have hopen := (isSealed_of_isBlank hf).append (Piece.isSealed_of_plain hn)
  have := (hopen.append hi.isSealed_bracketed).append (isSealed_of_isBlank hb)
  simpa using this

mutual

theorem Derives.isSealed (hplain : r.IsPlain) {d : Nat} {D : Derivation} {tree : Tree} :
    Derives r m d D tree → Piece.IsSealed D.text
  | .number _ hf hl hb _ _ =>
    isSealed_between hf (fun c hc => (hl.forall_isLexemeChar c hc).isPlainChar) hb
  | .identifier _ hf hn hb =>
    isSealed_between hf (fun c hc => (hn.forall_isLexemeChar c hc).isPlainChar) hb
  | .bare _ hf hn hi hb _ =>
    isSealed_call hf (hplain.isPlainChar_of_lookup hn.lookup_eq)
      (isSealed_of_isBlank hi).toIsBalanced hb
  | .call _ hf hn hfirst hothers hb _ =>
    isSealed_call hf (hplain.isPlainChar_of_lookup hn.lookup_eq)
      (Piece.isBalanced_joined fun t ht => by
        rcases List.mem_cons.1 ht with rfl | ht
        · exact (hfirst.isSealed hplain).toIsBalanced
        · exact (hothers.isSealed hplain t ht).toIsBalanced) hb

theorem DerivesAll.isSealed (hplain : r.IsPlain) {d : Nat} {Ds : List Derivation}
    {trees : List Tree} : DerivesAll r m d Ds trees → ∀ t ∈ Derivation.texts Ds, Piece.IsSealed t
  | .nil, _, ht => by simp [Derivation.texts] at ht
  | .cons hD hDs, t, ht => by
    rcases List.mem_cons.1 ht with rfl | ht
    · exact hD.isSealed hplain
    · exact hDs.isSealed hplain t ht

end

theorem Registry.buildCall_eq_pure_iff (bench : Workbench σ) {name : Text} {args : List Tree}
    {tree : Tree} :
    r.buildCall name args = pure tree ↔
      ∃ b, r.lookup name = some b ∧ b.build (canonical name) args = pure tree := by
  unfold Registry.buildCall
  cases r.lookup name with
  | none =>
    simp [Action.throw_eq_ofExcept, Action.pure_eq_ofExcept, Action.ofExcept_inj bench]
  | some b => simp

theorem Registry.Opens.buildCall_eq {name : Text} {b : Binding σ} (h : r.Opens name b)
    (args : List Tree) : r.buildCall (trim name) args = b.build (canonical name) args := by
  rw [Registry.buildCall, Registry.lookup_trim, h.lookup_eq, canonical_trim]

theorem exists_derivesAll {d : Nat} {ts : List Text} {trees : List Tree}
    (h : List.Forall₂ (fun t tree => ∃ D : Derivation, D.text = t ∧ Derives r m d D tree)
      ts trees) :
    ∃ Ds, Derivation.texts Ds = ts ∧ DerivesAll r m d Ds trees := by
  induction h with
  | nil => exact ⟨[], rfl, .nil⟩
  | cons hD _ ih =>
    obtain ⟨D, rfl, hD⟩ := hD
    obtain ⟨Ds, rfl, hDs⟩ := ih
    exact ⟨D :: Ds, rfl, .cons hD hDs⟩

/-- What is read has a derivation: none of its texts is longer than the text it is cut from. -/
theorem exists_derives (hpure : r.IsPure) (bench : Workbench σ) {d : Nat} {s : Text} {tree : Tree}
    (h : r.parseAt (some m) d s = pure tree) :
    ∃ D : Derivation, D.text = s ∧ Derives r m d D tree := by
  obtain ⟨hd, hpiece⟩ := (Registry.parseAt_eq_pure_iff hpure bench).1 h
  cases hp : Piece.ofText s with
  | number t =>
    obtain ⟨rfl, hl⟩ := Piece.exists_of_ofText_number hp
    obtain ⟨front, back, hf, hb, hs⟩ := exists_trim s
    obtain ⟨value, hread, hfin, rfl⟩ := readLiteral_eq_ok_iff.1 (by simpa [hp] using hpiece)
    exact ⟨.number front (trim s) back, hs.symm, .number hd hf hl hb hread hfin⟩
  | identifier t =>
    obtain ⟨rfl, hn⟩ := Piece.exists_of_ofText_identifier hp
    obtain ⟨front, back, hf, hb, hs⟩ := exists_trim s
    obtain rfl : tree = .variable (trim s) := by simpa [hp] using hpiece
    exact ⟨.identifier front (trim s) back, hs.symm, .identifier hd hf hn hb⟩
  | malformed t => simp [hp] at hpiece
  | call name args =>
    obtain ⟨front, n, inside, back, hf, hb, hopen, hn, hs, rfl, rfl⟩ :=
      Piece.exists_of_ofText_call hp
    obtain ⟨trees, hargs, hbuild⟩ : ∃ trees, List.Forall₂
        (fun a t => r.parseAt (some m) (d + 1) a = pure t)
        (Piece.arguments (trim inside)) trees ∧ r.buildCall (trim n) trees = pure tree := by
      simpa [hp] using hpiece
    obtain ⟨b, hlookup, hb'⟩ := (Registry.buildCall_eq_pure_iff bench).1 hbuild
    rw [Registry.lookup_trim] at hlookup
    rw [canonical_trim] at hb'
    by_cases hinside : IsBlank inside
    · rw [Piece.arguments_trim_of_isBlank hinside, List.forall₂_nil_left_iff] at hargs
      subst hargs
      exact ⟨.bare (front ++ n) inside back, hs.symm,
        .bare hd hf ⟨hopen, hn, hlookup⟩ hinside hb hb'⟩
    · rw [Piece.arguments_trim_of_not_isBlank hinside, List.forall₂_map_left_iff] at hargs
      have hlength : ∀ p ∈ Piece.parts inside, p.length < s.length := by
        intro p hp
        have hle := Piece.length_le_of_mem_parts hp
        have hinside : inside.length < s.length := by rw [hs]; simp; omega
        omega
      have hparts : List.Forall₂ (fun p t => ∃ D : Derivation, D.text = p ∧ Derives r m (d + 1) D t)
          (Piece.parts inside) trees := by
        obtain ⟨hcount, hget⟩ := List.forall₂_iff_get.1 hargs
        rw [List.forall₂_iff_get]
        refine ⟨hcount, fun i hi hi' => ?_⟩
        have := hlength _ (List.get_mem (Piece.parts inside) ⟨i, hi⟩)
        have hread := hget i hi hi'
        rw [Registry.parseAt_trim] at hread
        exact exists_derives hpure bench hread
      obtain ⟨Ds, htexts, hDs⟩ := exists_derivesAll hparts
      cases hDs with
      | nil => simp [Derivation.texts, Piece.parts] at htexts
      | @cons _ D Ds t ts hD hDs =>
        refine ⟨.call (front ++ n) D Ds back, ?_,
          .call hd hf ⟨hopen, hn, hlookup⟩ hD hDs hb hb'⟩
        rw [Derivation.text, show D.text :: Derivation.texts Ds = Piece.parts inside from htexts,
          Piece.joined_parts, hs]
termination_by s.length

mutual

theorem Derives.parseAt_eq (hpure : r.IsPure) (hplain : r.IsPlain) (bench : Workbench σ) {d : Nat}
    {D : Derivation} {tree : Tree} :
    Derives r m d D tree → r.parseAt (some m) d D.text = pure tree
  | .number hd hf hl hb hread hfin => by
    refine (Registry.parseAt_eq_pure_iff hpure bench).2 ⟨hd, ?_⟩
    simp only [Derivation.text, Piece.ofText_number hf hl hb]
    exact readLiteral_eq_ok_iff.2 ⟨_, hread, hfin, rfl⟩
  | .identifier hd hf hn hb => by
    refine (Registry.parseAt_eq_pure_iff hpure bench).2 ⟨hd, ?_⟩
    simp only [Derivation.text, Piece.ofText_identifier hf hn hb]
  | .bare hd hf hn hi hb hbuild => by
    refine (Registry.parseAt_eq_pure_iff hpure bench).2 ⟨hd, ?_⟩
    simp only [Derivation.text, Piece.ofText_call hf hn.not_opening hn.not_blank hb,
      Piece.arguments_trim_of_isBlank hi]
    exact ⟨[], .nil, (hn.buildCall_eq []).trans hbuild⟩
  | .call hd hf hn hfirst hothers hb hbuild => by
    refine (Registry.parseAt_eq_pure_iff hpure bench).2 ⟨hd, ?_⟩
    simp only [Derivation.text, Piece.ofText_call hf hn.not_opening hn.not_blank hb,
      Piece.arguments_trim_of_not_isBlank (hfirst.not_isBlank_joined _),
      Piece.parts_joined ((DerivesAll.cons hfirst hothers).isSealed hplain)]
    refine ⟨_, ?_, (hn.buildCall_eq _).trans hbuild⟩
    rw [List.forall₂_map_left_iff]
    simp only [Registry.parseAt_trim]
    exact .cons (hfirst.parseAt_eq hpure hplain bench) (hothers.parseAt_eq hpure hplain bench)

theorem DerivesAll.parseAt_eq (hpure : r.IsPure) (hplain : r.IsPlain) (bench : Workbench σ)
    {d : Nat} {Ds : List Derivation} {trees : List Tree} :
    DerivesAll r m d Ds trees →
      List.Forall₂ (fun t tree => r.parseAt (some m) d t = pure tree) (Derivation.texts Ds) trees
  | .nil => .nil
  | .cons hD hDs => .cons (hD.parseAt_eq hpure hplain bench) (hDs.parseAt_eq hpure hplain bench)

end

end CallFormula
