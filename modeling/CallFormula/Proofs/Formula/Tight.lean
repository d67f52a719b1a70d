import CallFormula.Proofs.Formula.Pieces
import CallFormula.Proofs.Formula.Sketch

/-!
Texts without the blanks around their marks, which are the brackets and commas. The sketch of a
tight text is the sketch of the text, made tight.
-/

set_option autoImplicit false

namespace CallFormula

open Text

def Text.squeeze (t : Text) : Text := t.filter fun c => !isBlank c

@[simp] theorem Text.squeeze_append (s t : Text) : squeeze (s ++ t) = squeeze s ++ squeeze t :=
  List.filter_append s t

theorem Text.IsBlank.squeeze_eq {t : Text} (h : IsBlank t) : squeeze t = [] :=
  List.filter_eq_nil_iff.2 fun c hc => by simp [h c hc]

theorem Text.squeeze_trim (t : Text) : squeeze (trim t) = squeeze t := by
  obtain ⟨front, back, hf, hb, ht⟩ := exists_trim t
  conv => rhs; rw [ht]
  simp only [squeeze_append, IsBlank.squeeze_eq hf, IsBlank.squeeze_eq hb, List.nil_append,
    List.append_nil]

namespace Piece

instance : DecidablePred IsPlainChar := fun c =>
  inferInstanceAs (Decidable (c ≠ '(' ∧ c ≠ ')' ∧ c ≠ ','))

def IsPlain (t : Text) : Prop := ∀ c ∈ t, IsPlainChar c

theorem isBlank_of_mark {m : Char} (h : ¬IsPlainChar m) : isBlank m = false := by
  rw [Bool.eq_false_iff]
  exact fun hm => h (isPlainChar_of_isBlank hm)

/-- The run before the first mark, and the marks with the runs behind them. -/
def runs : Text → Text × List (Char × Text)
  | [] => ([], [])
  | c :: t =>
    let (first, others) := runs t
    if IsPlainChar c then (c :: first, others) else ([], (c, first) :: others)

def tighten (t : Text) : Text := trim (runs t).1 ++ (runs t).2.flatMap fun r => r.1 :: trim r.2

/-- A text is one run, or a run, a mark and a text. -/
@[elab_as_elim]
theorem runs_induction {P : Text → Prop} (plain : ∀ s, IsPlain s → P s)
    (mark : ∀ s m t, IsPlain s → ¬IsPlainChar m → P t → P (s ++ m :: t)) (t : Text) : P t := by
  have hrun : ∀ s, IsPlain s → P (s ++ t) := by
    induction t with
    | nil => exact fun s hs => (List.append_nil s).symm ▸ plain s hs
    | cons c t ih =>
      intro s hs
      by_cases hc : IsPlainChar c
      · have hsc : IsPlain (s ++ [c]) := fun d hd => by
          rcases List.mem_append.1 hd with hd | hd
          · exact hs d hd
          · exact List.mem_singleton.1 hd ▸ hc
        have hlonger := ih (s ++ [c]) hsc
        rwa [List.append_assoc] at hlonger
      · exact mark s c t hs hc (ih [] fun _ h => absurd h List.not_mem_nil)
  exact hrun [] fun _ h => absurd h List.not_mem_nil

theorem runs_append {s : Text} (hs : IsPlain s) (t : Text) :
    runs (s ++ t) = (s ++ (runs t).1, (runs t).2) := by
  induction s with
  | nil => rfl
  | cons c s ih =>
    have hc := hs c List.mem_cons_self
    have ht := ih fun d hd => hs d (List.mem_cons_of_mem c hd)
    simp only [List.cons_append, runs, ht, if_pos hc]

theorem tighten_of_isPlain {s : Text} (hs : IsPlain s) : tighten s = trim s := by
  have hruns := runs_append hs []
  rw [List.append_nil] at hruns
  simp [tighten, hruns, runs]

@[simp] theorem tighten_nil : tighten [] = [] := by
  have hplain : IsPlain [] := fun _ h => absurd h List.not_mem_nil
  rw [tighten_of_isPlain hplain, IsBlank.nil.trim_eq]

theorem tighten_run_mark {s : Text} {m : Char} (hs : IsPlain s) (hm : ¬IsPlainChar m) (t : Text) :
    tighten (s ++ m :: t) = trim s ++ m :: tighten t := by
  simp [tighten, runs_append hs, runs, hm]

theorem tighten_mark (s : Text) {m : Char} (hm : ¬IsPlainChar m) (t : Text) :
    tighten (s ++ m :: t) = tighten s ++ m :: tighten t := by
  induction s using runs_induction with
  | plain s hs => rw [tighten_run_mark hs hm, tighten_of_isPlain hs]
  | mark s m' u hs hm' ih =>
    rw [List.append_assoc, List.cons_append, tighten_run_mark hs hm', tighten_run_mark hs hm', ih,
      List.append_assoc, List.cons_append]

theorem isPlain_of_isBlank {b : Text} (hb : IsBlank b) : IsPlain b :=
  fun c hc => isPlainChar_of_isBlank (hb c hc)

theorem IsPlain.append {s t : Text} (hs : IsPlain s) (ht : IsPlain t) : IsPlain (s ++ t) :=
  fun c hc => (List.mem_append.1 hc).elim (hs c) (ht c)

theorem tighten_blank_append {b : Text} (hb : IsBlank b) (t : Text) :
    tighten (b ++ t) = tighten t := by
  have hplain := isPlain_of_isBlank hb
  induction t using runs_induction with
  | plain s hs =>
    rw [tighten_of_isPlain (hplain.append hs), tighten_of_isPlain hs, trim_blank_append hb]
  | mark s m t hs hm _ =>
    rw [← List.append_assoc, tighten_run_mark (hplain.append hs) hm, tighten_run_mark hs hm,
      trim_blank_append hb]

theorem tighten_append_blank {b : Text} (t : Text) (hb : IsBlank b) :
    tighten (t ++ b) = tighten t := by
  induction t using runs_induction with
  | plain s hs =>
    rw [tighten_of_isPlain (hs.append (isPlain_of_isBlank hb)), tighten_of_isPlain hs,
      trim_append_blank s hb]
  | mark s m t hs hm ih =>
    rw [List.append_assoc, List.cons_append, tighten_run_mark hs hm, tighten_run_mark hs hm, ih]

theorem tighten_trim (t : Text) : tighten (trim t) = tighten t := by
  obtain ⟨front, back, hf, hb, ht⟩ := exists_trim t
  conv => rhs; rw [ht, tighten_append_blank _ hb, tighten_blank_append hf]

theorem squeeze_tighten (t : Text) : squeeze (tighten t) = squeeze t := by
  induction t using runs_induction with
  | plain s hs => rw [tighten_of_isPlain hs, squeeze_trim]
  | mark s m t hs hm ih =>
    rw [tighten_run_mark hs hm, squeeze_append, squeeze_append, squeeze_trim]
    simp [squeeze, isBlank_of_mark hm] at ih ⊢
    exact ih

theorem mem_tighten {t : Text} {c : Char} (hc : isBlank c = false) : c ∈ tighten t ↔ c ∈ t := by
  induction t using runs_induction with
  | plain s hs => rw [tighten_of_isPlain hs, mem_trim hc]
  | mark s m t hs hm ih =>
    rw [tighten_run_mark hs hm, List.mem_append, List.mem_append, List.mem_cons, List.mem_cons,
      mem_trim hc, ih]

theorem isPlain_tighten_iff {t : Text} : IsPlain (tighten t) ↔ IsPlain t := by
  have hmem : ∀ m, ¬IsPlainChar m → (m ∈ tighten t ↔ m ∈ t) := fun m hm =>
    mem_tighten (isBlank_of_mark hm)
  constructor
  · exact fun h c hc => by_contra fun hm => hm (h c ((hmem c hm).2 hc))
  · exact fun h c hc => by_contra fun hm => hm (h c ((hmem c hm).1 hc))

theorem tighten_eq_nil_iff {t : Text} : tighten t = [] ↔ IsBlank t := by
  constructor
  · intro h c hc
    by_contra hblank
    have hmem := (mem_tighten (Bool.eq_false_iff.2 hblank)).2 hc
    rw [h] at hmem
    exact absurd hmem List.not_mem_nil
  · intro h
    rw [tighten_of_isPlain (isPlain_of_isBlank h), h.trim_eq]

theorem isTrimmed_tighten (t : Text) : IsTrimmed (tighten t) := by
  induction t using runs_induction with
  | plain s hs => exact tighten_of_isPlain hs ▸ isTrimmed_trim s
  | mark s m t hs hm ih =>
    have hblank := isBlank_of_mark hm
    rw [tighten_run_mark hs hm]
    constructor
    · cases htrim : trim s with
      | nil => simpa using hblank
      | cons c u => simpa [htrim] using (isTrimmed_trim s).1
    · rcases List.eq_nil_or_concat (tighten t) with hnil | ⟨u, c, hu⟩
      · simpa [hnil] using hblank
      · rw [List.concat_eq_append] at hu
        have hlast := ih.2
        simp only [hu, ← List.cons_append, ← List.append_assoc, List.getLast?_concat] at hlast ⊢
        exact hlast

@[simp] theorem trim_tighten (t : Text) : trim (tighten t) = tighten t :=
  trim_eq_self (isTrimmed_tighten t)

theorem exists_tighten_concat (t : Text) {c : Char} (hc : isBlank c = false) :
    ∃ u, tighten (t ++ [c]) = u ++ [c] := by
  by_cases hm : IsPlainChar c
  · induction t using runs_induction with
    | plain s hs =>
      have hsc : IsPlain (s ++ [c]) := hs.append fun d hd => List.mem_singleton.1 hd ▸ hm
      rw [tighten_of_isPlain hsc]
      refine ⟨trimFront s, ?_⟩
      have hfront : trimFront (s ++ [c]) = trimFront s ++ [c] := by
        simp only [trimFront, List.dropWhile_append]
        split
        · simp_all
        · rfl
      rw [trim, hfront, trimBack_eq_self (by simpa using hc)]
    | mark s m t hs hm' ih =>
      obtain ⟨u, hu⟩ := ih
      refine ⟨trim s ++ m :: u, ?_⟩
      rw [List.append_assoc, List.cons_append, tighten_run_mark hs hm', hu, List.append_assoc,
        List.cons_append]
  · refine ⟨tighten t, ?_⟩
    rw [tighten_mark t hm]
    rfl

theorem IsPlain.not_cut {s : Text} (hs : IsPlain s) (opened : Int) :
    ∀ p q, s = p ++ ',' :: q → opened + level p ≠ 0 :=
  fun p q hpq => absurd rfl (hs ',' (by simp [hpq])).2.2

theorem cut_of_isPlain {s : Text} (hs : IsPlain s) (opened : Int) : cut opened s = (s, []) :=
  cut_eq_self (hs.not_cut opened)

theorem cut_run_append {s : Text} (hs : IsPlain s) (opened : Int) (t : Text) :
    cut opened (s ++ t) = (s ++ (cut opened t).1, (cut opened t).2) := by
  have hcut := cut_append (hs.not_cut opened) t
  rwa [level_of_plain hs, Int.add_zero] at hcut

theorem isPlain_trim {s : Text} (hs : IsPlain s) : IsPlain (trim s) := by
  rw [← tighten_of_isPlain hs, isPlain_tighten_iff]
  exact hs

theorem cut_tighten (opened : Int) (t : Text) :
    cut opened (tighten t) =
      (tighten (cut opened t).1, (cut opened t).2.map tighten) := by
  induction t using runs_induction generalizing opened with
  | plain s hs =>
    rw [tighten_of_isPlain hs, cut_of_isPlain hs, cut_of_isPlain (isPlain_trim hs),
      tighten_of_isPlain hs, List.map_nil]
  | mark s m t hs hm ih =>
    rw [tighten_run_mark hs hm, cut_run_append (isPlain_trim hs), cut_run_append hs, cut_cons,
      cut_cons]
    simp only [ih]
    split
    · simp [tighten_of_isPlain hs]
    · simp [tighten_run_mark hs hm]

theorem parts_tighten (t : Text) : parts (tighten t) = (parts t).map tighten := by
  simp only [parts, cut_tighten, List.map_cons]

theorem arguments_tighten (t : Text) :
    arguments (tighten t) = (arguments (trim t)).map tighten := by
  by_cases ht : IsBlank t
  · rw [tighten_eq_nil_iff.2 ht, arguments_trim_of_isBlank ht]
    rfl
  · rw [arguments_of_ne_nil (mt tighten_eq_nil_iff.1 ht), arguments_trim_of_not_isBlank ht,
      parts_tighten, List.map_map, List.map_map]
    exact List.map_congr_left fun p _ => (trim_tighten p).trans (tighten_trim p).symm

theorem asCall_tighten {t : Text} (ht : IsTrimmed t) :
    asCall (tighten t) = (asCall t).map (Prod.map tighten tighten) := by
  have hmem : ∀ s, '(' ∈ tighten s ↔ '(' ∈ s := fun s => mem_tighten (by decide)
  by_cases hopen : '(' ∈ t
  · obtain ⟨name, rest, rfl, hname⟩ := List.eq_append_cons_of_mem hopen
    rw [tighten_mark name (by decide), asCall_opening hname,
      asCall_opening (mt (hmem name).1 hname)]
    cases name with
    | nil => rfl
    | cons c n =>
      have hc : isBlank c = false := ht.1 c rfl
      have hne : tighten (c :: n) ≠ [] := fun hnil => by
        have hblank := tighten_eq_nil_iff.1 hnil c List.mem_cons_self
        simp [hblank] at hc
      rcases List.eq_nil_or_concat rest with rfl | ⟨u, d, rfl⟩
      · simp
      · rw [List.concat_eq_append] at ht ⊢
        by_cases hd : d = ')'
        · subst hd
          have hrest := tighten_mark u (m := ')') (by decide) []
          simp [hne, hrest, tighten_trim]
        · have hassoc : c :: n ++ '(' :: (u ++ [d]) = (c :: n ++ '(' :: u) ++ [d] := by simp
          have hblank : isBlank d = false := ht.2 d (by rw [hassoc, List.getLast?_concat]; rfl)
          obtain ⟨v, hv⟩ := exists_tighten_concat u hblank
          simp [hv, hd]
  · rw [asCall_eq_none_of_not_mem hopen, asCall_eq_none_of_not_mem (mt (hmem t).1 hopen)]
    rfl

theorem isPlain_of_lexeme {t : Text} (h : ∀ c ∈ t, Lexeme.IsLexemeChar c) : IsPlain t :=
  fun c hc => (h c hc).isPlainChar

theorem ofText_of_not_isPlain {t : Text} (h : ¬IsPlain t) :
    ofText t =
      match asCall (trim t) with
      | some (name, inside) => .call name (arguments inside)
      | none => .malformed (trim t) := by
  have hlexeme : ¬∀ c ∈ trim t, Lexeme.IsLexemeChar c := fun ht => h <| by
    rw [← isPlain_tighten_iff, ← tighten_trim, isPlain_tighten_iff]
    exact isPlain_of_lexeme ht
  have hnumber : ¬Lexeme.isNumber (trim t) := fun ht =>
    hlexeme (Lexeme.isNumber_iff.1 ht).forall_isLexemeChar
  have hidentifier : ¬Lexeme.isIdentifier (trim t) := fun ht =>
    hlexeme (Lexeme.isIdentifier_iff.1 ht).forall_isLexemeChar
  cases hcall : asCall (trim t) with
  | none => simp only [ofText, if_neg hnumber, if_neg hidentifier, hcall]
  | some call => simp only [ofText, if_neg hnumber, if_neg hidentifier, hcall]

/-- Making a text tight makes its pieces tight, and changes nothing else. -/
theorem ofText_tighten (t : Text) : ofText (tighten t) = (ofText t).reword id tighten := by
  by_cases ht : IsPlain t
  · have htrim : tighten (trim t) = trim t := by rw [tighten_trim, tighten_of_isPlain ht]
    have hcall : asCall (trim t) = none := asCall_eq_none_of_not_mem fun hmem =>
      (isPlain_trim ht '(' hmem).1 rfl
    simp only [tighten_of_isPlain ht, ofText, trim_trim, hcall]
    split
    · rfl
    · split
      · rfl
      · rw [reword, htrim]
  · rw [ofText_of_not_isPlain ht, ofText_of_not_isPlain (mt isPlain_tighten_iff.1 ht),
      trim_tighten, ← tighten_trim, asCall_tighten (isTrimmed_trim t)]
    cases hcall : asCall (trim t) with
    | none => rfl
    | some call =>
      obtain ⟨name, inside⟩ := call
      obtain ⟨-, i, -, -, -, -, rfl⟩ := exists_of_asCall hcall
      simp only [Option.map_some, Prod.map, reword]
      rw [tighten_trim, arguments_tighten]

/-- One more run of blanks: at an end of a text, or directly before or behind a mark. -/
inductive Spacing : Text → Text → Prop where
  | front {b : Text} (hb : IsBlank b) (t : Text) : Spacing t (b ++ t)
  | back (t : Text) {b : Text} (hb : IsBlank b) : Spacing t (t ++ b)
  | before (s : Text) {b : Text} (hb : IsBlank b) {m : Char} (hm : ¬IsPlainChar m) (t : Text) :
    Spacing (s ++ m :: t) (s ++ b ++ m :: t)
  | behind (s : Text) {m : Char} (hm : ¬IsPlainChar m) {b : Text} (hb : IsBlank b) (t : Text) :
    Spacing (s ++ m :: t) (s ++ m :: (b ++ t))

theorem Spacing.tighten_eq {s t : Text} (h : Spacing s t) : tighten t = tighten s := by
  cases h with
  | front hb t => exact tighten_blank_append hb s
  | back t hb => exact tighten_append_blank s hb
  | before s hb hm t => rw [tighten_mark _ hm, tighten_mark s hm, tighten_append_blank s hb]
  | behind s hm hb t => rw [tighten_mark s hm, tighten_mark s hm, tighten_blank_append hb]

theorem tighten_eq_of_spacings {s t : Text} (h : Relation.ReflTransGen Spacing s t) :
    tighten t = tighten s := by
  induction h with
  | refl => rfl
  | tail _ hstep ih => exact hstep.tighten_eq.trans ih

end Piece

end CallFormula
