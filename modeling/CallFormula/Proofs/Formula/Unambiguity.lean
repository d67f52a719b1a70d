import CallFormula.Proofs.Formula.Derivation

set_option autoImplicit false

namespace CallFormula

open Text

theorem lexeme_between_inj {f t b f' t' b' : Text} (hf : IsBlank f) (hf' : IsBlank f')
    (hb : IsBlank b) (hb' : IsBlank b') (hne : t ≠ []) (ht : ∀ c ∈ t, Lexeme.IsLexemeChar c)
    (ht' : ∀ c ∈ t', Lexeme.IsLexemeChar c) (h : f ++ t ++ b = f' ++ t' ++ b') :
    f = f' ∧ t = t' ∧ b = b' := by
  have htrim := congrArg trim h
  rw [Piece.trim_between_lexeme hf hb ht, Piece.trim_between_lexeme hf' hb' ht'] at htrim
  subst htrim
  have hhead : ∀ u : Text, trimFront (t ++ u) = t ++ u := by
    intro u
    obtain ⟨c, s, rfl⟩ := List.exists_cons_of_ne_nil hne
    exact trimFront_eq_self fun d hd => by
      cases hd
      exact (ht c List.mem_cons_self).isBlank_eq_false
  have hback := congrArg trimFront h
  rw [List.append_assoc, List.append_assoc, trimFront_append_of_blank hf,
    trimFront_append_of_blank hf', hhead, hhead, List.append_cancel_left_eq] at hback
  subst hback
  rw [List.append_cancel_right_eq, List.append_cancel_right_eq] at h
  exact ⟨h, rfl, rfl⟩

theorem call_inj {o i b o' i' b' : Text} (ho : '(' ∉ o) (ho' : '(' ∉ o') (hb : IsBlank b)
    (hb' : IsBlank b') (h : o ++ '(' :: i ++ ')' :: b = o' ++ '(' :: i' ++ ')' :: b') :
    o = o' ∧ i = i' ∧ b = b' := by
  have hassoc : ∀ o i b : Text, o ++ '(' :: i ++ ')' :: b = o ++ '(' :: (i ++ [')'] ++ b) := by
    simp
  rw [hassoc, hassoc] at h
  have hopening := congrArg (List.takeWhile Piece.notOpening) h
  rw [(Piece.span_opening ho).1, (Piece.span_opening ho').1] at hopening
  subst hopening
  rw [List.append_cancel_left_eq, List.cons_eq_cons] at h
  have hlast : ∀ u : Text, trimBack (u ++ [')']) = u ++ [')'] := by
    intro u
    refine trimBack_eq_self fun c hc => ?_
    rw [List.getLast?_concat] at hc
    cases hc
    decide
  have hinside := congrArg trimBack h.2
  rw [trimBack_append_of_blank hb, trimBack_append_of_blank hb', hlast, hlast,
    List.append_cancel_right_eq] at hinside
  subst hinside
  exact ⟨rfl, rfl, List.append_cancel_left h.2⟩

variable {σ : Type} {r : Registry σ} {m : Nat}

theorem Registry.Opens.not_opening_front {front name : Text} {b : Binding σ}
    (h : r.Opens name b) (hf : IsBlank front) : '(' ∉ front ++ name := by
  intro hmem
  rcases List.mem_append.1 hmem with hmem | hmem
  · exact absurd (hf '(' hmem) (by decide)
  · exact h.not_opening hmem

theorem Registry.Opens.build_eq {front front' name name' : Text} {b b' : Binding σ}
    {args : List Tree} {tree tree' : Tree} (bench : Workbench σ) (h : r.Opens name b)
    (h' : r.Opens name' b') (hf : IsBlank front) (hf' : IsBlank front')
    (heq : front ++ name = front' ++ name') (hb : b.build (canonical name) args = pure tree)
    (hb' : b'.build (canonical name') args = pure tree') : tree = tree' := by
  have htrim := congrArg trim heq
  rw [trim_blank_append hf, trim_blank_append hf'] at htrim
  have hbuild := h.buildCall_eq args
  rw [htrim, h'.buildCall_eq args, hb, hb', Action.pure_eq_ofExcept, Action.pure_eq_ofExcept,
    Action.ofExcept_inj bench, Except.ok.injEq] at hbuild
  exact hbuild.symm

theorem Derives.ofText_text {d : Nat} {D : Derivation} {tree : Tree} (h : Derives r m d D tree) :
    match D with
    | .number _ literal _ => Piece.ofText D.text = .number literal
    | .identifier _ name _ => Piece.ofText D.text = .identifier name
    | .bare _ _ _ | .call _ _ _ _ => ∃ name args, Piece.ofText D.text = .call name args := by
  cases h with
  | number _ hf hl hb _ _ => exact Piece.ofText_number hf hl hb
  | identifier _ hf hn hb => exact Piece.ofText_identifier hf hn hb
  | bare _ hf hn _ hb _ => exact ⟨_, _, Piece.ofText_call hf hn.not_opening hn.not_blank hb⟩
  | call _ hf hn _ _ hb _ => exact ⟨_, _, Piece.ofText_call hf hn.not_opening hn.not_blank hb⟩

mutual

theorem Derives.unique (hplain : r.IsPlain) (bench : Workbench σ) {d d' : Nat} {D D' : Derivation}
    {tree tree' : Tree} :
    Derives r m d D tree → Derives r m d' D' tree' → D.text = D'.text → D = D' ∧ tree = tree'
  | .number hd hf hl hb hread hfin, h', htext => by
    have hp := (Derives.number (r := r) hd hf hl hb hread hfin).ofText_text
    have hp' := h'.ofText_text
    rw [htext] at hp
    cases h' with
    | number _ hf' hl' hb' hread' _ =>
      obtain ⟨rfl, rfl, rfl⟩ := lexeme_between_inj hf hf' hb hb' hl.ne_nil hl.forall_isLexemeChar
        hl'.forall_isLexemeChar htext
      rw [hread, Option.some.injEq] at hread'
      exact ⟨rfl, by rw [hread']⟩
    | _ => simp [hp] at hp'
  | .identifier hd hf hn hb, h', htext => by
    have hp := (Derives.identifier (r := r) hd hf hn hb).ofText_text
    have hp' := h'.ofText_text
    rw [htext] at hp
    cases h' with
    | identifier _ hf' hn' hb' =>
      obtain ⟨rfl, rfl, rfl⟩ := lexeme_between_inj hf hf' hb hb' hn.ne_nil hn.forall_isLexemeChar
        hn'.forall_isLexemeChar htext
      exact ⟨rfl, rfl⟩
    | _ => simp [hp] at hp'
  | .bare hd hf hn hi hb hbuild, h', htext => by
    obtain ⟨name, args, hp⟩ := (Derives.bare hd hf hn hi hb hbuild).ofText_text
    have hp' := h'.ofText_text
    rw [htext] at hp
    cases h' with
    | bare _ hf' hn' hi' hb' hbuild' =>
      obtain ⟨ho, rfl, rfl⟩ := call_inj (hn.not_opening_front hf) (hn'.not_opening_front hf')
        hb hb' htext
      exact ⟨by rw [ho], hn.build_eq bench hn' hf hf' ho hbuild hbuild'⟩
    | call _ hf' hn' hfirst' _ hb' _ =>
      obtain ⟨-, rfl, -⟩ := call_inj (hn.not_opening_front hf) (hn'.not_opening_front hf')
        hb hb' htext
      exact absurd hi (hfirst'.not_isBlank_joined _)
    | _ => simp [hp] at hp'
  | .call hd hf hn hfirst hothers hb hbuild, h', htext => by
    obtain ⟨name, args, hp⟩ := (Derives.call hd hf hn hfirst hothers hb hbuild).ofText_text
    have hp' := h'.ofText_text
    rw [htext] at hp
    cases h' with
    | bare _ hf' hn' hi' hb' _ =>
      obtain ⟨-, hi, -⟩ := call_inj (hn.not_opening_front hf) (hn'.not_opening_front hf')
        hb hb' htext
      exact absurd (hi ▸ hi') (hfirst.not_isBlank_joined _)
    | call _ hf' hn' hfirst' hothers' hb' hbuild' =>
      obtain ⟨ho, hi, rfl⟩ := call_inj (hn.not_opening_front hf) (hn'.not_opening_front hf')
        hb hb' htext
      -- Both insides are cut at their commas of level zero, and those are the same.
      have hparts := congrArg Piece.parts hi
      rw [Piece.parts_joined ((DerivesAll.cons hfirst hothers).isSealed hplain),
        Piece.parts_joined ((DerivesAll.cons hfirst' hothers').isSealed hplain),
        List.cons_eq_cons] at hparts
      obtain ⟨rfl, rfl⟩ := hfirst.unique hplain bench hfirst' hparts.1
      obtain ⟨rfl, rfl⟩ := hothers.unique hplain bench hothers' hparts.2
      exact ⟨by rw [ho], hn.build_eq bench hn' hf hf' ho hbuild hbuild'⟩
    | _ => simp [hp] at hp'

theorem DerivesAll.unique (hplain : r.IsPlain) (bench : Workbench σ) {d d' : Nat}
    {Ds Ds' : List Derivation} {trees trees' : List Tree} :
    DerivesAll r m d Ds trees → DerivesAll r m d' Ds' trees' →
      Derivation.texts Ds = Derivation.texts Ds' → Ds = Ds' ∧ trees = trees'
  | .nil, .nil, _ => ⟨rfl, rfl⟩
  | .nil, .cons _ _, h => by simp [Derivation.texts] at h
  | .cons _ _, .nil, h => by simp [Derivation.texts] at h
  | .cons hD hDs, .cons hD' hDs', h => by
    obtain ⟨hhead, htail⟩ := List.cons_eq_cons.1 h
    obtain ⟨rfl, rfl⟩ := hD.unique hplain bench hD' hhead
    obtain ⟨rfl, rfl⟩ := hDs.unique hplain bench hDs' htail
    exact ⟨rfl, rfl⟩

end

/-- Reading is deriving: against a plain registry with pure bindings a formula has a tree iff it has
a derivation with that tree, and it has at most one derivation. -/
theorem Registry.parse_eq_ok_iff_derives (hpure : r.IsPure) (hplain : r.IsPlain) (m : Nat)
    (s : Text) (bench : Workbench σ) :
    (∀ tree, ((r.parse (some m) s).run bench).1 = .ok tree ↔
      ∃ D : Derivation, D.text = s ∧ Derives r m 0 D tree) ∧
    (∀ (D D' : Derivation) (tree tree' : Tree), D.text = s → D'.text = s →
      Derives r m 0 D tree → Derives r m 0 D' tree' → D = D' ∧ tree = tree') := by
  constructor
  · intro tree
    rw [hpure.run_parse_eq_ok_iff bench]
    constructor
    · exact exists_derives hpure bench
    · rintro ⟨D, rfl, h⟩
      exact h.parseAt_eq hpure hplain bench
  · intro D D' tree tree' hD hD' h h'
    exact h.unique hplain bench h' (hD.trans hD'.symm)

theorem Registry.parse_spaced_add :
    (Registry.standard : Registry Unit).IsPure ∧ (Registry.standard : Registry Unit).IsPlain ∧
      ((Registry.standard.parse (some 1) " Add( x ,y)".toList).run (⟨(), []⟩ : Workbench Unit)).1 =
        .ok (.binary (.variable ['x']) .add (.variable ['y'])) := by
  refine ⟨Registry.isPure_standard, Registry.isPlain_standard, ?_⟩
  refine ((Registry.parse_eq_ok_iff_derives Registry.isPure_standard Registry.isPlain_standard 1 _
    _).1 _).2
    ⟨.call ([' '] ++ ['A', 'd', 'd']) (.identifier [' '] ['x'] [' ']) [.identifier [] ['y'] []] [],
      by decide, ?_⟩
  have hname : ∀ c : Char, c.isAlpha = true → Lexeme.IsName [c] := fun c h =>
    .cons (.inl h) (by simp)
  have hblank : IsBlank [' '] := by simp [IsBlank]; decide
  have hopens : (Registry.standard : Registry Unit).Opens ['A', 'd', 'd'] (.operator .add) :=
    ⟨by decide, fun h => absurd (h 'A' (by simp)) (by decide), by rfl⟩
  exact .call (by decide) hblank hopens
    (.identifier (by decide) hblank (hname 'x' (by decide)) hblank)
    (.cons (.identifier (by decide) .nil (hname 'y' (by decide)) .nil) .nil) .nil rfl

end CallFormula
