import CallFormula.Proofs.Formula.Coincidence
import CallFormula.Proofs.Formula.Pieces

set_option autoImplicit false

namespace CallFormula

/-- The trimmed text and, one level deeper each time, the arguments of the calls in it. -/
inductive IsPiece : Text → Nat → Text → Prop where
  | whole (text : Text) : IsPiece text 0 (Text.trim text)
  | inside {text name a x : Text} {args : List Text} {depth : Nat}
      (hcall : Piece.ofText text = .call name args) (ha : a ∈ args) (hx : IsPiece a depth x) :
      IsPiece text (depth + 1) x

theorem IsPiece.isInfix {text x : Text} {depth : Nat} (h : IsPiece text depth x) : x <:+: text := by
  induction h with
  | whole text => exact text.trim_isInfix
  | inside hcall ha _ ih => exact ih.trans (Piece.isInfix_of_mem_args hcall ha)

theorem IsPiece.isTrimmed {text x : Text} {depth : Nat} (h : IsPiece text depth x) :
    Text.IsTrimmed x := by
  induction h with
  | whole text => exact Text.isTrimmed_trim text
  | inside _ _ _ ih => exact ih

namespace Registry

variable {σ : Type} {r : Registry σ}

/-- A piece that fails at its depth although all of its arguments can be read. -/
inductive Fault (r : Registry σ) (limit : Option Nat) (depth : Nat) (x : Text) :
    ParseError → Prop where
  | deep {m : Nat} (hlimit : limit = some m) (hdepth : m < depth) :
      Fault r limit depth x (.nestingTooDeep m)
  | malformed {t : Text} (hpiece : Piece.ofText x = .malformed t) :
      Fault r limit depth x (.malformed t)
  | literal {t : Text} {e : ParseError} (hpiece : Piece.ofText x = .number t)
      (hread : readLiteral t = .error e) : Fault r limit depth x e
  | call {name : Text} {args : List Text} {trees : List Tree} {e : ParseError}
      (hpiece : Piece.ofText x = .call name args)
      (hargs : List.Forall₂ (fun a tree => r.parseAt limit (depth + 1) a = pure tree) args trees)
      (hbuild : r.buildCall name trees = throw e) : Fault r limit depth x e

theorem eq_of_checkDepth_eq_error {limit : Option Nat} {depth : Nat} {e : ParseError}
    (h : checkDepth limit depth = .error e) :
    ∃ m, limit = some m ∧ m < depth ∧ e = .nestingTooDeep m := by
  cases limit with
  | none => cases h
  | some m =>
    simp only [checkDepth] at h
    split at h
    · next hdepth =>
      cases h
      exact ⟨m, rfl, hdepth, rfl⟩
    · cases h

theorem IsPure.exists_fault (h : r.IsPure) (bench : Workbench σ) (limit : Option Nat) (depth : Nat)
    (text : Text) (e : ParseError) (hfail : r.parseAt limit depth text = throw e) :
    ∃ below x, IsPiece text below x ∧ r.Fault limit (depth + below) x e := by
  rw [parseAt_eq, Action.throw_eq_ofExcept] at hfail
  have hwhole := IsPiece.whole text
  have htrim := Piece.ofText_trim text
  cases hcheck : checkDepth limit depth with
  | error e' =>
    rw [hcheck, Action.ofExcept_error_bind, Action.ofExcept_inj bench] at hfail
    cases hfail
    obtain ⟨m, hlimit, hdepth, rfl⟩ := eq_of_checkDepth_eq_error hcheck
    exact ⟨0, _, hwhole, .deep hlimit hdepth⟩
  | ok _ =>
    rw [hcheck, Action.ofExcept_ok_bind] at hfail
    cases hp : Piece.ofText text with
    | number t =>
      simp only [hp, Action.ofExcept_inj bench] at hfail
      exact ⟨0, _, hwhole, .literal (htrim.trans hp) hfail⟩
    | identifier t =>
      simp only [hp, Action.pure_eq_ofExcept, Action.ofExcept_inj bench] at hfail
      cases hfail
    | malformed t =>
      simp only [hp, Action.throw_eq_ofExcept, Action.ofExcept_inj bench] at hfail
      cases hfail
      exact ⟨0, _, hwhole, .malformed (htrim.trans hp)⟩
    | call name args =>
      choose read hread using h.exists_parseAt limit (depth + 1)
      simp only [hp, Action.ofExcept_mapM _ read fun a _ => hread a] at hfail
      cases hargs : args.mapM read with
      | error e' =>
        rw [hargs, Action.ofExcept_error_bind, Action.ofExcept_inj bench] at hfail
        cases hfail
        -- The argument is shorter and one level deeper, and its fault is one of the call.
        obtain ⟨a, ha, hafail⟩ := Except.exists_of_mapM_eq_error hargs
        have := Piece.length_lt_of_mem_args hp ha
        obtain ⟨below, x, hx, hfault⟩ :=
          h.exists_fault bench limit (depth + 1) a e (by rw [hread, hafail]; rfl)
        exact ⟨below + 1, x, .inside hp ha hx, by rwa [Nat.add_right_comm] at hfault⟩
      | ok trees =>
        rw [hargs, Action.ofExcept_ok_bind] at hfail
        refine ⟨0, _, hwhole, .call (htrim.trans hp) ?_ hfail⟩
        refine (Except.mapM_eq_ok_iff.1 hargs).imp fun a tree htree => ?_
        rw [Nat.add_zero, hread, htree]
        rfl
termination_by text.length

theorem checkDepth_eq_ok_of_le {limit : Option Nat} {d depth : Nat} (hd : d ≤ depth)
    (h : checkDepth limit depth = .ok ()) : checkDepth limit d = .ok () := by
  cases limit with
  | none => rfl
  | some m => exact checkDepth_eq_ok_iff.2 (hd.trans (checkDepth_eq_ok_iff.1 h))

theorem IsPure.parseAt_of_le (h : r.IsPure) (bench : Workbench σ) {limit : Option Nat}
    {d depth : Nat} (hd : d ≤ depth) (text : Text) {tree : Tree}
    (hread : r.parseAt limit depth text = pure tree) : r.parseAt limit d text = pure tree := by
  rw [parseAt_eq_pure_iff_of_checkDepth h bench] at hread ⊢
  obtain ⟨hcheck, hpiece⟩ := hread
  refine ⟨checkDepth_eq_ok_of_le hd hcheck, ?_⟩
  cases hp : Piece.ofText text with
  | number t => simpa only [hp] using hpiece
  | identifier t => simpa only [hp] using hpiece
  | malformed t => simp only [hp] at hpiece
  | call name args =>
    simp only [hp] at hpiece ⊢
    obtain ⟨trees, hargs, hbuild⟩ := hpiece
    have hshort : ∀ a ∈ args, a.length < text.length := fun a =>
      Piece.length_lt_of_mem_args hp
    refine ⟨trees, ?_, hbuild⟩
    refine ((List.forall₂_and_left _ _).2 ⟨hshort, hargs⟩).imp fun a tree ⟨hlt, htree⟩ => ?_
    exact h.parseAt_of_le bench (Nat.succ_le_succ hd) a htree
termination_by text.length

/-- The name is bound to an operator or a function that does not take so many arguments, and that
an error shows so. -/
inductive Refuses (r : Registry σ) (name : Text) : Text → Text → Nat → Prop where
  | operator {op : Operator} {found : Nat} (h : r.lookup name = some (.operator op))
      (hfound : found ≠ 2) : Refuses r name op.name (Number.digits 2) found
  | function {arity : Arity} {handle : Handle} {found : Nat}
      (h : r.lookup name = some (.function arity handle))
      (hfound : arity.accepts found = false) : Refuses r name (canonical name) arity.text found

theorem IsNative.eq_of_buildCall (h : r.IsNative) (bench : Workbench σ) {name : Text}
    {trees : List Tree} {e : ParseError} (hfail : r.buildCall name trees = throw e) :
    (r.lookup name = none ∧ e = .unknownOperator name) ∨
      ∃ operator expected, r.Refuses name operator expected trees.length ∧
        e = .arityMismatch operator expected trees.length := by
  rw [Action.throw_eq_ofExcept] at hfail
  cases h.names name with
  | nothing hb =>
    rw [buildCall_of_none hb, Action.ofExcept_inj bench] at hfail
    exact .inl ⟨hb, (Except.error.inj hfail).symm⟩
  | operator op hb =>
    rw [buildCall_of_operator hb, Action.ofExcept_inj bench] at hfail
    obtain ⟨hfound, he⟩ := Operator.eq_of_build hfail
    exact .inr ⟨_, _, .operator hb hfound, he⟩
  | function arity handle hb =>
    rw [buildCall_of_function hb, Action.ofExcept_inj bench] at hfail
    obtain ⟨hfound, he⟩ := Arity.eq_of_build hfail
    exact .inr ⟨_, _, .function hb hfound, he⟩

/-- What an error says about the text that was read. -/
def Explains (r : Registry σ) (limit : Option Nat) (text : Text) : ParseError → Prop
  | .malformed x =>
    x <:+: text ∧ Text.IsTrimmed x ∧ ∀ limit', r.parse limit' x = throw (.malformed x)
  | .unknownOperator n =>
    n ≠ [] ∧ Text.IsTrimmed n ∧ '(' ∉ n ∧ r.contains n = false ∧
      (∃ p blanks q, Text.IsBlank blanks ∧ text = p ++ n ++ blanks ++ '(' :: q) ∧
      ∀ limit', r.parse limit' (n ++ ['(', ')']) = throw (.unknownOperator n)
  | .arityMismatch operator expected found =>
    ∃ depth x name args, IsPiece text depth x ∧ x <:+: text ∧ Piece.ofText x = .call name args ∧
      r.Refuses name operator expected found ∧ args.length = found ∧
      (∀ a ∈ args, ∃ tree, r.parse limit a = pure tree) ∧
      r.parse limit x = throw (.arityMismatch operator expected found)
  | .invalidArguments _ _ => False
  | .nestingTooDeep m => limit = some m ∧ ∃ depth x, IsPiece text depth x ∧ m < depth

theorem explains_unknownOperator {text x name : Text} {args : List Text} (hx : x <:+: text)
    (hpiece : Piece.ofText x = .call name args) (hlookup : r.lookup name = none)
    (limit : Option Nat) : r.Explains limit text (.unknownOperator name) := by
  obtain ⟨front, n, inside, back, -, -, hopen, hblank, rfl, rfl, -⟩ :=
    Piece.exists_of_ofText_call hpiece
  obtain ⟨before, after, hx⟩ := hx
  obtain ⟨nfront, nback, -, hnback, hn⟩ := Text.exists_trim n
  have hmem : '(' ∉ Text.trim n := fun h => hopen ((Text.mem_trim (by decide)).1 h)
  have hne : Text.trim n ≠ [] := fun h => hblank (Text.trim_eq_nil_iff.1 h)
  have htrimmed : Text.IsTrimmed (Text.trim n) := Text.isTrimmed_trim n
  refine ⟨hne, htrimmed, hmem, ?_, ?_, fun limit => ?_⟩
  · exact Option.isSome_eq_false_iff.2 (Option.isNone_iff_eq_none.2 hlookup)
  · refine ⟨before ++ front ++ nfront, nback, inside ++ ')' :: back ++ after, hnback, ?_⟩
    rw [← hx]
    conv => lhs; rw [hn]
    simp
  · rw [parse, parseAt_eq, checkDepth_zero, Action.ofExcept_ok_bind,
      Piece.ofText_bare_call hne htrimmed hmem]
    exact buildCall_of_none hlookup []

theorem IsPure.explains_arityMismatch (h : r.IsPure) (bench : Workbench σ) {limit : Option Nat}
    {depth : Nat} {text x name operator expected : Text} {args : List Text} {trees : List Tree}
    (hx : IsPiece text depth x) (hpiece : Piece.ofText x = .call name args)
    (hargs : List.Forall₂ (fun a tree => r.parseAt limit (depth + 1) a = pure tree) args trees)
    (hrefuses : r.Refuses name operator expected trees.length)
    (hbuild : r.buildCall name trees = throw (.arityMismatch operator expected trees.length)) :
    r.Explains limit text (.arityMismatch operator expected trees.length) := by
  refine ⟨depth, x, name, args, hx, hx.isInfix, hpiece, hrefuses, hargs.length_eq, ?_, ?_⟩
  · intro a ha
    obtain ⟨hcount, hget⟩ := List.forall₂_iff_get.1 hargs
    obtain ⟨i, rfl⟩ := List.mem_iff_get.1 ha
    exact ⟨_, h.parseAt_of_le bench (Nat.zero_le _) _ (hget i i.2 (hcount ▸ i.2))⟩
  · have hreads : args.mapM (r.parseAt limit 1) = pure trees :=
      Action.mapM_eq_pure <| hargs.imp fun a _ htree =>
        h.parseAt_of_le bench (Nat.succ_le_succ depth.zero_le) a htree
    rw [parse, parseAt_eq, checkDepth_zero, Action.ofExcept_ok_bind, hpiece]
    dsimp only
    rw [hreads, pure_bind, hbuild]

theorem IsNative.explains_of_fault (h : r.IsNative) (bench : Workbench σ) {limit : Option Nat}
    {text x : Text} {depth : Nat} {e : ParseError} (hx : IsPiece text depth x)
    (hfault : r.Fault limit depth x e) : r.Explains limit text e := by
  have htrim : Text.trim x = x := Text.trim_eq_self hx.isTrimmed
  cases hfault with
  | deep hlimit hdepth => exact ⟨hlimit, depth, x, hx, hdepth⟩
  | malformed hpiece =>
    obtain rfl := (Piece.eq_of_ofText_malformed hpiece).trans htrim
    exact ⟨hx.isInfix, hx.isTrimmed, parse_of_malformed hpiece⟩
  | literal hpiece hread =>
    obtain rfl := (Piece.exists_of_ofText_number hpiece).1.trans htrim
    obtain rfl := readLiteral_eq_error hread
    refine ⟨hx.isInfix, hx.isTrimmed, fun limit => ?_⟩
    rw [parse_of_number hpiece, hread]
    rfl
  | call hpiece hargs hbuild =>
    rename_i name args trees
    obtain ⟨hlookup, rfl⟩ | ⟨operator, expected, hrefuses, rfl⟩ := h.eq_of_buildCall bench hbuild
    · exact explains_unknownOperator hx.isInfix hpiece hlookup limit
    -- Alone the call lies at depth 0, so whatever could be read in it still can.
    · exact h.isPure.explains_arityMismatch bench hx hpiece hargs hrefuses hbuild

/-- An error of reading points at a piece of the text that fails in the same way by itself. -/
theorem parse_error_explained (h : r.IsNative) (limit : Option Nat) (text : Text)
    (bench : Workbench σ) {e : ParseError}
    (herror : ((r.parse limit text).run bench).1 = .error e) : r.Explains limit text e := by
  obtain ⟨result, hresult⟩ := h.isPure.exists_parse limit text
  rw [hresult, Action.run_ofExcept] at herror
  have hfail : r.parseAt limit 0 text = throw e := by
    rw [← parse, hresult, show result = .error e from herror]
    rfl
  obtain ⟨depth, x, hx, hfault⟩ := h.isPure.exists_fault bench limit 0 text e hfail
  rw [Nat.zero_add] at hfault
  exact h.explains_of_fault bench hx hfault

theorem parse_error_explained_max :
    let r : Registry Unit := standard.bind "max".toList (.function (.exact 2) ⟨0⟩)
    let text := "add(x, max( y ))".toList
    let e : ParseError := .arityMismatch "MAX".toList ['2'] 1
    r.IsNative ∧ ((r.parse (some 4) text).run ⟨(), []⟩).1 = .error e ∧
      r.Explains (some 4) text e := by
  intro r text e
  have hnative : r.IsNative := isNative_standard.bind _ trivial
  have hadd : Piece.ofText text = .call "add".toList ["x".toList, "max( y )".toList] := by
    decide +kernel
  have hmax : Piece.ofText "max( y )".toList = .call "max".toList ["y".toList] := by
    decide +kernel
  have hx : Piece.ofText "x".toList = .identifier ['x'] := by decide +kernel
  have hy : Piece.ofText "y".toList = .identifier ['y'] := by decide +kernel
  have hlookup : r.lookup "max".toList = some (.function (.exact 2) ⟨0⟩) :=
    (lookup_bind _ _ _ _).trans (if_pos rfl)
  have hfail : ((r.parse (some 4) text).run ⟨(), []⟩).1 = .error e := by
    simp only [parse, parseAt_eq_walk, Sketch.ofText_eq, hadd, hmax, hx, hy, List.map_cons,
      List.map_nil, Sketch.walk, Sketch.walkAll, checkDepth, buildCall_of_function hlookup]
    rfl
  exact ⟨hnative, hfail, parse_error_explained hnative (some 4) text _ hfail⟩

end Registry

end CallFormula
