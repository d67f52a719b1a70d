import CallFormula.Proofs.Formula.Derivation
import CallFormula.Proofs.Formula.Sketch
import CallFormula.Proofs.Registry.Ordinary

set_option autoImplicit false

namespace CallFormula

variable {σ τ : Type}

namespace Action

variable {α β : Type}

/-- A step under a limit, beside the same step without one: from any state, with the limit `m` it
ends in the error that names this limit, or with this limit and every higher one it runs as without
a limit. -/
def CutsOff (m : Nat) (x : Nat → Action τ ParseError α) (y : Action τ ParseError α) : Prop :=
  ∀ s, ((x m).run s).1 = .error (.nestingTooDeep m) ∨ ∀ n, m ≤ n → (x n).run s = y.run s

variable {m : Nat}

theorem cutsOff_const (y : Action τ ParseError α) : CutsOff m (fun _ => y) y :=
  fun _ => .inr fun _ _ => rfl

theorem cutsOff_checkDepth (depth : Nat) :
    CutsOff m (fun n => (ofExcept (checkDepth (some n) depth) : Action τ ParseError Unit))
      (ofExcept (checkDepth none depth)) := by
  intro s
  by_cases h : m < depth
  · left
    simp [checkDepth, h]
  · right
    intro n hn
    have hdepth : ¬n < depth := by omega
    simp [checkDepth, hdepth]

theorem CutsOff.bind {x : Nat → Action τ ParseError α} {y : Action τ ParseError α}
    {f : Nat → α → Action τ ParseError β} {g : α → Action τ ParseError β} (hx : CutsOff m x y)
    (hf : ∀ a, CutsOff m (fun n => f n a) (g a)) :
    CutsOff m (fun n => x n >>= f n) (y >>= g) := by
  intro s
  cases hx s with
  | inl hcut =>
    left
    dsimp only
    rw [run_bind]
    generalize (x m).run s = ran at hcut
    obtain ⟨result, s'⟩ := ran
    cases hcut
    rfl
  | inr hruns =>
    have hm := hruns m (Nat.le_refl m)
    simp only [run_bind]
    cases hy : y.run s with
    | mk result s' =>
      cases result with
      | error e =>
        right
        intro n hn
        rw [hruns n hn, hy]
      | ok a =>
        refine (hf a s').imp (fun hcut => ?_) fun hlater n hn => ?_
        · rw [hm, hy]
          exact hcut
        · rw [hruns n hn, hy]
          exact hlater n hn

end Action

namespace Sketch

mutual

def height : Sketch → Nat
  | .number _ => 0
  | .identifier _ => 0
  | .malformed _ => 0
  | .call _ args => heightBelow args

def heightBelow : List Sketch → Nat
  | [] => 0
  | s :: ss => max (s.height + 1) (heightBelow ss)

end

theorem checkDepth_of_le {m depth : Nat} (h : depth ≤ m) :
    checkDepth (some m) depth = checkDepth none depth := by
  simp only [checkDepth]
  rw [if_neg (Nat.not_lt.2 h)]

theorem checkDepth_yields {m : Nat} (depth : Nat) :
    (Action.ofExcept (checkDepth (some m) depth) : Action τ ParseError Unit).Yields
      fun _ => depth ≤ m :=
  Action.yields_ofExcept fun _ h => by
    simp only [checkDepth] at h
    split at h
    · cases h
    · omega

section Walk

variable (build : Text → List Tree → Action τ ParseError Tree) {m : Nat}

mutual

/-- A limit that no piece exceeds does not show. -/
theorem walk_of_height_le : ∀ (s : Sketch) (depth : Nat), depth + s.height ≤ m →
    walk build (some m) depth s = walk build none depth s
  | .number t, depth, h => by
    rw [walk, walk, checkDepth_of_le (Nat.le_of_add_right_le h)]
  | .identifier t, depth, h => by
    rw [walk, walk, checkDepth_of_le (Nat.le_of_add_right_le h)]
  | .malformed t, depth, h => by
    rw [walk, walk, checkDepth_of_le (Nat.le_of_add_right_le h)]
  | .call name args, depth, h => by
    rw [height] at h
    rw [walk, walk, checkDepth_of_le (Nat.le_of_add_right_le h),
      walkAll_of_heightBelow_le args depth h]

theorem walkAll_of_heightBelow_le : ∀ (ss : List Sketch) (depth : Nat), depth + heightBelow ss ≤ m →
    walkAll build (some m) (depth + 1) ss = walkAll build none (depth + 1) ss
  | [], _, _ => rfl
  | s :: ss, depth, h => by
    rw [heightBelow] at h
    rw [walkAll, walkAll, walk_of_height_le s (depth + 1) (by omega),
      walkAll_of_heightBelow_le ss depth (by omega)]

end

mutual

theorem walk_yields_height_le (s : Sketch) (depth : Nat) :
    (walk build (some m) depth s).Yields fun _ => depth + s.height ≤ m := by
  have hdepth := checkDepth_yields (τ := τ) (m := m) depth
  cases s with
  | number _ | identifier _ | malformed _ =>
    rw [walk]
    exact hdepth.bind fun _ hle _ _ _ => hle
  | call name args =>
    rw [walk]
    refine hdepth.bind fun _ hle => ?_
    have hargs := walkAll_yields_heightBelow_le args depth hle
    exact hargs.bind fun _ hbelow _ _ _ => hbelow

theorem walkAll_yields_heightBelow_le (ss : List Sketch) (depth : Nat) (h : depth ≤ m) :
    (walkAll build (some m) (depth + 1) ss).Yields fun _ => depth + heightBelow ss ≤ m := by
  cases ss with
  | nil => exact fun _ _ _ => h
  | cons s ss =>
    have hfirst := walk_yields_height_le s (depth + 1)
    have hothers := walkAll_yields_heightBelow_le ss depth h
    rw [walkAll]
    refine hfirst.bind fun tree hhead => ?_
    refine hothers.bind fun trees hbelow => ?_
    intro _ _ _
    rw [heightBelow]
    omega

end

mutual

theorem walk_cutsOff (s : Sketch) (depth : Nat) :
    Action.CutsOff m (fun n => walk build (some n) depth s) (walk build none depth s) := by
  have hdepth := Action.cutsOff_checkDepth (τ := τ) (m := m) depth
  cases s with
  | number _ | identifier _ | malformed _ =>
    simp only [walk]
    exact hdepth.bind fun _ => Action.cutsOff_const _
  | call name args =>
    have hargs := walkAll_cutsOff args (depth + 1)
    simp only [walk]
    refine hdepth.bind fun _ => ?_
    exact hargs.bind fun trees => Action.cutsOff_const (build name trees)

theorem walkAll_cutsOff (ss : List Sketch) (depth : Nat) :
    Action.CutsOff m (fun n => walkAll build (some n) depth ss) (walkAll build none depth ss) := by
  cases ss with
  | nil => exact Action.cutsOff_const _
  | cons s ss =>
    have hfirst := walk_cutsOff s depth
    have hothers := walkAll_cutsOff ss depth
    simp only [walkAll]
    refine hfirst.bind fun tree => ?_
    exact hothers.bind fun trees => Action.cutsOff_const (pure (tree :: trees))

end

end Walk

theorem heightBelow_eq {ss : List Sketch} {trees : List Tree}
    (h : List.Forall₂ (fun s (tree : Tree) => tree.height = s.height) ss trees) :
    Tree.heightBelow trees = heightBelow ss := by
  induction h with
  | nil => rfl
  | cons htree _ ih => rw [Tree.heightBelow, heightBelow, htree, ih]

theorem walk_yields_height {build : Text → List Tree → Action τ ParseError Tree}
    (h : ∀ name args, (build name args).Yields fun tree => tree.height = Tree.heightBelow args)
    (limit : Option Nat) (s : Sketch) (depth : Nat) :
    (walk build limit depth s).Yields fun tree => tree.height = s.height := by
  refine walk_yields (Q := fun s tree => tree.height = s.height) (fun t tree htree => ?_)
    (fun _ => rfl) (fun name args trees hargs => ?_) limit s depth
  · obtain ⟨value, -, -, rfl⟩ := readLiteral_eq_ok_iff.1 htree
    rfl
  · rw [height, ← heightBelow_eq hargs]
    exact h name trees

end Sketch

namespace Registry

variable {r : Registry σ}

theorem IsNative.buildCall_yields_height (h : r.IsNative) (name : Text) (args : List Tree) :
    (r.buildCall name args).Yields fun tree => tree.height = Tree.heightBelow args := by
  cases h.names name with
  | nothing hb =>
    rw [buildCall_of_none hb]
    exact Action.yields_ofExcept fun tree htree => by cases htree
  | operator op hb =>
    rw [buildCall_of_operator hb]
    refine Action.yields_ofExcept fun tree htree => ?_
    obtain ⟨left, right, rfl, rfl⟩ := Operator.build_eq_ok_iff.1 htree
    simp only [Tree.height, Tree.heightBelow]
    omega
  | function arity handle hb =>
    rw [buildCall_of_function hb]
    refine Action.yields_ofExcept fun tree htree => ?_
    obtain ⟨-, rfl⟩ := Arity.build_eq_ok_iff.1 htree
    rfl

/-- The limit is an exact cut-off: a formula is read as without it, or ends in the error that names
it. -/
theorem parse_cut_off (r : Registry σ) (text : Text) (bench : Workbench σ) :
    let outcome (limit : Option Nat) := (r.parse limit text).run bench
    (∀ m, outcome (some m) = outcome none ∨ (outcome (some m)).1 = .error (.nestingTooDeep m)) ∧
      (∀ m, (outcome (some m)).1 ≠ .error (.nestingTooDeep m) →
        ∀ n, m ≤ n → outcome (some n) = outcome none) ∧
      (∃ m, ∀ n, m ≤ n → r.parse (some n) text = r.parse none text) ∧
      (r.IsNative → ∀ tree, (outcome none).1 = .ok tree → ∀ m,
        (outcome (some m)).1 =
          if tree.height ≤ m then .ok tree else .error (.nestingTooDeep m)) := by
  intro outcome
  have hwalk : ∀ limit, r.parse limit text = (Sketch.ofText text).walk r.buildCall limit 0 :=
    fun limit => r.parseAt_eq_walk limit 0 text
  have hcut : ∀ m, (outcome (some m)).1 = .error (.nestingTooDeep m) ∨
      ∀ n, m ≤ n → outcome (some n) = outcome none := by
    intro m
    simp only [outcome, hwalk]
    exact Sketch.walk_cutsOff r.buildCall (Sketch.ofText text) 0 bench
  have hfree : ∀ n, (Sketch.ofText text).height ≤ n →
      r.parse (some n) text = r.parse none text := by
    intro n hn
    rw [hwalk, hwalk, Sketch.walk_of_height_le r.buildCall _ 0 (by omega)]
  refine ⟨fun m => ?_, fun m hm => (hcut m).resolve_left hm,
    ⟨(Sketch.ofText text).height, hfree⟩, fun hnative tree htree m => ?_⟩
  · exact (hcut m).elim .inr fun hruns => .inl (hruns m (Nat.le_refl m))
  · have hheight : tree.height = (Sketch.ofText text).height := by
      refine Sketch.walk_yields_height hnative.buildCall_yields_height none _ 0 bench tree ?_
      rw [← hwalk]
      exact htree
    split
    · rename_i hle
      simp only [outcome, hfree m (hheight ▸ hle)]
      exact htree
    · rename_i hlt
      refine (hcut m).resolve_right fun hruns => hlt ?_
      have hlimited : (((Sketch.ofText text).walk r.buildCall (some m) 0).run bench).1 =
          .ok tree := by
        rw [← hwalk]
        exact (congrArg Prod.fst (hruns m (Nat.le_refl m))).trans htree
      have hle := Sketch.walk_yields_height_le r.buildCall _ 0 bench tree hlimited
      omega

theorem parse_cut_off_max :
    let r : Registry Unit := standard.bind "max".toList (.function .any ⟨0⟩)
    let tree : Tree := .binary (.variable ['x']) .add
      (.call "MAX".toList [.call "MAX".toList [] ⟨0⟩] ⟨0⟩)
    r.IsNative ∧ ((r.parse none "add(x, max(max()))".toList).run ⟨(), []⟩).1 = .ok tree ∧
      tree.height = 2 ∧
      ∀ m, ((r.parse (some m) "add(x, max(max()))".toList).run ⟨(), []⟩).1 =
        if 2 ≤ m then .ok tree else .error (.nestingTooDeep m) := by
  intro r tree
  have hnative : r.IsNative := isNative_standard.bind _ trivial
  have hcall : Piece.ofText "add(x, max(max()))".toList =
      .call "add".toList ["x".toList, "max(max())".toList] := by decide +kernel
  have houter : Piece.ofText "max(max())".toList = .call "max".toList ["max()".toList] := by
    decide +kernel
  have hinner : Piece.ofText "max()".toList = .call "max".toList [] := by decide +kernel
  have hx : Piece.ofText "x".toList = .identifier "x".toList := by decide +kernel
  have hadd : r.lookup "add".toList = some (.operator .add) := by
    have hne : canonical "add".toList ≠ canonical "max".toList := by decide +kernel
    rw [lookup_bind, if_neg hne]
    exact lookup_standard_add
  have hmax : r.lookup "max".toList = some (.function .any ⟨0⟩) := by
    rw [lookup_bind, if_pos rfl]
  have hkey : canonical "max".toList = "MAX".toList := by decide +kernel
  have hread : ((r.parse none "add(x, max(max()))".toList).run ⟨(), []⟩).1 = .ok tree := by
    simp only [parse, parseAt_eq_walk, Sketch.ofText_eq, hcall, houter, hinner, hx, List.map_cons,
      List.map_nil, Sketch.walk, Sketch.walkAll, checkDepth, buildCall_of_operator hadd,
      buildCall_of_function hmax, hkey]
    rfl
  have hheight : tree.height = 2 := by decide
  refine ⟨hnative, hread, hheight, fun m => ?_⟩
  rw [← hheight]
  exact (parse_cut_off r _ ⟨(), []⟩).2.2.2 hnative tree hread m

end Registry

end CallFormula
