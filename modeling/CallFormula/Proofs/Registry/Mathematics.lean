import CallFormula.Proofs.Formula.Sketch
import CallFormula.Proofs.Number.Extremes
import CallFormula.Proofs.Registry.Latest
import CallFormula.Proofs.Registry.Ordinary
import CallFormula.Proofs.Tree.StackMachine

set_option autoImplicit false

namespace CallFormula

variable {σ : Type}

namespace MathFunction

theorem mem_all (f : MathFunction) : f ∈ all := by cases f <;> decide

@[simp] theorem canonical_name (f : MathFunction) : canonical f.name = f.name := by
  cases f <;> decide +kernel

theorem name_injective {f g : MathFunction} (h : f.name = g.name) : f = g := by
  revert h
  cases f <;> cases g <;> decide

theorem nodup_all : all.Nodup := by decide

end MathFunction

theorem Tree.evaluateAll_variables (fs : Functions σ) {c : Context} {names : List Text}
    {xs : List Float} (h : List.Forall₂ (fun n x => c.get? n = some x) names xs) :
    evaluateAll fs c (names.map .variable) = pure xs := by
  induction h with
  | nil => rfl
  | cons hn _ ih =>
    rw [List.map_cons, evaluateAll, evaluate, Context.value, hn, ih]
    rfl

namespace Registry

/-- Each function of mathematics is bound to its name, under its arity and with its body. -/
def HasMath (r : Registry σ) (fs : Functions σ) : Prop :=
  ∀ f : MathFunction, ∃ handle : Handle, r.lookup f.name = some (.function f.arity handle) ∧
    fs.bodies[handle.number]? = some f.body

theorem pairwise_apart_math (next : Nat) :
    ((Change.math : Change σ).writes next).Pairwise (Write.Apart canonical) := by
  rw [Change.writes, List.pairwise_iff_getElem]
  intro i j hi hj hlt
  simp only [List.getElem_mapIdx]
  refine Write.apart_put (fun heq => ?_) _ _
  rw [MathFunction.canonical_name, MathFunction.canonical_name] at heq
  have hindex := (MathFunction.nodup_all.getElem_inj_iff).1 (MathFunction.name_injective heq)
  omega

theorem hasMath_withMath (r : Registry σ) (fs : Functions σ) :
    (r.withMath.run fs).1.HasMath (r.withMath.run fs).2 := by
  intro f
  have hbodies := r.bodies_change .math fs
  have hbindings := r.bindings_change .math fs
  obtain ⟨i, hi, hf⟩ := List.getElem_of_mem f.mem_all
  have hput : Write.put f.name (.function f.arity ⟨fs.bodies.length + i⟩) ∈
      (Change.math : Change σ).writes fs.bodies.length := by
    rw [Change.writes, List.mem_mapIdx]
    exact ⟨i, hi, by rw [hf]⟩
  have hlatest := latest_of_mem (pairwise_apart_math fs.bodies.length) hput
    (Write.effect_eq_some_iff.2 ⟨f.name, rfl, rfl⟩)
  have hmath : r.withMath.run fs = (r.change .math).run fs := rfl
  refine ⟨⟨fs.bodies.length + i⟩, ?_, ?_⟩
  · rw [hmath, lookup, hbindings, Table.get?_writeAll, hlatest]
    rfl
  · rw [hmath, hbodies, List.getElem?_append_right (Nat.le_add_right _ _), Nat.add_sub_cancel_left,
      List.getElem?_map, Change.enrolled, List.getElem?_map, List.getElem?_eq_getElem hi, hf]
    rfl

theorem parse_yields_call {r : Registry σ} {text name : Text} {pieces : List Text}
    (hpiece : Piece.ofText text = .call name pieces) {arity : Arity} {handle : Handle}
    (hlookup : r.lookup name = some (.function arity handle)) (limit : Option Nat) :
    (r.parse limit text).Yields fun tree => ∃ args, tree = .call (canonical name) args handle ∧
      args.length = pieces.length ∧ arity.accepts args.length = true := by
  have hsketch : Sketch.ofText text = .call name (pieces.map Sketch.ofText) := by
    rw [Sketch.ofText_eq, hpiece]
  have hargs : (Sketch.walkAll r.buildCall limit 1 (pieces.map Sketch.ofText)).Yields
      (List.Forall₂ (fun _ _ => True) (pieces.map Sketch.ofText)) :=
    Sketch.walkAll_yields_forall₂ (fun _ _ _ => trivial) (fun _ => trivial)
      (fun _ _ _ _ _ _ _ => trivial) limit (pieces.map Sketch.ofText) 1
  rw [parse, parseAt_eq_walk, hsketch, Sketch.walk]
  refine (hargs.bind fun trees htrees => ?_).checked _
  rw [buildCall_of_function hlookup]
  refine Action.yields_ofExcept fun tree htree => ?_
  obtain ⟨haccepts, rfl⟩ := Arity.build_eq_ok_iff.1 htree
  exact ⟨trees, rfl, by rw [← htrees.length_eq, List.length_map], haccepts⟩

theorem run_evaluate_call {fs : Functions σ} {f : MathFunction} {handle : Handle}
    (hbody : fs.bodies[handle.number]? = some f.body) (key : Text) (args : List Tree) (c : Context)
    (host : σ) :
    ((Tree.call key args handle).evaluate fs c).run host =
      match (Tree.evaluateAll fs c args).run host with
      | (.ok xs, host) => (f.value xs, host)
      | (.error e, host) => (.error e, host) := by
  have hcall : ∀ xs, fs.call handle xs = Action.ofExcept (f.value xs) := fun xs => by
    rw [Functions.call, hbody]
    rfl
  rw [Tree.evaluate, Action.run_bind]
  cases (Tree.evaluateAll fs c args).run host with
  | mk result host =>
    cases result with
    | ok xs => exact congrArg (·.run host) (hcall xs)
    | error e => rfl

theorem value_extreme {f : MathFunction} (hf : f = .min ∨ f = .max) (xs : List Float) :
    ∃ v, f.value xs = .ok v ∧ (Number.IsAmong v xs ↔ Number.HasNumber xs) ∧
      ((v.isInf = true → ∃ x ∈ xs, x.isInf = true) ↔ Number.HasNumber xs) := by
  obtain rfl | rfl := hf
  · exact ⟨_, rfl, Number.keepsFrom_lesser.isAmong_iff,
      Number.keepsFrom_lesser.isInf_imp_iff (by decide +kernel)⟩
  · exact ⟨_, rfl, Number.keepsFrom_greater.isAmong_iff,
      Number.keepsFrom_greater.isInf_imp_iff (by decide +kernel)⟩

/-- The least and the greatest of the arguments are among them just if one is a number. -/
theorem evaluate_extreme_iff {f : MathFunction} (hf : f = .min ∨ f = .max) :
    (∀ xs, ∃ v, f.value xs = .ok v ∧ (Number.IsAmong v xs ↔ Number.HasNumber xs)) ∧
      ∀ {r : Registry σ} {fs : Functions σ}, r.HasMath fs →
        ∀ {text name : Text} {pieces : List Text}, Piece.ofText text = .call name pieces →
        canonical name = f.name →
        ∀ {limit : Option Nat} {bench : Workbench σ} {tree : Tree},
          ((r.parse limit text).run bench).1 = .ok tree →
          ∃ handle args, tree = .call f.name args handle ∧ args.length = pieces.length ∧
            args ≠ [] ∧ ∀ c host,
              let given := (Tree.evaluateAll fs c args).run host
              let ended := (tree.evaluate fs c).run host
              ended.2 = given.2 ∧
                ((∃ e, given.1 = .error e ∧ ended.1 = .error e) ∨
                  ∃ xs v, given.1 = .ok xs ∧ xs.length = args.length ∧ ended.1 = .ok v ∧
                    (Number.IsAmong v xs ↔ Number.HasNumber xs) ∧
                    ((v.isInf = true → ∃ x ∈ xs, x.isInf = true) ↔ Number.HasNumber xs)) := by
  refine ⟨fun xs => ?_, ?_⟩
  · obtain ⟨v, hv, hamong, -⟩ := value_extreme hf xs
    exact ⟨v, hv, hamong⟩
  · intro r fs hmath text name pieces hpiece hname limit bench tree hread
    obtain ⟨handle, hlookup, hbody⟩ := hmath f
    rw [lookup, f.canonical_name, ← hname] at hlookup
    obtain ⟨args, htree, hlength, haccepts⟩ :=
      parse_yields_call hpiece hlookup limit bench tree hread
    rw [hname] at htree
    -- Both functions take one argument at least, so a call without any is not read.
    have hne : args ≠ [] := by
      rintro rfl
      obtain rfl | rfl := hf
      · cases haccepts
      · cases haccepts
    refine ⟨handle, args, htree, hlength, hne, fun c host => ?_⟩
    have hrun := run_evaluate_call hbody f.name args c host
    rw [← htree] at hrun
    cases hgiven : (Tree.evaluateAll fs c args).run host with
    | mk result host' =>
      rw [hgiven] at hrun
      dsimp only
      rw [hrun]
      cases result with
      | error e => exact ⟨rfl, .inl ⟨e, rfl, rfl⟩⟩
      | ok xs =>
        obtain ⟨v, hv, hamong, hinf⟩ := value_extreme hf xs
        have hcount : xs.length = args.length := Tree.length_of_evaluateAll fs c hgiven
        exact ⟨rfl, .inr ⟨xs, v, rfl, hcount, hv, hamong, hinf⟩⟩

theorem parse_call_of_names {r : Registry σ} {text name : Text} {names : List Text}
    (hpiece : Piece.ofText text = .call name names)
    (hnames : ∀ n ∈ names, Piece.ofText n = .identifier n) {arity : Arity} {handle : Handle}
    (hlookup : r.lookup name = some (.function arity handle))
    (haccepts : arity.accepts names.length = true) (bench : Workbench σ) :
    (r.parse none text).run bench =
      (.ok (.call (canonical name) (names.map .variable) handle), bench) := by
  have hread : ∀ n ∈ names, r.parseAt none 1 n = Action.ofExcept (.ok (.variable n)) := by
    intro n hn
    rw [parseAt_eq, hnames n hn]
    rfl
  have hall : names.mapM (fun n => (.ok (.variable n) : Except ParseError Tree)) =
      .ok (names.map .variable) := by
    clear hpiece hnames haccepts hread
    induction names with
    | nil => rfl
    | cons n names ih =>
      rw [List.mapM_cons, ih]
      rfl
  have hbuild : arity.build (canonical name) handle (names.map .variable) =
      .ok (.call (canonical name) (names.map .variable) handle) :=
    Arity.build_eq_ok_iff.2 ⟨by rwa [List.length_map], rfl⟩
  rw [parse, parseAt_eq, hpiece]
  dsimp only
  rw [Action.ofExcept_mapM _ _ hread, hall, Action.ofExcept_ok_bind,
    buildCall_of_function hlookup, hbuild]
  rfl

theorem evaluate_extreme_iff_max :
    let reached := (standard : Registry Unit).withMath.run .empty
    let c := Context.ofPairs [("x".toList, 2), ("n".toList, Number.nan)]
    ∃ tree, ((reached.1.parse none "max(n, x)".toList).run ⟨(), []⟩).1 = .ok tree ∧
      ∃ v, ((tree.evaluate reached.2 c).run ()).1 = .ok v ∧
        Number.IsAmong v [Number.nan, 2] ∧ ¬v.isInf = true := by
  intro reached c
  have hmath : reached.1.HasMath reached.2 := hasMath_withMath standard .empty
  have hpiece : Piece.ofText "max(n, x)".toList =
      .call "max".toList ["n".toList, "x".toList] := by decide +kernel
  have hname : canonical "max".toList = MathFunction.max.name := by decide +kernel
  have hnames : ∀ n ∈ ["n".toList, "x".toList], Piece.ofText n = .identifier n := by
    decide +kernel
  obtain ⟨handle, hlookup, -⟩ := hmath .max
  rw [lookup, MathFunction.canonical_name, ← hname] at hlookup
  have hread := parse_call_of_names hpiece hnames hlookup rfl ⟨(), []⟩
  obtain ⟨-, hformula⟩ := @evaluate_extreme_iff Unit .max (.inr rfl)
  obtain ⟨handle', args, htree, -, -, hends⟩ :=
    hformula hmath hpiece hname (congrArg Prod.fst hread)
  obtain rfl : _ = args := (Tree.call.inj htree).2.1
  have hn : c.get? "n".toList = some Number.nan := (Context.get?_set _ _ _ _).trans (if_pos rfl)
  have hx : c.get? "x".toList = some 2 :=
    ((Context.get?_set _ _ _ _).trans (if_neg (by decide +kernel))).trans
      ((Context.get?_set _ _ _ _).trans (if_pos rfl))
  have hgiven := Tree.evaluateAll_variables reached.2 (.cons hn (.cons hx .nil))
  obtain ⟨-, hend⟩ := hends c ()
  rw [hgiven] at hend
  obtain ⟨e, he, -⟩ | ⟨xs, v, hxs, -, hv, hamong, hinf⟩ := hend
  · cases he
  · cases hxs
    have hnumber : Number.HasNumber [Number.nan, 2] := by decide +kernel
    have hfinite : ¬∃ x ∈ [Number.nan, 2], x.isInf = true := by decide +kernel
    exact ⟨_, congrArg Prod.fst hread, v, hv, hamong.2 hnumber, fun h => hfinite (hinf.2 hnumber h)⟩

/-- The least of no number is positive infinity, which is not among the arguments. -/
theorem evaluate_min_nan :
    let reached := (standard : Registry Unit).withMath.run .empty
    let c := Context.ofPairs [("n".toList, Number.nan)]
    ∃ tree args handle, tree = .call "MIN".toList args handle ∧
      ((reached.1.parse none "MIN(n)".toList).run ⟨(), []⟩).1 = .ok tree ∧
      ((Tree.evaluateAll reached.2 c args).run ()).1 = .ok [Number.nan] ∧
      ((tree.evaluate reached.2 c).run ()).1 = .ok (Number.infinity false) ∧
      ¬Number.IsAmong (Number.infinity false) [Number.nan] ∧
      (Number.infinity false).isInf = true ∧ Number.nan.isInf = false := by
  intro reached c
  have hmath : reached.1.HasMath reached.2 := hasMath_withMath standard .empty
  have hpiece : Piece.ofText "MIN(n)".toList = .call "MIN".toList ["n".toList] := by
    decide +kernel
  have hname : canonical "MIN".toList = MathFunction.min.name := by decide +kernel
  have hnames : ∀ n ∈ ["n".toList], Piece.ofText n = .identifier n := by decide +kernel
  obtain ⟨handle, hlookup, hbody⟩ := hmath .min
  rw [lookup, MathFunction.canonical_name, ← hname] at hlookup
  have hread := parse_call_of_names hpiece hnames hlookup rfl ⟨(), []⟩
  have hn : c.get? "n".toList = some Number.nan := (Context.get?_set _ _ _ _).trans (if_pos rfl)
  have hgiven : Tree.evaluateAll reached.2 c [.variable "n".toList] = pure [Number.nan] :=
    Tree.evaluateAll_variables reached.2 (.cons hn .nil)
  have hnumber : ¬Number.HasNumber [Number.nan] := by decide +kernel
  have hleast : Number.least [Number.nan] = Number.infinity false :=
    Number.keepsFrom_lesser.eq_seed hnumber
  have hended : ((Tree.call (canonical "MIN".toList) [.variable "n".toList] handle).evaluate
      reached.2 c).run () = (.ok (Number.least [Number.nan]), ()) := by
    rw [run_evaluate_call hbody, hgiven]
    rfl
  refine ⟨_, _, handle, congrArg (Tree.call · _ handle) hname, congrArg Prod.fst hread,
    congrArg (fun x => (x.run ()).1) hgiven, ?_, ?_, by decide +kernel, by decide +kernel⟩
  · exact (congrArg Prod.fst hended).trans (congrArg Except.ok hleast)
  · rw [← hleast]
    exact fun hamong => hnumber (Number.keepsFrom_lesser.isAmong_iff.1 hamong)

end Registry

end CallFormula
