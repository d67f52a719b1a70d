import CallFormula.Proofs.Formula.Coincidence
import CallFormula.Proofs.Tree.Renaming

set_option autoImplicit false

namespace CallFormula

variable {σ : Type}

namespace Tree

mutual

def unknowns : Tree → List Text
  | .number _ => []
  | .variable name => [name]
  | .binary left _ right => unknowns left ++ unknowns right
  | .call _ args _ => unknownsAll args

def unknownsAll : List Tree → List Text
  | [] => []
  | t :: ts => unknowns t ++ unknownsAll ts

end

mutual

def fill (value : Text → Option Float) : Tree → Tree
  | .number x => .number x
  | .variable name =>
    match value name with
    | some x => .number x
    | none => .variable name
  | .binary left operator right => .binary (fill value left) operator (fill value right)
  | .call name args function => .call name (fillAll value args) function

def fillAll (value : Text → Option Float) : List Tree → List Tree
  | [] => []
  | t :: ts => fill value t :: fillAll value ts

end

def close (t : Tree) (c : Context) : Tree := t.fill c.get?

/-- The tree with a number for the variables of one name, in whatever letter case. -/
def assign (t : Tree) (name : Text) (x : Float) : Tree :=
  t.fill fun other => if Text.upper other = Text.upper name then some x else none

section Congr

variable {value value' : Text → Option Float}

mutual

theorem fill_congr : ∀ t : Tree, (∀ name ∈ t.unknowns, value name = value' name) →
    t.fill value = t.fill value'
  | .number _, _ => rfl
  | .variable name, h => by rw [fill, fill, h name (by simp [unknowns])]
  | .binary left operator right, h => by
    rw [fill, fill, fill_congr left fun name hname => h name (by simp [unknowns, hname]),
      fill_congr right fun name hname => h name (by simp [unknowns, hname])]
  | .call name args function, h => by
    rw [fill, fill, fillAll_congr args h]

theorem fillAll_congr : ∀ ts : List Tree, (∀ name ∈ unknownsAll ts, value name = value' name) →
    fillAll value ts = fillAll value' ts
  | [], _ => rfl
  | t :: ts, h => by
    rw [fillAll, fillAll, fill_congr t fun name hname => h name (by simp [unknownsAll, hname]),
      fillAll_congr ts fun name hname => h name (by simp [unknownsAll, hname])]

end

end Congr

section Fill

variable (fs : Functions σ) {c d : Context} {value : Text → Option Float}

theorem value_fill {name : Text} (h : c.get? name = (value name).or (d.get? name)) :
    (.ofExcept (c.value name) : Evaluation σ Float) =
      ((Tree.variable name).fill value).evaluate fs d := by
  rw [fill, Context.value, h]
  cases value name with
  | some x => rfl
  | none => rfl

mutual

/-- A context that has the given values, and else those of `d`, can be replaced by `d` if the values
are put into the tree. -/
theorem evaluate_fill (h : ∀ name, c.get? name = (value name).or (d.get? name)) :
    ∀ t : Tree, t.evaluate fs c = (t.fill value).evaluate fs d
  | .number _ => rfl
  | .variable name => value_fill fs (h name)
  | .binary left operator right => by
    rw [evaluate, fill, evaluate, evaluate_fill h left, evaluate_fill h right]
  | .call name args function => by
    rw [evaluate, fill, evaluate, evaluateAll_fill h args]

theorem evaluateAll_fill (h : ∀ name, c.get? name = (value name).or (d.get? name)) :
    ∀ ts : List Tree, evaluateAll fs c ts = evaluateAll fs d (fillAll value ts)
  | [] => rfl
  | t :: ts => by
    rw [evaluateAll, fillAll, evaluateAll, evaluate_fill h t, evaluateAll_fill h ts]

end

theorem evaluate_eq_evaluate_close (t : Tree) (c : Context) :
    t.evaluate fs c = (t.close c).evaluate fs .empty :=
  evaluate_fill fs (fun _ => Option.or_none.symm) t

theorem evaluate_set (t : Tree) (c : Context) (name : Text) (x : Float) :
    t.evaluate fs (c.set name x) = (t.assign name x).evaluate fs c := by
  refine evaluate_fill fs (fun other => ?_) t
  rw [Context.get?_set]
  split
  · rfl
  · rfl

theorem evaluate_congr (t : Tree) (h : ∀ name ∈ t.unknowns, c.get? name = d.get? name) :
    t.evaluate fs c = t.evaluate fs d := by
  have hclose : t.close c = t.close d := fill_congr t h
  calc t.evaluate fs c = (t.close c).evaluate fs .empty := evaluate_eq_evaluate_close fs t c
    _ = (t.close d).evaluate fs .empty := by rw [hclose]
    _ = t.evaluate fs d := (evaluate_eq_evaluate_close fs t d).symm

end Fill

section Blames

variable (fs : Functions σ) (c : Context)

theorem operate_blames {ρ : Type} {fails : ρ → EvaluationError → Prop} (operator : Operator)
    (x y : Float) :
    (Action.ofExcept (operator.apply x y) : Evaluation (σ × List ρ) Float).Blames
      (· = .divisionByZero) fails := by
  refine Action.blames_ofExcept _ fun e he => ?_
  rw [Operator.apply_eq] at he
  split at he
  · cases he
    rfl
  · cases he

theorem call_observed_blames {own : EvaluationError → Prop} (h : Handle) (args : List Float) :
    (fs.observed.call h args).Blames own fun call e => call.answer = .error e := by
  intro s
  rw [Functions.run_call_observed]
  cases fs.bodies[h.number]? with
  | none => exact ⟨[], (List.append_nil _).symm, fun e he => by cases he⟩
  | some body => exact ⟨_, rfl, fun e he => .inr ⟨_, List.mem_singleton_self _, he⟩⟩

mutual

theorem evaluate_blames (t : Tree) (h : ∀ name ∈ t.unknowns, c.contains name = true) :
    (t.evaluate fs.observed c).Blames (· = .divisionByZero) fun call e =>
      call.answer = .error e := by
  cases t with
  | number value => exact Action.blames_ofExcept (.ok value) fun e he => by cases he
  | «variable» name =>
    obtain ⟨x, hx⟩ := Option.isSome_iff_exists.1 (h name (by simp [unknowns]))
    have hget : c.get? name = some x := hx
    refine Action.blames_ofExcept _ fun e he => ?_
    rw [Context.value, hget] at he
    cases he
  | binary left operator right =>
    have hleft := evaluate_blames left fun name hname => h name (List.mem_append_left _ hname)
    have hright := evaluate_blames right fun name hname => h name (List.mem_append_right _ hname)
    rw [evaluate]
    refine hleft.bind fun x => ?_
    refine hright.bind fun y => ?_
    exact operate_blames operator x y
  | call name args function =>
    have hargs := evaluateAll_blames args h
    exact hargs.bind (call_observed_blames fs function)

theorem evaluateAll_blames (ts : List Tree)
    (h : ∀ name ∈ unknownsAll ts, c.contains name = true) :
    (evaluateAll fs.observed c ts).Blames (· = .divisionByZero) fun call e =>
      call.answer = .error e := by
  cases ts with
  | nil => exact Action.blames_ofExcept (.ok []) fun e he => by cases he
  | cons t ts =>
    have hfirst := evaluate_blames t fun name hname => h name (List.mem_append_left _ hname)
    have hothers := evaluateAll_blames ts fun name hname => h name (List.mem_append_right _ hname)
    rw [evaluateAll]
    refine hfirst.bind fun x => ?_
    refine hothers.bind fun xs => ?_
    exact Action.blames_ofExcept (.ok (x :: xs)) fun e he => by cases he

end

end Blames

/-- From every state of the host the evaluations end alike and leave the same state, and they call
the same functions with the same arguments in the same order, which give the same answers. -/
structure Indistinct (fs : Functions σ) (t : Tree) (c : Context) (u : Tree) (d : Context) :
    Prop where
  ends : t.evaluate fs c = u.evaluate fs d
  calls : t.evaluate fs.observed c = u.evaluate fs.observed d

/-- A context is a substitution of its values for the variables of a tree. -/
theorem evaluate_close (fs : Functions σ) (t : Tree) (c : Context) :
    Indistinct fs t c (t.close c) .empty ∧
      (∀ name x, Indistinct fs t (c.set name x) (t.assign name x) c) ∧
      (∀ d, (∀ name ∈ t.unknowns, c.get? name = d.get? name) → Indistinct fs t c t d) ∧
      ((∀ name ∈ t.unknowns, c.contains name = true) → ∀ host,
        let ended := (t.evaluate fs c).run host
        ∃ calls, (t.evaluate fs.observed c).run (host, []) = (ended.1, ended.2, calls) ∧
          ∀ e, ended.1 = .error e → e = .divisionByZero ∨
            ∃ call ∈ calls, call.answer = .error e) := by
  refine ⟨⟨evaluate_eq_evaluate_close fs t c, evaluate_eq_evaluate_close fs.observed t c⟩,
    fun name x => ⟨evaluate_set fs t c name x, evaluate_set fs.observed t c name x⟩,
    fun d h => ⟨evaluate_congr fs t h, evaluate_congr fs.observed t h⟩, fun h host => ?_⟩
  obtain ⟨calls, hrun, -⟩ := exists_answers fs c t host
  obtain ⟨new, hnew, hreason⟩ := evaluate_blames fs c t h (host, [])
  rw [hrun] at hnew hreason
  obtain rfl : calls = new := hnew
  exact ⟨calls, hrun, hreason⟩

/-- The capital form of `ß` is `SS`, so a value stored under the one name is that of the other. -/
theorem evaluate_close_sharp :
    let fs : Functions Unit := ⟨[fun _ => throw .divisionByZero]⟩
    let t : Tree :=
      .binary (.variable "ss".toList) .divide (.call "F".toList [.variable "Rate".toList] ⟨0⟩)
    let c : Context := (Context.empty.set "ß".toList 2).set "rate".toList 3
    let d : Context := c.set "other".toList 5
    (∀ name ∈ t.unknowns, c.get? name = d.get? name) ∧
      (∀ name ∈ t.unknowns, c.contains name = true) ∧
      Indistinct fs t c (.binary (.number 2) .divide (.call "F".toList [.number 3] ⟨0⟩)) .empty ∧
      Indistinct fs t c t d ∧
      ∃ calls, ((t.evaluate fs.observed c).run ((), [])).2.2 = calls ∧
        ∀ e, ((t.evaluate fs c).run ()).1 = .error e → e = .divisionByZero ∨
          ∃ call ∈ calls, call.answer = .error e := by
  intro fs t c d
  have hsharp : Text.upper "ss".toList = Text.upper "ß".toList := by decide +kernel
  have hrate : Text.upper "Rate".toList = Text.upper "rate".toList := by decide +kernel
  have hapart : Text.upper "ß".toList ≠ Text.upper "rate".toList := by decide +kernel
  have hs : c.get? "ss".toList = some 2 := by
    rw [Context.get?_set, hsharp, if_neg hapart, Context.get?_set, if_pos hsharp]
  have hr : c.get? "Rate".toList = some 3 := by
    rw [Context.get?_set, if_pos hrate]
  have hother : ∀ name ∈ t.unknowns, Text.upper name ≠ Text.upper "other".toList := by
    decide +kernel
  have hagree : ∀ name ∈ t.unknowns, c.get? name = d.get? name := by
    intro name hname
    have hset : d.get? name = c.get? name :=
      (Context.get?_set c _ _ name).trans (if_neg (hother name hname))
    exact hset.symm
  have hbound : ∀ name ∈ t.unknowns, c.contains name = true := by
    intro name hname
    have hname : name = "ss".toList ∨ name = "Rate".toList := by
      simpa [t, unknowns, unknownsAll] using hname
    obtain rfl | rfl := hname
    · exact congrArg Option.isSome hs
    · exact congrArg Option.isSome hr
  have hclosed : t.close c =
      .binary (.number 2) .divide (.call "F".toList [.number 3] ⟨0⟩) := by
    simp only [t, close, fill, fillAll, hs, hr]
  obtain ⟨hclose, -, hcongr, hreason⟩ := evaluate_close fs t c
  obtain ⟨calls, hrun, hcauses⟩ := hreason hbound ()
  rw [hclosed] at hclose
  exact ⟨hagree, hbound, hclose, hcongr d hagree, calls, by rw [hrun], hcauses⟩

/-- Equality of trees is symmetric and transitive, and confuses no trees but those that differ in
the sign of a zero. -/
theorem same_laws (fs : Functions σ) (a b c : Tree) :
    ((a == b) = true → (b == a) = true) ∧
      ((a == b) = true → (b == c) = true → (a == c) = true) ∧
      ((a == a) = true ↔ ∀ x ∈ a.numbers, x.isNaN = false) ∧
      (∀ r : Registry σ, r.IsNative → ∀ text, r.Reads text a → (a == a) = true) ∧
      ((a == b) = true → (∀ x ∈ a.numbers, x ≠ 0 ∧ x ≠ -0) →
        a.text = b.text ∧ ∀ context, Indistinct fs a context b context) := by
  refine ⟨same_symm a b, same_trans a b c, same_self_iff a,
    fun r hr text hread => same_self a (hr.heads_of_reads hread).1, fun hsame hzero => ?_⟩
  obtain rfl := eq_of_same a b hsame hzero
  exact ⟨rfl, fun context => ⟨rfl, rfl⟩⟩

theorem same_laws_sum :
    let r : Registry Unit := .standard
    let a : Tree := .binary (.variable ['x']) .add (.number 1)
    r.IsNative ∧ r.Reads "add(x, 1)".toList a ∧ (a == a) = true ∧
      (∀ x ∈ a.numbers, x ≠ 0 ∧ x ≠ -0) ∧
      ∀ context, Indistinct (σ := Unit) .empty a context a context := by
  intro r a
  have hnative : r.IsNative := Registry.isNative_standard
  have hcall : Piece.ofText "add(x, 1)".toList = .call "add".toList ["x".toList, "1".toList] := by
    decide +kernel
  have hx : Piece.ofText "x".toList = .identifier ['x'] := by decide +kernel
  have hone : Piece.ofText "1".toList = .number ['1'] := by decide +kernel
  have hliteral : readLiteral ['1'] = .ok (.number 1) :=
    readLiteral_eq_ok_iff.2 ⟨1, by decide +kernel, by decide +kernel, rfl⟩
  have hadd : r.lookup "add".toList = some (.operator .add) := Registry.lookup_standard_add
  have hread : r.Reads "add(x, 1)".toList a := by
    refine ⟨none, ⟨(), []⟩, ?_⟩
    simp only [Registry.parse, Registry.parseAt_eq_walk, Sketch.ofText_eq, hcall, hx, hone,
      List.map_cons, List.map_nil, Sketch.walk, Sketch.walkAll, checkDepth, hliteral,
      Registry.buildCall_of_operator hadd]
    rfl
  have hzero : ∀ x ∈ a.numbers, x ≠ 0 ∧ x ≠ -0 := by decide +kernel
  obtain ⟨-, -, -, hreads, hsound⟩ := same_laws (σ := Unit) .empty a a a
  have hself := hreads r hnative _ hread
  exact ⟨hnative, hread, hself, hzero, (hsound hself hzero).2⟩

example : (Tree.number 0 == .number (-0)) = true ∧
    (Tree.number 0).text ≠ (Tree.number (-0)).text := by decide +kernel

end Tree

end CallFormula
