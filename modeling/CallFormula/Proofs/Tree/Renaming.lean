import CallFormula.Proofs.Registry.Arguments

set_option autoImplicit false

namespace CallFormula

variable {σ : Type}

def EvaluationError.rename (f : Text → Text) : EvaluationError → EvaluationError
  | .undefinedVariable name => .undefinedVariable (f name)
  | .divisionByZero => .divisionByZero
  | .functionFailed name reason => .functionFailed name reason

namespace Tree

mutual

def rename (f : Text → Text) : Tree → Tree
  | .number value => .number value
  | .variable name => .variable (f name)
  | .binary left operator right => .binary (rename f left) operator (rename f right)
  | .call name args function => .call name (renameAll f args) function

def renameAll (f : Text → Text) : List Tree → List Tree
  | [] => []
  | t :: ts => rename f t :: renameAll f ts

end

@[simp] theorem length_renameAll (f : Text → Text) (ts : List Tree) :
    (renameAll f ts).length = ts.length := by
  induction ts with
  | nil => rfl
  | cons t ts ih => rw [renameAll, List.length_cons, List.length_cons, ih]

theorem renameAll_eq {f : Text → Text} {ts us : List Tree}
    (h : List.Forall₂ (fun t u => rename f t = rename f u) ts us) :
    renameAll f ts = renameAll f us := by
  induction h with
  | nil => rfl
  | cons htu _ ih => rw [renameAll, renameAll, htu, ih]

end Tree

theorem Operator.build_renameAll (f : Text → Text) (op : Operator) (args : List Tree) :
    op.build (Tree.renameAll f args) = (op.build args).map (Tree.rename f) := by
  match args with
  | [] => rfl
  | [_] => rfl
  | [_, _] => rfl
  | _ :: _ :: _ :: rest => simp [build, Tree.renameAll, Except.map]

theorem Arity.build_renameAll (f : Text → Text) (arity : Arity) (key : Text) (handle : Handle)
    (args : List Tree) :
    arity.build key handle (Tree.renameAll f args) =
      (arity.build key handle args).map (Tree.rename f) := by
  simp only [build, Tree.length_renameAll]
  split <;> rfl

structure Answered where
  function : Handle
  args : List Float
  answer : Except EvaluationError Float

/-- The same functions, each of which also writes down its calls and what it answers. -/
def Functions.observed (fs : Functions σ) : Functions (σ × List Answered) where
  bodies := fs.bodies.mapIdx fun i body args => ExceptT.mk fun (host, calls) =>
    let (answer, host) := (body args).run host
    (answer, host, calls ++ [⟨⟨i⟩, args, answer⟩])

namespace Functions

theorem run_call_observed (fs : Functions σ) (h : Handle) (args : List Float)
    (s : σ × List Answered) :
    (fs.observed.call h args).run s =
      match fs.bodies[h.number]? with
      | some body =>
        (((body args).run s.1).1, ((body args).run s.1).2,
          s.2 ++ [⟨h, args, ((body args).run s.1).1⟩])
      | none => (.ok Number.nan, s) := by
  simp only [call, observed, List.getElem?_mapIdx]
  cases fs.bodies[h.number]? <;> rfl

theorem call_observed_records (fs : Functions σ) (h : Handle) (args : List Float) :
    (fs.observed.call h args).Records (fs.call h args) := by
  intro s
  rw [run_call_observed, call]
  cases fs.bodies[h.number]? <;> rfl

theorem call_observed_heeds (fs : Functions σ) (h : Handle) (args : List Float) :
    (fs.observed.call h args).Heeds fun call e => call.answer = .error e := by
  intro s
  rw [run_call_observed]
  cases fs.bodies[h.number]? with
  | none => exact ⟨[], (List.append_nil _).symm, fun _ hmem => absurd hmem List.not_mem_nil⟩
  | some body =>
    refine ⟨[⟨h, args, ((body args).run s.1).1⟩], rfl, fun call hmem e he => ?_⟩
    obtain rfl := List.mem_singleton.1 hmem
    exact he

end Functions

/-- Changes names, but not twice, and keeps their capital forms. -/
structure Text.IsRecasing (f : Text → Text) : Prop where
  idem : ∀ name, f (f name) = f name
  upper : ∀ name, Text.upper (f name) = Text.upper name

namespace Tree

variable (fs : Functions σ) (c : Context)

theorem exists_answers (t : Tree) (host : σ) :
    let ended := (t.evaluate fs c).run host
    ∃ calls, (t.evaluate fs.observed c).run (host, []) = (ended.1, ended.2, calls) ∧
      ∀ call ∈ calls, ∀ e, call.answer = .error e → ended.1 = .error e := by
  intro ended
  have hrecords : Prod.map id Prod.fst _ = ended :=
    evaluate_records_of c fs.call_observed_records t (host, [])
  obtain ⟨calls, hcalls, hheeds⟩ := evaluate_heeds c fs.call_observed_heeds t (host, [])
  rw [← hrecords]
  exact ⟨calls, Prod.ext rfl (Prod.ext rfl hcalls), hheeds⟩

variable {f : Text → Text}

theorem value_alike (hf : Text.IsRecasing f) (name : Text) :
    Alike (fun e e' => EvaluationError.rename f e = e'.rename f) (fun x y => id x = id y)
      (c.value name) (c.value (f name)) := by
  simp only [Context.value, Context.get?, hf.upper]
  cases c.values.get? (Text.upper name) with
  | some value => rfl
  | none => exact congrArg EvaluationError.undefinedVariable (hf.idem name).symm

mutual

theorem evaluate_rename (hf : Text.IsRecasing f) (t : Tree) :
    (t.evaluate fs c).Relates Eq (fun e e' => EvaluationError.rename f e = e'.rename f)
      (fun x y => id x = id y) ((t.rename f).evaluate fs c) := by
  cases t with
  | number value => exact Action.relates_self _
  | «variable» name => exact Action.relates_ofExcept (value_alike c hf name)
  | binary left operator right =>
    have hleft := evaluate_rename hf left
    have hright := evaluate_rename hf right
    rw [rename, evaluate, evaluate]
    refine hleft.bind fun x x' hx => ?_
    refine hright.bind fun y y' hy => ?_
    obtain rfl : x = x' := hx
    obtain rfl : y = y' := hy
    exact Action.relates_self _
  | call name args function =>
    have hargs := evaluateAll_rename hf args
    rw [rename, evaluate, evaluate]
    refine hargs.bind fun xs xs' hxs => ?_
    obtain rfl : xs = xs' := hxs
    exact Action.relates_self _

theorem evaluateAll_rename (hf : Text.IsRecasing f) (ts : List Tree) :
    (evaluateAll fs c ts).Relates Eq (fun e e' => EvaluationError.rename f e = e'.rename f)
      (fun x y => id x = id y) (evaluateAll fs c (renameAll f ts)) := by
  cases ts with
  | nil => exact Action.relates_self _
  | cons t ts =>
    have hfirst := evaluate_rename hf t
    have hothers := evaluateAll_rename hf ts
    rw [renameAll, evaluateAll, evaluateAll]
    refine hfirst.bind fun x x' hx => ?_
    refine hothers.bind fun xs xs' hxs => ?_
    obtain rfl : x = x' := hx
    obtain rfl : xs = xs' := hxs
    exact Action.relates_self _

end

theorem evaluate_relates_of_rename_eq (hf : Text.IsRecasing f) {t u : Tree}
    (htu : t.rename f = u.rename f) :
    (t.evaluate fs c).Relates Eq (fun e e' => EvaluationError.rename f e = e'.rename f)
      (fun x y => id x = id y) (u.evaluate fs c) := by
  have ht := evaluate_rename fs c hf t
  have hu := evaluate_rename fs c hf u
  rw [htu] at ht
  exact ht.join hu

/-- Trees that differ in the case of the names of variables call the same functions with the same
values, and end alike. -/
theorem exists_answers_of_rename_eq (hf : Text.IsRecasing f) {t u : Tree}
    (htu : t.rename f = u.rename f) (host : σ) :
    let ended := (t.evaluate fs c).run host
    let ended' := (u.evaluate fs c).run host
    Alike (fun e e' => EvaluationError.rename f e = e'.rename f) Eq ended.1 ended'.1 ∧
      ended.2 = ended'.2 ∧
      ∃ calls,
        (t.evaluate fs.observed c).run (host, []) = (ended.1, ended.2, calls) ∧
        (u.evaluate fs.observed c).run (host, []) = (ended'.1, ended'.2, calls) ∧
        ∀ call ∈ calls, ∀ e, call.answer = .error e →
          ended.1 = .error e ∧ ended'.1 = .error e := by
  intro ended ended'
  obtain ⟨calls, hrun, hanswers⟩ := exists_answers fs c t host
  obtain ⟨calls', hrun', hanswers'⟩ := exists_answers fs c u host
  obtain ⟨halike, hstate⟩ :=
    evaluate_relates_of_rename_eq fs.observed c hf htu (host, []) (host, []) rfl
  rw [hrun, hrun'] at halike hstate
  obtain ⟨hhost, rfl⟩ := Prod.mk.inj hstate
  exact ⟨halike, hhost, calls, hrun, hrun', fun call hcall e he =>
    ⟨hanswers call hcall e he, hanswers' call hcall e he⟩⟩

end Tree

end CallFormula
