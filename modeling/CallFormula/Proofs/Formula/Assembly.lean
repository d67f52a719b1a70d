import CallFormula.Proofs.Formula.Sketch

set_option autoImplicit false

namespace CallFormula

/-- A use of a binding to build a call: the key it is bound to, the arguments, and the state in
which it finds the host. -/
structure Invocation (σ : Type) where
  key : Text
  args : List Tree
  host : σ

abbrev Witnessed (σ : Type) := Workbench σ × List (Invocation σ)

def Table.map {α β : Type} (f : Text → α → β) (t : Table α) : Table β :=
  ⟨t.entries.map fun e => (e.1, f e.1 e.2), List.pairwise_map.2 t.sorted⟩

theorem Table.get?_map {α β : Type} (f : Text → α → β) (t : Table α) (k : Text) :
    (t.map f).get? k = (t.get? k).map (f k) := by
  obtain ⟨es, hs⟩ := t
  simp only [get?, map]
  clear hs
  induction es with
  | nil => rfl
  | cons e es ih =>
    rw [List.map_cons, lookup_cons_if, lookup_cons_if, ih]
    by_cases hk : k = e.1
    · simp [hk]
    · simp [hk]

variable {σ τ : Type}

/-- Builds with a binding and writes the invocation down, whether or not it succeeds. -/
def Binding.invoke (key : Text) (args : List Tree) (b : Binding σ) :
    Action (Witnessed σ) ParseError Tree := ExceptT.mk fun (bench, invocations) =>
  let (result, bench') := (b.build key args).run bench
  (result, bench', invocations ++ [⟨key, args, bench.host⟩])

namespace Registry

def invoke (r : Registry σ) (name : Text) (args : List Tree) :
    Action (Witnessed σ) ParseError Tree :=
  match r.lookup name with
  | none => throw (.unknownOperator name)
  | some b => b.invoke (canonical name) args

def recorded (r : Registry σ) : Registry (Witnessed σ) :=
  ⟨r.bindings.map fun key b => .builder fun args s =>
    let (result, s') := (b.invoke key args).run s
    ⟨result, s', []⟩⟩

theorem lookup_recorded (r : Registry σ) (name : Text) :
    r.recorded.lookup name = (r.lookup name).map fun b => .builder fun args s =>
      let (result, s') := (b.invoke (canonical name) args).run s
      ⟨result, s', []⟩ := Table.get?_map _ _ _

theorem recorded_matches_invoke (r : Registry σ) (name : Text) (args : List Tree) :
    (r.recorded.buildCall name args).Matches (fun bench s => bench = ⟨s, []⟩)
      (r.invoke name args) := by
  rintro _ s rfl
  rw [buildCall, invoke, lookup_recorded]
  cases r.lookup name with
  | none => exact ⟨rfl, rfl⟩
  | some b => exact ⟨rfl, rfl⟩

theorem invoke_matches_buildCall (r : Registry σ) (name : Text) (args : List Tree) :
    (r.invoke name args).Matches (fun s bench => s.1 = bench) (r.buildCall name args) := by
  rintro s _ rfl
  rw [buildCall, invoke]
  cases r.lookup name with
  | none => exact ⟨rfl, rfl⟩
  | some b => exact ⟨rfl, rfl⟩

end Registry

inductive Step where
  | enter (depth : Nat)
  | number (text : Text)
  | identifier (text : Text)
  | malformed (text : Text)
  | build (name : Text) (count : Nat)

namespace Sketch

mutual

def steps (depth : Nat) : Sketch → List Step
  | .number t => [.enter depth, .number t]
  | .identifier t => [.enter depth, .identifier t]
  | .malformed t => [.enter depth, .malformed t]
  | .call name args => .enter depth :: (stepsAll (depth + 1) args ++ [.build name args.length])

def stepsAll (depth : Nat) : List Sketch → List Step
  | [] => []
  | s :: ss => steps depth s ++ stepsAll depth ss

end

mutual

def calls : Sketch → List (Text × Nat)
  | .number _ => []
  | .identifier _ => []
  | .malformed _ => []
  | .call name args => callsAll args ++ [(canonical name, args.length)]

def callsAll : List Sketch → List (Text × Nat)
  | [] => []
  | s :: ss => calls s ++ callsAll ss

end

end Sketch

/-- Takes a step on the trees that are built so far, the latest first. -/
def Step.run (build : Text → List Tree → Action τ ParseError Tree) (limit : Option Nat)
    (trees : List Tree) : Step → Action τ ParseError (List Tree)
  | .enter depth => do
    Action.ofExcept (checkDepth limit depth)
    pure trees
  | .number t => do
    let tree ← Action.ofExcept (readLiteral t)
    pure (tree :: trees)
  | .identifier t => pure (.variable t :: trees)
  | .malformed t => throw (.malformed t)
  | .build name count => do
    let tree ← build name (trees.take count).reverse
    pure (tree :: trees.drop count)

namespace Sketch

section Steps

variable (build : Text → List Tree → Action τ ParseError Tree) (limit : Option Nat)

theorem walkAll_yields (depth : Nat) (ss : List Sketch) :
    (walkAll build limit depth ss).Yields fun trees => trees.length = ss.length := by
  induction ss with
  | nil =>
    refine Action.yields_ofExcept fun trees h => ?_
    cases h
    rfl
  | cons s ss ih =>
    rw [walkAll]
    refine (Action.yields_true _).bind fun tree _ => ?_
    refine ih.bind fun trees htrees => ?_
    refine Action.yields_ofExcept fun all h => ?_
    cases h
    simp [htrees]

theorem run_build_of_length {name : Text} {args trees : List Tree} {count : Nat}
    (h : args.length = count) :
    Step.run build limit (args.reverse ++ trees) (.build name count) =
      build name args >>= fun tree => pure (tree :: trees) := by
  have hlength : args.reverse.length = count := by simp [h]
  simp only [Step.run]
  rw [List.take_left' hlength, List.drop_left' hlength, List.reverse_reverse]

mutual

/-- Taking the steps of a sketch puts its tree on the stack, or fails as its walk does. -/
theorem foldlM_steps : ∀ (s : Sketch) (depth : Nat) (rest : List Step) (trees : List Tree),
    (s.steps depth ++ rest).foldlM (Step.run build limit) trees =
      s.walk build limit depth >>= fun tree =>
        rest.foldlM (Step.run build limit) (tree :: trees)
  | .number t, depth, rest, trees => by simp [steps, walk, Step.run]
  | .identifier t, depth, rest, trees => by simp [steps, walk, Step.run]
  | .malformed t, depth, rest, trees => by simp [steps, walk, Step.run]
  | .call name args, depth, rest, trees => by
    have hlast : ∀ ts : List Tree, ts.length = args.length →
        (Step.build name args.length :: rest).foldlM (Step.run build limit) (ts.reverse ++ trees) =
          build name ts >>= fun tree => rest.foldlM (Step.run build limit) (tree :: trees) := by
      intro ts hts
      rw [List.foldlM_cons, run_build_of_length build limit hts, bind_assoc]
      simp only [pure_bind]
    have hargs := (walkAll_yields build limit (depth + 1) args).bind_congr hlast
    simp only [steps, List.cons_append, List.append_assoc, List.nil_append, List.foldlM_cons,
      Step.run, bind_assoc, pure_bind, walk]
    rw [foldlM_stepsAll args, hargs]

theorem foldlM_stepsAll :
    ∀ (ss : List Sketch) (depth : Nat) (rest : List Step) (trees : List Tree),
    (stepsAll depth ss ++ rest).foldlM (Step.run build limit) trees =
      walkAll build limit depth ss >>= fun ts =>
        rest.foldlM (Step.run build limit) (ts.reverse ++ trees)
  | [], depth, rest, trees => by simp [stepsAll, walkAll]
  | s :: ss, depth, rest, trees => by
    simp only [stepsAll, List.append_assoc, walkAll, bind_assoc, pure_bind]
    rw [foldlM_steps s]
    refine congrArg _ (funext fun tree => ?_)
    rw [foldlM_stepsAll ss]
    simp

end

end Steps

end Sketch

def Invocation.shape (i : Invocation σ) : Text × Nat := (i.key, i.args.length)

namespace Registry

theorem invoke_writes (r : Registry σ) (name : Text) (args : List Tree) :
    (r.invoke name args).Writes Invocation.shape [(canonical name, args.length)] := by
  intro s
  rw [invoke]
  cases r.lookup name with
  | none => exact ⟨[], (List.append_nil _).symm, List.nil_prefix⟩
  | some b => exact ⟨[⟨canonical name, args, s.1.host⟩], rfl, covers_self _ _⟩

end Registry

namespace Sketch

variable (r : Registry σ) (limit : Option Nat)

mutual

theorem walk_writes (s : Sketch) (depth : Nat) :
    (walk r.invoke limit depth s).Writes Invocation.shape s.calls := by
  cases s with
  | number t => exact (Action.writes_ofExcept (readLiteral t)).checked _
  | identifier t => exact (Action.writes_ofExcept (.ok (Tree.variable t))).checked _
  | malformed t => exact (Action.writes_ofExcept (.error (ParseError.malformed t))).checked _
  | call name args =>
    have hargs := walkAll_writes args (depth + 1)
    have hlength := walkAll_yields r.invoke limit (depth + 1) args
    have hbuild : ∀ trees : List Tree, trees.length = args.length →
        (r.invoke name trees).Writes Invocation.shape [(canonical name, args.length)] := by
      intro trees htrees
      rw [← htrees]
      exact r.invoke_writes name trees
    have hnode := hargs.bind hlength hbuild
    exact hnode.checked _

theorem walkAll_writes (ss : List Sketch) (depth : Nat) :
    (walkAll r.invoke limit depth ss).Writes Invocation.shape (callsAll ss) := by
  cases ss with
  | nil => exact Action.writes_ofExcept (.ok [])
  | cons s ss =>
    have hfirst := walk_writes s depth
    have hothers := walkAll_writes ss depth
    rw [walkAll, callsAll, ← List.append_nil (callsAll ss)]
    refine hfirst.bind (Action.yields_true _) fun tree _ => ?_
    refine hothers.bind (Action.yields_true _) fun trees _ => ?_
    exact Action.writes_ofExcept (.ok (tree :: trees))

end

end Sketch

theorem Registry.exists_invocations (r : Registry σ) (limit : Option Nat) (text : Text)
    (bench : Workbench σ) :
    ∃ invocations,
      (r.recorded.parse limit text).run ⟨(bench, []), []⟩ =
        (((r.parse limit text).run bench).1,
          ⟨(((r.parse limit text).run bench).2, invocations), []⟩) ∧
      ((Sketch.ofText text).walk r.invoke limit 0).run (bench, []) =
        (((r.parse limit text).run bench).1, ((r.parse limit text).run bench).2, invocations) ∧
      Covers ((r.parse limit text).run bench).1 (invocations.map Invocation.shape)
        (Sketch.ofText text).calls := by
  obtain ⟨invocations, hnew, hshapes⟩ :=
    Sketch.walk_writes r limit (Sketch.ofText text) 0 (bench, [])
  obtain ⟨hplain, hbench⟩ := Sketch.walk_matches r.invoke_matches_buildCall limit 0
    (Sketch.ofText text) (bench, []) bench rfl
  obtain ⟨hrecorded, hwitnessed⟩ := Sketch.walk_matches r.recorded_matches_invoke limit 0
    (Sketch.ofText text) ⟨(bench, []), []⟩ (bench, []) rfl
  rw [← parseAt_eq_walk] at hplain hbench hrecorded hwitnessed
  have hwalk : ((Sketch.ofText text).walk r.invoke limit 0).run (bench, []) =
      (((r.parse limit text).run bench).1, ((r.parse limit text).run bench).2, invocations) :=
    Prod.ext hplain (Prod.ext hbench hnew)
  rw [hwalk] at hrecorded hwitnessed hshapes
  exact ⟨invocations, Prod.ext hrecorded hwitnessed, hwalk, hshapes⟩

/-- What the binding of an invocation answers, if there is one. It sees nothing of the state but the
host. -/
def Invocation.answer (r : Registry σ) (i : Invocation σ) : Option (Except ParseError Tree) :=
  (r.bindings.get? i.key).map fun b => ((b.build i.key i.args).run ⟨i.host, []⟩).1

theorem Binding.run_build (b : Binding σ) (key : Text) (args : List Tree) (bench : Workbench σ) :
    ((b.build key args).run bench).1 = ((b.build key args).run ⟨bench.host, []⟩).1 := by
  cases b with
  | operator op => rfl
  | function arity handle => rfl
  | builder build => rfl

theorem Registry.invoke_heeds (r : Registry σ) (name : Text) (args : List Tree) :
    (r.invoke name args).Heeds fun i e => i.answer r = some (.error e) := by
  intro s
  rw [invoke]
  cases hb : r.lookup name with
  | none => exact ⟨[], (List.append_nil _).symm, fun _ h => absurd h List.not_mem_nil⟩
  | some b =>
    have hget : r.bindings.get? (canonical name) = some b := hb
    refine ⟨[⟨canonical name, args, s.1.host⟩], rfl, fun i hi e he => ?_⟩
    obtain rfl := List.mem_singleton.1 hi
    simp only [Invocation.answer, hget, Option.map_some, Option.some.injEq] at he
    exact (b.run_build (canonical name) args s.1).trans he

namespace Sketch

variable {τ ρ : Type} {fails : ρ → ParseError → Prop}
  {build : Text → List Tree → Action (τ × List ρ) ParseError Tree}

mutual

theorem walk_heeds (h : ∀ name args, (build name args).Heeds fails) (limit : Option Nat)
    (s : Sketch) (depth : Nat) : (walk build limit depth s).Heeds fails := by
  have hdepth : (Action.ofExcept (checkDepth limit depth) :
      Action (τ × List ρ) ParseError Unit).Heeds fails := Action.heeds_ofExcept _
  cases s with
  | number _ | identifier _ | malformed _ =>
    rw [walk]
    exact hdepth.bind fun _ => Action.heeds_ofExcept _
  | call name args =>
    have hargs := walkAll_heeds h limit args (depth + 1)
    rw [walk]
    refine hdepth.bind fun _ => ?_
    exact hargs.bind (h name)

theorem walkAll_heeds (h : ∀ name args, (build name args).Heeds fails) (limit : Option Nat)
    (ss : List Sketch) (depth : Nat) : (walkAll build limit depth ss).Heeds fails := by
  cases ss with
  | nil => exact Action.heeds_ofExcept (.ok [])
  | cons s ss =>
    have hfirst := walk_heeds h limit s depth
    have hothers := walkAll_heeds h limit ss depth
    rw [walkAll]
    refine hfirst.bind fun tree => ?_
    refine hothers.bind fun trees => ?_
    exact Action.heeds_ofExcept (.ok (tree :: trees))

end

end Sketch

theorem Registry.exists_answers (r : Registry σ) (limit : Option Nat) (text : Text)
    (bench : Workbench σ) :
    let parsed := (r.parse limit text).run bench
    ∃ invocations,
      (r.recorded.parse limit text).run ⟨(bench, []), []⟩ =
        (parsed.1, ⟨(parsed.2, invocations), []⟩) ∧
      ((Sketch.ofText text).walk r.invoke limit 0).run (bench, []) =
        (parsed.1, (parsed.2, invocations)) ∧
      ∀ i ∈ invocations, ∀ e, i.answer r = some (.error e) → parsed.1 = .error e := by
  intro parsed
  obtain ⟨invocations, hrecorded, hwalk, -⟩ := r.exists_invocations limit text bench
  obtain ⟨new, hnew, hheeds⟩ :=
    Sketch.walk_heeds r.invoke_heeds limit (Sketch.ofText text) 0 (bench, [])
  rw [hwalk] at hnew hheeds
  rw [List.nil_append] at hnew
  obtain rfl := hnew
  exact ⟨invocations, hrecorded, hwalk, hheeds⟩

/-- Reading is cutting, then walking: a formula is read as its sketch is walked, step by step and
with the same invocations. -/
theorem Registry.parse_eq_walk_sketch (r : Registry σ) (limit : Option Nat) (text : Text)
    (bench : Workbench σ) :
    let sketch := Sketch.ofText text
    let parsed := (r.parse limit text).run bench
    r.parse limit text = sketch.walk r.buildCall limit 0 ∧
      ∃ invocations,
        (r.recorded.parse limit text).run ⟨(bench, []), []⟩ =
          (parsed.1, ⟨(parsed.2, invocations), []⟩) ∧
        ((sketch.steps 0).foldlM (Step.run r.invoke limit) []).run (bench, []) =
          (parsed.1.map ([·]), parsed.2, invocations) ∧
        Covers parsed.1 (invocations.map Invocation.shape) sketch.calls := by
  intro sketch parsed
  obtain ⟨invocations, hrecorded, hwalk, hshapes⟩ := r.exists_invocations limit text bench
  refine ⟨r.parseAt_eq_walk limit 0 text, invocations, hrecorded, ?_, hshapes⟩
  have hsteps := Sketch.foldlM_steps r.invoke limit sketch 0 [] []
  rw [List.append_nil] at hsteps
  rw [hsteps, Action.run_bind, hwalk]
  cases parsed.1 with
  | ok tree => rfl
  | error e => rfl

end CallFormula
