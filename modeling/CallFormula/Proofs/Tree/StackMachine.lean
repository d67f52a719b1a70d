import CallFormula.Proofs.Action
import CallFormula.Proofs.Number.Bits
import CallFormula.Tree

/-!
A machine that takes the nodes of a tree in post-order and keeps values on a stack.
-/

set_option autoImplicit false

namespace CallFormula

/-- A node without its parts. A call keeps only how many there are. -/
inductive Node where
  | number (value : Float)
  | variable (name : Text)
  | binary (operator : Operator)
  | call (count : Nat) (function : Handle)

namespace Tree

mutual

def postOrder : Tree → List Node
  | .number value => [.number value]
  | .variable name => [.variable name]
  | .binary left operator right => postOrder left ++ postOrder right ++ [.binary operator]
  | .call _ args function => postOrderAll args ++ [.call args.length function]

def postOrderAll : List Tree → List Node
  | [] => []
  | t :: ts => postOrder t ++ postOrderAll ts

end

end Tree

/-- What the machine pushes for an operator, which is not asked to divide by zero. -/
def Operator.value : Operator → Float → Float → Float
  | .add, x, y => x + y
  | .subtract, x, y => x - y
  | .multiply, x, y => x * y
  | .divide, x, y => x / y
  | .power, x, y => x.pow y

/-- The machine: its stack, the latest value first, the calls that it has made, the latest last,
and the state of the host. -/
structure Machine (σ : Type) where
  stack : List Float
  calls : List (Handle × List Float)
  host : σ

/-- A machine goes on, or it has stopped: at a failure, or at a node that finds too few values. -/
inductive Course (σ : Type) where
  | running (m : Machine σ)
  | failed (e : EvaluationError) (calls : List (Handle × List Float)) (host : σ)
  | stuck

namespace Machine

variable {σ : Type}

/-- A step at an operator: the right value is on top. Division stops at both zeros. -/
def operate (operator : Operator) (m : Machine σ) : Course σ :=
  match m.stack with
  | y :: x :: stack =>
    if operator = .divide ∧ (y = Number.ofMagnitude false 0 ∨ y = Number.ofMagnitude true 0) then
      .failed .divisionByZero m.calls m.host
    else .running { m with stack := operator.value x y :: stack }
  | _ => .stuck

/-- A step at a call: the values come off the stack in reverse. Only an issued handle has a function
that can be called. -/
def call (fs : Functions σ) (count : Nat) (function : Handle) (m : Machine σ) : Course σ :=
  if m.stack.length < count then .stuck
  else
    let args := (m.stack.take count).reverse
    let stack := m.stack.drop count
    match fs.bodies[function.number]? with
    | none => .running { m with stack := Number.nan :: stack }
    | some body =>
      let calls := m.calls ++ [(function, args)]
      match (body args).run m.host with
      | (.ok value, host) => .running ⟨value :: stack, calls, host⟩
      | (.error e, host) => .failed e calls host

def step (fs : Functions σ) (c : Context) (m : Machine σ) : Node → Course σ
  | .number value => .running { m with stack := value :: m.stack }
  | .variable name =>
    match c.values.get? (Text.upper name) with
    | some value => .running { m with stack := value :: m.stack }
    | none => .failed (.undefinedVariable name) m.calls m.host
  | .binary operator => m.operate operator
  | .call count function => m.call fs count function

def run (fs : Functions σ) (c : Context) : List Node → Machine σ → Course σ
  | [], m => .running m
  | node :: nodes, m =>
    match m.step fs c node with
    | .running m => run fs c nodes m
    | stopped => stopped

end Machine

/-- How a machine ended: the one value left or the failure, the calls, and the state of the host.
If it got stuck or left another number of values, it has no such end. -/
def Course.ending {σ : Type} :
    Course σ → Option (Except EvaluationError Float × List (Handle × List Float) × σ)
  | .running ⟨[value], calls, host⟩ => some (.ok value, calls, host)
  | .failed e calls host => some (.error e, calls, host)
  | _ => none

def Functions.recorded {σ : Type} (fs : Functions σ) :
    Functions (σ × List (Handle × List Float)) where
  bodies := fs.bodies.mapIdx fun i body args => ExceptT.mk fun (host, calls) =>
    let (result, host) := (body args).run host
    (result, host, calls ++ [(⟨i⟩, args)])

variable {σ : Type}

theorem Operator.apply_eq (operator : Operator) (x y : Float) :
    operator.apply x y =
      if operator = .divide ∧ (y = Number.ofMagnitude false 0 ∨ y = Number.ofMagnitude true 0) then
        .error .divisionByZero
      else .ok (operator.value x y) := by
  cases operator with
  | divide =>
    simp only [apply, Number.beq_zero_iff, Number.magnitude_eq_zero_iff, true_and]
    rfl
  | _ => rfl

/-- `x` does what `y` does and keeps a record besides. -/
def Action.Records {ρ ε α : Type} (x : Action (σ × ρ) ε α) (y : Action σ ε α) : Prop :=
  ∀ s, Prod.map id Prod.fst (x.run s) = y.run s.1

theorem Action.records_pure {ρ ε α : Type} (a : α) :
    (pure a : Action (σ × ρ) ε α).Records (pure a) := fun _ => rfl

theorem Action.records_ofExcept {ρ ε α : Type} (result : Except ε α) :
    (ofExcept result : Action (σ × ρ) ε α).Records (ofExcept result) := fun _ => rfl

theorem Action.Records.bind {ρ ε α β : Type} {x : Action (σ × ρ) ε α} {y : Action σ ε α}
    {f : α → Action (σ × ρ) ε β} {g : α → Action σ ε β} (hx : x.Records y)
    (hf : ∀ a, (f a).Records (g a)) : (x >>= f).Records (y >>= g) := by
  intro s
  have hs := hx s
  rw [Action.run_bind, Action.run_bind, ← hs]
  cases x.run s with
  | mk result s' =>
    cases result with
    | ok a => exact hf a s'
    | error e => rfl

namespace Functions

theorem run_call_recorded (fs : Functions σ) (h : Handle) (args : List Float)
    (s : σ × List (Handle × List Float)) :
    (fs.recorded.call h args).run s =
      match fs.bodies[h.number]? with
      | some body => (((body args).run s.1).1, ((body args).run s.1).2, s.2 ++ [(h, args)])
      | none => (.ok Number.nan, s) := by
  simp only [call, recorded, List.getElem?_mapIdx]
  cases fs.bodies[h.number]? <;> rfl

theorem call_records (fs : Functions σ) (h : Handle) (args : List Float) :
    (fs.recorded.call h args).Records (fs.call h args) := by
  intro s
  rw [run_call_recorded, call]
  cases fs.bodies[h.number]? <;> rfl

end Functions

namespace Tree

variable (fs : Functions σ) (c : Context)

section Records

variable {ρ : Type} {fs : Functions σ} {kept : Functions (σ × ρ)}

mutual

theorem evaluate_records_of (h : ∀ f args, (kept.call f args).Records (fs.call f args)) (t : Tree) :
    (t.evaluate kept c).Records (t.evaluate fs c) := by
  cases t with
  | number value => exact Action.records_pure value
  | «variable» name => exact Action.records_ofExcept (c.value name)
  | binary left operator right =>
    have hleft := evaluate_records_of h left
    have hright := evaluate_records_of h right
    rw [evaluate, evaluate]
    refine hleft.bind fun x => ?_
    refine hright.bind fun y => ?_
    exact Action.records_ofExcept (operator.apply x y)
  | call name args function =>
    have hargs := evaluateAll_records_of h args
    exact hargs.bind (h function)

theorem evaluateAll_records_of (h : ∀ f args, (kept.call f args).Records (fs.call f args))
    (ts : List Tree) : (evaluateAll kept c ts).Records (evaluateAll fs c ts) := by
  cases ts with
  | nil => exact Action.records_pure []
  | cons t ts =>
    have hfirst := evaluate_records_of h t
    have hothers := evaluateAll_records_of h ts
    rw [evaluateAll, evaluateAll]
    refine hfirst.bind fun x => ?_
    refine hothers.bind fun xs => ?_
    exact Action.records_pure (x :: xs)

end

end Records

theorem evaluate_records (t : Tree) : (t.evaluate fs.recorded c).Records (t.evaluate fs c) :=
  evaluate_records_of c fs.call_records t

theorem length_of_evaluateAll {ts : List Tree} {xs : List Float} {s s' : σ}
    (h : (evaluateAll fs c ts).run s = (.ok xs, s')) : xs.length = ts.length := by
  induction ts generalizing s s' xs with
  | nil =>
    cases h
    rfl
  | cons t ts ih =>
    rw [evaluateAll, Action.run_bind] at h
    split at h
    · rename_i x s₁ hx
      rw [Action.run_bind] at h
      split at h
      · rename_i ys s₂ hys
        cases h
        simp [ih hys]
      · cases h
    · cases h

end Tree

namespace Machine

variable (fs : Functions σ) (c : Context)

theorem call_of_length {xs stack : List Float} {calls : List (Handle × List Float)} {host : σ}
    {count : Nat} (function : Handle) (h : xs.length = count) :
    call fs count function ⟨xs.reverse ++ stack, calls, host⟩ =
      match (fs.recorded.call function xs).run (host, calls) with
      | (.ok value, host, calls) => .running ⟨value :: stack, calls, host⟩
      | (.error e, host, calls) => .failed e calls host := by
  have hlength : xs.reverse.length = count := by simp [h]
  have henough : ¬(xs.reverse ++ stack).length < count := by
    rw [List.length_append]
    omega
  simp only [call]
  rw [if_neg henough, List.take_left' hlength, List.drop_left' hlength, List.reverse_reverse,
    Functions.run_call_recorded]
  cases fs.bodies[function.number]? with
  | none => rfl
  | some body =>
    dsimp only
    obtain ⟨result, host'⟩ := (body xs).run host
    cases result <;> rfl

theorem operate_cons {x y : Float} {stack : List Float} {calls : List (Handle × List Float)}
    {host : σ} (operator : Operator) :
    operate operator ⟨y :: x :: stack, calls, host⟩ =
      match operator.apply x y with
      | .ok value => .running ⟨value :: stack, calls, host⟩
      | .error e => .failed e calls host := by
  rw [Operator.apply_eq]
  by_cases hzero : operator = .divide ∧
      (y = Number.ofMagnitude false 0 ∨ y = Number.ofMagnitude true 0)
  · simp only [operate, if_pos hzero]
  · simp only [operate, if_neg hzero]

mutual

/-- The nodes of a tree leave its value on the stack, or they stop the machine as the tree fails. -/
theorem run_postOrder : ∀ (t : Tree) (nodes : List Node) (m : Machine σ),
    run fs c (t.postOrder ++ nodes) m =
      match (t.evaluate fs.recorded c).run (m.host, m.calls) with
      | (.ok value, host, calls) => run fs c nodes ⟨value :: m.stack, calls, host⟩
      | (.error e, host, calls) => .failed e calls host
  | .number value, nodes, m => rfl
  | .variable name, nodes, m => by
    simp only [Tree.postOrder, List.singleton_append, run, step, Tree.evaluate, Context.value,
      Context.get?]
    cases c.values.get? (Text.upper name) <;> rfl
  | .binary left operator right, nodes, m => by
    simp only [Tree.postOrder, List.append_assoc, List.singleton_append, Tree.evaluate]
    rw [run_postOrder left, Action.run_bind]
    obtain ⟨x | x, host, calls⟩ := (left.evaluate fs.recorded c).run (m.host, m.calls)
    · rfl
    · dsimp only
      rw [run_postOrder right, Action.run_bind]
      obtain ⟨y | y, host, calls⟩ := (right.evaluate fs.recorded c).run (host, calls)
      · rfl
      · simp only [run, step, operate_cons]
        cases operator.apply x y <;> rfl
  | .call _ args function, nodes, m => by
    simp only [Tree.postOrder, List.append_assoc, List.singleton_append, Tree.evaluate]
    rw [run_postOrderAll args, Action.run_bind]
    generalize hargs : (Tree.evaluateAll fs.recorded c args).run (m.host, m.calls) = evaluated
    obtain ⟨xs | xs, host, calls⟩ := evaluated
    · rfl
    · have hlength := Tree.length_of_evaluateAll fs.recorded c hargs
      simp only [run, step, call_of_length fs function hlength]
      obtain ⟨value | value, host, calls⟩ := (fs.recorded.call function xs).run (host, calls)
      · rfl
      · rfl

theorem run_postOrderAll : ∀ (ts : List Tree) (nodes : List Node) (m : Machine σ),
    run fs c (Tree.postOrderAll ts ++ nodes) m =
      match (Tree.evaluateAll fs.recorded c ts).run (m.host, m.calls) with
      | (.ok values, host, calls) => run fs c nodes ⟨values.reverse ++ m.stack, calls, host⟩
      | (.error e, host, calls) => .failed e calls host
  | [], nodes, m => rfl
  | t :: ts, nodes, m => by
    simp only [Tree.postOrderAll, List.append_assoc, Tree.evaluateAll]
    rw [run_postOrder t, Action.run_bind]
    obtain ⟨x | x, host, calls⟩ := (t.evaluate fs.recorded c).run (m.host, m.calls)
    · rfl
    · dsimp only
      rw [run_postOrderAll ts, Action.run_bind]
      obtain ⟨xs | xs, host, calls⟩ := (Tree.evaluateAll fs.recorded c ts).run (host, calls)
      · rfl
      · simp [Action.pure_eq_ofExcept]

end

end Machine

/-- Evaluation is the stack machine: on the nodes in post-order it ends as the evaluation does, with
the same calls. -/
theorem Tree.evaluate_eq_run (fs : Functions σ) (c : Context) (t : Tree) (host : σ) :
    ∃ calls,
      (Machine.run fs c t.postOrder ⟨[], [], host⟩).ending =
        some (((t.evaluate fs c).run host).1, calls, ((t.evaluate fs c).run host).2) ∧
      (t.evaluate fs.recorded c).run (host, []) =
        (((t.evaluate fs c).run host).1, ((t.evaluate fs c).run host).2, calls) := by
  have hrecords := evaluate_records fs c t (host, [])
  have hrun := Machine.run_postOrder fs c t [] ⟨[], [], host⟩
  rw [List.append_nil] at hrun
  rw [hrun, ← hrecords]
  obtain ⟨value | value, host', calls⟩ := (t.evaluate fs.recorded c).run (host, [])
  · exact ⟨calls, rfl, rfl⟩
  · exact ⟨calls, rfl, rfl⟩

end CallFormula
