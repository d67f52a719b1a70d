import CallFormula.Tree

/-!
A registry says what a call builds. Names are bound after trimming and in capital form, and the last
binding of a name counts. A builder may do what it likes; the registrations that it asks for in the
process-wide registry are collected while formulas are read (`Workbench`).
-/

set_option autoImplicit false

namespace CallFormula

/-- A registration to be made: a ready binding, or a function that still needs a handle. -/
inductive Request (σ β : Type) where
  | bind (name : Text) (binding : β)
  | function (name : Text) (arity : Arity) (body : Native σ)

/-- What a builder leaves behind: a tree or an error, the state of the host, and requests. -/
structure Built (σ β : Type) where
  result : Except ParseError Tree
  host : σ
  requests : List (Request σ β)

inductive Binding (σ : Type) where
  | operator (op : Operator)
  | function (arity : Arity) (handle : Handle)
  | builder (build : List Tree → σ → Built σ (Binding σ))

abbrev Registration (σ : Type) := Request σ (Binding σ)

/-- The state on which formulas are read: that of the host, and the requests made so far. -/
structure Workbench (σ : Type) where
  host : σ
  requests : List (Registration σ)

abbrev Parsing (σ α : Type) := Action (Workbench σ) ParseError α

def canonical (name : Text) : Text := Text.upper (Text.trim name)

def Operator.build (op : Operator) : List Tree → Except ParseError Tree
  | [left, right] => .ok (.binary left op right)
  | args => .error (.arityMismatch op.name (Number.digits 2) args.length)

def Arity.build (arity : Arity) (key : Text) (handle : Handle) (args : List Tree) :
    Except ParseError Tree :=
  if arity.accepts args.length then .ok (.call key args handle)
  else .error (.arityMismatch key arity.text args.length)

def Binding.build {σ : Type} (key : Text) (args : List Tree) : Binding σ → Parsing σ Tree
  | .operator op => Action.ofExcept (op.build args)
  | .function arity handle => Action.ofExcept (arity.build key handle args)
  | .builder build => ExceptT.mk fun bench =>
    let built := build args bench.host
    (built.result, ⟨built.host, bench.requests ++ built.requests⟩)

structure Registry (σ : Type) where
  bindings : Table (Binding σ)

namespace Registry

variable {σ : Type}

def empty : Registry σ := ⟨.empty⟩

def lookup (r : Registry σ) (name : Text) : Option (Binding σ) := r.bindings.get? (canonical name)

def contains (r : Registry σ) (name : Text) : Bool := r.bindings.contains (canonical name)

def bind (r : Registry σ) (name : Text) (b : Binding σ) : Registry σ :=
  ⟨r.bindings.insert (canonical name) b⟩

def unbind (r : Registry σ) (name : Text) : Registry σ := ⟨r.bindings.erase (canonical name)⟩

def unregister (r : Registry σ) (name : Text) : Bool × Registry σ :=
  let (removed, bindings) := r.bindings.extract (canonical name)
  (removed.isSome, ⟨bindings⟩)

def names (r : Registry σ) : List Text := r.bindings.keys

def size (r : Registry σ) : Nat := r.bindings.size

def isEmpty (r : Registry σ) : Bool := r.bindings.isEmpty

def bindFunction (r : Registry σ) (name : Text) (arity : Arity) (body : Native σ) :
    StateM (Functions σ) (Registry σ) := fun fs =>
  let (handle, fs) := fs.add body
  (r.bind name (.function arity handle), fs)

def enter (r : Registry σ) : Registration σ → StateM (Functions σ) (Registry σ)
  | .bind name b => pure (r.bind name b)
  | .function name arity body => r.bindFunction name arity body

def structural (r : Registry σ) : Text :=
  "OperatorRegistry \x7b operators: [".toList ++
    Text.joined [',', ' '] (r.names.map Text.quoted) ++ "] \x7d".toList

theorem lookup_bind (r : Registry σ) (name : Text) (b : Binding σ) (other : Text) :
    (r.bind name b).lookup other =
      if canonical other = canonical name then some b else r.lookup other :=
  Table.get?_insert _ _ _ _

theorem lookup_unbind (r : Registry σ) (name other : Text) :
    (r.unbind name).lookup other =
      if canonical other = canonical name then none else r.lookup other :=
  Table.get?_erase _ _ _

theorem unregister_eq (r : Registry σ) (name : Text) :
    r.unregister name = (r.contains name, r.unbind name) := by
  rw [unregister, Table.extract_eq]
  rfl

def withOperators (r : Registry σ) : Registry σ :=
  Operator.all.foldl (fun r op => r.bind op.name (.operator op)) r

def standard : Registry σ := empty.withOperators

theorem withOperators_of_bind {P : Registry σ → Prop} {r : Registry σ} (h : P r)
    (hbind : ∀ op r, P r → P (r.bind op.name (.operator op))) : P r.withOperators := by
  unfold withOperators
  induction Operator.all generalizing r with
  | nil => exact h
  | cons op ops ih => exact ih (hbind op r h)

end Registry

inductive MathFunction where
  | mod
  | min
  | max
  | abs
  | sqrt
  | neg
  deriving DecidableEq, Repr

namespace MathFunction

def all : List MathFunction := [mod, min, max, abs, sqrt, neg]

def name : MathFunction → Text
  | mod => ['M', 'O', 'D']
  | min => ['M', 'I', 'N']
  | max => ['M', 'A', 'X']
  | abs => ['A', 'B', 'S']
  | sqrt => ['S', 'Q', 'R', 'T']
  | neg => ['N', 'E', 'G']

def arity : MathFunction → Arity
  | mod => .exact 2
  | min => .atLeast 1
  | max => .atLeast 1
  | abs => .exact 1
  | sqrt => .exact 1
  | neg => .exact 1

def argument (args : List Float) (i : Nat) : Float := args[i]?.getD Number.nan

/-- Only a remainder can fail, and only by a zero divisor. -/
def value (args : List Float) : MathFunction → Except EvaluationError Float
  | mod =>
    if argument args 1 == Number.ofMagnitude false 0 then .error .divisionByZero
    else .ok (Number.remainder (argument args 0) (argument args 1))
  | min => .ok (Number.least args)
  | max => .ok (Number.greatest args)
  | abs => .ok (argument args 0).abs
  | sqrt => .ok (argument args 0).sqrt
  | neg => .ok (-(argument args 0))

def body {σ : Type} (f : MathFunction) : Native σ := fun args => Action.ofExcept (f.value args)

end MathFunction

namespace Registry

variable {σ : Type}

def withMath (r : Registry σ) : StateM (Functions σ) (Registry σ) :=
  MathFunction.all.foldlM (fun r f => r.bindFunction f.name f.arity f.body) r

end Registry

end CallFormula
