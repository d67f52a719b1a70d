import CallFormula.Number

/-!
Operators, and functions of the host. A host keeps a state of its own choice, which its functions
may read and change. Trees hold handles, and a store says what each handle computes; handles are
issued one by one and never again.
-/

set_option autoImplicit false

namespace CallFormula

inductive Arity where
  | exact (n : Nat)
  | atLeast (n : Nat)
  | any
  deriving DecidableEq, Repr

namespace Arity

def accepts : Arity → Nat → Bool
  | exact n, count => count == n
  | atLeast n, count => n ≤ count
  | any, _ => true

def text : Arity → Text
  | exact n => Number.digits n
  | atLeast n => "at least ".toList ++ Number.digits n
  | any => "any number of".toList

@[simp] theorem accepts_exact (n count : Nat) :
    (exact n).accepts count = true ↔ count = n := beq_iff_eq

@[simp] theorem accepts_atLeast (n count : Nat) :
    (atLeast n).accepts count = true ↔ n ≤ count := by simp [accepts]

end Arity

inductive ParseError where
  | unknownOperator (name : Text)
  | arityMismatch (operator : Text) (expected : Text) (found : Nat)
  | invalidArguments (operator : Text) (reason : Text)
  | malformed (text : Text)
  | nestingTooDeep (limit : Nat)
  deriving DecidableEq, Repr

def ParseError.message : ParseError → Text
  | .unknownOperator name => "Unknown operator/function: ".toList ++ name
  | .arityMismatch operator expected found =>
    operator ++ " requires ".toList ++ expected ++ " arguments, got ".toList ++
      Number.digits found
  | .invalidArguments operator reason =>
    "Invalid arguments for ".toList ++ operator ++ ": ".toList ++ reason
  | .malformed text => "Cannot parse expression: ".toList ++ text
  | .nestingTooDeep limit =>
    "Expression nesting exceeds the limit of ".toList ++ Number.digits limit ++ " levels".toList

inductive EvaluationError where
  | undefinedVariable (name : Text)
  | divisionByZero
  | functionFailed (name : Text) (reason : Text)
  deriving DecidableEq, Repr

def EvaluationError.message : EvaluationError → Text
  | .undefinedVariable name => "Undefined variable: ".toList ++ name
  | .divisionByZero => "Division by zero".toList
  | .functionFailed name reason => name ++ " failed: ".toList ++ reason

inductive ContextError where
  | emptyName
  | invalidNumber (text : Text)
  deriving DecidableEq, Repr

def ContextError.message : ContextError → Text
  | .emptyName => "Variable name must not be empty".toList
  | .invalidNumber text => "Invalid number: ".toList ++ text

inductive FormulaError where
  | parse (cause : ParseError)
  | evaluation (cause : EvaluationError)
  deriving DecidableEq, Repr

def FormulaError.message : FormulaError → Text
  | .parse cause => cause.message
  | .evaluation cause => cause.message

inductive Operator where
  | add
  | subtract
  | multiply
  | divide
  | power
  deriving DecidableEq, Repr

namespace Operator

def all : List Operator := [.add, .subtract, .multiply, .divide, .power]

def name : Operator → Text
  | add => ['A', 'D', 'D']
  | subtract => ['S', 'U', 'B', 'T', 'R', 'A', 'C', 'T']
  | multiply => ['M', 'U', 'L', 'T', 'I', 'P', 'L', 'Y']
  | divide => ['D', 'I', 'V', 'I', 'D', 'E']
  | power => ['P', 'O', 'W', 'E', 'R']

def label : Operator → Text
  | add => "Add".toList
  | subtract => "Subtract".toList
  | multiply => "Multiply".toList
  | divide => "Divide".toList
  | power => "Power".toList

/-- Only division can fail, and only by a zero of either sign. A power that has no real value is
no number. -/
def apply : Operator → Float → Float → Except EvaluationError Float
  | add, x, y => .ok (x + y)
  | subtract, x, y => .ok (x - y)
  | multiply, x, y => .ok (x * y)
  | divide, x, y => if y == Number.ofMagnitude false 0 then .error .divisionByZero else .ok (x / y)
  | power, x, y => .ok (x.pow y)

end Operator

/-- A step that works on a state and may fail. -/
abbrev Action (σ ε α : Type) := ExceptT ε (StateM σ) α

def Action.ofExcept {σ ε α : Type} (result : Except ε α) : Action σ ε α :=
  ExceptT.mk (pure result)

abbrev Evaluation (σ α : Type) := Action σ EvaluationError α

abbrev Native (σ : Type) := List Float → Evaluation σ Float

structure Handle where
  number : Nat
  deriving DecidableEq, Repr

/-- What the issued handles compute: handle `n` the body at place `n`. -/
structure Functions (σ : Type) where
  bodies : List (Native σ)

namespace Functions

variable {σ : Type}

def empty : Functions σ := ⟨[]⟩

def add (fs : Functions σ) (body : Native σ) : Handle × Functions σ :=
  (⟨fs.bodies.length⟩, ⟨fs.bodies ++ [body]⟩)

/-- Calls the function of a handle. A handle that was not issued here computes no number. -/
def call (fs : Functions σ) (h : Handle) (args : List Float) : Evaluation σ Float :=
  match fs.bodies[h.number]? with
  | some body => body args
  | none => pure Number.nan

def Issued (fs : Functions σ) (h : Handle) : Prop := h.number < fs.bodies.length

end Functions

end CallFormula
