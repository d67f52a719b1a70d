import CallFormula.Context
import CallFormula.Text.Quoted

/-!
Two trees are equal (`==`) if they have the same shape, equal names, equal handles and numbers that
are equal as floats. So a tree with no number in it differs from itself, and trees that differ only
in the sign of a zero are equal.
-/

set_option autoImplicit false

namespace CallFormula

/-- A formula. A variable keeps its name as it was written, a call the name under which its
function was registered. -/
inductive Tree where
  | number (value : Float)
  | variable (name : Text)
  | binary (left : Tree) (operator : Operator) (right : Tree)
  | call (name : Text) (args : List Tree) (function : Handle)
  deriving Inhabited

namespace Tree

mutual

def same : Tree → Tree → Bool
  | .number v, .number w => v == w
  | .variable m, .variable n => m == n
  | .binary l o r, .binary l' o' r' => same l l' && o == o' && same r r'
  | .call m as f, .call n bs g => m == n && sameList as bs && f == g
  | _, _ => false

def sameList : List Tree → List Tree → Bool
  | [], [] => true
  | a :: as, b :: bs => same a b && sameList as bs
  | _, _ => false

end

instance : BEq Tree := ⟨same⟩

mutual

/-- The depth of the deepest piece of a formula that writes the tree: a leaf and a call without
arguments have height 0. -/
def height : Tree → Nat
  | .number _ => 0
  | .variable _ => 0
  | .binary l _ r => max l.height r.height + 1
  | .call _ args _ => heightBelow args

def heightBelow : List Tree → Nat
  | [] => 0
  | t :: ts => max (t.height + 1) (heightBelow ts)

end

end Tree

def Text.joined (between : Text) : List Text → Text
  | [] => []
  | [t] => t
  | t :: u :: ts => t ++ between ++ joined between (u :: ts)

namespace Tree

mutual

def text : Tree → Text
  | .number value => Number.text value
  | .variable name => name
  | .binary left operator right =>
    operator.name ++ ['('] ++ left.text ++ [',', ' '] ++ right.text ++ [')']
  | .call name args _ => name ++ ['('] ++ Text.joined [',', ' '] (texts args) ++ [')']

def texts : List Tree → List Text
  | [] => []
  | t :: ts => t.text :: texts ts

end

mutual

def structural : Tree → Text
  | .number value => "Number(".toList ++ Number.explicitText value ++ [')']
  | .variable name => "Variable(".toList ++ Text.quoted name ++ [')']
  | .binary left operator right =>
    "BinaryOperation \x7b left: ".toList ++ left.structural ++ ", operator: ".toList ++
      operator.label ++ ", right: ".toList ++ right.structural ++ " \x7d".toList
  | .call name args _ =>
    "FunctionCall \x7b name: ".toList ++ Text.quoted name ++ ", args: [".toList ++
      Text.joined [',', ' '] (structurals args) ++ "], function: NativeFunction \x7d".toList

def structurals : List Tree → List Text
  | [] => []
  | t :: ts => t.structural :: structurals ts

end

end Tree

def Context.value (c : Context) (name : Text) : Except EvaluationError Float :=
  match c.get? name with
  | some value => .ok value
  | none => .error (.undefinedVariable name)

namespace Tree

variable {σ : Type}

mutual

def evaluate (fs : Functions σ) (c : Context) : Tree → Evaluation σ Float
  | .number value => pure value
  | .variable name => Action.ofExcept (c.value name)
  | .binary left operator right => do
    let x ← left.evaluate fs c
    let y ← right.evaluate fs c
    Action.ofExcept (operator.apply x y)
  | .call _ args function => do
    let xs ← evaluateAll fs c args
    fs.call function xs

def evaluateAll (fs : Functions σ) (c : Context) : List Tree → Evaluation σ (List Float)
  | [] => pure []
  | t :: ts => do
    let x ← t.evaluate fs c
    let xs ← evaluateAll fs c ts
    pure (x :: xs)

end

end Tree

end CallFormula
