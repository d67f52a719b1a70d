import CallFormula.Function
import CallFormula.Number
import CallFormula.Table
import CallFormula.Text.Capital

set_option autoImplicit false

namespace CallFormula

structure Context where
  values : Table Float

namespace Context

def empty : Context := ⟨.empty⟩

def get? (c : Context) (name : Text) : Option Float := c.values.get? (Text.upper name)

def contains (c : Context) (name : Text) : Bool := c.values.contains (Text.upper name)

def set (c : Context) (name : Text) (value : Float) : Context :=
  ⟨c.values.insert (Text.upper name) value⟩

def remove (c : Context) (name : Text) : Context := ⟨c.values.erase (Text.upper name)⟩

def extract (c : Context) (name : Text) : Option Float × Context :=
  let (value, values) := c.values.extract (Text.upper name)
  (value, ⟨values⟩)

def extend (c : Context) (pairs : List (Text × Float)) : Context :=
  pairs.foldl (fun c p => c.set p.1 p.2) c

def ofPairs (pairs : List (Text × Float)) : Context := empty.extend pairs

def size (c : Context) : Nat := c.values.size

def isEmpty (c : Context) : Bool := c.values.isEmpty

/-- Reads a typed value and writes it to a typed name, both without the blanks around them. A
name must be left; then the value must be a number. -/
def setText (c : Context) (name raw : Text) : Except ContextError (Float × Context) :=
  let name := Text.trim name
  let raw := Text.trim raw
  if name = [] then .error .emptyName
  else
    match Number.read raw with
    | none => .error (.invalidNumber raw)
    | some value => .ok (value, c.set name value)

/-- The same on a context that is kept. The value is written after both checks. -/
def typeIn (name raw : Text) : Action Context ContextError Float := do
  let name := Text.trim name
  let raw := Text.trim raw
  if name = [] then throw .emptyName
  let value ← match Number.read raw with
    | none => throw (.invalidNumber raw)
    | some value => pure value
  modify fun c => c.set name value
  pure value

def sameEntries : List (Text × Float) → List (Text × Float) → Bool
  | [], [] => true
  | (k, v) :: es, (l, w) :: fs => k == l && v == w && sameEntries es fs
  | _, _ => false

/-- Contexts are equal if they give equal values to the same names. One that holds what is no
number is not equal to itself. -/
instance : BEq Context := ⟨fun c d => sameEntries c.values.entries d.values.entries⟩

@[simp] theorem get?_set (c : Context) (name : Text) (value : Float) (other : Text) :
    (c.set name value).get? other =
      if Text.upper other = Text.upper name then some value else c.get? other :=
  Table.get?_insert _ _ _ _

@[simp] theorem get?_remove (c : Context) (name other : Text) :
    (c.remove name).get? other =
      if Text.upper other = Text.upper name then none else c.get? other :=
  Table.get?_erase _ _ _

theorem extract_eq (c : Context) (name : Text) :
    c.extract name = (c.get? name, c.remove name) := by
  rw [extract, Table.extract_eq]
  rfl

theorem run_typeIn (name raw : Text) (c : Context) :
    (typeIn name raw).run c =
      match c.setText name raw with
      | .ok (value, c) => (.ok value, c)
      | .error e => (.error e, c) := by
  rw [typeIn, setText]
  by_cases hname : Text.trim name = []
  · simp only [if_pos hname]
    rfl
  · simp only [if_neg hname]
    cases Number.read (Text.trim raw) <;> rfl

theorem extend_append (c : Context) (ps qs : List (Text × Float)) :
    c.extend (ps ++ qs) = (c.extend ps).extend qs := List.foldl_append

end Context

end CallFormula
