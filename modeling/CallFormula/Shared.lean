import CallFormula.Formula

/-!
The process-wide registry. A formula is read against the registry as it is when the reading starts;
what builders ask for meanwhile is registered when it ends, whether or not it succeeds.
-/

set_option autoImplicit false

namespace CallFormula

structure Shared (σ : Type) where
  registry : Registry σ
  functions : Functions σ

namespace Shared

variable {σ : Type}

def initial : Shared σ := ⟨.standard, .empty⟩

def enter (s : Shared σ) (r : Registration σ) : Shared σ :=
  let (registry, functions) := (s.registry.enter r).run s.functions
  ⟨registry, functions⟩

def enterAll (s : Shared σ) (rs : List (Registration σ)) : Shared σ := rs.foldl enter s

def parse (s : Shared σ) (formula : Text) : StateM σ (Except ParseError Tree × Shared σ) :=
  fun host =>
    let (result, bench) := (s.registry.parse (some defaultLimit) formula).run ⟨host, []⟩
    ((result, s.enterAll bench.requests), bench.host)

def evaluate (s : Shared σ) (formula : Text) (c : Context) :
    StateM σ (Except FormulaError Float × Shared σ) := do
  match ← s.parse formula with
  | (.error e, s) => pure (.error (.parse e), s)
  | (.ok tree, s) =>
    match ← (tree.evaluate s.functions c).run with
    | .error e => pure (.error (.evaluation e), s)
    | .ok value => pure (.ok value, s)

end Shared

end CallFormula
