import CallFormula.Proofs.Formula.Assembly
import CallFormula.Shared

/-!
The live process registers what a builder asks for at once and reads on against the snapshot.
-/

set_option autoImplicit false

namespace CallFormula

variable {σ : Type}

def Request.name {β : Type} : Request σ β → Text
  | .bind name _ => name
  | .function name _ _ => name

namespace Shared

def bindingOf (s : Shared σ) : Registration σ → Binding σ
  | .bind _ b => b
  | .function _ arity _ => .function arity ⟨s.functions.bodies.length⟩

theorem lookup_enter (s : Shared σ) (q : Registration σ) (name : Text) :
    (s.enter q).registry.lookup name =
      if canonical name = canonical q.name then some (s.bindingOf q)
      else s.registry.lookup name := by
  cases q with
  | bind other b => exact Registry.lookup_bind _ _ _ _
  | function other arity body => exact Registry.lookup_bind _ _ _ _

theorem enterAll_append (s : Shared σ) (before after : List (Registration σ)) :
    s.enterAll (before ++ after) = (s.enterAll before).enterAll after := List.foldl_append

/-- The bindings that registrations make one after the other, by their keys. -/
def entered (s : Shared σ) : List (Registration σ) → List (Text × Binding σ)
  | [] => []
  | q :: qs => (canonical q.name, s.bindingOf q) :: (s.enter q).entered qs

/-- The last registration of a name counts, and where there is none, the binding from before. -/
theorem lookup_enterAll (s : Shared σ) (qs : List (Registration σ)) (name : Text) :
    (s.enterAll qs).registry.lookup name =
      ((s.entered qs).reverse.lookup (canonical name)).or (s.registry.lookup name) := by
  induction qs generalizing s with
  | nil => rfl
  | cons q qs ih =>
    have henter := lookup_enter s q name
    have hstart : (s.enterAll (q :: qs)).registry.lookup name =
        ((s.enter q).enterAll qs).registry.lookup name := rfl
    rw [hstart, ih, henter, entered, List.reverse_cons, List.lookup_append, Option.or_assoc]
    congr 1
    rw [Table.lookup_cons_if]
    split <;> rfl

end Shared

def Binding.requests (args : List Tree) (host : σ) : Binding σ → List (Registration σ)
  | .operator _ => []
  | .function _ _ => []
  | .builder build => (build args host).requests

theorem Binding.requests_build (b : Binding σ) (key : Text) (args : List Tree)
    (bench : Workbench σ) :
    ((b.build key args).run bench).2.requests =
      bench.requests ++ b.requests args bench.host := by
  cases b with
  | operator op => exact (List.append_nil _).symm
  | function arity handle => exact (List.append_nil _).symm
  | builder build => rfl

def Registry.requests (r : Registry σ) (i : Invocation σ) : List (Registration σ) :=
  match r.bindings.get? i.key with
  | some b => b.requests i.args i.host
  | none => []

structure Process (σ : Type) where
  shared : Shared σ
  host : σ

/-- Builds a call with a binding. What a builder asks for is registered at once. -/
def Binding.buildLive (key : Text) (args : List Tree) :
    Binding σ → Action (Process σ) ParseError Tree
  | .operator op => Action.ofExcept (op.build args)
  | .function arity handle => Action.ofExcept (arity.build key handle args)
  | .builder build => ExceptT.mk fun p =>
    let built := build args p.host
    (built.result, ⟨p.shared.enterAll built.requests, built.host⟩)

def Registry.buildLive (snapshot : Registry σ) (name : Text) (args : List Tree) :
    Action (Process σ) ParseError Tree :=
  match snapshot.lookup name with
  | none => throw (.unknownOperator name)
  | some b => b.buildLive (canonical name) args

def Process.parseLive (formula : Text) : StateM (Process σ) (Except ParseError Tree) := fun p =>
  ((Sketch.ofText formula).walk p.shared.registry.buildLive (some defaultLimit) 0).run p

/-- The state of a reading that collects requests, and of the live process that it stands for. -/
structure Stands (s : Shared σ) (w : Witnessed σ) (p : Process σ) : Prop where
  process : p = ⟨s.enterAll w.1.requests, w.1.host⟩
  requests : w.1.requests = w.2.flatMap s.registry.requests

theorem Binding.build_live (b : Binding σ) (key : Text) (args : List Tree) (bench : Workbench σ)
    (s : Shared σ) :
    (b.buildLive key args).run ⟨s, bench.host⟩ =
      (((b.build key args).run bench).1,
        ⟨s.enterAll (b.requests args bench.host), ((b.build key args).run bench).2.host⟩) := by
  cases b with
  | operator op => rfl
  | function arity handle => rfl
  | builder build => rfl

theorem Shared.invoke_matches_buildLive (s : Shared σ) (name : Text) (args : List Tree) :
    (s.registry.invoke name args).Matches (Stands s) (s.registry.buildLive name args) := by
  rintro ⟨bench, invocations⟩ _ ⟨rfl, hrequests⟩
  rw [Registry.invoke, Registry.buildLive]
  cases hb : s.registry.lookup name with
  | none => exact ⟨rfl, rfl, hrequests⟩
  | some b =>
    have hget : s.registry.bindings.get? (canonical name) = some b := hb
    have hmore := b.requests_build (canonical name) args bench
    have hone : s.registry.requests ⟨canonical name, args, bench.host⟩ =
        b.requests args bench.host := by simp only [Registry.requests, hget]
    have hsplit : List.flatMap s.registry.requests
        (invocations ++ [⟨canonical name, args, bench.host⟩]) =
          bench.requests ++ b.requests args bench.host := by
      rw [List.flatMap_append, ← hrequests, List.flatMap_singleton, hone]
    dsimp only
    rw [Binding.build_live, ← enterAll_append, ← hmore]
    exact ⟨rfl, rfl, hmore.trans hsplit.symm⟩

/-- A formula is read against the snapshot of its start; what its bindings ask for is registered in
their order. -/
theorem Shared.parse_eq_parseLive (s : Shared σ) (formula : Text) (host : σ) :
    let parsed := (s.registry.parse (some defaultLimit) formula).run ⟨host, []⟩
    ∃ invocations,
      (s.registry.recorded.parse (some defaultLimit) formula).run ⟨(⟨host, []⟩, []), []⟩ =
        (parsed.1, ⟨(parsed.2, invocations), []⟩) ∧
      Covers parsed.1 (invocations.map Invocation.shape) (Sketch.ofText formula).calls ∧
      let registered := invocations.flatMap s.registry.requests
      let after := s.enterAll registered
      (s.parse formula).run host = ((parsed.1, after), parsed.2.host) ∧
      (Process.parseLive formula).run ⟨s, host⟩ = (parsed.1, ⟨after, parsed.2.host⟩) ∧
      (∀ name, after.registry.lookup name =
        ((s.entered registered).reverse.lookup (canonical name)).or (s.registry.lookup name)) ∧
      ∀ next, ((after.parse next).run parsed.2.host).1.1 =
        ((after.registry.parse (some defaultLimit) next).run ⟨parsed.2.host, []⟩).1 := by
  intro parsed
  obtain ⟨invocations, hrecorded, hwalk, hcalls⟩ :=
    s.registry.exists_invocations (some defaultLimit) formula ⟨host, []⟩
  obtain ⟨hresult, hprocess, hrequests⟩ := Sketch.walk_matches s.invoke_matches_buildLive
    (some defaultLimit) 0 (Sketch.ofText formula) (⟨host, []⟩, []) ⟨s, host⟩ ⟨rfl, rfl⟩
  rw [hwalk] at hresult hprocess hrequests
  refine ⟨invocations, hrecorded, hcalls, ?_, ?_, s.lookup_enterAll _, fun next => rfl⟩
  · rw [← hrequests]
    rfl
  · rw [← hrequests]
    exact Prod.ext hresult.symm hprocess

end CallFormula
