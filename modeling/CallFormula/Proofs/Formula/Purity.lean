import CallFormula.Formula
import CallFormula.Proofs.Action
import CallFormula.Text.Capital
import Mathlib

set_option autoImplicit false

namespace CallFormula

theorem Except.mapM_eq_ok_iff {ε α β : Type} {g : α → Except ε β} {as : List α} {bs : List β} :
    as.mapM g = .ok bs ↔ List.Forall₂ (fun a b => g a = .ok b) as bs := by
  constructor
  · intro h
    induction as generalizing bs with
    | nil =>
      cases h
      exact .nil
    | cons a as ih =>
      rw [List.mapM_cons] at h
      cases hhead : g a with
      | error e =>
        rw [hhead] at h
        cases h
      | ok b =>
        cases htail : as.mapM g with
        | error e =>
          rw [hhead, htail] at h
          cases h
        | ok cs =>
          rw [hhead, htail] at h
          cases h
          exact .cons hhead (ih htail)
  · intro h
    induction h with
    | nil => rfl
    | cons hhead _ ih =>
      rw [List.mapM_cons, hhead, ih]
      rfl

theorem Except.exists_of_mapM_eq_error {ε α β : Type} {g : α → Except ε β} {as : List α} {e : ε}
    (h : as.mapM g = .error e) : ∃ a ∈ as, g a = .error e := by
  induction as with
  | nil => cases h
  | cons a as ih =>
    rw [List.mapM_cons] at h
    cases hhead : g a with
    | error e' =>
      rw [hhead] at h
      cases h
      exact ⟨a, List.mem_cons_self, hhead⟩
    | ok b =>
      cases htail : as.mapM g with
      | error e' =>
        rw [hhead, htail] at h
        cases h
        obtain ⟨c, hc, hfail⟩ := ih htail
        exact ⟨c, List.mem_cons_of_mem a hc, hfail⟩
      | ok bs =>
        rw [hhead, htail] at h
        cases h

theorem Action.mapM_eq_pure {τ ε α β : Type} {f : α → Action τ ε β} {as : List α} {bs : List β}
    (h : List.Forall₂ (fun a b => f a = pure b) as bs) : as.mapM f = pure bs := by
  induction h with
  | nil => rfl
  | cons hhead _ ih => rw [List.mapM_cons, hhead, ih, pure_bind, pure_bind]

/-- A binding whose node depends on the arguments alone, and that leaves nothing behind. -/
def Binding.IsPure {σ : Type} (b : Binding σ) : Prop :=
  ∀ key args, ∃ result, b.build key args = Action.ofExcept result

theorem Binding.isPure_operator {σ : Type} (op : Operator) :
    (Binding.operator op : Binding σ).IsPure := fun _ args => ⟨op.build args, rfl⟩

theorem Binding.isPure_function {σ : Type} (arity : Arity) (handle : Handle) :
    (Binding.function arity handle : Binding σ).IsPure :=
  fun key args => ⟨arity.build key handle args, rfl⟩

namespace Registry

variable {σ : Type} {r : Registry σ}

def IsPure (r : Registry σ) : Prop := ∀ name b, r.lookup name = some b → b.IsPure

theorem isPure_empty : (empty : Registry σ).IsPure := fun _ _ h => by cases h

theorem IsPure.bind (h : r.IsPure) (name : Text) {b : Binding σ} (hb : b.IsPure) :
    (r.bind name b).IsPure := by
  intro other c hc
  rw [lookup_bind] at hc
  split at hc
  · cases hc
    exact hb
  · exact h other c hc

theorem isPure_standard : (standard : Registry σ).IsPure :=
  withOperators_of_bind isPure_empty fun op _ h => h.bind op.name (Binding.isPure_operator op)

theorem IsPure.exists_buildCall (h : r.IsPure) (name : Text) (args : List Tree) :
    ∃ result, r.buildCall name args = Action.ofExcept result := by
  unfold buildCall
  cases hb : r.lookup name with
  | none => exact ⟨_, Action.throw_eq_ofExcept _⟩
  | some b => exact h name b hb _ _

theorem IsPure.exists_parseAt (h : r.IsPure) (limit : Option Nat) (depth : Nat) (text : Text) :
    ∃ result, r.parseAt limit depth text = Action.ofExcept result := by
  rw [parseAt_eq]
  cases checkDepth limit depth with
  | error e => exact ⟨_, Action.ofExcept_error_bind e _⟩
  | ok _ =>
    rw [Action.ofExcept_ok_bind]
    cases hp : Piece.ofText text with
    | number t => exact ⟨_, rfl⟩
    | identifier t => exact ⟨_, Action.pure_eq_ofExcept _⟩
    | malformed t => exact ⟨_, Action.throw_eq_ofExcept _⟩
    | call name args =>
      have hargs : ∀ a ∈ args, ∃ result, r.parseAt limit (depth + 1) a = Action.ofExcept result :=
        fun a ha =>
          have := Piece.length_lt_of_mem_args hp ha
          h.exists_parseAt limit (depth + 1) a
      choose! g hg using hargs
      dsimp only
      rw [Action.ofExcept_mapM _ g hg]
      cases args.mapM g with
      | error e => exact ⟨_, Action.ofExcept_error_bind e _⟩
      | ok trees =>
        rw [Action.ofExcept_ok_bind]
        exact h.exists_buildCall name trees
termination_by text.length

theorem checkDepth_eq_ok_iff {m depth : Nat} : checkDepth (some m) depth = .ok () ↔ depth ≤ m := by
  simp only [checkDepth]
  split <;> simp <;> omega

theorem checkDepth_zero (limit : Option Nat) : checkDepth limit 0 = .ok () := by
  cases limit <;> rfl

theorem parse_of_malformed {x t : Text} (h : Piece.ofText x = .malformed t)
    (limit : Option Nat) : r.parse limit x = throw (.malformed t) := by
  rw [parse, parseAt_eq, checkDepth_zero, Action.ofExcept_ok_bind, h]

theorem parse_of_number {x t : Text} (h : Piece.ofText x = .number t) (limit : Option Nat) :
    r.parse limit x = Action.ofExcept (readLiteral t) := by
  rw [parse, parseAt_eq, checkDepth_zero, Action.ofExcept_ok_bind, h]

/-- What it takes to read a text: its depth is allowed, and as a call it has arguments that can be
read and a name that builds. -/
theorem parseAt_eq_pure_iff_of_checkDepth (h : r.IsPure) (bench : Workbench σ) {limit : Option Nat}
    {depth : Nat} {text : Text} {tree : Tree} :
    r.parseAt limit depth text = pure tree ↔ checkDepth limit depth = .ok () ∧
      match Piece.ofText text with
      | .number t => readLiteral t = .ok tree
      | .identifier t => tree = .variable t
      | .malformed _ => False
      | .call name args => ∃ trees,
          List.Forall₂ (fun a t => r.parseAt limit (depth + 1) a = pure t) args trees ∧
            r.buildCall name trees = pure tree := by
  rw [parseAt_eq, Action.pure_eq_ofExcept]
  cases checkDepth limit depth with
  | error e => simp [Action.ofExcept_inj bench]
  | ok _ =>
    rw [Action.ofExcept_ok_bind]
    cases Piece.ofText text with
    | number t => simp [Action.ofExcept_inj bench]
    | identifier t => simp [Action.pure_eq_ofExcept, Action.ofExcept_inj bench, eq_comm]
    | malformed t => simp [Action.throw_eq_ofExcept, Action.ofExcept_inj bench]
    | call name args =>
      choose g hg using h.exists_parseAt limit (depth + 1)
      choose build hbuild using h.exists_buildCall name
      simp only [Action.ofExcept_mapM _ g fun a _ => hg a, hg, hbuild, Action.pure_eq_ofExcept,
        Action.ofExcept_inj bench, true_and, ← Except.mapM_eq_ok_iff]
      cases args.mapM g with
      | error e => simp [Action.ofExcept_inj bench]
      | ok trees => simp [Action.ofExcept_inj bench]

theorem parseAt_eq_pure_iff (h : r.IsPure) (bench : Workbench σ) {m depth : Nat} {text : Text}
    {tree : Tree} :
    r.parseAt (some m) depth text = pure tree ↔ depth ≤ m ∧
      match Piece.ofText text with
      | .number t => readLiteral t = .ok tree
      | .identifier t => tree = .variable t
      | .malformed _ => False
      | .call name args => ∃ trees,
          List.Forall₂ (fun a t => r.parseAt (some m) (depth + 1) a = pure t) args trees ∧
            r.buildCall name trees = pure tree := by
  rw [parseAt_eq_pure_iff_of_checkDepth h bench, checkDepth_eq_ok_iff]

theorem parseAt_of_trim_eq (r : Registry σ) (limit : Option Nat) (depth : Nat) {s t : Text}
    (h : Text.trim s = Text.trim t) : r.parseAt limit depth s = r.parseAt limit depth t := by
  have hpiece : Piece.ofText s = Piece.ofText t := by simp only [Piece.ofText, h]
  rw [parseAt_eq, parseAt_eq, hpiece]

theorem parseAt_trim (r : Registry σ) (limit : Option Nat) (depth : Nat) (s : Text) :
    r.parseAt limit depth (Text.trim s) = r.parseAt limit depth s :=
  r.parseAt_of_trim_eq limit depth (Text.trim_trim s)

theorem IsPure.exists_parse (h : r.IsPure) (limit : Option Nat) (text : Text) :
    ∃ result, r.parse limit text = Action.ofExcept result := h.exists_parseAt limit 0 text

theorem IsPure.run_parse_eq_ok_iff (h : r.IsPure) (bench : Workbench σ) {limit : Option Nat}
    {text : Text} {tree : Tree} :
    ((r.parse limit text).run bench).1 = .ok tree ↔ r.parseAt limit 0 text = pure tree := by
  obtain ⟨result, hr⟩ := h.exists_parse limit text
  rw [hr, Action.run_ofExcept, Action.pure_eq_ofExcept, show r.parseAt limit 0 text = _ from hr,
    Action.ofExcept_inj bench]

end Registry

end CallFormula
