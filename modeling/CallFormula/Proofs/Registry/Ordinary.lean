import CallFormula.Proofs.Formula.Purity
import CallFormula.Proofs.Registry.Names

set_option autoImplicit false

namespace CallFormula

variable {σ : Type}

def Binding.IsNative : Binding σ → Prop
  | .operator _ => True
  | .function _ _ => True
  | .builder _ => False

namespace Registry

def IsNative (r : Registry σ) : Prop := ∀ key b, r.bindings.get? key = some b → b.IsNative

variable {r : Registry σ}

theorem isNative_empty : (empty : Registry σ).IsNative := fun _ _ h => by cases h

theorem IsNative.bind (h : r.IsNative) (name : Text) {b : Binding σ} (hb : b.IsNative) :
    (r.bind name b).IsNative := by
  intro key b' hb'
  rw [Registry.bind, Table.get?_insert] at hb'
  split at hb'
  · cases hb'
    exact hb
  · exact h key b' hb'

theorem isNative_standard : (standard : Registry σ).IsNative :=
  withOperators_of_bind isNative_empty fun op _ h => h.bind op.name trivial

theorem buildCall_of_none {name : Text} (h : r.lookup name = none) (args : List Tree) :
    r.buildCall name args = Action.ofExcept (.error (.unknownOperator name)) := by
  rw [buildCall, h]
  rfl

theorem buildCall_of_operator {name : Text} {op : Operator}
    (h : r.lookup name = some (.operator op)) (args : List Tree) :
    r.buildCall name args = Action.ofExcept (op.build args) := by
  rw [buildCall, h]
  rfl

theorem buildCall_of_function {name : Text} {arity : Arity} {handle : Handle}
    (h : r.lookup name = some (.function arity handle)) (args : List Tree) :
    r.buildCall name args = Action.ofExcept (arity.build (canonical name) handle args) := by
  rw [buildCall, h]
  rfl

inductive Names (r : Registry σ) (name : Text) : Prop where
  | nothing (h : r.lookup name = none)
  | operator (op : Operator) (h : r.lookup name = some (.operator op))
  | function (arity : Arity) (handle : Handle) (h : r.lookup name = some (.function arity handle))

theorem IsNative.names (h : r.IsNative) (name : Text) : r.Names name := by
  cases hb : r.lookup name with
  | none => exact .nothing hb
  | some b =>
    cases b with
    | operator op => exact .operator op hb
    | function arity handle => exact .function arity handle hb
    | builder build => exact (h _ _ hb).elim

end Registry

theorem Operator.build_eq_ok_iff {op : Operator} {args : List Tree} {tree : Tree} :
    op.build args = .ok tree ↔
      ∃ left right, args = [left, right] ∧ tree = .binary left op right := by
  constructor
  · intro h
    match args, h with
    | [left, right], h =>
      cases h
      exact ⟨left, right, rfl, rfl⟩
  · rintro ⟨left, right, rfl, rfl⟩
    rfl

theorem Operator.eq_of_build {op : Operator} {args : List Tree} {e : ParseError}
    (h : op.build args = .error e) :
    args.length ≠ 2 ∧ e = .arityMismatch op.name (Number.digits 2) args.length := by
  match args, h with
  | [], h => exact ⟨nofun, (Except.error.inj h).symm⟩
  | [_], h => exact ⟨nofun, (Except.error.inj h).symm⟩
  | _ :: _ :: _ :: _, h => exact ⟨nofun, (Except.error.inj h).symm⟩

theorem Arity.build_eq_ok_iff {arity : Arity} {key : Text} {handle : Handle} {args : List Tree}
    {tree : Tree} :
    arity.build key handle args = .ok tree ↔
      arity.accepts args.length = true ∧ tree = .call key args handle := by
  rw [Arity.build]
  split
  · rename_i haccepts
    simp [haccepts, eq_comm]
  · rename_i haccepts
    simp [haccepts]

theorem Arity.eq_of_build {arity : Arity} {key : Text} {handle : Handle} {args : List Tree}
    {e : ParseError} (h : arity.build key handle args = .error e) :
    arity.accepts args.length = false ∧ e = .arityMismatch key arity.text args.length := by
  rw [Arity.build] at h
  split at h
  · cases h
  · next haccepts => exact ⟨eq_false_of_ne_true haccepts, (Except.error.inj h).symm⟩

namespace Registry

variable {r : Registry σ}

/-- The operators under their own names, and besides them functions of the host under names without
brackets and commas. -/
structure IsOrdinary (r : Registry σ) : Prop where
  operators : ∀ op : Operator, r.lookup op.name = some (.operator op)
  functions : ∀ key b, r.bindings.get? key = some b → (∀ op : Operator, key ≠ op.name) →
    ∃ name arity handle, key = canonical name ∧ b = .function arity handle ∧ key ≠ [] ∧
      ∀ c ∈ key, Piece.IsPlainChar c

theorem get?_of_lookup {name : Text} {b : Binding σ} (h : r.lookup name = some b) :
    r.bindings.get? (canonical name) = some b := h

theorem IsOrdinary.eq_operator (h : r.IsOrdinary) {op : Operator} {b : Binding σ}
    (hb : r.bindings.get? op.name = some b) : b = .operator op := by
  have hop := get?_of_lookup (h.operators op)
  rw [canonical_operator_name, hb] at hop
  exact Option.some.inj hop

theorem IsOrdinary.isPure (h : r.IsOrdinary) : r.IsPure := by
  intro name b hb
  by_cases hname : ∃ op : Operator, canonical name = op.name
  · obtain ⟨op, hop⟩ := hname
    have hget := get?_of_lookup hb
    rw [hop] at hget
    rw [h.eq_operator hget]
    exact Binding.isPure_operator op
  · obtain ⟨_, arity, handle, _, rfl, _⟩ :=
      h.functions _ b (get?_of_lookup hb) fun op hop => hname ⟨op, hop⟩
    exact Binding.isPure_function arity handle

theorem IsOrdinary.isPlain (h : r.IsOrdinary) : r.IsPlain := by
  intro key hkey
  rw [names, Table.mem_keys_iff, Table.contains, Option.isSome_iff_exists] at hkey
  obtain ⟨b, hb⟩ := hkey
  by_cases hname : ∃ op : Operator, key = op.name
  · obtain ⟨op, rfl⟩ := hname
    exact isPlainChar_of_mem_operator_name op
  · obtain ⟨_, _, _, _, _, _, hplain⟩ := h.functions key b hb fun op hop => hname ⟨op, hop⟩
    exact hplain

theorem IsOrdinary.canonical_eq (h : r.IsOrdinary) {key : Text} {arity : Arity} {handle : Handle}
    (hb : r.bindings.get? key = some (.function arity handle)) :
    canonical key = key ∧ key ≠ [] ∧ ∀ c ∈ key, Piece.IsPlainChar c := by
  have hkey : ∀ op : Operator, key ≠ op.name := by
    intro op hop
    rw [hop] at hb
    cases h.eq_operator hb
  obtain ⟨name, _, _, rfl, _, hne, hplain⟩ := h.functions key _ hb hkey
  exact ⟨canonical_canonical name, hne, hplain⟩

/-- Every node that an ordinary registry builds is one of an operator or of a function. -/
theorem IsOrdinary.build_eq_pure (h : r.IsOrdinary) (bench : Workbench σ) {name : Text}
    {b : Binding σ} {args : List Tree} {tree : Tree} (hb : r.lookup name = some b)
    (hbuild : b.build (canonical name) args = pure tree) :
    (∃ op left right, args = [left, right] ∧ tree = .binary left op right) ∨
      ∃ arity handle, r.bindings.get? (canonical name) = some (.function arity handle) ∧
        arity.accepts args.length = true ∧ tree = .call (canonical name) args handle := by
  rw [Action.pure_eq_ofExcept] at hbuild
  by_cases hname : ∃ op : Operator, canonical name = op.name
  · obtain ⟨op, hop⟩ := hname
    have hget := get?_of_lookup hb
    rw [hop] at hget
    rw [h.eq_operator hget, Binding.build, Action.ofExcept_inj bench] at hbuild
    left
    match args, hbuild with
    | [left, right], hbuild =>
      cases hbuild
      exact ⟨op, left, right, rfl, rfl⟩
  · obtain ⟨_, arity, handle, _, rfl, _⟩ :=
      h.functions _ b (get?_of_lookup hb) fun op hop => hname ⟨op, hop⟩
    rw [Binding.build, Action.ofExcept_inj bench, Arity.build] at hbuild
    right
    split at hbuild
    · rename_i haccepts
      cases hbuild
      exact ⟨arity, handle, get?_of_lookup hb, haccepts, rfl⟩
    · cases hbuild

theorem lookup_withOperators (op : Operator) :
    r.withOperators.lookup op.name = some (.operator op) := by
  simp only [withOperators, Operator.all, List.foldl_cons, List.foldl_nil, lookup_bind,
    canonical_operator_name]
  cases op <;> rfl

theorem lookup_standard_add :
    (standard : Registry σ).lookup "add".toList = some (.operator .add) := by
  have hname : canonical "add".toList = canonical Operator.add.name := by decide +kernel
  rw [lookup, hname]
  exact lookup_withOperators .add

theorem get?_withOperators {key : Text} {b : Binding σ} (hkey : ∀ op : Operator, key ≠ op.name)
    (h : r.withOperators.bindings.get? key = some b) : r.bindings.get? key = some b := by
  simpa [withOperators, Operator.all, bind, hkey] using h

theorem isOrdinary_standard : (standard : Registry σ).IsOrdinary where
  operators op := lookup_withOperators op
  functions key b hb hkey := by cases get?_withOperators hkey hb

theorem IsOrdinary.bind_function (h : r.IsOrdinary) {name : Text} (hne : canonical name ≠ [])
    (hplain : ∀ c ∈ canonical name, Piece.IsPlainChar c)
    (hname : ∀ op : Operator, canonical name ≠ op.name) (arity : Arity) (handle : Handle) :
    (r.bind name (.function arity handle)).IsOrdinary where
  operators op := by
    rw [lookup_bind, canonical_operator_name, if_neg (hname op).symm]
    exact h.operators op
  functions key b hb hkey := by
    rw [bind, Table.get?_insert] at hb
    split at hb
    · rename_i heq
      cases hb
      exact ⟨name, arity, handle, heq, rfl, heq ▸ hne, heq ▸ hplain⟩
    · exact h.functions key b hb hkey

end Registry

end CallFormula
