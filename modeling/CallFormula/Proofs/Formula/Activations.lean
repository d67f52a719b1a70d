import CallFormula.Formula
import CallFormula.Proofs.Action
import Mathlib.Data.List.Forall2

/-!
A reading that writes down its activations, as a tree.
-/

set_option autoImplicit false

namespace CallFormula

/-- An activation: its depth, the text it is given, and the activations that it begins. -/
inductive Activation where
  | mk (depth : Nat) (text : Text) (inner : List Activation)

namespace Activation

def depth : Activation → Nat
  | .mk depth _ _ => depth

def text : Activation → Text
  | .mk _ text _ => text

def inner : Activation → List Activation
  | .mk _ _ inner => inner

mutual

def all : Activation → List Activation
  | .mk depth text inner => .mk depth text inner :: allOf inner

def allOf : List Activation → List Activation
  | [] => []
  | a :: as => a.all ++ allOf as

end

theorem allOf_eq_flatMap (as : List Activation) : allOf as = as.flatMap all := by
  induction as with
  | nil => rfl
  | cons a as ih => rw [allOf, ih, List.flatMap_cons]

end Activation

variable {σ ρ ε α β : Type}

namespace Action

def beside (x : Action σ ε α) : Action (σ × List ρ) ε α := ExceptT.mk fun (s, records) =>
  let (result, s') := x.run s
  (result, s', records)

/-- Runs a step as an activation, and adds it to those that have begun before. -/
def within (depth : Nat) (text : Text) (x : Action (σ × List Activation) ε α) :
    Action (σ × List Activation) ε α := ExceptT.mk fun (s, before) =>
  let (result, s', inner) := x.run (s, [])
  (result, s', before ++ [.mk depth text inner])

/-- The step runs as `y` does, and adds records with the property. -/
def Logs (x : Action (σ × List ρ) ε α) (y : Action σ ε α) (P : List ρ → Prop) : Prop :=
  ∀ s before, ∃ new, x.run (s, before) = ((y.run s).1, (y.run s).2, before ++ new) ∧ P new

variable {P Q : List ρ → Prop} {x : Action (σ × List ρ) ε α} {y : Action σ ε α}

theorem Logs.mono (h : x.Logs y P) (hPQ : ∀ new, P new → Q new) : x.Logs y Q := by
  intro s before
  obtain ⟨new, hrun, hnew⟩ := h s before
  exact ⟨new, hrun, hPQ new hnew⟩

theorem logs_ofExcept (result : Except ε α) :
    Logs (ofExcept result : Action (σ × List ρ) ε α) (ofExcept result) (· = []) :=
  fun s before => ⟨[], by simp, rfl⟩

theorem logs_beside (y : Action σ ε α) :
    Logs (beside y : Action (σ × List ρ) ε α) y (· = []) :=
  fun s before => ⟨[], by rw [List.append_nil]; rfl, rfl⟩

theorem Logs.within {x : Action (σ × List Activation) ε α} {P : List Activation → Prop}
    (h : x.Logs y P) (depth : Nat) (text : Text) :
    (within depth text x).Logs y fun new => ∃ inner, new = [.mk depth text inner] ∧ P inner := by
  intro s before
  obtain ⟨inner, hrun, hinner⟩ := h s []
  refine ⟨[.mk depth text inner], ?_, inner, rfl, hinner⟩
  have hwithin : (Action.within depth text x).run (s, before) =
      ((x.run (s, [])).1, (x.run (s, [])).2.1,
        before ++ [.mk depth text (x.run (s, [])).2.2]) := rfl
  rw [hwithin, hrun]
  rfl

theorem Logs.bind_silent {f : α → Action (σ × List ρ) ε β} {g : α → Action σ ε β}
    (hx : x.Logs y P) (hf : ∀ a, (f a).Logs (g a) (· = [])) : (x >>= f).Logs (y >>= g) P := by
  intro s before
  obtain ⟨new, hrun, hnew⟩ := hx s before
  refine ⟨new, ?_, hnew⟩
  rw [run_bind, run_bind, hrun]
  generalize y.run s = ran
  obtain ⟨result, s'⟩ := ran
  cases result with
  | error e => rfl
  | ok a =>
    obtain ⟨_, hlater, rfl⟩ := hf a s' (before ++ new)
    rw [List.append_nil] at hlater
    exact hlater

theorem Logs.checked {check : Except ε Unit} (h : check = .ok () → x.Logs y P) :
    (ofExcept check >>= fun _ => x).Logs (ofExcept check >>= fun _ => y) fun new =>
      new = [] ∨ check = .ok () ∧ P new := by
  cases check with
  | error e => exact (logs_ofExcept (.error e)).mono fun new hnew => .inl hnew
  | ok u => exact (h rfl).mono fun new hnew => .inr ⟨rfl, hnew⟩

/-- If each step adds one record, the records of all steps in turn stand for the steps at the front
that have begun. -/
theorem Logs.mapM {γ : Type} {f : γ → Action (σ × List ρ) ε α} {g : γ → Action σ ε α}
    {R : γ → ρ → Prop} {cs : List γ}
    (h : ∀ c ∈ cs, (f c).Logs (g c) fun new => ∃ record, new = [record] ∧ R c record) :
    (cs.mapM f).Logs (cs.mapM g) fun new => ∃ begun, begun <+: cs ∧ List.Forall₂ R begun new := by
  induction cs with
  | nil =>
    exact (logs_ofExcept (.ok [])).mono fun new hnew => ⟨[], List.nil_prefix, hnew ▸ .nil⟩
  | cons c cs ih =>
    have hothers := ih fun d hd => h d (List.mem_cons_of_mem c hd)
    intro s before
    obtain ⟨_, hrun, record, rfl, hrecord⟩ := h c List.mem_cons_self s before
    rw [List.mapM_cons, List.mapM_cons, run_bind, run_bind, hrun]
    generalize (g c).run s = ran
    obtain ⟨result, s'⟩ := ran
    cases result with
    | error e =>
      -- The failing step has begun as well, so its record stands.
      exact ⟨[record], rfl, [c], ⟨cs, rfl⟩, .cons hrecord .nil⟩
    | ok a =>
      have hlater : (cs.mapM f >>= fun as => pure (a :: as)).Logs
          (cs.mapM g >>= fun as => pure (a :: as)) fun new =>
            ∃ begun, begun <+: cs ∧ List.Forall₂ R begun new :=
        hothers.bind_silent fun as => logs_ofExcept (.ok (a :: as))
      obtain ⟨new, hrun, begun, hbegun, hnew⟩ := hlater s' (before ++ [record])
      refine ⟨record :: new, ?_, c :: begun, (List.prefix_cons_inj c).2 hbegun,
        .cons hrecord hnew⟩
      rw [List.append_assoc] at hrun
      exact hrun

end Action

def Piece.args : Piece → List Text
  | .call _ args => args
  | _ => []

namespace Activation

/-- How an activation comes about: it begins others only if its depth is allowed, and then for
arguments of its piece from the first on. -/
inductive IsMade (limit : Option Nat) : Activation → Prop where
  | mk {depth : Nat} {text : Text} {inner : List Activation}
      (hcheck : inner ≠ [] → checkDepth limit depth = .ok ())
      (hdepth : ∀ b ∈ inner, b.depth = depth + 1)
      (htexts : inner.map Activation.text <+: (Piece.ofText text).args)
      (hinner : ∀ b ∈ inner, IsMade limit b) : IsMade limit (.mk depth text inner)

theorem isMade_leaf (limit : Option Nat) (depth : Nat) (text : Text) :
    IsMade limit (.mk depth text []) :=
  .mk (fun h => absurd rfl h) (fun _ h => absurd h List.not_mem_nil) List.nil_prefix
    fun _ h => absurd h List.not_mem_nil

end Activation

namespace Registry

def trace (r : Registry σ) (limit : Option Nat) (depth : Nat) (text : Text) :
    Action (Workbench σ × List Activation) ParseError Tree :=
  Action.within depth text do
    Action.ofExcept (checkDepth limit depth)
    match h : Piece.ofText text with
    | .number t => Action.ofExcept (readLiteral t)
    | .identifier t => pure (.variable t)
    | .malformed t => throw (.malformed t)
    | .call name args =>
      let trees ← args.attach.mapM fun a => r.trace limit (depth + 1) a.1
      Action.beside (r.buildCall name trees)
termination_by text.length
decreasing_by exact Piece.length_lt_of_mem_args h a.2

theorem trace_eq (r : Registry σ) (limit : Option Nat) (depth : Nat) (text : Text) :
    r.trace limit depth text = Action.within depth text (do
      Action.ofExcept (checkDepth limit depth)
      match Piece.ofText text with
      | .number t => Action.ofExcept (readLiteral t)
      | .identifier t => pure (.variable t)
      | .malformed t => throw (.malformed t)
      | .call name args =>
        let trees ← args.mapM (r.trace limit (depth + 1))
        Action.beside (r.buildCall name trees)) := by
  rw [trace]
  congr 2
  funext _
  split <;> rename_i h <;> simp only [h]
  rw [List.mapM_subtype (g := r.trace limit (depth + 1)) fun _ _ => rfl, List.unattach_attach]

/-- Reading is not changed by writing down its activations, and one is written down for each text
that is read. -/
theorem trace_logs (r : Registry σ) (limit : Option Nat) (depth : Nat) (text : Text) :
    (r.trace limit depth text).Logs (r.parseAt limit depth text) fun new =>
      ∃ a : Activation, new = [a] ∧ (a.depth = depth ∧ a.IsMade limit) ∧ a.text = text := by
  have hleaf : ∀ new : List Activation,
      (∃ inner, new = [.mk depth text inner] ∧ (inner = [] ∨ checkDepth limit depth = .ok () ∧
        inner = [])) →
      ∃ a : Activation, new = [a] ∧ (a.depth = depth ∧ a.IsMade limit) ∧ a.text = text := by
    rintro _ ⟨inner, rfl, hinner⟩
    obtain rfl : inner = [] := hinner.elim id And.right
    exact ⟨_, rfl, ⟨rfl, Activation.isMade_leaf limit depth text⟩, rfl⟩
  rw [trace_eq, parseAt_eq]
  cases hp : Piece.ofText text with
  | number t =>
    exact ((Action.Logs.checked fun _ => Action.logs_ofExcept (readLiteral t)).within
      depth text).mono hleaf
  | identifier t =>
    exact ((Action.Logs.checked fun _ => Action.logs_ofExcept (.ok (Tree.variable t))).within
      depth text).mono hleaf
  | malformed t =>
    exact ((Action.Logs.checked fun _ => Action.logs_ofExcept
      (.error (ParseError.malformed t))).within depth text).mono hleaf
  | call name args =>
    have hargs : ∀ a ∈ args, (r.trace limit (depth + 1) a).Logs (r.parseAt limit (depth + 1) a)
        fun new => ∃ b : Activation, new = [b] ∧
          (b.depth = depth + 1 ∧ b.IsMade limit) ∧ b.text = a := fun a ha =>
      have := Piece.length_lt_of_mem_args hp ha
      trace_logs r limit (depth + 1) a
    have hcall := (Action.Logs.mapM hargs).bind_silent fun trees =>
      Action.logs_beside (r.buildCall name trees)
    refine ((Action.Logs.checked fun _ => hcall).within depth text).mono ?_
    rintro _ ⟨inner, rfl, rfl | ⟨hcheck, begun, hbegun, hinner⟩⟩
    · exact hleaf _ ⟨[], rfl, .inl rfl⟩
    -- The activations for the arguments that were begun are told by those arguments.
    · obtain ⟨hmade, htexts⟩ := (List.forall₂_and_left _ _).1 hinner.flip
      have heq : inner.map Activation.text = begun :=
        List.forall₂_eq_eq_eq ▸ List.forall₂_map_left_iff.2 htexts
      refine ⟨_, rfl, ⟨rfl, .mk (fun _ => hcheck) (fun b hb => (hmade b hb).1) ?_ fun b hb =>
        (hmade b hb).2⟩, rfl⟩
      rw [heq, hp]
      exact hbegun
termination_by text.length

end Registry

end CallFormula
