import CallFormula.Formula
import CallFormula.Proofs.Action
import Mathlib.Data.List.Forall2

/-!
Sketches: formulas cut into pieces all the way down, with no registry and no limit. Reading a text
is walking its sketch (`parseAt_eq_walk`).
-/

set_option autoImplicit false

namespace CallFormula

theorem readLiteral_eq_ok_iff {t : Text} {tree : Tree} :
    readLiteral t = .ok tree ↔
      ∃ value, Number.read t = some value ∧ value.isFinite = true ∧ tree = .number value := by
  unfold readLiteral
  cases Number.read t with
  | none => simp
  | some value =>
    by_cases hv : value.isFinite = true
    · simp only [hv, if_true, Except.ok.injEq, Option.some.injEq, exists_eq_left', true_and]
      exact eq_comm
    · simp [hv]

theorem readLiteral_eq_error {t : Text} {e : ParseError} (h : readLiteral t = .error e) :
    e = .malformed t := by
  unfold readLiteral at h
  split at h
  · split at h
    · cases h
    · cases h
      rfl
  · cases h
    rfl

theorem readLiteral_of_not_finite {t : Text} {value : Float} (hread : Number.read t = some value)
    (hvalue : ¬value.isFinite = true) : readLiteral t = .error (.malformed t) := by
  simp only [readLiteral, hread, if_neg hvalue]

inductive Sketch where
  | number (text : Text)
  | identifier (text : Text)
  | malformed (text : Text)
  | call (name : Text) (args : List Sketch)

namespace Sketch

def ofText (text : Text) : Sketch :=
  match _h : Piece.ofText text with
  | .number t => .number t
  | .identifier t => .identifier t
  | .malformed t => .malformed t
  | .call name args => .call name (args.attach.map fun a => ofText a.1)
termination_by text.length
decreasing_by exact Piece.length_lt_of_mem_args _h a.2

theorem ofText_eq (text : Text) :
    ofText text =
      match Piece.ofText text with
      | .number t => .number t
      | .identifier t => .identifier t
      | .malformed t => .malformed t
      | .call name args => .call name (args.map ofText) := by
  rw [ofText]
  split <;> rename_i h <;> simp only [h]
  rw [List.attach_map_val]

variable {τ : Type}

mutual

/-- Makes a tree of a sketch at a depth. What becomes of a call is up to `build`. -/
def walk (build : Text → List Tree → Action τ ParseError Tree) (limit : Option Nat)
    (depth : Nat) : Sketch → Action τ ParseError Tree
  | .number t => do
    Action.ofExcept (checkDepth limit depth)
    Action.ofExcept (readLiteral t)
  | .identifier t => do
    Action.ofExcept (checkDepth limit depth)
    pure (.variable t)
  | .malformed t => do
    Action.ofExcept (checkDepth limit depth)
    throw (.malformed t)
  | .call name args => do
    Action.ofExcept (checkDepth limit depth)
    let trees ← walkAll build limit (depth + 1) args
    build name trees

def walkAll (build : Text → List Tree → Action τ ParseError Tree) (limit : Option Nat)
    (depth : Nat) : List Sketch → Action τ ParseError (List Tree)
  | [] => pure []
  | s :: ss => do
    let tree ← walk build limit depth s
    let trees ← walkAll build limit depth ss
    pure (tree :: trees)

end

theorem mapM_eq_walkAll {α : Type} {build : Text → List Tree → Action τ ParseError Tree}
    {limit : Option Nat} {depth : Nat} {read : α → Action τ ParseError Tree} {sketch : α → Sketch}
    {as : List α} (h : ∀ a ∈ as, read a = walk build limit depth (sketch a)) :
    as.mapM read = walkAll build limit depth (as.map sketch) := by
  induction as with
  | nil => rfl
  | cons a as ih =>
    have hhead := h a List.mem_cons_self
    have htail := ih fun b hb => h b (List.mem_cons_of_mem a hb)
    rw [List.mapM_cons, hhead, htail, List.map_cons, walkAll]

section Yields

variable {build : Text → List Tree → Action τ ParseError Tree} {Q : Sketch → Tree → Prop}

mutual

/-- What holds of leaves, and of a call if it holds of its parts, holds of every tree that a walk
makes and of the sketch that it is made of. -/
theorem walk_yields (hnumber : ∀ t tree, readLiteral t = .ok tree → Q (.number t) tree)
    (hidentifier : ∀ t, Q (.identifier t) (.variable t))
    (hcall : ∀ name args trees, List.Forall₂ Q args trees →
      (build name trees).Yields (Q (.call name args)))
    (limit : Option Nat) (s : Sketch) (depth : Nat) : (walk build limit depth s).Yields (Q s) := by
  cases s with
  | number t =>
    have hleaf : (Action.ofExcept (readLiteral t) : Action τ ParseError Tree).Yields
        (Q (.number t)) := Action.yields_ofExcept (hnumber t)
    exact hleaf.checked _
  | identifier t =>
    have hleaf : (pure (.variable t) : Action τ ParseError Tree).Yields (Q (.identifier t)) := by
      refine Action.yields_ofExcept fun tree htree => ?_
      cases htree
      exact hidentifier t
    exact hleaf.checked _
  | malformed t =>
    have hleaf : (throw (.malformed t) : Action τ ParseError Tree).Yields (Q (.malformed t)) := by
      refine Action.yields_ofExcept fun tree htree => ?_
      cases htree
    exact hleaf.checked _
  | call name args =>
    have hargs := walkAll_yields_forall₂ hnumber hidentifier hcall limit args (depth + 1)
    have hnode := hargs.bind (hcall name args)
    exact hnode.checked _

theorem walkAll_yields_forall₂ (hnumber : ∀ t tree, readLiteral t = .ok tree → Q (.number t) tree)
    (hidentifier : ∀ t, Q (.identifier t) (.variable t))
    (hcall : ∀ name args trees, List.Forall₂ Q args trees →
      (build name trees).Yields (Q (.call name args)))
    (limit : Option Nat) (ss : List Sketch) (depth : Nat) :
    (walkAll build limit depth ss).Yields (List.Forall₂ Q ss) := by
  cases ss with
  | nil =>
    refine Action.yields_ofExcept fun trees htrees => ?_
    cases htrees
    exact .nil
  | cons s ss =>
    have hfirst := walk_yields hnumber hidentifier hcall limit s depth
    have hothers := walkAll_yields_forall₂ hnumber hidentifier hcall limit ss depth
    rw [walkAll]
    refine hfirst.bind fun tree htree => ?_
    refine hothers.bind fun trees htrees => ?_
    refine Action.yields_ofExcept fun all hall => ?_
    cases hall
    exact .cons htree htrees

end

end Yields

end Sketch

namespace Registry

variable {σ : Type}

theorem parseAt_eq_walk (r : Registry σ) (limit : Option Nat) (depth : Nat) (text : Text) :
    r.parseAt limit depth text = (Sketch.ofText text).walk r.buildCall limit depth := by
  rw [parseAt_eq, Sketch.ofText_eq]
  cases hp : Piece.ofText text with
  | number t => rfl
  | identifier t => rfl
  | malformed t => rfl
  | call name args =>
    have hargs : ∀ a ∈ args, r.parseAt limit (depth + 1) a =
        (Sketch.ofText a).walk r.buildCall limit (depth + 1) := fun a ha =>
      have := Piece.length_lt_of_mem_args hp ha
      parseAt_eq_walk r limit (depth + 1) a
    dsimp only
    rw [Sketch.mapM_eq_walkAll hargs, Sketch.walk]
termination_by text.length

end Registry

def ParseError.reword (f : Text → Text) : ParseError → ParseError
  | .unknownOperator name => .unknownOperator (f name)
  | .malformed text => .malformed (f text)
  | .arityMismatch operator expected found => .arityMismatch operator expected found
  | .invalidArguments operator reason => .invalidArguments operator reason
  | .nestingTooDeep limit => .nestingTooDeep limit

/-- The piece with its variables renamed by `f`, and with its other texts changed by `g`. A number
is left alone. -/
def Piece.reword (f g : Text → Text) : Piece → Piece
  | .number t => .number t
  | .identifier t => .identifier (f t)
  | .malformed t => .malformed (g t)
  | .call name args => .call (g name) (args.map g)

namespace Sketch

mutual

def reword (f g : Text → Text) : Sketch → Sketch
  | .number t => .number t
  | .identifier t => .identifier (f t)
  | .malformed t => .malformed (g t)
  | .call name args => .call (g name) (rewordAll f g args)

def rewordAll (f g : Text → Text) : List Sketch → List Sketch
  | [] => []
  | s :: ss => reword f g s :: rewordAll f g ss

end

theorem rewordAll_eq_map (f g : Text → Text) (ss : List Sketch) :
    rewordAll f g ss = ss.map (reword f g) := by
  induction ss with
  | nil => rfl
  | cons s ss ih => rw [rewordAll, ih, List.map_cons]

mutual

theorem reword_id : ∀ s : Sketch, reword id id s = s
  | .number _ => rfl
  | .identifier _ => rfl
  | .malformed _ => rfl
  | .call name args => by rw [reword, rewordAll_id args, id]

theorem rewordAll_id : ∀ ss : List Sketch, rewordAll id id ss = ss
  | [] => rfl
  | s :: ss => by rw [rewordAll, reword_id s, rewordAll_id ss]

end

theorem ofText_reword {f g : Text → Text}
    (h : ∀ t, Piece.ofText (g t) = (Piece.ofText t).reword f g) (text : Text) :
    ofText (g text) = (ofText text).reword f g := by
  rw [ofText_eq, ofText_eq, h]
  cases hp : Piece.ofText text with
  | number t => rfl
  | identifier t => rfl
  | malformed t => rfl
  | call name args =>
    have hargs : args.map (ofText ∘ g) = args.map (reword f g ∘ ofText) :=
      List.map_congr_left fun a ha =>
        have := Piece.length_lt_of_mem_args hp ha
        ofText_reword h a
    simp only [Piece.reword, reword, rewordAll_eq_map, List.map_map, hargs]
termination_by text.length

section Relates

variable {σ τ : Type}

/-- What it takes that a walk of a sketch and a walk of its rewording are related: the leaves are,
and so is what becomes of calls with related parts. -/
structure Rewords (f g : Text → Text) (R : σ → τ → Prop) (E : ParseError → ParseError → Prop)
    (P : Tree → Tree → Prop) (build : Text → List Tree → Action σ ParseError Tree)
    (build' : Text → List Tree → Action τ ParseError Tree) : Prop where
  error : ∀ e, E e e
  number : ∀ value, P (.number value) (.number value)
  identifier : ∀ t, P (.variable t) (.variable (f t))
  malformed : ∀ t, E (.malformed t) (.malformed (g t))
  call : ∀ name args args', List.Forall₂ P args args' →
    (build name args).Relates R E P (build' (g name) args')

variable {f g : Text → Text} {R : σ → τ → Prop} {E : ParseError → ParseError → Prop}
  {P : Tree → Tree → Prop} {build : Text → List Tree → Action σ ParseError Tree}
  {build' : Text → List Tree → Action τ ParseError Tree}

theorem Rewords.readLiteral (h : Rewords f g R E P build build') (t : Text) :
    Alike E P (readLiteral t) (CallFormula.readLiteral t) := by
  cases hread : CallFormula.readLiteral t with
  | error e => exact h.error e
  | ok tree =>
    obtain ⟨value, -, -, rfl⟩ := readLiteral_eq_ok_iff.1 hread
    exact h.number value

theorem Rewords.checkDepth (h : Rewords f g R E P build build') (limit : Option Nat) (depth : Nat) :
    (Action.ofExcept (checkDepth limit depth) : Action σ ParseError Unit).Relates R E Eq
      (Action.ofExcept (checkDepth limit depth) : Action τ ParseError Unit) :=
  Action.relates_ofExcept (alike_self h.error (fun _ => rfl) _)

mutual

theorem walk_relates (h : Rewords f g R E P build build') (limit : Option Nat) (s : Sketch)
    (depth : Nat) :
    (walk build limit depth s).Relates R E P (walk build' limit depth (s.reword f g)) := by
  have hdepth := h.checkDepth limit depth
  cases s with
  | number t =>
    rw [reword, walk, walk]
    refine hdepth.bind fun _ _ _ => ?_
    exact Action.relates_ofExcept (h.readLiteral t)
  | identifier t =>
    rw [reword, walk, walk]
    refine hdepth.bind fun _ _ _ => ?_
    exact Action.relates_ofExcept (h.identifier t)
  | malformed t =>
    rw [reword, walk, walk]
    refine hdepth.bind fun _ _ _ => ?_
    exact Action.relates_ofExcept (h.malformed t)
  | call name args =>
    have hargs := walkAll_relates h limit args (depth + 1)
    rw [reword, walk, walk]
    refine hdepth.bind fun _ _ _ => ?_
    exact hargs.bind (h.call name)

theorem walkAll_relates (h : Rewords f g R E P build build') (limit : Option Nat)
    (ss : List Sketch) (depth : Nat) : (walkAll build limit depth ss).Relates R E (List.Forall₂ P)
      (walkAll build' limit depth (rewordAll f g ss)) := by
  cases ss with
  | nil => exact Action.relates_ofExcept .nil
  | cons s ss =>
    have hfirst := walk_relates h limit s depth
    have hothers := walkAll_relates h limit ss depth
    rw [rewordAll, walkAll, walkAll]
    refine hfirst.bind fun tree tree' htree => ?_
    refine hothers.bind fun trees trees' htrees => ?_
    exact Action.relates_ofExcept (.cons htree htrees)

end

/-- Texts with the same rewording are walked alike, as far as `k` shows of an error and `l` of a
tree. -/
theorem walk_relates_of_reword_eq {γ δ : Type} {k : ParseError → γ} {l : Tree → δ}
    {build : Text → List Tree → Action τ ParseError Tree}
    (h : Rewords f g Eq (fun e e' => k e = k e') (fun t t' => l t = l t') build build)
    (hpiece : ∀ t, Piece.ofText (g t) = (Piece.ofText t).reword f g) {s t : Text} (hst : g s = g t)
    (limit : Option Nat) (depth : Nat) :
    (walk build limit depth (ofText s)).Relates Eq (fun e e' => k e = k e')
      (fun t t' => l t = l t') (walk build limit depth (ofText t)) := by
  have hs := walk_relates h limit (ofText s) depth
  have ht := walk_relates h limit (ofText t) depth
  rw [← ofText_reword hpiece] at hs ht
  rw [hst] at hs
  exact hs.join ht

theorem walk_matches (h : ∀ name args, (build name args).Matches R (build' name args))
    (limit : Option Nat) (depth : Nat) (s : Sketch) :
    (walk build limit depth s).Matches R (walk build' limit depth s) := by
  have hbuild : Rewords id id R Eq Eq build build' := {
    error := fun _ => rfl
    number := fun _ => rfl
    identifier := fun _ => rfl
    malformed := fun _ => rfl
    call := fun name args args' hargs => by
      obtain rfl : args = args' := List.forall₂_eq_eq_eq ▸ hargs
      exact Action.matches_iff_relates.1 (h name args) }
  have hwalk := walk_relates hbuild limit s depth
  rw [reword_id] at hwalk
  exact Action.matches_iff_relates.2 hwalk

end Relates

end Sketch

end CallFormula
