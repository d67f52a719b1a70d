import CallFormula.Registry

set_option autoImplicit false

namespace CallFormula

inductive Change (σ : Type) where
  | enter (r : Registration σ)
  | unbind (name : Text)
  | operators
  | math

/-- A function with the arity under which it was registered. -/
inductive Enrolled (σ : Type) where
  | host (arity : Arity) (body : Native σ)
  | math (f : MathFunction)

variable {σ : Type}

def Enrolled.arity : Enrolled σ → Arity
  | host arity _ => arity
  | math f => f.arity

def Enrolled.body : Enrolled σ → Native σ
  | host _ body => body
  | math f => f.body

namespace Change

def enrolled : Change σ → List (Enrolled σ)
  | .enter (.function _ arity body) => [.host arity body]
  | .enter (.bind _ _) => []
  | .unbind _ => []
  | .operators => []
  | .math => MathFunction.all.map .math

/-- No ready binding is entered but that of an operator. -/
def IsNative : Change σ → Prop
  | .enter (.bind _ b) => ∃ op, b = .operator op
  | _ => True

end Change

namespace Registry

def change (r : Registry σ) : Change σ → StateM (Functions σ) (Registry σ)
  | .enter request => r.enter request
  | .unbind name => pure (r.unbind name)
  | .operators => pure r.withOperators
  | .math => r.withMath

def bindMath (r : Registry σ) (f : MathFunction) : StateM (Functions σ) (Registry σ) :=
  r.bindFunction f.name f.arity f.body

def changeAll (r : Registry σ) (changes : List (Change σ)) : StateM (Functions σ) (Registry σ) :=
  changes.foldlM change r

end Registry

theorem StateM.run_foldlM_cons {α β : Type} (f : α → β → StateM σ α) (a : α) (b : β) (bs : List β)
    (s : σ) : ((b :: bs).foldlM f a).run s = (bs.foldlM f (f a b s).1).run (f a b s).2 := rfl

/-- An operator, or one of the functions under its own arity. Their handles are issued in their
order from `start` on. -/
def Binding.IsAmong (start : Nat) (functions : List (Enrolled σ)) (b : Binding σ) : Prop :=
  (∃ op, b = .operator op) ∨ ∃ i e, functions[i]? = some e ∧ b = .function e.arity ⟨start + i⟩

namespace Registry

theorem bodies_enrollMath (r : Registry σ) (ms : List MathFunction) (fs : Functions σ) :
    ((ms.foldlM bindMath r).run fs).2.bodies =
      fs.bodies ++ (ms.map Enrolled.math).map Enrolled.body := by
  induction ms generalizing r fs with
  | nil => exact (List.append_nil fs.bodies).symm
  | cons f ms ih =>
    rw [StateM.run_foldlM_cons, ih]
    exact List.append_assoc fs.bodies [f.body] _

theorem bodies_change (r : Registry σ) (c : Change σ) (fs : Functions σ) :
    ((r.change c).run fs).2.bodies = fs.bodies ++ c.enrolled.map Enrolled.body := by
  cases c with
  | enter request =>
    cases request with
    | bind name b => exact (List.append_nil fs.bodies).symm
    | function name arity body => rfl
  | unbind name => exact (List.append_nil fs.bodies).symm
  | operators => exact (List.append_nil fs.bodies).symm
  | math => exact r.bodies_enrollMath MathFunction.all fs

theorem bodies_changeAll (r : Registry σ) (cs : List (Change σ)) (fs : Functions σ) :
    ((r.changeAll cs).run fs).2.bodies =
      fs.bodies ++ (cs.flatMap Change.enrolled).map Enrolled.body := by
  induction cs generalizing r fs with
  | nil => exact (List.append_nil fs.bodies).symm
  | cons c cs ih =>
    have hstep := r.bodies_change c fs
    have hrest := ih (r.change c fs).1 (r.change c fs).2
    rw [changeAll, StateM.run_foldlM_cons, List.flatMap_cons, List.map_append, ← List.append_assoc,
      ← hstep]
    exact hrest

def Binds (start : Nat) (functions : List (Enrolled σ)) (r : Registry σ) : Prop :=
  ∀ key b, r.bindings.get? key = some b → b.IsAmong start functions

variable {start : Nat} {functions : List (Enrolled σ)} {r : Registry σ}

theorem binds_empty : (empty : Registry σ).Binds start functions := fun _ _ h => by cases h

theorem Binds.bind (h : r.Binds start functions) (name : Text) {b : Binding σ}
    (hb : b.IsAmong start functions) :
    (r.bind name b).Binds start functions := by
  intro key b' hb'
  rw [Registry.bind, Table.get?_insert] at hb'
  split at hb'
  · cases hb'
    exact hb
  · exact h key b' hb'

theorem Binds.unbind (h : r.Binds start functions) (name : Text) :
    (r.unbind name).Binds start functions := by
  intro key b hb
  rw [Registry.unbind, Table.get?_erase] at hb
  split at hb
  · cases hb
  · exact h key b hb

theorem Binds.withOperators (h : r.Binds start functions) :
    r.withOperators.Binds start functions :=
  withOperators_of_bind h fun op _ hr => hr.bind op.name (.inl ⟨op, rfl⟩)

theorem Binds.append (h : r.Binds start functions) (more : List (Enrolled σ)) :
    r.Binds start (functions ++ more) := by
  intro key b hb
  refine (h key b hb).imp_right ?_
  rintro ⟨i, e, he, rfl⟩
  exact ⟨i, e, by rw [List.getElem?_append_left (List.getElem?_eq_some_iff.1 he).1, he], rfl⟩

theorem Binds.bindFunction (h : r.Binds start functions) {fs : Functions σ}
    (hfs : fs.bodies.length = start + functions.length) (name : Text) (e : Enrolled σ) :
    ((r.bindFunction name e.arity e.body).run fs).1.Binds start (functions ++ [e]) := by
  have hrun : (r.bindFunction name e.arity e.body).run fs =
      (r.bind name (.function e.arity ⟨fs.bodies.length⟩), ⟨fs.bodies ++ [e.body]⟩) := rfl
  rw [hrun, hfs]
  exact (h.append [e]).bind name (.inr ⟨functions.length, e, by simp, rfl⟩)

theorem Binds.enrollMath (h : r.Binds start functions) {fs : Functions σ}
    (hfs : fs.bodies.length = start + functions.length) (ms : List MathFunction) :
    ((ms.foldlM bindMath r).run fs).1.Binds start
      (functions ++ ms.map Enrolled.math) := by
  induction ms generalizing r fs functions with
  | nil => exact h.append []
  | cons f ms ih =>
    have hlength : (⟨fs.bodies ++ [f.body]⟩ : Functions σ).bodies.length =
        start + (functions ++ [Enrolled.math f]).length := by
      simp only [List.length_append, hfs, List.length_singleton]
      omega
    have hrest := ih (h.bindFunction hfs f.name (.math f)) hlength
    rw [List.append_assoc] at hrest
    exact hrest

theorem Binds.change (h : r.Binds start functions) {fs : Functions σ}
    (hfs : fs.bodies.length = start + functions.length) {c : Change σ} (hc : c.IsNative) :
    ((r.change c).run fs).1.Binds start (functions ++ c.enrolled) := by
  cases c with
  | enter request =>
    cases request with
    | bind name b => exact (h.append []).bind name (.inl hc)
    | function name arity body => exact h.bindFunction hfs name (.host arity body)
  | unbind name => exact (h.append []).unbind name
  | operators => exact (h.append []).withOperators
  | math => exact h.enrollMath hfs MathFunction.all

theorem Binds.changeAll (h : r.Binds start functions) {fs : Functions σ}
    (hfs : fs.bodies.length = start + functions.length) {cs : List (Change σ)}
    (hcs : ∀ c ∈ cs, c.IsNative) :
    ((r.changeAll cs).run fs).1.Binds start (functions ++ cs.flatMap Change.enrolled) := by
  induction cs generalizing r fs functions with
  | nil => exact h.append []
  | cons c cs ih =>
    have hstep := h.change hfs (hcs c List.mem_cons_self)
    have hbodies := congrArg List.length (r.bodies_change c fs)
    have hlength : ((r.change c).run fs).2.bodies.length =
        start + (functions ++ c.enrolled).length := by
      rw [hbodies]
      simp only [List.length_append, List.length_map, hfs]
      omega
    have hrest := ih hstep hlength fun c hc => hcs c (List.mem_cons_of_mem _ hc)
    rw [List.append_assoc] at hrest
    exact hrest

/-- The bindings of a registry that comes from an empty or a standard one by a run of changes. -/
theorem binds_changeAll {base : Registry σ} (hbase : base = .empty ∨ base = .standard)
    (fs : Functions σ) {cs : List (Change σ)} (hcs : ∀ c ∈ cs, c.IsNative) :
    ((base.changeAll cs).run fs).1.Binds fs.bodies.length (cs.flatMap Change.enrolled) := by
  have hstart : base.Binds fs.bodies.length [] := by
    obtain rfl | rfl := hbase
    · exact binds_empty
    · exact binds_empty.withOperators
  exact hstart.changeAll rfl hcs

end Registry

end CallFormula
