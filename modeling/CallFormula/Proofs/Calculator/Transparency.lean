import CallFormula.Calculator.Basic
import CallFormula.Proofs.Formula.Purity

set_option autoImplicit false

namespace CallFormula

namespace Calculator

variable {σ : Type} {k : Calculator σ}

/-- Every remembered key is a trimmed text and is read into its tree, with the bindings and the
limit of now. -/
def IsFaithful (k : Calculator σ) : Prop :=
  ∀ e ∈ k.recent.entries,
    Text.trim e.1 = e.1 ∧ k.registry.parse (some k.limit) e.1 = pure e.2

theorem isFaithful_forget (k : Calculator σ) : k.forget.IsFaithful := by
  intro e he
  exact absurd he Recent.not_mem_entries_empty

theorem isFaithful_make (registry : Registry σ) (capacity : Nat) :
    (make registry capacity).IsFaithful := by
  intro e he
  exact absurd he Recent.not_mem_entries_empty

theorem IsFaithful.note (h : k.IsFaithful) {key : Text} {tree : Tree} (hkey : Text.trim key = key)
    (htree : k.registry.parse (some k.limit) key = pure tree) :
    { k with recent := k.recent.note key tree }.IsFaithful := by
  intro e he
  cases Recent.mem_entries_note he with
  | inl heq => simp [heq, hkey, htree]
  | inr hold => exact h e hold

theorem run_parse (k : Calculator σ) (formula : Text) (bench : Workbench σ) :
    (k.parse formula).run bench =
      match k.recent.get? (Text.trim formula) with
      | some tree =>
        ((.ok tree, { k with recent := k.recent.note (Text.trim formula) tree }), bench)
      | none =>
        match (k.registry.parse (some k.limit) formula).run bench with
        | (.ok tree, bench) =>
          ((.ok tree, { k with recent := k.recent.note (Text.trim formula) tree }), bench)
        | (.error e, bench) => ((.error e, k), bench) := by
  have hread : k.registry.parse (some k.limit) (Text.trim formula) =
      k.registry.parse (some k.limit) formula := k.registry.parseAt_trim _ _ _
  cases hget : k.recent.get? (Text.trim formula) with
  | some tree =>
    simp only [parse, hget]
    rfl
  | none =>
    simp only [parse, hget, hread]
    rw [StateT.run_bind]
    have hrun : StateT.run (k.registry.parse (some k.limit) formula).run bench =
        (k.registry.parse (some k.limit) formula).run bench := rfl
    rw [hrun]
    obtain ⟨result, bench'⟩ := (k.registry.parse (some k.limit) formula).run bench
    cases result with
    | ok tree => rfl
    | error e => rfl

/-- A formula gets the tree, or the error, of reading it anew, and the calculator changes in what
it remembers only. -/
theorem IsFaithful.exists_run_parse (h : k.IsFaithful) (hpure : k.registry.IsPure) (formula : Text)
    (bench : Workbench σ) : ∃ recent,
      (k.parse formula).run bench =
        ((((k.registry.parse (some k.limit) formula).run bench).1, { k with recent := recent }),
          ((k.registry.parse (some k.limit) formula).run bench).2) ∧
      { k with recent := recent }.IsFaithful := by
  have htrimmed : Text.trim (Text.trim formula) = Text.trim formula := Text.trim_trim formula
  have hread : k.registry.parse (some k.limit) (Text.trim formula) =
      k.registry.parse (some k.limit) formula := k.registry.parseAt_trim _ _ _
  obtain ⟨result, hresult⟩ := hpure.exists_parse (some k.limit) formula
  rw [run_parse]
  cases hget : k.recent.get? (Text.trim formula) with
  | some tree =>
    have hold := h _ (Recent.get?_eq_some_iff.1 hget)
    have htree : k.registry.parse (some k.limit) formula = pure tree := hread.symm.trans hold.2
    rw [htree]
    exact ⟨k.recent.note (Text.trim formula) tree, rfl, h.note htrimmed hold.2⟩
  | none =>
    rw [hresult]
    cases result with
    | ok tree =>
      exact ⟨k.recent.note (Text.trim formula) tree, rfl, h.note htrimmed (hread.trans hresult)⟩
    | error e => exact ⟨k.recent, rfl, h⟩

theorem run_evaluate (k : Calculator σ) (fs : Functions σ) (formula : Text) (c : Context)
    (bench : Workbench σ) :
    (k.evaluate fs formula c).run bench =
      match (k.parse formula).run bench with
      | ((.error e, k), bench) => ((.error (.parse e), k), bench)
      | ((.ok tree, k), bench) =>
        ((((tree.evaluate fs c).run bench.host).1.mapError .evaluation, k),
          { bench with host := ((tree.evaluate fs c).run bench.host).2 }) := by
  rw [evaluate, StateT.run_bind]
  obtain ⟨⟨result, k'⟩, bench'⟩ := (k.parse formula).run bench
  cases result with
  | error e => rfl
  | ok tree =>
    have hhost : (Workbench.onHost (tree.evaluate fs c)).run bench' =
        (((tree.evaluate fs c).run bench'.host).1,
          { bench' with host := ((tree.evaluate fs c).run bench'.host).2 }) := rfl
    change StateT.run (Workbench.onHost (tree.evaluate fs c) >>= _) bench' = _
    rw [StateT.run_bind, hhost]
    dsimp only
    cases ((tree.evaluate fs c).run bench'.host).1 <;> rfl

end Calculator

theorem StateM.run_mapM_cons {σ ι ω : Type} (f : ι → StateM σ ω) (i : ι) (is : List ι) (s : σ) :
    ((i :: is).mapM f).run s =
      ((f i s).1 :: ((is.mapM f).run (f i s).2).1, ((is.mapM f).run (f i s).2).2) := by
  rw [List.mapM_cons]
  rfl

inductive Use (σ : Type) where
  | parse (formula : Text)
  | evaluate (formula : Text) (c : Context)
  | enter (r : Registration σ)
  | withLimit (limit : Nat)

def Use.IsPure {σ : Type} : Use σ → Prop
  | .enter (.bind _ b) => b.IsPure
  | _ => True

inductive Answer where
  | tree (result : Except ParseError Tree)
  | value (result : Except FormulaError Float)
  | nothing

structure Desk (σ : Type) where
  calculator : Calculator σ
  functions : Functions σ
  bench : Workbench σ

structure BareDesk (σ : Type) where
  registry : Registry σ
  limit : Nat
  functions : Functions σ
  bench : Workbench σ

variable {σ : Type}

def Desk.use : Use σ → StateM (Desk σ) Answer
  | .parse formula => fun d =>
    let ((result, k), bench) := (d.calculator.parse formula).run d.bench
    (.tree result, { d with calculator := k, bench := bench })
  | .evaluate formula c => fun d =>
    let ((result, k), bench) := (d.calculator.evaluate d.functions formula c).run d.bench
    (.value result, { d with calculator := k, bench := bench })
  | .enter r => fun d =>
    let (k, fs) := (d.calculator.enter r).run d.functions
    (.nothing, { d with calculator := k, functions := fs })
  | .withLimit limit => fun d =>
    (.nothing, { d with calculator := d.calculator.withLimit limit })

/-- Every formula is read as it was written, against the registry and with the limit of now. -/
def BareDesk.use : Use σ → StateM (BareDesk σ) Answer
  | .parse formula => fun d =>
    let (result, bench) := (d.registry.parse (some d.limit) formula).run d.bench
    (.tree result, { d with bench := bench })
  | .evaluate formula c => fun d =>
    match (d.registry.parse (some d.limit) formula).run d.bench with
    | (.error e, bench) => (.value (.error (.parse e)), { d with bench := bench })
    | (.ok tree, bench) =>
      (.value (((tree.evaluate d.functions c).run bench.host).1.mapError .evaluation),
        { d with bench := { bench with host := ((tree.evaluate d.functions c).run bench.host).2 } })
  | .enter r => fun d =>
    let (registry, fs) := (d.registry.enter r).run d.functions
    (.nothing, { d with registry := registry, functions := fs })
  | .withLimit limit => fun d => (.nothing, { d with limit := limit })

def Desk.bare (d : Desk σ) : BareDesk σ :=
  ⟨d.calculator.registry, d.calculator.limit, d.functions, d.bench⟩

structure Desk.IsSound (d : Desk σ) : Prop where
  pure : d.calculator.registry.IsPure
  faithful : d.calculator.IsFaithful

theorem Desk.isSound_make {registry : Registry σ} (h : registry.IsPure) (capacity : Nat)
    (fs : Functions σ) (bench : Workbench σ) :
    (⟨.make registry capacity, fs, bench⟩ : Desk σ).IsSound :=
  ⟨h, Calculator.isFaithful_make registry capacity⟩

namespace Desk.IsSound

variable {d : Desk σ}

theorem use_parse (h : d.IsSound) (formula : Text) :
    (Desk.use (.parse formula) d).1 = (BareDesk.use (.parse formula) d.bare).1 ∧
      (Desk.use (.parse formula) d).2.bare = (BareDesk.use (.parse formula) d.bare).2 ∧
      (Desk.use (.parse formula) d).2.IsSound := by
  obtain ⟨recent, hrun, hfaithful⟩ := h.faithful.exists_run_parse h.pure formula d.bench
  simp only [Desk.use, BareDesk.use, hrun]
  exact ⟨rfl, rfl, h.pure, hfaithful⟩

theorem use_evaluate (h : d.IsSound) (formula : Text) (c : Context) :
    (Desk.use (.evaluate formula c) d).1 = (BareDesk.use (.evaluate formula c) d.bare).1 ∧
      (Desk.use (.evaluate formula c) d).2.bare =
        (BareDesk.use (.evaluate formula c) d.bare).2 ∧
      (Desk.use (.evaluate formula c) d).2.IsSound := by
  obtain ⟨recent, hrun, hfaithful⟩ := h.faithful.exists_run_parse h.pure formula d.bench
  generalize hread :
    (d.calculator.registry.parse (some d.calculator.limit) formula).run d.bench = read at hrun
  obtain ⟨result, bench'⟩ := read
  cases result with
  | error e =>
    simp only [Desk.use, BareDesk.use, Calculator.run_evaluate, hrun, hread, Desk.bare, true_and]
    exact ⟨h.pure, hfaithful⟩
  | ok tree =>
    simp only [Desk.use, BareDesk.use, Calculator.run_evaluate, hrun, hread, Desk.bare, true_and]
    exact ⟨h.pure, hfaithful⟩

theorem use_enter (h : d.IsSound) {r : Registration σ} (hr : (Use.enter r).IsPure) :
    (Desk.use (.enter r) d).1 = (BareDesk.use (.enter r) d.bare).1 ∧
      (Desk.use (.enter r) d).2.bare = (BareDesk.use (.enter r) d.bare).2 ∧
      (Desk.use (.enter r) d).2.IsSound := by
  cases r with
  | bind name b =>
    exact ⟨rfl, rfl, h.pure.bind name hr, Calculator.isFaithful_forget _⟩
  | function name arity body =>
    exact ⟨rfl, rfl, h.pure.bind name (Binding.isPure_function arity _),
      Calculator.isFaithful_forget _⟩

theorem use_eq (h : d.IsSound) {u : Use σ} (hu : u.IsPure) :
    (Desk.use u d).1 = (BareDesk.use u d.bare).1 ∧
      (Desk.use u d).2.bare = (BareDesk.use u d.bare).2 ∧ (Desk.use u d).2.IsSound := by
  cases u with
  | parse formula => exact h.use_parse formula
  | evaluate formula c => exact h.use_evaluate formula c
  | enter r => exact h.use_enter hu
  | withLimit limit => exact ⟨rfl, rfl, h.pure, Calculator.isFaithful_forget _⟩

theorem run_eq (h : d.IsSound) {us : List (Use σ)} (hus : ∀ u ∈ us, u.IsPure) :
    ((us.mapM Desk.use).run d).1 = ((us.mapM BareDesk.use).run d.bare).1 ∧
      ((us.mapM Desk.use).run d).2.bare = ((us.mapM BareDesk.use).run d.bare).2 ∧
      ((us.mapM Desk.use).run d).2.IsSound := by
  induction us generalizing d with
  | nil => exact ⟨rfl, rfl, h⟩
  | cons u us ih =>
    obtain ⟨hanswer, hbare, hsound⟩ := h.use_eq (hus u List.mem_cons_self)
    obtain ⟨hanswers, hend, hkept⟩ := ih hsound fun v hv => hus v (List.mem_cons_of_mem u hv)
    rw [hbare] at hanswers hend
    rw [StateM.run_mapM_cons, StateM.run_mapM_cons, hanswer, hanswers]
    exact ⟨rfl, hend, hkept⟩

end Desk.IsSound

/-- The memory does not show: a list of uses gets the answers of a desk that reads every formula
anew. -/
theorem Calculator.run_uses_eq_run_bare {registry : Registry σ} (hpure : registry.IsPure)
    (capacity : Nat) (fs : Functions σ) (bench : Workbench σ) (us : List (Use σ))
    (hus : ∀ u ∈ us, u.IsPure) :
    let start : Desk σ := ⟨.make registry capacity, fs, bench⟩
    let bare : BareDesk σ := ⟨registry, defaultLimit, fs, bench⟩
    ((us.mapM Desk.use).run start).1 = ((us.mapM BareDesk.use).run bare).1 ∧
      ((us.mapM Desk.use).run start).2.bare = ((us.mapM BareDesk.use).run bare).2 ∧
      ((us.mapM Desk.use).run start).2.calculator.IsFaithful := by
  obtain ⟨hanswers, hend, hsound⟩ := (Desk.isSound_make hpure capacity fs bench).run_eq hus
  exact ⟨hanswers, hend, hsound.faithful⟩

theorem Calculator.run_uses_rebound_add :
    let us : List (Use Unit) :=
      [.parse " add(x, y)".toList, .enter (.bind "ADD".toList (.operator .subtract)),
        .evaluate "add(x, y)".toList .empty, .withLimit 0, .parse "add(x, y)".toList]
    let bare : BareDesk Unit := ⟨.standard, defaultLimit, .empty, ⟨(), []⟩⟩
    (Registry.standard : Registry Unit).IsPure ∧ (∀ u ∈ us, u.IsPure) ∧
      ((us.mapM Desk.use).run ⟨.make .standard 1, .empty, ⟨(), []⟩⟩).1 =
        ((us.mapM BareDesk.use).run bare).1 := by
  have hadd : (Binding.operator .subtract : Binding Unit).IsPure := Binding.isPure_operator _
  intro us bare
  have hus : ∀ u ∈ us, u.IsPure := by simpa [us, Use.IsPure] using hadd
  exact ⟨Registry.isPure_standard, hus,
    (Calculator.run_uses_eq_run_bare Registry.isPure_standard 1 .empty ⟨(), []⟩ us hus).1⟩

end CallFormula
