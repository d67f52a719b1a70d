import CallFormula.Host.Builders
import CallFormula.Proofs.Formula.Assembly
import CallFormula.Proofs.Registry.Changes
import CallFormula.Proofs.Tree.StackMachine

set_option autoImplicit false

namespace CallFormula

variable {σ : Type}

namespace Tree

mutual

def calls : Tree → List (Handle × Nat)
  | .number _ => []
  | .variable _ => []
  | .binary left _ right => calls left ++ calls right
  | .call _ args function => callsAll args ++ [(function, args.length)]

def callsAll : List Tree → List (Handle × Nat)
  | [] => []
  | t :: ts => calls t ++ callsAll ts

end

end Tree

namespace Functions

theorem call_writes {fs : Functions σ} {h : Handle} (hh : fs.Issued h) (args : List Float) :
    (fs.recorded.call h args).Writes (Prod.map id List.length) [(h, args.length)] := by
  intro s
  rw [run_call_recorded, List.getElem?_eq_getElem hh]
  exact ⟨[(h, args)], rfl, covers_self _ _⟩

theorem call_heeds (fs : Functions σ) (h : Handle) (args : List Float) :
    (fs.recorded.call h args).Heeds fun call e => fs.call call.1 call.2 = throw e := by
  intro s
  rw [run_call_recorded]
  cases hbody : fs.bodies[h.number]? with
  | none => exact ⟨[], (List.append_nil _).symm, fun _ hmem => absurd hmem List.not_mem_nil⟩
  | some body =>
    refine ⟨[(h, args)], rfl, fun call hmem e he => ?_⟩
    obtain rfl := List.mem_singleton.1 hmem
    have hcall : fs.call h args = body args := by rw [call, hbody]
    rw [hcall] at he
    dsimp only
    rw [he]
    rfl

end Functions

namespace Tree

variable (fs : Functions σ) (c : Context)

theorem evaluateAll_yields (ts : List Tree) :
    (evaluateAll fs c ts).Yields fun xs => xs.length = ts.length :=
  fun _ _ h => length_of_evaluateAll fs c (Prod.ext h rfl)

mutual

/-- The calls that are made are those of the tree, each with a value for every argument. -/
theorem evaluate_writes (t : Tree) (h : ∀ call ∈ t.calls, fs.Issued call.1) :
    (t.evaluate fs.recorded c).Writes (Prod.map id List.length) t.calls := by
  cases t with
  | number value => exact Action.writes_ofExcept (.ok value)
  | «variable» name => exact Action.writes_ofExcept (c.value name)
  | binary left operator right =>
    have hleft := evaluate_writes left fun call hc => h call (List.mem_append_left _ hc)
    have hright := evaluate_writes right fun call hc => h call (List.mem_append_right _ hc)
    rw [evaluate, calls, ← List.append_nil (calls right)]
    refine hleft.bind (Action.yields_true _) fun x _ => ?_
    refine hright.bind (Action.yields_true _) fun y _ => ?_
    exact Action.writes_ofExcept (operator.apply x y)
  | call name args function =>
    have hargs := evaluateAll_writes args fun call hc => h call (List.mem_append_left _ hc)
    have hlength := evaluateAll_yields fs.recorded c args
    have hissued : fs.Issued function := h (function, args.length) (by simp [calls])
    refine hargs.bind hlength fun xs hxs => ?_
    rw [← hxs]
    exact Functions.call_writes hissued xs

theorem evaluateAll_writes (ts : List Tree) (h : ∀ call ∈ callsAll ts, fs.Issued call.1) :
    (evaluateAll fs.recorded c ts).Writes (Prod.map id List.length) (callsAll ts) := by
  cases ts with
  | nil => exact Action.writes_ofExcept (.ok [])
  | cons t ts =>
    have hfirst := evaluate_writes t fun call hc => h call (List.mem_append_left _ hc)
    have hothers := evaluateAll_writes ts fun call hc => h call (List.mem_append_right _ hc)
    rw [evaluateAll, callsAll, ← List.append_nil (callsAll ts)]
    refine hfirst.bind (Action.yields_true _) fun x _ => ?_
    refine hothers.bind (Action.yields_true _) fun xs _ => ?_
    exact Action.writes_ofExcept (.ok (x :: xs))

end

section Heeds

variable {ρ : Type} {kept : Functions (σ × List ρ)} {fails : ρ → EvaluationError → Prop}

mutual

theorem evaluate_heeds (h : ∀ f args, (kept.call f args).Heeds fails) (t : Tree) :
    (t.evaluate kept c).Heeds fails := by
  cases t with
  | number value => exact Action.heeds_ofExcept (.ok value)
  | «variable» name => exact Action.heeds_ofExcept (c.value name)
  | binary left operator right =>
    have hleft := evaluate_heeds h left
    have hright := evaluate_heeds h right
    rw [evaluate]
    refine hleft.bind fun x => ?_
    refine hright.bind fun y => ?_
    exact Action.heeds_ofExcept (operator.apply x y)
  | call name args function =>
    have hargs := evaluateAll_heeds h args
    exact hargs.bind (h function)

theorem evaluateAll_heeds (h : ∀ f args, (kept.call f args).Heeds fails) (ts : List Tree) :
    (evaluateAll kept c ts).Heeds fails := by
  cases ts with
  | nil => exact Action.heeds_ofExcept (.ok [])
  | cons t ts =>
    have hfirst := evaluate_heeds h t
    have hothers := evaluateAll_heeds h ts
    rw [evaluateAll]
    refine hfirst.bind fun x => ?_
    refine hothers.bind fun xs => ?_
    exact Action.heeds_ofExcept (.ok (x :: xs))

end

end Heeds

theorem exists_calls {t : Tree} (h : ∀ call ∈ t.calls, fs.Issued call.1) (host : σ) :
    let ended := (t.evaluate fs c).run host
    ∃ made, (t.evaluate fs.recorded c).run (host, []) = (ended.1, ended.2, made) ∧
      Covers ended.1 (made.map (Prod.map id List.length)) t.calls ∧
      ∀ call ∈ made, ∀ e, fs.call call.1 call.2 = throw e → ended.1 = .error e := by
  intro ended
  have hrecords : Prod.map id Prod.fst _ = ended := evaluate_records fs c t (host, [])
  obtain ⟨made, hmade, hcovers⟩ := evaluate_writes fs c t h (host, [])
  obtain ⟨made', hmade', hheeds⟩ := evaluate_heeds c fs.call_heeds t (host, [])
  obtain rfl : made' = made := List.append_cancel_left (hmade'.symm.trans hmade)
  rw [← hrecords]
  exact ⟨made', Prod.ext rfl (Prod.ext rfl hmade), hcovers, hheeds⟩

end Tree

namespace Registry

/-- What a written call becomes if a function is bound to its key: the handle of the function and
the number of the arguments. -/
def callOf (r : Registry σ) (written : Text × Nat) : Option (Handle × Nat) :=
  match r.bindings.get? written.1 with
  | some (.function _ handle) => some (handle, written.2)
  | _ => none

def written (r : Registry σ) (text : Text) : List (Handle × Nat) :=
  (Sketch.ofText text).calls.filterMap r.callOf

/-- The calls are what the written ones become, and the arity of each function accepts its call. -/
structure Grants (start : Nat) (functions : List (Enrolled σ)) (r : Registry σ)
    (written : List (Text × Nat)) (calls : List (Handle × Nat)) : Prop where
  calls_eq : calls = written.filterMap r.callOf
  accepted : ∀ call ∈ calls, ∃ i e, functions[i]? = some e ∧ call.1 = ⟨start + i⟩ ∧
    e.arity.accepts call.2 = true

variable {start : Nat} {functions : List (Enrolled σ)} {r : Registry σ}

theorem grants_nil : r.Grants start functions [] [] := ⟨rfl, fun _ h => absurd h List.not_mem_nil⟩

theorem Grants.append {written later : List (Text × Nat)} {calls more : List (Handle × Nat)}
    (h : r.Grants start functions written calls) (hlater : r.Grants start functions later more) :
    r.Grants start functions (written ++ later) (calls ++ more) where
  calls_eq := by rw [List.filterMap_append, ← h.calls_eq, ← hlater.calls_eq]
  accepted call hcall :=
    (List.mem_append.1 hcall).elim (h.accepted call) (hlater.accepted call)

theorem Binds.buildCall_grants (h : r.Binds start functions) (name : Text) {args : List Tree}
    {written : List (Text × Nat)} (hargs : r.Grants start functions written (Tree.callsAll args)) :
    (r.buildCall name args).Yields fun tree =>
      r.Grants start functions (written ++ [(canonical name, args.length)]) tree.calls := by
  unfold buildCall
  cases hb : r.lookup name with
  | none => exact fun _ _ hthrow => by cases hthrow
  | some b =>
    have hget : r.bindings.get? (canonical name) = some b := hb
    obtain ⟨op, rfl⟩ | ⟨i, e, he, rfl⟩ := h _ b hget
    · refine Action.yields_ofExcept fun tree htree => ?_
      have hnone : r.Grants start functions [(canonical name, args.length)] [] :=
        ⟨by simp [callOf, hget], fun _ hmem => absurd hmem List.not_mem_nil⟩
      match args, htree with
      | [left, right], htree =>
        cases htree
        have happend := hargs.append hnone
        simpa [Tree.calls, Tree.callsAll] using happend
    · refine Action.yields_ofExcept fun tree htree => ?_
      rw [Arity.build] at htree
      split at htree
      · rename_i haccepts
        cases htree
        refine hargs.append ⟨by simp [callOf, hget], fun call hmem => ?_⟩
        obtain rfl := List.mem_singleton.1 hmem
        exact ⟨i, e, he, rfl, haccepts⟩
      · cases htree

end Registry

namespace Sketch

variable {start : Nat} {functions : List (Enrolled σ)} {r : Registry σ}

theorem grants_of_forall₂ {ss : List Sketch} {trees : List Tree}
    (h : List.Forall₂ (fun s (tree : Tree) => r.Grants start functions s.calls tree.calls)
      ss trees) :
    r.Grants start functions (callsAll ss) (Tree.callsAll trees) := by
  induction h with
  | nil => exact Registry.grants_nil
  | cons htree _ ih => exact htree.append ih

theorem walk_grants (h : r.Binds start functions) (limit : Option Nat) (s : Sketch) (depth : Nat) :
    (walk r.buildCall limit depth s).Yields fun tree =>
      r.Grants start functions s.calls tree.calls := by
  refine walk_yields (Q := fun s tree => r.Grants start functions s.calls tree.calls)
    (fun t tree htree => ?_) (fun t => Registry.grants_nil) (fun name args trees hargs => ?_)
    limit s depth
  · obtain ⟨value, -, -, rfl⟩ := readLiteral_eq_ok_iff.1 htree
    exact Registry.grants_nil
  · rw [calls, hargs.length_eq]
    exact h.buildCall_grants name (grants_of_forall₂ hargs)

end Sketch

namespace MathFunction

/-- The value if every argument that is looked at is there, and none otherwise. There must be one to
be the least or the greatest. -/
def strictValue (args : List Float) : MathFunction → Option (Except EvaluationError Float)
  | mod => do
    let divisor ← args[1]?
    if divisor == Number.ofMagnitude false 0 then some (.error .divisionByZero)
    else do
      let x ← args[0]?
      some (.ok (Number.remainder x divisor))
  | min => if args.isEmpty then none else some (.ok (Number.least args))
  | max => if args.isEmpty then none else some (.ok (Number.greatest args))
  | abs => do
    let x ← args[0]?
    some (.ok x.abs)
  | sqrt => do
    let x ← args[0]?
    some (.ok x.sqrt)
  | neg => do
    let x ← args[0]?
    some (.ok (-x))

theorem strictValue_eq {f : MathFunction} {args : List Float}
    (h : f.arity.accepts args.length = true) : f.strictValue args = some (f.value args) := by
  cases f with
  | mod =>
    obtain ⟨x, y, rfl⟩ := List.length_eq_two.1 ((Arity.accepts_exact 2 _).1 h)
    simp only [strictValue, value, argument]
    by_cases hzero : (y == Number.ofMagnitude false 0) = true
    · simp [hzero]
    · simp [hzero]
  | min =>
    obtain ⟨x, xs, rfl⟩ := List.length_pos_iff_exists_cons.1 ((Arity.accepts_atLeast 1 _).1 h)
    rfl
  | max =>
    obtain ⟨x, xs, rfl⟩ := List.length_pos_iff_exists_cons.1 ((Arity.accepts_atLeast 1 _).1 h)
    rfl
  | abs =>
    obtain ⟨x, rfl⟩ := List.length_eq_one_iff.1 ((Arity.accepts_exact 1 _).1 h)
    rfl
  | sqrt =>
    obtain ⟨x, rfl⟩ := List.length_eq_one_iff.1 ((Arity.accepts_exact 1 _).1 h)
    rfl
  | neg =>
    obtain ⟨x, rfl⟩ := List.length_eq_one_iff.1 ((Arity.accepts_exact 1 _).1 h)
    rfl

end MathFunction

def Native.miscount (name : Text) (n found : Nat) : EvaluationError :=
  .functionFailed name
    ("expected ".toList ++ Number.digits n ++ " arguments, got ".toList ++ Number.digits found)

theorem Native.fixed_of_length_ne {name : Text} {n : Nat}
    {body : Vector Float n → Evaluation σ Float} {args : List Float} (h : args.length ≠ n) :
    Native.fixed name n body args = throw (Native.miscount name n args.length) := dif_neg h

theorem Functions.call_of_bodies {fs : Functions σ} {front rest : List (Native σ)}
    {functions : List (Enrolled σ)} (h : fs.bodies = front ++ functions.map Enrolled.body ++ rest)
    {i : Nat} {e : Enrolled σ} (he : functions[i]? = some e) :
    fs.Issued ⟨front.length + i⟩ ∧ ∀ args, fs.call ⟨front.length + i⟩ args = e.body args := by
  have hi : i < functions.length := (List.getElem?_eq_some_iff.1 he).1
  have hbody : fs.bodies[front.length + i]? = some e.body := by
    rw [h, List.append_assoc, List.getElem?_append_right (Nat.le_add_right _ _),
      Nat.add_sub_cancel_left, List.getElem?_append_left (by simpa using hi), List.getElem?_map, he]
    rfl
  exact ⟨(List.getElem?_eq_some_iff.1 hbody).1, fun args => by simp only [call, hbody]⟩

/-- No function is given a wrong number of values, whatever becomes of its name after the formula is
read. -/
theorem Registry.evaluate_accepted {base : Registry σ} (hbase : base = .empty ∨ base = .standard)
    (fs : Functions σ) {changes : List (Change σ)} (hchanges : ∀ c ∈ changes, c.IsNative)
    {limit : Option Nat} {text : Text} {bench : Workbench σ} {tree : Tree}
    (hread : ((((base.changeAll changes).run fs).1.parse limit text).run bench).1 = .ok tree)
    (later : List (Change σ)) (c : Context) (host : σ) :
    let reached := (base.changeAll changes).run fs
    let store := ((reached.1.changeAll later).run reached.2).2
    let ended := (tree.evaluate store c).run host
    ∃ calls,
      (tree.evaluate store.recorded c).run (host, []) = (ended.1, ended.2, calls) ∧
      Covers ended.1 (calls.map (Prod.map id List.length)) (reached.1.written text) ∧
      ∀ call ∈ calls, ∃ i e, (changes.flatMap Change.enrolled)[i]? = some e ∧
        call.1 = ⟨fs.bodies.length + i⟩ ∧ e.arity.accepts call.2.length = true ∧
        store.call call.1 call.2 = e.body call.2 ∧
        (∀ f, e = .math f → f.strictValue call.2 = some (f.value call.2)) ∧
        ∀ name n body, e.body = Native.fixed name n body → call.2.length ≠ n →
          e.body call.2 = throw (Native.miscount name n call.2.length) ∧
            ended.1 = .error (Native.miscount name n call.2.length) := by
  intro reached store ended
  have hbinds : reached.1.Binds fs.bodies.length (changes.flatMap Change.enrolled) :=
    binds_changeAll hbase fs hchanges
  have hbodies : store.bodies = fs.bodies ++ (changes.flatMap Change.enrolled).map Enrolled.body ++
      (later.flatMap Change.enrolled).map Enrolled.body := by
    rw [← base.bodies_changeAll changes fs]
    exact reached.1.bodies_changeAll later reached.2
  rw [parse, parseAt_eq_walk] at hread
  have hgrants := Sketch.walk_grants hbinds limit (Sketch.ofText text) 0 bench tree hread
  have hissued : ∀ call ∈ tree.calls, store.Issued call.1 := by
    intro call hcall
    obtain ⟨i, e, he, hhandle, -⟩ := hgrants.accepted call hcall
    rw [hhandle]
    exact (Functions.call_of_bodies hbodies he).1
  obtain ⟨calls, hrun, hcovers, hheeds⟩ := tree.exists_calls store c hissued host
  have hwritten : tree.calls = reached.1.written text := hgrants.calls_eq
  refine ⟨calls, hrun, hwritten ▸ hcovers, fun call hcall => ?_⟩
  obtain ⟨i, e, he, hhandle, haccepts⟩ :=
    hgrants.accepted _ (hcovers.subset (List.mem_map_of_mem hcall))
  have hbody : store.call call.1 call.2 = e.body call.2 := by
    have hat := (Functions.call_of_bodies hbodies he).2 call.2
    rwa [← hhandle] at hat
  refine ⟨i, e, he, hhandle, haccepts, hbody, ?_, ?_⟩
  · rintro f rfl
    exact MathFunction.strictValue_eq haccepts
  · intro name n body hfixed hcount
    have hthrow : e.body call.2 = throw (Native.miscount name n call.2.length) := by
      rw [hfixed, Native.fixed_of_length_ne hcount]
    exact ⟨hthrow, hheeds call hcall _ (hbody.trans hthrow)⟩

theorem Registry.evaluate_unbound_average :
    let changes : List (Change Journal) :=
      [.enter (.function "avg".toList .any HostFunction.average.body)]
    let reached := ((Registry.standard : Registry Journal).changeAll changes).run .empty
    let store := ((reached.1.changeAll [.unbind "Avg".toList]).run reached.2).2
    let x : Tree := .variable "x".toList
    let tree : Tree := .call "AVG".toList [.call "AVG".toList [x, x] ⟨0⟩, x, x] ⟨0⟩
    ((reached.1.parse none "avg(Avg(x, x), x, x)".toList).run ⟨.empty, []⟩).1 = .ok tree ∧
      ∀ c : Context, ∃ calls,
        ((tree.evaluate store.recorded c).run (.empty, [])).2.2 = calls ∧
        Covers ((tree.evaluate store c).run .empty).1 (calls.map (Prod.map id List.length))
          [(⟨0⟩, 2), (⟨0⟩, 3)] ∧
        ∀ call ∈ calls, call.2.length ≠ 2 → ((tree.evaluate store c).run .empty).1 =
          .error (Native.miscount "AVERAGE".toList 2 call.2.length) := by
  intro changes reached store x tree
  have hcall : Piece.ofText "avg(Avg(x, x), x, x)".toList =
      .call "avg".toList ["Avg(x, x)".toList, "x".toList, "x".toList] := by decide +kernel
  have hinner : Piece.ofText "Avg(x, x)".toList =
      .call "Avg".toList ["x".toList, "x".toList] := by decide +kernel
  have hx : Piece.ofText "x".toList = .identifier "x".toList := by decide +kernel
  have hsketch : Sketch.ofText "avg(Avg(x, x), x, x)".toList =
      .call "avg".toList [.call "Avg".toList [.identifier "x".toList, .identifier "x".toList],
        .identifier "x".toList, .identifier "x".toList] := by
    simp only [Sketch.ofText_eq, hcall, hinner, hx, List.map_cons, List.map_nil]
  have hlower : canonical "avg".toList = "AVG".toList := by decide +kernel
  have hmixed : canonical "Avg".toList = "AVG".toList := by decide +kernel
  have hget : reached.1.bindings.get? "AVG".toList = some (.function .any ⟨0⟩) := by
    have hbind := (Registry.standard : Registry Journal).lookup_bind "avg".toList
      (.function .any ⟨0⟩) "avg".toList
    rw [if_pos rfl, lookup, hlower] at hbind
    exact hbind
  have hread : ((reached.1.parse none "avg(Avg(x, x), x, x)".toList).run ⟨.empty, []⟩).1 =
      .ok tree := by
    rw [parse, parseAt_eq_walk, hsketch]
    simp only [Sketch.walk, Sketch.walkAll, checkDepth, buildCall, lookup, hlower, hmixed, hget,
      Binding.build]
    rfl
  refine ⟨hread, fun c => ?_⟩
  have hnative : ∀ change ∈ changes, change.IsNative := by simp [changes, Change.IsNative]
  obtain ⟨calls, hrun, hcovers, hcalls⟩ := evaluate_accepted (.inr rfl) .empty hnative hread
    [.unbind "Avg".toList] c .empty
  have hwritten : reached.1.written "avg(Avg(x, x), x, x)".toList = [(⟨0⟩, 2), (⟨0⟩, 3)] := by
    rw [written, hsketch]
    simp only [Sketch.calls, Sketch.callsAll, hlower, hmixed, List.filterMap_append,
      List.filterMap_cons, callOf, hget]
    rfl
  refine ⟨calls, congrArg (·.2.2) hrun, hwritten ▸ hcovers, fun call hcall hcount => ?_⟩
  obtain ⟨i, e, he, -, -, -, -, hfixed⟩ := hcalls call hcall
  obtain rfl : e = .host .any HostFunction.average.body := by
    have hmem : e ∈ changes.flatMap Change.enrolled := List.mem_of_getElem? he
    exact List.mem_singleton.1 hmem
  have hbody : HostFunction.average.body =
      Native.fixed "AVERAGE".toList 2 fun v => pure ((v[0] + v[1]) / (2 : Float)) := rfl
  exact (hfixed _ _ _ hbody hcount).2

end CallFormula
