import CallFormula.Proofs.Formula.Assembly
import CallFormula.Proofs.Formula.Nesting
import CallFormula.Proofs.Registry.Versions

set_option autoImplicit false

namespace CallFormula

variable {σ τ : Type}

namespace Sketch

def keys (s : Sketch) : List Text := s.calls.map Prod.fst

section Congr

variable {build build' : Text → List Tree → Action τ ParseError Tree} (limit : Option Nat)

mutual

theorem walk_congr : ∀ (s : Sketch) (depth : Nat),
    (∀ call ∈ s.calls, ∀ name, canonical name = call.1 → build name = build' name) →
    walk build limit depth s = walk build' limit depth s
  | .number _, _, _ => rfl
  | .identifier _, _, _ => rfl
  | .malformed _, _, _ => rfl
  | .call name args, depth, h => by
    have hname : build name = build' name :=
      h (canonical name, args.length) (by simp [calls]) name rfl
    rw [walk, walk, hname,
      walkAll_congr args (depth + 1) fun call hcall => h call (by simp [calls, hcall])]

theorem walkAll_congr : ∀ (ss : List Sketch) (depth : Nat),
    (∀ call ∈ callsAll ss, ∀ name, canonical name = call.1 → build name = build' name) →
    walkAll build limit depth ss = walkAll build' limit depth ss
  | [], _, _ => rfl
  | s :: ss, depth, h => by
    rw [walkAll, walkAll, walk_congr s depth fun call hcall => h call (by simp [callsAll, hcall]),
      walkAll_congr ss depth fun call hcall => h call (by simp [callsAll, hcall])]

end

end Congr

end Sketch

namespace Registry

theorem parse_congr {r r' : Registry σ} {text : Text}
    (h : ∀ key ∈ (Sketch.ofText text).keys, r.bindings.get? key = r'.bindings.get? key)
    (limit : Option Nat) : r.parse limit text = r'.parse limit text := by
  rw [parse, parse, parseAt_eq_walk, parseAt_eq_walk]
  refine Sketch.walk_congr limit _ 0 fun call hcall name hname => ?_
  have hlookup : r.lookup name = r'.lookup name := by
    rw [lookup, lookup, hname]
    exact h call.1 (List.mem_map_of_mem hcall)
  funext args
  rw [buildCall, buildCall, hlookup]

def headOf (r : Registry σ) (key : Text) : Option Head := (r.bindings.get? key).bind Binding.head

variable {r : Registry σ}

theorem heads_of_forall₂ {ss : List Sketch} {trees : List Tree}
    (h : List.Forall₂ (fun s (tree : Tree) => tree.IsFinite ∧
      tree.heads.map some = s.keys.map r.headOf) ss trees) :
    Tree.AreFinite trees ∧
      (Tree.headsAll trees).map some = ((Sketch.callsAll ss).map Prod.fst).map r.headOf := by
  induction h with
  | nil => exact ⟨trivial, rfl⟩
  | cons htree _ ih =>
    refine ⟨⟨htree.1, ih.1⟩, ?_⟩
    rw [Tree.headsAll, Sketch.callsAll, List.map_append, List.map_append, List.map_append,
      htree.2, ih.2]
    rfl

/-- A tree shows what the calls of its formula are bound to, and all its numbers are finite. -/
theorem IsNative.walk_yields_heads (h : r.IsNative) (limit : Option Nat) (s : Sketch)
    (depth : Nat) : (s.walk r.buildCall limit depth).Yields fun tree =>
      tree.IsFinite ∧ tree.heads.map some = s.keys.map r.headOf := by
  refine Sketch.walk_yields
    (Q := fun s tree => tree.IsFinite ∧ tree.heads.map some = s.keys.map r.headOf)
    (fun t tree htree => ?_) (fun t => ⟨trivial, rfl⟩) (fun name args trees hargs => ?_)
    limit s depth
  · obtain ⟨value, -, hfinite, rfl⟩ := readLiteral_eq_ok_iff.1 htree
    exact ⟨hfinite, rfl⟩
  · obtain ⟨hfinite, hheads⟩ := heads_of_forall₂ hargs
    have hkeys : (Sketch.call name args).keys.map r.headOf =
        (Tree.headsAll trees).map some ++ [r.headOf (canonical name)] := by
      rw [hheads]
      simp [Sketch.keys, Sketch.calls]
    rw [hkeys]
    cases h.names name with
    | nothing hb =>
      rw [buildCall_of_none hb]
      exact Action.yields_ofExcept fun tree htree => by cases htree
    | operator op hb =>
      rw [buildCall_of_operator hb]
      refine Action.yields_ofExcept fun tree htree => ?_
      obtain ⟨left, right, rfl, rfl⟩ := Operator.build_eq_ok_iff.1 htree
      have hget : r.bindings.get? (canonical name) = some (.operator op) := hb
      refine ⟨⟨hfinite.1, hfinite.2.1⟩, ?_⟩
      simp [Tree.heads, Tree.headsAll, headOf, hget, Binding.head]
    | function arity handle hb =>
      rw [buildCall_of_function hb]
      refine Action.yields_ofExcept fun tree htree => ?_
      obtain ⟨-, rfl⟩ := Arity.build_eq_ok_iff.1 htree
      have hget : r.bindings.get? (canonical name) = some (.function arity handle) := hb
      refine ⟨hfinite, ?_⟩
      simp [Tree.heads, headOf, hget, Binding.head]

theorem parse_none_of_ok {limit : Option Nat} {text : Text} {bench : Workbench σ} {tree : Tree}
    (h : ((r.parse limit text).run bench).1 = .ok tree) :
    ((r.parse none text).run bench).1 = .ok tree := by
  cases limit with
  | none => exact h
  | some m =>
    rw [parse, parseAt_eq_walk] at h ⊢
    have hle := Sketch.walk_yields_height_le r.buildCall _ 0 bench tree h
    rwa [Sketch.walk_of_height_le r.buildCall _ 0 hle] at h

theorem IsNative.isPure (h : r.IsNative) : r.IsPure := by
  intro name b hb
  cases h.names name with
  | nothing hnone => rw [hnone] at hb; cases hb
  | operator op hop =>
    rw [hop] at hb
    cases hb
    exact Binding.isPure_operator op
  | function arity handle hfunction =>
    rw [hfunction] at hb
    cases hb
    exact Binding.isPure_function arity handle

theorem IsNative.parse_unique (h : r.IsNative) {limit limit' : Option Nat} {text : Text}
    {bench bench' : Workbench σ} {tree tree' : Tree}
    (htree : ((r.parse limit text).run bench).1 = .ok tree)
    (htree' : ((r.parse limit' text).run bench').1 = .ok tree') : tree = tree' := by
  obtain ⟨result, hresult⟩ := h.isPure.exists_parse none text
  have hok := parse_none_of_ok htree
  have hok' := parse_none_of_ok htree'
  rw [hresult, Action.run_ofExcept] at hok hok'
  exact Except.ok.inj (hok.symm.trans hok')

/-- The text can be read as the tree. -/
def Reads (r : Registry σ) (text : Text) (tree : Tree) : Prop :=
  ∃ limit bench, ((r.parse limit text).run bench).1 = .ok tree

theorem IsNative.reads_unique (h : r.IsNative) {text : Text} {tree tree' : Tree}
    (htree : r.Reads text tree) (htree' : r.Reads text tree') : tree = tree' := by
  obtain ⟨limit, bench, hparse⟩ := htree
  obtain ⟨limit', bench', hparse'⟩ := htree'
  exact h.parse_unique hparse hparse'

theorem IsNative.heads_of_reads (h : r.IsNative) {text : Text} {tree : Tree}
    (htree : r.Reads text tree) :
    tree.IsFinite ∧ tree.heads.map some = (Sketch.ofText text).keys.map r.headOf := by
  obtain ⟨limit, bench, hparse⟩ := htree
  rw [parse, parseAt_eq_walk] at hparse
  exact h.walk_yields_heads limit _ 0 bench tree hparse

section Versions

variable {fs : Functions σ} {history : List (Revision σ)} {i j : Nat} {text : Text}

theorem parse_eq_of_origin_eq
    (h : ∀ key ∈ (Sketch.ofText text).keys, origin history i key = origin history j key)
    (limit : Option Nat) :
    (versionAt fs history i).parse limit text = (versionAt fs history j).parse limit text :=
  parse_congr (fun key hkey => by rw [get?_versionAt, get?_versionAt, h key hkey]) limit

theorem same_of_reads {tree tree' : Tree} (h : (versionAt fs history i).Reads text tree)
    (h' : (versionAt fs history i).Reads text tree') : tree.same tree' = true := by
  have hnative := isNative_versionAt fs history i
  obtain rfl := hnative.reads_unique h h'
  exact tree.same_self (hnative.heads_of_reads h).1

/-- A name that is called in a formula with a tree has an origin, and an equal tree shows the same
one. -/
theorem exists_origin_of_same {tree tree' : Tree} (h : (versionAt fs history i).Reads text tree)
    (h' : (versionAt fs history j).Reads text tree') (hsame : tree.same tree' = true) :
    ∀ key ∈ (Sketch.ofText text).keys, ∃ o,
      origin history i key = some o ∧ origin history j key = some o := by
  intro key hkey
  have hheads := ((isNative_versionAt fs history i).heads_of_reads h).2
  have hheads' := ((isNative_versionAt fs history j).heads_of_reads h').2
  rw [← Tree.heads_eq_of_same tree tree' hsame, hheads] at hheads'
  have hhead := List.map_inj_left.1 hheads' key hkey
  obtain ⟨head, -, hsome⟩ : ∃ head ∈ tree.heads, some head = (versionAt fs history i).headOf key :=
    List.mem_map.1 (hheads ▸ List.mem_map_of_mem hkey)
  obtain ⟨b, hb, hbhead⟩ := Option.bind_eq_some_iff.1 hsome.symm
  obtain ⟨b', hb', hbhead'⟩ := Option.bind_eq_some_iff.1 (hhead.symm.trans hsome.symm)
  obtain ⟨o, ho, hbinding⟩ := exists_origin hb
  obtain ⟨o', ho', hbinding'⟩ := exists_origin hb'
  obtain rfl := Origin.eq_of_head_eq hbinding hbinding' (hbhead.trans hbhead'.symm)
  exact ⟨o, ho, ho'⟩

/-- A reading depends on the names in the formula only, and its tree shows what they are bound to.
-/
theorem parse_versions (fs : Functions σ) (history : List (Revision σ)) (text : Text) (i j : Nat) :
    let keys := (Sketch.ofText text).keys
    let old := versionAt fs history i
    let new := versionAt fs history j
    ((∀ key ∈ keys, origin history i key = origin history j key) →
        ∀ limit, old.parse limit text = new.parse limit text) ∧
      (∀ tree tree', old.Reads text tree → new.Reads text tree' →
        ((tree == tree') = true ↔ ∀ key ∈ keys, ∃ o,
          origin history i key = some o ∧ origin history j key = some o)) ∧
      (∀ tree tree', old.Reads text tree → old.Reads text tree' → (tree == tree') = true) ∧
      ∀ edit, history[j]? = some ⟨i, edit⟩ → i < j →
        (canonical edit.name ∉ keys → ∀ limit, old.parse limit text = new.parse limit text) ∧
        (edit.isFunction = true → canonical edit.name ∈ keys →
          ∀ tree tree', old.Reads text tree → new.Reads text tree' → (tree == tree') = false) := by
  intro keys old new
  refine ⟨parse_eq_of_origin_eq,
    fun tree tree' h h' => ⟨exists_origin_of_same h h', fun horigin => ?_⟩,
    fun tree tree' h h' => same_of_reads h h', fun edit hedit hlt => ⟨fun hkey => ?_, ?_⟩⟩
  · have hparse : ∀ limit, old.parse limit text = new.parse limit text :=
      parse_eq_of_origin_eq fun key hkey => by
        obtain ⟨o, ho, ho'⟩ := horigin key hkey
        rw [ho, ho']
    obtain ⟨limit, bench, hread⟩ := h'
    rw [← hparse] at hread
    exact same_of_reads h ⟨limit, bench, hread⟩
  · refine parse_eq_of_origin_eq fun key hcalled => ?_
    have hne : key ≠ canonical edit.name := fun heq => hkey (heq ▸ hcalled)
    rw [origin_of_getElem? hedit key, if_neg hne, if_pos hlt]
  · intro hfunction hkey tree tree' h h'
    rw [Bool.eq_false_iff]
    intro hsame
    obtain ⟨o, ho, ho'⟩ := exists_origin_of_same h h' hsame _ hkey
    rw [origin_of_getElem? hedit, if_pos rfl] at ho'
    cases edit with
    | function name arity body =>
      cases ho'
      exact absurd (le_of_origin_function ho) (Nat.not_le.2 hlt)
    | operator name op => cases hfunction
    | unbind name => cases hfunction

end Versions

theorem parse_versions_max :
    let history : List (Revision Unit) :=
      [⟨0, .function "max".toList .any MathFunction.max.body⟩,
        ⟨0, .function "Max".toList .any MathFunction.max.body⟩, ⟨0, .operator "g".toList .add⟩]
    let text := "max(x)".toList
    ∃ tree tree', (versionAt .empty history 0).Reads text tree ∧
      (versionAt .empty history 1).Reads text tree' ∧ (tree == tree') = false ∧
      ∀ limit, (versionAt .empty history 0).parse limit text =
        (versionAt .empty history 2).parse limit text := by
  intro history text
  have hcall : Piece.ofText text = .call "max".toList ["x".toList] := by decide +kernel
  have hx : Piece.ofText "x".toList = .identifier ['x'] := by decide +kernel
  have hkey : canonical "max".toList = "MAX".toList := by decide +kernel
  have hmixed : canonical "Max".toList = "MAX".toList := by decide +kernel
  have hother : canonical "g".toList ≠ "MAX".toList := by decide +kernel
  have hsketch : Sketch.ofText text = .call "max".toList [.identifier ['x']] := by
    simp only [Sketch.ofText_eq, hcall, hx, List.map_cons, List.map_nil]
  have hkeys : (Sketch.ofText text).keys = ["MAX".toList] := by
    rw [hsketch, Sketch.keys, Sketch.calls, hkey]
    rfl
  have hread : ∀ (r : Registry Unit) (handle : Handle),
      r.lookup "max".toList = some (.function .any handle) →
      r.Reads text (.call "MAX".toList [.variable ['x']] handle) := by
    intro r handle hlookup
    refine ⟨none, ⟨(), []⟩, ?_⟩
    rw [parse, parseAt_eq_walk, hsketch]
    simp only [Sketch.walk, Sketch.walkAll, checkDepth, buildCall_of_function hlookup, hkey]
    rfl
  have hold : (versionAt .empty history 0).lookup "max".toList = some (.function .any ⟨0⟩) :=
    (lookup_bind _ _ _ _).trans (if_pos rfl)
  have hnew : (versionAt .empty history 1).lookup "max".toList = some (.function .any ⟨1⟩) :=
    (lookup_bind _ _ _ _).trans (if_pos (hkey.trans hmixed.symm))
  have hagain := (parse_versions .empty history text 0 1).2.2.2 _ rfl Nat.zero_lt_one
  have hbeside := (parse_versions .empty history text 0 2).2.2.2 _ rfl Nat.zero_lt_two
  refine ⟨_, _, hread _ _ hold, hread _ _ hnew, ?_, hbeside.1 ?_⟩
  · refine hagain.2 rfl ?_ _ _ (hread _ _ hold) (hread _ _ hnew)
    rw [hkeys]
    exact List.mem_singleton.2 hmixed
  · rw [hkeys]
    exact mt List.mem_singleton.1 hother

end Registry

end CallFormula
