import CallFormula.Formula

/-!
A calculator reads and evaluates formulas against a registry of its own and remembers the trees of
the formulas that it read last, by their trimmed texts. A new binding and a new limit of nesting
make it forget all of them.
-/

set_option autoImplicit false

namespace CallFormula

/-- Entries by key, the latest first. -/
structure Recent (α : Type) where
  capacity : Nat
  entries : List (Text × α)
  length_le : entries.length ≤ capacity
  distinct : (entries.map Prod.fst).Nodup

namespace Recent

variable {α : Type}

def empty (capacity : Nat) : Recent α := ⟨capacity, [], Nat.zero_le _, .nil⟩

def get? (r : Recent α) (k : Text) : Option α := r.entries.lookup k

def inFront (k : Text) (v : α) (es : List (Text × α)) : List (Text × α) :=
  (k, v) :: es.filter fun e => e.1 ≠ k

theorem keys_inFront (k : Text) (v : α) (es : List (Text × α)) :
    (inFront k v es).map Prod.fst = k :: (es.map Prod.fst).filter (· ≠ k) := by
  simp only [inFront, List.map_cons, List.filter_map]
  rfl

theorem distinct_inFront (k : Text) (v : α) {es : List (Text × α)}
    (h : (es.map Prod.fst).Nodup) : ((inFront k v es).map Prod.fst).Nodup := by
  rw [keys_inFront, List.nodup_cons]
  constructor
  · simp
  · exact h.sublist List.filter_sublist

theorem inFront_append (k : Text) (v : α) (es fs : List (Text × α)) :
    inFront k v (es ++ fs) = inFront k v es ++ fs.filter fun e => e.1 ≠ k := by
  rw [inFront, List.filter_append, inFront, List.cons_append]

theorem inFront_of_not_mem {k : Text} {es : List (Text × α)} (h : k ∉ es.map Prod.fst) (v : α) :
    inFront k v es = (k, v) :: es := by
  have hother : ∀ e ∈ es, decide (e.1 ≠ k) = true := fun e he =>
    decide_eq_true fun heq => h (heq ▸ List.mem_map_of_mem he)
  rw [inFront, List.filter_eq_self.2 hother]

theorem length_inFront_of_mem {k : Text} {es : List (Text × α)}
    (hdistinct : (es.map Prod.fst).Nodup) (h : k ∈ es.map Prod.fst) (v : α) :
    (inFront k v es).length = es.length := by
  induction es with
  | nil => cases h
  | cons e es ih =>
    obtain ⟨hnew, hrest⟩ := List.nodup_cons.1 hdistinct
    by_cases hk : e.1 = k
    · have hfront : inFront k v (e :: es) = inFront k v es := by
        rw [inFront, List.filter_cons_of_neg (by simpa using hk), inFront]
      have hnone : k ∉ es.map Prod.fst := hk ▸ hnew
      rw [hfront, inFront_of_not_mem hnone, List.length_cons, List.length_cons]
    · have hmem : k ∈ es.map Prod.fst := (List.mem_cons.1 h).resolve_left (Ne.symm hk)
      have hlength := ih hrest hmem
      rw [inFront, List.length_cons] at hlength
      rw [inFront, List.filter_cons_of_pos (by simpa using hk), List.length_cons, List.length_cons,
        hlength, List.length_cons]

/-- Notes an entry: it becomes the latest, and the oldest is forgotten if there are too many. -/
def note (r : Recent α) (k : Text) (v : α) : Recent α where
  capacity := r.capacity
  entries := (inFront k v r.entries).take r.capacity
  length_le := List.length_take_le _ _
  distinct := (distinct_inFront k v r.distinct).sublist ((List.take_sublist _ _).map _)

def keys (r : Recent α) : List Text := r.entries.map Prod.fst

def size (r : Recent α) : Nat := r.entries.length

theorem lookup_of_mem {k : Text} {v : α} {es : List (Text × α)}
    (hdistinct : (es.map Prod.fst).Nodup) (h : (k, v) ∈ es) : es.lookup k = some v := by
  induction es with
  | nil => cases h
  | cons e es ih =>
    obtain ⟨hnew, hrest⟩ := List.nodup_cons.1 hdistinct
    rcases List.mem_cons.1 h with rfl | h
    · exact List.lookup_cons_self
    · have hne : k ≠ e.1 := fun heq => hnew (heq ▸ List.mem_map_of_mem h)
      rw [List.lookup_cons, beq_eq_false_iff_ne.2 hne]
      exact ih hrest h

theorem not_mem_entries_empty {capacity : Nat} {e : Text × α} :
    e ∉ (empty capacity : Recent α).entries := List.not_mem_nil

theorem get?_eq_none_iff (r : Recent α) (k : Text) : r.get? k = none ↔ k ∉ r.keys := by
  rw [get?, List.lookup_eq_none_iff, keys, List.mem_map]
  simp only [bne_iff_ne, ne_eq, not_exists, not_and]
  exact forall₂_congr fun e _ => by rw [eq_comm]

theorem get?_eq_some_iff {r : Recent α} {k : Text} {v : α} :
    r.get? k = some v ↔ (k, v) ∈ r.entries := by
  constructor
  · intro h
    obtain ⟨before, after, heq, -⟩ := List.lookup_eq_some_iff.1 h
    simp [heq]
  · exact lookup_of_mem r.distinct

/-- A hit is promoted: it comes first, the others keep their order, and none is forgotten. -/
theorem entries_note_of_hit {r : Recent α} {k : Text} {w : α} (h : r.get? k = some w) (v : α) :
    (r.note k v).entries = inFront k v r.entries := by
  have hmem : k ∈ r.keys := List.mem_map_of_mem (get?_eq_some_iff.1 h)
  have hlength := length_inFront_of_mem r.distinct hmem v
  exact List.take_of_length_le (hlength ▸ r.length_le)

/-- A new entry comes first, and of more entries than the capacity the oldest is forgotten. -/
theorem entries_note_of_miss {r : Recent α} {k : Text} (h : r.get? k = none) (v : α) :
    (r.note k v).entries = ((k, v) :: r.entries).take r.capacity := by
  have hnew : k ∉ r.keys := (get?_eq_none_iff r k).1 h
  exact congrArg (List.take r.capacity) (inFront_of_not_mem hnew v)

theorem mem_entries_note {r : Recent α} {k : Text} {v : α} {e : Text × α}
    (h : e ∈ (r.note k v).entries) : e = (k, v) ∨ e ∈ r.entries := by
  cases hget : r.get? k with
  | some w =>
    rw [entries_note_of_hit hget] at h
    exact (List.mem_cons.1 h).imp_right fun hrest => (List.mem_filter.1 hrest).1
  | none =>
    rw [entries_note_of_miss hget] at h
    exact List.mem_cons.1 (List.mem_of_mem_take h)

end Recent

def defaultCapacity : Nat := 100

structure Calculator (σ : Type) where
  registry : Registry σ
  recent : Recent Tree
  limit : Nat

/-- Does a step of an evaluation in the middle of reading formulas. -/
def Workbench.onHost {σ α : Type} (step : Evaluation σ α) :
    StateM (Workbench σ) (Except EvaluationError α) := fun bench =>
  let (result, host) := step.run bench.host
  (result, { bench with host := host })

namespace Calculator

variable {σ : Type}

def make (registry : Registry σ) (capacity : Nat) : Calculator σ :=
  ⟨registry, .empty capacity, defaultLimit⟩

def forget (k : Calculator σ) : Calculator σ := { k with recent := .empty k.recent.capacity }

def withLimit (k : Calculator σ) (limit : Nat) : Calculator σ := { k with limit := limit }.forget

def enter (k : Calculator σ) (r : Registration σ) : StateM (Functions σ) (Calculator σ) := do
  let registry ← k.registry.enter r
  pure { k with registry := registry }.forget

/-- The tree of a formula: the remembered one, or else a newly read one, which is remembered. A
formula that cannot be read leaves the memory as it is. -/
def parse (k : Calculator σ) (formula : Text) :
    StateM (Workbench σ) (Except ParseError Tree × Calculator σ) := do
  let key := Text.trim formula
  match k.recent.get? key with
  | some tree => pure (.ok tree, { k with recent := k.recent.note key tree })
  | none =>
    match ← (k.registry.parse (some k.limit) key).run with
    | .ok tree => pure (.ok tree, { k with recent := k.recent.note key tree })
    | .error e => pure (.error e, k)

def evaluate (k : Calculator σ) (fs : Functions σ) (formula : Text) (c : Context) :
    StateM (Workbench σ) (Except FormulaError Float × Calculator σ) := do
  match ← k.parse formula with
  | (.error e, k) => pure (.error (.parse e), k)
  | (.ok tree, k) =>
    match ← Workbench.onHost (tree.evaluate fs c) with
    | .error e => pure (.error (.evaluation e), k)
    | .ok value => pure (.ok value, k)

def remembered (k : Calculator σ) : Nat := k.recent.size

end Calculator

def Tree.evaluateEach {σ : Type} (fs : Functions σ) (tree : Tree) :
    List Context → StateM σ (List (Except EvaluationError Float))
  | [] => pure []
  | c :: cs => do
    let value ← (tree.evaluate fs c).run
    let values ← tree.evaluateEach fs cs
    pure (value :: values)

end CallFormula
