import CallFormula.Proofs.Text.Bytes
import CallFormula.Table
import Mathlib.Data.Set.Card

set_option autoImplicit false

namespace CallFormula

inductive Write (α : Type) where
  | put (name : Text) (value : α)
  | drop (name : Text)
  | clear

variable {α : Type} {form : Text → Text}

/-- What a write leaves at a key: a value or none. It may also leave the key alone. -/
def Write.effect (form : Text → Text) (key : Text) : Write α → Option (Option α)
  | put name value => if key = form name then some (some value) else none
  | drop name => if key = form name then some none else none
  | clear => some none

/-- What the latest write leaves at a key that does not leave it alone. -/
def latest (form : Text → Text) (key : Text) (writes : List (Write α)) : Option (Option α) :=
  writes.reverse.findSome? (Write.effect form key)

def Write.map {β : Type} (g : α → β) : Write α → Write β
  | put name value => .put name (g value)
  | drop name => .drop name
  | clear => .clear

theorem Write.effect_map {β : Type} (g : α → β) (key : Text) (w : Write α) :
    (w.map g).effect form key = (w.effect form key).map (Option.map g) := by
  cases w with
  | put name value =>
    rw [map, effect, effect]
    split <;> rfl
  | drop name =>
    rw [map, effect, effect]
    split <;> rfl
  | clear => rfl

theorem latest_map {β : Type} (g : α → β) (key : Text) (writes : List (Write α)) :
    latest form key (writes.map (Write.map g)) = (latest form key writes).map (Option.map g) := by
  rw [latest, latest, ← List.map_reverse, List.findSome?_map, List.map_findSome?]
  exact congrArg (writes.reverse.findSome? ·) (funext fun w => w.effect_map g key)

theorem latest_append (key : Text) (es fs : List (Write α)) :
    latest form key (es ++ fs) = (latest form key fs).or (latest form key es) := by
  rw [latest, latest, latest, List.reverse_append, List.findSome?_append]

theorem latest_singleton (key : Text) (w : Write α) : latest form key [w] = w.effect form key := by
  rw [latest, List.reverse_singleton, List.findSome?_cons]
  cases w.effect form key <;> rfl

theorem Write.effect_eq_some_iff {key : Text} {w : Write α} {value : α} :
    w.effect form key = some (some value) ↔ ∃ name, w = .put name value ∧ key = form name := by
  cases w with
  | put name other =>
    rw [effect]
    split <;> simp_all
  | drop name =>
    rw [effect]
    split <;> simp
  | clear => simp [effect]

theorem latest_eq_none_iff {key : Text} {writes : List (Write α)} :
    latest form key writes = none ↔ ∀ w ∈ writes, w.effect form key = none := by
  simp [latest, List.findSome?_eq_none_iff]

theorem latest_eq_some_iff {key : Text} {writes : List (Write α)} {left : Option α} :
    latest form key writes = some left ↔ ∃ before w after, writes = before ++ w :: after ∧
      w.effect form key = some left ∧ ∀ w' ∈ after, w'.effect form key = none := by
  rw [latest, List.findSome?_eq_some_iff]
  constructor
  · rintro ⟨after, w, before, hsplit, hw, hnone⟩
    refine ⟨before.reverse, w, after.reverse, ?_, hw, fun w' hw' => ?_⟩
    · have hreverse := congrArg List.reverse hsplit
      simpa using hreverse
    · exact hnone w' (List.mem_reverse.1 hw')
  · rintro ⟨before, w, after, rfl, hw, hnone⟩
    refine ⟨after.reverse, w, before.reverse, by simp, hw, fun w' hw' => ?_⟩
    exact hnone w' (List.mem_reverse.1 hw')

def Write.Apart (form : Text → Text) (v w : Write α) : Prop :=
  ∀ key, v.effect form key = none ∨ w.effect form key = none

theorem Write.apart_put {a b : Text} (h : form a ≠ form b) (x y : α) :
    (Write.put a x).Apart form (.put b y) := by
  intro key
  by_cases hkey : key = form a
  · exact .inr (if_neg (hkey ▸ h))
  · exact .inl (if_neg hkey)

theorem latest_of_mem {writes : List (Write α)} (h : writes.Pairwise (Write.Apart form))
    {w : Write α} (hw : w ∈ writes) {key : Text} {left : Option α}
    (hleft : w.effect form key = some left) : latest form key writes = some left := by
  obtain ⟨before, after, rfl⟩ := List.append_of_mem hw
  have hafter := (List.pairwise_cons.1 (List.pairwise_append.1 h).2.1).1
  refine latest_eq_some_iff.2 ⟨before, w, after, rfl, hleft, fun w' hw' => ?_⟩
  refine (hafter w' hw' key).resolve_left fun hnone => ?_
  rw [hnone] at hleft
  cases hleft

namespace Table

def write (form : Text → Text) (t : Table α) : Write α → Table α
  | .put name value => t.insert (form name) value
  | .drop name => t.erase (form name)
  | .clear => empty

def writeAll (form : Text → Text) (t : Table α) (writes : List (Write α)) : Table α :=
  writes.foldl (write form) t

theorem writeAll_append (t : Table α) (es fs : List (Write α)) :
    t.writeAll form (es ++ fs) = (t.writeAll form es).writeAll form fs := List.foldl_append

theorem get?_write (t : Table α) (w : Write α) (key : Text) :
    (t.write form w).get? key = (w.effect form key).getD (t.get? key) := by
  cases w with
  | put other value =>
    rw [write, get?_insert, Write.effect]
    split <;> rfl
  | drop other =>
    rw [write, get?_erase, Write.effect]
    split <;> rfl
  | clear => rfl

theorem get?_writeAll (t : Table α) (writes : List (Write α)) (key : Text) :
    (t.writeAll form writes).get? key = (latest form key writes).getD (t.get? key) := by
  induction writes generalizing t with
  | nil => rfl
  | cons w writes ih =>
    have hstep : t.writeAll form (w :: writes) = (t.write form w).writeAll form writes := rfl
    rw [hstep, ih, get?_write, ← List.singleton_append, latest_append, latest_singleton]
    cases latest form key writes <;> rfl

/-- What is found in the end was put there under a name of this form, and is not concerned by a
later write. -/
theorem get?_writeAll_empty_eq_some_iff {writes : List (Write α)} {key : Text} {value : α} :
    (empty.writeAll form writes).get? key = some value ↔ ∃ before name after,
      writes = before ++ .put name value :: after ∧ key = form name ∧
        ∀ w ∈ after, w.effect form key = none := by
  have hlatest : (empty.writeAll form writes).get? key = some value ↔
      latest form key writes = some (some value) := by
    rw [get?_writeAll]
    cases latest form key writes with
    | some left => exact Option.some_inj.symm
    | none => exact ⟨nofun, nofun⟩
  rw [hlatest, latest_eq_some_iff]
  constructor
  · rintro ⟨before, w, after, hsplit, hput, hafter⟩
    obtain ⟨name, rfl, hname⟩ := Write.effect_eq_some_iff.1 hput
    exact ⟨before, name, after, hsplit, hname, hafter⟩
  · rintro ⟨before, name, after, hsplit, hname, hafter⟩
    exact ⟨before, .put name value, after, hsplit,
      Write.effect_eq_some_iff.2 ⟨name, rfl, hname⟩, hafter⟩

theorem writeAll_perm {ws ws' : List (Write α)} (h : ws.Pairwise (Write.Apart form))
    (hperm : ws.Perm ws') (t : Table α) : t.writeAll form ws' = t.writeAll form ws := by
  have hlatest : ∀ key, latest form key ws' = latest form key ws := by
    intro key
    cases hleft : latest form key ws with
    | none =>
      have hnone := latest_eq_none_iff.1 hleft
      exact latest_eq_none_iff.2 fun w hw => hnone w (hperm.mem_iff.2 hw)
    | some left =>
      obtain ⟨before, w, after, hsplit, hw, -⟩ := latest_eq_some_iff.1 hleft
      have hmem : w ∈ ws := hsplit ▸ List.mem_append_right before List.mem_cons_self
      exact latest_of_mem (h.perm hperm fun hvw key => (hvw key).symm) (hperm.mem_iff.1 hmem) hw
  refine Table.ext fun key => ?_
  rw [get?_writeAll, get?_writeAll, hlatest]

def IsFormed (form : Text → Text) (t : Table α) : Prop := ∀ k ∈ t.keys, ∃ name, form name = k

theorem isFormed_empty : (empty : Table α).IsFormed form := fun _ h => absurd h List.not_mem_nil

theorem mem_keys_insert {t : Table α} {k l : Text} {v : α} :
    l ∈ (t.insert k v).keys ↔ l = k ∨ l ∈ t.keys := by
  simp only [mem_keys_iff, contains, get?_insert]
  split <;> simp_all

theorem mem_keys_erase {t : Table α} {k l : Text} :
    l ∈ (t.erase k).keys ↔ l ≠ k ∧ l ∈ t.keys := by
  simp only [mem_keys_iff, contains, get?_erase]
  split <;> simp_all

theorem IsFormed.write {t : Table α} (h : t.IsFormed form) (w : Write α) :
    (t.write form w).IsFormed form := by
  intro k hk
  cases w with
  | put name value =>
    rcases mem_keys_insert.1 hk with rfl | hk
    · exact ⟨name, rfl⟩
    · exact h k hk
  | drop name => exact h k (mem_keys_erase.1 hk).2
  | clear => exact isFormed_empty k hk

theorem IsFormed.writeAll {t : Table α} (h : t.IsFormed form) (writes : List (Write α)) :
    (t.writeAll form writes).IsFormed form := by
  induction writes generalizing t with
  | nil => exact h
  | cons w writes ih => exact ih (h.write w)

theorem IsFormed.mem_keys_iff {t : Table α} (h : t.IsFormed form) {k : Text} :
    k ∈ t.keys ↔ ∃ name, form name = k ∧ t.contains (form name) = true := by
  constructor
  · intro hk
    obtain ⟨name, rfl⟩ := h k hk
    exact ⟨name, rfl, (t.mem_keys_iff (form name)).1 hk⟩
  · rintro ⟨name, rfl, hname⟩
    exact (t.mem_keys_iff (form name)).2 hname

theorem IsFormed.contains_of_mem_keys {t : Table α} (h : t.IsFormed form)
    (hform : ∀ name, form (form name) = form name) {k : Text} (hk : k ∈ t.keys) :
    t.contains (form k) = true := by
  obtain ⟨name, rfl⟩ := h k hk
  rw [hform]
  exact (t.mem_keys_iff (form name)).1 hk

theorem sorted_bytes_keys (t : Table α) : (t.keys.map Text.bytes).Pairwise (· < ·) :=
  List.pairwise_map.2 (t.sorted_keys.imp Text.bytes_lt_bytes)

theorem nodup_keys (t : Table α) : t.keys.Nodup :=
  t.sorted_keys.imp fun {k l} (hlt : k < l) (heq : k = l) => List.lt_irrefl l (heq ▸ hlt)

theorem size_eq_of_mem_keys_iff {t : Table α} {ks : List Text} (hks : ks.Nodup)
    (h : ∀ k, k ∈ t.keys ↔ k ∈ ks) : t.size = ks.length := by
  rw [← length_keys]
  exact ((List.perm_ext_iff_of_nodup t.nodup_keys hks).2 h).length_eq

theorem IsFormed.size_eq {t : Table α} (h : t.IsFormed form) :
    t.size = {k | ∃ name, form name = k ∧ t.contains (form name) = true}.ncard := by
  have hkeys : {k | ∃ name, form name = k ∧ t.contains (form name) = true} = ↑t.keys.toFinset := by
    ext k
    rw [Set.mem_ofPred_eq, List.coe_toFinset, Set.mem_ofPred_eq, h.mem_keys_iff]
  rw [hkeys, Set.ncard_coe_finset, List.toFinset_card_of_nodup t.nodup_keys, length_keys]

end Table

end CallFormula
