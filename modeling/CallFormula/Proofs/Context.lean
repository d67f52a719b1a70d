import CallFormula.Context
import CallFormula.Proofs.Table

set_option autoImplicit false

namespace CallFormula

namespace Context

inductive Step where
  | set (name : Text) (value : Float)
  | typeIn (name raw : Text)
  | extend (pairs : List (Text × Float))
  | extract (name : Text)
  | clear

def step (c : Context) : Step → Context
  | .set name value => c.set name value
  | .typeIn name raw => ((typeIn name raw).run c).2
  | .extend pairs => c.extend pairs
  | .extract name => (c.extract name).2
  | .clear => empty

def ofSteps (steps : List Step) : Context := steps.foldl step empty

def putAll (pairs : List (Text × Float)) : List (Write Float) :=
  pairs.map fun p => .put p.1 p.2

/-- What a step writes; nothing, if it is refused. -/
def Step.writes : Step → List (Write Float)
  | .set name value => [.put name value]
  | .typeIn name raw =>
    if Text.trim name = [] then []
    else
      match Number.read (Text.trim raw) with
      | none => []
      | some value => [.put (Text.trim name) value]
  | .extend pairs => putAll pairs
  | .extract name => [.drop name]
  | .clear => [.clear]

theorem values_extend (c : Context) (pairs : List (Text × Float)) :
    (c.extend pairs).values = c.values.writeAll Text.upper (putAll pairs) := by
  induction pairs generalizing c with
  | nil => rfl
  | cons p pairs ih => exact ih (c.set p.1 p.2)

theorem values_step (c : Context) (s : Step) :
    (c.step s).values = c.values.writeAll Text.upper s.writes := by
  cases s with
  | set name value => rfl
  | typeIn name raw =>
    rw [step, run_typeIn, setText, Step.writes]
    by_cases hname : Text.trim name = []
    · simp only [if_pos hname]
      rfl
    · simp only [if_neg hname]
      cases Number.read (Text.trim raw) <;> rfl
  | extend pairs => exact c.values_extend pairs
  | extract name =>
    rw [step, extract_eq]
    rfl
  | clear => rfl

theorem values_foldl_step (c : Context) (steps : List Step) :
    (steps.foldl step c).values = c.values.writeAll Text.upper (steps.flatMap Step.writes) := by
  induction steps generalizing c with
  | nil => rfl
  | cons s steps ih =>
    rw [List.foldl_cons, ih, values_step, List.flatMap_cons, Table.writeAll_append]

theorem values_ofSteps (steps : List Step) :
    (ofSteps steps).values = Table.empty.writeAll Text.upper (steps.flatMap Step.writes) :=
  values_foldl_step empty steps

theorem isFormed_ofSteps (steps : List Step) : (ofSteps steps).values.IsFormed Text.upper := by
  rw [values_ofSteps]
  exact Table.isFormed_empty.writeAll _

/-- A typed value is refused for its name, or else for its text, and written if it is not refused. A
refusal leaves the context as it is. -/
theorem typeIn_laws (name raw : Text) (c : Context) :
    let ended := (typeIn name raw).run c
    (ended.1 = .error .emptyName ↔ Text.trim name = []) ∧
      (ended.1 = .error (.invalidNumber (Text.trim raw)) ↔
        Text.trim name ≠ [] ∧ Number.read (Text.trim raw) = none) ∧
      (∀ value, ended.1 = .ok value ↔
        Text.trim name ≠ [] ∧ Number.read (Text.trim raw) = some value) ∧
      (∀ e, ended.1 = .error e → ended.2 = c) ∧
      ∀ value, ended.1 = .ok value → ended.2 = c.set (Text.trim name) value := by
  intro ended
  have hended : ended = _ := run_typeIn name raw c
  rw [setText] at hended
  by_cases hname : Text.trim name = []
  · simp only [if_pos hname] at hended
    simp [hended, hname]
  · simp only [if_neg hname] at hended
    cases hread : Number.read (Text.trim raw) with
    | none =>
      rw [hread] at hended
      simp [hended, hname]
    | some value =>
      rw [hread] at hended
      simp [hended, hname, eq_comm]

section Pairs

variable {pairs : List (Text × Float)}

def AreApart (pairs : List (Text × Float)) : Prop :=
  pairs.Pairwise fun p q => Text.upper p.1 ≠ Text.upper q.1

theorem AreApart.putAll (h : AreApart pairs) :
    (putAll pairs).Pairwise (Write.Apart Text.upper) :=
  List.pairwise_map.2 (h.imp fun hne => Write.apart_put hne _ _)

theorem AreApart.get?_extend (h : AreApart pairs) (c : Context) {p : Text × Float}
    (hp : p ∈ pairs) :
    (c.extend pairs).get? p.1 = some p.2 := by
  have hmem : Write.put p.1 p.2 ∈ Context.putAll pairs := List.mem_map_of_mem hp
  have hlatest := latest_of_mem h.putAll hmem (Write.effect_eq_some_iff.2 ⟨p.1, rfl, rfl⟩)
  rw [get?, values_extend, Table.get?_writeAll, hlatest]
  rfl

theorem AreApart.extend_perm (h : AreApart pairs) {pairs' : List (Text × Float)}
    (hperm : pairs.Perm pairs') (c : Context) : c.extend pairs' = c.extend pairs := by
  have hvalues : (c.extend pairs').values = (c.extend pairs).values := by
    rw [values_extend, values_extend]
    exact Table.writeAll_perm h.putAll (hperm.map _) c.values
  exact congrArg Context.mk hvalues

theorem AreApart.size_ofPairs (h : AreApart pairs) : (ofPairs pairs).size = pairs.length := by
  have hnodup : (pairs.map fun p => Text.upper p.1).Nodup := List.pairwise_map.2 h
  have hkeys : ∀ k, k ∈ (ofPairs pairs).values.keys ↔ k ∈ pairs.map fun p => Text.upper p.1 := by
    intro k
    rw [Table.mem_keys_iff, List.mem_map]
    constructor
    · intro hk
      obtain ⟨value, hvalue⟩ := Option.isSome_iff_exists.1 hk
      rw [ofPairs, values_extend] at hvalue
      obtain ⟨before, name, after, hsplit, rfl, -⟩ :=
        Table.get?_writeAll_empty_eq_some_iff.1 hvalue
      have hmem : Write.put name value ∈ Context.putAll pairs :=
        hsplit ▸ List.mem_append_right before List.mem_cons_self
      obtain ⟨p, hp, hput⟩ := List.mem_map.1 hmem
      cases hput
      exact ⟨p, hp, rfl⟩
    · rintro ⟨p, hp, rfl⟩
      exact Option.isSome_iff_exists.2 ⟨p.2, h.get?_extend empty hp⟩
  have hsize := Table.size_eq_of_mem_keys_iff hnodup hkeys
  rwa [List.length_map] at hsize

end Pairs

/-- In a context the latest write to a name counts, after any run of steps. -/
theorem ofSteps_latest (steps : List Step) :
    let c := ofSteps steps
    (∀ name value, c.get? name = some value ↔
        ∃ before written after,
          steps.flatMap Step.writes = before ++ .put written value :: after ∧
          Text.upper name = Text.upper written ∧
          ∀ w ∈ after, w.effect Text.upper (Text.upper name) = none) ∧
      (∀ name, c.contains name = (c.get? name).isSome ∧ (c.extract name).1 = c.get? name ∧
        ∀ other, (c.extract name).2.get? other =
          if Text.upper other = Text.upper name then none else c.get? other) ∧
      c.size = {k | ∃ name, Text.upper name = k ∧ c.contains name = true}.ncard ∧
      (c.isEmpty = true ↔ c.size = 0) ∧
      (∀ name raw,
        let ended := (typeIn name raw).run c
        (ended.1 = .error .emptyName ↔ Text.trim name = []) ∧
          (ended.1 = .error (.invalidNumber (Text.trim raw)) ↔
            Text.trim name ≠ [] ∧ Number.read (Text.trim raw) = none) ∧
          (∀ value, ended.1 = .ok value ↔
            Text.trim name ≠ [] ∧ Number.read (Text.trim raw) = some value) ∧
          (∀ e, ended.1 = .error e → ended.2 = c) ∧
          ∀ value, ended.1 = .ok value → ended.2 = c.set (Text.trim name) value) ∧
      (∀ ps qs, c.extend (ps ++ qs) = (c.extend ps).extend qs) ∧
      ∀ pairs, ofPairs pairs = empty.extend pairs ∧ (AreApart pairs →
        (∀ p ∈ pairs, (c.extend pairs).get? p.1 = some p.2) ∧
        (∀ pairs', pairs.Perm pairs' → c.extend pairs' = c.extend pairs) ∧
        (ofPairs pairs).size = pairs.length) := by
  intro c
  refine ⟨fun name value => ?_, fun name => ?_, (isFormed_ofSteps steps).size_eq, ?_,
    fun name raw => typeIn_laws name raw c, c.extend_append,
    fun pairs => ⟨rfl, fun h => ⟨fun p => h.get?_extend c, fun _ hp => h.extend_perm hp c,
      h.size_ofPairs⟩⟩⟩
  · rw [get?, values_ofSteps]
    exact Table.get?_writeAll_empty_eq_some_iff
  · rw [extract_eq]
    exact ⟨rfl, rfl, c.get?_remove name⟩
  · exact List.isEmpty_iff_length_eq_zero

theorem ofSteps_latest_strasse :
    let c := ofSteps [.clear, .set "straße".toList 1, .typeIn " Strasse ".toList " 2 ".toList,
      .typeIn "strasse".toList "two".toList]
    c.get? "STRASSE".toList = some 2 ∧ (c.extract "STRASSE".toList).1 = some 2 ∧
      (c.extract "STRASSE".toList).2.get? "straße".toList = none ∧
      AreApart [("ß".toList, 4), ("x".toList, 5)] ∧
      c.extend [("x".toList, 5), ("ß".toList, 4)] =
        c.extend [("ß".toList, 4), ("x".toList, 5)] := by
  intro c
  obtain ⟨hget, hname, -, -, -, -, hpairs⟩ := ofSteps_latest [.clear, .set "straße".toList 1,
    .typeIn " Strasse ".toList " 2 ".toList, .typeIn "strasse".toList "two".toList]
  have hstrasse : Text.trim " Strasse ".toList = "Strasse".toList := by decide +kernel
  have htwo : Number.read (Text.trim " 2 ".toList) = some 2 := by decide +kernel
  have hword : Number.read (Text.trim "two".toList) = none := by decide +kernel
  have hread : (Step.typeIn " Strasse ".toList " 2 ".toList).writes =
      [.put "Strasse".toList 2] := by
    rw [Step.writes, htwo, hstrasse]
    exact if_neg (by decide +kernel)
  have hrefused : (Step.typeIn "strasse".toList "two".toList).writes = [] := by
    rw [Step.writes, hword]
    exact if_neg (by decide +kernel)
  have hfound : c.get? "STRASSE".toList = some 2 := by
    refine (hget _ _).2 ⟨[.clear, .put "straße".toList 1], "Strasse".toList, [], ?_,
      by decide +kernel, fun _ hw => absurd hw List.not_mem_nil⟩
    rw [List.flatMap_cons, List.flatMap_cons, List.flatMap_cons, List.flatMap_cons, hread, hrefused]
    rfl
  have hsharp : Text.upper "straße".toList = Text.upper "STRASSE".toList := by decide +kernel
  have hapart : AreApart [("ß".toList, 4), ("x".toList, 5)] :=
    List.pairwise_pair.2 (by decide +kernel)
  refine ⟨hfound, (hname _).2.1.trans hfound, ?_, hapart, ?_⟩
  · rw [(hname _).2.2, if_pos hsharp]
  · exact ((hpairs _).2 hapart).2.1 _ (.swap _ _ _)

end Context

end CallFormula
