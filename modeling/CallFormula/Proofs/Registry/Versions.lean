import CallFormula.Proofs.Registry.Changes
import CallFormula.Proofs.Registry.Ordinary
import CallFormula.Proofs.Tree.Equality

/-!
Histories of registries with clones: every revision makes a version of the version that it edits.
What a key is bound to has an origin, the operator or the revision that registered the function.
-/

set_option autoImplicit false

namespace CallFormula

variable {σ : Type}

inductive Edit (σ : Type) where
  | operator (name : Text) (op : Operator)
  | function (name : Text) (arity : Arity) (body : Native σ)
  | unbind (name : Text)

namespace Edit

def name : Edit σ → Text
  | operator name _ => name
  | function name _ _ => name
  | unbind name => name

def change : Edit σ → Change σ
  | operator name op => .enter (.bind name (.operator op))
  | function name arity body => .enter (.function name arity body)
  | unbind name => .unbind name

def isFunction : Edit σ → Bool
  | function _ _ _ => true
  | _ => false

end Edit

/-- An edit of the version at a place, or of the empty registry if there is none. -/
structure Revision (σ : Type) where
  parent : Nat
  edit : Edit σ

namespace Registry

def revise (versions : List (Registry σ)) (revision : Revision σ) :
    StateM (Functions σ) (List (Registry σ)) := do
  let version ← (versions[revision.parent]?.getD empty).change revision.edit.change
  pure (versions ++ [version])

def versions (history : List (Revision σ)) : StateM (Functions σ) (List (Registry σ)) :=
  history.foldlM revise []

def versionAt (fs : Functions σ) (history : List (Revision σ)) (place : Nat) : Registry σ :=
  ((versions history).run fs).1[place]?.getD empty

end Registry

/-- Where a binding comes from: it is that of an operator, or the revision at a place registered the
function. -/
inductive Origin where
  | operator (op : Operator)
  | function (place : Nat)
  deriving DecidableEq, Repr

def Edit.origin (place : Nat) : Edit σ → Option Origin
  | operator _ op => some (.operator op)
  | function _ _ _ => some (.function place)
  | unbind _ => none

/-- The origin of what a key is bound to in the version at a place, found by going back to the last
edit of the key. -/
def origin (history : List (Revision σ)) (place : Nat) (key : Text) : Option Origin :=
  match history[place]? with
  | none => none
  | some revision =>
    if key = canonical revision.edit.name then revision.edit.origin place
    else if revision.parent < place then origin history revision.parent key
    else none

def handleAt (start : Nat) (history : List (Revision σ)) (place : Nat) : Handle :=
  ⟨start + (history.take place).countP (·.edit.isFunction)⟩

def Origin.binding (start : Nat) (history : List (Revision σ)) : Origin → Option (Binding σ)
  | operator op => some (.operator op)
  | function place =>
    match history[place]? with
    | some ⟨_, .function _ arity _⟩ => some (.function arity (handleAt start history place))
    | _ => none

variable {start : Nat} {history : List (Revision σ)}

theorem origin_of_getElem? {place : Nat} {revision : Revision σ}
    (h : history[place]? = some revision) (key : Text) :
    origin history place key =
      if key = canonical revision.edit.name then revision.edit.origin place
      else if revision.parent < place then origin history revision.parent key
      else none := by
  rw [origin, h]

theorem origin_of_length_le {place : Nat} (h : history.length ≤ place) (key : Text) :
    origin history place key = none := by
  rw [origin, List.getElem?_eq_none h]

theorem origin_append {place : Nat} (h : place < history.length) (later : List (Revision σ))
    (key : Text) : origin (history ++ later) place key = origin history place key := by
  induction place using Nat.strong_induction_on with
  | _ place ih =>
    have hplace : history[place]? = some history[place] := List.getElem?_eq_getElem h
    rw [origin_of_getElem? hplace,
      origin_of_getElem? ((List.getElem?_append_left h).trans hplace)]
    split
    · rfl
    · split
      · rename_i hparent
        exact ih _ hparent (by omega)
      · rfl

theorem exists_edit_of_origin {place : Nat} {key : Text} {o : Origin}
    (h : origin history place key = some o) :
    ∃ made revision, made ≤ place ∧ history[made]? = some revision ∧
      revision.edit.origin made = some o := by
  induction place using Nat.strong_induction_on with
  | _ place ih =>
    cases hplace : history[place]? with
    | none =>
      rw [origin, hplace] at h
      cases h
    | some revision =>
      rw [origin_of_getElem? hplace] at h
      split at h
      · exact ⟨place, revision, Nat.le_refl place, hplace, h⟩
      · split at h
        · rename_i hparent
          obtain ⟨made, revision', hle, hmade, ho⟩ := ih _ hparent h
          exact ⟨made, revision', hle.trans hparent.le, hmade, ho⟩
        · cases h

theorem exists_binding (start : Nat) {place : Nat} {key : Text} {o : Origin}
    (h : origin history place key = some o) : ∃ b, o.binding start history = some b := by
  obtain ⟨made, ⟨parent, edit⟩, -, hmade, ho⟩ := exists_edit_of_origin h
  cases edit with
  | operator name op =>
    cases ho
    exact ⟨_, rfl⟩
  | function name arity body =>
    cases ho
    exact ⟨_, by rw [Origin.binding, hmade]⟩
  | unbind name => cases ho

theorem le_of_origin_function {place made : Nat} {key : Text}
    (h : origin history place key = some (.function made)) : made ≤ place := by
  obtain ⟨made', ⟨parent, edit⟩, hle, -, ho⟩ := exists_edit_of_origin h
  cases edit with
  | operator name op => cases ho
  | function name arity body =>
    cases ho
    exact hle
  | unbind name => cases ho

theorem handleAt_append {place : Nat} (h : place ≤ history.length) (later : List (Revision σ)) :
    handleAt start (history ++ later) place = handleAt start history place := by
  rw [handleAt, List.take_append_of_le_length h, handleAt]

namespace Origin

theorem exists_of_binding_function {place : Nat} {b : Binding σ}
    (h : (function place).binding start history = some b) :
    ∃ revision arity, history[place]? = some revision ∧ revision.edit.isFunction = true ∧
      b = .function arity (handleAt start history place) := by
  rw [binding] at h
  split at h
  · rename_i parent name arity body hplace
    cases h
    exact ⟨_, arity, hplace, rfl, rfl⟩
  · cases h

theorem binding_append {o : Origin} {b : Binding σ} (h : o.binding start history = some b)
    (later : List (Revision σ)) : o.binding start (history ++ later) = some b := by
  cases o with
  | operator op => exact h
  | function place =>
    obtain ⟨revision, -, hplace, -⟩ := exists_of_binding_function h
    have hlt := (List.getElem?_eq_some_iff.1 hplace).1
    rw [binding, List.getElem?_append_left hlt, handleAt_append hlt.le]
    exact h

end Origin

theorem bind_binding_append (place : Nat) (key : Text) (later : List (Revision σ)) :
    (origin history place key).bind (Origin.binding start (history ++ later)) =
      (origin history place key).bind (Origin.binding start history) := by
  cases horigin : origin history place key with
  | none => rfl
  | some o =>
    obtain ⟨b, hb⟩ := exists_binding start horigin
    rw [Option.bind_some, Option.bind_some, hb, Origin.binding_append hb]

theorem handleAt_lt (start : Nat) {place later : Nat} {revision : Revision σ}
    (h : history[place]? = some revision) (hfunction : revision.edit.isFunction = true)
    (hlt : place < later) :
    (handleAt start history place).number < (handleAt start history later).number := by
  have htake : history.take (place + 1) = history.take place ++ [revision] := by
    rw [List.take_add_one, h]
    rfl
  have hcount : (history.take (place + 1)).countP (·.edit.isFunction) ≤
      (history.take later).countP (·.edit.isFunction) :=
    (List.take_sublist_take_left hlt).countP_le
  rw [htake, List.countP_append, List.countP_singleton, if_pos hfunction] at hcount
  simp only [handleAt]
  omega

def Binding.head : Binding σ → Option Head
  | .operator op => some (.operator op)
  | .function _ handle => some (.function handle)
  | .builder _ => none

/-- Bindings that build nodes of the same head have the same origin. -/
theorem Origin.eq_of_head_eq {o o' : Origin} {b b' : Binding σ}
    (h : o.binding start history = some b) (h' : o'.binding start history = some b')
    (hhead : b.head = b'.head) : o = o' := by
  cases o with
  | operator op =>
    cases h
    cases o' with
    | operator op' =>
      cases h'
      cases hhead
      rfl
    | function place' =>
      obtain ⟨-, arity', -, -, rfl⟩ := exists_of_binding_function h'
      cases hhead
  | function place =>
    obtain ⟨revision, arity, hplace, hfunction, rfl⟩ := exists_of_binding_function h
    cases o' with
    | operator op' =>
      cases h'
      cases hhead
    | function place' =>
      obtain ⟨revision', arity', hplace', hfunction', rfl⟩ := exists_of_binding_function h'
      have hhandle : handleAt start history place = handleAt start history place' :=
        Head.function.inj (Option.some.inj hhead)
      rcases Nat.lt_trichotomy place place' with hlt | rfl | hlt
      · have hnumber := handleAt_lt start hplace hfunction hlt
        rw [hhandle] at hnumber
        exact absurd hnumber (Nat.lt_irrefl _)
      · rfl
      · have hnumber := handleAt_lt start hplace' hfunction' hlt
        rw [hhandle] at hnumber
        exact absurd hnumber (Nat.lt_irrefl _)

def Edit.binding (handle : Handle) : Edit σ → Option (Binding σ)
  | operator _ op => some (.operator op)
  | function _ arity _ => some (.function arity handle)
  | unbind _ => none

theorem Edit.bind_origin (start : Nat) (history : List (Revision σ)) (revision : Revision σ) :
    (revision.edit.origin history.length).bind (Origin.binding start (history ++ [revision])) =
      revision.edit.binding ⟨start + history.countP (·.edit.isFunction)⟩ := by
  obtain ⟨parent, edit⟩ := revision
  cases edit with
  | operator name op => rfl
  | function name arity body =>
    have hplace := List.getElem?_concat_length (l := history)
      (a := ⟨parent, .function name arity body⟩)
    simp only [origin, Option.bind_some, Origin.binding, hplace, handleAt, List.take_left']
    rfl
  | unbind name => rfl

namespace Registry

theorem get?_change (r : Registry σ) (e : Edit σ) (fs : Functions σ) (key : Text) :
    ((r.change e.change).run fs).1.bindings.get? key =
      if key = canonical e.name then e.binding ⟨fs.bodies.length⟩ else r.bindings.get? key := by
  cases e with
  | operator name op => exact Table.get?_insert _ _ _ _
  | function name arity body => exact Table.get?_insert _ _ _ _
  | unbind name => exact Table.get?_erase _ _ _

theorem length_bodies_change (r : Registry σ) (e : Edit σ) (fs : Functions σ) :
    ((r.change e.change).run fs).2.bodies.length =
      fs.bodies.length + if e.isFunction then 1 else 0 := by
  rw [bodies_change, List.length_append, List.length_map]
  cases e <;> rfl

/-- The versions of a history are bound as their origins say, and the next handle is that of the
next function. -/
structure Tracks (start : Nat) (history : List (Revision σ)) (versions : List (Registry σ))
    (fs : Functions σ) : Prop where
  length_eq : versions.length = history.length
  bodies_eq : fs.bodies.length = start + history.countP (·.edit.isFunction)
  get?_eq : ∀ place key, (versions[place]?.getD empty).bindings.get? key =
    (origin history place key).bind (Origin.binding start history)

theorem tracks_nil (fs : Functions σ) : Tracks fs.bodies.length [] [] fs where
  length_eq := rfl
  bodies_eq := rfl
  get?_eq place key := by
    rw [origin_of_length_le (Nat.zero_le place)]
    rfl

theorem Tracks.revise {versions : List (Registry σ)} {fs : Functions σ}
    (h : Tracks start history versions fs) (revision : Revision σ) :
    Tracks start (history ++ [revision]) ((revise versions revision).run fs).1
      ((revise versions revision).run fs).2 := by
  have hrun : (Registry.revise versions revision).run fs =
      let parent := versions[revision.parent]?.getD empty
      (versions ++ [((parent.change revision.edit.change).run fs).1],
        ((parent.change revision.edit.change).run fs).2) := rfl
  rw [hrun]
  constructor
  · simp [h.length_eq]
  · rw [length_bodies_change, h.bodies_eq, List.countP_append, List.countP_singleton, Nat.add_assoc]
  · intro place key
    dsimp only
    rcases Nat.lt_trichotomy place history.length with hlt | rfl | hlt
    · rw [List.getElem?_append_left (h.length_eq ▸ hlt), h.get?_eq, origin_append hlt,
        bind_binding_append]
    · rw [← h.length_eq, List.getElem?_concat_length, Option.getD_some, get?_change, h.length_eq,
        origin_of_getElem? List.getElem?_concat_length, h.bodies_eq, h.get?_eq]
      split
      · exact (Edit.bind_origin start history revision).symm
      · split
        · rename_i hparent
          rw [origin_append hparent, bind_binding_append]
        · rename_i hparent
          rw [origin_of_length_le (Nat.le_of_not_lt hparent)]
          rfl
    · have hversions : ∀ v : Registry σ, (versions ++ [v]).length ≤ place := fun v => by
        rw [List.length_append, h.length_eq]
        exact hlt
      have hhistory : (history ++ [revision]).length ≤ place := by
        rw [List.length_append]
        exact hlt
      rw [List.getElem?_eq_none (hversions _), origin_of_length_le hhistory]
      rfl

theorem tracks_versions (history : List (Revision σ)) (fs : Functions σ) :
    Tracks fs.bodies.length history ((versions history).run fs).1
      ((versions history).run fs).2 := by
  induction history using List.reverseRecOn with
  | nil => exact tracks_nil fs
  | append_singleton history revision ih =>
    have hrun : (versions (history ++ [revision])).run fs =
        (Registry.revise ((versions history).run fs).1 revision).run
          ((versions history).run fs).2 := by
      rw [versions, List.foldlM_append]
      rfl
    rw [hrun]
    exact ih.revise revision

variable {fs : Functions σ}

theorem get?_versionAt (fs : Functions σ) (history : List (Revision σ)) (place : Nat) (key : Text) :
    (versionAt fs history place).bindings.get? key =
      (origin history place key).bind (Origin.binding fs.bodies.length history) :=
  (tracks_versions history fs).get?_eq place key

theorem exists_origin {place : Nat} {key : Text} {b : Binding σ}
    (hb : (versionAt fs history place).bindings.get? key = some b) :
    ∃ o, origin history place key = some o ∧ o.binding fs.bodies.length history = some b := by
  rw [get?_versionAt] at hb
  exact Option.bind_eq_some_iff.1 hb

theorem isNative_versionAt (fs : Functions σ) (history : List (Revision σ)) (place : Nat) :
    (versionAt fs history place).IsNative := by
  intro key b hb
  obtain ⟨o, -, ho⟩ := exists_origin hb
  cases o with
  | operator op =>
    cases ho
    trivial
  | function place =>
    obtain ⟨-, arity, -, -, rfl⟩ := Origin.exists_of_binding_function ho
    trivial

end Registry

end CallFormula
