import CallFormula.Proofs.Formula.Derivation
import CallFormula.Proofs.Number.Texts
import CallFormula.Proofs.Registry.Ordinary

set_option autoImplicit false

namespace CallFormula

open Text

/-- The blanks behind the commas are counted to the arguments that follow. -/
theorem Text.joined_map_blank (t : Text) (ts : List Text) :
    joined [','] (t :: ts.map ([' '] ++ ·)) = joined [',', ' '] (t :: ts) := by
  induction ts generalizing t with
  | nil => rfl
  | cons u us ih =>
    have hus := ih u
    cases us with
    | nil => simp [joined]
    | cons v vs => simp_all [joined]

namespace Tree

/-- A tree that an ordinary registry can build. -/
inductive IsWellFormed {σ : Type} (r : Registry σ) : Tree → Prop where
  | number {value : Float} : value.isFinite = true → IsWellFormed r (.number value)
  | variable {name : Text} : Lexeme.IsName name → IsWellFormed r (.variable name)
  | binary {left right : Tree} (op : Operator) : IsWellFormed r left → IsWellFormed r right →
      IsWellFormed r (.binary left op right)
  | call {name : Text} {arity : Arity} {handle : Handle} {args : List Tree} :
      r.bindings.get? name = some (.function arity handle) → arity.accepts args.length = true →
      (∀ a ∈ args, IsWellFormed r a) → IsWellFormed r (.call name args handle)

theorem heightBelow_le_iff {ts : List Tree} {n : Nat} :
    heightBelow ts ≤ n ↔ ∀ t ∈ ts, t.height + 1 ≤ n := by
  induction ts with
  | nil => simp [heightBelow]
  | cons t ts ih => simp [heightBelow, ih]

mutual

def derivation (front : Text) : Tree → Derivation
  | .number value => .number front (Number.text value) []
  | .variable name => .identifier front name []
  | .binary left op right =>
    .call (front ++ op.name) (derivation [] left) [derivation [' '] right] []
  | .call name [] _ => .bare (front ++ name) [] []
  | .call name (a :: args) _ => .call (front ++ name) (derivation [] a) (derivations args) []

def derivations : List Tree → List Derivation
  | [] => []
  | t :: ts => derivation [' '] t :: derivations ts

end

mutual

theorem text_derivation (front : Text) : ∀ t : Tree, (derivation front t).text = front ++ t.text
  | .number value => by simp [derivation, Derivation.text, text]
  | .variable name => by simp [derivation, Derivation.text, text]
  | .binary left op right => by
    have hl := text_derivation [] left
    have hr := text_derivation [' '] right
    simp [derivation, Derivation.text, Derivation.texts, text, joined, hl, hr]
  | .call name [] _ => by simp [derivation, Derivation.text, text, texts, joined]
  | .call name (a :: args) _ => by
    have ha := text_derivation [] a
    have hargs := texts_derivations args
    simp only [derivation, Derivation.text, text, texts, ha, hargs, List.nil_append,
      joined_map_blank]
    simp

theorem texts_derivations :
    ∀ ts : List Tree, Derivation.texts (derivations ts) = (texts ts).map ([' '] ++ ·)
  | [] => rfl
  | t :: ts => by
    have ht := text_derivation [' '] t
    have hts := texts_derivations ts
    simp [derivations, Derivation.texts, texts, ht, hts]

end

end Tree

variable {σ : Type} {r : Registry σ} {m : Nat}

theorem Registry.IsOrdinary.opens (h : r.IsOrdinary) {key : Text} {arity : Arity} {handle : Handle}
    (hb : r.bindings.get? key = some (.function arity handle)) :
    r.Opens key (.function arity handle) := by
  obtain ⟨hkey, hne, hplain⟩ := h.canonical_eq hb
  refine ⟨fun hmem => (hplain '(' hmem).1 rfl, fun hblank => ?_, ?_⟩
  · have htrim := isTrimmed_canonical key
    rw [hkey] at htrim
    exact hne (by rw [← trim_eq_self htrim, hblank.trim_eq])
  · rw [Registry.lookup, hkey]
    exact hb

theorem Registry.IsOrdinary.opens_operator (h : r.IsOrdinary) (op : Operator) :
    r.Opens op.name (.operator op) where
  not_opening hmem := (isPlainChar_of_mem_operator_name op '(' hmem).1 rfl
  not_blank hblank := by
    have htrim := isTrimmed_canonical op.name
    rw [canonical_operator_name] at htrim
    have hnil := hblank.trim_eq
    rw [trim_eq_self htrim] at hnil
    cases op <;> cases hnil
  lookup_eq := h.operators op

theorem isBlank_space : IsBlank [' '] := by
  intro c hc
  rw [List.mem_singleton.1 hc]
  decide

mutual

theorem derives_derivation (h : r.IsOrdinary) :
    ∀ (t : Tree) (front : Text) (d : Nat), IsBlank front → t.IsWellFormed r → d + t.height ≤ m →
      Derives r m d (t.derivation front) t
  | .number value, front, d, hf, .number hfin, hd =>
    .number (Nat.le_of_add_right_le hd) hf (Number.isLiteral_text hfin) .nil
      (Number.read_text hfin) hfin
  | .variable name, front, d, hf, .variable hname, hd =>
    .identifier (Nat.le_of_add_right_le hd) hf hname .nil
  | .binary left op right, front, d, hf, .binary _ hl hr, hd => by
    rw [Tree.height] at hd
    have hleft := derives_derivation h left [] (d + 1) .nil hl (by omega)
    have hright := derives_derivation h right [' '] (d + 1) isBlank_space hr (by omega)
    exact .call (by omega) hf (h.opens_operator op) hleft (.cons hright .nil) .nil rfl
  | .call name [] handle, front, d, hf, .call hb haccepts _, hd => by
    have hbuild := (h.canonical_eq hb).1
    refine .bare (Nat.le_of_add_right_le hd) hf (h.opens hb) .nil .nil ?_
    rw [hbuild, Binding.build, Arity.build, if_pos haccepts]
    rfl
  | .call name (a :: args) handle, front, d, hf, .call hb haccepts hargs, hd => by
    have hbuild := (h.canonical_eq hb).1
    have hheight : ∀ t ∈ a :: args, d + 1 + t.height ≤ m := by
      intro t ht
      have := Tree.heightBelow_le_iff.1 (Nat.le_refl (Tree.heightBelow (a :: args))) t ht
      rw [Tree.height] at hd
      omega
    have hfirst := derives_derivation h a [] (d + 1) .nil (hargs a List.mem_cons_self)
      (hheight a List.mem_cons_self)
    have hothers := derivesAll_derivations h args (d + 1)
      (fun t ht => hargs t (List.mem_cons_of_mem a ht))
      (fun t ht => hheight t (List.mem_cons_of_mem a ht))
    refine .call (Nat.le_of_add_right_le hd) hf (h.opens hb) hfirst hothers .nil ?_
    rw [hbuild, Binding.build, Arity.build, if_pos haccepts]
    rfl

theorem derivesAll_derivations (h : r.IsOrdinary) :
    ∀ (ts : List Tree) (d : Nat), (∀ t ∈ ts, t.IsWellFormed r) → (∀ t ∈ ts, d + t.height ≤ m) →
      DerivesAll r m d (Tree.derivations ts) ts
  | [], _, _, _ => .nil
  | t :: ts, d, ht, hd =>
    .cons
      (derives_derivation h t [' '] d isBlank_space (ht t List.mem_cons_self)
        (hd t List.mem_cons_self))
      (derivesAll_derivations h ts d (fun u hu => ht u (List.mem_cons_of_mem t hu))
        fun u hu => hd u (List.mem_cons_of_mem t hu))

end

theorem Registry.IsOrdinary.isWellFormed_build (h : r.IsOrdinary) (bench : Workbench σ) {d : Nat}
    {name : Text} {b : Binding σ} {args : List Tree} {tree : Tree} (hd : d ≤ m)
    (hb : r.Opens name b) (hargs : ∀ a ∈ args, a.IsWellFormed r ∧ d + 1 + a.height ≤ m)
    (hbuild : b.build (canonical name) args = pure tree) :
    tree.IsWellFormed r ∧ d + tree.height ≤ m := by
  cases h.build_eq_pure bench hb.lookup_eq hbuild with
  | inl hop =>
    obtain ⟨op, left, right, rfl, rfl⟩ := hop
    obtain ⟨hleft, hleftHeight⟩ := hargs left (by simp)
    obtain ⟨hright, hrightHeight⟩ := hargs right (by simp)
    refine ⟨.binary op hleft hright, ?_⟩
    rw [Tree.height]
    omega
  | inr hfunction =>
    obtain ⟨arity, handle, hget, haccepts, rfl⟩ := hfunction
    refine ⟨.call hget haccepts fun a ha => (hargs a ha).1, ?_⟩
    have hheight : Tree.heightBelow args ≤ m - d := by
      refine Tree.heightBelow_le_iff.2 fun a ha => ?_
      have := (hargs a ha).2
      omega
    rw [Tree.height]
    omega

mutual

theorem Derives.isWellFormed (h : r.IsOrdinary) (bench : Workbench σ) {d : Nat} {D : Derivation}
    {tree : Tree} : Derives r m d D tree → tree.IsWellFormed r ∧ d + tree.height ≤ m
  | .number hd _ _ _ _ hfin => ⟨.number hfin, hd⟩
  | .identifier hd _ hname _ => ⟨.variable hname, hd⟩
  | .bare hd _ hn _ _ hbuild => h.isWellFormed_build bench hd hn (by simp) hbuild
  | .call hd _ hn hfirst hothers _ hbuild => by
    refine h.isWellFormed_build bench hd hn (fun a ha => ?_) hbuild
    cases List.mem_cons.1 ha with
    | inl heq => exact heq ▸ hfirst.isWellFormed h bench
    | inr hmem => exact hothers.isWellFormed h bench a hmem

theorem DerivesAll.isWellFormed (h : r.IsOrdinary) (bench : Workbench σ) {d : Nat}
    {Ds : List Derivation} {trees : List Tree} :
    DerivesAll r m d Ds trees → ∀ t ∈ trees, t.IsWellFormed r ∧ d + t.height ≤ m
  | .nil, _, ht => by cases ht
  | .cons hD hDs, t, ht => by
    cases List.mem_cons.1 ht with
    | inl heq => exact heq ▸ hD.isWellFormed h bench
    | inr hmem => exact hDs.isWellFormed h bench t hmem

end

/-- Against an ordinary registry the text of a well-formed tree is read as that very tree, and no
other trees are read. -/
theorem Registry.parse_text_eq_ok (h : r.IsOrdinary) (m : Nat) (bench : Workbench σ) :
    (∀ t : Tree, t.IsWellFormed r → t.height ≤ m →
      (r.parse (some m) t.text).run bench = (.ok t, bench)) ∧
    (∀ (s : Text) (t : Tree), ((r.parse (some m) s).run bench).1 = .ok t →
      t.IsWellFormed r ∧ t.height ≤ m) := by
  constructor
  · intro t ht hheight
    have hderives := derives_derivation (m := m) h t [] 0 .nil ht (by omega)
    have hparse := hderives.parseAt_eq h.isPure h.isPlain bench
    rw [Tree.text_derivation, List.nil_append] at hparse
    rw [Registry.parse, hparse]
    rfl
  · intro s t hparse
    rw [h.isPure.run_parse_eq_ok_iff bench] at hparse
    obtain ⟨D, -, hD⟩ := exists_derives h.isPure bench hparse
    have hform := hD.isWellFormed h bench
    rwa [Nat.zero_add] at hform

theorem Registry.parse_text_add_max :
    let r : Registry Unit := Registry.standard.bind "max".toList (.function .any ⟨0⟩)
    let t : Tree := .binary (.call "MAX".toList [.variable ['x'],
      .number (Number.ofMagnitude true 0)] ⟨0⟩) .add (.call "MAX".toList [] ⟨0⟩)
    r.IsOrdinary ∧ t.IsWellFormed r ∧ t.height ≤ 2 ∧
      (r.parse (some 2) t.text).run ⟨(), []⟩ = (.ok t, ⟨(), []⟩) := by
  intro r t
  have hcanonical : canonical "max".toList = "MAX".toList := by decide +kernel
  have hordinary : r.IsOrdinary := by
    refine Registry.isOrdinary_standard.bind_function ?_ ?_ ?_ .any ⟨0⟩
    · rw [hcanonical]
      decide
    · rw [hcanonical]
      simp [Piece.IsPlainChar]
    · rw [hcanonical]
      intro op
      cases op <;> decide
  have hget : r.bindings.get? "MAX".toList = some (.function .any ⟨0⟩) := by
    simp only [r, Registry.bind, Table.get?_insert, hcanonical, if_true]
  have hname : Lexeme.IsName ['x'] := .cons (.inl rfl) (by simp)
  have hzero : (Number.ofMagnitude true 0).isFinite = true := by decide +kernel
  have hargs : ∀ a ∈ [Tree.variable ['x'], .number (Number.ofMagnitude true 0)],
      a.IsWellFormed r := by
    simp only [List.forall_mem_cons, List.not_mem_nil, false_imp_iff, implies_true, and_true]
    exact ⟨.variable hname, .number hzero⟩
  have hform : t.IsWellFormed r :=
    .binary .add (.call hget rfl hargs) (.call hget rfl (by simp))
  have hheight : t.height ≤ 2 := by decide
  exact ⟨hordinary, hform, hheight,
    (Registry.parse_text_eq_ok hordinary 2 ⟨(), []⟩).1 t hform hheight⟩

end CallFormula
