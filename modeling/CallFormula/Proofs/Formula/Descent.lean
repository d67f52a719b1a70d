import CallFormula.Proofs.Formula.Activations
import CallFormula.Proofs.Formula.Offsets
import CallFormula.Proofs.Formula.Purity

set_option autoImplicit false

namespace CallFormula

open Text

/-- The texts stand one behind the other in a text, without overlapping. -/
inductive InOrder : List Text → Text → Prop where
  | nil (t : Text) : InOrder [] t
  | cons (gap : Text) {p t : Text} {ps : List Text} (h : InOrder ps t) :
      InOrder (p :: ps) (gap ++ p ++ t)

namespace InOrder

variable {ps : List Text} {t : Text}

theorem prepend (s : Text) (h : InOrder ps t) : InOrder ps (s ++ t) := by
  cases h with
  | nil => exact .nil _
  | @cons gap p t ps h =>
    have := InOrder.cons (s ++ gap) (p := p) h
    simpa using this

theorem append (s : Text) (h : InOrder ps t) : InOrder ps (t ++ s) := by
  induction h with
  | nil t => exact .nil _
  | @cons gap p t ps _ ih =>
    have := InOrder.cons gap (p := p) ih
    simpa using this

theorem map_trim (h : InOrder ps t) : InOrder (ps.map trim) t := by
  induction h with
  | nil t => exact .nil t
  | @cons gap p t ps _ ih =>
    obtain ⟨front, back, -, -, hp⟩ := exists_trim p
    have := InOrder.cons (gap ++ front) (p := trim p) (ih.prepend back)
    rw [List.map_cons]
    conv => arg 2; rw [hp]
    simpa using this

theorem isInfix {p : Text} (h : InOrder ps t) (hp : p ∈ ps) : p <:+: t := by
  induction h with
  | nil t => cases hp
  | @cons gap q t ps _ ih =>
    rcases List.mem_cons.1 hp with rfl | hp
    · exact ⟨gap, t, rfl⟩
    · exact (ih hp).trans (List.suffix_append _ t).isInfix

end InOrder

theorem inOrder_joined (between : Text) (ps : List Text) : InOrder ps (joined between ps) := by
  induction ps with
  | nil => exact .nil []
  | cons p ps ih =>
    cases ps with
    | nil => simpa [joined] using InOrder.cons [] (p := p) (.nil [])
    | cons q qs => simpa [joined] using InOrder.cons [] (p := p) (ih.prepend between)

namespace Piece

theorem inOrder_args (t : Text) : InOrder (ofText t).args t := by
  cases hp : ofText t with
  | call name args =>
    obtain ⟨front, n, inside, back, -, -, -, -, rfl, -, rfl⟩ := exists_of_ofText_call hp
    rw [args]
    by_cases hblank : IsBlank inside
    · rw [arguments_trim_of_isBlank hblank]
      exact .nil _
    · rw [arguments_trim_of_not_isBlank hblank]
      have hparts := (inOrder_joined [','] (parts inside)).map_trim
      rw [joined_parts] at hparts
      have := (hparts.append (')' :: back)).prepend (front ++ n ++ ['('])
      simpa using this
  | number _ => exact .nil t
  | identifier _ => exact .nil t
  | malformed _ => exact .nil t

def sizeAll (ts : List Text) : Nat := (ts.map fun t => size t + 1).sum

theorem sizeAll_cons (t : Text) (ts : List Text) : sizeAll (t :: ts) = size t + 1 + sizeAll ts := by
  simp [sizeAll]

theorem size_joined (t : Text) (ts : List Text) :
    size (joined [','] (t :: ts)) + 1 = sizeAll (t :: ts) := by
  induction ts generalizing t with
  | nil => simp [joined, sizeAll]
  | cons u us ih =>
    have hcomma : size [','] = 1 := rfl
    rw [joined, size_append, size_append, hcomma, sizeAll_cons, ← ih]
    omega

theorem sizeAll_map_trim_le (ts : List Text) : sizeAll (ts.map trim) ≤ sizeAll ts := by
  induction ts with
  | nil => exact Nat.le_refl _
  | cons t ts ih =>
    have hle := size_le_of_isInfix (trim_isInfix t)
    rw [List.map_cons, sizeAll_cons, sizeAll_cons]
    omega

theorem sizeAll_le_of_prefix {ts us : List Text} (h : ts <+: us) : sizeAll ts ≤ sizeAll us := by
  obtain ⟨vs, rfl⟩ := h
  simp [sizeAll]

theorem size_le_sizeAll {t : Text} {ts : List Text} (h : t ∈ ts) : size t + 1 ≤ sizeAll ts :=
  List.le_sum_of_mem (List.mem_map.2 ⟨t, h, rfl⟩)

theorem size_args {t : Text} (h : (ofText t).args ≠ []) :
    sizeAll (ofText t).args + 2 ≤ size t ∧ 4 ≤ size t := by
  cases hp : ofText t with
  | call name args =>
    rw [hp] at h
    obtain ⟨front, n, inside, back, -, -, -, hname, rfl, -, rfl⟩ := exists_of_ofText_call hp
    have hn : 0 < size n := size_pos fun hnil => hname (hnil ▸ .nil)
    have hinside : ¬IsBlank inside := fun hblank => h (arguments_trim_of_isBlank hblank)
    have hi : 0 < size inside := size_pos fun hnil => hinside (hnil ▸ .nil)
    have hparts : sizeAll (parts inside) = size inside + 1 := by
      rw [parts, ← size_joined, ← parts, joined_parts]
    have hle := sizeAll_map_trim_le (parts inside)
    have hopen : ('(' : Char).utf8Size = 1 := rfl
    have hclose : (')' : Char).utf8Size = 1 := rfl
    rw [args, arguments_trim_of_not_isBlank hinside]
    simp only [size_append, size_cons]
    omega
  | number _ => simp [hp, args] at h
  | identifier _ => simp [hp, args] at h
  | malformed _ => simp [hp, args] at h

end Piece

namespace Activation

variable {limit : Option Nat} {whole : Text} {a b : Activation}

/-- What the text that is read allows an activation. The arguments that it reads are a front of
those in its text; to find them no slice goes wrong, and no count of brackets exceeds the bytes of
the whole text. -/
structure Fits (limit : Option Nat) (whole : Text) (a : Activation) : Prop where
  isInfix : a.text <:+: whole
  size_le : size a.text + 3 * a.depth ≤ size whole
  depth_le : 1 ≤ a.depth → 3 * a.depth + 1 ≤ size whole
  depth_le_limit : ∀ m, limit = some m → a.depth ≤ m + 1
  depth_succ_lt : size whole < 2 ^ 64 → a.depth + 1 < 2 ^ 64
  depth_inner : ∀ b ∈ a.inner, b.depth = a.depth + 1
  texts_inner : a.inner.map text <+: (Piece.ofText a.text).args
  inOrder : InOrder (Piece.ofText a.text).args a.text
  scan_eq : Piece.scan (size whole) a.text = .ok (Piece.ofText a.text)

theorem IsMade.fits (h : a.IsMade limit) (hpart : a.text <:+: whole)
    (hsize : size a.text + 3 * a.depth ≤ size whole)
    (hdepth : 1 ≤ a.depth → 3 * a.depth + 1 ≤ size whole)
    (hlimit : ∀ m, limit = some m → a.depth ≤ m + 1) : a.Fits limit whole := by
  cases h with
  | mk hcheck hinner htexts hmade =>
    exact {
      isInfix := hpart
      size_le := hsize
      depth_le := hdepth
      depth_le_limit := hlimit
      depth_succ_lt := fun hwhole => by omega
      depth_inner := hinner
      texts_inner := htexts
      inOrder := Piece.inOrder_args _
      scan_eq := Piece.scan_eq (by omega) }

theorem IsMade.of_mem_inner (h : a.IsMade limit) (hb : b ∈ a.inner) : b.IsMade limit := by
  cases h with
  | mk _ _ _ hmade => exact hmade b hb

theorem IsMade.checkDepth_eq (h : a.IsMade limit) (hb : b ∈ a.inner) :
    checkDepth limit a.depth = .ok () := by
  cases h with
  | mk hcheck _ _ _ => exact hcheck (List.ne_nil_of_mem hb)

/-- One step down the text is shorter by three bytes, and the depth was allowed. -/
theorem Fits.inner (h : a.Fits limit whole) (ha : a.IsMade limit) (hb : b ∈ a.inner) :
    b.Fits limit whole := by
  have hmem : b.text ∈ (Piece.ofText a.text).args :=
    h.texts_inner.subset (List.mem_map.2 ⟨b, hb, rfl⟩)
  -- An argument is shorter than its call by three bytes, and the call has four at least: the first
  -- bounds the text that is given, the second the depth.
  obtain ⟨hall, hfour⟩ := Piece.size_args (List.ne_nil_of_mem hmem)
  have hle := Piece.size_le_sizeAll hmem
  have hsize := h.size_le
  have hdepth := h.depth_inner b hb
  have hcheck := ha.checkDepth_eq hb
  refine (ha.of_mem_inner hb).fits ?_ (by omega) (by omega) ?_
  · exact (h.inOrder.isInfix hmem).trans h.isInfix
  · rintro m rfl
    have hle := Registry.checkDepth_eq_ok_iff.1 hcheck
    omega

theorem Fits.of_mem_all (h : a.Fits limit whole) (ha : a.IsMade limit) :
    ∀ b ∈ a.all, b.Fits limit whole := by
  induction ha with
  | @mk depth text inner hcheck hdepth htexts hinner ih =>
    intro b hb
    rw [all, allOf_eq_flatMap] at hb
    rcases List.mem_cons.1 hb with rfl | hb
    · exact h
    · obtain ⟨c, hc, hb⟩ := List.mem_flatMap.1 hb
      exact ih c hc (h.inner (.mk hcheck hdepth htexts hinner) hc) b hb

theorem IsMade.length_all_le (h : a.IsMade limit) : a.all.length ≤ size a.text + 1 := by
  induction h with
  | @mk depth text inner hcheck hdepth htexts hinner ih =>
    have hall : (inner.flatMap all).length ≤ Piece.sizeAll (inner.map Activation.text) := by
      rw [List.length_flatMap, Piece.sizeAll, List.map_map]
      exact List.sum_le_sum ih
    have hargs := Piece.sizeAll_le_of_prefix htexts
    have hsize : Piece.sizeAll (Piece.ofText text).args ≤ size text := by
      by_cases hne : (Piece.ofText text).args = []
      · rw [hne]
        exact Nat.zero_le _
      · have := (Piece.size_args hne).1
        omega
    rw [all, allOf_eq_flatMap, List.length_cons]
    exact Nat.succ_le_succ (hall.trans (hargs.trans hsize))

end Activation

namespace Registry

variable {σ : Type}

/-- The text bounds the reading of it: how many activations there are, what each is given, and every
offset and count. -/
theorem parse_activations (r : Registry σ) (limit : Option Nat) (text : Text)
    (bench : Workbench σ) :
    ∃ root : Activation,
      (r.trace limit 0 text).run (bench, []) =
        (((r.parse limit text).run bench).1, ((r.parse limit text).run bench).2, [root]) ∧
      root.depth = 0 ∧ root.text = text ∧ root.all.length ≤ Text.size text + 1 ∧
      ∀ a ∈ root.all, a.Fits limit text := by
  obtain ⟨_, hrun, root, rfl, ⟨hdepth, hmade⟩, rfl⟩ := r.trace_logs limit 0 text bench []
  have hfits : root.Fits limit root.text :=
    hmade.fits List.infix_rfl (by omega) (by omega) fun m _ => by omega
  exact ⟨root, hrun, hdepth, rfl, hmade.length_all_le, hfits.of_mem_all hmade⟩

theorem parse_activations_cut_short :
    let r : Registry Unit := .standard
    let limit := some (2 ^ 64 - 1)
    let text := "f(x, g( é, y), z)".toList
    let deepest : Activation := .mk 2 ['é'] []
    let root : Activation :=
      .mk 0 text [.mk 1 ['x'] [], .mk 1 "g( é, y)".toList [deepest]]
    (r.trace limit 0 text).run (⟨(), []⟩, []) =
        (.error (.malformed ['é']), ⟨(), []⟩, [root]) ∧
      Text.size text = 18 ∧ deepest ∈ root.all ∧ deepest.Fits limit text := by
  intro r limit text deepest root
  have hf : Piece.ofText text = .call ['f'] [['x'], "g( é, y)".toList, ['z']] := by
    decide +kernel
  have hg : Piece.ofText "g( é, y)".toList = .call ['g'] [['é'], ['y']] := by decide +kernel
  have hx : Piece.ofText ['x'] = .identifier ['x'] := by decide +kernel
  have he : Piece.ofText ['é'] = .malformed ['é'] := by decide +kernel
  have hrun : (r.trace limit 0 text).run (⟨(), []⟩, []) =
      (.error (.malformed ['é']), ⟨(), []⟩, [root]) := by
    simp only [trace_eq, hf, hg, hx, he, List.mapM_cons]
    rfl
  have hmem : deepest ∈ root.all := by simp [root, deepest, Activation.all, Activation.allOf]
  obtain ⟨root', hrun', -, -, -, hfits⟩ := parse_activations r limit text ⟨(), []⟩
  rw [hrun] at hrun'
  have hroot : [root] = [root'] := congrArg (fun ran => ran.2.2) hrun'
  cases hroot
  exact ⟨hrun, by decide +kernel, hmem, hfits deepest hmem⟩

end Registry

end CallFormula
