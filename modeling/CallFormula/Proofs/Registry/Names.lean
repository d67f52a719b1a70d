import CallFormula.Proofs.Formula.Lexemes

set_option autoImplicit false

namespace CallFormula

open Text

@[simp] theorem canonical_trim (name : Text) : canonical (trim name) = canonical name := by
  rw [canonical, trim_trim, canonical]

theorem isTrimmed_canonical (name : Text) : IsTrimmed (canonical name) :=
  (isTrimmed_trim name).upper

@[simp] theorem canonical_canonical (name : Text) :
    canonical (canonical name) = canonical name := by
  rw [canonical, trim_eq_self (isTrimmed_canonical name)]
  exact upper_upper (trim name)

theorem mem_canonical_of_mem {name : Text} {c : Char} (hblank : isBlank c = false)
    (hc : capital c = [c]) (h : c ∈ name) : c ∈ canonical name :=
  mem_upper_of_mem hc ((mem_trim hblank).2 h)

theorem isPlainChar_of_canonical {name : Text}
    (h : ∀ c ∈ canonical name, Piece.IsPlainChar c) : ∀ c ∈ name, Piece.IsPlainChar c := by
  intro c hc
  refine ⟨?_, ?_, ?_⟩
  · rintro rfl
    exact (h '(' (mem_canonical_of_mem (by decide) (by decide +kernel) hc)).1 rfl
  · rintro rfl
    exact (h ')' (mem_canonical_of_mem (by decide) (by decide +kernel) hc)).2.1 rfl
  · rintro rfl
    exact (h ',' (mem_canonical_of_mem (by decide) (by decide +kernel) hc)).2.2 rfl

namespace Registry

variable {σ : Type} {r : Registry σ}

/-- No bound name holds a bracket or a comma. -/
def IsPlain (r : Registry σ) : Prop := ∀ key ∈ r.names, ∀ c ∈ key, Piece.IsPlainChar c

@[simp] theorem lookup_trim (r : Registry σ) (name : Text) :
    r.lookup (trim name) = r.lookup name := by
  rw [lookup, canonical_trim, lookup]

theorem isPlain_empty : (empty : Registry σ).IsPlain := fun _ h => by cases h

theorem mem_names_bind {name key : Text} {b : Binding σ} :
    key ∈ (r.bind name b).names ↔ key = canonical name ∨ key ∈ r.names := by
  simp only [names, Table.mem_keys_iff, Table.contains, bind, Table.get?_insert]
  split <;> simp_all

theorem IsPlain.bind (h : r.IsPlain) {name : Text}
    (hname : ∀ c ∈ canonical name, Piece.IsPlainChar c) (b : Binding σ) :
    (r.bind name b).IsPlain := by
  intro key hkey
  rcases mem_names_bind.1 hkey with rfl | hkey
  · exact hname
  · exact h key hkey

@[simp] theorem canonical_operator_name (op : Operator) : canonical op.name = op.name := by
  cases op <;> decide +kernel

theorem isPlainChar_of_mem_operator_name (op : Operator) :
    ∀ c ∈ op.name, Piece.IsPlainChar c := by
  cases op <;> simp [Operator.name, Piece.IsPlainChar]

theorem isPlain_standard : (standard : Registry σ).IsPlain := by
  apply withOperators_of_bind isPlain_empty
  intro op r h
  apply h.bind
  rw [canonical_operator_name]
  exact isPlainChar_of_mem_operator_name op

theorem canonical_mem_names {name : Text} {b : Binding σ} (h : r.lookup name = some b) :
    canonical name ∈ r.names := by
  rw [names, Table.mem_keys_iff, Table.contains]
  exact Option.isSome_iff_exists.2 ⟨b, h⟩

theorem IsPlain.isPlainChar_of_lookup (h : r.IsPlain) {name : Text} {b : Binding σ}
    (hb : r.lookup name = some b) : ∀ c ∈ name, Piece.IsPlainChar c :=
  isPlainChar_of_canonical (h _ (canonical_mem_names hb))

end Registry

open Number (lower)

namespace Text

theorem toNat_toLower (c : Char) :
    c.toLower.toNat = if 65 ≤ c.toNat ∧ c.toNat ≤ 90 then c.toNat + 32 else c.toNat := by
  have hupper : (c.val ≥ 'A'.val ∧ c.val ≤ 'Z'.val) ↔ 65 ≤ c.toNat ∧ c.toNat ≤ 90 := by
    rw [ge_iff_le, UInt32.le_iff_toNat_le, UInt32.le_iff_toNat_le]
    rfl
  have hstep : 'a'.val - 'A'.val = 32 := by decide
  simp only [Char.toLower, hupper, hstep]
  split
  · have hsmall : c.toNat + 32 < 2 ^ 32 := by omega
    exact (UInt32.toNat_add c.val 32).trans (Nat.mod_eq_of_lt hsmall)
  · rfl

@[simp] theorem isBlank_toLower (c : Char) : isBlank c.toLower = isBlank c := by
  rw [Bool.eq_iff_iff]
  simp only [isBlank, toNat_toLower, Bool.or_eq_true, Bool.and_eq_true, decide_eq_true_eq,
    beq_iff_eq]
  split <;> omega

@[simp] theorem isDigit_toLower (c : Char) : c.toLower.isDigit = c.isDigit := by
  rw [Bool.eq_iff_iff, Lexeme.isDigit_iff, Lexeme.isDigit_iff, toNat_toLower]
  split <;> omega

theorem toLower_eq_iff {c d : Char} (hd : d.isAlpha = false) : c.toLower = d ↔ c = d := by
  rw [Bool.eq_false_iff, Ne, Lexeme.isAlpha_iff] at hd
  rw [← Char.toNat_inj, ← Char.toNat_inj, toNat_toLower]
  split <;> omega

theorem capital_toLower (c : Char) : capital c.toLower = capital c := by
  have hletters : ∀ n : Fin 26, capitalPoints (n.val + 97) = capitalPoints (n.val + 65) := by
    decide +kernel
  rw [capital, capital, toNat_toLower]
  split
  · rename_i hc
    have hletter := hletters ⟨c.toNat - 65, by omega⟩
    have hlow : c.toNat - 65 + 97 = c.toNat + 32 := by omega
    have hcap : c.toNat - 65 + 65 = c.toNat := by omega
    simp only [hlow, hcap] at hletter
    rw [hletter]
  · rfl

theorem lower_lower (t : Text) : lower (lower t) = lower t := by
  simp [lower, Function.comp_def]

@[simp] theorem upper_lower (t : Text) : upper (lower t) = upper t := by
  induction t with
  | nil => rfl
  | cons c t ih =>
    have hcons : lower (c :: t) = c.toLower :: lower t := rfl
    rw [hcons, upper_cons, upper_cons, capital_toLower, ih]

theorem trimFront_lower (t : Text) : trimFront (lower t) = lower (trimFront t) := by
  have hblank : isBlank ∘ Char.toLower = isBlank := funext isBlank_toLower
  simp only [trimFront, lower, List.dropWhile_map, hblank]

theorem trimBack_lower (t : Text) : trimBack (lower t) = lower (trimBack t) := by
  have hfront := trimFront_lower t.reverse
  simp only [trimFront, lower] at hfront
  simp only [trimBack, lower, ← List.map_reverse, hfront]

theorem trim_lower (t : Text) : trim (lower t) = lower (trim t) := by
  rw [trim, trimFront_lower, trimBack_lower, trim]

theorem lower_of_isLiteral {t : Text} (h : Lexeme.IsLiteral t) : lower t = t := by
  have hletter : ∀ c ∈ t, c.toLower = c := fun c hc =>
    (toLower_eq_iff (h.forall_isLiteralChar c hc).isAlpha_eq_false).2 rfl
  exact (List.map_congr_left hletter).trans (List.map_id t)

/-- The same text but for the case of its ASCII letters. -/
def Recased (s t : Text) : Prop :=
  List.Forall₂ (fun c d => d = c ∨ d = c.toLower ∨ d = c.toUpper) s t

instance (s t : Text) : Decidable (Recased s t) := inferInstanceAs (Decidable (List.Forall₂ _ s t))

theorem Recased.lower_eq {s t : Text} (h : Recased s t) : lower s = lower t := by
  induction h with
  | nil => rfl
  | @cons c d s t hcd _ ih =>
    have hletter : d.toLower = c.toLower := by
      rcases hcd with rfl | rfl | rfl
      · rfl
      · exact c.toLower_toLower_eq_toLower
      · exact c.toLower_toUpper_eq_toLower
    simp only [lower, List.map_cons] at ih ⊢
    rw [ih, hletter]

end Text

@[simp] theorem canonical_lower (name : Text) : canonical (lower name) = canonical name := by
  rw [canonical, Text.trim_lower, Text.upper_lower, canonical]

end CallFormula
