set_option autoImplicit false

namespace CallFormula

abbrev Text := List Char

namespace Text

/-- White space is the Unicode property White_Space, which holds of 25 characters. -/
def isBlank (c : Char) : Bool :=
  let n := c.toNat
  (0x9 ≤ n && n ≤ 0xD) || n == 0x20 || n == 0x85 || n == 0xA0 || n == 0x1680 ||
    (0x2000 ≤ n && n ≤ 0x200A) || n == 0x2028 || n == 0x2029 || n == 0x202F || n == 0x205F ||
    n == 0x3000

def trimFront (t : Text) : Text := t.dropWhile isBlank

def trimBack (t : Text) : Text := (t.reverse.dropWhile isBlank).reverse

def trim (t : Text) : Text := trimBack (trimFront t)

def IsTrimmed (t : Text) : Prop :=
  (∀ c ∈ t.head?, isBlank c = false) ∧ (∀ c ∈ t.getLast?, isBlank c = false)

theorem trimFront_append_of_blank {b t : Text} (hb : ∀ c ∈ b, isBlank c = true) :
    trimFront (b ++ t) = trimFront t := by
  induction b with
  | nil => rfl
  | cons c b ih =>
    simp only [List.mem_cons, forall_eq_or_imp] at hb
    simp [trimFront, hb.1]
    exact ih hb.2

theorem exists_trimFront (t : Text) :
    ∃ b, (∀ c ∈ b, isBlank c = true) ∧ t = b ++ trimFront t := by
  induction t with
  | nil => exact ⟨[], by simp, rfl⟩
  | cons c t ih =>
    obtain ⟨b, hb, ht⟩ := ih
    by_cases hc : isBlank c = true
    · refine ⟨c :: b, by simpa [hc] using hb, ?_⟩
      simp only [trimFront, List.dropWhile_cons, hc, if_true, List.cons_append]
      exact congrArg (c :: ·) ht
    · exact ⟨[], by simp, by simp [trimFront, hc]⟩

theorem head_trimFront (t : Text) : ∀ c ∈ (trimFront t).head?, isBlank c = false := by
  intro c hc
  have := List.head?_dropWhile_not isBlank t
  simp only [trimFront] at hc
  rw [Option.mem_def] at hc
  rw [hc] at this
  simpa using this

theorem trimFront_eq_self {t : Text} (h : ∀ c ∈ t.head?, isBlank c = false) :
    trimFront t = t := by
  cases t with
  | nil => rfl
  | cons c t => simp [trimFront, h c (by simp)]

theorem trimBack_append_of_blank {b t : Text} (hb : ∀ c ∈ b, isBlank c = true) :
    trimBack (t ++ b) = trimBack t := by
  have hr : ∀ c ∈ b.reverse, isBlank c = true := by simpa using hb
  simp only [trimBack, List.reverse_append]
  exact congrArg List.reverse (trimFront_append_of_blank hr)

theorem exists_trimBack (t : Text) :
    ∃ b, (∀ c ∈ b, isBlank c = true) ∧ t = trimBack t ++ b := by
  obtain ⟨b, hb, ht⟩ := exists_trimFront t.reverse
  refine ⟨b.reverse, by simpa using hb, ?_⟩
  have := congrArg List.reverse ht
  simpa [trimBack, trimFront] using this

theorem last_trimBack (t : Text) : ∀ c ∈ (trimBack t).getLast?, isBlank c = false := by
  intro c hc
  refine head_trimFront t.reverse c ?_
  simpa [trimBack, trimFront] using hc

theorem trimBack_eq_self {t : Text} (h : ∀ c ∈ t.getLast?, isBlank c = false) :
    trimBack t = t := by
  have : trimFront t.reverse = t.reverse := trimFront_eq_self (by simpa using h)
  simp only [trimFront] at this
  simp [trimBack, this]

theorem exists_trim (t : Text) :
    ∃ front back, (∀ c ∈ front, isBlank c = true) ∧ (∀ c ∈ back, isBlank c = true) ∧
      t = front ++ trim t ++ back := by
  obtain ⟨front, hf, ht⟩ := exists_trimFront t
  obtain ⟨back, hb, hs⟩ := exists_trimBack (trimFront t)
  refine ⟨front, back, hf, hb, ?_⟩
  rw [List.append_assoc]
  exact ht.trans (congrArg (front ++ ·) hs)

theorem head_trimBack {t : Text} (h : ∀ c ∈ t.head?, isBlank c = false) :
    ∀ c ∈ (trimBack t).head?, isBlank c = false := by
  obtain ⟨b, _, ht⟩ := exists_trimBack t
  intro c hc
  refine h c ?_
  rw [ht, List.head?_append, Option.mem_def.1 hc]
  rfl

theorem isTrimmed_trim (t : Text) : IsTrimmed (trim t) :=
  ⟨head_trimBack (head_trimFront t), last_trimBack (trimFront t)⟩

theorem trim_eq_self {t : Text} (h : IsTrimmed t) : trim t = t := by
  rw [trim, trimFront_eq_self h.1, trimBack_eq_self h.2]

@[simp] theorem trim_trim (t : Text) : trim (trim t) = trim t :=
  trim_eq_self (isTrimmed_trim t)

theorem length_trim_le (t : Text) : (trim t).length ≤ t.length := by
  obtain ⟨front, back, _, _, ht⟩ := exists_trim t
  have := congrArg List.length ht
  simp at this
  omega

def IsBlank (t : Text) : Prop := ∀ c ∈ t, isBlank c = true

-- Run along the text: characters are finitely many, so the quantifier could be decided over all.
instance (t : Text) : Decidable (IsBlank t) :=
  decidable_of_iff (t.all isBlank = true) List.all_eq_true

theorem IsBlank.nil : IsBlank [] := fun _ h => absurd h List.not_mem_nil

theorem IsBlank.append {s t : Text} (hs : IsBlank s) (ht : IsBlank t) : IsBlank (s ++ t) := by
  intro c hc
  rcases List.mem_append.1 hc with hc | hc
  · exact hs c hc
  · exact ht c hc

theorem IsBlank.trimFront_eq {t : Text} (h : IsBlank t) : trimFront t = [] := by
  simpa [trimFront] using trimFront_append_of_blank (t := []) h

theorem IsBlank.trim_eq {t : Text} (h : IsBlank t) : trim t = [] := by
  rw [trim, h.trimFront_eq]
  rfl

theorem trim_blank_append {b : Text} (hb : IsBlank b) (t : Text) : trim (b ++ t) = trim t := by
  rw [trim, trimFront_append_of_blank hb, trim]

theorem isBlank_of_trimFront_eq_nil {t : Text} (h : trimFront t = []) : IsBlank t := by
  obtain ⟨b, hb, ht⟩ := exists_trimFront t
  rw [h, List.append_nil] at ht
  exact ht ▸ hb

theorem trim_append_blank {b : Text} (t : Text) (hb : IsBlank b) : trim (t ++ b) = trim t := by
  by_cases ht : trimFront t = []
  · have hblank := isBlank_of_trimFront_eq_nil ht
    rw [(hblank.append hb).trim_eq, hblank.trim_eq]
  · have happ : trimFront (t ++ b) = trimFront t ++ b := by
      simp only [trimFront] at ht ⊢
      simp [List.dropWhile_append, ht]
    rw [trim, happ, trimBack_append_of_blank hb, trim]

theorem trim_between {front back : Text} (hf : IsBlank front) (t : Text) (hb : IsBlank back) :
    trim (front ++ t ++ back) = trim t := by
  rw [trim_append_blank _ hb, trim_blank_append hf]

theorem trim_eq_nil_iff {t : Text} : trim t = [] ↔ IsBlank t := by
  constructor
  · intro h
    obtain ⟨front, back, hf, hb, ht⟩ := exists_trim t
    rw [h, List.append_nil] at ht
    exact ht ▸ IsBlank.append hf hb
  · exact IsBlank.trim_eq

theorem trim_isInfix (t : Text) : trim t <:+: t := by
  obtain ⟨front, back, -, -, ht⟩ := exists_trim t
  exact ⟨front, back, ht.symm⟩

theorem isTrimmed_of_forall {t : Text} (h : ∀ c ∈ t, isBlank c = false) : IsTrimmed t :=
  ⟨fun c hc => h c (List.mem_of_mem_head? hc), fun c hc => h c (List.mem_of_mem_getLast? hc)⟩

theorem mem_trim {t : Text} {c : Char} (hc : isBlank c = false) : c ∈ trim t ↔ c ∈ t := by
  obtain ⟨front, back, hf, hb, ht⟩ := exists_trim t
  constructor
  · intro h
    rw [ht]
    simp [h]
  · intro h
    rw [ht] at h
    simp only [List.mem_append] at h
    rcases h with (h | h) | h
    · simp [hf c h] at hc
    · exact h
    · simp [hb c h] at hc

end Text

end CallFormula
