import CallFormula.Function

/-!
Relations between two steps that run on states and may fail, and what a step adds to a list of
records that is kept beside its state.
-/

set_option autoImplicit false

namespace CallFormula

/-- With a result all is done, after a failure some front of it. -/
def Covers {ε α β : Type} (result : Except ε α) (done all : List β) : Prop :=
  match result with
  | .ok _ => done = all
  | .error _ => done <+: all

theorem Covers.append_left {ε α β : Type} {result : Except ε α} {done all : List β}
    (h : Covers result done all) (first : List β) :
    Covers result (first ++ done) (first ++ all) := by
  cases result with
  | ok a => exact congrArg (first ++ ·) h
  | error e => exact (List.prefix_append_right_inj first).2 h

theorem covers_self {ε α β : Type} (result : Except ε α) (all : List β) :
    Covers result all all := by
  cases result with
  | ok a => rfl
  | error e => exact List.prefix_rfl

theorem Covers.subset {ε α β : Type} {result : Except ε α} {done all : List β}
    (h : Covers result done all) : done ⊆ all := by
  cases result with
  | ok a => exact fun b hb => h ▸ hb
  | error e => exact List.IsPrefix.subset h

/-- Both are results, and related as such, or both are errors, and related as such. -/
def Alike {ε ε' α α' : Type} (E : ε → ε' → Prop) (P : α → α' → Prop) :
    Except ε α → Except ε' α' → Prop
  | .ok a, .ok a' => P a a'
  | .error e, .error e' => E e e'
  | _, _ => False

theorem alike_self {ε α : Type} {E : ε → ε → Prop} {P : α → α → Prop} (hE : ∀ e, E e e)
    (hP : ∀ a, P a a) (result : Except ε α) : Alike E P result result := by
  cases result with
  | ok a => exact hP a
  | error e => exact hE e

theorem Alike.exists_ok {ε ε' α α' : Type} {E : ε → ε' → Prop} {P : α → α' → Prop} {a : α}
    {y : Except ε' α'} (h : Alike E P (.ok a) y) : ∃ a', y = .ok a' ∧ P a a' := by
  cases y with
  | ok a' => exact ⟨a', rfl, h⟩
  | error e => exact h.elim

theorem alike_of_map_eq {ε α γ δ : Type} {k : ε → γ} {l : α → δ} {x y : Except ε α}
    (h : x.map l = y.map l) :
    Alike (fun e e' => k e = k e') (fun a a' => l a = l a') x y := by
  cases x with
  | ok a =>
    cases y with
    | ok b => exact Except.ok.inj h
    | error e => cases h
  | error e =>
    cases y with
    | ok b => cases h
    | error e' => exact congrArg k (Except.error.inj h)

theorem alike_eq_iff {ε α : Type} {x y : Except ε α} : Alike Eq Eq x y ↔ x = y := by
  cases x <;> cases y <;> simp [Alike]

theorem Alike.join {ε α γ δ : Type} {k : ε → γ} {l : α → δ} {x y z : Except ε α}
    (hx : Alike (fun e e' => k e = k e') (fun a a' => l a = l a') x z)
    (hy : Alike (fun e e' => k e = k e') (fun a a' => l a = l a') y z) :
    Alike (fun e e' => k e = k e') (fun a a' => l a = l a') x y := by
  cases z with
  | ok c =>
    cases x with
    | error e => exact hx.elim
    | ok a =>
      cases y with
      | error e => exact hy.elim
      | ok b => exact Eq.trans hx (Eq.symm hy)
  | error c =>
    cases x with
    | ok a => exact hx.elim
    | error a =>
      cases y with
      | ok b => exact hy.elim
      | error b => exact Eq.trans hx (Eq.symm hy)

namespace Action

variable {σ τ ε α β : Type}

theorem pure_eq_ofExcept (a : α) : (pure a : Action σ ε α) = ofExcept (.ok a) := rfl

theorem throw_eq_ofExcept (e : ε) : (throw e : Action σ ε α) = ofExcept (.error e) := rfl

@[simp] theorem ofExcept_ok_bind (a : α) (f : α → Action σ ε β) :
    (ofExcept (.ok a) : Action σ ε α) >>= f = f a := rfl

@[simp] theorem ofExcept_error_bind (e : ε) (f : α → Action σ ε β) :
    (ofExcept (.error e) : Action σ ε α) >>= f = ofExcept (.error e) := rfl

@[simp] theorem run_ofExcept (result : Except ε α) (s : σ) :
    (ofExcept result : Action σ ε α).run s = (result, s) := rfl

theorem run_bind (x : Action σ ε α) (f : α → Action σ ε β) (s : σ) :
    (x >>= f).run s =
      match x.run s with
      | (.ok a, s) => (f a).run s
      | (.error e, s) => (.error e, s) := by
  have hbind : ∀ g : Except ε α → StateM σ (Except ε β),
      (x.run >>= g) s = g (x.run s).1 (x.run s).2 := fun _ => rfl
  rw [ExceptT.run_bind, hbind]
  cases x.run s with
  | mk result s => cases result <;> rfl

theorem ofExcept_inj (s : σ) {a b : Except ε α} :
    (ofExcept a : Action σ ε α) = ofExcept b ↔ a = b := by
  constructor
  · intro h
    have hrun := congrArg (fun x : Action σ ε α => (x.run s).1) h
    exact hrun
  · intro h
    rw [h]

theorem ofExcept_mapM (f : α → Action σ ε β) (g : α → Except ε β) {as : List α}
    (h : ∀ a ∈ as, f a = ofExcept (g a)) : as.mapM f = ofExcept (as.mapM g) := by
  induction as with
  | nil => rfl
  | cons a as ih =>
    have hhead := h a List.mem_cons_self
    have htail := ih fun b hb => h b (List.mem_cons_of_mem a hb)
    rw [List.mapM_cons, List.mapM_cons, hhead, htail]
    cases g a with
    | error e => rfl
    | ok b => cases as.mapM g <;> rfl

/-- From related states the steps end alike, and in related states. -/
def Relates {ε' α' : Type} (R : σ → τ → Prop) (E : ε → ε' → Prop) (P : α → α' → Prop)
    (x : Action σ ε α) (y : Action τ ε' α') : Prop :=
  ∀ s t, R s t → Alike E P (x.run s).1 (y.run t).1 ∧ R (x.run s).2 (y.run t).2

section Relates

variable {ε' α' β' : Type} {R : σ → τ → Prop} {E : ε → ε' → Prop} {P : α → α' → Prop}
  {Q : β → β' → Prop}

theorem relates_ofExcept {result : Except ε α} {result' : Except ε' α'}
    (h : Alike E P result result') : Relates R E P (ofExcept result) (ofExcept result') :=
  fun _ _ hst => ⟨h, hst⟩

theorem relates_self {γ δ : Type} {k : ε → γ} {l : α → δ} (x : Action σ ε α) :
    Relates Eq (fun e e' => k e = k e') (fun a a' => l a = l a') x x := by
  rintro s _ rfl
  refine ⟨?_, rfl⟩
  apply alike_self
  · exact fun _ => rfl
  · exact fun _ => rfl

theorem Relates.bind {x : Action σ ε α} {y : Action τ ε' α'} {f : α → Action σ ε β}
    {g : α' → Action τ ε' β'} (hx : Relates R E P x y)
    (hf : ∀ a a', P a a' → Relates R E Q (f a) (g a')) : Relates R E Q (x >>= f) (y >>= g) := by
  intro s t hst
  obtain ⟨hresult, hstate⟩ := hx s t hst
  rw [run_bind, run_bind]
  generalize x.run s = ran at hresult hstate
  generalize y.run t = ran' at hresult hstate
  obtain ⟨a | a, s'⟩ := ran <;> obtain ⟨b | b, t'⟩ := ran'
  · exact ⟨hresult, hstate⟩
  · exact hresult.elim
  · exact hresult.elim
  · exact hf a b hresult s' t' hstate

theorem Relates.join {γ δ : Type} {k : ε → γ} {l : α → δ} {x y z : Action σ ε α}
    (hx : Relates Eq (fun e e' => k e = k e') (fun a a' => l a = l a') x z)
    (hy : Relates Eq (fun e e' => k e = k e') (fun a a' => l a = l a') y z) :
    Relates Eq (fun e e' => k e = k e') (fun a a' => l a = l a') x y := by
  rintro s _ rfl
  obtain ⟨hxs, hxstate⟩ := hx s s rfl
  obtain ⟨hys, hystate⟩ := hy s s rfl
  exact ⟨hxs.join hys, hxstate.trans hystate.symm⟩

end Relates

def Matches (R : σ → τ → Prop) (x : Action σ ε α) (y : Action τ ε α) : Prop :=
  ∀ s t, R s t → (x.run s).1 = (y.run t).1 ∧ R (x.run s).2 (y.run t).2

variable {R : σ → τ → Prop}

theorem matches_iff_relates {x : Action σ ε α} {y : Action τ ε α} :
    Matches R x y ↔ Relates R Eq Eq x y := by simp only [Matches, Relates, alike_eq_iff]

/-- What the step gives, if it gives anything, has the property. -/
def Yields (x : Action σ ε α) (P : α → Prop) : Prop := ∀ s a, (x.run s).1 = .ok a → P a

theorem yields_true (x : Action σ ε α) : x.Yields fun _ => True := fun _ _ _ => trivial

theorem yields_ofExcept {result : Except ε α} {P : α → Prop} (h : ∀ a, result = .ok a → P a) :
    (ofExcept result : Action σ ε α).Yields P := fun _ a ha => h a ha

theorem Yields.bind {x : Action σ ε α} {f : α → Action σ ε β} {P : α → Prop} {Q : β → Prop}
    (hx : x.Yields P) (hf : ∀ a, P a → (f a).Yields Q) : (x >>= f).Yields Q := by
  intro s b hb
  have hs := hx s
  rw [run_bind] at hb
  generalize x.run s = ran at hs hb
  obtain ⟨result, s'⟩ := ran
  cases result with
  | ok a => exact hf a (hs a rfl) s' b hb
  | error e => cases hb

theorem Yields.checked {x : Action σ ε α} {P : α → Prop} (hx : x.Yields P)
    (check : Except ε Unit) : (ofExcept check >>= fun _ => x).Yields P :=
  (yields_true _).bind fun _ _ => hx

theorem Yields.bind_congr {x : Action σ ε α} {f g : α → Action σ ε β} {P : α → Prop}
    (hx : x.Yields P) (h : ∀ a, P a → f a = g a) : x >>= f = x >>= g := by
  have hrun : ∀ s, (x >>= f).run s = (x >>= g).run s := by
    intro s
    have hs := hx s
    rw [run_bind, run_bind]
    generalize x.run s = ran at hs
    obtain ⟨result, s'⟩ := ran
    cases result with
    | ok a =>
      dsimp only
      rw [h a (hs a rfl)]
    | error e => rfl
  exact funext hrun

section Records

variable {ρ ω : Type} {shape : ρ → ω} {fails : ρ → ε → Prop}

/-- The step adds records of just these shapes, in their order. If it fails, the last ones may be
missing. -/
def Writes (shape : ρ → ω) (x : Action (σ × List ρ) ε α) (shapes : List ω) : Prop :=
  ∀ s, ∃ new, (x.run s).2.2 = s.2 ++ new ∧ Covers (x.run s).1 (new.map shape) shapes

theorem writes_ofExcept (result : Except ε α) :
    Writes shape (ofExcept result : Action (σ × List ρ) ε α) [] :=
  fun _ => ⟨[], (List.append_nil _).symm, covers_self result []⟩

theorem Writes.bind {x : Action (σ × List ρ) ε α} {f : α → Action (σ × List ρ) ε β} {P : α → Prop}
    {first later : List ω} (hx : x.Writes shape first) (hgives : x.Yields P)
    (hf : ∀ a, P a → (f a).Writes shape later) : (x >>= f).Writes shape (first ++ later) := by
  intro s
  obtain ⟨new, hnew, hshapes⟩ := hx s
  have hs := hgives s
  rw [run_bind]
  generalize x.run s = ran at hnew hshapes hs
  obtain ⟨result, s'⟩ := ran
  cases result with
  | ok a =>
    obtain ⟨more, hmore, hlater⟩ := hf a (hs a rfl) s'
    refine ⟨new ++ more, by rw [hmore, hnew, List.append_assoc], ?_⟩
    have hfirst : new.map shape = first := hshapes
    rw [List.map_append, hfirst]
    exact hlater.append_left first
  | error e =>
    have hfirst : new.map shape <+: first := hshapes
    exact ⟨new, hnew, hfirst.trans (List.prefix_append first later)⟩

theorem Writes.checked {x : Action (σ × List ρ) ε α} {shapes : List ω} (hx : x.Writes shape shapes)
    (check : Except ε Unit) : (ofExcept check >>= fun _ => x).Writes shape shapes :=
  (writes_ofExcept check).bind (yields_true _) fun _ _ => hx

/-- If the step adds a record of something that fails, it fails with it. -/
def Heeds (fails : ρ → ε → Prop) (x : Action (σ × List ρ) ε α) : Prop :=
  ∀ s, ∃ new, (x.run s).2.2 = s.2 ++ new ∧
    ∀ record ∈ new, ∀ e, fails record e → (x.run s).1 = .error e

theorem heeds_ofExcept (result : Except ε α) :
    Heeds fails (ofExcept result : Action (σ × List ρ) ε α) :=
  fun _ => ⟨[], (List.append_nil _).symm, fun _ h => absurd h List.not_mem_nil⟩

theorem Heeds.bind {x : Action (σ × List ρ) ε α} {f : α → Action (σ × List ρ) ε β}
    (hx : x.Heeds fails) (hf : ∀ a, (f a).Heeds fails) : (x >>= f).Heeds fails := by
  intro s
  obtain ⟨new, hnew, hfails⟩ := hx s
  rw [run_bind]
  generalize x.run s = ran at hnew hfails
  obtain ⟨result, s'⟩ := ran
  cases result with
  | ok a =>
    obtain ⟨more, hmore, hlater⟩ := hf a s'
    refine ⟨new ++ more, by rw [hmore, hnew, List.append_assoc], fun record hrecord e he => ?_⟩
    rcases List.mem_append.1 hrecord with hrecord | hrecord
    · cases hfails record hrecord e he
    · exact hlater record hrecord e he
  | error e =>
    refine ⟨new, hnew, fun record hrecord e' he => ?_⟩
    cases hfails record hrecord e' he
    rfl

/-- If the step fails, it fails for a reason of its own or with something that it adds a record
of. -/
def Blames (own : ε → Prop) (fails : ρ → ε → Prop) (x : Action (σ × List ρ) ε α) : Prop :=
  ∀ s, ∃ new, (x.run s).2.2 = s.2 ++ new ∧
    ∀ e, (x.run s).1 = .error e → own e ∨ ∃ record ∈ new, fails record e

variable {own : ε → Prop}

theorem blames_ofExcept (result : Except ε α) (h : ∀ e, result = .error e → own e) :
    Blames own fails (ofExcept result : Action (σ × List ρ) ε α) :=
  fun _ => ⟨[], (List.append_nil _).symm, fun e he => .inl (h e he)⟩

theorem Blames.bind {x : Action (σ × List ρ) ε α} {f : α → Action (σ × List ρ) ε β}
    (hx : x.Blames own fails) (hf : ∀ a, (f a).Blames own fails) :
    (x >>= f).Blames own fails := by
  intro s
  obtain ⟨new, hnew, hreason⟩ := hx s
  rw [run_bind]
  generalize x.run s = ran at hnew hreason
  obtain ⟨result, s'⟩ := ran
  cases result with
  | ok a =>
    obtain ⟨more, hmore, hlater⟩ := hf a s'
    refine ⟨new ++ more, by rw [hmore, hnew, List.append_assoc], fun e he => ?_⟩
    refine (hlater e he).imp_right ?_
    rintro ⟨record, hrecord, hfails⟩
    exact ⟨record, List.mem_append_right new hrecord, hfails⟩
  | error e =>
    refine ⟨new, hnew, fun e' he => ?_⟩
    cases he
    exact hreason e rfl

end Records

end Action

end CallFormula
