import CallFormula.Proofs.Registry.Changes
import CallFormula.Proofs.Registry.Names
import CallFormula.Proofs.Table

/-!
Runs of changes as writes to the keys of a table. Changes that touch no common name commute, up to
the numbers of the handles that they issue.
-/

set_option autoImplicit false

namespace CallFormula

variable {σ : Type}

/-- What a change does to the names. Its functions get the handles from `next` on. -/
def Change.writes (next : Nat) : Change σ → List (Write (Binding σ))
  | .enter (.bind name b) => [.put name b]
  | .enter (.function name arity _) => [.put name (.function arity ⟨next⟩)]
  | .unbind name => [.drop name]
  | .operators => Operator.all.map fun op => .put op.name (.operator op)
  | .math => MathFunction.all.mapIdx fun i f => .put f.name (.function f.arity ⟨next + i⟩)

def writes (next : Nat) : List (Change σ) → List (Write (Binding σ))
  | [] => []
  | c :: cs => c.writes next ++ writes (next + c.enrolled.length) cs

namespace Registry

theorem bindings_enrollMath (r : Registry σ) (ms : List MathFunction) (fs : Functions σ) :
    ((ms.foldlM bindMath r).run fs).1.bindings = r.bindings.writeAll canonical
      (ms.mapIdx fun i f => .put f.name (.function f.arity ⟨fs.bodies.length + i⟩)) := by
  induction ms generalizing r fs with
  | nil => rfl
  | cons f ms ih =>
    have hnext : ∀ i, (fs.bodies ++ [f.body]).length + i = fs.bodies.length + (i + 1) := by
      intro i
      rw [List.length_append, List.length_singleton]
      omega
    rw [StateM.run_foldlM_cons, ih, List.mapIdx_cons]
    simp only [bindMath, bindFunction, Functions.add, hnext]
    rfl

theorem bindings_operators (r : Registry σ) (ops : List Operator) :
    (ops.foldl (fun r op => r.bind op.name (.operator op)) r).bindings =
      r.bindings.writeAll canonical (ops.map fun op => .put op.name (.operator op)) := by
  induction ops generalizing r with
  | nil => rfl
  | cons op ops ih => exact ih (r.bind op.name (.operator op))

theorem bindings_change (r : Registry σ) (c : Change σ) (fs : Functions σ) :
    ((r.change c).run fs).1.bindings =
      r.bindings.writeAll canonical (c.writes fs.bodies.length) := by
  cases c with
  | enter request =>
    cases request with
    | bind name b => rfl
    | function name arity body => rfl
  | unbind name => rfl
  | operators => exact r.bindings_operators Operator.all
  | math => exact r.bindings_enrollMath MathFunction.all fs

theorem bindings_changeAll (r : Registry σ) (cs : List (Change σ)) (fs : Functions σ) :
    ((r.changeAll cs).run fs).1.bindings =
      r.bindings.writeAll canonical (writes fs.bodies.length cs) := by
  induction cs generalizing r fs with
  | nil => rfl
  | cons c cs ih =>
    have hrest := ih (r.change c fs).1 (r.change c fs).2
    have hstep := r.bindings_change c fs
    have hbodies := congrArg List.length (r.bodies_change c fs)
    rw [List.length_append, List.length_map] at hbodies
    rw [changeAll, StateM.run_foldlM_cons, writes, Table.writeAll_append, ← hstep, ← hbodies]
    exact hrest

end Registry

def Change.names : Change σ → List Text
  | .enter (.bind name _) => [name]
  | .enter (.function name _ _) => [name]
  | .unbind name => [name]
  | .operators => Operator.all.map Operator.name
  | .math => MathFunction.all.map MathFunction.name

theorem Change.latest_eq_none_iff {c : Change σ} {next : Nat} {key : Text} :
    latest canonical key (c.writes next) = none ↔ ∀ name ∈ c.names, key ≠ canonical name := by
  rw [CallFormula.latest_eq_none_iff]
  cases c with
  | enter request => cases request <;> simp [writes, names, Write.effect]
  | unbind name => simp [writes, names, Write.effect]
  | operators => simp [writes, names, Write.effect]
  | math => simp [writes, names, Write.effect, MathFunction.all]

def Binding.relabel (f : Handle → Handle) : Binding σ → Binding σ
  | .operator op => .operator op
  | .function arity handle => .function arity (f handle)
  | .builder build => .builder build

/-- A function that is bound ready-made has been issued. -/
def Change.IsReady (fs : Functions σ) : Change σ → Prop
  | .enter (.bind _ (.function _ handle)) => fs.Issued handle
  | _ => True

theorem Change.writes_relabel {fs : Functions σ} {c : Change σ} (hc : c.IsReady fs)
    {f : Handle → Handle} {next next' : Nat} (hissued : ∀ h, fs.Issued h → f h = h)
    (hnext : ∀ i < c.enrolled.length, f ⟨next + i⟩ = ⟨next' + i⟩) :
    c.writes next' = (c.writes next).map (Write.map (Binding.relabel f)) := by
  cases c with
  | enter request =>
    cases request with
    | bind name b =>
      cases b with
      | operator op => rfl
      | function arity handle => simp [writes, Write.map, Binding.relabel, hissued handle hc]
      | builder build => rfl
    | function name arity body =>
      have hfirst := hnext 0 (Nat.lt_succ_self 0)
      simp only [Nat.add_zero] at hfirst
      simp [writes, Write.map, Binding.relabel, hfirst]
  | unbind name => rfl
  | operators => rfl
  | math =>
    refine List.ext_getElem (by simp [writes]) fun i hi _ => ?_
    have hi' : i < (Change.math : Change σ).enrolled.length := by simpa [writes, enrolled] using hi
    simp [writes, Write.map, Binding.relabel, hnext i hi']

/-- What a change leaves at a name of its own depends on the handles that it is given only. -/
theorem Change.latest_relabel {fs : Functions σ} {c : Change σ} (hc : c.IsReady fs)
    {f : Handle → Handle} {next next' : Nat} (hissued : ∀ h, fs.Issued h → f h = h)
    (hnext : ∀ i < c.enrolled.length, f ⟨next + i⟩ = ⟨next' + i⟩) {key : Text}
    (hkey : ∃ name ∈ c.names, key = canonical name) (old : Option (Binding σ)) :
    (latest canonical key (c.writes next')).getD old =
      ((latest canonical key (c.writes next)).getD old).map (Binding.relabel f) := by
  rw [writes_relabel hc hissued hnext, latest_map]
  cases hleft : latest canonical key (c.writes next) with
  | some left => rfl
  | none =>
    obtain ⟨name, hname, rfl⟩ := hkey
    exact absurd rfl (latest_eq_none_iff.1 hleft name hname)

theorem Change.writes_of_enrolled {c : Change σ} (hc : c.enrolled = []) (next next' : Nat) :
    c.writes next = c.writes next' := by
  cases c with
  | enter request =>
    cases request with
    | bind name b => rfl
    | function name arity body => cases hc
  | unbind name => rfl
  | operators => rfl
  | math => cases hc

/-- Exchanges two blocks of handles, of `m` and of `n`, that start at `start`. -/
def Handle.exchange (start m n : Nat) (h : Handle) : Handle :=
  if h.number < start then h
  else if h.number < start + m then ⟨h.number + n⟩
  else if h.number < start + m + n then ⟨h.number - m⟩
  else h

theorem Handle.exchange_first {start m n i : Nat} (hi : i < m) :
    exchange start m n ⟨start + i⟩ = ⟨start + n + i⟩ := by
  rw [exchange, if_neg (by simp), if_pos (by simpa using hi), Handle.mk.injEq]
  exact Nat.add_right_comm start i n

theorem Handle.exchange_second {start m n i : Nat} (hi : i < n) :
    exchange start m n ⟨start + m + i⟩ = ⟨start + i⟩ := by
  simp only [exchange]
  rw [if_neg (by omega), if_neg (by omega), if_pos (by omega), Handle.mk.injEq]
  omega

theorem Handle.exchange_injective (start m n : Nat) :
    Function.Injective (Handle.exchange start m n) := by
  rintro ⟨i⟩ ⟨j⟩ h
  simp only [exchange, Handle.mk.injEq] at h ⊢
  split_ifs at h <;> simp only [Handle.mk.injEq] at h <;> omega

theorem getElem?_exchange {α : Type} (front xs ys : List α) (h : Handle) :
    (front ++ (ys ++ xs))[(h.exchange front.length xs.length ys.length).number]? =
      (front ++ (xs ++ ys))[h.number]? := by
  obtain ⟨i⟩ := h
  simp only [Handle.exchange, List.getElem?_append]
  by_cases hi : i < front.length + xs.length + ys.length
  · split_ifs <;> dsimp only at * <;> first | rfl | omega | (congr 1; omega)
  · have hback : ¬i < front.length + xs.length := by omega
    have hfront : ¬i < front.length := by omega
    simp only [if_neg hi, if_neg hback, if_neg hfront]
    rw [if_neg (by omega), if_neg (by omega), List.getElem?_eq_none (by omega),
      List.getElem?_eq_none (by omega)]

namespace Registry

variable {r : Registry σ} {fs : Functions σ} {c d : Change σ}

theorem get?_changeAll_pair (r : Registry σ) (c d : Change σ) (fs : Functions σ) (key : Text) :
    ((r.changeAll [c, d]).run fs).1.bindings.get? key =
      ((latest canonical key (d.writes (fs.bodies.length + c.enrolled.length))).or
        (latest canonical key (c.writes fs.bodies.length))).getD (r.bindings.get? key) := by
  rw [bindings_changeAll, Table.get?_writeAll, writes, writes, writes, List.append_nil,
    latest_append]

theorem bodies_changeAll_pair (r : Registry σ) (c d : Change σ) (fs : Functions σ) :
    ((r.changeAll [c, d]).run fs).2.bodies = fs.bodies ++
      (c.enrolled.map Enrolled.body ++ d.enrolled.map Enrolled.body) := by
  simp [bodies_changeAll]

/-- From this store the changes come to the same in either order: the names that they do not touch
stay as they were, and the others are bound alike, up to one relabelling of the handles, under which
every handle computes what it did and those that were issued before are kept. -/
def Commute (r : Registry σ) (fs : Functions σ) (c d : Change σ) : Prop :=
  let one := (r.changeAll [c, d]).run fs
  let other := (r.changeAll [d, c]).run fs
  ∃ relabel : Handle → Handle, Function.Injective relabel ∧
    (∀ h, fs.Issued h → relabel h = h) ∧
    (∀ h : Handle, other.2.bodies[(relabel h).number]? = one.2.bodies[h.number]?) ∧
    (∀ name, (∃ touched ∈ c.names ++ d.names, canonical name = canonical touched) →
      other.1.lookup name = (one.1.lookup name).map (Binding.relabel relabel)) ∧
    ∀ name, (∀ touched ∈ c.names ++ d.names, canonical name ≠ canonical touched) →
      one.1.lookup name = r.lookup name ∧ other.1.lookup name = r.lookup name

theorem get?_changeAll_pair_of_left (r : Registry σ) (c : Change σ) (fs : Functions σ) {key : Text}
    (hd : ∀ name ∈ d.names, key ≠ canonical name) :
    ((r.changeAll [c, d]).run fs).1.bindings.get? key =
        (latest canonical key (c.writes fs.bodies.length)).getD (r.bindings.get? key) ∧
      ((r.changeAll [d, c]).run fs).1.bindings.get? key =
        (latest canonical key (c.writes (fs.bodies.length + d.enrolled.length))).getD
          (r.bindings.get? key) := by
  rw [get?_changeAll_pair, get?_changeAll_pair]
  rw [Change.latest_eq_none_iff.2 hd, Change.latest_eq_none_iff.2 hd, Option.or_none,
    Option.none_or]
  exact ⟨rfl, rfl⟩

theorem commute_of_names_ne (hc : c.IsReady fs) (hd : d.IsReady fs)
    (hne : ∀ a ∈ c.names, ∀ b ∈ d.names, canonical a ≠ canonical b) : r.Commute fs c d := by
  set relabel := Handle.exchange fs.bodies.length c.enrolled.length d.enrolled.length
  have hissued : ∀ h, fs.Issued h → relabel h = h := fun h hh => if_pos hh
  refine ⟨relabel, Handle.exchange_injective _ _ _, hissued, fun h => ?_, fun name htouched => ?_,
    fun name huntouched => ?_⟩
  · have hexchange := getElem?_exchange fs.bodies (c.enrolled.map Enrolled.body)
      (d.enrolled.map Enrolled.body) h
    rw [List.length_map, List.length_map] at hexchange
    rw [bodies_changeAll_pair, bodies_changeAll_pair]
    exact hexchange
  · obtain ⟨touched, hmem, hname⟩ := htouched
    -- The change that does not touch the name drops out of both orders.
    rcases List.mem_append.1 hmem with hmem | hmem
    · have hleft : ∀ b ∈ d.names, canonical name ≠ canonical b := hname ▸ hne touched hmem
      obtain ⟨hone, hother⟩ := r.get?_changeAll_pair_of_left c fs hleft
      rw [lookup, lookup, hone, hother]
      exact Change.latest_relabel hc hissued (fun i => Handle.exchange_first)
        ⟨touched, hmem, hname⟩ _
    · have hleft : ∀ a ∈ c.names, canonical name ≠ canonical a := fun a ha heq =>
        hne a ha touched hmem (heq.symm.trans hname)
      obtain ⟨hother, hone⟩ := r.get?_changeAll_pair_of_left d fs hleft
      rw [lookup, lookup, hone, hother]
      exact Change.latest_relabel hd hissued (fun i => Handle.exchange_second)
        ⟨touched, hmem, hname⟩ _
  · have hc' : ∀ a ∈ c.names, canonical name ≠ canonical a := fun a ha =>
      huntouched a (List.mem_append_left _ ha)
    have hd' : ∀ b ∈ d.names, canonical name ≠ canonical b := fun b hb =>
      huntouched b (List.mem_append_right _ hb)
    obtain ⟨hone, hother⟩ := r.get?_changeAll_pair_of_left c fs hd'
    rw [Change.latest_eq_none_iff.2 hc'] at hone hother
    exact ⟨hone, hother⟩

theorem changeAll_pair_comm (hc : c.enrolled = [])
    (hne : ∀ a ∈ c.names, ∀ b ∈ d.names, canonical a ≠ canonical b) :
    (r.changeAll [c, d]).run fs = (r.changeAll [d, c]).run fs := by
  have hbodies : ((r.changeAll [c, d]).run fs).2.bodies =
      ((r.changeAll [d, c]).run fs).2.bodies := by
    simp [bodies_changeAll_pair, hc]
  have hbindings : ((r.changeAll [c, d]).run fs).1.bindings =
      ((r.changeAll [d, c]).run fs).1.bindings := by
    refine Table.ext fun key => ?_
    rw [get?_changeAll_pair, get?_changeAll_pair, hc, List.length_nil, Nat.add_zero,
      Change.writes_of_enrolled hc (fs.bodies.length + d.enrolled.length) fs.bodies.length]
    by_cases hkey : ∀ a ∈ c.names, key ≠ canonical a
    · rw [Change.latest_eq_none_iff.2 hkey, Option.or_none, Option.none_or]
    · push Not at hkey
      obtain ⟨a, ha, rfl⟩ := hkey
      rw [Change.latest_eq_none_iff.2 (hne a ha), Option.or_none, Option.none_or]
  refine Prod.ext ?_ ?_
  · exact congrArg Registry.mk hbindings
  · exact congrArg Functions.mk hbodies

/-- A standard registry is an empty one after its first change. -/
theorem changeAll_eq_of_opening {base : Registry σ} {opening : List (Change σ)}
    (hbase : base = .empty ∧ opening = [] ∨ base = .standard ∧ opening = [.operators])
    (changes : List (Change σ)) (fs : Functions σ) :
    (base.changeAll changes).run fs = (empty.changeAll (opening ++ changes)).run fs := by
  obtain ⟨rfl, rfl⟩ | ⟨rfl, rfl⟩ := hbase
  · rfl
  · rfl

theorem lookup_eq_some_iff {changes : List (Change σ)} {name : Text} {b : Binding σ} :
    ((empty.changeAll changes).run fs).1.lookup name = some b ↔
      ∃ before bound after, writes fs.bodies.length changes = before ++ .put bound b :: after ∧
        canonical name = canonical bound ∧
        ∀ w ∈ after, w.effect canonical (canonical name) = none := by
  rw [lookup, bindings_changeAll]
  exact Table.get?_writeAll_empty_eq_some_iff

theorem isFormed_changeAll (changes : List (Change σ)) (fs : Functions σ) :
    ((empty.changeAll changes).run fs).1.bindings.IsFormed canonical := by
  rw [bindings_changeAll]
  exact Table.isFormed_empty.writeAll _

/-- In a registry the last change of a name counts, after any run of changes. -/
theorem changeAll_latest {base : Registry σ} {opening : List (Change σ)}
    (hbase : base = .empty ∧ opening = [] ∨ base = .standard ∧ opening = [.operators])
    (fs : Functions σ) (changes : List (Change σ)) :
    let ended := (base.changeAll changes).run fs
    let r := ended.1
    (∀ name b, r.lookup name = some b ↔
        ∃ before bound after,
          writes fs.bodies.length (opening ++ changes) = before ++ .put bound b :: after ∧
          canonical name = canonical bound ∧
          ∀ w ∈ after, w.effect canonical (canonical name) = none) ∧
      ended.2.bodies = fs.bodies ++ (changes.flatMap Change.enrolled).map Enrolled.body ∧
      (∀ name, r.contains name = (r.lookup name).isSome) ∧
      (∀ name, (r.unregister name).1 = r.contains name ∧
        (r.unregister name).2 = ((r.change (.unbind name)).run ended.2).1 ∧
        ∀ other, (r.unregister name).2.lookup other =
          if canonical other = canonical name then none else r.lookup other) ∧
      (r.names.map Text.bytes).Pairwise (· < ·) ∧
      (∀ key, key ∈ r.names ↔ ∃ name, canonical name = key ∧ r.contains name = true) ∧
      (∀ key ∈ r.names, r.contains key = true) ∧
      r.size = r.names.length ∧ (r.isEmpty = true ↔ r.names = []) ∧
      ∀ c d : Change σ, (∀ a ∈ c.names, ∀ b ∈ d.names, canonical a ≠ canonical b) →
        (c.IsReady ended.2 → d.IsReady ended.2 → r.Commute ended.2 c d) ∧
          (c.enrolled = [] →
            (r.changeAll [c, d]).run ended.2 = (r.changeAll [d, c]).run ended.2) := by
  intro ended r
  have hended : ended = (empty.changeAll (opening ++ changes)).run fs :=
    changeAll_eq_of_opening hbase changes fs
  have hformed : r.bindings.IsFormed canonical := by
    simp only [r, hended]
    exact isFormed_changeAll (opening ++ changes) fs
  refine ⟨fun name b => ?_, base.bodies_changeAll changes fs, fun name => rfl, fun name => ?_,
    r.bindings.sorted_bytes_keys, fun key => hformed.mem_keys_iff, fun key hkey => ?_,
    r.bindings.length_keys.symm, ?_, fun c d hne => ⟨fun hc hd => ?_, fun hc => ?_⟩⟩
  · simp only [r, hended]
    exact lookup_eq_some_iff
  · rw [unregister_eq]
    exact ⟨rfl, rfl, r.lookup_unbind name⟩
  · exact hformed.contains_of_mem_keys canonical_canonical hkey
  · rw [names, ← List.isEmpty_iff, Table.isEmpty_keys]
    rfl
  · exact commute_of_names_ne hc hd hne
  · exact changeAll_pair_comm hc hne

theorem changeAll_latest_strasse :
    let body : Native Unit := fun _ => pure 1
    let changes : List (Change Unit) := [.enter (.function " straße".toList .any body),
      .enter (.bind "add".toList (.operator .multiply)), .unbind "Power".toList]
    let ended := ((standard : Registry Unit).changeAll changes).run .empty
    ended.1.lookup "STRASSE ".toList = some (.function .any ⟨0⟩) ∧
      (ended.1.unregister "Strasse".toList).1 = true ∧
      (ended.1.unregister "Strasse".toList).2.lookup "Add".toList = some (.operator .multiply) ∧
      ended.1.Commute ended.2 (.enter (.function "ı".toList .any body))
        (.enter (.function "ß".toList .any body)) := by
  intro body changes ended
  have hstreet : canonical " straße".toList = "STRASSE".toList := by decide +kernel
  have hspaced : canonical "STRASSE ".toList = "STRASSE".toList := by decide +kernel
  have hmixed : canonical "Strasse".toList = "STRASSE".toList := by decide +kernel
  have hadd : canonical "add".toList = "ADD".toList := by decide +kernel
  have hAdd : canonical "Add".toList = "ADD".toList := by decide +kernel
  have hpower : canonical "Power".toList = "POWER".toList := by decide +kernel
  obtain ⟨hlookup, -, hcontains, hunregister, -, -, -, -, -, hcommute⟩ :=
    changeAll_latest (.inr ⟨rfl, rfl⟩) (.empty : Functions Unit) changes
  let operators : List (Write (Binding Unit)) :=
    Operator.all.map fun op => .put op.name (.operator op)
  have hwrites : writes 0 ([.operators] ++ changes) = operators ++
      [.put " straße".toList (.function .any ⟨0⟩), .put "add".toList (.operator .multiply),
        .drop "Power".toList] := rfl
  have hfound : ended.1.lookup "STRASSE ".toList = some (.function .any ⟨0⟩) := by
    refine (hlookup _ _).2 ⟨operators, _, _, hwrites, hspaced.trans hstreet.symm, ?_⟩
    refine List.forall_mem_cons.2 ⟨?_, List.forall_mem_singleton.2 ?_⟩
    · rw [Write.effect, hspaced, hadd]
      exact if_neg (by decide +kernel)
    · rw [Write.effect, hspaced, hpower]
      exact if_neg (by decide +kernel)
  refine ⟨hfound, ?_, ?_, ?_⟩
  · rw [(hunregister _).1, hcontains, lookup, hmixed, ← hspaced]
    exact congrArg Option.isSome hfound
  · have hother : canonical "Add".toList ≠ canonical "Strasse".toList := by
      rw [hAdd, hmixed]
      decide +kernel
    rw [(hunregister _).2.2, if_neg hother]
    have hsplit := hwrites.trans (List.append_cons operators _ _)
    refine (hlookup _ _).2 ⟨_, _, _, hsplit, hAdd.trans hadd.symm, ?_⟩
    refine List.forall_mem_singleton.2 ?_
    rw [Write.effect, hAdd, hpower]
    exact if_neg (by decide +kernel)
  · refine (hcommute _ _ ?_).1 trivial trivial
    simp only [Change.names, List.forall_mem_singleton]
    decide +kernel

end Registry

end CallFormula
