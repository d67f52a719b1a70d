import CallFormula.Proofs.Calculator.Transparency

/-!
The annals of a calculator: what an unbounded memory would hold since it last forgot.
-/

set_option autoImplicit false

namespace CallFormula

theorem eraseDups_filter (p : Text → Bool) (ks : List Text) :
    (ks.filter p).eraseDups = ks.eraseDups.filter p := by
  match ks with
  | [] => rfl
  | k :: ks =>
    have hrest := eraseDups_filter p (ks.filter fun l => !l == k)
    by_cases hk : p k = true
    · rw [List.filter_cons_of_pos hk, List.eraseDups_cons, List.eraseDups_cons,
        List.filter_cons_of_pos hk, ← hrest, List.filter_filter, List.filter_filter]
      simp only [Bool.and_comm]
    · have hne : ∀ l ∈ ks, (p l && !l == k) = p l := by
        intro l _
        by_cases hl : l = k
        · simp [hl, hk]
        · simp [hl]
      rw [List.filter_cons_of_neg hk, List.eraseDups_cons, List.filter_cons_of_neg hk, ← hrest,
        List.filter_filter, List.filter_congr hne]
termination_by ks.length
decreasing_by exact Nat.lt_succ_of_le (List.length_filter_le _ _)

namespace Recent

variable {α : Type}

@[simp] theorem length_keys (r : Recent α) : r.keys.length = r.size := List.length_map _

/-- An entry among the first `n` changes places with them only. -/
theorem take_inFront_of_mem {k : Text} {n : Nat} {es : List (Text × α)}
    (hdistinct : (es.map Prod.fst).Nodup) (h : k ∈ (es.take n).map Prod.fst) (v : α) :
    (inFront k v es).take n = inFront k v (es.take n) := by
  have hlength := length_inFront_of_mem (hdistinct.sublist ((List.take_sublist n es).map _)) h v
  rcases Nat.le_total es.length n with hle | hle
  · rw [List.take_of_length_le hle] at hlength ⊢
    exact List.take_of_length_le (hlength.trans_le hle)
  · rw [List.length_take_of_le hle] at hlength
    have happend := inFront_append k v (es.take n) (es.drop n)
    rw [List.take_append_drop] at happend
    rw [happend, List.take_left' hlength]

/-- Any other one pushes the last of them out. -/
theorem take_inFront_of_not_mem {k : Text} {n : Nat} {es : List (Text × α)}
    (h : k ∉ (es.take n).map Prod.fst) (v : α) :
    (inFront k v es).take n = ((k, v) :: es.take n).take n := by
  rcases Nat.le_total es.length n with hle | hle
  · rw [List.take_of_length_le hle] at h ⊢
    rw [inFront_of_not_mem h]
  · have happend := inFront_append k v (es.take n) (es.drop n)
    have hlength : n ≤ ((k, v) :: es.take n).length := by
      rw [List.length_cons, List.length_take_of_le hle]
      exact Nat.le_succ n
    rw [List.take_append_drop, inFront_of_not_mem h] at happend
    rw [happend, List.take_append_of_le_length hlength]

end Recent

variable {σ : Type}

/-- A use of the calculator, or something that the host does between two uses, such as evaluating
trees that it was given. -/
inductive Event (σ : Type) where
  | use (u : Use σ)
  | meanwhile (change : σ → σ)

def Desk.event : Event σ → StateM (Desk σ) Answer
  | .use u => Desk.use u
  | .meanwhile change => fun d =>
    (.nothing, { d with bench := { d.bench with host := change d.bench.host } })

def Event.forgets : Event σ → Bool
  | .use (.enter _) => true
  | .use (.withLimit _) => true
  | _ => false

/-- The trimmed text of a call whose formula has a tree; the tree may have no value. -/
def textRead : Event σ × Answer → Option Text
  | (.use (.parse formula), .tree (.ok _)) => some (Text.trim formula)
  | (.use (.evaluate formula _), .value (.ok _)) => some (Text.trim formula)
  | (.use (.evaluate formula _), .value (.error (.evaluation _))) => some (Text.trim formula)
  | _ => none

/-- The distinct texts that were read since the calculator last forgot, the latest used in front. -/
def textsRead (log : List (Event σ × Answer)) : List Text :=
  ((log.reverse.takeWhile fun e => !e.1.forgets).filterMap textRead).eraseDups

theorem textsRead_append_forgets {log : List (Event σ × Answer)} {e : Event σ} (answer : Answer)
    (h : e.forgets = true) : textsRead (log ++ [(e, answer)]) = [] := by
  simp [textsRead, h]

theorem textsRead_append_of_none {log : List (Event σ × Answer)} {e : Event σ} {answer : Answer}
    (h : e.forgets = false) (hnone : textRead (e, answer) = none) :
    textsRead (log ++ [(e, answer)]) = textsRead log := by
  simp [textsRead, h, hnone]

theorem textsRead_append_of_some {log : List (Event σ × Answer)} {e : Event σ} {answer : Answer}
    {k : Text} (h : e.forgets = false) (hsome : textRead (e, answer) = some k) :
    textsRead (log ++ [(e, answer)]) = k :: (textsRead log).filter (· ≠ k) := by
  have hne : (fun l => !l == k) = fun l : Text => decide (l ≠ k) := by
    funext l
    by_cases hl : l = k <;> simp [hl]
  simp only [textsRead, List.reverse_append, List.reverse_cons, List.reverse_nil, List.nil_append,
    List.singleton_append, List.takeWhile_cons, h, Bool.not_false, if_true, List.filterMap_cons,
    hsome, List.eraseDups_cons, eraseDups_filter, hne]

/-- A desk without a memory, and the tree of every formula that was read since the calculator last
forgot, the latest used in front. -/
structure Annals (σ : Type) where
  bare : BareDesk σ
  history : List (Text × Tree)

namespace Annals

/-- A formula among the first `n` of the annals is not read again: it has the tree of when it was
last read. Any other one is read, and entered if it has a tree. -/
def read (n : Nat) (formula : Text) : StateM (Annals σ) (Except ParseError Tree) := fun a =>
  let key := Text.trim formula
  match (a.history.take n).lookup key with
  | some tree => (.ok tree, { a with history := Recent.inFront key tree a.history })
  | none =>
    match (a.bare.registry.parse (some a.bare.limit) formula).run a.bare.bench with
    | (.ok tree, bench) =>
      (.ok tree, ⟨{ a.bare with bench := bench }, Recent.inFront key tree a.history⟩)
    | (.error e, bench) => (.error e, { a with bare := { a.bare with bench := bench } })

def evaluate (tree : Tree) (c : Context) : StateM (Annals σ) (Except EvaluationError Float) :=
  fun a =>
    let (result, host) := (tree.evaluate a.bare.functions c).run a.bare.bench.host
    (result, { a with bare := { a.bare with bench := { a.bare.bench with host := host } } })

def event (n : Nat) : Event σ → StateM (Annals σ) Answer
  | .use (.parse formula) => do
    let result ← read n formula
    pure (.tree result)
  | .use (.evaluate formula c) => do
    match ← read n formula with
    | .error e => pure (.value (.error (.parse e)))
    | .ok tree => do
      let result ← evaluate tree c
      pure (.value (result.mapError .evaluation))
  | .use (.enter r) => fun a => (.nothing, ⟨(BareDesk.use (.enter r) a.bare).2, []⟩)
  | .use (.withLimit limit) => fun a =>
    (.nothing, ⟨(BareDesk.use (.withLimit limit) a.bare).2, []⟩)
  | .meanwhile change => fun a =>
    (.nothing,
      { a with bare := { a.bare with bench := { a.bare.bench with host := change a.bare.bench.host } } })

end Annals

namespace Annals

theorem distinct_read {n : Nat} {a : Annals σ} (h : (a.history.map Prod.fst).Nodup)
    (formula : Text) : ((read n formula a).2.history.map Prod.fst).Nodup := by
  simp only [read]
  cases (a.history.take n).lookup (Text.trim formula) with
  | some tree => exact Recent.distinct_inFront _ _ h
  | none =>
    obtain ⟨result, bench⟩ := (a.bare.registry.parse (some a.bare.limit) formula).run a.bare.bench
    cases result with
    | ok tree => exact Recent.distinct_inFront _ _ h
    | error e => exact h

theorem keys_read (n : Nat) (formula : Text) (a : Annals σ) :
    (read n formula a).2.history.map Prod.fst =
      match (read n formula a).1 with
      | .ok _ => Text.trim formula :: (a.history.map Prod.fst).filter (· ≠ Text.trim formula)
      | .error _ => a.history.map Prod.fst := by
  simp only [read]
  cases (a.history.take n).lookup (Text.trim formula) with
  | some tree => exact Recent.keys_inFront _ _ _
  | none =>
    obtain ⟨result, bench⟩ := (a.bare.registry.parse (some a.bare.limit) formula).run a.bare.bench
    cases result with
    | ok tree => exact Recent.keys_inFront _ _ _
    | error e => rfl

theorem event_evaluate (n : Nat) (formula : Text) (c : Context) (a : Annals σ) :
    event n (.use (.evaluate formula c)) a =
      match read n formula a with
      | (.error e, a) => (.value (.error (.parse e)), a)
      | (.ok tree, a) =>
        (.value ((evaluate tree c a).1.mapError .evaluation), (evaluate tree c a).2) := by
  have hbind : ∀ f : Except ParseError Tree → StateM (Annals σ) Answer,
      (read n formula >>= f) a = f (read n formula a).1 (read n formula a).2 := fun _ => rfl
  rw [event, hbind]
  obtain ⟨result, a'⟩ := read n formula a
  cases result with
  | ok tree => rfl
  | error e => rfl

theorem keys_event {n : Nat} {log : List (Event σ × Answer)} {a : Annals σ}
    (h : a.history.map Prod.fst = textsRead log) (e : Event σ) :
    (event n e a).2.history.map Prod.fst = textsRead (log ++ [(e, (event n e a).1)]) := by
  cases e with
  | meanwhile change => exact h.trans (textsRead_append_of_none rfl rfl).symm
  | use u =>
    cases u with
    | enter r => exact (textsRead_append_forgets _ rfl).symm
    | withLimit limit => exact (textsRead_append_forgets _ rfl).symm
    | parse formula =>
      have hkeys := keys_read n formula a
      have hevent : event n (.use (.parse formula)) a =
          (.tree (read n formula a).1, (read n formula a).2) := rfl
      rw [hevent]
      cases hresult : (read n formula a).1 with
      | ok tree =>
        rw [hresult, h] at hkeys
        exact hkeys.trans (textsRead_append_of_some rfl rfl).symm
      | error e =>
        rw [hresult, h] at hkeys
        exact hkeys.trans (textsRead_append_of_none rfl rfl).symm
    | evaluate formula c =>
      have hkeys := keys_read n formula a
      rw [event_evaluate]
      generalize read n formula a = ran at hkeys
      obtain ⟨result, a'⟩ := ran
      cases result with
      | ok tree =>
        have htext : textRead (Event.use (σ := σ) (.evaluate formula c),
            .value ((evaluate tree c a').1.mapError .evaluation)) = some (Text.trim formula) := by
          cases (evaluate tree c a').1 <;> rfl
        rw [h] at hkeys
        exact hkeys.trans (textsRead_append_of_some rfl htext).symm
      | error e =>
        rw [h] at hkeys
        exact hkeys.trans (textsRead_append_of_none rfl rfl).symm

theorem keys_run {n : Nat} {log : List (Event σ × Answer)} {a : Annals σ}
    (h : a.history.map Prod.fst = textsRead log) (es : List (Event σ)) :
    ((es.mapM (event n)).run a).2.history.map Prod.fst =
      textsRead (log ++ es.zip ((es.mapM (event n)).run a).1) := by
  induction es generalizing log a with
  | nil => exact h.trans (congrArg textsRead (List.append_nil log).symm)
  | cons e es ih =>
    have hrest := ih (keys_event (n := n) h e)
    rw [StateM.run_mapM_cons]
    rw [List.append_assoc] at hrest
    exact hrest

end Annals

theorem Calculator.run_parse_remembered {k : Calculator σ} {formula : Text} {tree : Tree}
    (h : k.recent.get? (Text.trim formula) = some tree) (bench : Workbench σ) :
    ((k.parse formula).run bench).1.1 = .ok tree ∧ ((k.parse formula).run bench).2 = bench := by
  rw [run_parse, h]
  exact ⟨rfl, rfl⟩

theorem Calculator.run_parse_anew {k : Calculator σ} {formula : Text}
    (h : k.recent.get? (Text.trim formula) = none) (bench : Workbench σ) :
    let anew := (k.registry.parse (some k.limit) formula).run bench
    ((k.parse formula).run bench).1.1 = anew.1 ∧ ((k.parse formula).run bench).2 = anew.2 ∧
      ∀ e, anew.1 = .error e → ((k.parse formula).run bench).1.2 = k := by
  simp only [run_parse, h]
  obtain ⟨result, bench'⟩ := (k.registry.parse (some k.limit) formula).run bench
  cases result with
  | ok tree => exact ⟨rfl, rfl, fun e he => by cases he⟩
  | error e => exact ⟨rfl, rfl, fun _ _ => rfl⟩

/-- A desk whose calculator remembers the first `n` of the annals. -/
structure Desk.Follows (n : Nat) (d : Desk σ) (a : Annals σ) : Prop where
  bare : d.bare = a.bare
  capacity : d.calculator.recent.capacity = n
  entries : d.calculator.recent.entries = a.history.take n
  distinct : (a.history.map Prod.fst).Nodup

namespace Desk.Follows

variable {n : Nat} {d : Desk σ} {a : Annals σ}

theorem entries_note (h : d.Follows n a) (key : Text) (tree : Tree) :
    (d.calculator.recent.note key tree).entries =
      (Recent.inFront key tree a.history).take n := by
  cases hget : d.calculator.recent.get? key with
  | some old =>
    have hmem := List.mem_map_of_mem (f := Prod.fst) (Recent.get?_eq_some_iff.1 hget)
    rw [h.entries] at hmem
    rw [Recent.entries_note_of_hit hget, h.entries, Recent.take_inFront_of_mem h.distinct hmem]
  | none =>
    have hnew := (Recent.get?_eq_none_iff _ key).1 hget
    rw [Recent.keys, h.entries] at hnew
    rw [Recent.entries_note_of_miss hget, h.entries, h.capacity,
      Recent.take_inFront_of_not_mem hnew]

theorem exists_read (h : d.Follows n a) (formula : Text) : ∃ recent,
    (d.calculator.parse formula).run d.bench =
      (((Annals.read n formula a).1, { d.calculator with recent := recent }),
        (Annals.read n formula a).2.bare.bench) ∧
    Desk.Follows n ⟨{ d.calculator with recent := recent }, d.functions,
      (Annals.read n formula a).2.bare.bench⟩ (Annals.read n formula a).2 := by
  obtain ⟨bare, history⟩ := a
  obtain rfl : d.bare = bare := h.bare
  have hget : d.calculator.recent.get? (Text.trim formula) =
      (history.take n).lookup (Text.trim formula) := by rw [Recent.get?, h.entries]
  have hdistinct := Annals.distinct_read (n := n) h.distinct formula
  have hnote := h.entries_note (Text.trim formula)
  simp only [Calculator.run_parse, hget]
  simp only [Annals.read, Desk.bare] at hdistinct ⊢
  cases hfound : (history.take n).lookup (Text.trim formula) with
  | some tree =>
    rw [hfound] at hdistinct
    exact ⟨d.calculator.recent.note (Text.trim formula) tree, rfl, rfl, h.capacity, hnote tree,
      hdistinct⟩
  | none =>
    rw [hfound] at hdistinct
    dsimp only at hdistinct ⊢
    generalize (d.calculator.registry.parse (some d.calculator.limit) formula).run d.bench = ran
      at hdistinct ⊢
    obtain ⟨result, bench⟩ := ran
    cases result with
    | ok tree =>
      exact ⟨d.calculator.recent.note (Text.trim formula) tree, rfl, rfl, h.capacity, hnote tree,
        hdistinct⟩
    | error e => exact ⟨d.calculator.recent, rfl, rfl, h.capacity, h.entries, h.distinct⟩

theorem use_parse (h : d.Follows n a) (formula : Text) :
    (Desk.use (.parse formula) d).1 = (Annals.event n (.use (.parse formula)) a).1 ∧
      (Desk.use (.parse formula) d).2.Follows n
        (Annals.event n (.use (.parse formula)) a).2 := by
  obtain ⟨recent, hrun, hfollows⟩ := h.exists_read formula
  simp only [Desk.use, hrun]
  exact ⟨rfl, hfollows⟩

theorem use_evaluate (h : d.Follows n a) (formula : Text) (c : Context) :
    (Desk.use (.evaluate formula c) d).1 = (Annals.event n (.use (.evaluate formula c)) a).1 ∧
      (Desk.use (.evaluate formula c) d).2.Follows n
        (Annals.event n (.use (.evaluate formula c)) a).2 := by
  obtain ⟨recent, hrun, hfollows⟩ := h.exists_read formula
  simp only [Desk.use, Calculator.run_evaluate, hrun]
  rw [Annals.event_evaluate]
  generalize Annals.read n formula a = ran at hfollows
  obtain ⟨result, a'⟩ := ran
  cases result with
  | error e => exact ⟨rfl, hfollows⟩
  | ok tree =>
    obtain ⟨⟨registry, limit, functions, bench⟩, history⟩ := a'
    have hbare := hfollows.bare
    simp only [Desk.bare, BareDesk.mk.injEq] at hbare
    obtain ⟨rfl, rfl, rfl, -⟩ := hbare
    exact ⟨rfl, rfl, hfollows.capacity, hfollows.entries, hfollows.distinct⟩

theorem use_enter (h : d.Follows n a) (r : Registration σ) :
    (Desk.use (.enter r) d).2.Follows n (Annals.event n (.use (.enter r)) a).2 := by
  obtain ⟨bare, history⟩ := a
  obtain rfl : d.bare = bare := h.bare
  cases r with
  | bind name b => exact ⟨rfl, h.capacity, List.take_nil.symm, List.nodup_nil⟩
  | function name arity body => exact ⟨rfl, h.capacity, List.take_nil.symm, List.nodup_nil⟩

theorem event (h : d.Follows n a) (e : Event σ) :
    (Desk.event e d).1 = (Annals.event n e a).1 ∧
      (Desk.event e d).2.Follows n (Annals.event n e a).2 := by
  cases e with
  | use u =>
    cases u with
    | parse formula => exact h.use_parse formula
    | evaluate formula c => exact h.use_evaluate formula c
    | enter r => exact ⟨rfl, h.use_enter r⟩
    | withLimit limit =>
      obtain ⟨bare, history⟩ := a
      obtain rfl : d.bare = bare := h.bare
      exact ⟨rfl, rfl, h.capacity, List.take_nil.symm, List.nodup_nil⟩
  | meanwhile change =>
    obtain ⟨bare, history⟩ := a
    obtain rfl : d.bare = bare := h.bare
    exact ⟨rfl, rfl, h.capacity, h.entries, h.distinct⟩

theorem run (h : d.Follows n a) (es : List (Event σ)) :
    ((es.mapM Desk.event).run d).1 = ((es.mapM (Annals.event n)).run a).1 ∧
      ((es.mapM Desk.event).run d).2.Follows n ((es.mapM (Annals.event n)).run a).2 := by
  induction es generalizing d a with
  | nil => exact ⟨rfl, h⟩
  | cons e es ih =>
    obtain ⟨hanswer, hafter⟩ := h.event e
    obtain ⟨hanswers, hend⟩ := ih hafter
    rw [StateM.run_mapM_cons, StateM.run_mapM_cons, hanswer, hanswers]
    exact ⟨rfl, hend⟩

end Desk.Follows

/-- A calculator of capacity `n` remembers the first `n` of the texts that were read since it last
forgot, with the trees of when they were last read. -/
theorem Calculator.recent_eq_annals (registry : Registry σ) (n : Nat) (fs : Functions σ)
    (bench : Workbench σ) (es : List (Event σ)) :
    let start : Desk σ := ⟨.make registry n, fs, bench⟩
    let blank : Annals σ := ⟨⟨registry, defaultLimit, fs, bench⟩, []⟩
    let ran := (es.mapM Desk.event).run start
    let told := (es.mapM (Annals.event n)).run blank
    let texts := textsRead (es.zip ran.1)
    ran.1 = told.1 ∧ ran.2.bare = told.2.bare ∧
      ran.2.calculator.recent.entries = told.2.history.take n ∧
      told.2.history.map Prod.fst = texts ∧
      ran.2.calculator.recent.keys = texts.take (min n texts.length) ∧
      ran.2.calculator.remembered = min n texts.length ∧
      ∀ formula,
        let next := (ran.2.calculator.parse formula).run ran.2.bench
        let anew := (ran.2.calculator.registry.parse (some ran.2.calculator.limit) formula).run
          ran.2.bench
        (Text.trim formula ∈ texts.take n → ∃ tree,
          (told.2.history.take n).lookup (Text.trim formula) = some tree ∧
            next.1.1 = .ok tree ∧ next.2 = ran.2.bench) ∧
        (Text.trim formula ∉ texts.take n → next.1.1 = anew.1 ∧ next.2 = anew.2 ∧
          ∀ e, anew.1 = .error e → next.1.2 = ran.2.calculator) := by
  intro start blank ran told texts
  have hstart : start.Follows n blank := ⟨rfl, rfl, List.take_nil.symm, List.nodup_nil⟩
  obtain ⟨hanswers, hend⟩ : ran.1 = told.1 ∧ ran.2.Follows n told.2 := hstart.run es
  have hblank : blank.history.map Prod.fst = textsRead ([] : List (Event σ × Answer)) := rfl
  have htold : told.2.history.map Prod.fst = textsRead (es.zip told.1) :=
    Annals.keys_run hblank es
  have htexts : told.2.history.map Prod.fst = texts := by rw [htold, ← hanswers]
  have hkeys : ran.2.calculator.recent.keys = texts.take n := by
    rw [Recent.keys, hend.entries, List.map_take, htexts]
  refine ⟨hanswers, hend.bare, hend.entries, htexts, ?_, ?_, fun formula => ⟨?_, ?_⟩⟩
  · rw [hkeys, ← List.take_eq_take_min]
  · rw [remembered, ← Recent.length_keys, hkeys, List.length_take]
  · intro hin
    rw [← hkeys] at hin
    obtain ⟨tree, hget⟩ := Option.ne_none_iff_exists'.1
      (mt (Recent.get?_eq_none_iff _ _).1 (not_not.2 hin))
    have hfound : (told.2.history.take n).lookup (Text.trim formula) = some tree := by
      rw [← hend.entries]
      exact hget
    exact ⟨tree, hfound, run_parse_remembered hget _⟩
  · intro hout
    rw [← hkeys, ← Recent.get?_eq_none_iff] at hout
    exact run_parse_anew hout _

end CallFormula
