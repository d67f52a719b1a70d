import CallFormula.Text.Basic

set_option autoImplicit false

namespace CallFormula

structure Table (α : Type) where
  entries : List (Text × α)
  sorted : entries.Pairwise fun a b => a.1 < b.1

namespace Table

variable {α : Type}

def empty : Table α := ⟨[], .nil⟩

def get? (t : Table α) (k : Text) : Option α := t.entries.lookup k

def contains (t : Table α) (k : Text) : Bool := (t.get? k).isSome

def keys (t : Table α) : List Text := t.entries.map Prod.fst

def size (t : Table α) : Nat := t.entries.length

def isEmpty (t : Table α) : Bool := t.entries.isEmpty

def place (k : Text) (v : α) : List (Text × α) → List (Text × α)
  | [] => [(k, v)]
  | e :: es =>
    if k < e.1 then (k, v) :: e :: es
    else if k = e.1 then (k, v) :: es
    else e :: place k v es

theorem mem_place {k : Text} {v : α} {es : List (Text × α)} {e : Text × α}
    (h : e ∈ place k v es) : e = (k, v) ∨ e ∈ es := by
  induction es with
  | nil => exact .inl (List.mem_singleton.1 h)
  | cons d es ih =>
    rw [place] at h
    split at h
    · simpa using h
    · split at h
      · rcases List.mem_cons.1 h with h | h
        · exact .inl h
        · exact .inr (List.mem_cons_of_mem _ h)
      · rcases List.mem_cons.1 h with h | h
        · exact .inr (h ▸ List.mem_cons_self)
        · exact (ih h).imp_right (List.mem_cons_of_mem _)

theorem lt_of_not_lt_of_ne {k l : Text} (h : ¬k < l) (hne : k ≠ l) : l < k := by
  rcases Std.lt_trichotomy k l with h' | h' | h'
  · exact absurd h' h
  · exact absurd h' hne
  · exact h'

theorem sorted_place (k : Text) (v : α) {es : List (Text × α)}
    (h : es.Pairwise fun a b => a.1 < b.1) :
    (place k v es).Pairwise fun a b => a.1 < b.1 := by
  induction es with
  | nil => simp [place]
  | cons e es ih =>
    obtain ⟨he, hs⟩ := List.pairwise_cons.1 h
    unfold place
    split
    · next hk =>
      refine List.pairwise_cons.2 ⟨fun d hd => ?_, h⟩
      rcases List.mem_cons.1 hd with rfl | hd
      · exact hk
      · exact List.lt_trans hk (he d hd)
    · next hk =>
      split
      · next hke => exact List.pairwise_cons.2 ⟨fun d hd => hke ▸ he d hd, hs⟩
      · next hke =>
        refine List.pairwise_cons.2 ⟨fun d hd => ?_, ih hs⟩
        rcases mem_place hd with rfl | hd
        · exact lt_of_not_lt_of_ne hk hke
        · exact he d hd

def insert (t : Table α) (k : Text) (v : α) : Table α :=
  ⟨place k v t.entries, sorted_place k v t.sorted⟩

def erase (t : Table α) (k : Text) : Table α :=
  ⟨t.entries.filter fun e => e.1 ≠ k, t.sorted.filter _⟩

def takeOut (k : Text) : List (Text × α) → Option α × List (Text × α)
  | [] => (none, [])
  | e :: es =>
    if k = e.1 then (some e.2, es)
    else
      let (found, rest) := takeOut k es
      (found, e :: rest)

theorem takeOut_eq (k : Text) {es : List (Text × α)} (h : es.Pairwise fun a b => a.1 < b.1) :
    takeOut k es = (es.lookup k, es.filter fun e => e.1 ≠ k) := by
  induction es with
  | nil => rfl
  | cons e es ih =>
    obtain ⟨he, hs⟩ := List.pairwise_cons.1 h
    rw [takeOut, List.lookup_cons]
    by_cases hk : k = e.1
    · have hrest : ∀ d ∈ es, (decide (d.1 ≠ k)) = true := fun d hd =>
        decide_eq_true fun hdk => List.lt_irrefl _ (hk ▸ hdk ▸ he d hd)
      rw [if_pos hk, beq_iff_eq.2 hk, List.filter_cons_of_neg (by simp [hk]),
        List.filter_eq_self.2 hrest]
    · rw [if_neg hk, beq_eq_false_iff_ne.2 hk, List.filter_cons_of_pos (by simpa using Ne.symm hk),
        ih hs]

def extract (t : Table α) (k : Text) : Option α × Table α :=
  ((takeOut k t.entries).1, ⟨(takeOut k t.entries).2, by
    rw [takeOut_eq k t.sorted]
    exact t.sorted.filter _⟩)

theorem extract_eq (t : Table α) (k : Text) : t.extract k = (t.get? k, t.erase k) := by
  simp only [extract, takeOut_eq k t.sorted]
  rfl

theorem lookup_cons_if (l : Text) (e : Text × α) (es : List (Text × α)) :
    (e :: es).lookup l = if l = e.1 then some e.2 else es.lookup l := by
  rw [List.lookup_cons]
  by_cases h : l = e.1
  · rw [if_pos h, beq_iff_eq.2 h]
  · rw [if_neg h, beq_eq_false_iff_ne.2 h]

theorem lookup_place (k : Text) (v : α) (es : List (Text × α)) (l : Text) :
    (place k v es).lookup l = if l = k then some v else es.lookup l := by
  induction es with
  | nil => rw [place, lookup_cons_if]
  | cons e es ih =>
    unfold place
    split
    · rw [lookup_cons_if]
    · next hk =>
      split
      · next hke =>
        rw [lookup_cons_if, lookup_cons_if, ← hke]
        by_cases h : l = k <;> simp [h]
      · next hke =>
        rw [lookup_cons_if, lookup_cons_if, ih]
        by_cases h : l = e.1
        · simp [h, Ne.symm hke]
        · simp [h]

@[simp] theorem get?_insert (t : Table α) (k : Text) (v : α) (l : Text) :
    (t.insert k v).get? l = if l = k then some v else t.get? l := lookup_place k v t.entries l

@[simp] theorem get?_erase (t : Table α) (k l : Text) :
    (t.erase k).get? l = if l = k then none else t.get? l := by
  obtain ⟨es, hs⟩ := t
  simp only [get?, erase]
  clear hs
  induction es with
  | nil => simp
  | cons e es ih =>
    by_cases hk : e.1 = k
    · rw [List.filter_cons_of_neg (by simpa using hk), ih, lookup_cons_if, hk]
      by_cases hl : l = k <;> simp [hl]
    · rw [List.filter_cons_of_pos (by simpa using hk), lookup_cons_if, lookup_cons_if, ih]
      by_cases hl : l = e.1
      · simp [hl, hk]
      · simp [hl]

theorem mem_entries_iff (t : Table α) (k : Text) (v : α) :
    (k, v) ∈ t.entries ↔ t.get? k = some v := by
  obtain ⟨es, hs⟩ := t
  simp only [get?]
  induction es with
  | nil => simp
  | cons e es ih =>
    obtain ⟨he, hs⟩ := List.pairwise_cons.1 hs
    rw [lookup_cons_if, List.mem_cons, ih hs]
    by_cases hk : k = e.1
    · subst hk
      have : es.lookup e.1 ≠ some v := fun h =>
        absurd (he _ ((ih hs).2 h)) (List.lt_irrefl _)
      simp [this, Prod.ext_iff, eq_comm]
    · simp [hk, Prod.ext_iff]

theorem mem_keys_iff (t : Table α) (k : Text) : k ∈ t.keys ↔ t.contains k = true := by
  rw [contains, Option.isSome_iff_exists]
  simp only [keys, List.mem_map]
  constructor
  · rintro ⟨⟨l, v⟩, h, rfl⟩
    exact ⟨v, (mem_entries_iff t l v).1 h⟩
  · rintro ⟨v, h⟩
    exact ⟨(k, v), (mem_entries_iff t k v).2 h, rfl⟩

theorem sorted_keys (t : Table α) : t.keys.Pairwise (· < ·) :=
  List.pairwise_map.2 t.sorted

@[simp] theorem length_keys (t : Table α) : t.keys.length = t.size := List.length_map _

@[simp] theorem isEmpty_keys (t : Table α) : t.keys.isEmpty = t.isEmpty := List.isEmpty_map

theorem not_lt_head {e : Text × α} {es : List (Text × α)}
    (h : (e :: es).Pairwise fun a b => a.1 < b.1) {k : Text} {v : α}
    (hk : (e :: es).lookup k = some v) : ¬k < e.1 := by
  have hm := (mem_entries_iff ⟨e :: es, h⟩ k v).2 hk
  rcases List.mem_cons.1 hm with rfl | hm
  · exact List.lt_irrefl _
  · exact fun hlt => List.lt_irrefl _ (List.lt_trans hlt ((List.pairwise_cons.1 h).1 _ hm))

theorem eq_of_lookup {es fs : List (Text × α)} (he : es.Pairwise fun a b => a.1 < b.1)
    (hf : fs.Pairwise fun a b => a.1 < b.1) (h : ∀ k, es.lookup k = fs.lookup k) : es = fs := by
  induction es generalizing fs with
  | nil =>
    cases fs with
    | nil => rfl
    | cons f fs =>
      have := h f.1
      rw [lookup_cons_if, if_pos rfl] at this
      contradiction
  | cons e es ih =>
    cases fs with
    | nil =>
      have := h e.1
      rw [lookup_cons_if, if_pos rfl] at this
      contradiction
    | cons f fs =>
      have hef := h e.1
      have hfe := h f.1
      rw [lookup_cons_if e.1 e, if_pos rfl] at hef
      rw [lookup_cons_if f.1 f, if_pos rfl] at hfe
      have hkey : e.1 = f.1 := by
        rcases Std.lt_trichotomy e.1 f.1 with hlt | heq | hlt
        · exact absurd hlt (not_lt_head hf hef.symm)
        · exact heq
        · exact absurd hlt (not_lt_head he hfe)
      rw [lookup_cons_if, if_pos hkey] at hef
      refine List.cons_eq_cons.2 ⟨Prod.ext hkey (Option.some.inj hef), ?_⟩
      obtain ⟨hle, hte⟩ := List.pairwise_cons.1 he
      obtain ⟨hlf, htf⟩ := List.pairwise_cons.1 hf
      refine ih hte htf fun k => ?_
      by_cases hk : k = e.1
      · have hn : ∀ {gs : List (Text × α)}, (∀ g ∈ gs, e.1 < g.1) → gs.lookup k = none :=
          fun hg => List.lookup_eq_none_iff.2 fun g hm => bne_iff_ne.2 fun heq =>
            List.lt_irrefl _ (heq ▸ hk ▸ hg g hm)
        rw [hn hle, hn fun g hg => hkey ▸ hlf g hg]
      · have := h k
        rwa [lookup_cons_if, lookup_cons_if, if_neg hk, if_neg (hkey ▸ hk)] at this

theorem ext {s t : Table α} (h : ∀ k, s.get? k = t.get? k) : s = t := by
  obtain ⟨es, hs⟩ := s
  obtain ⟨fs, ht⟩ := t
  have := eq_of_lookup hs ht h
  subst this
  rfl

end Table

end CallFormula
