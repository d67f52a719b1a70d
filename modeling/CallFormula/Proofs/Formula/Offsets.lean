import CallFormula.Proofs.Formula.Pieces
import CallFormula.Proofs.Text.Bytes

set_option autoImplicit false

namespace CallFormula

namespace Piece

open Text

/-- Why a scan cannot go on: a slice or a count that goes wrong. -/
inductive Overrun where
  | slice (start stop : Nat)
  | counter (value : Int)
  deriving DecidableEq, Repr

def sliced (t : Text) (start stop : Nat) : Except Overrun Text :=
  match t.slice start stop with
  | some part => .ok part
  | none => .error (.slice start stop)

/-- A number that a counter with this room can hold, from `-room` to `room`. -/
def counted (room : Nat) (value : Int) : Except Overrun Int :=
  if value.natAbs ≤ room then .ok value else .error (.counter value)

def openingOffset : Text → Option Nat
  | [] => none
  | c :: t => if c = '(' then some 0 else (openingOffset t).map (c.utf8Size + ·)

def scanCall (t : Text) : Except Overrun (Option (Text × Text)) :=
  match openingOffset t with
  | none => .ok none
  | some offset =>
    if offset = 0 ∨ t.getLast? ≠ some ')' then .ok none
    else do
      let name ← sliced t 0 offset
      let inside ← sliced t (offset + 1) (t.size - 1)
      pure (some (trim name, trim inside))

structure Cursor where
  offset : Nat
  opened : Int
  start : Nat
  found : List Text

namespace Cursor

def pass (room : Nat) (t : Text) (cursor : Cursor) (c : Char) : Except Overrun Cursor :=
  if c = ',' ∧ cursor.opened = 0 then do
    let part ← sliced t cursor.start cursor.offset
    pure ⟨cursor.offset + c.utf8Size, cursor.opened, cursor.offset + 1, cursor.found ++ [trim part]⟩
  else do
    let opened ← counted room (cursor.opened + bracketStep c)
    pure { cursor with offset := cursor.offset + c.utf8Size, opened }

def finish (t : Text) (cursor : Cursor) : Except Overrun (List Text) := do
  let part ← sliced t cursor.start t.size
  pure (cursor.found ++ [trim part])

end Cursor

def scanArguments (room : Nat) (t : Text) : Except Overrun (List Text) :=
  if t = [] then .ok []
  else do
    let cursor ← t.foldlM (Cursor.pass room t) ⟨0, 0, 0, []⟩
    cursor.finish t

def scan (room : Nat) (t : Text) : Except Overrun Piece :=
  let t := trim t
  if Lexeme.isNumber t then .ok (.number t)
  else if Lexeme.isIdentifier t then .ok (.identifier t)
  else do
    match ← scanCall t with
    | some (name, inside) =>
      let args ← scanArguments room inside
      pure (.call name args)
    | none => pure (.malformed t)

theorem sliced_eq (front back : Text) {t part : Text} {start stop : Nat}
    (ht : t = front ++ part ++ back) (hstart : size front = start)
    (hstop : start + size part = stop) : sliced t start stop = .ok part := by
  rw [sliced, slice_eq_some_iff.2 ⟨front, back, ht, hstart, hstart ▸ hstop⟩]

theorem openingOffset_eq_none {t : Text} (h : '(' ∉ t) : openingOffset t = none := by
  induction t with
  | nil => rfl
  | cons c t ih =>
    obtain ⟨hc, ht⟩ := not_or.1 fun hor => h (List.mem_cons.2 hor)
    rw [openingOffset, if_neg (Ne.symm hc), ih ht]
    rfl

theorem openingOffset_append {name : Text} (h : '(' ∉ name) (rest : Text) :
    openingOffset (name ++ '(' :: rest) = some (size name) := by
  induction name with
  | nil => rfl
  | cons c name ih =>
    obtain ⟨hc, hname⟩ := not_or.1 fun hor => h (List.mem_cons.2 hor)
    rw [List.cons_append, openingOffset, if_neg (Ne.symm hc), ih hname, size_cons]
    rfl

theorem getLast?_opening (name rest : Text) :
    (name ++ '(' :: rest).getLast? = some ')' ↔ rest.getLast? = some ')' := by
  cases rest with
  | nil => simp
  | cons c rest => simp [List.getLast?_append, List.getLast?_cons_cons]

theorem sliced_call (name inside : Text) :
    let t := name ++ '(' :: (inside ++ [')'])
    sliced t 0 (size name) = .ok name ∧ sliced t (size name + 1) (size t - 1) = .ok inside := by
  intro t
  refine ⟨sliced_eq [] ('(' :: (inside ++ [')'])) rfl rfl (Nat.zero_add _), ?_⟩
  refine sliced_eq (name ++ ['(']) [')'] (by simp [t]) ?_ ?_
  · rw [size_append]
    rfl
  · rw [size_append, size_cons, size_append, ← Nat.add_assoc, ← Nat.add_assoc]
    rfl

theorem scanCall_eq (t : Text) : scanCall t = .ok (asCall t) := by
  by_cases hmem : '(' ∈ t
  · obtain ⟨name, rest, rfl, hname⟩ := List.eq_append_cons_of_mem hmem
    rw [scanCall, openingOffset_append hname, asCall_opening hname]
    simp only [size_eq_zero_iff, Ne, getLast?_opening]
    split
    · rfl
    · next hcond =>
      obtain ⟨-, hlast⟩ := not_or.1 hcond
      rw [not_not] at hlast
      have hrest := List.dropLast_append_getLast? _ hlast
      generalize rest.dropLast = inside at hrest
      subst hrest
      obtain ⟨hfirst, hsecond⟩ := sliced_call name inside
      rw [hfirst, hsecond]
      rfl
  · rw [scanCall, openingOffset_eq_none hmem, asCall_eq_none_of_not_mem hmem]

theorem natAbs_level_le (t : Text) : (level t).natAbs ≤ size t := by
  induction t with
  | nil => simp
  | cons c t ih =>
    have hstep : (bracketStep c).natAbs ≤ 1 := by
      unfold bracketStep
      split
      · decide
      · split <;> decide
    have hpos := c.utf8Size_pos
    rw [level_cons, size_cons]
    omega

theorem counted_level {room : Nat} {t : Text} (h : size t ≤ room) :
    counted room (level t) = .ok (level t) :=
  if_pos ((natAbs_level_le t).trans h)

/-- A pass that stands behind `p ++ q`, where `q` is what it has read of the current argument, finds
the parts into which the rest of the text is cut. -/
theorem foldlM_pass {room : Nat} (s p q : Text) (found : List Text)
    (h : size (p ++ q ++ s) ≤ room) :
    (do
      let cursor ← s.foldlM (Cursor.pass room (p ++ q ++ s))
        ⟨size (p ++ q), level (p ++ q), size p, found⟩
      cursor.finish (p ++ q ++ s)) =
      .ok (found ++
        ((q ++ (cut (level (p ++ q)) s).1) :: (cut (level (p ++ q)) s).2).map trim) := by
  induction s generalizing p q found with
  | nil =>
    have hslice : sliced (p ++ q ++ []) (size p) (size (p ++ q ++ [])) = .ok q :=
      sliced_eq p [] rfl rfl (by simp)
    rw [List.foldlM_nil, pure_bind, Cursor.finish, hslice, cut, List.append_nil]
    rfl
  | cons c s ih =>
    have hsnoc : p ++ q ++ c :: s = p ++ q ++ [c] ++ s := by simp
    have hoffset : size (p ++ q ++ [c]) = size (p ++ q) + c.utf8Size := by
      rw [size_append _ [c], size_cons, size_nil, Nat.add_zero]
    have hlevel : level (p ++ q ++ [c]) = level (p ++ q) + bracketStep c := by
      rw [level_append _ [c], level_cons, level_nil, Int.add_zero]
    rw [hsnoc] at h ⊢
    rw [List.foldlM_cons, Cursor.pass, cut_cons, ← hoffset]
    dsimp only
    split
    -- A cut: what was pending is sliced out, and the next argument begins behind the comma.
    · next hcut =>
      obtain ⟨rfl, hzero⟩ := hcut
      have hslice : sliced (p ++ q ++ [','] ++ s) (size p) (size (p ++ q)) = .ok q :=
        sliced_eq p ([','] ++ s) (by simp) rfl (size_append p q).symm
      have hcomma : level (p ++ q) + bracketStep ',' = level (p ++ q) := Int.add_zero _
      have hnext := ih (p ++ q ++ [',']) [] (found ++ [trim q]) (by simpa using h)
      rw [List.append_nil, hlevel, hcomma, hoffset, List.append_assoc found] at hnext
      rw [hslice, hcomma, hoffset, List.append_nil]
      exact hnext
    -- No cut: the character is pending too, and the counter holds the level behind it.
    · have hnext := ih p (q ++ [c]) found (by simpa using h)
      rw [← List.append_assoc, hlevel] at hnext
      have hroom : size (p ++ q ++ [c]) ≤ room := by
        rw [size_append] at h
        omega
      have hcount := counted_level hroom
      rw [hlevel] at hcount
      rw [hcount]
      exact hnext.trans (by simp)

theorem scanArguments_eq {room : Nat} {t : Text} (h : size t ≤ room) :
    scanArguments room t = .ok (arguments t) := by
  rw [scanArguments]
  split
  · next ht => rw [ht]; rfl
  · next ht =>
    rw [arguments_of_ne_nil ht]
    exact foldlM_pass t [] [] [] h

/-- With room for its brackets a text is scanned without a fault, and found to be what it is. -/
theorem scan_eq {room : Nat} {t : Text} (h : size t ≤ room) : scan room t = .ok (ofText t) := by
  simp only [scan, ofText, scanCall_eq]
  split
  · rfl
  · split
    · rfl
    · cases hcall : asCall (trim t) with
      | none => rfl
      | some call =>
        obtain ⟨name, inside⟩ := call
        obtain ⟨n, i, ht, -, -, -, rfl⟩ := exists_of_asCall hcall
        have hinside : size (trim i) ≤ room := by
          have hpart : i <:+: trim t := ⟨n ++ ['('], [')'], by simp [ht]⟩
          have hpart : trim i <:+: t := (trim_isInfix i).trans (hpart.trans (trim_isInfix t))
          exact (size_le_of_isInfix hpart).trans h
        have hargs := scanArguments_eq hinside
        simp only [bind, Except.bind, hargs]
        rfl

end Piece

end CallFormula
