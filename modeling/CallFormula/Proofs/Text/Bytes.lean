import CallFormula.Text.Basic
import Mathlib.Algebra.Group.Nat.Even
import Mathlib.Tactic.SplitIfs

set_option autoImplicit false

namespace CallFormula

namespace Text

def bytes (t : Text) : List UInt8 := t.flatMap String.utf8EncodeChar

/-- At some place both lists go on, and the first one with the smaller byte. -/
inductive Diverges : List UInt8 → List UInt8 → Prop where
  | head {x y : UInt8} {s t : List UInt8} (h : x < y) : Diverges (x :: s) (y :: t)
  | cons (x : UInt8) {s t : List UInt8} (h : Diverges s t) : Diverges (x :: s) (x :: t)

theorem Diverges.append_lt_append {s t : List UInt8} (h : Diverges s t) (s' t' : List UInt8) :
    s ++ s' < t ++ t' := by
  induction h with
  | head h => exact .rel h
  | cons x _ ih => exact .cons ih

theorem diverges_of_lt {m n : Nat} (h : m < n) (hn : n < 256) (s t : List UInt8) :
    Diverges (UInt8.ofNat m :: s) (UInt8.ofNat n :: t) := by
  refine .head (UInt8.lt_iff_toNat_lt.2 ?_)
  rwa [UInt8.toNat_ofNat_of_lt' hn, UInt8.toNat_ofNat_of_lt' (Nat.lt_trans h hn)]

def lastBytes (n : Nat) : Nat → List UInt8
  | 0 => []
  | k + 1 => UInt8.ofNat (n / 64 ^ k % 64 + 128) :: lastBytes n k

theorem diverges_lastBytes {m n : Nat} (h : m < n) {k : Nat} (hk : m / 64 ^ k = n / 64 ^ k) :
    Diverges (lastBytes m k) (lastBytes n k) := by
  -- Without further bytes all bits agree, against `h`; else the first byte decides or agrees too.
  induction k with
  | zero =>
    simp only [Nat.pow_zero, Nat.div_one] at hk
    omega
  | succ k ih =>
    have hle : m / 64 ^ k ≤ n / 64 ^ k := Nat.div_le_div_right (Nat.le_of_lt h)
    rw [Nat.pow_succ, ← Nat.div_div_eq_div_mul, ← Nat.div_div_eq_div_mul] at hk
    rw [lastBytes, lastBytes]
    by_cases heq : m / 64 ^ k = n / 64 ^ k
    · rw [heq]
      exact .cons _ (ih heq)
    · exact diverges_of_lt (by omega) (by omega) _ _

def leadingByte (n : Nat) : Nat :=
  if n ≤ 127 then n
  else if n ≤ 2047 then n / 64 % 32 + 192
  else if n ≤ 65535 then n / 4096 % 16 + 224
  else n / 262144 % 8 + 240

def following (n : Nat) : Nat :=
  if n ≤ 127 then 0 else if n ≤ 2047 then 1 else if n ≤ 65535 then 2 else 3

theorem utf8EncodeChar_eq (c : Char) :
    String.utf8EncodeChar c =
      UInt8.ofNat (leadingByte c.toNat) :: lastBytes c.toNat (following c.toNat) := by
  have hc : c.val.toNat = c.toNat := rfl
  simp only [String.utf8EncodeChar, hc, leadingByte, following]
  split_ifs <;> simp [lastBytes]

/-- Among characters of as many bytes the leading byte holds the first bits, and those of more bytes
have larger leading bytes. -/
theorem leadingByte_lt_or_eq {m n : Nat} (h : m < n) (hn : n < 1114112) :
    leadingByte m < leadingByte n ∨
      leadingByte m = leadingByte n ∧ following m = following n ∧
        m / 64 ^ following m = n / 64 ^ following m := by
  unfold leadingByte following
  split_ifs <;> simp <;> omega

theorem leadingByte_lt {n : Nat} (hn : n < 1114112) : leadingByte n < 256 := by
  unfold leadingByte
  split_ifs <;> omega

theorem diverges_utf8EncodeChar {c d : Char} (h : c < d) :
    Diverges (String.utf8EncodeChar c) (String.utf8EncodeChar d) := by
  have hlt : c.toNat < d.toNat := h
  have hmax : d.toNat < 1114112 := by
    have hvalid := d.valid
    simp only [UInt32.isValidChar, Nat.isValidChar] at hvalid
    have heq : d.toNat = d.val.toNat := rfl
    omega
  rw [utf8EncodeChar_eq, utf8EncodeChar_eq]
  rcases leadingByte_lt_or_eq hlt hmax with hlead | ⟨hlead, hfollowing, hrest⟩
  · exact diverges_of_lt hlead (leadingByte_lt hmax) _ _
  · rw [hlead, ← hfollowing]
    exact .cons _ (diverges_lastBytes hlt hrest)

theorem bytes_lt_bytes {s t : Text} (h : s < t) : bytes s < bytes t := by
  induction h with
  | nil =>
    rename_i c t
    rw [bytes, bytes, List.flatMap_nil, List.flatMap_cons, utf8EncodeChar_eq]
    exact .nil
  | rel h => exact (diverges_utf8EncodeChar h).append_lt_append _ _
  | cons _ ih =>
    rename_i c s t
    exact List.append_left_lt ih

def size (t : Text) : Nat := (bytes t).length

@[simp] theorem size_nil : size [] = 0 := rfl

@[simp] theorem size_cons (c : Char) (t : Text) : size (c :: t) = c.utf8Size + size t := by
  simp [size, bytes]

@[simp] theorem size_append (s t : Text) : size (s ++ t) = size s + size t := by
  simp [size, bytes]

theorem size_pos {t : Text} (h : t ≠ []) : 0 < size t := by
  obtain ⟨c, t, rfl⟩ := List.exists_cons_of_ne_nil h
  have := c.utf8Size_pos
  rw [size_cons]
  omega

theorem size_eq_zero_iff {t : Text} : size t = 0 ↔ t = [] := by
  constructor
  · intro h
    by_contra hne
    have := size_pos hne
    omega
  · rintro rfl
    rfl

theorem size_le_of_isInfix {s t : Text} (h : s <:+: t) : size s ≤ size t := by
  obtain ⟨front, back, rfl⟩ := h
  simp only [size_append]
  omega

/-- The parts of a text in front of a byte offset and behind it, if a character begins or the text
ends there. -/
def splitBytes (offset : Nat) : Text → Option (Text × Text)
  | [] => if offset = 0 then some ([], []) else none
  | c :: t =>
    if offset = 0 then some ([], c :: t)
    else if c.utf8Size ≤ offset then
      (splitBytes (offset - c.utf8Size) t).map fun (front, back) => (c :: front, back)
    else none

def slice (t : Text) (start stop : Nat) : Option Text :=
  if start ≤ stop then do
    let (_, rest) ← splitBytes start t
    let (part, _) ← splitBytes (stop - start) rest
    pure part
  else none

theorem splitBytes_eq_some_iff {offset : Nat} {t front back : Text} :
    splitBytes offset t = some (front, back) ↔ t = front ++ back ∧ size front = offset := by
  induction t generalizing offset front with
  | nil =>
    rw [splitBytes]
    constructor
    · intro h
      split at h
      · next hzero =>
        cases h
        exact ⟨rfl, hzero.symm⟩
      · cases h
    · rintro ⟨h, rfl⟩
      obtain ⟨rfl, rfl⟩ := List.append_eq_nil_iff.1 h.symm
      rfl
  | cons c t ih =>
    rw [splitBytes]
    constructor
    · intro h
      split at h
      · next hzero =>
        cases h
        exact ⟨rfl, hzero.symm⟩
      · split at h
        · next hle =>
          obtain ⟨⟨front', back'⟩, hrest, heq⟩ := Option.map_eq_some_iff.1 h
          cases heq
          obtain ⟨rfl, hsize⟩ := ih.1 hrest
          refine ⟨rfl, ?_⟩
          rw [size_cons, hsize]
          omega
        · cases h
    · rintro ⟨h, rfl⟩
      cases front with
      | nil => exact congrArg (fun back => some ([], back)) h
      | cons d front =>
        obtain ⟨rfl, ht⟩ := List.cons_eq_cons.1 h
        have hpos := c.utf8Size_pos
        have hrest : splitBytes (size front) t = some (front, back) := ih.2 ⟨ht, rfl⟩
        rw [size_cons, if_neg (by omega), if_pos (by omega), Nat.add_sub_cancel_left, hrest]
        rfl

theorem slice_eq_some_iff {t part : Text} {start stop : Nat} :
    slice t start stop = some part ↔
      ∃ front back, t = front ++ part ++ back ∧ size front = start ∧
        size front + size part = stop := by
  rw [slice]
  constructor
  · intro h
    split at h
    · next hle =>
      obtain ⟨⟨front, rest⟩, hfront, h⟩ := Option.bind_eq_some_iff.1 h
      obtain ⟨⟨part', back⟩, hpart, h⟩ := Option.bind_eq_some_iff.1 h
      cases h
      obtain ⟨rfl, rfl⟩ := splitBytes_eq_some_iff.1 hfront
      obtain ⟨rfl, hsize⟩ := splitBytes_eq_some_iff.1 hpart
      refine ⟨front, back, (List.append_assoc front part back).symm, rfl, ?_⟩
      omega
    · cases h
  · rintro ⟨front, back, rfl, rfl, rfl⟩
    have hfront : splitBytes (size front) (front ++ part ++ back) = some (front, part ++ back) :=
      splitBytes_eq_some_iff.2 ⟨List.append_assoc front part back, rfl⟩
    have hpart : splitBytes (size part) (part ++ back) = some (part, back) :=
      splitBytes_eq_some_iff.2 ⟨rfl, rfl⟩
    rw [if_pos (Nat.le_add_right _ _), Nat.add_sub_cancel_left]
    exact Option.bind_eq_some_iff.2 ⟨_, hfront, Option.bind_eq_some_iff.2 ⟨_, hpart, rfl⟩⟩

end Text

end CallFormula
