import CallFormula.Registry

/-!
Reading a formula. A scanner eats a part of the front of a text and never gives anything back; a
choice keeps to the first scanner that succeeds. A piece is read in this order: its depth is
checked, a number or a name is a leaf, the arguments of a call are read from left to right, then its
name is looked up, then its binding builds the node.
-/

set_option autoImplicit false

namespace CallFormula

/-- Eats a part of the front of a text, or fails. -/
abbrev Scanner := Text → Option Text

namespace Scanner

def one (p : Char → Bool) : Scanner
  | [] => none
  | c :: t => if p c then some t else none

def many (p : Char → Bool) : Scanner := fun t => some (t.dropWhile p)

def andThen (a b : Scanner) : Scanner := fun t => (a t).bind b

def orElse (a b : Scanner) : Scanner := fun t => (a t).or (b t)

def optional (a : Scanner) : Scanner := a.orElse some

def many1 (p : Char → Bool) : Scanner := (one p).andThen (many p)

def accepts (a : Scanner) (t : Text) : Bool := a t == some []

end Scanner

namespace Lexeme

def isSign (c : Char) : Bool := c == '+' || c == '-'

def isPoint (c : Char) : Bool := c == '.'

def isNameStart (c : Char) : Bool := c.isAlpha || c == '_'

def isNamePart (c : Char) : Bool := c.isAlphanum || c == '_'

open Scanner

/-- Digits with a point and maybe digits, or a point and digits, or digits. -/
def unsigned : Scanner :=
  ((many1 Char.isDigit).andThen ((one isPoint).andThen (many Char.isDigit))).orElse
    (((one isPoint).andThen (many1 Char.isDigit)).orElse (many1 Char.isDigit))

def number : Scanner := (one isSign).optional.andThen unsigned

def identifier : Scanner := (one isNameStart).andThen (many isNamePart)

def isNumber (t : Text) : Bool := number.accepts t

def isIdentifier (t : Text) : Bool := identifier.accepts t

example : isNumber "-5.".toList = true ∧ isNumber ".5".toList = true := by decide +kernel

example : isNumber "1e5".toList = false ∧ isNumber "+".toList = false := by decide +kernel

example : isIdentifier "_x1".toList = true ∧ isIdentifier "1x".toList = false := by
  decide +kernel

end Lexeme

inductive Piece where
  | number (text : Text)
  | identifier (text : Text)
  | call (name : Text) (args : List Text)
  | malformed (text : Text)
  deriving DecidableEq, Repr

namespace Piece

def notOpening (c : Char) : Bool := c != '('

/-- The name and the inside of a call, both trimmed. The name is what stands before the first
opening bracket; a call ends with a closing bracket. -/
def asCall (t : Text) : Option (Text × Text) :=
  match t.dropWhile notOpening with
  | '(' :: rest =>
    if t.takeWhile notOpening = [] ∨ rest.getLast? ≠ some ')' then none
    else some (Text.trim (t.takeWhile notOpening), Text.trim rest.dropLast)
  | _ => none

def bracketStep (c : Char) : Int := if c = '(' then 1 else if c = ')' then -1 else 0

/-- The part before the first comma at which the number of open brackets is zero, and the parts
between such commas and after the last. -/
def cut (opened : Int) : Text → Text × List Text
  | [] => ([], [])
  | c :: t =>
    let (first, others) := cut (opened + bracketStep c) t
    if c = ',' ∧ opened = 0 then ([], first :: others) else (c :: first, others)

/-- The arguments in the inside of a call: none if it is empty, else the trimmed parts between the
top-level commas. -/
def arguments (t : Text) : List Text :=
  if t = [] then []
  else
    let (first, others) := cut 0 t
    (first :: others).map Text.trim

def ofText (t : Text) : Piece :=
  let t := Text.trim t
  if Lexeme.isNumber t then .number t
  else if Lexeme.isIdentifier t then .identifier t
  else
    match asCall t with
    | some (name, inside) => .call name (arguments inside)
    | none => .malformed t

theorem length_cut_le (opened : Int) (t : Text) :
    (cut opened t).1.length ≤ t.length ∧ ∀ p ∈ (cut opened t).2, p.length ≤ t.length := by
  induction t generalizing opened with
  | nil => simp [cut]
  | cons c t ih =>
    obtain ⟨hf, ho⟩ := ih (opened + bracketStep c)
    unfold cut
    dsimp only
    split
    · refine ⟨Nat.zero_le _, fun p hp => ?_⟩
      rcases List.mem_cons.1 hp with rfl | hp
      · exact Nat.le_succ_of_le hf
      · exact Nat.le_succ_of_le (ho p hp)
    · exact ⟨Nat.succ_le_succ hf, fun p hp => Nat.le_succ_of_le (ho p hp)⟩

theorem length_le_of_mem_arguments {t a : Text} (h : a ∈ arguments t) :
    a.length ≤ t.length := by
  rw [arguments] at h
  split at h
  · contradiction
  · obtain ⟨p, hp, rfl⟩ := List.mem_map.1 h
    refine Nat.le_trans (Text.length_trim_le p) ?_
    obtain ⟨hf, ho⟩ := length_cut_le 0 t
    rcases List.mem_cons.1 hp with rfl | hp
    · exact hf
    · exact ho p hp

theorem length_asCall_lt {t name inside : Text} (h : asCall t = some (name, inside)) :
    inside.length < t.length := by
  rw [asCall] at h
  split at h
  · next rest hr =>
    split at h
    · contradiction
    · cases h
      have ht := congrArg List.length (List.takeWhile_append_dropWhile (p := notOpening) (l := t))
      have hi := Text.length_trim_le rest.dropLast
      rw [hr] at ht
      simp only [List.length_append, List.length_cons, List.length_dropLast] at ht hi
      omega
  · contradiction

theorem length_lt_of_mem_args {t name a : Text} {args : List Text}
    (h : ofText t = .call name args) (ha : a ∈ args) : a.length < t.length := by
  rw [ofText] at h
  split at h
  · contradiction
  · split at h
    · contradiction
    · split at h
      · next hs =>
        cases h
        exact Nat.lt_of_le_of_lt (length_le_of_mem_arguments ha)
          (Nat.lt_of_lt_of_le (length_asCall_lt hs) (Text.length_trim_le t))
      · contradiction

example : arguments "a, f(b, c) ,".toList = ["a".toList, "f(b, c)".toList, []] := by
  decide +kernel

end Piece

def defaultLimit : Nat := 256

/-- The outermost piece has depth 0. Without a limit every depth is allowed. -/
def checkDepth (limit : Option Nat) (depth : Nat) : Except ParseError Unit :=
  match limit with
  | some m => if m < depth then .error (.nestingTooDeep m) else .ok ()
  | none => .ok ()

def readLiteral (t : Text) : Except ParseError Tree :=
  match Number.read t with
  | some v => if v.isFinite then .ok (.number v) else .error (.malformed t)
  | none => .error (.malformed t)

namespace Registry

variable {σ : Type}

/-- Builds a call whose arguments are read. The name is quoted as it was written if nothing is
bound to it. -/
def buildCall (r : Registry σ) (name : Text) (args : List Tree) : Parsing σ Tree :=
  match r.lookup name with
  | none => throw (.unknownOperator name)
  | some b => b.build (canonical name) args

def parseAt (r : Registry σ) (limit : Option Nat) (depth : Nat) (text : Text) :
    Parsing σ Tree := do
  Action.ofExcept (checkDepth limit depth)
  match h : Piece.ofText text with
  | .number t => Action.ofExcept (readLiteral t)
  | .identifier t => pure (.variable t)
  | .malformed t => throw (.malformed t)
  | .call name args =>
    let trees ← args.attach.mapM fun a => r.parseAt limit (depth + 1) a.1
    r.buildCall name trees
termination_by text.length
decreasing_by exact Piece.length_lt_of_mem_args h a.2

theorem parseAt_eq (r : Registry σ) (limit : Option Nat) (depth : Nat) (text : Text) :
    r.parseAt limit depth text = (do
      Action.ofExcept (checkDepth limit depth)
      match Piece.ofText text with
      | .number t => Action.ofExcept (readLiteral t)
      | .identifier t => pure (.variable t)
      | .malformed t => throw (.malformed t)
      | .call name args =>
        let trees ← args.mapM (r.parseAt limit (depth + 1))
        r.buildCall name trees) := by
  rw [parseAt]
  congr 1
  funext _
  split <;> rename_i h <;> simp only [h]
  rw [List.mapM_subtype (g := r.parseAt limit (depth + 1)) fun _ _ => rfl, List.unattach_attach]

def parse (r : Registry σ) (limit : Option Nat) (text : Text) : Parsing σ Tree :=
  r.parseAt limit 0 text

end Registry

end CallFormula
