import CallFormula.Text.Basic

/-!
Numbers are binary64 floats. The 63 bits below the sign are the magnitude: magnitudes are ordered as
natural numbers, the finite ones are those below `infinityBits`, and a finite magnitude `b` stands
for `significand b * 2 ^ exponent b`.

Texts are read exactly and rounded once. The printed decimal is the shortest one that reads back:
grids of decimals are tried from the coarsest to the exact one.
-/

set_option autoImplicit false

namespace CallFormula

namespace Number

-- A power with a typed exponent is the one of the natural numbers, whatever else is imported.
attribute [local instance (2000)] instPowNat

def infinityBits : Nat := 0x7FF * 2 ^ (52 : Nat)

def minExponent : Int := -1074

def magnitude (x : Float) : Nat := x.toBits.toNat % 2 ^ (63 : Nat)

def isNegative (x : Float) : Bool := 2 ^ (63 : Nat) ≤ x.toBits.toNat

/-- The integer that a finite magnitude scales: it has 53 bits unless the magnitude is
subnormal. -/
def significand (b : Nat) : Nat :=
  if b < 2 ^ (52 : Nat) then b else b % 2 ^ (52 : Nat) + 2 ^ (52 : Nat)

def exponent (b : Nat) : Int := minExponent + (b / 2 ^ (52 : Nat) - 1 : Nat)

def ofMagnitude (negative : Bool) (b : Nat) : Float :=
  Float.ofBits (UInt64.ofNat (if negative then 2 ^ (63 : Nat) + b else b))

def nan : Float := ofMagnitude false (infinityBits + 2 ^ (51 : Nat))

def infinity (negative : Bool) : Float := ofMagnitude negative infinityBits

theorem magnitude_eq_of_significand (b : Nat) :
    (exponent b - minExponent).toNat * 2 ^ (52 : Nat) + significand b = b := by
  unfold exponent significand
  have : (minExponent + ((b / 2 ^ 52 - 1 : Nat) : Int) - minExponent).toNat = b / 2 ^ 52 - 1 := by
    omega
  rw [this]
  split
  · have : b / 2 ^ 52 = 0 := Nat.div_eq_of_lt ‹_›
    omega
  · omega

theorem significand_lt (b : Nat) : significand b < 2 ^ (53 : Nat) := by
  unfold significand
  split <;> omega

def roundHalfEven (num den : Nat) : Nat :=
  let q := num / den
  let r := num % den
  if 2 * r < den then q
  else if den < 2 * r then q + 1
  else q + q % 2

def isBelowTwoPow (num den : Nat) (e : Int) : Bool :=
  num * 2 ^ (-e).toNat < den * 2 ^ e.toNat

/-- The greatest `e` with `2 ^ e` at most `num / den`, for positive `num` and `den`. -/
def binaryLog (num den : Nat) : Int :=
  let e : Int := Nat.log2 num - Nat.log2 den
  if isBelowTwoPow num den e then e - 1 else e

/-- The magnitude nearest to `num / den`; from half a step above the greatest finite one on, the
magnitude of infinity. -/
def nearestMagnitude (num den : Nat) : Nat :=
  if num = 0 then 0
  else
    let e := max (binaryLog num den - 52) minExponent
    let m := roundHalfEven (num * 2 ^ (-e).toNat) (den * 2 ^ e.toNat)
    min ((e - minExponent).toNat * 2 ^ (52 : Nat) + m) infinityBits

example : nearestMagnitude 1 10 = 0x3FB999999999999A := by decide +kernel

example : nearestMagnitude (2 ^ 1024 - 2 ^ 970) 1 = infinityBits := by decide +kernel

example : nearestMagnitude (2 ^ 1024 - 2 ^ 970 - 1) 1 = infinityBits - 1 := by decide +kernel

example : nearestMagnitude 1 (2 ^ 1075) = 0 ∧ nearestMagnitude 3 (2 ^ 1075) = 2 := by
  decide +kernel

def remainderMagnitude (a b : Nat) : Nat :=
  let e := min (exponent a) (exponent b)
  let whole (c : Nat) : Nat := significand c * 2 ^ (exponent c - e).toNat
  nearestMagnitude (whole a % whole b * 2 ^ e.toNat) (2 ^ (-e).toNat)

/-- `x` less the whole multiple of `y` next to it on the side of zero. Nothing can be divided by
zero, and infinity is no dividend; an infinite divisor leaves the dividend. -/
def remainder (x y : Float) : Float :=
  let a := magnitude x
  let b := magnitude y
  if infinityBits ≤ a ∨ infinityBits < b ∨ b = 0 then nan
  else if b = infinityBits then x
  else ofMagnitude (isNegative x) (remainderMagnitude a b)

example : remainderMagnitude 0x401C000000000000 0x4008000000000000 = 0x3FF0000000000000 := by
  decide +kernel

def lesser (x y : Float) : Float := if x.isNaN then y else if y < x then y else x

def greater (x y : Float) : Float := if x.isNaN then y else if x < y then y else x

/-- The least of the list, in which what is no number is passed over; of no numbers at all it is
positive infinity. -/
def least (xs : List Float) : Float := xs.foldl lesser (infinity false)

def greatest (xs : List Float) : Float := xs.foldl greater (infinity true)

structure Decimal where
  digits : Nat
  scale : Int
  deriving DecidableEq, Repr

def digitsValue (ds : Text) : Nat := ds.foldl (fun n d => 10 * n + (d.toNat - '0'.toNat)) 0

/-- The magnitude nearest to a decimal. Far outside the range of the floats the answer is known
without the power of ten: at `10 ^ 310` and above it is infinity, below `10 ^ (-330)` zero. -/
def Decimal.nearest (d : Decimal) : Nat :=
  if d.digits = 0 then 0
  else if 310 ≤ d.scale then infinityBits
  else if d.scale + (Nat.log2 d.digits + 1 : Nat) < -330 then 0
  else nearestMagnitude (d.digits * 10 ^ d.scale.toNat) (10 ^ (-d.scale).toNat)

def splitSign : Text → Bool × Text
  | '+' :: t => (false, t)
  | '-' :: t => (true, t)
  | t => (false, t)

def splitDigits (t : Text) : Text × Text := (t.takeWhile Char.isDigit, t.dropWhile Char.isDigit)

def readExponent : Text → Option Int
  | [] => some 0
  | c :: t =>
    if c = 'e' ∨ c = 'E' then
      let (negative, ds) := splitSign t
      if ds ≠ [] ∧ ds.all Char.isDigit then
        some (if negative then -(digitsValue ds : Int) else digitsValue ds)
      else none
    else none

def splitFraction : Text → Text × Text
  | '.' :: t => splitDigits t
  | t => ([], t)

def readDecimal (t : Text) : Option Decimal :=
  let (whole, t) := splitDigits t
  let (fraction, t) := splitFraction t
  if whole = [] ∧ fraction = [] then none
  else (readExponent t).map fun e => ⟨digitsValue (whole ++ fraction), e - fraction.length⟩

def lower (t : Text) : Text := t.map Char.toLower

def read (t : Text) : Option Float :=
  let (negative, t) := splitSign t
  if lower t = ['i', 'n', 'f'] ∨ lower t = ['i', 'n', 'f', 'i', 'n', 'i', 't', 'y'] then
    some (infinity negative)
  else if lower t = ['n', 'a', 'n'] then some nan
  else (readDecimal t).map fun d => ofMagnitude negative d.nearest

example : readDecimal "1.50e-3".toList = some ⟨150, -5⟩ := by decide +kernel

example : readDecimal ".".toList = none ∧ readDecimal "1e".toList = none := by decide +kernel

example : read "-0".toList = some (ofMagnitude true 0) := by decide +kernel

/-- The reals that round to one magnitude, in quarters of a step of the exact decimal grid. -/
structure Interval where
  low : Nat
  high : Nat
  closed : Bool

def Interval.contains (i : Interval) (n : Nat) : Bool :=
  if i.closed then i.low ≤ n && n ≤ i.high else i.low < n && n < i.high

/-- The steps of the exact grid `10 ^ min e 0` that make up `2 ^ e`. -/
def unitSteps (e : Int) : Nat := 2 ^ e.toNat * 5 ^ (-e).toNat

/-- Half a step to each side, but only a quarter downwards from a power of two, where the
exponent of the next magnitude is less by one. -/
def interval (b : Nat) : Interval :=
  let m := significand b
  let unit := unitSteps (exponent b)
  let below := if m = 2 ^ (52 : Nat) ∧ minExponent < exponent b then 1 else 2
  ⟨(4 * m - below) * unit, (4 * m + 2) * unit, m % 2 = 0⟩

/-- The decimal `d` on the grid of `10 ^ j` exact steps, if a neighbour of `n` lies inside. -/
def onGrid (i : Interval) (n j : Nat) : Option Nat :=
  let step := 10 ^ j
  let d := n / step
  let down := i.contains (4 * (d * step))
  let up := i.contains (4 * ((d + 1) * step))
  if down && up then some (if 2 * (n % step) < step then d else d + 1)
  else if down then some d
  else if up then some (d + 1)
  else none

def firstHit (i : Interval) (n : Nat) : Nat → Nat × Nat
  | 0 => (n, 0)
  | j + 1 =>
    match onGrid i n (j + 1) with
    | some d => (d, j + 1)
    | none => firstHit i n j

def shortest (b : Nat) : Nat × Int :=
  let n := significand b * unitSteps (exponent b)
  let (d, j) := firstHit (interval b) n (Nat.toDigits 10 n).length
  (d, min (exponent b) 0 + j)

example : shortest 1 = (5, -324) := by decide +kernel

example : shortest 0x3FB999999999999A = (1, -1) := by decide +kernel

example : shortest 0x7FEFFFFFFFFFFFFF = (17976931348623157, 292) := by decide +kernel

example : shortest 0x44B52D02C7E14AF6 = (1, 23) := by decide +kernel

structure Layout where
  keepsPoint : Bool
  positional : Int → Bool

def Layout.plain : Layout := ⟨false, fun _ => true⟩

/-- Positional from `10 ^ (-4)` to below `10 ^ 16`, with a point in whole numbers too. -/
def Layout.explicit : Layout := ⟨true, fun e => -4 ≤ e && e < 16⟩

def digits (n : Nat) : Text := Nat.toDigits 10 n

def signedDigits (i : Int) : Text := if i < 0 then '-' :: digits i.natAbs else digits i.natAbs

/-- The digits `ds` with the point `places` digits from the right, zeros filled in as needed. -/
def Layout.positionalText (l : Layout) (ds : Text) (places : Int) : Text :=
  if places ≤ 0 then
    ds ++ List.replicate (-places).toNat '0' ++ (if l.keepsPoint then ['.', '0'] else [])
  else
    let k := places.toNat
    let padded := List.replicate (k + 1 - ds.length) '0' ++ ds
    padded.take (padded.length - k) ++ '.' :: padded.drop (padded.length - k)

def exponentText (ds : Text) (e : Int) : Text :=
  ds.take 1 ++ (if ds.length ≤ 1 then [] else '.' :: ds.drop 1) ++ 'e' :: signedDigits e

def Layout.magnitudeText (l : Layout) (b : Nat) : Text :=
  if b = 0 then l.positionalText ['0'] 0
  else
    let (d, scale) := shortest b
    let ds := digits d
    let first := scale + (ds.length - 1 : Nat)
    if l.positional first then l.positionalText ds (-scale) else exponentText ds first

/-- The text of a float: the sign shows also on a zero, and never on what is no number. -/
def Layout.text (l : Layout) (x : Float) : Text :=
  let b := magnitude x
  if infinityBits < b then ['N', 'a', 'N']
  else
    (if isNegative x then ['-'] else []) ++
      (if b = infinityBits then ['i', 'n', 'f'] else l.magnitudeText b)

def text (x : Float) : Text := Layout.plain.text x

def explicitText (x : Float) : Text := Layout.explicit.text x

example : Layout.plain.positionalText ['1', '2'] (-3) = "12000".toList := by decide +kernel

example : Layout.plain.positionalText ['1', '2'] 1 = "1.2".toList := by decide +kernel

example : Layout.plain.positionalText ['1', '2'] 4 = "0.0012".toList := by decide +kernel

example : text (ofMagnitude true 0) = "-0".toList := by decide +kernel

example : explicitText (ofMagnitude true 0) = "-0.0".toList := by decide +kernel

example : Layout.explicit.magnitudeText 0x4341C37937E08000 = "1e16".toList := by decide +kernel

example : Layout.explicit.magnitudeText 0x3EE4F8B588E368F1 = "1e-5".toList := by decide +kernel

end Number

end CallFormula
