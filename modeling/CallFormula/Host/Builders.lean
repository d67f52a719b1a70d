import CallFormula.Registry

set_option autoImplicit false

namespace CallFormula

structure Journal where
  lines : List Text
  counts : List Nat
  deriving DecidableEq, Repr

structure Counter where
  place : Nat
  deriving DecidableEq, Repr

namespace Journal

def empty : Journal := ⟨[], []⟩

def write (j : Journal) (line : Text) : Journal := { j with lines := j.lines ++ [line] }

def takeLines (j : Journal) : List Text × Journal := (j.lines, { j with lines := [] })

def openCounter (j : Journal) : Counter × Journal :=
  (⟨j.counts.length⟩, { j with counts := j.counts ++ [0] })

def count (j : Journal) (c : Counter) : Nat × Journal :=
  let n := j.counts[c.place]?.getD 0 + 1
  (n, { j with counts := j.counts.set c.place n })

end Journal

def Number.sum (xs : List Float) : Float := xs.foldl (· + ·) (Number.ofMagnitude false 0)

/-- A function of exactly `n` values. With any other number of arguments it fails under its name,
before it looks at one. -/
def Native.fixed {σ : Type} (name : Text) (n : Nat) (body : Vector Float n → Evaluation σ Float) :
    Native σ := fun args =>
  if h : args.length = n then body ⟨args.toArray, by simpa using h⟩
  else throw (.functionFailed name
    ("expected ".toList ++ Number.digits n ++ " arguments, got ".toList ++
      Number.digits args.length))

inductive HostFunction where
  | sum
  | count
  | last
  | fail
  | divzero
  | undef
  | trace
  | average
  | mix
  | clamp
  | answer
  | bumpByOne
  deriving DecidableEq, Repr

namespace HostFunction

def bitsText (x : Float) : Text :=
  if x.isNaN then "NaN".toList
  else
    let ds := Nat.toDigits 16 x.toBits.toNat
    List.replicate (16 - ds.length) '0' ++ ds

def callLine (args : List Float) : Text :=
  "call ".toList ++ [' '].intercalate (args.map bitsText)

def clampValue (value low high : Float) : Except EvaluationError Float :=
  if high < low then
    .error (.functionFailed "CLAMP".toList
      ("empty range ".toList ++ Number.text low ++ "..".toList ++ Number.text high))
  else .ok (Number.lesser (Number.greater value low) high)

def body : HostFunction → Native Journal
  | sum => fun args => pure (Number.sum args)
  | count => fun args => pure (Float.ofNat args.length)
  | last => fun args => pure (args.getLast?.getD Number.nan)
  | fail => fun args =>
    throw (.functionFailed "Fail".toList (Number.digits args.length ++ " given".toList))
  | divzero => fun _ => throw .divisionByZero
  | undef => fun _ => throw (.undefinedVariable "Inner".toList)
  | trace => fun args => do
    modify fun j => j.write (callLine args)
    pure (Number.sum args)
  | average => Native.fixed "AVERAGE".toList 2 fun v => pure ((v[0] + v[1]) / (2 : Float))
  | mix => Native.fixed "MIX".toList 2 fun v => pure (v[0] * (10 : Float) + v[1])
  | clamp => Native.fixed "CLAMP".toList 3 fun v => Action.ofExcept (clampValue v[0] v[1] v[2])
  | answer => Native.fixed "ANSWER".toList 0 fun _ => pure 42
  | bumpByOne => Native.fixed "BUMP_BY_ONE".toList 1 fun v => pure (v[0] + (1 : Float))

end HostFunction

inductive HostBuilder where
  | const (value : Float)
  | twice
  /-- The first argument times the second, which must be a number literal. -/
  | scale
  | pickLast
  /-- The number of calls so far; each call leaves a line in the journal. -/
  | ticket (counter : Counter)
  /-- Asks for a function of the process-wide registry: the sum of its arguments and seven. -/
  | installer (installs : Text)

namespace HostBuilder

def scaleOf : List Tree → Except ParseError Tree
  | [first, .number factor] => .ok (.binary first .multiply (.number factor))
  | [_, second] =>
    .error (.invalidArguments "SCALE".toList
      ("factor must be a number literal, got ".toList ++ second.text))
  | args => .error (.arityMismatch "SCALE".toList (Number.digits 2) args.length)

def twiceOf (name : Text) : List Tree → Except ParseError Tree
  | [arg] => .ok (.binary arg .multiply (.number 2))
  | args => .error (.arityMismatch name (Number.digits 1) args.length)

def buildLine (name : Text) (args : List Tree) : Text :=
  "build ".toList ++ name ++ [' '] ++ Number.digits args.length

def installed : Native Journal := fun args => pure (Number.sum args + 7)

def build (name : Text) (args : List Tree) (j : Journal) :
    HostBuilder → Built Journal (Binding Journal)
  | const value => ⟨.ok (.number value), j, []⟩
  | twice => ⟨twiceOf name args, j, []⟩
  | scale => ⟨scaleOf args, j, []⟩
  | pickLast => ⟨.ok (args.getLast?.getD (.variable "none".toList)), j, []⟩
  | ticket counter =>
    let (n, j) := (j.write (buildLine name args)).count counter
    ⟨.ok (.number (Float.ofNat n)), j, []⟩
  | installer installs => ⟨.ok (.number 1), j, [.function installs .any installed]⟩

def binding (b : HostBuilder) (name : Text) : Binding Journal :=
  .builder fun args j => b.build name args j

end HostBuilder

end CallFormula
