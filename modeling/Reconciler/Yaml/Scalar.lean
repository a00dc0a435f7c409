import Reconciler.Number.Binary64

/-! What a plain scalar means: null, a boolean, a number or a string. -/
namespace Reconciler.Yaml

/-- A float of YAML need not be finite. -/
inductive Real where
  | finite (value : Binary64)
  | infinite (negative : Bool)
  | undefined
deriving DecidableEq

/-- The meaning of a plain scalar. Integers are bounded by 128 bits here; readers accept fewer. -/
inductive Plain where
  | null
  | bool (value : Bool)
  | int (value : Int)
  | real (value : Real)
  | string
deriving DecidableEq

namespace Plain

def splitSign : List Char → Option Bool × List Char
  | '+' :: cs => (some false, cs)
  | '-' :: cs => (some true, cs)
  | cs => (none, cs)

def digit? (base : Nat) (c : Char) : Option Nat :=
  let value :=
    if c.isDigit then c.toNat - 48
    else if 'a' ≤ c ∧ c ≤ 'z' then c.toNat - 87
    else if 'A' ≤ c ∧ c ≤ 'Z' then c.toNat - 55
    else base
  if value < base then some value else none

def ofDigits (base : Nat) (digits : List Nat) : Nat := digits.foldl (fun n d => n * base + d) 0

def natural? (base : Nat) (cs : List Char) : Option Nat := do
  let digits ← cs.mapM (digit? base)
  guard (digits ≠ [])
  return ofDigits base digits

/-- Several decimal digits of which the first is zero. They are no number. -/
def isZeroLed (cs : List Char) : Bool :=
  let body := (splitSign cs).2
  body.length > 1 && body.head? == some '0' && body.all Char.isDigit

/-- Decimal, or with a base in front: `0x`, `0o`, `0b`. -/
def magnitude? : List Char → Option Nat
  | '0' :: 'x' :: cs => natural? 16 cs
  | '0' :: 'o' :: cs => natural? 8 cs
  | '0' :: 'b' :: cs => natural? 2 cs
  | cs => if isZeroLed cs then none else natural? 10 cs

def int? (cs : List Char) : Option Int := do
  let (sign, body) := splitSign cs
  let n ← magnitude? body
  if sign = some true then
    guard (n ≤ 1 <<< 127)
    return -n
  else
    guard (n < 1 <<< 128)
    return n

def exponent? : List Char → Option Int
  | [] => some 0
  | c :: cs => do
    guard (c = 'e' ∨ c = 'E')
    let (sign, body) := splitSign cs
    let n ← natural? 10 body
    return if sign = some true then -n else n

/-- A decimal without sign. One side of the point may be empty; its value must be finite. -/
def decimal? (negative : Bool) (cs : List Char) : Option Binary64 := do
  let whole := cs.takeWhile Char.isDigit
  let rest := cs.dropWhile Char.isDigit
  let (fraction, rest) := match rest with
    | '.' :: rest => (rest.takeWhile Char.isDigit, rest.dropWhile Char.isDigit)
    | rest => ([], rest)
  let digits ← natural? 10 (whole ++ fraction)
  Binary64.ofDecimal? negative digits ((← exponent? rest) - fraction.length)

def infinities : List (List Char) :=
  [['.', 'i', 'n', 'f'], ['.', 'I', 'n', 'f'], ['.', 'I', 'N', 'F']]

def undefineds : List (List Char) :=
  [['.', 'n', 'a', 'n'], ['.', 'N', 'a', 'N'], ['.', 'N', 'A', 'N']]

def real? (cs : List Char) : Option Real :=
  let (sign, body) := splitSign cs
  if infinities.contains body then some (.infinite (sign == some true))
  else if sign.isNone && undefineds.contains body then some .undefined
  else (decimal? (sign == some true) body).map .finite

def isNull (s : String) : Bool := ["null", "Null", "NULL", "~"].contains s

def bool? (s : String) : Option Bool :=
  if ["true", "True", "TRUE"].contains s then some true
  else if ["false", "False", "FALSE"].contains s then some false
  else none

def ofText (s : String) : Plain :=
  if s.isEmpty || isNull s then .null
  else match bool? s with
    | some b => .bool b
    | none =>
      match int? s.toList with
      | some n => .int n
      | none =>
        if isZeroLed s.toList then .string
        else match real? s.toList with
          | some x => .real x
          | none => .string

end Plain

end Reconciler.Yaml
