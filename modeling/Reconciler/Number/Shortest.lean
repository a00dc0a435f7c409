import Reconciler.Number.Binary64

/-! The fewest decimal digits that read back as a given binary64, and of those the nearest. -/
namespace Reconciler.Binary64

/-- The reals that round to a number, with all bounds over the last component. The ends belong iff
the significand is even. -/
structure Neighbourhood where
  low : Nat
  middle : Nat
  high : Nat
  den : Nat
  closed : Bool

def neighbourhood (a : Binary64) : Neighbourhood :=
  let (m, e) := a.parts
  let below := if m = 1 <<< 52 ∧ -1074 < e then 1 else 2
  let up := if 2 ≤ e then 1 <<< (e - 2).toNat else 1
  let den := if 2 ≤ e then 1 else 1 <<< (2 - e).toNat
  ⟨(4 * m - below) * up, 4 * m * up, (4 * m + 2) * up, den, m % 2 == 0⟩

namespace Neighbourhood

/-- `digits * 10 ^ exponent` rounds to the number. -/
def holds (s : Neighbourhood) (digits : Nat) (exponent : Int) : Bool :=
  let up := Nat.pow 10 (-exponent).toNat
  let point := digits * Nat.pow 10 exponent.toNat * s.den
  if s.closed then s.low * up ≤ point && point ≤ s.high * up
  else s.low * up < point && point < s.high * up

/-- The multiple of `10 ^ exponent` that rounds to the number, the nearer of the two around it; a
tie goes to the even one. -/
def onGrid? (s : Neighbourhood) (exponent : Int) : Option Nat :=
  let num := s.middle * Nat.pow 10 (-exponent).toNat
  let den := s.den * Nat.pow 10 exponent.toNat
  let low := num / den
  let near := roundHalfEven num den
  let far := if near = low then low + 1 else low
  if s.holds near exponent then some near
  else if s.holds far exponent then some far
  else none

/-- The exponent of the first digit, from an estimate that is at most one off. -/
def leadingExponent (s : Neighbourhood) : Int :=
  let guess : Int := (((s.middle.log2 : Int) - (s.den.log2 : Int)) * 30103) / 100000
  let reaches (e : Int) : Bool := s.den * Nat.pow 10 e.toNat ≤ s.middle * Nat.pow 10 (-e).toNat
  if reaches (guess + 1) then guess + 1 else if reaches guess then guess else guess - 1

/-- The first grid with a hit; `fuel` more digits may be tried. -/
def search (s : Neighbourhood) : (fuel : Nat) → (exponent : Int) → Nat × Int
  | 0, exponent => ((s.onGrid? exponent).getD 0, exponent)
  | fuel + 1, exponent =>
    match s.onGrid? exponent with
    | some digits => (digits, exponent)
    | none => s.search fuel (exponent - 1)

end Neighbourhood

def stripZeros : (fuel : Nat) → Nat → Int → Nat × Int
  | 0, digits, exponent => (digits, exponent)
  | fuel + 1, digits, exponent =>
    if digits ≠ 0 ∧ digits % 10 = 0 then stripZeros fuel (digits / 10) (exponent + 1)
    else (digits, exponent)

/-- Digits and exponent of the shortest decimal; zero has no digits. Seventeen digits always
suffice. -/
def shortest (a : Binary64) : Nat × Int :=
  if a.magnitude = 0 then (0, 0)
  else
    let s := a.neighbourhood
    let (digits, exponent) := s.search 17 s.leadingExponent
    stripZeros 20 digits exponent

/-- How the formats write an exponent: JSON with a sign, YAML without a plus. -/
inductive ExponentStyle where
  | signed
  | bare
deriving DecidableEq

/-- The written form: positional from `1e-5` below `1e16`, always with a point or an exponent. -/
def text (style : ExponentStyle) (a : Binary64) : String :=
  let (digits, exponent) := a.shortest
  let ds := if digits = 0 then ['0'] else Nat.toDigits 10 digits
  let point : Int := ds.length + exponent
  let body : List Char :=
    if 0 ≤ exponent ∧ point ≤ 16 then ds ++ List.replicate exponent.toNat '0' ++ ['.', '0']
    else if 0 < point ∧ point ≤ 16 then ds.take point.toNat ++ '.' :: ds.drop point.toNat
    else if -5 < point ∧ point ≤ 0 then '0' :: '.' :: List.replicate (-point).toNat '0' ++ ds
    else
      let e := point - 1
      let sign := if e < 0 then ['-'] else if style = .signed then ['+'] else []
      let head := match ds with
        | [d] => [d]
        | d :: rest => d :: '.' :: rest
        | [] => []
      head ++ 'e' :: sign ++ Nat.toDigits 10 e.natAbs
  String.ofList (if a.negative then '-' :: body else body)

end Reconciler.Binary64
