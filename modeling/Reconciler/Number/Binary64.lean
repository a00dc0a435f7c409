/-! Finite binary64 numbers and exact rounding to them. No machine float is involved. -/
namespace Reconciler

/-- A finite binary64: its sign, and its word without the sign bit, which grows with the absolute
value. Both zeros are kept. -/
structure Binary64 where
  negative : Bool
  magnitude : Nat
  magnitude_lt : magnitude < 2047 <<< 52
deriving DecidableEq

namespace Binary64

def zero : Binary64 := ⟨false, 0, by decide⟩

def largest (negative : Bool) : Binary64 := ⟨negative, (2047 <<< 52) - 1, by decide⟩

instance : Inhabited Binary64 := ⟨zero⟩

def sameValue (a b : Binary64) : Bool :=
  a.magnitude == b.magnitude && (a.negative == b.negative || a.magnitude == 0)

def word (a : Binary64) : Nat := (if a.negative then 1 <<< 63 else 0) + a.magnitude

/-- The integer next to `num / den`; a half goes to the even one. -/
def roundHalfEven (num den : Nat) : Nat :=
  let low := num / den
  let rest := 2 * (num % den)
  if rest < den then low
  else if den < rest then low + 1
  else low + low % 2

/-- The exponent of the last place of a binary64 next to `num / den`: `num / den` has 53 binary
places above it, or the exponent is the least one. -/
def lastPlace (num den : Nat) : Int :=
  let guess : Int := (num.log2 : Int) - (den.log2 : Int) - 52
  let below :=
    if 0 ≤ guess + 52 then num < den <<< (guess + 52).toNat
    else num <<< (-(guess + 52)).toNat < den
  max (-1074) (if below then guess - 1 else guess)

/-- The magnitude next to `num / den`, or nothing when that is above the largest number. -/
def magnitudeOfRatio (num den : Nat) : Nat :=
  if num = 0 then 0
  else
    let place := lastPlace num den
    let significand :=
      if 0 ≤ place then roundHalfEven num (den <<< place.toNat)
      else roundHalfEven (num <<< (-place).toNat) den
    ((place + 1074).toNat <<< 52) + significand

def ofRatio? (negative : Bool) (num den : Nat) : Option Binary64 :=
  if h : magnitudeOfRatio num den < 2047 <<< 52 then some ⟨negative, _, h⟩ else none

/-- The binary64 next to `digits * 10 ^ exponent`, or nothing when it would not be finite. Exponents
far outside the range are decided without computing the power. -/
def ofDecimal? (negative : Bool) (digits : Nat) (exponent : Int) : Option Binary64 :=
  if digits = 0 then some ⟨negative, 0, by decide⟩
  else if 400 < exponent then none
  else if exponent + digits.log2 + 1 < -400 then some ⟨negative, 0, by decide⟩
  else if 0 ≤ exponent then ofRatio? negative (digits * Nat.pow 10 exponent.toNat) 1
  else ofRatio? negative digits (Nat.pow 10 (-exponent).toNat)

/-- The binary64 next to an integer; beyond the range it is the largest one. -/
def ofInt (n : Int) : Binary64 :=
  (ofRatio? (n < 0) n.natAbs 1).getD (largest (n < 0))

/-- The significand and the exponent of the last place: the absolute value is
`significand * 2 ^ exponent`. -/
def parts (a : Binary64) : Nat × Int :=
  let field : Nat := a.magnitude >>> 52
  let fraction : Nat := a.magnitude % (1 <<< 52)
  if field = 0 then (fraction, -1074) else ((1 <<< 52) + fraction, (field : Int) - 1075)

def ratio (a : Binary64) : Nat × Nat :=
  let (significand, exponent) := a.parts
  if 0 ≤ exponent then (significand <<< exponent.toNat, 1)
  else (significand, 1 <<< (-exponent).toNat)

def mul? (a b : Binary64) : Option Binary64 :=
  ofRatio? (a.negative != b.negative) (a.ratio.1 * b.ratio.1) (a.ratio.2 * b.ratio.2)

def div? (a b : Binary64) : Option Binary64 :=
  if b.magnitude = 0 then none
  else ofRatio? (a.negative != b.negative) (a.ratio.1 * b.ratio.2) (a.ratio.2 * b.ratio.1)

theorem sameValue_refl (a : Binary64) : sameValue a a := by simp [sameValue]

theorem sameValue_comm (a b : Binary64) : sameValue a b = sameValue b a := by
  rw [Bool.eq_iff_iff]
  grind [sameValue]

end Binary64

end Reconciler
