/-!
# Workflow — binary64 numbers

A document's numbers with a point or an exponent are binary64 numbers. They
are kept exactly, as a sign, a mantissa and an exponent of two, and read
from decimal with one rounding to the nearest, ties to even. The canonical
form is unique, so equal numbers are equal values, the two zeros apart.
-/

namespace Workflow

/-- What makes a mantissa and an exponent the one binary64 form of their
number: the mantissa fills its 53 bits unless the exponent is the least. -/
def Double.Canonical (mantissa : Nat) (exponent : Int) : Prop :=
  mantissa < Nat.pow 2 53 ∧ -1074 ≤ exponent ∧ exponent ≤ 971 ∧
    (Nat.pow 2 52 ≤ mantissa ∨ exponent = -1074)

instance (mantissa : Nat) (exponent : Int) : Decidable (Double.Canonical mantissa exponent) :=
  inferInstanceAs (Decidable (_ ∧ _ ∧ _ ∧ _))

/-- A finite binary64 number, `± mantissa · 2 ^ exponent`. -/
structure Double where
  /-- The sign; zero has one too. -/
  negative : Bool
  /-- The digits of the number in base two. -/
  mantissa : Nat
  /-- The power of two that they count. -/
  exponent : Int
  /-- No other mantissa and exponent write the same number. -/
  canonical : Double.Canonical mantissa exponent
  deriving DecidableEq

namespace Double

/-- The zero of a sign. -/
def zero (negative : Bool) : Double :=
  ⟨negative, 0, -1074, by decide⟩

instance : Inhabited Double := ⟨zero false⟩

/-- The integer nearest to `num / den`, the even one of two equally near. -/
def roundEven (num den : Nat) : Nat :=
  let floor := num / den
  let rest := 2 * (num % den)
  if rest < den then floor
  else if den < rest then floor + 1
  else floor + floor % 2

/-- The number `num / den` counted in units of `2 ^ exponent`, rounded. -/
def scaled (num den : Nat) (exponent : Int) : Nat :=
  if 0 ≤ exponent then roundEven num (den * Nat.pow 2 exponent.toNat)
  else roundEven (num * Nat.pow 2 (-exponent).toNat) den

/-- The largest power of two, as an exponent, that is no more than
`num / den`; both are positive. -/
def magnitude (num den : Nat) : Int :=
  let estimate : Int := num.log2 - den.log2
  let reached :=
    if 0 ≤ estimate then den * Nat.pow 2 estimate.toNat ≤ num
    else den ≤ num * Nat.pow 2 (-estimate).toNat
  if reached then estimate else estimate - 1

/-- The binary64 number nearest to `± num / den`, for positive `num` and
`den`; none when it is past the largest. A mantissa that rounding carries to
54 bits is halved. -/
def ofRatio? (negative : Bool) (num den : Nat) : Option Double :=
  let exponent := max (magnitude num den - 52) (-1074)
  let mantissa := scaled num den exponent
  let (mantissa, exponent) :=
    if mantissa = Nat.pow 2 53 then (Nat.pow 2 52, exponent + 1) else (mantissa, exponent)
  if h : Canonical mantissa exponent then some ⟨negative, mantissa, exponent, h⟩ else none

/-- The binary64 number nearest to `± digits · 10 ^ power`; none when it is
past the largest. Far outside the range of binary64 the answer is known
without the power of ten. -/
def ofDecimal? (negative : Bool) (digits : Nat) (power : Int) : Option Double :=
  if digits = 0 then some (zero negative)
  else if 400 < power then none
  else if power + digits.log2 < -400 then some (zero negative)
  else if 0 ≤ power then ofRatio? negative (digits * Nat.pow 10 power.toNat) 1
  else ofRatio? negative digits (Nat.pow 10 (-power).toNat)

/-- The binary64 number nearest to an integer; none when it is past the
largest. -/
def ofInt? (n : Int) : Option Double :=
  ofDecimal? (n < 0) n.natAbs 0

/-- The number in units of `2 ^ -1074`, of which every binary64 number is a
whole multiple. -/
def units (x : Double) : Int :=
  let size : Int := x.mantissa * Nat.pow 2 (x.exponent + 1074).toNat
  if x.negative then -size else size

end Double

end Workflow
