import Workflow.Number.Shortest
/-!
# Workflow — how a binary64 number is written

The digits of a number are fixed by `Double.shortest`. A layout says where
the point goes: which exponents are written out in place, and how the
exponent of the others looks. JSON text and messages differ in their layout
and in nothing else.
-/

namespace Workflow

/-- The writing conventions of a kind of text. A number's leading exponent is
the power of ten that its first digit counts. -/
structure Layout where
  /-- The least leading exponent that is written without an exponent mark. -/
  leastPlain : Int
  /-- The greatest leading exponent that is written without one. -/
  greatestPlain : Int
  /-- A positive exponent carries a plus sign. -/
  plusSign : Bool
  /-- An exponent has at least this many digits. -/
  exponentWidth : Nat
  deriving DecidableEq, Repr

namespace Layout

/-- Messages write numbers from `0.0001` up to sixteen digits before the
point in full, and `1e+16` past that. -/
def message : Layout := ⟨-4, 15, true, 2⟩

/-- JSON text writes numbers from `0.00001` up to sixteen digits before the
point in full, and `1e16` past that. -/
def json : Layout := ⟨-5, 15, false, 1⟩

/-- A row of zeros. -/
def zeros (n : Nat) : List Char :=
  List.replicate n '0'

/-- An exponent with its sign. -/
def exponentText (l : Layout) (e : Int) : List Char :=
  let digits := Nat.toDigits 10 e.natAbs
  let sign := if e < 0 then ['-'] else if l.plusSign then ['+'] else []
  sign ++ zeros (l.exponentWidth - digits.length) ++ digits

/-- Digits with the point placed `places` digits from their left end, a zero
on either side of it where there is no digit. -/
def pointed (digits : List Char) (places : Int) : List Char :=
  if places ≤ 0 then '0' :: '.' :: (zeros (-places).toNat ++ digits)
  else if digits.length ≤ places then
    digits ++ zeros (places.toNat - digits.length) ++ ['.', '0']
  else digits.take places.toNat ++ '.' :: digits.drop places.toNat

/-- A decimal as text, without a sign. -/
def decimalText (l : Layout) (d : Decimal) : List Char :=
  let digits := Nat.toDigits 10 d.digits
  let leading : Int := d.power + digits.length - 1
  if l.leastPlain ≤ leading ∧ leading ≤ l.greatestPlain then pointed digits (leading + 1)
  else
    let mantissa := if digits.length = 1 then digits else pointed digits 1
    mantissa ++ 'e' :: l.exponentText leading

/-- A binary64 number as text. -/
def text (l : Layout) (x : Double) : List Char :=
  (if x.negative then ['-'] else []) ++ l.decimalText x.shortest

end Layout

end Workflow
