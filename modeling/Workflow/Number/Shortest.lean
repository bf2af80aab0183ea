import Workflow.Number.Double
/-!
# Workflow — the shortest decimal of a binary64 number

A binary64 number is written with the fewest digits that read back as it.
Its exact decimal expansion is cut before the first digit, then after one,
two, and so on; the first cut one of whose two neighbours reads back gives
the digits, and of two that do the nearer one.
-/

namespace Workflow

/-- The decimal number `digits · 10 ^ power`. -/
structure Decimal where
  /-- The digits, as a whole number. -/
  digits : Nat
  /-- The power of ten that they count. -/
  power : Int
  deriving DecidableEq, Repr

namespace Double

/-- The size of a number as a decimal, exactly. -/
def expansion (x : Double) : Decimal :=
  if x.mantissa = 0 then ⟨0, 0⟩
  else if 0 ≤ x.exponent then ⟨x.mantissa * Nat.pow 2 x.exponent.toNat, 0⟩
  else ⟨x.mantissa * Nat.pow 5 (-x.exponent).toNat, x.exponent⟩

/-- A decimal reads as a number of the sign and size of `x`. -/
def ReadsBack (x : Double) (d : Decimal) : Prop :=
  ofDecimal? x.negative d.digits d.power = some x

instance (x : Double) (d : Decimal) : Decidable (x.ReadsBack d) :=
  inferInstanceAs (Decidable (_ = _))

end Double

namespace Decimal

/-- How many digits a decimal is written with. -/
def length (d : Decimal) : Nat :=
  (Nat.toDigits 10 d.digits).length

/-- The two decimals around `d` that end `drop` digits earlier, the nearer
one first and of two equally near the even one. -/
def neighbours (d : Decimal) (drop : Nat) : List Decimal :=
  let unit := Nat.pow 10 drop
  let below : Decimal := ⟨d.digits / unit, d.power + drop⟩
  let above : Decimal := ⟨d.digits / unit + 1, d.power + drop⟩
  let rest := 2 * (d.digits % unit)
  if rest < unit ∨ (rest = unit ∧ below.digits % 2 = 0) then [below, above] else [above, below]

end Decimal

namespace Double

/-- The decimal with the fewest digits that reads back as `x`. A cut before
the first digit has the next power of ten above it, which is one digit long
too; no number needs more than seventeen digits. -/
def shortest (x : Double) : Decimal :=
  let d := x.expansion
  if d.digits = 0 then d
  else
    let found := (List.range 18).findSome? fun count =>
      (d.neighbours (d.length - count)).find? fun candidate => x.ReadsBack candidate
    found.getD d

end Double

end Workflow
