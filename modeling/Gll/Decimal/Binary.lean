/-!
Non-negative numbers in binary floating point of double width, held exactly: a value is
`mantissa * 2 ^ exponent` with a mantissa of at most 53 bits and an exponent of at least `-1074`.
Arithmetic is done on quotients of natural numbers and rounded once, to the nearest such value and
in a tie to the one with the even mantissa.
-/

set_option autoImplicit false

namespace Gll.Decimal

/-- The value `mantissa * 2 ^ exponent`. -/
structure Binary where
  mantissa : Nat
  exponent : Int
deriving DecidableEq, Repr, Inhabited

/-- A positive quotient of natural numbers, not necessarily in lowest terms. -/
structure Quotient where
  numerator : Nat
  denominator : Nat
deriving Repr

namespace Quotient

/-- The quotient times `base ^ power`. -/
def scale (q : Quotient) (base : Nat) (power : Int) : Quotient :=
  if 0 ≤ power then ⟨q.numerator * base.pow power.toNat, q.denominator⟩
  else ⟨q.numerator, q.denominator * base.pow (-power).toNat⟩

/-- Whether one quotient is at most another. -/
def le (p q : Quotient) : Bool := p.numerator * q.denominator ≤ q.numerator * p.denominator

/-- The largest integer that is not above the quotient. -/
def floor (q : Quotient) : Nat := q.numerator / q.denominator

/-- The nearest integer, in a tie the even one. -/
def round (q : Quotient) : Nat :=
  let whole := q.numerator / q.denominator
  let twice := 2 * (q.numerator % q.denominator)
  if twice < q.denominator then whole
  else if twice = q.denominator && whole % 2 = 0 then whole
  else whole + 1

/-- The greatest power of two that is not above a positive quotient. -/
def log2 (q : Quotient) : Int :=
  let guess : Int := (Nat.log2 q.numerator : Int) - Nat.log2 q.denominator
  if (Quotient.scale ⟨1, 1⟩ 2 guess).le q then guess else guess - 1

end Quotient

namespace Binary

/-- Zero. -/
def zero : Binary := ⟨0, 0⟩

/-- The value as a quotient. -/
def toQuotient (b : Binary) : Quotient := Quotient.scale ⟨b.mantissa, 1⟩ 2 b.exponent

/-- The value nearest to a quotient; there is none for quotients beyond the greatest value. -/
def ofQuotient? (q : Quotient) : Option Binary :=
  if q.numerator = 0 then some zero
  else
    let exponent := max (q.log2 - 52) (-1074)
    let mantissa := (q.scale 2 (-exponent)).round
    if mantissa = 0 then some zero
    else if exponent > 971 || (exponent = 971 && mantissa = Nat.pow 2 53) then none
    else if mantissa = Nat.pow 2 53 then some ⟨Nat.pow 2 52, exponent + 1⟩
    else some ⟨mantissa, exponent⟩

/-- The product of a value and a power of ten, which is itself rounded before it is used. -/
def timesPowerOfTen? (b : Binary) (power : Nat) : Option Binary := do
  let ten ← ofQuotient? ⟨Nat.pow 10 power, 1⟩
  let p := b.toQuotient
  let q := ten.toQuotient
  ofQuotient? ⟨p.numerator * q.numerator, p.denominator * q.denominator⟩

/-- The value divided by a power of ten, which is itself rounded before it is used. -/
def overPowerOfTen? (b : Binary) (power : Nat) : Option Binary := do
  let ten ← ofQuotient? ⟨Nat.pow 10 power, 1⟩
  let p := b.toQuotient
  let q := ten.toQuotient
  ofQuotient? ⟨p.numerator * q.denominator, p.denominator * q.numerator⟩

end Binary

end Gll.Decimal
