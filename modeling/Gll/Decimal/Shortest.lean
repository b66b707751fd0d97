import Gll.Decimal.Binary

/-!
The shortest decimal that reads back as a given value, and its text. A decimal reads back as a value
when it lies in the interval of numbers that round to it; the two ends, half-way to the next
values, belong to the interval when the mantissa is even. Of all decimals in the interval those with
the fewest digits are taken, and of those the nearest to the value.
-/

set_option autoImplicit false

namespace Gll.Decimal

/-- The number `digits * 10 ^ power`. -/
structure Scientific where
  digits : Nat
  power : Int
deriving DecidableEq, Repr

namespace Scientific

/-- The number as a quotient. -/
def toQuotient (d : Scientific) : Quotient := Quotient.scale ⟨d.digits, 1⟩ 10 d.power

end Scientific

namespace Quotient

/-- How many decimal digits a natural number has. -/
def digitCount (n : Nat) : Nat := (Nat.toDigits 10 n).length

/-- The greatest power of ten that is not above a positive quotient. -/
def log10 (q : Quotient) : Int :=
  let guess : Int := (digitCount q.numerator : Int) - digitCount q.denominator
  if (Quotient.scale ⟨1, 1⟩ 10 guess).le q then guess else guess - 1

end Quotient

namespace Binary

/-- The ends of the interval of numbers that round to a positive value. Below a power of two the
values are twice as dense as above it. -/
def interval (b : Binary) : Quotient × Quotient :=
  let unit := Quotient.scale ⟨1, 1⟩ 2 (b.exponent - 2)
  let below := if b.mantissa = Nat.pow 2 52 && b.exponent > -1074 then 1 else 2
  (⟨(4 * b.mantissa - below) * unit.numerator, unit.denominator⟩,
    ⟨(4 * b.mantissa + 2) * unit.numerator, unit.denominator⟩)

/-- Whether a decimal rounds to the value. -/
def admits (b : Binary) (d : Scientific) : Bool :=
  let (low, high) := b.interval
  let q := d.toQuotient
  if b.mantissa % 2 = 0 then low.le q && q.le high
  else !(q.le low) && !(high.le q)

/-- The decimal with `count` digits that is nearest to a positive value among the two on either side
of it, if it rounds to the value. -/
def withDigits? (b : Binary) (count : Nat) : Option Scientific :=
  let value := b.toQuotient
  let power := value.log10 - count + 1
  let scaled := value.scale 10 (-power)
  let low : Scientific := ⟨scaled.floor, power⟩
  let high : Scientific := ⟨scaled.floor + 1, power⟩
  let nearer := if scaled.round = scaled.floor then [low, high] else [high, low]
  nearer.find? b.admits

/-- The shortest decimal that rounds to the value; seventeen digits are always enough. -/
def shortest (b : Binary) : Scientific :=
  if b.mantissa = 0 then ⟨0, 0⟩
  else ((List.range 17).findSome? fun count => b.withDigits? (count + 1)).getD ⟨0, 0⟩

/-! ## Text -/

/-- Zeros. -/
def zeros (count : Nat) : List Char := List.replicate count '0'

/-- The text of a value. Positional notation is used while the point falls within sixteen digits, or
behind at most four zeros after the point; otherwise an exponent follows the digits. A whole number
keeps one zero after the point. -/
def text (b : Binary) : String :=
  if b.mantissa = 0 then "0.0"
  else
    let decimal := b.shortest
    let digits := Nat.toDigits 10 decimal.digits
    let trailing := (digits.reverse.takeWhile (· == '0')).length
    let digits := digits.take (digits.length - trailing)
    let power := decimal.power + trailing
    let point := power + digits.length
    if 0 ≤ power && point ≤ 16 then
      String.ofList (digits ++ zeros power.toNat ++ ['.', '0'])
    else if 0 < point && point ≤ 16 then
      String.ofList (digits.take point.toNat ++ '.' :: digits.drop point.toNat)
    else if -5 < point && point ≤ 0 then
      String.ofList ('0' :: '.' :: zeros (-point).toNat ++ digits)
    else
      let fraction := if digits.length = 1 then [] else '.' :: digits.drop 1
      String.ofList (digits.take 1 ++ fraction) ++ "e" ++ toString (point - 1)

end Binary

end Gll.Decimal
