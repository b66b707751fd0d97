import Gll.Json.Basic

/-!
The value of a number literal. The digits are gathered into one whole number as long as it fits 64
bits; the digits that do not fit only move the point. The result is the whole number, or that number
rounded and then multiplied or divided once by a power of ten.
-/

set_option autoImplicit false

namespace Gll.Json

open Decimal

/-- A number literal in parts: its digits are values from 0 to 9. -/
structure Literal where
  negative : Bool
  whole : List Nat
  fraction : Option (List Nat)
  /-- The exponent: whether it is negative, and its digits. -/
  power : Option (Bool × List Nat)
deriving Repr

namespace Literal

/-- Appends digits to a number as long as it stays below `2 ^ 64`; also counts the digits taken. -/
def gather (number : Nat) : List Nat → Nat × Nat
  | [] => (number, 0)
  | digit :: rest =>
    if number * 10 + digit < Nat.pow 2 64 then
      let (result, count) := gather (number * 10 + digit) rest
      (result, count + 1)
    else (number, 0)

/-- Divides by `10 ^ power`, at most `10 ^ 308` at a time, until nothing is left of the value. -/
def divide : Nat → Binary → Nat → Option Binary
  | 0, value, power => value.overPowerOfTen? power
  | rounds + 1, value, power =>
    if power ≤ 308 then value.overPowerOfTen? power
    else if value.mantissa = 0 then some value
    else do divide rounds (← value.overPowerOfTen? 308) (power - 308)

/-- The number `digits * 10 ^ power`, rounded. -/
def scaled (negative : Bool) (digits : Nat) (power : Int) : Number :=
  let value : Option Binary := do
    let start ← Binary.ofQuotient? ⟨digits, 1⟩
    if power < 0 then divide ((-power).toNat / 308) start (-power).toNat
    else if power ≤ 308 then start.timesPowerOfTen? power.toNat
    else if digits = 0 then some start
    else none
  match value with
  | some value => .float negative value
  | none => .outOfRange

/-- The value of a literal. -/
def value (literal : Literal) : Number :=
  let (whole, taken) := gather 0 literal.whole
  let dropped := literal.whole.length - taken
  match literal.fraction, literal.power with
  | none, none =>
    if dropped != 0 then scaled literal.negative whole dropped
    else if !literal.negative then .unsigned whole
    else if whole = 0 || Nat.pow 2 63 < whole then scaled true whole 0
    else .negative whole
  | fraction, power =>
    let (digits, places) := gather whole (fraction.getD [])
    let point : Int := (dropped : Int) - places
    match power with
    | none => scaled literal.negative digits point
    | some (down, powerDigits) =>
      let size : Nat := powerDigits.foldl (fun size digit => size * 10 + digit) 0
      if Nat.pow 2 31 ≤ size then
        if digits = 0 || down then .float literal.negative .zero else .outOfRange
      else
        scaled literal.negative digits
          (if down then point - (size : Int) else point + (size : Int))

end Literal

end Gll.Json
