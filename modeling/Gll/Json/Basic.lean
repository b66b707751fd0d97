import Gll.Decimal.Shortest

/-!
JSON values as a reader finds them in a text. A text need not be JSON to the end: the value then
holds everything up to the first *flaw* and the flaw itself at that place. Whoever looks at the
value from left to right so meets its contents and its flaw in the order of the text, and decides
which of two faults comes first.

Objects keep their members in order, and repeated keys.
-/

set_option autoImplicit false

namespace Gll

namespace Json

/-- Why a text is not JSON. -/
inductive Flaw where
  /-- The text ends too early. -/
  | ended
  /-- Something stands where it must not. -/
  | malformed
deriving DecidableEq, Repr

/-- The value of a number. Integers that fit 64 bits are exact, everything else is rounded. -/
inductive Number where
  | unsigned (value : Nat)
  /-- The negative of `value`, which is not zero. -/
  | negative (value : Nat)
  | float (isNegative : Bool) (value : Decimal.Binary)
  /-- Too large for a rounded number. -/
  | outOfRange
deriving Repr

/-- A number as it is shown to the user. -/
def Number.text : Number → String
  | unsigned value => "integer `" ++ toString value ++ "`"
  | negative value => "integer `-" ++ toString value ++ "`"
  | float isNegative value =>
    "floating point `" ++ (if isNegative then "-" else "") ++ value.text ++ "`"
  | outOfRange => "number out of range"

end Json

/-- A JSON value, or the part of it before a flaw. -/
inductive Json where
  | null
  | bool (value : Bool)
  | number (value : Json.Number)
  /-- The text ends inside a number. -/
  | unfinishedNumber
  | string (value : String)
  /-- A string with an escaped surrogate that has no partner: it is a string of JSON, but no text.
  The string may have a flaw after that. -/
  | unpaired (flaw : Option Json.Flaw)
  /-- An array; with a flaw, the items that come before it. -/
  | array (items : List Json) (flaw : Option Json.Flaw)
  /-- An object; with a flaw, the members that come before it. A key that is no text is `none`. -/
  | object (members : List (Option String × Json)) (flaw : Option Json.Flaw)
  /-- A flaw where a value should begin, or inside a literal or a string. -/
  | flawed (flaw : Json.Flaw)
deriving Repr

namespace Json

/-- Whether a value is broken off by a flaw. -/
def isFlawed : Json → Bool
  | unfinishedNumber => true
  | unpaired flaw => flaw.isSome
  | array _ flaw => flaw.isSome
  | object _ flaw => flaw.isSome
  | flawed _ => true
  | _ => false

/-! ## The first fault -/

mutual

/-- The flaw of a value that is skipped: strings need not be texts, numbers may have any size and
nesting any depth. A number that the text breaks off is malformed then. -/
def flawWhenSkipped : Json → Option Flaw
  | unfinishedNumber => some .malformed
  | unpaired flaw => flaw
  | array items flaw => (flawOfItems items).or flaw
  | object members flaw => (flawOfMembers members).or flaw
  | flawed flaw => some flaw
  | _ => none

/-- The first flaw in skipped items. -/
def flawOfItems : List Json → Option Flaw
  | [] => none
  | item :: rest => (flawWhenSkipped item).or (flawOfItems rest)

/-- The first flaw in skipped members. -/
def flawOfMembers : List (Option String × Json) → Option Flaw
  | [] => none
  | (_, value) :: rest => (flawWhenSkipped value).or (flawOfMembers rest)

end

mutual

/-- The first fault of a value that is read as a whole, inside at most `levels` further arrays and
objects: a flaw, a string that is no text, a number out of range, or too deep nesting. -/
def faultWithin (levels : Nat) : Json → Option Flaw
  | number .outOfRange => some .malformed
  | unfinishedNumber => some .ended
  | unpaired _ => some .malformed
  | array items flaw =>
    if levels = 0 then some .malformed else (faultOfItems (levels - 1) items).or flaw
  | object members flaw =>
    if levels = 0 then some .malformed else (faultOfMembers (levels - 1) members).or flaw
  | flawed flaw => some flaw
  | _ => none

/-- The first fault in items. -/
def faultOfItems (levels : Nat) : List Json → Option Flaw
  | [] => none
  | item :: rest => (faultWithin levels item).or (faultOfItems levels rest)

/-- The first fault in members. -/
def faultOfMembers (levels : Nat) : List (Option String × Json) → Option Flaw
  | [] => none
  | (none, _) :: _ => some .malformed
  | (some _, value) :: rest => (faultWithin levels value).or (faultOfMembers levels rest)

end

end Json

end Gll
