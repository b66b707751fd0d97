import Gll.Text.Quoted

/-!
Positions in the input. One is made for each step of a parse, by whoever feeds the input, and never
changes. Positions also bound spans: a node over `[first, last)` covers the symbols at the offsets
from that of `first` up to, and not with, that of `last`.
-/

set_option autoImplicit false

namespace Gll

/-- A point of the input. -/
inductive Position where
  /-- Before anything was read; it shares the offset of the first symbol. -/
  | beforeInput
  /-- At a symbol. -/
  | symbol (char : Char) (index : Nat)
  /-- After the whole input, of which `index` is the length. -/
  | afterInput (index : Nat)
deriving DecidableEq, Repr, Inhabited

namespace Position

instance : Hashable Position where
  hash
    | beforeInput => 0
    | symbol char index => mixHash 1 (mixHash (hash char.val) (hash index))
    | afterInput index => mixHash 2 (hash index)

/-- The offset of a position, as a bound of spans. -/
def offset : Position → Nat
  | beforeInput => 0
  | symbol _ index => index
  | afterInput index => index

/-- The symbol at a position. -/
def char? : Position → Option Char
  | symbol char _ => some char
  | _ => none

/-- A position as it is shown: `^`, `3:'c'` or `3:$`. -/
def text : Position → String
  | beforeInput => "^"
  | symbol char index => toString index ++ ":" ++ Text.quotedChar char
  | afterInput index => toString index ++ ":$"

end Position

/-- The offsets from `start` up to, and not with, `stop`. -/
structure Span where
  start : Nat
  stop : Nat
deriving DecidableEq, Repr, Inhabited

namespace Span

/-- The number of offsets in a span; there is none for a span that ends before it starts. -/
def length? (span : Span) : Option Nat :=
  if span.start ≤ span.stop then some (span.stop - span.start) else none

/-- Whether a span ends where it starts. -/
def isEmpty (span : Span) : Bool := span.start == span.stop

/-- A span as it is shown: `[0,3)`. -/
def text (span : Span) : String :=
  "[" ++ toString span.start ++ "," ++ toString span.stop ++ ")"

end Span

end Gll
