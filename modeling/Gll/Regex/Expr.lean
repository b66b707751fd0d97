import Gll.Regex.Property

/-!
What regular expressions mean for a text of one character.

An expression is matched from a place in the text to a place in the text, and in a text of one
character there are two, *before* and *after* it. So a match leads to a set of places, and an
expression denotes a map from places to such sets. Everything that consumes consumes the whole
character.
-/

set_option autoImplicit false

namespace Gll.Regex

/-- A test of the place between two characters. -/
inductive Look where
  | start
  | stop
  | startLine
  | endLine
  | startLineCrlf
  | endLineCrlf
  | wordBoundary
  | notWordBoundary
  | wordStart
  | wordEnd
  | wordStartHalf
  | wordEndHalf
  /-- A test for boundaries of words of any letters. It cannot be decided by the two characters
  beside the place when these are read in parts. -/
  | unicodeWord
deriving DecidableEq, Repr

/-- An expression with its flags resolved. -/
inductive Expr where
  | empty
  | chars (set : CodeSet)
  | look (look : Look)
  | repetition (least : Nat) (most : Option Nat) (content : Expr)
  | alternation (branches : List Expr)
  | concatenation (parts : List Expr)

/-! ## Places -/

/-- A set of places around the character. -/
structure Places where
  before : Bool
  after : Bool
deriving DecidableEq, Repr

namespace Places

/-- No place. -/
def none : Places := ⟨false, false⟩

/-- The places of either set. -/
def union (left right : Places) : Places :=
  ⟨left.before || right.before, left.after || right.after⟩

end Places

/-- The places that are reached from either place. -/
structure Reach where
  fromBefore : Places
  fromAfter : Places
deriving DecidableEq, Repr

namespace Reach

/-- Staying where one is. -/
def stay : Reach := ⟨⟨true, false⟩, ⟨false, true⟩⟩

/-- Going nowhere. -/
def none : Reach := ⟨.none, .none⟩

/-- The places that are reached from a set of places. -/
def image (reach : Reach) (places : Places) : Places :=
  (if places.before then reach.fromBefore else .none).union
    (if places.after then reach.fromAfter else .none)

/-- One after the other. -/
def andThen (first second : Reach) : Reach :=
  ⟨second.image first.fromBefore, second.image first.fromAfter⟩

/-- The one or the other. -/
def union (left right : Reach) : Reach :=
  ⟨left.fromBefore.union right.fromBefore, left.fromAfter.union right.fromAfter⟩

/-- As many times as given. -/
def power (reach : Reach) : Nat → Reach
  | 0 => stay
  | count + 1 => (power reach count).andThen reach

/-- Any number of times within bounds. No way leads back, so that three repetitions or more reach
what two of them reach, and counts above two need not be told apart. -/
def times (reach : Reach) (least : Nat) (most : Option Nat) : Reach :=
  let most := (most.getD 2).min 2
  let counts := (List.range 3).filter fun count => least.min 2 ≤ count && count ≤ most
  (counts.map reach.power).foldl union none

end Reach

/-! ## Meaning -/

/-- Whether a character belongs to words of ASCII. -/
def isWordChar (c : Char) : Bool := c.isAlphanum || c == '_'

/-- Whether a test succeeds between two characters of a text of one character: exactly one of the
two is there. -/
def Look.holds (look : Look) (left right : Option Char) : Bool :=
  let wordLeft := left.any isWordChar
  let wordRight := right.any isWordChar
  match look with
  | start => left.isNone
  | stop => right.isNone
  | startLine => left.all (· == '\n')
  | endLine => right.all (· == '\n')
  | startLineCrlf => left.all fun c => c == '\n' || c == '\r'
  | endLineCrlf => right.all fun c => c == '\n' || c == '\r'
  | wordBoundary => wordLeft != wordRight
  | notWordBoundary => wordLeft == wordRight
  | wordStart => !wordLeft && wordRight
  | wordEnd => wordLeft && !wordRight
  | wordStartHalf => !wordLeft
  | wordEndHalf => !wordRight
  | unicodeWord => false

mutual

/-- Where an expression leads in the text of one character `c`. -/
def Expr.reach (c : Char) : Expr → Reach
  | .empty => .stay
  | .chars set => ⟨⟨false, set c.toNat⟩, .none⟩
  | .look test => ⟨⟨test.holds none (some c), false⟩, ⟨false, test.holds (some c) none⟩⟩
  | .repetition least most content => (content.reach c).times least most
  | .alternation branches => Expr.reachAny c branches
  | .concatenation parts => Expr.reachAll c parts

/-- Where one of several expressions leads. -/
def Expr.reachAny (c : Char) : List Expr → Reach
  | [] => .none
  | branch :: rest => (branch.reach c).union (Expr.reachAny c rest)

/-- Where several expressions lead one after the other. -/
def Expr.reachAll (c : Char) : List Expr → Reach
  | [] => .stay
  | part :: rest => (part.reach c).andThen (Expr.reachAll c rest)

end

/-- Whether an expression has a match that begins at the beginning of the text of one character,
wherever it ends. -/
def Expr.matchesAtStart (expr : Expr) (c : Char) : Bool :=
  let places := (expr.reach c).fromBefore
  places.before || places.after

mutual

/-- Whether an expression tests for boundaries of words of any letters. -/
def Expr.usesUnicodeWords : Expr → Bool
  | .look .unicodeWord => true
  | .repetition _ _ content => content.usesUnicodeWords
  | .alternation branches => Expr.anyUsesUnicodeWords branches
  | .concatenation parts => Expr.anyUsesUnicodeWords parts
  | _ => false

/-- Whether one of several expressions does. -/
def Expr.anyUsesUnicodeWords : List Expr → Bool
  | [] => false
  | part :: rest => part.usesUnicodeWords || Expr.anyUsesUnicodeWords rest

end

end Gll.Regex
