/-!
Regular expressions as they are written. A tree keeps what the writer said, flags included; what it
means is decided when its flags are resolved.
-/

set_option autoImplicit false

namespace Gll.Regex

/-- The flags of a group or of the rest of one. -/
inductive Flag where
  | caseInsensitive
  | multiLine
  | dotMatchesNewLine
  | swapGreed
  | unicode
  | crlf
  | ignoreWhitespace
deriving DecidableEq, Repr

/-- Flags that are switched on or off, in the order in which they are written. -/
abbrev FlagSettings := List (Flag × Bool)

/-- What a position can be tested for. -/
inductive Assertion where
  | startLine
  | endLine
  | startText
  | endText
  | wordBoundary
  | notWordBoundary
  | wordStart
  | wordEnd
  | wordStartHalf
  | wordEndHalf
deriving DecidableEq, Repr

/-- The classes with one-letter names. -/
inductive PerlClass where
  | digit
  | space
  | word
deriving DecidableEq, Repr

/-- The classes that are named inside brackets, as in `[[:alpha:]]`. -/
inductive AsciiClass where
  | alnum
  | alpha
  | ascii
  | blank
  | cntrl
  | digit
  | graph
  | lower
  | print
  | punct
  | space
  | upper
  | word
  | xdigit
deriving DecidableEq, Repr

/-- How a character property is asked for. -/
inductive PropertyQuery where
  | named (name : String)
  | valued (name value : String)
deriving DecidableEq, Repr

/-- What two sets of characters are combined to. -/
inductive SetOperator where
  | intersection
  | difference
  | symmetricDifference
deriving DecidableEq, Repr

/-- A character, and whether it is written as `\xNN`, which may also mean a byte. -/
structure CharLiteral where
  char : Char
  isByte : Bool
deriving DecidableEq, Repr

/-- A set of characters, as it is written between brackets. -/
inductive CharSet where
  | empty
  | literal (literal : CharLiteral)
  | range (first last : CharLiteral)
  | ascii (cls : AsciiClass) (negated : Bool)
  | perl (cls : PerlClass) (negated : Bool)
  | property (query : PropertyQuery) (negated : Bool)
  | bracketed (negated : Bool) (content : CharSet)
  | union (items : List CharSet)
  | combined (operator : SetOperator) (left right : CharSet)
deriving Repr

/-- A regular expression. -/
inductive Tree where
  | empty
  /-- Flags for the rest of the enclosing group. -/
  | flags (settings : FlagSettings)
  | literal (literal : CharLiteral)
  | dot
  | assertion (assertion : Assertion)
  | perl (cls : PerlClass) (negated : Bool)
  | property (query : PropertyQuery) (negated : Bool)
  | bracketed (negated : Bool) (content : CharSet)
  /-- At least `least` and, if there is a bound, at most `most` times. -/
  | repetition (least : Nat) (most : Option Nat) (content : Tree)
  | group (settings : FlagSettings) (content : Tree)
  | alternation (branches : List Tree)
  | concatenation (parts : List Tree)
deriving Repr

/-! ## Nesting -/

/-- The tree of a list of parts: a single part stands for itself. -/
def Tree.ofParts : List Tree → Tree
  | [] => .empty
  | [part] => part
  | parts => .concatenation parts

/-- The set of a list of items: a single item stands for itself. -/
def CharSet.ofItems : List CharSet → CharSet
  | [] => .empty
  | [item] => item
  | items => .union items

mutual

/-- How deep the parts of a set are nested. -/
def CharSet.depth : CharSet → Nat
  | .bracketed _ content => content.depth + 1
  | .union items => CharSet.depthOfItems items + 1
  | .combined _ left right => max left.depth right.depth + 1
  | _ => 0

/-- The greatest depth of some sets. -/
def CharSet.depthOfItems : List CharSet → Nat
  | [] => 0
  | item :: rest => max item.depth (CharSet.depthOfItems rest)

end

mutual

/-- How deep the parts of a regular expression are nested. -/
def Tree.depth : Tree → Nat
  | .bracketed _ content => content.depth + 1
  | .repetition _ _ content => content.depth + 1
  | .group _ content => content.depth + 1
  | .alternation branches => Tree.depthOfParts branches + 1
  | .concatenation parts => Tree.depthOfParts parts + 1
  | _ => 0

/-- The greatest depth of some trees. -/
def Tree.depthOfParts : List Tree → Nat
  | [] => 0
  | part :: rest => max part.depth (Tree.depthOfParts rest)

end

end Gll.Regex
