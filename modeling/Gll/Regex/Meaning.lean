import Gll.Regex.Expr
import Gll.Regex.Reader

/-!
From regular expressions as written to what they mean. Flags are carried along the expression and
put back at the end of a group.

Without the flag `u` an expression is about bytes; what could match a byte that is not a character
of ASCII is refused, since a text in UTF-8 would be cut inside a character.
-/

set_option autoImplicit false

namespace Gll.Regex

/-- The flags in force. -/
structure Flags where
  caseInsensitive : Bool
  multiLine : Bool
  dotMatchesNewLine : Bool
  unicode : Bool
  crlf : Bool
deriving DecidableEq, Repr

namespace Flags

/-- The flags at the beginning of an expression. -/
def initial : Flags := ⟨false, false, false, true, false⟩

/-- The flags after some of them are switched. Greed and blanks do not matter any more. -/
def apply (flags : Flags) (settings : FlagSettings) : Flags :=
  settings.foldl (fun flags (flag, on) =>
    match flag with
    | .caseInsensitive => { flags with caseInsensitive := on }
    | .multiLine => { flags with multiLine := on }
    | .dotMatchesNewLine => { flags with dotMatchesNewLine := on }
    | .unicode => { flags with unicode := on }
    | .crlf => { flags with crlf := on }
    | .swapGreed | .ignoreWhitespace => flags) flags

end Flags

/-! ## Sets -/

namespace CodeSet

/-- A set of bytes, if all of them are characters of ASCII. -/
def requireAscii (set : CodeSet) : Option CodeSet :=
  if (List.range 128).all fun i => !set (128 + i) then some set else none

/-- Folds and negates a set, as the flags and the writer ask for. -/
def finish (flags : Flags) (negated : Bool) (set : CodeSet) : Option CodeSet :=
  if flags.unicode then
    let set := if flags.caseInsensitive then set.foldCase else set
    some (if negated then fun code => !set code else set)
  else
    let set := if flags.caseInsensitive then set.foldAscii else set
    requireAscii (if negated then fun code => code < 256 && !set code else set)

end CodeSet

/-- The element of a set that a character stands for. -/
def CharLiteral.element? (flags : Flags) (literal : CharLiteral) : Option Nat :=
  if flags.unicode || literal.char.toNat ≤ 0x7F then some literal.char.toNat else none

/-- The elements of a one-letter class. -/
def PerlClass.elements? (flags : Flags) (cls : PerlClass) (negated : Bool) : Option CodeSet :=
  if flags.unicode then some (if negated then fun code => !cls.codes code else cls.codes)
  else CodeSet.requireAscii (if negated then fun code => code < 256 && !cls.bytes code
    else cls.bytes)

/-- The elements with a property. -/
def PropertyQuery.elements? (flags : Flags) (query : PropertyQuery) (negated : Bool) :
    Option CodeSet :=
  if flags.unicode then do (← query.codes?).finish flags negated else none

mutual

/-- The elements of a set as written. -/
def CharSet.elements? (flags : Flags) : CharSet → Option CodeSet
  | .empty => some .empty
  | .literal char => (char.element? flags).map CodeSet.single
  | .range first last => do
    return CodeSet.between (← first.element? flags) (← last.element? flags)
  | .ascii cls negated => cls.codes.finish flags negated
  | .perl cls negated => cls.elements? flags negated
  | .property query negated => query.elements? flags negated
  | .bracketed negated content => do (← content.elements? flags).finish flags negated
  | .union items => CharSet.unionElements? flags items
  | .combined operator left right => do
    let left ← left.elements? flags
    let right ← right.elements? flags
    let fold := fun set : CodeSet =>
      if !flags.caseInsensitive then set
      else if flags.unicode then set.foldCase
      else set.foldAscii
    return CodeSet.combine operator (fold left) (fold right)

/-- The elements of any of some sets. -/
def CharSet.unionElements? (flags : Flags) : List CharSet → Option CodeSet
  | [] => some .empty
  | item :: rest => do
    return (← item.elements? flags).union (← CharSet.unionElements? flags rest)

end

/-! ## Expressions -/

/-- The characters that a character stands for. -/
def CharLiteral.expr? (flags : Flags) (literal : CharLiteral) : Option Expr :=
  let code := literal.char.toNat
  if flags.unicode then
    some (.chars (if flags.caseInsensitive then (CodeSet.single code).foldCase else .single code))
  else if literal.isByte && 0x7F < code then none
  else
    some (.chars (if flags.caseInsensitive then (CodeSet.single code).foldAscii
      else .single code))

/-- The characters that a dot stands for: all of them, or all that do not end a line. -/
def dotExpr? (flags : Flags) : Option Expr :=
  if !flags.unicode then none
  else if flags.dotMatchesNewLine then some (.chars fun _ => true)
  else if flags.crlf then some (.chars fun code => code != 0x0A && code != 0x0D)
  else some (.chars fun code => code != 0x0A)

/-- The test that is written as an assertion. -/
def Assertion.look (flags : Flags) (assertion : Assertion) : Look :=
  let word := fun look : Look => if flags.unicode then .unicodeWord else look
  match assertion with
  | startLine =>
    if !flags.multiLine then .start else if flags.crlf then .startLineCrlf else .startLine
  | endLine => if !flags.multiLine then .stop else if flags.crlf then .endLineCrlf else .endLine
  | startText => .start
  | endText => .stop
  | wordBoundary => word .wordBoundary
  | notWordBoundary => word .notWordBoundary
  | wordStart => word .wordStart
  | wordEnd => word .wordEnd
  | wordStartHalf => word .wordStartHalf
  | wordEndHalf => word .wordEndHalf

mutual

/-- Resolves an expression under the flags in force, which it may change. -/
def Tree.resolve : Tree → Flags → Option (Expr × Flags)
  | .empty, mode => some (.empty, mode)
  | .flags settings, mode => some (.empty, mode.apply settings)
  | .literal char, mode => do return (← char.expr? mode, mode)
  | .dot, mode => do return (← dotExpr? mode, mode)
  | .assertion test, mode => some (.look (test.look mode), mode)
  | .perl cls negated, mode => do return (.chars (← cls.elements? mode negated), mode)
  | .property query negated, mode => do return (.chars (← query.elements? mode negated), mode)
  | .bracketed negated content, mode => do
    return (.chars (← (← content.elements? mode).finish mode negated), mode)
  | .repetition least most content, mode => do
    let (content, mode) ← content.resolve mode
    return (if most = some 0 then .empty else .repetition least most content, mode)
  | .group settings content, mode => do
    let (content, _) ← content.resolve (mode.apply settings)
    return (content, mode)
  | .alternation branches, mode => do
    let (branches, mode) ← Tree.resolveAll branches mode
    return (.alternation branches, mode)
  | .concatenation parts, mode => do
    let (parts, mode) ← Tree.resolveAll parts mode
    return (.concatenation parts, mode)

/-- Resolves expressions from left to right, each under the flags that the one before leaves. -/
def Tree.resolveAll : List Tree → Flags → Option (List Expr × Flags)
  | [], mode => some ([], mode)
  | part :: rest, mode => do
    let (part, mode) ← part.resolve mode
    let (rest, mode) ← Tree.resolveAll rest mode
    return (part :: rest, mode)

end

/-! ## From text to meaning -/

/-- Why a text cannot be used as an expression. -/
inductive RegexError where
  /-- The text is no regular expression, or it could match a part of a character. -/
  | invalid
  /-- The expression tests for boundaries of words of any letters. -/
  | unicodeWordBoundary
deriving DecidableEq, Repr

/-- What the user is told. -/
def RegexError.message : RegexError → String
  | invalid => "error building NFA"
  | unicodeWordBoundary =>
    "unsupported regex feature for DFAs: cannot build DFAs for regexes with Unicode word "
      ++ "boundaries; switch to ASCII word boundaries, or heuristically enable Unicode word "
      ++ "boundaries or use a different regex engine"

/-- The meaning of the regular expression that a text writes down. -/
def compile (text : String) : Except RegexError Expr :=
  match (parse? text).bind fun tree => tree.resolve .initial with
  | none => .error .invalid
  | some (expr, _) =>
    if expr.usesUnicodeWords then .error .unicodeWordBoundary else .ok expr

end Gll.Regex
