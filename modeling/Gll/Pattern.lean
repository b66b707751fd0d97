import Gll.Regex.Meaning

/-!
Patterns for single characters. A pattern is a regular expression that has to match the one
character from its beginning to its end; its text is put into a group before it is read, so that the
end is asked for once, after the group.
-/

set_option autoImplicit false

namespace Gll

/-- Why a pattern cannot be compiled. -/
inductive PatternError where
  /-- There is a flag that is not known. -/
  | flags
  /-- The source is at fault. -/
  | source (error : Regex.RegexError)
deriving DecidableEq, Repr

/-- A compiled pattern, with the text that it was written as. -/
structure Pattern where
  source : String
  caseInsensitive : Bool
  expr : Regex.Expr

namespace Pattern

/-- The text that is compiled for a source. -/
def wrap (caseInsensitive : Bool) (source : String) : String :=
  (if caseInsensitive then "(?i:" else "(?:") ++ source ++ ")\\z"

/-- Compiles a source. The only flag is `i`, which may come more than once. Flags are looked at
before the source. -/
def compile (source : String) (flags : Option String) : Except PatternError Pattern :=
  let flags := (flags.getD "").toList
  if flags.all (· == 'i') then
    let caseInsensitive := !flags.isEmpty
    match Regex.compile (wrap caseInsensitive source) with
    | .ok expr => .ok ⟨source, caseInsensitive, expr⟩
    | .error error => .error (.source error)
  else .error .flags

/-- Whether a pattern matches a character. -/
def matchesChar (pattern : Pattern) (c : Char) : Bool := pattern.expr.matchesAtStart c

/-- A pattern as it is shown: `/[a-z]/i`. -/
def text (pattern : Pattern) : String :=
  "/" ++ pattern.source ++ "/" ++ (if pattern.caseInsensitive then "i" else "")

end Pattern

end Gll
