/-!
Text with colours. A printer says which *role* a piece of its text has; a *palette* decides which
escape sequence paints a role, if any. So the layout of a text does not depend on its colours, and
every painted piece is closed by the reset sequence before the next one begins.
-/

set_option autoImplicit false

namespace Gll.Text

/-- What a piece of text is painted for. -/
inductive Role where
  /-- Nonterminals, stack frames and positions. -/
  | name
  /-- Terminals and good news. -/
  | terminal
  /-- Ambiguity and bad news. -/
  | alarm
  /-- Spans, dots and handles. -/
  | faint
deriving DecidableEq, Repr

/-- Escape sequences for the roles, and the one that ends a painted piece. -/
structure Palette where
  blue : String
  green : String
  red : String
  dim : String
  reset : String
deriving DecidableEq, Repr

namespace Palette

/-- No colours. -/
def off : Palette := ⟨"", "", "", "", ""⟩

/-- The colours of an ANSI terminal. -/
def on : Palette := ⟨"\x1b[34m", "\x1b[32m", "\x1b[31m", "\x1b[2m", "\x1b[0m"⟩

/-- Colours on request. -/
def ofBool (enabled : Bool) : Palette := if enabled then on else off

/-- The sequence that paints a role. -/
def code (palette : Palette) : Role → String
  | .name => palette.blue
  | .terminal => palette.green
  | .alarm => palette.red
  | .faint => palette.dim

end Palette

/-- A piece of text, painted or plain. -/
structure Piece where
  role : Option Role
  text : String
deriving DecidableEq, Repr

/-- A text in pieces. -/
abbrev Styled := List Piece

/-- A plain piece. -/
def plain (text : String) : Styled := [⟨none, text⟩]

/-- A painted piece. -/
def paint (role : Role) (text : String) : Styled := [⟨some role, text⟩]

/-- A piece as it is written. -/
def Piece.render (palette : Palette) (piece : Piece) : String :=
  match piece.role with
  | none => piece.text
  | some role => palette.code role ++ piece.text ++ palette.reset

/-- A text in pieces as it is written. -/
def Styled.render (palette : Palette) : Styled → String
  | [] => ""
  | piece :: rest => piece.render palette ++ Styled.render palette rest

/-- Lines as a text: each is ended by a line feed. -/
def unlines (lines : List String) : String := String.join (lines.map (· ++ "\n"))

/-- As many spaces as asked for. -/
def spaces (count : Nat) : String := String.ofList (List.replicate count ' ')

/-- A text filled up with spaces on the right to a width, longer ones left alone. -/
def padRight (width : Nat) (text : String) : String := text ++ spaces (width - text.length)

end Gll.Text
