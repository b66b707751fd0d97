import Gll.Unicode.Property

/-!
Quoted characters and texts. A character stands for itself when it can be seen on its own; one that
cannot (a control, a separator other than the space, a combining mark, an unassigned code point) is
written by its number, and the quote, the backslash and the common controls have short escapes.

The printable ASCII characters are told by their numbers, all others by their general category.
-/

set_option autoImplicit false

namespace Gll.Text

open Gll.Unicode

/-- Whether a character is shown as itself inside quotes. -/
def isShown (c : Char) : Bool :=
  if c.toNat < 0x80 then 0x20 ≤ c.toNat && c.toNat < 0x7F
  else
    !(GeneralCategory.anyContains (GeneralCategory.separator ++ GeneralCategory.other) c.toNat)
      && !Property.graphemeExtend c.toNat

/-- A character written by its number, in hexadecimal without leading zeros. -/
def byNumber (c : Char) : List Char :=
  ['\\', 'u', '\x7b'] ++ Nat.toDigits 16 c.toNat ++ ['\x7d']

/-- One character of a text that is enclosed in `quote`. -/
def escaped (quote c : Char) : List Char :=
  if c = '\x00' then ['\\', '0']
  else if c = '\t' then ['\\', 't']
  else if c = '\n' then ['\\', 'n']
  else if c = '\r' then ['\\', 'r']
  else if c = '\\' then ['\\', '\\']
  else if c = quote then ['\\', quote]
  else if isShown c then [c]
  else byNumber c

/-- A character in single quotes. -/
def quotedChar (c : Char) : String :=
  String.ofList ('\'' :: escaped '\'' c ++ ['\''])

/-- A text in double quotes. -/
def quoted (text : String) : String :=
  String.ofList ('"' :: text.toList.flatMap (escaped '"') ++ ['"'])

end Gll.Text
