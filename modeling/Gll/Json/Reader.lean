import Gll.Json.Number

/-!
Reading JSON. The reader works on the characters of the text and gives, with every value, the
characters after it. It never fails: where the text is not JSON, the value holds the flaw, and the
characters after it no longer matter.
-/

set_option autoImplicit false

namespace Gll.Json

/-- The blanks between the parts of a value. -/
def isBlank (c : Char) : Bool := c == ' ' || c == '\n' || c == '\t' || c == '\r'

/-- The text after its leading blanks. -/
def skipBlanks (text : List Char) : List Char := text.dropWhile isBlank

/-! ## Literals and numbers -/

/-- Expects the rest of a word such as `true`. -/
def readWord (value : Json) : List Char → List Char → Json × List Char
  | [], text => (value, text)
  | _ :: _, [] => (.flawed .ended, [])
  | expected :: word, c :: text =>
    if expected = c then readWord value word text else (.flawed .malformed, [])

/-- The values of the leading digits of a text, and the text after them. -/
def digits (text : List Char) : List Nat × List Char :=
  ((text.takeWhile Char.isDigit).map fun c => c.toNat - '0'.toNat, text.dropWhile Char.isDigit)

/-- Reads the exponent of a number, if there is one. -/
def readPower (literal : Literal) (text : List Char) : Json × List Char :=
  match text with
  | c :: text =>
    if c == 'e' || c == 'E' then
      let (down, text) :=
        match text with
        | '-' :: text => (true, text)
        | '+' :: text => (false, text)
        | text => (false, text)
      match text, digits text with
      | [], _ => (.unfinishedNumber, [])
      | _, ([], _) => (.flawed .malformed, [])
      | _, (power, text) =>
        (.number { literal with power := some (down, power) }.value, text)
    else (.number literal.value, c :: text)
  | [] => (.number literal.value, [])

/-- Reads what follows the whole part of a number. -/
def readFraction (literal : Literal) (text : List Char) : Json × List Char :=
  match text with
  | '.' :: text =>
    match text, digits text with
    | [], _ => (.unfinishedNumber, [])
    | _, ([], _) => (.flawed .malformed, [])
    | _, (fraction, text) => readPower { literal with fraction := some fraction } text
  | text => readPower literal text

/-- Reads a number after its sign. The whole part has no leading zeros. -/
def readNumber (negative : Bool) (text : List Char) : Json × List Char :=
  match text, digits text with
  | [], _ => (.unfinishedNumber, [])
  | _, ([], _) => (.flawed .malformed, [])
  | _, (0 :: _ :: _, _) => (.flawed .malformed, [])
  | _, (whole, text) => readFraction ⟨negative, whole, none, none⟩ text

/-! ## Strings -/

/-- The value of a hexadecimal digit. -/
def hexDigit? (c : Char) : Option Nat :=
  if '0' ≤ c && c ≤ '9' then some (c.toNat - '0'.toNat)
  else if 'a' ≤ c && c ≤ 'f' then some (c.toNat - 'a'.toNat + 10)
  else if 'A' ≤ c && c ≤ 'F' then some (c.toNat - 'A'.toNat + 10)
  else none

/-- The four digits of an escape by number. A text with less than four bytes left ends too early,
whatever they are. -/
def readHex (text : List Char) : Except Flaw (Nat × List Char) :=
  match text with
  | a :: b :: c :: d :: rest =>
    match hexDigit? a, hexDigit? b, hexDigit? c, hexDigit? d with
    | some a, some b, some c, some d => .ok (((a * 16 + b) * 16 + c) * 16 + d, rest)
    | _, _, _, _ => .error .malformed
  | short =>
    if short.foldl (fun size c => size + c.utf8Size) 0 < 4 then .error .ended else .error .malformed

/-- The character that a one-letter escape stands for. -/
def shortEscape? : Char → Option Char
  | '"' => some '"'
  | '\\' => some '\\'
  | '/' => some '/'
  | 'b' => some '\x08'
  | 'f' => some '\x0c'
  | 'n' => some '\n'
  | 'r' => some '\r'
  | 't' => some '\t'
  | _ => none

/-- Skips the rest of a string, in which surrogates are not paired up. -/
def skipString : Nat → List Char → Except Flaw (List Char)
  | 0, _ => .error .ended
  | _ + 1, [] => .error .ended
  | _ + 1, '"' :: text => .ok text
  | _ + 1, '\\' :: [] => .error .ended
  | fuel + 1, '\\' :: 'u' :: text => do
    let (_, text) ← readHex text
    skipString fuel text
  | fuel + 1, '\\' :: c :: text =>
    if (shortEscape? c).isSome then skipString fuel text else .error .malformed
  | fuel + 1, c :: text =>
    if c.toNat < 0x20 then .error .malformed else skipString fuel text

/-- What reading a string comes to. -/
inductive StringRead where
  | text (value : String) (rest : List Char)
  /-- A string that is no text, and what follows it. -/
  | unpaired (rest : Except Flaw (List Char))
  | flawed (flaw : Flaw)

/-- The code point of a pair of surrogates. -/
def pairSurrogates (high low : Nat) : Char :=
  Char.ofNat (0x10000 + (high - 0xD800) * 0x400 + (low - 0xDC00))

/-- Reads a string after its opening quote; `done` holds its characters so far, the last first. -/
def readString : Nat → List Char → List Char → StringRead
  | 0, _, _ => .flawed .ended
  | _ + 1, _, [] => .flawed .ended
  | _ + 1, done, '"' :: text => .text (String.ofList done.reverse) text
  | _ + 1, _, '\\' :: [] => .flawed .ended
  | fuel + 1, done, '\\' :: 'u' :: text =>
    match readHex text with
    | .error flaw => .flawed flaw
    | .ok (code, text) =>
      if 0xDC00 ≤ code && code ≤ 0xDFFF then .unpaired (skipString fuel text)
      else if 0xD800 ≤ code && code ≤ 0xDBFF then
        match text with
        | [] => .flawed .ended
        | '\\' :: [] => .flawed .ended
        | '\\' :: 'u' :: second =>
          match readHex second with
          | .error flaw => .flawed flaw
          | .ok (low, rest) =>
            if 0xDC00 ≤ low && low ≤ 0xDFFF then
              readString fuel (pairSurrogates code low :: done) rest
            else .unpaired (skipString fuel text)
        | text => .unpaired (skipString fuel text)
      else readString fuel (Char.ofNat code :: done) text
  | fuel + 1, done, '\\' :: c :: text =>
    match shortEscape? c with
    | some c => readString fuel (c :: done) text
    | none => .flawed .malformed
  | fuel + 1, done, c :: text =>
    if c.toNat < 0x20 then .flawed .malformed else readString fuel (c :: done) text

/-- Reads a string after its opening quote, as a value. -/
def readStringValue (text : List Char) : Json × List Char :=
  match readString (text.length + 1) [] text with
  | .text value rest => (.string value, rest)
  | .unpaired (.ok rest) => (.unpaired none, rest)
  | .unpaired (.error flaw) => (.unpaired (some flaw), [])
  | .flawed flaw => (.flawed flaw, [])

/-! ## Values -/

mutual

/-- Reads a value and the blanks before it. -/
def readValue : Nat → List Char → Json × List Char
  | 0, _ => (.flawed .malformed, [])
  | fuel + 1, text =>
    match skipBlanks text with
    | [] => (.flawed .ended, [])
    | 'n' :: text => readWord .null ['u', 'l', 'l'] text
    | 't' :: text => readWord (.bool true) ['r', 'u', 'e'] text
    | 'f' :: text => readWord (.bool false) ['a', 'l', 's', 'e'] text
    | '"' :: text => readStringValue text
    | '-' :: text => readNumber true text
    | '[' :: text =>
      let (items, flaw, rest) := readItems fuel true text
      (.array items flaw, rest)
    | '\x7b' :: text =>
      let (members, flaw, rest) := readMembers fuel true text
      (.object members flaw, rest)
    | c :: text =>
      if c.isDigit then readNumber false (c :: text) else (.flawed .malformed, [])

/-- Reads the items of an array up to its end; `first` says that none was read yet. -/
def readItems : Nat → Bool → List Char → List Json × Option Flaw × List Char
  | 0, _, _ => ([], some .malformed, [])
  | fuel + 1, first, text =>
    match skipBlanks text with
    | [] => ([], some .ended, [])
    | ']' :: text => ([], none, text)
    | c :: text =>
      if first || c == ',' then
        let (item, rest) := readValue fuel (if first then c :: text else text)
        if item.isFlawed then ([item], some .malformed, [])
        else
          let (items, flaw, rest) := readItems fuel false rest
          (item :: items, flaw, rest)
      else ([], some .malformed, [])

/-- Reads the members of an object up to its end; `first` says that none was read yet. -/
def readMembers :
    Nat → Bool → List Char → List (Option String × Json) × Option Flaw × List Char
  | 0, _, _ => ([], some .malformed, [])
  | fuel + 1, first, text =>
    match skipBlanks text with
    | [] => ([], some .ended, [])
    | '\x7d' :: text => ([], none, text)
    | c :: text =>
      if first || c == ',' then
        match skipBlanks (if first then c :: text else text) with
        | [] => ([], some .ended, [])
        | '"' :: text =>
          match readString (text.length + 1) [] text with
          | .text key rest => readMember fuel (some key) rest
          | .unpaired (.ok rest) => readMember fuel none rest
          | .unpaired (.error flaw) => ([(none, .flawed flaw)], some flaw, [])
          | .flawed flaw => ([], some flaw, [])
        | _ => ([], some .malformed, [])
      else ([], some .malformed, [])

/-- Reads a member after its key, and the members after it. -/
def readMember :
    Nat → Option String → List Char → List (Option String × Json) × Option Flaw × List Char
  | 0, _, _ => ([], some .malformed, [])
  | fuel + 1, key, text =>
    match skipBlanks text with
    | [] => ([(key, .flawed .ended)], some .ended, [])
    | ':' :: text =>
      let (value, rest) := readValue fuel text
      if value.isFlawed then ([(key, value)], some .malformed, [])
      else
        let (members, flaw, rest) := readMembers fuel false rest
        ((key, value) :: members, flaw, rest)
    | _ => ([(key, .flawed .malformed)], some .malformed, [])

end

/-- A text as one value and what follows it. -/
structure Document where
  value : Json
  /-- Whether anything but blanks follows the value. -/
  hasMore : Bool

/-- Reads a text. Every call of the reader moves on by a character or is followed by one that does,
so the fuel does not run out. -/
def read (text : String) : Document :=
  let (value, rest) := readValue (3 * text.length + 3) text.toList
  ⟨value, !(skipBlanks rest).isEmpty⟩

end Gll.Json
