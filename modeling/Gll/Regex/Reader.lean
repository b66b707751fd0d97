import Gll.Regex.Basic
import Gll.Unicode.Property

/-!
Reading regular expressions. The reader goes through the text once and keeps the open groups, and
inside brackets the open sets, on a stack. While the flag `x` is set, blanks and comments between
the parts of an expression are skipped.

All faults are one to the caller: a text is a regular expression or it is not.
-/

set_option autoImplicit false

namespace Gll.Regex

open Gll.Unicode

/-! ## The text being read -/

/-- The rest of the text, and whether blanks in it are skipped. -/
structure Cursor where
  rest : List Char
  skipsBlanks : Bool
deriving Repr

/-- A step of the reader: nothing if the text is at fault. -/
abbrev Reader := StateT Cursor Option

/-- Whether a character separates words. -/
def isBlank (c : Char) : Bool := Property.whiteSpace.contains c.toNat

/-- The text after a comment and the line feed that ends it. -/
def afterComment : List Char → List Char
  | [] => []
  | c :: text => if c = '\n' then text else afterComment text

/-- The text after its leading blanks and comments. -/
def skipIgnored : Nat → List Char → List Char
  | 0, text => text
  | _ + 1, [] => []
  | fuel + 1, c :: text =>
    if c = '#' then skipIgnored fuel (afterComment text)
    else if isBlank c then skipIgnored fuel text
    else c :: text

namespace Reader

/-- The fault. -/
def fault {α : Type} : Reader α := fun _ => none

/-- The rest of the text. -/
def rest : Reader (List Char) := fun cursor => some (cursor.rest, cursor)

/-- The next character, which must be there. -/
def peek : Reader Char := fun cursor =>
  match cursor.rest with
  | c :: _ => some (c, cursor)
  | [] => none

/-- Moves on by one character. -/
def bump : Reader Unit := fun cursor => some ((), { cursor with rest := cursor.rest.drop 1 })

/-- Skips blanks and comments, if they are to be skipped. -/
def bumpSpace : Reader Unit := fun cursor =>
  if cursor.skipsBlanks then
    some ((), { cursor with rest := skipIgnored (cursor.rest.length + 1) cursor.rest })
  else some ((), cursor)

/-- Moves on by one character and over blanks and comments. -/
def bumpBoth : Reader Unit := do
  bump
  bumpSpace

/-- Moves on over a given text, if it comes next. -/
def bumpIf (expected : List Char) : Reader Bool := fun cursor =>
  if expected.isPrefixOf cursor.rest then
    some (true, { cursor with rest := cursor.rest.drop expected.length })
  else some (false, cursor)

/-- Whether a certain character comes next. -/
def sees (c : Char) : Reader Bool := do return (← rest).head? == some c

/-- Sets the text back. -/
def setRest (text : List Char) : Reader Unit := fun cursor =>
  some ((), { cursor with rest := text })

/-- Switches the skipping of blanks. -/
def setSkipsBlanks (skips : Bool) : Reader Unit := fun cursor =>
  some ((), { cursor with skipsBlanks := skips })

/-- Whether blanks are skipped. -/
def skipsBlanks : Reader Bool := fun cursor => some (cursor.skipsBlanks, cursor)

/-- Takes turns, each with what the one before hands on, until one says that it was the last. There
may be as many as given. -/
def turns {α ι : Type} (turn : ι → Reader (α ⊕ ι)) : Nat → ι → Reader α
  | 0, _ => fault
  | fuel + 1, i => do
    match ← turn i with
    | .inl a => return a
    | .inr j => turns turn fuel j

/-- Takes turns until the last. Every turn but the last takes at least one character, so that the
number of turns is no bound. -/
def loop {α ι : Type} (turn : ι → Reader (α ⊕ ι)) (i : ι) : Reader α := do
  turns turn ((← rest).length + 1) i

/-- Gathers the next character if it satisfies a condition, and skips what is skipped after it. -/
def gatherTurn (condition : Char → Bool) (done : List Char) :
    Reader (List Char ⊕ List Char) := do
  match (← rest).head? with
  | some c =>
    if condition c then
      bumpBoth
      return .inr (c :: done)
    else return .inl done.reverse
  | none => return .inl done.reverse

/-- Gathers all characters that satisfy a condition from here on. -/
def gatherWhile (condition : Char → Bool) : Reader (List Char) := loop (gatherTurn condition) []

/-- The character after the next one, with the rule for blanks that decides whether a hyphen stands
for itself: blanks are looked through, and so is the first comment sign. -/
def peekSpace : Reader (Option Char) := do
  let text := (← rest).drop 1
  if ← skipsBlanks then
    let look : List Char → Option Char := fun text => (text.dropWhile isBlank).head?
    match text.dropWhile isBlank with
    | '#' :: after => return (look after).or text.head?
    | c :: _ => return some c
    | [] => return text.head?
  else return text.head?

end Reader

open Reader

/-! ## Escapes -/

/-- The characters with a meaning of their own. -/
def isMeta (c : Char) : Bool :=
  ['\\', '.', '+', '*', '?', '(', ')', '|', '[', ']', '\x7b', '\x7d', '^', '$', '#', '&', '-',
    '~'].contains c

/-- The characters that may be escaped to stand for themselves. -/
def isEscapable (c : Char) : Bool :=
  isMeta c || (c.toNat < 0x80 && !c.isAlphanum && c != '<' && c != '>')

/-- The value of a hexadecimal digit. -/
def hexValue? (c : Char) : Option Nat :=
  if '0' ≤ c && c ≤ '9' then some (c.toNat - '0'.toNat)
  else if 'a' ≤ c && c ≤ 'f' then some (c.toNat - 'a'.toNat + 10)
  else if 'A' ≤ c && c ≤ 'F' then some (c.toNat - 'A'.toNat + 10)
  else none

/-- The character of a number, if it is one. -/
def charOfNumber (digits : List Char) : Reader Char := fun cursor => do
  let value ← digits.foldlM (fun value c => do return value * 16 + (← hexValue? c)) 0
  if h : value.isValidChar then some (Char.ofNatAux value h, cursor) else none

/-- Reads `count` hexadecimal digits; `first` says that none was read yet. -/
def readDigits (first : Bool) : Nat → Reader (List Char)
  | 0 => return []
  | count + 1 => do
    unless first do bumpBoth
    let c ← peek
    if (hexValue? c).isNone then fault
    else return c :: (← readDigits false count)

/-- Reads an escape by number after the backslash. -/
def readHex : Reader CharLiteral := do
  let kind ← peek
  bumpBoth
  if (← peek) == '\x7b' then
    bumpBoth
    let digits ← gatherWhile (· != '\x7d')
    let _ ← peek
    bumpBoth
    if digits.isEmpty then fault else return ⟨← charOfNumber digits, false⟩
  else
    let count := if kind == 'x' then 2 else if kind == 'u' then 4 else 8
    let digits ← readDigits true count
    bumpBoth
    return ⟨← charOfNumber digits, kind == 'x'⟩

/-- The text before and after the first place where a given text stands. -/
def splitAt? (mark : List Char) : List Char → Option (List Char × List Char)
  | [] => none
  | c :: text =>
    if mark.isPrefixOf (c :: text) then some ([], (c :: text).drop mark.length)
    else (splitAt? mark text).map fun (before, after) => (c :: before, after)

/-- Understands the text between the braces of a property; also tells whether it is negated. -/
def propertyOfText (text : List Char) : PropertyQuery × Bool :=
  let valued := fun (name, value) =>
    PropertyQuery.valued (String.ofList name) (String.ofList value)
  match splitAt? ['!', '='] text with
  | some parts => (valued parts, true)
  | none =>
    match (splitAt? [':'] text).or (splitAt? ['='] text) with
    | some parts => (valued parts, false)
    | none => (.named (String.ofList text), false)

/-- Reads a property after the backslash: its name, and whether it is negated. -/
def readProperty : Reader (PropertyQuery × Bool) := do
  let negated := (← peek) == 'P'
  bumpBoth
  let c ← peek
  if c == '\x7b' then
    bumpBoth
    let text ← gatherWhile (· != '\x7d')
    let _ ← peek
    bump
    let (query, inverted) := propertyOfText text
    return (query, negated != inverted)
  else if c == '\\' then fault
  else
    bumpBoth
    return (.named (String.singleton c), negated)

/-- The special word boundary of a name. -/
def specialBoundary? (name : List Char) : Option Assertion :=
  if name = "start".toList then some .wordStart
  else if name = "end".toList then some .wordEnd
  else if name = "start-half".toList then some .wordStartHalf
  else if name = "end-half".toList then some .wordEndHalf
  else none

/-- Reads the name in braces that may follow a word boundary. What begins otherwise is left alone,
as it may be a repetition. -/
def readBoundary : Reader Assertion := do
  let before ← rest
  if before.head? == some '\x7b' then
    let isNameChar := fun c : Char => c.isAlpha || c == '-'
    bumpBoth
    if isNameChar (← peek) then
      let name ← gatherWhile isNameChar
      if (← peek) == '\x7d' then
        bump
        match specialBoundary? name with
        | some assertion => return assertion
        | none => fault
      else fault
    else
      setRest before
      return .wordBoundary
  else return .wordBoundary

/-- The character of a one-letter escape. -/
def controlEscape? : Char → Option Char
  | 'a' => some '\x07'
  | 'f' => some '\x0c'
  | 't' => some '\t'
  | 'n' => some '\n'
  | 'r' => some '\r'
  | 'v' => some '\x0b'
  | _ => none

/-- Reads an escape. -/
def readEscape : Reader Tree := do
  bump
  let c ← peek
  if c == 'x' || c == 'u' || c == 'U' then return .literal (← readHex)
  else if c == 'p' || c == 'P' then
    let (query, negated) ← readProperty
    return .property query negated
  else
    bump
    if isEscapable c then return .literal ⟨c, false⟩
    else
      match controlEscape? c with
      | some control => return .literal ⟨control, false⟩
      | none =>
        match c with
        | 'd' => return .perl .digit false
        | 'D' => return .perl .digit true
        | 's' => return .perl .space false
        | 'S' => return .perl .space true
        | 'w' => return .perl .word false
        | 'W' => return .perl .word true
        | 'A' => return .assertion .startText
        | 'z' => return .assertion .endText
        | 'b' => return .assertion (← readBoundary)
        | 'B' => return .assertion .notWordBoundary
        | '<' => return .assertion .wordStart
        | '>' => return .assertion .wordEnd
        | _ => fault

/-! ## Sets -/

/-- The set that a part of an expression is inside brackets. -/
def setOfTree : Tree → Reader CharSet
  | .literal literal => return .literal literal
  | .perl cls negated => return .perl cls negated
  | .property query negated => return .property query negated
  | _ => fault

/-- The character that bounds a range. -/
def boundOfTree : Tree → Reader CharLiteral
  | .literal literal => return literal
  | _ => fault

/-- Reads a character or an escape inside brackets. -/
def readSetItem : Reader Tree := do
  let c ← peek
  if c == '\\' then readEscape
  else
    bump
    return .literal ⟨c, false⟩

/-- Reads an item or a range inside brackets. -/
def readSetRange : Reader CharSet := do
  let first ← readSetItem
  bumpSpace
  let c ← peek
  let after ← peekSpace
  if c != '-' || after == some ']' || after == some '-' then setOfTree first
  else
    bumpBoth
    let _ ← peek
    let last ← readSetItem
    let first ← boundOfTree first
    let last ← boundOfTree last
    if first.char ≤ last.char then return .range first last else fault

/-- The classes by their names inside brackets. -/
def asciiClass? (name : List Char) : Option AsciiClass :=
  ([("alnum", .alnum), ("alpha", .alpha), ("ascii", .ascii), ("blank", .blank),
    ("cntrl", .cntrl), ("digit", .digit), ("graph", .graph), ("lower", .lower),
    ("print", .print), ("punct", .punct), ("space", .space), ("upper", .upper),
    ("word", .word), ("xdigit", .xdigit)] : List (String × AsciiClass)).lookup
      (String.ofList name)

/-- The class that is named at the beginning of a text, as in `[:^alpha:]`; also whether it is
negated, and the text after it. -/
def namedClass? (text : List Char) : Option (CharSet × List Char) :=
  match text with
  | '[' :: ':' :: text =>
    let (negated, text) :=
      match text with
      | '^' :: text => (true, text)
      | text => (false, text)
    match text.dropWhile (· != ':') with
    | ':' :: ']' :: after =>
      (asciiClass? (text.takeWhile (· != ':'))).map fun cls => (.ascii cls negated, after)
    | _ => none
  | _ => none

/-- What is open while a set is read: a bracket, with the items around it, or an operator, with its
left side. Items are in reverse. -/
inductive OpenSet where
  | bracket (around : List CharSet) (negated : Bool)
  | operator (operator : SetOperator) (left : CharSet)

/-- Applies the operator that is open, if one is. -/
def closeOperator (stack : List OpenSet) (right : CharSet) : CharSet × List OpenSet :=
  match stack with
  | .operator operator left :: stack => (.combined operator left right, stack)
  | stack => (right, stack)

/-- Reads one of the hyphens with which a set may begin, if it comes next. -/
def hyphenTurn (items : List CharSet) : Reader (List CharSet ⊕ List CharSet) := do
  if (← peek) == '-' then
    bumpBoth
    return .inr (.literal ⟨'-', false⟩ :: items)
  else return .inl items

/-- Reads the beginning of a set: whether it is negated, and the hyphens or the closing bracket
that stand for themselves there. -/
def openBracket : Reader (Bool × List CharSet) := do
  bumpBoth
  let negated := (← peek) == '^'
  if negated then bumpBoth
  let items ← loop hyphenTurn []
  let c ← peek
  if items.isEmpty && c == ']' then
    bumpBoth
    let _ ← peek
    return (negated, [.literal ⟨']', false⟩])
  else return (negated, items)

/-- The operator that comes next inside brackets. -/
def operatorAhead (text : List Char) : Option SetOperator :=
  match text with
  | '&' :: '&' :: _ => some .intersection
  | '-' :: '-' :: _ => some .difference
  | '~' :: '~' :: _ => some .symmetricDifference
  | _ => none

/-- Reads one thing inside brackets, given what is open around it and the items of the innermost set
so far, in reverse. The last thing is the bracket that closes the first. -/
def setTurn (inside : List OpenSet × List CharSet) :
    Reader (Tree ⊕ List OpenSet × List CharSet) := do
  let (stack, items) := inside
  bumpSpace
  let text ← rest
  match text with
  | [] => fault
  | '[' :: _ =>
    match namedClass? text with
    | some (cls, after) => do
      setRest after
      return .inr (stack, cls :: items)
    | none => do
      let (negated, inner) ← openBracket
      return .inr (.bracket items negated :: stack, inner)
  | ']' :: _ => do
    bump
    match closeOperator stack (CharSet.ofItems items.reverse) with
    | (content, .bracket around negated :: stack) =>
      if stack.isEmpty then return .inl (.bracketed negated content)
      else return .inr (stack, .bracketed negated content :: around)
    | _ => fault
  | _ =>
    match operatorAhead text with
    | some operator => do
      setRest (text.drop 2)
      let (left, stack) := closeOperator stack (CharSet.ofItems items.reverse)
      return .inr (.operator operator left :: stack, [])
    | none => do
      let item ← readSetRange
      return .inr (stack, item :: items)

/-- Reads a set in brackets. -/
def readBracketed : Reader Tree := do
  let (negated, items) ← openBracket
  loop setTurn ([.bracket [] negated], items)

/-! ## Groups -/

/-- The flag of a letter. -/
def flag? : Char → Option Flag
  | 'i' => some .caseInsensitive
  | 'm' => some .multiLine
  | 's' => some .dotMatchesNewLine
  | 'U' => some .swapGreed
  | 'u' => some .unicode
  | 'R' => some .crlf
  | 'x' => some .ignoreWhitespace
  | _ => none

/-- The flags that were read so far, in reverse, whether they are switched off, and whether the
minus sign that says so came last. -/
structure OpenFlags where
  negated : Bool
  dangling : Bool
  settings : FlagSettings

/-- Reads one flag or the minus sign, up to the character that ends the flags. No flag and no minus
sign may come twice, and a flag must follow the minus sign. -/
def flagTurn (flags : OpenFlags) : Reader (FlagSettings ⊕ OpenFlags) := do
  let c ← peek
  if c == ':' || c == ')' then
    if flags.dangling then fault else return .inl flags.settings.reverse
  else if c == '-' then
    bump
    if flags.negated then fault else return .inr ⟨true, true, flags.settings⟩
  else
    match flag? c with
    | some flag =>
      bump
      if flags.settings.any fun setting => setting.1 == flag then fault
      else return .inr ⟨flags.negated, false, (flag, !flags.negated) :: flags.settings⟩
    | none => fault

/-- Whether a character may stand in the name of a group, at its beginning or later. -/
def isNameChar (first : Bool) (c : Char) : Bool :=
  if first then c == '_' || Property.alphabetic c.toNat
  else c == '_' || c == '.' || c == '[' || c == ']' || Property.alphanumeric c.toNat

/-- Reads the name of a group up to its closing bracket. -/
def readName : Reader String := do
  let text ← rest
  let name := text.takeWhile (· != '>')
  match text.dropWhile (· != '>'), name with
  | '>' :: after, c :: more =>
    if isNameChar true c && more.all (isNameChar false) then
      setRest after
      return String.ofList name
    else fault
  | _, _ => fault

/-- The flags that a group begins with. -/
inductive GroupStart where
  /-- Flags for the rest of the enclosing group. -/
  | settings (settings : FlagSettings)
  /-- A group with flags of its own, and a name that may be used once. -/
  | group (settings : FlagSettings) (name : Option String)

/-- Moves on over what comes before the name of a group, if it comes next. -/
def bumpNameMark : Reader Bool := do
  if ← bumpIf "?P<".toList then return true else bumpIf "?<".toList

/-- Reads the beginning of a group. -/
def readGroupStart : Reader GroupStart := do
  bumpBoth
  let text ← rest
  let looksAround := ["?=", "?!", "?<=", "?<!"].any fun mark => mark.toList.isPrefixOf text
  if looksAround then fault
  else if ← bumpNameMark then
    return .group [] (some (← readName))
  else if ← bumpIf ['?'] then
    let settings ← loop flagTurn ⟨false, false, []⟩
    let c ← peek
    bump
    if c == ')' then
      if settings.isEmpty then fault else return .settings settings
    else return .group settings none
  else return .group [] none

/-! ## Expressions -/

/-- Whether a repetition may follow a part. -/
def isRepeatable : Tree → Bool
  | .empty => false
  | .flags _ => false
  | _ => true

/-- Skips the question mark that makes a repetition reluctant. -/
def skipReluctant : Reader Unit := do
  if ← sees '?' then bump

/-- Puts a repetition in the place of the last part. -/
def repeatLast (least : Nat) (most : Option Nat) : List Tree → Reader (List Tree)
  | [] => fault
  | last :: parts =>
    if isRepeatable last then return .repetition least most last :: parts else fault

/-- Reads a repetition that is one sign. -/
def readRepetition (least : Nat) (most : Option Nat) (parts : List Tree) :
    Reader (List Tree) := do
  bump
  skipReluctant
  repeatLast least most parts

/-- Reads a number in braces, which fits 32 bits, if one is there. -/
def readNumber : Reader (Option Nat) := do
  setRest ((← rest).dropWhile isBlank)
  let digits ← gatherWhile Char.isDigit
  let _ ← gatherWhile isBlank
  if digits.isEmpty then return none
  else
    let value := digits.foldl (fun value c => value * 10 + (c.toNat - '0'.toNat)) 0
    if value < Nat.pow 2 32 then return some value else fault

/-- Reads a repetition that is counted in braces. -/
def readCounts (parts : List Tree) : Reader (List Tree) := do
  bumpBoth
  let _ ← peek
  let least ← readNumber
  let c ← peek
  let range ← id (α := Reader (Nat × Option Nat)) do
    match least with
    | none => fault
    | some least =>
      if c == ',' then
        bumpBoth
        if (← peek) == '\x7d' then return (least, none)
        else
          match ← readNumber with
          | some most => if least ≤ most then return (least, some most) else fault
          | none => fault
      else return (least, some least)
  if (← peek) == '\x7d' then
    bumpBoth
    skipReluctant
    repeatLast range.1 range.2 parts
  else fault

/-- What is open while an expression is read: a group, with the parts before it and the skipping of
blanks around it, or an alternation, with the branches before the current one. Parts and branches
are in reverse. -/
inductive OpenTree where
  | group (before : List Tree) (settings : FlagSettings) (skipsBlanks : Bool)
  | alternation (branches : List Tree)

/-- Ends the current branch of the alternation that is open, if one is. -/
def closeBranch (stack : List OpenTree) (parts : List Tree) : Tree × List OpenTree :=
  let branch := Tree.ofParts parts.reverse
  match stack with
  | .alternation branches :: stack => (.alternation (branches.reverse ++ [branch]), stack)
  | stack => (branch, stack)

/-- Whether flags switch the skipping of blanks. -/
def blanksSetting (settings : FlagSettings) : Option Bool := settings.lookup .ignoreWhitespace

/-- Reads a part that is neither a group nor a set. -/
def readPrimitive : Reader Tree := do
  let c ← peek
  if c == '\\' then readEscape
  else
    bump
    match c with
    | '.' => return .dot
    | '^' => return .assertion .startLine
    | '$' => return .assertion .endLine
    | c => return .literal ⟨c, false⟩

/-- What is being read: what is open, the names of the groups so far, and the parts of the innermost
group so far, in reverse. -/
structure Reading where
  stack : List OpenTree
  names : List String
  parts : List Tree

namespace Reading

/-- Nothing is read yet. -/
def start : Reading := ⟨[], [], []⟩

/-- Another part is read. -/
def add (reading : Reading) (part : Tree) : Reading :=
  { reading with parts := part :: reading.parts }

/-- A group begins, whose name must be new. -/
def openGroup (reading : Reading) (settings : FlagSettings) (name : Option String)
    (outer : Bool) : Reader Reading :=
  match name with
  | some name =>
    if reading.names.contains name then fault
    else return ⟨.group reading.parts settings outer :: reading.stack, name :: reading.names, []⟩
  | none => return ⟨.group reading.parts settings outer :: reading.stack, reading.names, []⟩

/-- A branch ends and another one begins. -/
def nextBranch (reading : Reading) : Reading :=
  let branch := Tree.ofParts reading.parts.reverse
  match reading.stack with
  | .alternation branches :: stack =>
    ⟨.alternation (branch :: branches) :: stack, reading.names, []⟩
  | stack => ⟨.alternation [branch] :: stack, reading.names, []⟩

end Reading

/-- Reads the beginning of a group, or flags for the rest of the enclosing one. -/
def readOpening (reading : Reading) : Reader Reading := do
  match ← readGroupStart with
  | .settings settings =>
    setSkipsBlanks ((blanksSetting settings).getD (← skipsBlanks))
    return reading.add (.flags settings)
  | .group settings name =>
    let outer ← skipsBlanks
    setSkipsBlanks ((blanksSetting settings).getD outer)
    reading.openGroup settings name outer

/-- Reads the end of the innermost group. -/
def readClosing (reading : Reading) : Reader Reading := do
  match closeBranch reading.stack reading.parts with
  | (tree, .group before settings outer :: stack) =>
    setSkipsBlanks outer
    bump
    return ⟨stack, reading.names, .group settings tree :: before⟩
  | _ => fault

/-- Reads the part of an expression that begins with a certain character, or what that character
opens, closes or repeats. -/
def readPart (reading : Reading) (c : Char) : Reader Reading := do
  match c with
  | '(' => readOpening reading
  | ')' => readClosing reading
  | '|' =>
    bump
    return reading.nextBranch
  | '[' => return reading.add (← readBracketed)
  | '?' => return { reading with parts := ← readRepetition 0 (some 1) reading.parts }
  | '*' => return { reading with parts := ← readRepetition 0 none reading.parts }
  | '+' => return { reading with parts := ← readRepetition 1 none reading.parts }
  | '\x7b' => return { reading with parts := ← readCounts reading.parts }
  | _ => return reading.add (← readPrimitive)

/-- Reads one thing of an expression. The last thing is the end of the text. -/
def treeTurn (reading : Reading) : Reader (Tree ⊕ Reading) := do
  bumpSpace
  match (← rest).head? with
  | none =>
    match closeBranch reading.stack reading.parts with
    | (tree, []) => return .inl tree
    | _ => fault
  | some c => return .inr (← readPart reading c)

/-- Reads an expression to the end of the text. -/
def readTree : Reader Tree := loop treeTurn .start

/-- How deep an expression may be nested. -/
def maxDepth : Nat := 250

/-- The regular expression that a text writes down, if it is one. -/
def parse? (text : String) : Option Tree :=
  match readTree ⟨text.toList, false⟩ with
  | some (tree, _) => if tree.depth ≤ maxDepth then some tree else none
  | none => none

end Gll.Regex
