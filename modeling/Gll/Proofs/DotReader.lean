import Gll.Proofs.Runs
import Gll.Stack.Dot

/-!
A reader of graphs in the DOT language.

It reads the part of the language that attributes, nodes and edges need, and knows nothing of how a
text is written: it cuts the text into tokens, where a backslash in a quoted text protects the next
character, and the tokens into statements, which end with semicolons.

Tokens are read from the front. The lemmas on them add one token in front of a text of which it is
known how it is read, so that a line is read from its end. What they come to is that a text which is
escaped and quoted is one token, whatever is in it (`Dot.tokens?_quoted`).
-/

set_option autoImplicit false

namespace Gll

namespace Dot

/-! ## Quoted texts -/

/-- The text for which a quoted one stands: a backslash is left out, and the character that it
protects is kept. -/
def unescape : List Char → List Char
  | [] => []
  | [c] => [c]
  | c :: d :: rest => if c = '\\' then d :: unescape rest else c :: unescape (d :: rest)

/-- Quotes and backslashes only stand behind backslashes that protect them. -/
inductive Guarded : List Char → Prop where
  | nil : Guarded []
  | plain {c : Char} {rest : List Char} (hquote : c ≠ '"') (hbackslash : c ≠ '\\')
      (h : Guarded rest) : Guarded (c :: rest)
  | pair (c : Char) {rest : List Char} (h : Guarded rest) : Guarded ('\\' :: c :: rest)

theorem guarded_escape (text : List Char) : Guarded (escape text) := by
  induction text with
  | nil => exact .nil
  | cons c rest ih =>
    rw [escape]
    split
    · exact .pair c ih
    · rename_i h
      rw [not_or] at h
      exact .plain h.1 h.2 ih

theorem unescape_cons_of_ne {c : Char} (h : c ≠ '\\') (rest : List Char) :
    unescape (c :: rest) = c :: unescape rest := by
  cases rest with
  | nil => rfl
  | cons d rest => rw [unescape, if_neg h]

/-- Nothing is lost by protecting characters. -/
theorem unescape_escape (text : List Char) : unescape (escape text) = text := by
  induction text with
  | nil => rfl
  | cons c rest ih =>
    rw [escape]
    split
    · rw [unescape, if_pos rfl, ih]
    · rename_i h
      rw [not_or] at h
      rw [unescape_cons_of_ne h.2, ih]

theorem escape_injective : Function.Injective escape :=
  Function.LeftInverse.injective unescape_escape

/-! ## Tokens -/

/-- A token. Of a quoted text it has all that stands between the quotes. -/
inductive Token where
  | word (text : List Char)
  | quoted (text : List Char)
  | arrow
  | mark (c : Char)

/-- Where the reader is: between two tokens, in a word, in a quoted text, behind a backslash in a
quoted text, or in an arrow. -/
inductive Mode where
  | between
  | word (text : List Char)
  | text (text : List Char)
  | guarded (text : List Char)
  | dash

/-- Whether a word may contain a character. -/
def isWordChar (c : Char) : Bool := c.isAlphanum || c = '_'

/-- What a character between two tokens comes to. -/
def begin? (c : Char) : List Token × Mode :=
  if isWordChar c then ([], .word [c])
  else if c = '"' then ([], .text [])
  else if c = '-' then ([], .dash)
  else if c.isWhitespace then ([], .between)
  else ([.mark c], .between)

/-- The tokens that a character ends, and where the reader is then. -/
def step : Mode → Char → Option (List Token × Mode)
  | .between, c => some (begin? c)
  | .word text, c =>
    if isWordChar c then some ([], .word (text ++ [c]))
    else some (.word text :: (begin? c).1, (begin? c).2)
  | .text text, c =>
    if c = '"' then some ([.quoted text], .between)
    else if c = '\\' then some ([], .guarded text)
    else some ([], .text (text ++ [c]))
  | .guarded text, c => some ([], .text (text ++ ['\\', c]))
  | .dash, c => if c = '>' then some ([.arrow], .between) else none

/-- The tokens of a text, unless it ends within a quoted text or an arrow. -/
def tokens? : Mode → List Char → Option (List Token)
  | .between, [] => some []
  | .word text, [] => some [.word text]
  | _, [] => none
  | mode, c :: rest => do
    let (ended, mode) ← step mode c
    return ended ++ (← tokens? mode rest)

section Tokens

variable {rest : List Char} {tokens : List Token}

theorem tokens?_cons {mode mode' : Mode} {c : Char} {ended : List Token}
    (hstep : step mode c = some (ended, mode')) (h : tokens? mode' rest = some tokens) :
    tokens? mode (c :: rest) = some (ended ++ tokens) := by
  simp only [tokens?, hstep, h, bind, Option.bind, pure]

theorem tokens?_blank (h : tokens? .between rest = some tokens) :
    tokens? .between (' ' :: rest) = some tokens := by
  have hstep : step .between ' ' = some ([], .between) := rfl
  exact tokens?_cons hstep h

theorem tokens?_lineFeed (h : tokens? .between rest = some tokens) :
    tokens? .between ('\n' :: rest) = some tokens := by
  have hstep : step .between '\n' = some ([], .between) := rfl
  exact tokens?_cons hstep h

theorem tokens?_mark {c : Char} (hmark : begin? c = ([.mark c], .between))
    (h : tokens? .between rest = some tokens) :
    tokens? .between (c :: rest) = some (.mark c :: tokens) := by
  have hstep : step .between c = some ([.mark c], .between) := congrArg some hmark
  exact tokens?_cons hstep h

theorem tokens?_arrow (h : tokens? .between rest = some tokens) :
    tokens? .between ('-' :: '>' :: rest) = some (.arrow :: tokens) := by
  have hdash : step .between '-' = some ([], .dash) := rfl
  have harrow : step .dash '>' = some ([.arrow], .between) := rfl
  exact tokens?_cons hdash (tokens?_cons harrow h)

/-- The letters of a word are gathered up to a character that is none. -/
theorem tokens?_gather {text : List Char} (hword : ∀ c ∈ text, isWordChar c = true)
    {before : List Char} {c : Char} (hend : isWordChar c = false)
    (h : tokens? .between (c :: rest) = some tokens) :
    tokens? (.word before) (text ++ c :: rest) = some (.word (before ++ text) :: tokens) := by
  induction text generalizing before with
  | nil =>
    have hnot : ¬ isWordChar c = true := by
      rw [hend]
      exact Bool.false_ne_true
    simp only [tokens?, step, bind, Option.bind, pure] at h
    rw [List.append_nil, List.nil_append]
    -- The character that ends the word is read as if it stood between two tokens.
    cases hrest : tokens? (begin? c).2 rest with
    | none =>
      rw [hrest] at h
      cases h
    | some more =>
      rw [hrest] at h
      rw [← Option.some.inj h]
      have hstep : step (.word before) c = some (.word before :: (begin? c).1, (begin? c).2) := by
        rw [step, if_neg hnot]
      exact tokens?_cons hstep hrest
  | cons letter text ih =>
    obtain ⟨hletter, htext⟩ := List.forall_mem_cons.mp hword
    have hlater := @ih htext (before ++ [letter])
    rw [List.append_assoc, List.singleton_append] at hlater
    have hstep : step (.word before) letter = some ([], .word (before ++ [letter])) := by
      rw [step, if_pos hletter]
    exact tokens?_cons hstep hlater

theorem tokens?_word (text : List Char) (hne : text ≠ [])
    (hword : ∀ c ∈ text, isWordChar c = true) {c : Char} (hend : isWordChar c = false)
    (h : tokens? .between (c :: rest) = some tokens) :
    tokens? .between (text ++ c :: rest) = some (.word text :: tokens) := by
  obtain ⟨letter, text, rfl⟩ := List.exists_cons_of_ne_nil hne
  obtain ⟨hletter, htext⟩ := List.forall_mem_cons.mp hword
  have hbegin : step .between letter = some ([], .word [letter]) := by
    rw [step, begin?, if_pos hletter]
  exact tokens?_cons hbegin (tokens?_gather htext hend h)

/-- A text that is escaped is gathered as it is, and the quote that ends it is the first one behind
it, whatever is in the text. -/
theorem tokens?_escape {text before : List Char} (h : tokens? .between rest = some tokens) :
    tokens? (.text before) (escape text ++ '"' :: rest)
      = some (.quoted (before ++ escape text) :: tokens) := by
  induction text generalizing before with
  | nil =>
    rw [escape, List.nil_append, List.append_nil]
    have hend : step (.text before) '"' = some ([.quoted before], .between) := rfl
    exact tokens?_cons hend h
  | cons c text ih =>
    rw [escape]
    -- A character that would mean something is protected, and kept with its backslash.
    split
    · have hlater := @ih (before ++ ['\\', c])
      rw [List.append_assoc] at hlater
      have hguard : step (.text before) '\\' = some ([], .guarded before) := rfl
      have hkept : step (.guarded before) c = some ([], .text (before ++ ['\\', c])) := rfl
      exact tokens?_cons hguard (tokens?_cons hkept hlater)
    · rename_i hplain
      rw [not_or] at hplain
      have hlater := @ih (before ++ [c])
      rw [List.append_assoc] at hlater
      have hstep : step (.text before) c = some ([], .text (before ++ [c])) := by
        rw [step, if_neg hplain.1, if_neg hplain.2]
      exact tokens?_cons hstep hlater

theorem tokens?_quoted (text : String) (h : tokens? .between rest = some tokens) :
    tokens? .between ((quoted text).toList ++ rest)
      = some (.quoted (escape text.toList) :: tokens) := by
  have hchars : (quoted text).toList ++ rest = '"' :: (escape text.toList ++ '"' :: rest) := by
    simp [quoted]
  rw [hchars]
  have hbegin : step .between '"' = some ([], .text []) := rfl
  exact tokens?_cons hbegin (tokens?_escape h)

end Tokens

/-- A quote that is protected does not end a quoted text. -/
example : tokens? .between "\"a\\\"\" b".toList
    = some [.quoted ['a', '\\', '"'], .word ['b']] := rfl

/-! ## Statements -/

/-- A statement: attributes for all nodes, a node, or an edge. -/
inductive Statement where
  | defaults (attributes : List (String × String))
  | node (name : String) (attributes : List (String × String))
  | edge (source target : String) (attributes : List (String × String))
deriving DecidableEq

/-- The text for which a token stands as the value of an attribute. -/
def value? : Token → Option String
  | .word text => some (String.ofList text)
  | .quoted text => some (String.ofList (unescape text))
  | _ => none

/-- Attributes up to the bracket that ends them. -/
def attributes? : List Token → Option (List (String × String))
  | [.mark c] => if c = ']' then some [] else none
  | .mark c :: rest => if c = ',' then attributes? rest else none
  | .word key :: .mark c :: value :: rest =>
    if c = '=' then do
      let value ← value? value
      return (String.ofList key, value) :: (← attributes? rest)
    else none
  | _ => none

/-- Attributes in brackets, or none. -/
def bracketed? : List Token → Option (List (String × String))
  | [] => some []
  | .mark c :: rest => if c = '[' then attributes? rest else none
  | _ => none

/-- Words that are no names. -/
def keywords : List String := ["node", "edge", "graph", "digraph", "subgraph", "strict"]

/-- A name of a node. -/
def name? (text : List Char) : Option String :=
  if String.ofList text ∈ keywords then none else some (String.ofList text)

/-- A statement without the semicolon. -/
def statement? : List Token → Option Statement
  | .word source :: .arrow :: .word target :: rest => do
    return .edge (← name? source) (← name? target) (← bracketed? rest)
  | .word name :: rest => do
    let attributes ← bracketed? rest
    if String.ofList name = "node" then return .defaults attributes
    else return .node (← name? name) attributes
  | _ => none

/-- Statements up to the brace that ends them, of the first of which some tokens were read
already. -/
def statements? (begun : List Token) : List Token → Option (List Statement)
  | [] => none
  | .mark c :: rest =>
    if c = ';' then do
      let first ← statement? begun
      return first :: (← statements? [] rest)
    else if c = '\x7d' then (if begun.isEmpty && rest.isEmpty then some [] else none)
    else statements? (begun ++ [.mark c]) rest
  | token :: rest => statements? (begun ++ [token]) rest

/-- The statements of a directed graph. -/
def graph? : List Token → Option (List Statement)
  | .word keyword :: .word _ :: .mark c :: rest =>
    if keyword = "digraph".toList ∧ c = '\x7b' then statements? [] rest else none
  | _ => none

/-- Reads the statements of a graph in the DOT language. -/
def read? (text : String) : Option (List Statement) :=
  tokens? .between text.toList >>= graph?

/-! ## Lines -/

/-- The tokens of a label. -/
def labelTokens : Option String → List Token
  | none => []
  | some label =>
    [.mark '[', .word "label".toList, .mark '=', .quoted (escape label.toList), .mark ']']

/-- The attributes that a label comes to. -/
def labelAttributes (label : Option String) : List (String × String) :=
  label.toList.map fun text => ("label", text)

theorem bracketed?_labelTokens (label : Option String) :
    bracketed? (labelTokens label) = some (labelAttributes label) := by
  cases label with
  | none => rfl
  | some text =>
    have hvalue : value? (.quoted (escape text.toList)) = some text := by
      rw [value?, unescape_escape, String.ofList_toList]
    have hattributes : attributes? [.word "label".toList, .mark '=',
        .quoted (escape text.toList), .mark ']'] = some [("label", text)] := by
      simp only [attributes?, hvalue, if_true, bind, Option.bind, pure]
      rfl
    exact hattributes

section Lines

variable {rest : List Char} {tokens : List Token}

/-- A line is read if its subject is, whatever its label says. -/
theorem tokens?_statement (subject : String) (subjectTokens : List Token)
    (hsubject : ∀ {c : Char} {rest : List Char} {tokens : List Token}, isWordChar c = false →
      tokens? .between (c :: rest) = some tokens →
        tokens? .between (subject.toList ++ c :: rest) = some (subjectTokens ++ tokens))
    (label : Option String) (h : tokens? .between rest = some tokens) :
    tokens? .between ((statement subject label ++ "\n").toList ++ rest)
      = some (subjectTokens ++ (labelTokens label ++ .mark ';' :: tokens)) := by
  have hend : tokens? .between (';' :: '\n' :: rest) = some (.mark ';' :: tokens) :=
    tokens?_mark rfl (tokens?_lineFeed h)
  cases label with
  | none =>
    have hchars : (statement subject none ++ "\n").toList ++ rest
        = ' ' :: ' ' :: (subject.toList ++ ';' :: '\n' :: rest) := by
      simp [statement]
    rw [hchars]
    exact tokens?_blank (tokens?_blank (hsubject rfl hend))
  | some label =>
    have hchars : (statement subject (some label) ++ "\n").toList ++ rest
        = ' ' :: ' ' :: (subject.toList ++ ' ' :: '[' :: ("label".toList ++ '=' ::
          ((quoted label).toList ++ ']' :: ';' :: '\n' :: rest))) := by
      simp [statement]
    have hword : ∀ c ∈ "label".toList, isWordChar c = true :=
      List.all_eq_true.mp (by decide +kernel)
    have hquoted := tokens?_quoted label (tokens?_mark (c := ']') rfl hend)
    have hlabel := tokens?_word _ (by decide) hword rfl (tokens?_mark (c := '=') rfl hquoted)
    rw [hchars]
    exact tokens?_blank (tokens?_blank
      (hsubject rfl (tokens?_blank (tokens?_mark (c := '[') rfl hlabel))))

end Lines

end Dot

end Gll
