import Gll.Grammar.Basic
import Gll.Json.Reader
import Gll.Text.Quoted

/-!
Grammars as JSON. A grammar is an object with a `name`, an optional `start` and `rules`; each rule
is an object whose `type` says what its other fields mean. Rules that only annotate their content
(fields, aliases, precedences, tokens) are read as that content. Other fields are skipped.

Both kinds of object may also be written as arrays of their fields in the order of declaration, the
type of a rule first.

The text is looked at from left to right and the first fault is reported. A rule is read as a whole
before it is understood, so that in it a fault of the text comes before a fault of meaning, except
for the faults of its `type`.
-/

set_option autoImplicit false

namespace Gll

/-! ## Faults -/

/-- What is wrong with a value that is proper JSON. -/
inductive DataError where
  | missingField (name : String)
  | duplicateField (name : String)
  | unknownType (name : String)
  | wrongType (found expected : String)
  | wrongValue (found expected : String)
  | wrongLength (found : Nat) (expected : String)
deriving DecidableEq, Repr

/-- Why a text is not a grammar. -/
inductive GrammarError where
  | flaw (flaw : Json.Flaw)
  | data (error : DataError)
deriving DecidableEq, Repr

/-! ## Types of rules -/

/-- The types of rules that say something about their content and nothing about its language. -/
inductive Remark where
  | field
  | alias
  | token
  | immediateToken
  | precedence
  | leftPrecedence
  | rightPrecedence
  | dynamicPrecedence
  | reserved
deriving DecidableEq, Repr

/-- The types of rules. -/
inductive RuleType where
  | blank
  | literal
  | pattern
  | symbol
  | sequence
  | choice
  | star
  | plus
  | remark (remark : Remark)
deriving DecidableEq, Repr

namespace RuleType

/-- The types in the order in which they are listed. -/
def all : List RuleType :=
  [blank, literal, pattern, symbol, sequence, choice, star, plus, remark .field,
    remark .alias, remark .token, remark .immediateToken, remark .precedence,
    remark .leftPrecedence, remark .rightPrecedence, remark .dynamicPrecedence,
    remark .reserved]

/-- The name of a type in a grammar. -/
def name : RuleType → String
  | blank => "BLANK"
  | literal => "STRING"
  | pattern => "PATTERN"
  | symbol => "SYMBOL"
  | sequence => "SEQ"
  | choice => "CHOICE"
  | star => "REPEAT"
  | plus => "REPEAT1"
  | remark .field => "FIELD"
  | remark .alias => "ALIAS"
  | remark .token => "TOKEN"
  | remark .immediateToken => "IMMEDIATE_TOKEN"
  | remark .precedence => "PREC"
  | remark .leftPrecedence => "PREC_LEFT"
  | remark .rightPrecedence => "PREC_RIGHT"
  | remark .dynamicPrecedence => "PREC_DYNAMIC"
  | remark .reserved => "RESERVED"

/-- The type of a name. -/
def ofName? (name : String) : Option RuleType := all.find? fun type => type.name = name

end RuleType

/-! ## Wording -/

namespace DataError

/-- What a fault says. -/
def text : DataError → String
  | missingField name => "missing field `" ++ name ++ "`"
  | duplicateField name => "duplicate field `" ++ name ++ "`"
  | unknownType name =>
    "unknown variant `" ++ name ++ "`, expected one of "
      ++ ", ".intercalate (RuleType.all.map fun type => "`" ++ type.name ++ "`")
  | wrongType found expected => "invalid type: " ++ found ++ ", expected " ++ expected
  | wrongValue found expected => "invalid value: " ++ found ++ ", expected " ++ expected
  | wrongLength found expected =>
    "invalid length " ++ toString found ++ ", expected " ++ expected

end DataError

namespace GrammarError

/-- What the user is told. -/
def message (error : GrammarError) : String :=
  "invalid grammar JSON: " ++
    match error with
    | flaw .ended => "unexpected end of text"
    | flaw .malformed => "malformed text"
    | data error => error.text

end GrammarError

/-- `1 element`, and otherwise `elements`. -/
def countedElements (count : Nat) : String :=
  toString count ++ (if count = 1 then " element" else " elements")

/-! ## Fields -/

namespace Json

/-- What a complete value is called. -/
def kind : Json → String
  | null => "null"
  | bool true => "boolean `true`"
  | bool false => "boolean `false`"
  | number value => value.text
  | string value => "string " ++ Text.quoted value
  | array _ _ => "sequence"
  | object _ _ => "map"
  | unfinishedNumber | unpaired _ | flawed _ => "nothing"

/-- The fault of finding a value where something else is expected. Of an array or an object nothing
but its beginning is looked at. -/
def mismatch (expected : String) : Json → GrammarError
  | number .outOfRange => .flaw .malformed
  | unfinishedNumber => .flaw .ended
  | unpaired _ => .flaw .malformed
  | flawed flaw => .flaw flaw
  | value => .data (.wrongType value.kind expected)

/-- A text. -/
def asText (expected : String) : Json → Except GrammarError String
  | string value => .ok value
  | value => .error (value.mismatch expected)

/-- A text or `null`. -/
def asOptionalText : Json → Except GrammarError (Option String)
  | null => .ok none
  | value => do return some (← value.asText "a string")

/-- Fails with the fault, if there is one. -/
def unlessFlaw {α : Type} (flaw : Option Flaw) (result : Except GrammarError α) :
    Except GrammarError α :=
  match flaw with
  | some flaw => .error (.flaw flaw)
  | none => result

end Json

/-- Takes the value of a field for the first time, or refuses it for having one already. -/
def takeField {α : Type} (name : String) (old : Option α) (value : Except GrammarError α) :
    Except GrammarError (Option α) :=
  match old with
  | some _ => .error (.data (.duplicateField name))
  | none => do return some (← value)

/-- The value of a field that must be there. -/
def requireField {α : Type} (name : String) (value : Option α) : Except GrammarError α :=
  match value with
  | some value => .ok value
  | none => .error (.data (.missingField name))

/-! ## Rules -/

/-- The fields of a rule apart from its type, after they were checked to be free of flaws. -/
inductive RuleFields where
  | named (members : List (Option String × Json))
  | ordered (items : List Json)

/-- The type of a rule. Inside other rules it may also be a number, counting from zero in the order
of the list. -/
def readType (nested : Bool) (value : Json) : Except GrammarError RuleType :=
  match value with
  | .string name =>
    match RuleType.ofName? name with
    | some type => .ok type
    | none => .error (.data (.unknownType name))
  | .number (.unsigned index) =>
    if nested then
      match RuleType.all[index]? with
      | some type => .ok type
      | none =>
        .error (.data (.wrongValue value.kind
          ("variant index 0 <= i < " ++ toString RuleType.all.length)))
    else .error (value.mismatch "variant identifier")
  | value => .error (value.mismatch "variant identifier")

/-- Reads a rule's object: its type, and its other members, each checked as a whole. -/
def readMembers (nested : Bool) (levels : Nat) :
    Option RuleType → List (Option String × Json) →
      Except GrammarError (Option RuleType × List (Option String × Json))
  | type, [] => .ok (type, [])
  | _, (none, _) :: _ => .error (.flaw .malformed)
  | type, (some key, value) :: rest =>
    if key = "type" then do
      let type ← takeField key type (readType nested value)
      readMembers nested levels type rest
    else
      Json.unlessFlaw (value.faultWithin levels) do
        let (type, fields) ← readMembers nested levels type rest
        return (type, (some key, value) :: fields)

/-- Splits a rule into its type and its other fields. -/
def readShape (nested : Bool) (levels : Nat) (value : Json) :
    Except GrammarError (RuleType × RuleFields) :=
  match value with
  | .object members flaw =>
    if levels = 0 then .error (.flaw .malformed)
    else do
      let (type, fields) ← readMembers nested (levels - 1) none members
      Json.unlessFlaw flaw do return (← requireField "type" type, .named fields)
  | .array items flaw =>
    if levels = 0 then .error (.flaw .malformed)
    else
      match items with
      | [] => Json.unlessFlaw flaw (.error (.data (.missingField "type")))
      | first :: rest => do
        let type ← readType nested first
        Json.unlessFlaw ((Json.faultOfItems (levels - 1) rest).or flaw)
          (.ok (type, .ordered rest))
  | value => .error (value.mismatch "internally tagged enum RawRule")

/-- The value of the only field of a rule. -/
def readOnlyField {α : Type} (type : RuleType) (name : String)
    (read : Json → Except GrammarError α) : RuleFields → Except GrammarError α
  | .named members => do
    let value ← members.foldlM (fun value (member : Option String × Json) =>
      if member.1 = some name then takeField name value (read member.2) else .ok value) none
    requireField name value
  | .ordered [] =>
    .error (.data (.wrongLength 0
      ("struct variant RawRule::" ++ type.name ++ " with " ++ countedElements 1)))
  | .ordered (first :: rest) => do
    let value ← read first
    if rest.isEmpty then .ok value
    else .error (.data (.wrongLength (1 + rest.length) (countedElements 1 ++ " in sequence")))

/-- The source and the flags of a pattern. -/
def readPatternFields : RuleFields → Except GrammarError (String × Option String)
  | .named members => do
    let (source, flags) ← members.foldlM
      (fun (fields : Option String × Option (Option String)) (member : Option String × Json) =>
        if member.1 = some "value" then do
          return (← takeField "value" fields.1 (member.2.asText "a string"), fields.2)
        else if member.1 = some "flags" then do
          return (fields.1, ← takeField "flags" fields.2 member.2.asOptionalText)
        else .ok fields) (none, none)
    return (← requireField "value" source, flags.join)
  | .ordered [] =>
    .error (.data (.wrongLength 0
      ("struct variant RawRule::PATTERN with " ++ countedElements 2)))
  | .ordered [source] => do return (← source.asText "a string", none)
  | .ordered (source :: flags :: rest) => do
    let source ← source.asText "a string"
    let flags ← flags.asOptionalText
    if rest.isEmpty then return (source, flags)
    else .error (.data (.wrongLength (2 + rest.length) (countedElements 2 ++ " in sequence")))

/-- Checks that a rule without fields has none, if they are given in order. -/
def readNoFields : RuleFields → Except GrammarError Unit
  | .named _ => .ok ()
  | .ordered items =>
    if items.isEmpty then .ok ()
    else .error (.data (.wrongLength items.length (countedElements 0 ++ " in sequence")))

/-- Reads a rule inside at most `levels` further arrays and objects. -/
def readRule : Nat → Bool → Json → Except GrammarError Rule
  | 0, nested, value => do
    let _ ← readShape nested 0 value
    return .blank
  | levels + 1, nested, value => do
    let (type, fields) ← readShape nested (levels + 1) value
    let content := readOnlyField type "content" (readRule levels true)
    let members := readOnlyField type "members" fun value =>
      match value with
      | .array items _ => items.mapM (readRule levels true)
      | value => .error (value.mismatch "a sequence")
    match type with
    | .blank => do
      readNoFields fields
      return .blank
    | .literal => return .literal (← readOnlyField type "value" (Json.asText "a string") fields)
    | .pattern => do
      let (source, flags) ← readPatternFields fields
      return .pattern source flags
    | .symbol => return .symbol (← readOnlyField type "name" (Json.asText "a string") fields)
    | .sequence => return .sequence (← members fields)
    | .choice => return .choice (← members fields)
    | .star => return .star (← content fields)
    | .plus => return .plus (← content fields)
    | .remark _ => content fields

/-! ## Grammars -/

namespace Grammar

/-- How many arrays and objects may be nested in one another. -/
def maxLevels : Nat := 127

/-- Reads the rules of a grammar, starting from those already read. -/
def readRules (levels : Nat) :
    RuleTable → List (Option String × Json) → Except GrammarError RuleTable
  | rules, [] => .ok rules
  | _, (none, _) :: _ => .error (.flaw .malformed)
  | rules, (some name, value) :: rest => do
    let rule ← readRule levels false value
    readRules levels (defineIn name rule rules) rest

/-- Reads the table of rules. -/
def readRuleTable (levels : Nat) (value : Json) : Except GrammarError RuleTable :=
  match value with
  | .object members flaw =>
    if levels = 0 then .error (.flaw .malformed)
    else do
      let rules ← readRules (levels - 1) ⟨[], List.nodup_nil⟩ members
      Json.unlessFlaw flaw (.ok rules)
  | value => .error (value.mismatch "a map")

/-- The fields of a grammar that have been read. -/
structure Fields where
  name : Option String
  start : Option (Option String)
  rules : Option RuleTable

/-- Reads the members of a grammar's object. -/
def readFields (levels : Nat) (fields : Fields) :
    List (Option String × Json) → Except GrammarError Fields
  | [] => .ok fields
  | (none, _) :: _ => .error (.flaw .malformed)
  | (some key, value) :: rest => do
    if key = "name" then
      let name ← takeField key fields.name (value.asText "a string")
      readFields levels { fields with name } rest
    else if key = "start" then
      let start ← takeField key fields.start value.asOptionalText
      readFields levels { fields with start } rest
    else if key = "rules" then
      let rules ← takeField key fields.rules (readRuleTable levels value)
      readFields levels { fields with rules } rest
    else Json.unlessFlaw value.flawWhenSkipped (readFields levels fields rest)

/-- Reads the next item of a grammar that is written as an array. -/
def nextItem {α : Type} (read : Json → Except GrammarError α) (missing : Nat)
    (flaw : Option Json.Flaw) : List Json → Except GrammarError (α × List Json)
  | item :: rest => do return (← read item, rest)
  | [] =>
    Json.unlessFlaw flaw (.error (.data (.wrongLength missing
      ("struct RawGrammar with " ++ countedElements 3))))

/-- Reads a grammar. -/
def readGrammar (value : Json) : Except GrammarError Grammar :=
  match value with
  | .object members flaw => do
    let fields ← readFields (maxLevels - 1) ⟨none, none, none⟩ members
    Json.unlessFlaw flaw do
      let name ← requireField "name" fields.name
      let rules ← requireField "rules" fields.rules
      return ⟨name, fields.start.join, rules.1, rules.2⟩
  | .array items flaw => do
    let (name, items) ← nextItem (Json.asText "a string") 0 flaw items
    let (start, items) ←
      match items, flaw with
      | [], none => pure (none, [])
      | items, flaw => nextItem Json.asOptionalText 1 flaw items
    let (rules, items) ← nextItem (readRuleTable (maxLevels - 1)) 2 flaw items
    if items.isEmpty then Json.unlessFlaw flaw (.ok ⟨name, start, rules.1, rules.2⟩)
    else .error (.flaw .malformed)
  | value => .error (value.mismatch "struct RawGrammar")

/-- Reads a grammar from a text, in which nothing may follow it. -/
def ofText (text : String) : Except GrammarError Grammar :=
  let document := Json.read text
  match readGrammar document.value with
  | .ok grammar => if document.hasMore then .error (.flaw .malformed) else .ok grammar
  | .error error => .error error

end Grammar

end Gll
