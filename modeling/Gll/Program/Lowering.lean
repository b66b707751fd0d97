import Gll.Grammar.Basic
import Gll.Program.Basic
import Std.Data.HashMap

/-!
Compiling grammars. Rule expressions are flattened into alternatives, that is strings of terminals
and nonterminals:

* a choice at the top of a rule has one alternative per member;
* a text has one terminal per character;
* a repetition `x*` at the top of the rule `R` becomes `R ::= x R | ε`, and `x+` becomes
  `R ::= x R | x`;
* a choice or a repetition inside a rule gets a nonterminal of its own, named `R~n`, which is
  flattened by the same rules.

The first fault in the order of the rules, and in a rule from left to right, is reported.
-/

set_option autoImplicit false

namespace Gll

/-- Why a grammar cannot be compiled. -/
inductive LowerError where
  | noRules (grammar : String)
  | unknownStart (name : String)
  | undefinedRule (rule name : String)
  | emptyLiteral (rule : String)
  | invalidPattern (rule source : String) (error : Regex.RegexError)
  | unsupportedFlags (rule flags : String)
deriving DecidableEq, Repr

namespace LowerError

/-- What the user is told. -/
def message : LowerError → String
  | noRules grammar => "grammar `" ++ grammar ++ "` has no rules"
  | unknownStart name => "start rule `" ++ name ++ "` is not defined"
  | undefinedRule rule name => "rule `" ++ rule ++ "` references undefined rule `" ++ name ++ "`"
  | emptyLiteral rule => "rule `" ++ rule ++ "` contains an empty string literal"
  | invalidPattern rule source error =>
    "rule `" ++ rule ++ "` has invalid pattern /" ++ source ++ "/: " ++ error.message
  | unsupportedFlags rule flags =>
    "rule `" ++ rule ++ "` uses unsupported pattern flags `" ++ flags ++ "`"

end LowerError

namespace Lowering

/-! ## State -/

/-- A grammar that is being compiled. -/
structure Draft where
  names : NameTable
  /-- The number of the name of each nonterminal. -/
  symbols : Array NameId
  /-- The alternatives of each nonterminal. -/
  productions : Array (List (List Atom))
  /-- The number in the last name that was made up for the current rule. -/
  lastNumber : Nat
  /-- The patterns that were compiled, by source and flags. -/
  patterns : Std.HashMap (String × Option String) Pattern

/-- A step of the compilation. -/
abbrev Lower := StateT Draft (Except LowerError)

/-- The name of the `number`-th part of a rule. -/
def partName (rule : String) (number : Nat) : String := rule ++ "~" ++ toString number

/-- The first number from `number` on that gives the part of a rule a new name. Of one more number
than there are names, one gives a new name, so that is enough fuel. -/
def freshNumber (names : NameTable) (rule : String) : Nat → Nat → Nat
  | 0, number => number
  | fuel + 1, number =>
    if (names.find? (partName rule number)).isSome then freshNumber names rule fuel (number + 1)
    else number

/-- Introduces a nonterminal for a part of a rule, for now without alternatives. -/
def reserve (rule : String) : Lower Nonterminal := fun draft =>
  let nonterminal : Nonterminal := ⟨draft.productions.size⟩
  let number := freshNumber draft.names rule (draft.names.size + 1) (draft.lastNumber + 1)
  let interned := draft.names.intern (partName rule number)
  .ok (nonterminal, { draft with
    names := interned.2
    symbols := draft.symbols.push interned.1
    productions := draft.productions.push []
    lastNumber := number })

/-- Gives a nonterminal its alternatives. -/
def settle (nonterminal : Nonterminal) (alternatives : List (List Atom)) : Lower Unit :=
  modify fun draft =>
    { draft with productions := draft.productions.setIfInBounds nonterminal.index alternatives }

/-- Compiles a pattern, or takes the one that was compiled for the same source and flags. -/
def pattern (rule source : String) (flags : Option String) : Lower Pattern := fun draft =>
  match draft.patterns[(source, flags)]? with
  | some pattern => .ok (pattern, draft)
  | none =>
    match Pattern.compile source flags with
    | .ok pattern =>
      .ok (pattern, { draft with patterns := draft.patterns.insert (source, flags) pattern })
    | .error .flags => .error (.unsupportedFlags rule (flags.getD ""))
    | .error (.source error) => .error (.invalidPattern rule source error)

/-! ## Flattening -/

/-- The alternatives of a nonterminal that stands for any number of what `once` stands for. -/
def starAlternatives (nonterminal : Nonterminal) (once : List Atom) : List (List Atom) :=
  [once ++ [.nonterminal nonterminal], []]

/-- The alternatives of a nonterminal that stands for one or more of what `once` stands for. -/
def plusAlternatives (nonterminal : Nonterminal) (once : List Atom) : List (List Atom) :=
  [once ++ [.nonterminal nonterminal], once]

mutual

/-- The symbols that a part of a rule is flattened to. -/
def atoms (grammar : Grammar) (rule : String) : Rule → Lower (List Atom)
  | .blank => return []
  | .literal text =>
    if text.isEmpty then throw (.emptyLiteral rule)
    else return text.toList.map fun c => .terminal (.char c)
  | .pattern source flags => do return [.terminal (.pattern (← pattern rule source flags))]
  | .symbol name =>
    match grammar.indexOf? name with
    | some index => return [.nonterminal ⟨index⟩]
    | none => throw (.undefinedRule rule name)
  | .sequence members => atomsOfAll grammar rule members
  | .choice members => do
    let part ← reserve rule
    settle part (← alternativesOfAll grammar rule members)
    return [.nonterminal part]
  | .star content => do
    let part ← reserve rule
    settle part (starAlternatives part (← atoms grammar rule content))
    return [.nonterminal part]
  | .plus content => do
    let part ← reserve rule
    settle part (plusAlternatives part (← atoms grammar rule content))
    return [.nonterminal part]

/-- The symbols of several parts in a row. -/
def atomsOfAll (grammar : Grammar) (rule : String) : List Rule → Lower (List Atom)
  | [] => return []
  | member :: rest => do
    let first ← atoms grammar rule member
    return first ++ (← atomsOfAll grammar rule rest)

/-- The symbols of several parts, each an alternative. -/
def alternativesOfAll (grammar : Grammar) (rule : String) : List Rule → Lower (List (List Atom))
  | [] => return []
  | member :: rest => do
    let first ← atoms grammar rule member
    return first :: (← alternativesOfAll grammar rule rest)

end

/-- The alternatives of a whole rule. -/
def alternatives (grammar : Grammar) (rule : String) (owner : Nonterminal) :
    Rule → Lower (List (List Atom))
  | .choice members => alternativesOfAll grammar rule members
  | .star content => do return starAlternatives owner (← atoms grammar rule content)
  | .plus content => do return plusAlternatives owner (← atoms grammar rule content)
  | content => do return [← atoms grammar rule content]

/-- Compiles rules, of which the first has the given number. -/
def lowerRules (grammar : Grammar) : Nat → List (String × Rule) → Lower Unit
  | _, [] => return ()
  | index, (name, rule) :: rest => do
    modify fun draft => { draft with lastNumber := 0 }
    settle ⟨index⟩ (← alternatives grammar name ⟨index⟩ rule)
    lowerRules grammar (index + 1) rest

/-- Interns names in a row and gathers the numbers that they get. -/
def internRow (names : List String) : NameTable × Array NameId :=
  names.foldl (fun tables name =>
    let interned := tables.1.intern name
    (interned.2, tables.2.push interned.1)) (.empty, #[])

/-- The draft in which only the rules have names. -/
def initial (grammar : Grammar) : Draft :=
  let tables := internRow (grammar.rules.map Prod.fst)
  { names := tables.1
    symbols := tables.2
    productions := Array.replicate tables.2.size []
    lastNumber := 0
    patterns := ∅ }

end Lowering

/-- Compiles a grammar. -/
def Program.compile (grammar : Grammar) : Except LowerError Program := do
  let startName ← (grammar.startRule?.elim (throw (.noRules grammar.name)) pure)
  let start ← (grammar.indexOf? startName).elim (throw (.unknownStart startName)) pure
  let ((), draft) ← (Lowering.lowerRules grammar 0 grammar.rules).run (Lowering.initial grammar)
  let layout := Program.Layout.ofProductions draft.productions.toList
  return ⟨draft.names, draft.symbols, layout.entries, layout.slots, ⟨start⟩,
    grammar.rules.length⟩

end Gll
