import Gll.Label
import Gll.NameTable
import Gll.Pattern
import Gll.Text.Quoted

/-!
Programs made of slots. Every alternative `X ::= x₁ … xₙ` takes up `n + 1` slots in a row. Slot `k`
is the dotted item `X ::= x₁ … xₖ · xₖ₊₁ … xₙ` and holds the instruction for `xₖ₊₁`, or, once the
dot has reached the end, the one that completes `X`. The number of a slot is its label.

Slot 0 is not part of an alternative: it is where the call of the start symbol continues.
-/

set_option autoImplicit false

namespace Gll

/-- A test of the current character. -/
inductive Matcher where
  | char (expected : Char)
  | pattern (regex : Pattern)

namespace Matcher

/-- Whether a character passes the test. -/
def accepts : Matcher → Char → Bool
  | char expected, c => expected == c
  | pattern regex, c => regex.matchesChar c

/-- A test as it is shown. -/
def text : Matcher → String
  | char expected => Text.quotedChar expected
  | pattern regex => regex.text

end Matcher

/-- A symbol of an alternative. -/
inductive Atom where
  | terminal (matcher : Matcher)
  | nonterminal (nonterminal : Nonterminal)

/-- What is done at a slot. -/
inductive Instruction where
  /-- The start symbol has been recognized; there is nothing more to do. -/
  | accept
  /-- Test the current character and go on at the next slot. -/
  | terminal (matcher : Matcher)
  /-- Call a nonterminal, to go on at the next slot. -/
  | call (callee : Nonterminal)
  /-- The alternative is complete. -/
  | complete (nonterminal : Nonterminal)

/-- The instruction for a symbol. -/
def Atom.instruction : Atom → Instruction
  | terminal matcher => .terminal matcher
  | nonterminal callee => .call callee

/-- Whether an instruction ends an alternative. -/
def Instruction.isComplete : Instruction → Bool
  | complete _ => true
  | _ => false

/-- A slot: the nonterminal that it belongs to, unless it is slot 0, the number of symbols before
the dot, and its instruction. -/
structure Slot where
  nonterminal : Option Nonterminal
  dot : Nat
  instruction : Instruction

/-- A compiled grammar. The first `ruleCount` nonterminals are the rules of the grammar, in order,
and the others were introduced for parts of rules. -/
structure Program where
  names : NameTable
  /-- The number of the name of each nonterminal. -/
  symbols : Array NameId
  /-- The labels at which the alternatives of each nonterminal begin, in order. -/
  entries : Array (List Label)
  slots : Array Slot
  start : Nonterminal
  ruleCount : Nat

namespace Program

/-- The label of slot 0. -/
def acceptLabel : Label := ⟨0⟩

/-! ## Layout -/

/-- The slots of an alternative. -/
def slotsOf (owner : Nonterminal) (alternative : List Atom) : List Slot :=
  alternative.zipIdx.map (fun (atom, dot) => ⟨some owner, dot, atom.instruction⟩)
    ++ [⟨some owner, alternative.length, .complete owner⟩]

/-- Slots, and the entry labels of the nonterminals whose alternatives they hold. -/
structure Layout where
  slots : Array Slot
  entries : Array (List Label)

namespace Layout

/-- Slot 0 alone. -/
def initial : Layout := ⟨#[⟨none, 0, .accept⟩], #[]⟩

/-- Appends alternatives of a nonterminal to the slots and gathers their labels. -/
def addAlternatives (owner : Nonterminal) :
    Array Slot → List (List Atom) → Array Slot × List Label
  | slots, [] => (slots, [])
  | slots, alternative :: rest =>
    let label : Label := ⟨slots.size⟩
    let (slots, labels) := addAlternatives owner (slots ++ slotsOf owner alternative) rest
    (slots, label :: labels)

/-- Appends the alternatives of the next nonterminal. -/
def addProduction (layout : Layout) (alternatives : List (List Atom)) : Layout :=
  let (slots, labels) := addAlternatives ⟨layout.entries.size⟩ layout.slots alternatives
  ⟨slots, layout.entries.push labels⟩

/-- The layout of the alternatives of all nonterminals. -/
def ofProductions (productions : List (List (List Atom))) : Layout :=
  productions.foldl addProduction initial

end Layout

/-! ## Looking up -/

/-- How many slots there are. -/
def slotCount (program : Program) : Nat := program.slots.size

/-- How many nonterminals there are. -/
def nonterminalCount (program : Program) : Nat := program.entries.size

/-- The nonterminals in order. -/
def nonterminals (program : Program) : List Nonterminal :=
  (List.range program.nonterminalCount).map Nonterminal.mk

/-- The labels in order. -/
def labels (program : Program) : List Label := (List.range program.slotCount).map Label.mk

/-- The slot of a label. -/
def slot? (program : Program) (label : Label) : Option Slot := program.slots[label.index]?

/-- The labels at which the alternatives of a nonterminal begin. -/
def entries? (program : Program) (nonterminal : Nonterminal) : Option (List Label) :=
  program.entries[nonterminal.index]?

/-- The slots of the symbols of the alternative in which a label lies; slot 0 lies in none. -/
def symbols? (program : Program) (label : Label) : Option (List Slot) := do
  let slot ← program.slot? label
  if slot.nonterminal.isNone then return []
  else
    let following := program.slots.extract (label.index - slot.dot) program.slots.size
    return following.toList.takeWhile fun slot => !slot.instruction.isComplete

/-- The name of a nonterminal. -/
def name? (program : Program) (nonterminal : Nonterminal) : Option String := do
  program.names.name? (← program.symbols[nonterminal.index]?)

/-- Whether a nonterminal was introduced for a part of a rule. -/
def isAuxiliary (program : Program) (nonterminal : Nonterminal) : Bool :=
  program.ruleCount ≤ nonterminal.index

/-- The nonterminal of a rule; names of parts of rules are not found. -/
def find? (program : Program) (name : String) : Option Nonterminal := do
  let symbol ← program.names.find? name
  let index ← (program.symbols.toList.take program.ruleCount).idxOf? symbol
  return ⟨index⟩

end Program

end Gll
