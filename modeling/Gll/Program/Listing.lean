import Gll.Program.Basic
import Gll.Text.Styled

/-!
The listing of a program: one line per slot with its label and its dotted item, grouped by
nonterminal.

```text
start S
  L0  accept

S
  L1  S ::= · '(' S ')'
  L2  S ::= '(' · S ')'
```

Everything that is shown of a program is looked up, so that labels and nonterminals of another
program have no text.
-/

set_option autoImplicit false

namespace Gll.Program

open Text

/-! ## Items -/

/-- A symbol of an alternative. -/
def symbolText? (program : Program) (slot : Slot) : Option Styled :=
  match slot.instruction with
  | .terminal matcher => some (paint .terminal matcher.text)
  | .call callee => (program.name? callee).map (paint .name)
  | .accept | .complete _ => none

/-- The dot of an item, with the blank before it. -/
def dotText : Styled := plain " " ++ paint .faint "·"

/-- Symbols with a blank before each, and the dot after the first `dot` of them. -/
def withDot : Nat → List Styled → Styled
  | 0, symbols => dotText ++ symbols.flatMap fun symbol => plain " " ++ symbol
  | dot + 1, symbol :: rest => plain " " ++ symbol ++ withDot dot rest
  | _ + 1, [] => []

/-- The dotted item of a slot: `S ::= S · 'a'`. -/
def item? (program : Program) (label : Label) : Option Styled := do
  let slot ← program.slot? label
  match slot.nonterminal with
  | none => return plain "accept"
  | some nonterminal =>
    let name ← program.name? nonterminal
    let symbols ← (← program.symbols? label).mapM program.symbolText?
    return paint .name name ++ plain " ::=" ++ withDot slot.dot symbols

/-- Texts with a blank between any two. -/
def spaced : List Styled → Styled
  | [] => []
  | [text] => text
  | text :: rest => text ++ plain " " ++ spaced rest

/-- The right-hand side of the alternative in which a label lies: `'a' S`, or `ε` without
symbols. -/
def rightHandSide? (program : Program) (label : Label) : Option Styled := do
  let symbols ← (← program.symbols? label).mapM program.symbolText?
  return if symbols.isEmpty then plain "ε" else spaced symbols

/-! ## Lines -/

/-- The width of the widest label. -/
def labelWidth (program : Program) : Nat := (Label.mk (program.slotCount - 1)).text.length

/-- The line of a slot. -/
def slotLine (program : Program) (label : Label) (text : Styled) : Styled :=
  plain "  " ++ paint .faint (padRight program.labelWidth label.text) ++ plain "  " ++ text

/-- The labels of the alternative that begins at a label. -/
def blockLabels? (program : Program) (entry : Label) : Option (List Label) := do
  let symbols ← program.symbols? entry
  return (List.range (symbols.length + 1)).map fun dot => ⟨entry.index + dot⟩

/-- The lines of a nonterminal. -/
def nonterminalLines? (program : Program) (nonterminal : Nonterminal) : Option (List Styled) := do
  let name ← program.name? nonterminal
  let labels ← (← program.entries? nonterminal).mapM program.blockLabels?
  let lines ← labels.flatten.mapM fun label => do
    return program.slotLine label (← program.item? label)
  return [[], paint .name name] ++ lines

/-- The lines of a program. -/
def listing? (program : Program) : Option (List Styled) := do
  let start ← program.name? program.start
  let head : List Styled :=
    [plain "start " ++ paint .name start, program.slotLine acceptLabel (plain "accept")]
  let groups ← program.nonterminals.mapM program.nonterminalLines?
  return head ++ groups.flatten

end Gll.Program
