import Gll.Program.Listing
import Gll.Trace.Transcript
import Std.Data.HashMap

/-!
Outlines of forests: a forest as indented text.

```text
S [0,2) ::= 'a' S
  'a' [0,1)
  S [1,2) ::= 'a'
    'a' [1,2)
```

The forest is a graph and its outline is a tree. A derivation to which several paths lead is written
out at its first place only, where it gets a *tag* `#n`; its other places have the tag and
`(see above)`. That also ends the circles. To know which derivations need a tag, references are
counted first, along the paths that the outline will take: each derivation is gone through once, and
a prefix once for every derivation and every way that leads to it. So a count can be far larger than
the forest, and a count that does not fit its word is a fault.

Recursion goes by an allowance of steps that is computed from the number of nodes. It is larger than
any path that does not go through the same prefix twice between two derivations.
-/

set_option autoImplicit false

namespace Gll.Forest

open Text

/-! ## Counting references -/

/-- How often each symbol is referred to. The counts are words of 32 bits. -/
abbrev Counts := Std.HashMap SymbolId UInt32

/-- The symbols that wait to be gone through, and the references that were counted so far. -/
abbrev Tallied := List SymbolId × Counts

/-- Counts a reference, unless the count is at its largest. The first reference also makes the
symbol wait to be gone through. -/
def tally : Tallied → SymbolId → Except Fault Tallied
  | (waiting, counts), id =>
    match counts[id]? with
    | some count =>
      if count.toNat + 1 < UInt32.size then .ok (waiting, counts.insert id (count + 1))
      else .error .overflow
    | none => .ok (id :: waiting, counts.insert id 1)

/-- Counts the symbols to which a prefix refers, once for every way through it. -/
def tallyPrefix (forest : Forest) : Nat → PrefixId → Tallied → Except Fault Tallied
  | 0, _, _ => .error .endless
  | steps + 1, id, tallied => do
    let node ← forest.prefixNode id
    node.children.toList.foldlM (fun tallied child => do
      tallyPrefix forest steps child.left (← tally tallied child.right)) tallied

/-- Counts the symbols to which a derivation refers. -/
def tallySymbol (forest : Forest) (id : SymbolId) (tallied : Tallied) : Except Fault Tallied := do
  let node ← forest.symbolNode id
  node.alternatives.toList.foldlM (fun tallied child =>
    forest.tallyPrefix (forest.prefixes.size + 1) child tallied) tallied

/-- Goes through the symbols that wait. -/
def countFrom (forest : Forest) : Nat → Tallied → Except Fault Counts
  | _, ([], counts) => .ok counts
  | 0, (_ :: _, _) => .error .endless
  | steps + 1, (id :: waiting, counts) => do
    countFrom forest steps (← forest.tallySymbol id (waiting, counts))

/-- How often each symbol below a root is referred to; being the root counts once. -/
def referenceCounts (forest : Forest) (root : SymbolId) : Except Fault Counts :=
  forest.countFrom (forest.symbols.size + 1) ([root], (∅ : Counts).insert root 1)

/-! ## Chains -/

/-- Goes back through a prefix as long as there is one way to build it. What is left is a prefix
with several ways, if any, and the symbols after it from left to right. -/
def chain (forest : Forest) :
    Nat → PrefixId → List SymbolId → Except Fault (Option (PrefixId × PrefixNode) × List SymbolId)
  | 0, _, _ => .error .endless
  | steps + 1, id, after => do
    let node ← forest.prefixNode id
    match node.children.toList with
    | [] => return (none, after)
    | [child] => chain forest steps child.left (child.right :: after)
    | _ => return (some (id, node), after)

/-! ## Writing -/

/-- An outline as far as it is written. -/
structure Outline where
  /-- The tags that were given out. -/
  tags : Std.HashMap SymbolId Nat
  lines : Array Styled

/-- A step of writing an outline. -/
abbrev Write := StateT Outline (Except Fault)

namespace Outline

/-- Nothing written. -/
def empty : Outline := ⟨∅, #[]⟩

/-- Writes a line. -/
def write (depth : Nat) (text : Styled) : Write Unit := fun outline =>
  .ok ((), { outline with lines := outline.lines.push (plain (spaces (2 * depth)) ++ text) })

/-- The tag of a symbol, with whether it was given out before. -/
def tagOf (id : SymbolId) : Write (Nat × Bool) := fun outline =>
  match outline.tags[id]? with
  | some tag => .ok ((tag, true), outline)
  | none =>
    let tag := outline.tags.size + 1
    .ok ((tag, false), { outline with tags := outline.tags.insert id tag })

end Outline

/-- A terminal as it is written. -/
def terminalText (position : Position) : String :=
  match position.char? with
  | some char => quotedChar char
  | none => position.text

/-- A painted text with its span. -/
def withSpan (text : Styled) (span : Span) : Styled :=
  text ++ plain " " ++ paint .faint span.text

/-- The right-hand side that a complete prefix spells out, after the sign. -/
def production (forest : Forest) (program : Program) (id : PrefixId) : Except Fault Styled := do
  match (← forest.prefixNode id).label? with
  | none => return plain "::= ε"
  | some label =>
    let text ← (Fault.unknownLabel label).unlessSome (program.rightHandSide? label)
    return plain "::= " ++ text

variable (forest : Forest) (program : Program) (counts : Counts)

mutual

/-- Writes out a symbol. -/
def writeSymbol : Nat → Nat → SymbolId → Write Unit
  | 0, _, _ => throw .endless
  | steps + 1, depth, id => do
    match ← forest.symbolNode id with
    | .terminal position =>
      Outline.write depth (withSpan (paint .terminal (terminalText position))
        (SymbolNode.terminal position).span)
    | .nonterminal symbol first last alternatives =>
      let span := (SymbolNode.nonterminal symbol first last alternatives).span
      let head := withSpan (paint .name (← program.name symbol)) span
      if 1 < counts.getD id 0 then
        let (tag, isKnown) ← Outline.tagOf id
        let head := head ++ plain (" #" ++ toString tag)
        if isKnown then Outline.write depth (head ++ plain " (see above)")
        else writeAlternatives steps depth head alternatives.toList
      else writeAlternatives steps depth head alternatives.toList

/-- Writes the head of a derivation and its right-hand sides. -/
def writeAlternatives : Nat → Nat → Styled → List PrefixId → Write Unit
  | 0, _, _, _ => throw .endless
  | _ + 1, depth, head, [] => Outline.write depth head
  | steps + 1, depth, head, [child] => do
    Outline.write depth (head ++ plain " " ++ (← forest.production program child))
    writePrefix steps (depth + 1) child
  | steps + 1, depth, head, children => do
    Outline.write depth (head ++ plain " " ++ paint .alarm "ambiguous")
    children.forM fun child => do
      Outline.write (depth + 1) (← forest.production program child)
      writePrefix steps (depth + 2) child

/-- Writes the symbols of a prefix on one level, from left to right. -/
def writePrefix : Nat → Nat → PrefixId → Write Unit
  | 0, _, _ => throw .endless
  | steps + 1, depth, id => do
    let (stop, symbols) ← forest.chain (forest.prefixes.size + 1) id []
    match stop with
    | none => pure ()
    | some (_, node) =>
      Outline.write depth
        (withSpan (plain "prefix") node.span ++ plain " " ++ paint .alarm "ambiguous")
      node.children.toList.forM fun child => do
        Outline.write (depth + 1) (plain ("split " ++ toString child.split.offset))
        writePrefix steps (depth + 2) child.left
        writeSymbol steps (depth + 2) child.right
    symbols.forM (writeSymbol steps depth)

end

/-- The outline of what is below a root. -/
def outline (root : SymbolId) : Except Fault (List Styled) := do
  let counts ← forest.referenceCounts root
  let steps := (forest.symbols.size + 1) * (forest.prefixes.size + 3)
  let ((), outline) ← forest.writeSymbol program counts steps 0 root Outline.empty
  return outline.lines.toList

end Gll.Forest
