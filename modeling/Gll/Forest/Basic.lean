import Gll.Label
import Gll.Position

/-!
Shared packed parse forests. A forest has two kinds of nodes, each kind in an arena of its own to
which nodes are only added:

* *symbol nodes* are derivations of one symbol: a terminal, or a nonterminal over a span with all
  the right-hand sides that derive the span packed under it;
* *prefix nodes* are recognized beginnings of right-hand sides: the empty one, or a shorter prefix
  and one more symbol, with all the ways to split the span between the two packed under it.

Nodes refer to one another by number, so that a forest may have cycles. That equal nodes are made
only once is not the business of the arenas.
-/

set_option autoImplicit false

namespace Gll

/-- Appends an element that is not there yet; also tells whether it was not. -/
def insertNew {α : Type} [BEq α] (items : Array α) (item : α) : Bool × Array α :=
  if items.contains item then (false, items) else (true, items.push item)

/-- The number of a symbol node. -/
structure SymbolId where
  index : Nat
deriving DecidableEq, Hashable, Repr, Inhabited

/-- A symbol node as it is shown: `d3`. -/
def SymbolId.text (id : SymbolId) : String := "d" ++ toString id.index

/-- The number of a prefix node. -/
structure PrefixId where
  index : Nat
deriving DecidableEq, Hashable, Repr, Inhabited

/-- A prefix node as it is shown: `i3`. -/
def PrefixId.text (id : PrefixId) : String := "i" ++ toString id.index

/-- One way to build a prefix: `left` covers the span up to `split`, `right` the rest of it. -/
structure Split where
  label : Label
  split : Position
  left : PrefixId
  right : SymbolId
deriving DecidableEq, Repr

/-- A derivation of one symbol. -/
inductive SymbolNode where
  | terminal (position : Position)
  /-- The alternatives are complete right-hand sides. -/
  | nonterminal (symbol : Nonterminal) (first last : Position) (alternatives : Array PrefixId)
deriving Repr

/-- A recognized beginning of a right-hand side. -/
inductive PrefixNode where
  | empty (position : Position)
  | cons (label : Label) (first last : Position) (children : Array Split)
deriving Repr

namespace SymbolNode

/-- The position at which a node begins. -/
def first : SymbolNode → Position
  | terminal position => position
  | nonterminal _ first _ _ => first

/-- The span of a node; a terminal covers one symbol. -/
def span : SymbolNode → Span
  | terminal position => ⟨position.offset, position.offset + 1⟩
  | nonterminal _ first last _ => ⟨first.offset, last.offset⟩

/-- The nonterminal that a node derives. -/
def nonterminal? : SymbolNode → Option Nonterminal
  | terminal _ => none
  | nonterminal symbol _ _ _ => some symbol

/-- The right-hand sides packed under a node. -/
def alternatives : SymbolNode → Array PrefixId
  | terminal _ => #[]
  | nonterminal _ _ _ alternatives => alternatives

/-- Packs one more right-hand side under a node; a terminal has none. -/
def pack? (child : PrefixId) : SymbolNode → Option SymbolNode
  | terminal _ => none
  | nonterminal symbol first last alternatives =>
    some (nonterminal symbol first last (insertNew alternatives child).2)

end SymbolNode

namespace PrefixNode

/-- The position at which a node begins. -/
def first : PrefixNode → Position
  | empty position => position
  | cons _ first _ _ => first

/-- The span of a node. -/
def span : PrefixNode → Span
  | empty position => ⟨position.offset, position.offset⟩
  | cons _ first last _ => ⟨first.offset, last.offset⟩

/-- The ways to build the prefix that are packed under a node. -/
def children : PrefixNode → Array Split
  | empty _ => #[]
  | cons _ _ _ children => children

/-- The label of a node. -/
def label? : PrefixNode → Option Label
  | empty _ => none
  | cons label _ _ _ => some label

/-- Packs one more way to build the prefix under a node; there is only one empty prefix. -/
def pack? (child : Split) : PrefixNode → Option PrefixNode
  | empty _ => none
  | cons label first last children => some (cons label first last (insertNew children child).2)

end PrefixNode

/-- A forest: its nodes in the order in which they were made. -/
structure Forest where
  symbols : Array SymbolNode
  prefixes : Array PrefixNode

namespace Forest

/-- The forest without nodes. -/
def empty : Forest := ⟨#[], #[]⟩

/-! ## Nodes -/

/-- The node of a number. -/
def symbolNode? (forest : Forest) (id : SymbolId) : Option SymbolNode := forest.symbols[id.index]?

/-- The node of a number. -/
def prefixNode? (forest : Forest) (id : PrefixId) : Option PrefixNode := forest.prefixes[id.index]?

/-- Adds a symbol node. -/
def addSymbol (forest : Forest) (node : SymbolNode) : SymbolId × Forest :=
  (⟨forest.symbols.size⟩, { forest with symbols := forest.symbols.push node })

/-- Adds a prefix node. -/
def addPrefix (forest : Forest) (node : PrefixNode) : PrefixId × Forest :=
  (⟨forest.prefixes.size⟩, { forest with prefixes := forest.prefixes.push node })

/-- Packs a right-hand side under a symbol node, if there is such a node that takes one. -/
def packAlternative (forest : Forest) (id : SymbolId) (child : PrefixId) : Forest :=
  { forest with
    symbols := forest.symbols.modify id.index fun node => (node.pack? child).getD node }

/-- Packs a way to build it under a prefix node, if there is such a node that takes one. -/
def packSplit (forest : Forest) (id : PrefixId) (child : Split) : Forest :=
  { forest with
    prefixes := forest.prefixes.modify id.index fun node => (node.pack? child).getD node }

/-- Whether more than one right-hand side is packed under a symbol node. -/
def isAmbiguousSymbol (forest : Forest) (id : SymbolId) : Bool :=
  match forest.symbolNode? id with
  | some node => node.alternatives.size > 1
  | none => false

/-- Whether more than one way to build it is packed under a prefix node. -/
def isAmbiguousPrefix (forest : Forest) (id : PrefixId) : Bool :=
  match forest.prefixNode? id with
  | some node => node.children.size > 1
  | none => false

/-! ## Reading a prefix -/

/-- Why a prefix cannot be read off as a string of symbols. -/
inductive ReadError where
  /-- A prefix on the way is built in several ways, or in none. -/
  | ambiguous (node : PrefixId) (count : Nat)
  /-- A prefix on the way is not in the forest. -/
  | unknown (node : PrefixId)
  /-- The way goes in a circle. -/
  | endless
deriving DecidableEq, Repr

/-- What the user is told about an ambiguous prefix. -/
def ambiguityMessage (node : PrefixId) (count : Nat) : String :=
  node.text ++ " has " ++ toString count ++ " packed derivations, expected exactly one"

/-- Reads a prefix from its end, putting its symbols before those that are given. A way that does
not go in a circle has no more steps than there are prefixes. -/
def readBack (forest : Forest) : Nat → PrefixId → List SymbolId → Except ReadError (List SymbolId)
  | 0, _, _ => .error .endless
  | steps + 1, id, after =>
    match forest.prefixNode? id with
    | none => .error (.unknown id)
    | some (.empty _) => .ok after
    | some (.cons _ _ _ children) =>
      match children.toList with
      | [child] => readBack forest steps child.left (child.right :: after)
      | children => .error (.ambiguous id children.length)

/-- The symbols of a prefix, from left to right. -/
def subderivations (forest : Forest) (id : PrefixId) : Except ReadError (List SymbolId) :=
  forest.readBack (forest.prefixes.size + 1) id []

end Forest

end Gll
