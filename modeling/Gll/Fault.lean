import Gll.Stack.Basic

/-!
Faults: a handle that names nothing where something is needed. A parse of a compiled grammar meets
none of them. They can be met by whoever drives a scheduler with handles of another one, or asks a
program about labels that it does not have.

There is one fault of another kind, that a number gets too large for its word. It is met where the
references in a forest are counted, and only there.
-/

set_option autoImplicit false

namespace Gll

/-- Why an operation breaks off. -/
inductive Fault where
  | unknownStack (id : StackId)
  | unknownSymbol (id : SymbolId)
  | unknownStem (id : PrefixId)
  | unknownLabel (label : Label)
  | unknownNonterminal (nonterminal : Nonterminal)
  /-- The stack has no link of this number. -/
  | noLink (id : StackId) (number : Nat)
  /-- A way through the forest goes in a circle. -/
  | endless
  /-- A count does not fit its word. -/
  | overflow
deriving DecidableEq, Repr

/-- An optional value, with the fault that its absence is. -/
def Fault.unlessSome {α : Type} (fault : Fault) : Option α → Except Fault α
  | some value => .ok value
  | none => .error fault

@[simp] theorem Fault.unlessSome_eq_ok_iff {α : Type} {fault : Fault} {option : Option α}
    {value : α} : fault.unlessSome option = .ok value ↔ option = some value := by
  cases option <;> simp [unlessSome]

namespace Forest

/-- The symbol node of a number. -/
def symbolNode (forest : Forest) (id : SymbolId) : Except Fault SymbolNode :=
  (Fault.unknownSymbol id).unlessSome (forest.symbolNode? id)

/-- The prefix node of a number. -/
def prefixNode (forest : Forest) (id : PrefixId) : Except Fault PrefixNode :=
  (Fault.unknownStem id).unlessSome (forest.prefixNode? id)

end Forest

namespace StackGraph

/-- The stack of a number. -/
def stack (graph : StackGraph) (id : StackId) : Except Fault Stack :=
  (Fault.unknownStack id).unlessSome (graph.stack? id)

/-- A link of a stack. -/
def link (graph : StackGraph) (id : StackId) (number : Nat) : Except Fault Link := do
  (Fault.noLink id number).unlessSome (← graph.stack id).links[number]?

end StackGraph

end Gll
