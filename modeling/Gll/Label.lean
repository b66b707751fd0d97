/-!
Handles for the places of a grammar program. A *label* names one slot, that is one dotted item
`X ::= α · β`; a *nonterminal* is named by its number. Both are compared and hashed, and shown with
a letter in front.
-/

set_option autoImplicit false

namespace Gll

/-- A slot of a program. -/
structure Label where
  index : Nat
deriving DecidableEq, Hashable, Repr, Inhabited

namespace Label

/-- The label of the slot that follows. -/
def next (label : Label) : Label := ⟨label.index + 1⟩

/-- A label as it is shown: `L3`. -/
def text (label : Label) : String := "L" ++ toString label.index

end Label

/-- A nonterminal of a program. -/
structure Nonterminal where
  index : Nat
deriving DecidableEq, Hashable, Repr, Inhabited

namespace Nonterminal

/-- A nonterminal as it is shown: `N3`. -/
def text (nonterminal : Nonterminal) : String := "N" ++ toString nonterminal.index

end Nonterminal

end Gll
