import Gll.Forest.Basic

/-!
Graph-structured stacks. Where a call stack would hold one return address, a *frame* holds a set of
links, one for every caller that came to it, each with the prefix that the caller had recognized
when it called. Frames are numbered in the order in which they are made, after the *initial* stack,
which is the bottom of all of them and has no callers.

Stacks are never removed.
-/

set_option autoImplicit false

namespace Gll

/-- The number of a stack. -/
structure StackId where
  index : Nat
deriving DecidableEq, Hashable, Repr, Inhabited

/-- A stack as it is shown: `g3`. -/
def StackId.text (id : StackId) : String := "g" ++ toString id.index

/-- The bottom of every stack. -/
def StackId.initial : StackId := ⟨0⟩

/-- An edge from a frame to one of its callers, with the prefix recognized before the call. -/
structure Link where
  caller : StackId
  stem : PrefixId
deriving DecidableEq, Repr

/-- A stack. -/
inductive Stack where
  | initial
  /-- Results continue at `label` in each caller; `origin` is the index of the symbol that was
  current when the frame was made. -/
  | frame (label : Label) (origin : Nat) (links : Array Link)
deriving Repr

namespace Stack

/-- The label at which a frame continues in its callers. -/
def label? : Stack → Option Label
  | initial => none
  | frame label _ _ => some label

/-- The links of a stack. -/
def links : Stack → Array Link
  | initial => #[]
  | frame _ _ links => links

/-- A frame with one more link, if it does not have it yet; also whether it did not. -/
def link (link : Link) : Stack → Bool × Stack
  | initial => (false, initial)
  | frame label origin links =>
    let (isNew, links) := insertNew links link
    (isNew, frame label origin links)

end Stack

/-- Stacks in the order in which they were made. -/
structure StackGraph where
  members : Array Stack

namespace StackGraph

/-- The initial stack alone. -/
def empty : StackGraph := ⟨#[.initial]⟩

/-- The stack of a number. -/
def stack? (graph : StackGraph) (id : StackId) : Option Stack := graph.members[id.index]?

/-- Adds a frame without links. -/
def addFrame (graph : StackGraph) (label : Label) (origin : Nat) : StackId × StackGraph :=
  (⟨graph.members.size⟩, ⟨graph.members.push (.frame label origin #[])⟩)

/-- Whether a link would be new to a frame. -/
def isNewLink (graph : StackGraph) (id : StackId) (link : Link) : Bool :=
  match graph.stack? id with
  | some (.frame _ _ links) => !links.contains link
  | _ => false

/-- Adds a link to a frame that does not have it yet. -/
def addLink (graph : StackGraph) (id : StackId) (link : Link) : StackGraph :=
  ⟨graph.members.modify id.index fun stack => (stack.link link).2⟩

end StackGraph

end Gll
