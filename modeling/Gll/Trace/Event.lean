import Gll.Fault

/-!
What happens in a parse, as it happens. An *event* is one step that somebody may want to see; a
*tracer* says what an event adds to a trace. A tracer may also refuse an event that it cannot show,
and then the operation that reported the event breaks off there.

Whether a tracer refuses an event depends on the event alone and not on the trace so far.
-/

set_option autoImplicit false

namespace Gll

/-- A step of a parse. -/
inductive Event where
  /-- The generation of a position was opened. -/
  | advance (position : Position)
  /-- The slot of a label is run for a caller. -/
  | descriptor (label : Label) (caller : StackId) (stem : PrefixId)
  /-- A caller was linked under a frame; `isNew` unless it already was. -/
  | push (frame : StackId) (label : Label) (origin : Nat) (caller : StackId) (isNew : Bool)
  /-- The current symbol was tested. -/
  | terminal (label : Label) (position : Position) (isMatch : Bool)
  /-- The terminal read at a position is delivered to a frame. -/
  | shift (frame : StackId) (position : Position)
  /-- A frame has a result; `isNew` unless it already had it. -/
  | pop (frame : StackId) (result : SymbolId) (nonterminal : Option Nonterminal) (span : Span)
      (isNew : Bool)
  /-- An earlier result of a frame goes to a caller that came later. -/
  | redeliver (frame : StackId) (result : SymbolId) (caller : StackId)
  /-- A descriptor was not scheduled a second time. -/
  | skipNow (label : Label) (caller : StackId)
  /-- A terminal was not staged a second time. -/
  | skipLater (frame : StackId)
  /-- The start symbol derives a span. -/
  | accept (span : Span)
deriving DecidableEq, Repr

/-- Keeps traces of type `σ`: what an event adds to one, or why it cannot be shown. -/
structure Tracer (σ : Type) where
  record : Event → Except Fault (σ → σ)

namespace Tracer

/-- Keeps nothing. -/
def silent : Tracer Unit := ⟨fun _ => .ok id⟩

/-- Keeps the events. -/
def recorder : Tracer (Array Event) := ⟨fun event => .ok fun events => events.push event⟩

end Tracer

end Gll
