import Gll.Scheduler.Operation

/-!
Routines: what an interpreter wants done, as a plan of requests to the scheduler. A routine has no
access to the scheduler but through its requests.
-/

set_option autoImplicit false

namespace Gll

/-- Requests to the scheduler with a value at the end. -/
abbrev Routine := Plan Operation

namespace Routine

variable {α β σ : Type}

/-- The routine that makes one request. -/
def request (operation : Operation α) : Routine α := Plan.request operation

/-- Carries out a routine. -/
def run (tracer : Tracer σ) (routine : Routine α) : EStateM Fault (World σ) α :=
  Plan.run (Operation.run tracer) routine

/-- The tasks that are offered while a routine is carried out. -/
def offers (tracer : Tracer σ) (routine : Routine α) : World σ → List Task :=
  routine.account (Operation.run tracer) (Operation.offers tracer)

/-! ## Requests -/

/-- Reads something off the scheduler. -/
def look (read : Scheduler → Except Fault α) : Routine α := request (.look read)

/-- Breaks off. -/
def fail (fault : Fault) : Routine α := look fun _ => .error fault

/-- Reports an event. -/
def note (event : Event) : Routine Unit := request (.note event)

/-- The current position. -/
def current : Routine Position := look fun s => .ok s.current

/-- The node of the current symbol. -/
def terminal : Routine (Option SymbolId) := look fun s => .ok s.terminal

/-- The empty prefix at the current position. -/
def emptyPrefix : Routine PrefixId := request .emptyPrefix

/-- Packs a right-hand side under a derivation. -/
def derive (nonterminal : Nonterminal) (first : Position) (child : PrefixId) : Routine SymbolId :=
  request (.derive nonterminal first child)

/-- Schedules a slot to be resumed for a caller. -/
def scheduleNow (label : Label) (caller : StackId) (stem : PrefixId) : Routine Bool :=
  request (.scheduleNow label caller stem)

/-- Stages a terminal for a frame. -/
def scheduleLater (frame : StackId) (result : SymbolId) : Routine Bool :=
  request (.scheduleLater frame result)

/-- Links a caller under the frame of a label at the current position. -/
def push (label : Label) (caller : StackId) (stem : PrefixId) : Routine StackId := do
  request (.push label caller (← current).offset stem)

/-- Gives a result to a frame. -/
def pop (frame : StackId) (result : SymbolId) : Routine Unit := request (.pop frame result)

end Routine

end Gll
