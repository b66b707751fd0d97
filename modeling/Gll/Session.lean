import Gll.Interpreter

/-!
Parsing sessions. A session feeds the input to a scheduler, symbol by symbol, and does the pending
work of each generation before the next is opened. *Fuel* bounds the work of the whole session: one
unit for each task. It is asked for before a task is taken out, so that a session that ran out of
fuel still has all of its work.
-/

set_option autoImplicit false

namespace Gll

/-- Why a call does not come to its end. -/
inductive Halt where
  | fault (fault : Fault)
  | error (error : RunError)
deriving DecidableEq, Repr

/-- A parse in progress, with a trace of type `σ` and the store of type `μ` of its interpreter. -/
structure Session (σ μ : Type) where
  world : World σ
  store : μ
  /-- How many tasks may still be done. -/
  fuel : Nat
  /-- How many tasks could be done at the beginning. -/
  limit : Nat

/-- A call on a session. When it halts, what was done up to then stays done. -/
abbrev Call (σ μ : Type) := EStateM Halt (Session σ μ)

namespace Session

variable {σ μ α : Type}

/-- The fuel of a session for which no other is asked. -/
def defaultFuel : Nat := 10000000

/-- A session in which nothing was read yet. -/
def initial (interpreter : Interpreter μ) (trace : σ) (store : μ) (limit : Nat) :
    Session σ μ where
  world := ⟨.initial interpreter.start, trace⟩
  store := store
  fuel := limit
  limit := limit

/-- The state of the parse. -/
def scheduler (session : Session σ μ) : Scheduler := session.world.scheduler

/-- The trace of the parse. -/
def trace (session : Session σ μ) : σ := session.world.trace

/-- Whether the end of the input was given and the start symbol derives all of it. -/
def isAccepted (session : Session σ μ) : Bool := session.scheduler.isAccepted

/-! ## Parts of calls -/

/-- Does something to the world of a session. -/
def act (tracer : Tracer σ) (action : Act α) : Call σ μ α := fun ⟨world, store, fuel, limit⟩ =>
  match action.run tracer world with
  | .ok value world => .ok value ⟨world, store, fuel, limit⟩
  | .error fault world => .error (.fault fault) ⟨world, store, fuel, limit⟩

/-- Carries out a routine of the interpreter, which may change the store. -/
def perform (tracer : Tracer σ) (routine : StateT μ Routine Unit) : Call σ μ Unit :=
  fun ⟨world, store, fuel, limit⟩ =>
    match (routine.run store).run tracer world with
    | .ok ((), store) world => .ok () ⟨world, store, fuel, limit⟩
    | .error fault world => .error (.fault fault) ⟨world, store, fuel, limit⟩

/-- Opens the generation of the next symbol, or of the end of the input, if that is possible now. -/
def openGeneration (tracer : Tracer σ) (symbol : Option Char) : Call σ μ Unit := do
  match ← act tracer (Act.look fun s => .ok s.refusal?) with
  | some error => throw (.error error)
  | none =>
    act tracer do
      Act.update fun s => ((), s.advance symbol)
      Act.emit (.advance (← Act.look fun s => .ok s.current))

/-- Takes out the next task, for a unit of fuel. -/
def takeTask : Call σ μ (Option Task)
  | ⟨⟨scheduler, trace⟩, store, fuel, limit⟩ =>
    match scheduler.dequeue?, fuel with
    | none, _ => .ok none ⟨⟨scheduler, trace⟩, store, fuel, limit⟩
    | some _, 0 =>
      .error (.error (.fuelExhausted limit)) ⟨⟨scheduler, trace⟩, store, fuel, limit⟩
    | some (task, scheduler), fuel + 1 =>
      .ok (some task) ⟨⟨scheduler, trace⟩, store, fuel, limit⟩

/-- Does a task. -/
def runTask (interpreter : Interpreter μ) (tracer : Tracer σ) (task : Task) : Call σ μ Unit :=
  perform tracer (interpreter.routine task)

/-- Does pending tasks until none is left, for a session with this much fuel. -/
def drainWith (interpreter : Interpreter μ) (tracer : Tracer σ) : Nat → Call σ μ Unit
  | 0, session =>
    match takeTask session with
    | .ok _ session => .ok () session
    | .error halt session => .error halt session
  | fuel + 1, session =>
    match takeTask session with
    | .ok none session => .ok () session
    | .ok (some task) session =>
      match runTask interpreter tracer task session with
      | .ok () session => drainWith interpreter tracer fuel session
      | .error halt session => .error halt session
    | .error halt session => .error halt session

/-! ## Calls -/

variable (interpreter : Interpreter μ) (tracer : Tracer σ)

/-- Opens the next generation without doing its work. The first one is seeded. -/
def advance (symbol : Option Char) : Call σ μ Unit := do
  openGeneration tracer symbol
  let isFirst ← act tracer (Act.look fun s => .ok s.isFirstGeneration)
  if isFirst then perform tracer interpreter.seed

/-- Does the pending tasks of the current generation until none is left. -/
def drain : Call σ μ Unit := fun session => drainWith interpreter tracer session.fuel session

/-- Opens the next generation and does its work. -/
def feed (symbol : Option Char) : Call σ μ Unit := do
  advance interpreter tracer symbol
  drain interpreter tracer

/-- Feeds symbols one after the other. -/
def feedAll : List Char → Call σ μ Unit
  | [] => return
  | char :: rest => do
    feed interpreter tracer (some char)
    feedAll rest

/-- Feeds a text and the end of the input. Tells whether it was accepted. -/
def parse (text : String) : Call σ μ Bool := do
  feedAll interpreter tracer text.toList
  feed interpreter tracer none
  return (← get).isAccepted

end Session

/-- Parses a text with a compiled grammar, from the beginning. -/
def Program.parse {σ : Type} (program : Program) (tracer : Tracer σ) (trace : σ) (limit : Nat)
    (text : String) : EStateM.Result Halt (Session σ Unit) Bool :=
  Session.parse program.interpreter tracer text (.initial program.interpreter trace () limit)

end Gll
