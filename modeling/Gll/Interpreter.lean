import Gll.Program.Basic
import Gll.Routine

/-!
What a parse is driven by. The scheduler knows nothing of grammars: an *interpreter* says which
nonterminal is looked for, what is scheduled at first, and what to do at a label. The interpreter of
a compiled grammar runs its slots. An interpreter may keep something in a store of its own; that of
a compiled grammar keeps nothing.

What an interpreter may do is its documented part: to look at the scheduler, to ask it for stack and
forest operations and for work to be scheduled, and to report events. Interpreters that go beyond it
are left out, that is, those that open a generation or take out work in the midst of a task, or put
another scheduler in the place of the one they were given.
-/

set_option autoImplicit false

namespace Gll

/-- What drives a parse, with a store of type `μ`. It has no access to the scheduler but through the
requests of its routines. -/
structure Interpreter (μ : Type) where
  /-- The nonterminal that the input should be. -/
  start : Nonterminal
  /-- Schedules the first descriptors, once, when the first generation is open. -/
  seed : StateT μ Routine Unit
  /-- Runs the code of a label for a caller, with what was recognized so far. -/
  execute : Label → StackId → PrefixId → StateT μ Routine Unit

/-- What is done for a task. -/
def Interpreter.routine {μ : Type} (interpreter : Interpreter μ) : Task → StateT μ Routine Unit
  | .resume label caller stem => do
    StateT.lift (Routine.note (.descriptor label caller stem))
    interpreter.execute label caller stem
  | .shift frame result => StateT.lift do
    let node ← Routine.look fun s => s.forest.symbolNode result
    Routine.note (.shift frame node.first)
    Routine.pop frame result

namespace Program

open Routine
open Plan (forEach)

/-- Schedules the alternatives of the start symbol, for the frame at which everything ends. -/
def seed (program : Program) : Routine Unit := do
  let stem ← emptyPrefix
  let frame ← push acceptLabel .initial stem
  match program.entries? program.start with
  | none => fail (.unknownNonterminal program.start)
  | some entries => forEach entries fun entry => discard (scheduleNow entry frame stem)

/-- Tests the current symbol. If it passes, it is staged for a frame of its own, in which the
caller goes on. -/
def executeTerminal (matcher : Matcher) (label : Label) (caller : StackId) (stem : PrefixId) :
    Routine Unit := do
  let position ← current
  let isMatch := position.char?.any matcher.accepts
  note (.terminal label position isMatch)
  if isMatch then
    match ← terminal with
    | none => return
    | some symbol =>
      let frame ← push label.next caller stem
      discard (scheduleLater frame symbol)

/-- Schedules the alternatives of a nonterminal, for a frame in which the caller goes on. -/
def executeCall (program : Program) (callee : Nonterminal) (label : Label) (caller : StackId)
    (stem : PrefixId) : Routine Unit := do
  let frame ← push label.next caller stem
  match program.entries? callee with
  | none => fail (.unknownNonterminal callee)
  | some entries =>
    forEach entries fun entry => do discard (scheduleNow entry frame (← emptyPrefix))

/-- Gives what was recognized to the caller as a derivation of the nonterminal. -/
def executeComplete (nonterminal : Nonterminal) (caller : StackId) (stem : PrefixId) :
    Routine Unit := do
  let node ← look fun s => s.forest.prefixNode stem
  pop caller (← derive nonterminal node.first stem)

/-- Notes that the start symbol was recognized. -/
def executeAccept (stem : PrefixId) : Routine Unit := do
  let node ← look fun s => s.forest.prefixNode stem
  note (.accept node.span)

/-- Runs a slot. -/
def execute (program : Program) (label : Label) (caller : StackId) (stem : PrefixId) :
    Routine Unit :=
  match program.slot? label with
  | none => fail (.unknownLabel label)
  | some slot =>
    match slot.instruction with
    | .accept => executeAccept stem
    | .terminal matcher => executeTerminal matcher label caller stem
    | .call callee => program.executeCall callee label caller stem
    | .complete nonterminal => executeComplete nonterminal caller stem

/-- The interpreter of a compiled grammar. -/
def interpreter (program : Program) : Interpreter Unit where
  start := program.start
  seed := StateT.lift program.seed
  execute := fun label caller stem => StateT.lift (program.execute label caller stem)

end Program

end Gll
