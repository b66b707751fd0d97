import Gll.Fault
import Gll.Scheduler.Queue
import Std.Data.HashMap
import Std.Data.HashSet

/-!
The state of a parse. A parse moves by one symbol per *generation*. Within a generation, pending
tasks are done until none is left; what was recognized of the current symbol is staged and becomes
pending in the next generation.

Two sets keep any work from being done twice in a generation. A slot is resumed at most once for
each caller: the prefix need not be told apart, since every prefix handed to a caller at a label
begins where the caller does and ends at the current symbol. A terminal is delivered to a frame at
most once: it is always the terminal of the symbol at which the frame was made.

Nodes and frames are made once for each key in a generation, through tables that the next generation
starts afresh. What does not depend on the grammar is here; nothing here reports to a tracer.
-/

set_option autoImplicit false

namespace Gll

/-- A unit of work. -/
inductive Task where
  /-- Run the slot of a label for a caller, with what was recognized so far. -/
  | resume (label : Label) (caller : StackId) (stem : PrefixId)
  /-- Deliver the terminal that was read before to a frame. -/
  | shift (frame : StackId) (result : SymbolId)
deriving DecidableEq, Repr

/-- Why a parse stops early. -/
inductive RunError where
  /-- All the work that was allowed is done, and there is more. -/
  | fuelExhausted (limit : Nat)
  /-- The end of the input was already given. -/
  | advancePastEnd
  /-- There are pending tasks in the current generation. -/
  | undrainedWork (count : Nat)
deriving DecidableEq, Repr

/-- What the user is told. -/
def RunError.message : RunError → String
  | fuelExhausted limit =>
    "runtime execution limit exceeded (" ++ toString limit ++ " work items)"
  | advancePastEnd => "input advanced past end of input"
  | undrainedWork count => "input advanced with " ++ toString count ++ " undrained work items"

/-- What one generation keeps in mind. -/
structure Memory where
  /-- The empty prefix at the current position. -/
  emptyPrefix : Option PrefixId
  /-- The labels that were resumed or wait to be, with their callers. -/
  resumed : Std.HashSet (Label × StackId)
  /-- The frames to which the current terminal is staged. -/
  shifted : Std.HashSet StackId
  /-- The frames by return label and origin. -/
  frames : Std.HashMap (Label × Nat) StackId
  /-- The results of each frame, in the order in which they came. -/
  results : Std.HashMap StackId (Array SymbolId)
  /-- The prefixes that end here, by label and first position. -/
  conses : Std.HashMap (Label × Position) PrefixId
  /-- The derivations that end here, by nonterminal and first position. -/
  derivations : Std.HashMap (Nonterminal × Position) SymbolId

/-- The memory of a generation that has just been opened. -/
def Memory.empty : Memory := ⟨none, ∅, ∅, ∅, ∅, ∅, ∅⟩

/-- The state of a parse. -/
structure Scheduler where
  forest : Forest
  graph : StackGraph
  /-- The nonterminal that the input should be. -/
  start : Nonterminal
  /-- The first position that was opened. -/
  first : Option Position
  /-- The derivation of the start nonterminal from the first position to the current one. -/
  root : Option SymbolId
  /-- The index of the position that will be opened next. -/
  nextIndex : Nat
  /-- Whether the end of the input was given. -/
  isFinished : Bool
  current : Position
  /-- The node of the current symbol; there is none at the end. -/
  terminal : Option SymbolId
  pending : Queue Task
  staged : Array Task
  memory : Memory

namespace Scheduler

/-- Before anything was read. -/
def initial (start : Nonterminal) : Scheduler where
  forest := .empty
  graph := .empty
  start := start
  first := none
  root := none
  nextIndex := 0
  isFinished := false
  current := .beforeInput
  terminal := none
  pending := .empty
  staged := #[]
  memory := .empty

/-- The offset of the current position. -/
def index (s : Scheduler) : Nat := s.current.offset

/-- Whether the end of the input was given and the start nonterminal derives all of it. -/
def isAccepted (s : Scheduler) : Bool :=
  match s.root.bind s.forest.symbolNode? with
  | some node =>
    s.isFinished && !node.alternatives.isEmpty && decide (node.span = ⟨0, s.current.offset⟩)
  | none => false

/-! ## Forest -/

/-- The empty prefix at the current position, made on first use. -/
def emptyPrefix (s : Scheduler) : PrefixId × Scheduler :=
  match s.memory.emptyPrefix with
  | some id => (id, s)
  | none =>
    let (id, forest) := s.forest.addPrefix (.empty s.current)
    (id, { s with forest, memory.emptyPrefix := some id })

/-- The prefix of a label and a first position that ends here, made on first use. -/
def consFor (label : Label) (first : Position) (s : Scheduler) : PrefixId × Scheduler :=
  match s.memory.conses[(label, first)]? with
  | some id => (id, s)
  | none =>
    let (id, forest) := s.forest.addPrefix (.cons label first s.current #[])
    (id, { s with
      forest
      memory.conses := s.memory.conses.insert (label, first) id })

/-- The derivation of a nonterminal and a first position that ends here, made on first use. -/
def derivationFor (nonterminal : Nonterminal) (first : Position) (s : Scheduler) :
    SymbolId × Scheduler :=
  match s.memory.derivations[(nonterminal, first)]? with
  | some id => (id, s)
  | none =>
    let (id, forest) := s.forest.addSymbol (.nonterminal nonterminal first s.current #[])
    (id, { s with
      forest
      memory.derivations := s.memory.derivations.insert (nonterminal, first) id })

/-- Packs a way to build it under a prefix. -/
def packSplit (id : PrefixId) (child : Split) (s : Scheduler) : Scheduler :=
  { s with forest := s.forest.packSplit id child }

/-- Packs a right-hand side under a derivation. -/
def packAlternative (id : SymbolId) (child : PrefixId) (s : Scheduler) : Scheduler :=
  { s with forest := s.forest.packAlternative id child }

/-! ## Generations -/

/-- Whether the current generation is the first one that was opened. -/
def isFirstGeneration (s : Scheduler) : Bool := s.nextIndex == 1

/-- Why no further generation can be opened now. That the input has ended comes first. -/
def refusal? (s : Scheduler) : Option RunError :=
  if s.isFinished then some .advancePastEnd
  else if s.pending.isEmpty then none
  else some (.undrainedWork s.pending.size)

/-- The position of the next symbol, or of the end of the input. -/
def nextPosition (s : Scheduler) : Option Char → Position
  | some char => .symbol char s.nextIndex
  | none => .afterInput s.nextIndex

/-- Opens the generation of a position: moves there and starts an empty memory, with the staged
tasks pending. -/
def moveTo (s : Scheduler) (position : Position) (isLast : Bool) : Scheduler :=
  { s with
    first := some (s.first.getD position)
    nextIndex := s.nextIndex + 1
    isFinished := isLast
    current := position
    terminal := none
    pending := .ofList s.staged.toList
    staged := #[]
    memory := .empty }

/-- Makes the node of the current symbol. -/
def readSymbol (s : Scheduler) : Scheduler :=
  let (id, forest) := s.forest.addSymbol (.terminal s.current)
  { s with forest, terminal := some id }

/-- Makes the derivation of the start nonterminal over everything read so far. -/
def anchorRoot (s : Scheduler) : Scheduler :=
  let (id, s) := derivationFor s.start (s.first.getD s.current) s
  { s with root := some id }

/-- Opens the generation of the next symbol, or of the end of the input. -/
def advance (s : Scheduler) : Option Char → Scheduler
  | some char => (s.moveTo (s.nextPosition (some char)) false).readSymbol.anchorRoot
  | none => (s.moveTo (s.nextPosition none) true).anchorRoot

/-! ## Tasks -/

/-- Schedules a slot to be resumed for a caller, unless it was already; also whether it was not. -/
def enqueue (label : Label) (caller : StackId) (stem : PrefixId) (s : Scheduler) :
    Bool × Scheduler :=
  if s.memory.resumed.contains (label, caller) then (false, s)
  else
    (true, { s with
      pending := s.pending.enqueue (.resume label caller stem)
      memory.resumed := s.memory.resumed.insert (label, caller) })

/-- Stages a terminal for a frame, unless one was already; also whether none was. -/
def stage (frame : StackId) (result : SymbolId) (s : Scheduler) : Bool × Scheduler :=
  if s.memory.shifted.contains frame then (false, s)
  else
    (true, { s with
      staged := s.staged.push (.shift frame result)
      memory.shifted := s.memory.shifted.insert frame })

/-- Puts a task where tasks of its kind wait, unless the like was put there in this generation; also
whether it was not. -/
def offer : Task → Scheduler → Bool × Scheduler
  | .resume label caller stem, s => enqueue label caller stem s
  | .shift frame result, s => stage frame result s

/-- Takes out the task that is done next. -/
def dequeue? (s : Scheduler) : Option (Task × Scheduler) :=
  match s.pending.dequeue? with
  | some (task, pending) => some (task, { s with pending })
  | none => none

/-- Whether a task is taken or not, offering it changes at most which tasks wait and which of their
kind are remembered. -/
theorem exists_offer_eq (s : Scheduler) (task : Task) :
    ∃ pending staged resumed shifted, (s.offer task).2
      = { s with pending, staged, memory := { s.memory with resumed, shifted } } := by
  cases task with
  | resume label caller stem =>
    rw [offer, enqueue]
    split
    · exact ⟨s.pending, s.staged, s.memory.resumed, s.memory.shifted, rfl⟩
    · exact ⟨_, s.staged, _, s.memory.shifted, rfl⟩
  | shift frame result =>
    rw [offer, stage]
    split
    · exact ⟨s.pending, s.staged, s.memory.resumed, s.memory.shifted, rfl⟩
    · exact ⟨s.pending, _, s.memory.resumed, _, rfl⟩

/-- Taking out a task only makes the queue shorter. -/
theorem exists_of_dequeue? {s rest : Scheduler} {task : Task}
    (h : s.dequeue? = some (task, rest)) : ∃ pending,
      s.pending.toList = task :: pending.toList ∧ rest = { s with pending } := by
  rw [dequeue?] at h
  split at h
  · rename_i first pending hqueue
    obtain ⟨rfl, rfl⟩ := Prod.mk.inj (Option.some.inj h)
    exact ⟨pending, Queue.toList_of_dequeue? hqueue, rfl⟩
  · cases h

/-! ## Stacks -/

/-- The frame of a return label and an origin, made on first use. -/
def frameFor (label : Label) (origin : Nat) (s : Scheduler) : StackId × Scheduler :=
  match s.memory.frames[(label, origin)]? with
  | some frame => (frame, s)
  | none =>
    let (frame, graph) := s.graph.addFrame label origin
    (frame, { s with
      graph
      memory.frames := s.memory.frames.insert (label, origin) frame })

/-- Adds a link to a frame; also whether it is new. -/
def link (frame : StackId) (link : Link) (s : Scheduler) : Bool × Scheduler :=
  if s.graph.isNewLink frame link then (true, { s with graph := s.graph.addLink frame link })
  else (false, s)

/-- The results of a frame in this generation. -/
def results (s : Scheduler) (frame : StackId) : Array SymbolId :=
  (s.memory.results[frame]?).getD #[]

/-- Records a result of a frame; also whether it is new. -/
def recordResult (frame : StackId) (result : SymbolId) (s : Scheduler) : Bool × Scheduler :=
  let known := s.results frame
  if known.contains result then (false, s)
  else
    (true, { s with
      memory.results := s.memory.results.insert frame (known.push result) })

end Scheduler

end Gll
