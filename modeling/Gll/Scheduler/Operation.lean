import Gll.Plan
import Gll.Scheduler.Basic
import Gll.Trace.Event

/-!
What may be asked of the scheduler between the opening of one generation and the next. An
`Operation` is one such request, named by the type of its answer. It is carried out in *steps*: a
look at the scheduler, a change of it, a task that is offered to it, an event that is reported to a
tracer. The steps of an operation are an `Act`, which is data; `Operation.run` carries them out, and
`Operation.offers` is an account of the tasks that are offered on the way, whether the scheduler
takes them or has the like already.

That is all through which anybody else changes a scheduler, so a law kept by every operation holds
in every state of a parse, whatever drives it.

Two operations meet in the middle. `push` puts a caller under a frame and hands it the results that
the frame already has; `pop` gives a result to a frame and hands it to the callers that it already
has. So every caller gets every result, in whichever order they come.
-/

set_option autoImplicit false

namespace Gll

/-- A scheduler with the trace of what it did. -/
structure World (σ : Type) where
  scheduler : Scheduler
  trace : σ

/-- A single step of an operation. -/
inductive Step : Type → Type 1 where
  /-- Read something off the scheduler. -/
  | look {α : Type} (read : Scheduler → Except Fault α) : Step α
  /-- Change the scheduler. -/
  | update {α : Type} (change : Scheduler → α × Scheduler) : Step α
  /-- Offer a task; the answer is whether it was taken. -/
  | offer (task : Task) : Step Bool
  /-- Report an event. -/
  | emit (event : Event) : Step Unit

namespace Step

variable {σ α : Type}

/-- Carries out a step. -/
def run (tracer : Tracer σ) : Step α → EStateM Fault (World σ) α
  | look read, world =>
    match read world.scheduler with
    | .ok value => .ok value world
    | .error fault => .error fault world
  | update change, ⟨scheduler, trace⟩ =>
    match change scheduler with
    | (value, scheduler) => .ok value ⟨scheduler, trace⟩
  | offer task, ⟨scheduler, trace⟩ =>
    match Scheduler.offer task scheduler with
    | (isNew, scheduler) => .ok isNew ⟨scheduler, trace⟩
  | emit event, ⟨scheduler, trace⟩ =>
    match tracer.record event with
    | .ok extend => .ok () ⟨scheduler, extend trace⟩
    | .error fault => .error fault ⟨scheduler, trace⟩

/-- The task that a step offers. -/
def offers : Step α → World σ → List Task
  | offer task, _ => [task]
  | _, _ => []

end Step

/-- An action on a scheduler, as the steps that it takes. -/
abbrev Act := Plan Step

namespace Act

variable {α σ : Type}

/-- Reads something off the scheduler. -/
def look (read : Scheduler → Except Fault α) : Act α := Plan.request (.look read)

/-- Changes the scheduler. -/
def update (change : Scheduler → α × Scheduler) : Act α := Plan.request (.update change)

/-- Offers a task. -/
def offer (task : Task) : Act Bool := Plan.request (.offer task)

/-- Reports an event. -/
def emit (event : Event) : Act Unit := Plan.request (.emit event)

/-- Carries out an action. When it breaks off, what was done up to then stays done. -/
def run (tracer : Tracer σ) (act : Act α) : EStateM Fault (World σ) α :=
  Plan.run (Step.run tracer) act

/-- The tasks that are offered while an action is carried out. -/
def offers (tracer : Tracer σ) (act : Act α) : World σ → List Task :=
  act.account (Step.run tracer) Step.offers

end Act

namespace Scheduler

open Act

/-- Schedules a slot to be resumed for a caller, unless it was already. -/
def scheduleNow (label : Label) (caller : StackId) (stem : PrefixId) : Act Bool := do
  let isNew ← Act.offer (.resume label caller stem)
  if isNew then return true
  emit (.skipNow label caller)
  return false

/-- Stages a terminal for a frame, unless one was already. -/
def scheduleLater (frame : StackId) (result : SymbolId) : Act Bool := do
  let isNew ← Act.offer (.shift frame result)
  if isNew then return true
  emit (.skipLater frame)
  return false

/-- Extends a prefix by a symbol: the extended prefix of the label ends at the current position. -/
def append (label : Label) (left : PrefixId) (right : SymbolId) : Act PrefixId := do
  let stem ← look fun s => s.forest.prefixNode left
  let cons ← update (consFor label stem.first)
  let symbol ← look fun s => s.forest.symbolNode right
  update fun s => ((), s.packSplit cons ⟨label, symbol.first, left, right⟩)
  return cons

/-- Packs a right-hand side under the derivation of a nonterminal that ends at the current
position. -/
def derive (nonterminal : Nonterminal) (first : Position) (child : PrefixId) : Act SymbolId := do
  let derivation ← update (derivationFor nonterminal first)
  update fun s => ((), s.packAlternative derivation child)
  return derivation

/-- Hands a result to the caller of a link: the caller's prefix grows by the result, and the caller
resumes at the label. -/
def deliver (link : Link) (result : SymbolId) (label : Label) : Act Unit := do
  let stem ← append label link.stem result
  discard (scheduleNow label link.caller stem)

/-- Links a caller under the frame of a label and an origin, and delivers to it the results that the
frame already has. -/
def push (label : Label) (caller : StackId) (origin : Nat) (stem : PrefixId) : Act StackId := do
  let frame ← update (frameFor label origin)
  let isNew ← update (Scheduler.link frame ⟨caller, stem⟩)
  emit (.push frame label origin caller isNew)
  if isNew then
    let results ← look fun s => .ok (s.results frame)
    Plan.forEach results.toList fun result => do
      emit (.redeliver frame result caller)
      deliver ⟨caller, stem⟩ result label
  return frame

/-- Gives a result to a frame, and delivers it to the callers that the frame already has. The
initial stack has no callers. -/
def pop (frame : StackId) (result : SymbolId) : Act Unit := do
  match ← look fun s => s.graph.stack frame with
  | .initial => return
  | .frame label _ links =>
    let isNew ← update (recordResult frame result)
    let node ← look fun s => s.forest.symbolNode result
    emit (.pop frame result node.nonterminal? node.span isNew)
    if isNew then Plan.forEach links.toList fun link => deliver link result label

end Scheduler

/-- A request to the scheduler, by the type of the answer. -/
inductive Operation : Type → Type 1 where
  /-- Read something off the scheduler. -/
  | look {α : Type} (read : Scheduler → Except Fault α) : Operation α
  /-- Report an event. -/
  | note (event : Event) : Operation Unit
  /-- The empty prefix at the current position. -/
  | emptyPrefix : Operation PrefixId
  | append (label : Label) (left : PrefixId) (right : SymbolId) : Operation PrefixId
  | derive (nonterminal : Nonterminal) (first : Position) (child : PrefixId) : Operation SymbolId
  | scheduleNow (label : Label) (caller : StackId) (stem : PrefixId) : Operation Bool
  | scheduleLater (frame : StackId) (result : SymbolId) : Operation Bool
  | push (label : Label) (caller : StackId) (origin : Nat) (stem : PrefixId) : Operation StackId
  | pop (frame : StackId) (result : SymbolId) : Operation Unit
  | deliver (link : Link) (result : SymbolId) (label : Label) : Operation Unit

namespace Operation

variable {σ α : Type}

/-- The steps of a request. -/
def act : Operation α → Act α
  | look read => Act.look read
  | note event => Act.emit event
  | emptyPrefix => Act.update Scheduler.emptyPrefix
  | append label left right => Scheduler.append label left right
  | derive nonterminal first child => Scheduler.derive nonterminal first child
  | scheduleNow label caller stem => Scheduler.scheduleNow label caller stem
  | scheduleLater frame result => Scheduler.scheduleLater frame result
  | push label caller origin stem => Scheduler.push label caller origin stem
  | pop frame result => Scheduler.pop frame result
  | deliver link result label => Scheduler.deliver link result label

/-- Carries out a request. -/
def run (tracer : Tracer σ) (operation : Operation α) : EStateM Fault (World σ) α :=
  operation.act.run tracer

/-- The tasks that are offered while a request is carried out. -/
def offers (tracer : Tracer σ) (operation : Operation α) : World σ → List Task :=
  operation.act.offers tracer

end Operation

end Gll
