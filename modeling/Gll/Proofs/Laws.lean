import Gll.Proofs.Fact

/-!
Laws of the scheduler.

A request consists of steps, and there are not many kinds of them (`Steps`). So a property of
schedulers that none of the elementary changes breaks is broken by no request, in whatever order the
requests come and whatever they are about: `Kept` lists the elementary changes, and `Routine.keeps`
is all that is ever needed of it. Requests that do not touch the stacks keep more (`KeptOffStacks`),
and so does the loop of a `push` or a `pop`, which only hands out; and a `push` alone makes frames
(`StepsOffFrames`).

The first such property is where a parse is and which symbol it looks at, which the opening of a
generation alone changes (`Routine.control_of_leads`).
-/

set_option autoImplicit false

namespace Gll

namespace Plan

variable {ε : Type → Type 1} {ω α β : Type}

/-- A property of all requests that a plan may make. -/
def Each (property : {β : Type} → ε β → Prop) : Plan ε α → Prop
  | done _ => True
  | ask request next => property request ∧ ∀ answer, Each property (next answer)

variable {property : {β : Type} → ε β → Prop}

@[simp] theorem each_request {request : ε α} :
    (Plan.request request).Each property ↔ property request := by
  simp [Plan.request, Each]

theorem each_bind {first : Plan ε α} {next : α → Plan ε β} (hfirst : first.Each property)
    (hnext : ∀ a, (next a).Each property) : (first >>= next).Each property := by
  change (first.andThen next).Each property
  induction first with
  | done value => exact hnext value
  | ask request rest ih => exact ⟨hfirst.1, fun answer => ih answer (hfirst.2 answer)⟩

theorem each_discard {plan : Plan ε α} (h : plan.Each property) :
    (discard plan : Plan ε PUnit).Each property :=
  each_bind h fun _ => trivial

theorem each_forEach {items : List β} {body : β → Plan ε Unit}
    (hbody : ∀ item ∈ items, (body item).Each property) : (forEach items body).Each property := by
  induction items with
  | nil => trivial
  | cons item rest ih =>
    exact each_bind (hbody item List.mem_cons_self) fun _ =>
      ih fun other hother => hbody other (List.mem_cons_of_mem _ hother)

theorem each_of_forall (h : ∀ {β : Type} (request : ε β), property request) (plan : Plan ε α) :
    plan.Each property := by
  induction plan with
  | done value => trivial
  | ask request next ih => exact ⟨h request, ih⟩

/-- What every request of a plan keeps, the plan keeps. -/
theorem Each.keeps {single : {β : Type} → ε β → ω → β → ω → Prop} (P : ω → Prop)
    (hsingle : ∀ {β : Type} {request : ε β} {before after : ω} {b : β}, property request →
      single request before b after → P before → P after)
    {plan : Plan ε α} {before after : ω} {answer : α} (hplan : plan.Each property)
    (h : plan.Leads single before answer after) (hbefore : P before) : P after := by
  induction plan generalizing before with
  | done value =>
    obtain ⟨-, rfl⟩ := h
    exact hbefore
  | ask request next ih =>
    obtain ⟨b, between, hrequest, hrest⟩ := h
    exact ih b (hplan.2 b) hrest (hsingle hplan.1 hrequest hbefore)

end Plan

/-! ## The steps of requests -/

/-- An event that requests report on their own account. The other events are reported by whoever
drives the scheduler. -/
def Event.IsInner : Event → Prop
  | push _ _ _ _ _ | pop _ _ _ _ _ | redeliver _ _ _ | skipNow _ _ | skipLater _ => True
  | _ => False

/-- The event that a request is there to report. -/
def Operation.reports {α : Type} : Operation α → List Event
  | note event => [event]
  | _ => []

/-- A property of the steps of which requests consist that leave the stacks alone. -/
structure StepsOffStacks (property : {α : Type} → Step α → Prop) : Prop where
  look {α : Type} (read : Scheduler → Except Fault α) : property (.look read)
  emit {event : Event} (h : event.IsInner) : property (.emit event)
  offer (task : Task) : property (.offer task)
  emptyPrefix : property (.update Scheduler.emptyPrefix)
  consFor (label : Label) (first : Position) : property (.update (Scheduler.consFor label first))
  derivationFor (symbol : Nonterminal) (first : Position) :
    property (.update (Scheduler.derivationFor symbol first))
  packSplit (id : PrefixId) (child : Split) :
    property (.update fun s => ((), s.packSplit id child))
  packAlternative (id : SymbolId) (child : PrefixId) :
    property (.update fun s => ((), s.packAlternative id child))

/-- A property of the steps of which requests consist that make no frames. -/
structure StepsOffFrames (property : {α : Type} → Step α → Prop) : Prop
    extends StepsOffStacks property where
  link (frame : StackId) (link : Link) : property (.update (Scheduler.link frame link))
  recordResult (frame : StackId) (result : SymbolId) :
    property (.update (Scheduler.recordResult frame result))

/-- A property of the steps of which requests consist. -/
structure Steps (property : {α : Type} → Step α → Prop) : Prop extends StepsOffFrames property where
  frameFor (label : Label) (origin : Nat) : property (.update (Scheduler.frameFor label origin))

namespace StepsOffStacks

open Scheduler

variable {property : {α : Type} → Step α → Prop} {label : Label} {caller frame : StackId}
  {stem : PrefixId} {result : SymbolId}

theorem scheduleNow (h : StepsOffStacks property) :
    (scheduleNow label caller stem).Each property := by
  refine Plan.each_bind (Plan.each_request.mpr (h.offer _)) fun isNew => ?_
  cases isNew with
  | false => exact Plan.each_bind (Plan.each_request.mpr (h.emit trivial)) fun _ => trivial
  | true => trivial

theorem scheduleLater (h : StepsOffStacks property) :
    (scheduleLater frame result).Each property := by
  refine Plan.each_bind (Plan.each_request.mpr (h.offer _)) fun isNew => ?_
  cases isNew with
  | false => exact Plan.each_bind (Plan.each_request.mpr (h.emit trivial)) fun _ => trivial
  | true => trivial

theorem append (h : StepsOffStacks property) : (append label stem result).Each property :=
  Plan.each_bind (Plan.each_request.mpr (h.look _)) fun _ =>
    Plan.each_bind (Plan.each_request.mpr (h.consFor _ _)) fun _ =>
      Plan.each_bind (Plan.each_request.mpr (h.look _)) fun _ =>
        Plan.each_bind (Plan.each_request.mpr (h.packSplit _ _)) fun _ => trivial

theorem derive (h : StepsOffStacks property) {symbol : Nonterminal} {first : Position} :
    (derive symbol first stem).Each property :=
  Plan.each_bind (Plan.each_request.mpr (h.derivationFor _ _)) fun _ =>
    Plan.each_bind (Plan.each_request.mpr (h.packAlternative _ _)) fun _ => trivial

theorem deliver (h : StepsOffStacks property) {link : Link} :
    (deliver link result label).Each property :=
  Plan.each_bind h.append fun _ => Plan.each_discard h.scheduleNow

end StepsOffStacks

namespace StepsOffFrames

open Scheduler

variable {property : {α : Type} → Step α → Prop} {label : Label} {caller frame : StackId}
  {stem : PrefixId} {result : SymbolId}

/-- A `push` makes one frame. -/
theorem push (h : StepsOffFrames property) {origin : Nat}
    (hframe : property (.update (frameFor label origin))) :
    (push label caller origin stem).Each property := by
  refine Plan.each_bind (Plan.each_request.mpr hframe) fun frame => ?_
  refine Plan.each_bind (Plan.each_request.mpr (h.link _ _)) fun isNew => ?_
  refine Plan.each_bind (Plan.each_request.mpr (h.emit trivial)) fun _ => ?_
  cases isNew with
  | false => trivial
  | true =>
    refine Plan.each_bind (Plan.each_request.mpr (h.look _)) fun results => ?_
    refine Plan.each_bind (Plan.each_forEach fun result _ => ?_) fun _ => trivial
    exact Plan.each_bind (Plan.each_request.mpr (h.emit trivial)) fun _ => h.deliver

theorem pop (h : StepsOffFrames property) : (pop frame result).Each property := by
  refine Plan.each_bind (Plan.each_request.mpr (h.look _)) fun stack => ?_
  cases stack with
  | initial => trivial
  | frame label origin links =>
    refine Plan.each_bind (Plan.each_request.mpr (h.recordResult _ _)) fun isNew => ?_
    refine Plan.each_bind (Plan.each_request.mpr (h.look _)) fun node => ?_
    refine Plan.each_bind (Plan.each_request.mpr (h.emit trivial)) fun _ => ?_
    cases isNew with
    | false => trivial
    | true => exact Plan.each_forEach fun _ _ => h.deliver

end StepsOffFrames

/-- What holds of the steps of which requests consist, and of the reports that are asked for, holds
of every step of every request. -/
theorem Steps.operation {property : {α : Type} → Step α → Prop} (h : Steps property) {α : Type}
    (operation : Operation α) (hreports : ∀ event ∈ operation.reports, property (.emit event)) :
    operation.act.Each property := by
  cases operation with
  | look read => exact Plan.each_request.mpr (h.look read)
  | note event => exact Plan.each_request.mpr (hreports event List.mem_cons_self)
  | emptyPrefix => exact Plan.each_request.mpr h.emptyPrefix
  | append label left right => exact h.append
  | derive symbol first child => exact h.derive
  | scheduleNow label caller stem => exact h.scheduleNow
  | scheduleLater frame result => exact h.scheduleLater
  | push label caller origin stem => exact h.push (h.frameFor label origin)
  | pop frame result => exact h.pop
  | deliver link result label => exact h.deliver

/-! ## What the elementary changes keep -/

/-- No change of the forest and of the queues breaks it. -/
structure KeptOffStacks (P : Scheduler → Prop) : Prop where
  emptyPrefix {s : Scheduler} : P s → P s.emptyPrefix.2
  consFor {s : Scheduler} (label : Label) (first : Position) : P s → P (s.consFor label first).2
  derivationFor {s : Scheduler} (symbol : Nonterminal) (first : Position) :
    P s → P (s.derivationFor symbol first).2
  packSplit {s : Scheduler} (id : PrefixId) (child : Split) : P s → P (s.packSplit id child)
  packAlternative {s : Scheduler} (id : SymbolId) (child : PrefixId) :
    P s → P (s.packAlternative id child)
  offer {s : Scheduler} (task : Task) : P s → P (s.offer task).2

/-- No change within a generation breaks it. -/
structure Kept (P : Scheduler → Prop) : Prop extends KeptOffStacks P where
  frameFor {s : Scheduler} (label : Label) (origin : Nat) : P s → P (s.frameFor label origin).2
  link {s : Scheduler} (frame : StackId) (link : Link) : P s → P (s.link frame link).2
  recordResult {s : Scheduler} (frame : StackId) (result : SymbolId) :
    P s → P (s.recordResult frame result).2

/-- What is said of the stacks and of their results is kept by the changes that leave them alone. -/
theorem KeptOffStacks.of_stacks {P : Scheduler → Prop} (hP : ∀ {s s' : Scheduler},
    P s → s'.graph = s.graph → s'.memory.results = s.memory.results → P s') : KeptOffStacks P where
  emptyPrefix h := by
    unfold Scheduler.emptyPrefix
    split
    · exact h
    · exact hP h rfl rfl
  consFor _ _ h := by
    unfold Scheduler.consFor
    split
    · exact h
    · exact hP h rfl rfl
  derivationFor _ _ h := by
    unfold Scheduler.derivationFor
    split
    · exact h
    · exact hP h rfl rfl
  packSplit _ _ h := hP h rfl rfl
  packAlternative _ _ h := hP h rfl rfl
  offer {s} task h := by
    obtain ⟨_, _, _, _, heq⟩ := s.exists_offer_eq task
    rw [heq]
    exact hP h rfl rfl

/-- What is said of the forest and of where the parse is has to be looked at where the forest
changes. -/
theorem Kept.of_forest {P : Scheduler → Prop}
    (hsame : ∀ {s s' : Scheduler}, P s → s'.forest = s.forest → s'.control = s.control → P s')
    (hstem : ∀ {s : Scheduler} (node : PrefixNode), P s →
      P { s with forest := (s.forest.addPrefix node).2 })
    (hsymbol : ∀ {s : Scheduler} (symbol : Nonterminal) (first : Position), P s →
      P { s with forest := (s.forest.addSymbol (.nonterminal symbol first s.current #[])).2 })
    (hsplit : ∀ {s : Scheduler} (id : PrefixId) (child : Split), P s → P (s.packSplit id child))
    (halternative : ∀ {s : Scheduler} (id : SymbolId) (child : PrefixId), P s →
      P (s.packAlternative id child)) : Kept P where
  emptyPrefix h := by
    unfold Scheduler.emptyPrefix
    split
    · exact h
    · exact hsame (hstem _ h) rfl rfl
  consFor label first h := by
    unfold Scheduler.consFor
    split
    · exact h
    · exact hsame (hstem _ h) rfl rfl
  derivationFor symbol first h := by
    unfold Scheduler.derivationFor
    split
    · exact h
    · exact hsame (hsymbol symbol first h) rfl rfl
  packSplit id child h := hsplit id child h
  packAlternative id child h := halternative id child h
  offer {s} task h := by
    obtain ⟨_, _, _, _, heq⟩ := s.exists_offer_eq task
    rw [heq]
    exact hsame h rfl rfl
  frameFor label origin h := by
    unfold Scheduler.frameFor
    split
    · exact h
    · exact hsame h rfl rfl
  link frame link h := by
    unfold Scheduler.link
    split
    · exact hsame h rfl rfl
    · exact h
  recordResult frame result h := by
    simp only [Scheduler.recordResult]
    split
    · exact h
    · exact hsame h rfl rfl

/-- What is kept for each of some values is kept for one of them. -/
theorem Kept.exists {ι : Type} {P : ι → Scheduler → Prop} (h : ∀ i, Kept (P i)) :
    Kept fun s => ∃ i, P i s where
  emptyPrefix := fun ⟨i, hi⟩ => ⟨i, (h i).emptyPrefix hi⟩
  consFor label first := fun ⟨i, hi⟩ => ⟨i, (h i).consFor label first hi⟩
  derivationFor symbol first := fun ⟨i, hi⟩ => ⟨i, (h i).derivationFor symbol first hi⟩
  packSplit id child := fun ⟨i, hi⟩ => ⟨i, (h i).packSplit id child hi⟩
  packAlternative id child := fun ⟨i, hi⟩ => ⟨i, (h i).packAlternative id child hi⟩
  offer task := fun ⟨i, hi⟩ => ⟨i, (h i).offer task hi⟩
  frameFor label origin := fun ⟨i, hi⟩ => ⟨i, (h i).frameFor label origin hi⟩
  link frame link := fun ⟨i, hi⟩ => ⟨i, (h i).link frame link hi⟩
  recordResult frame result := fun ⟨i, hi⟩ => ⟨i, (h i).recordResult frame result hi⟩

theorem KeptOffStacks.and {P Q : Scheduler → Prop} (hP : KeptOffStacks P) (hQ : KeptOffStacks Q) :
    KeptOffStacks fun s => P s ∧ Q s where
  emptyPrefix h := ⟨hP.emptyPrefix h.1, hQ.emptyPrefix h.2⟩
  consFor label first h := ⟨hP.consFor label first h.1, hQ.consFor label first h.2⟩
  derivationFor symbol first h :=
    ⟨hP.derivationFor symbol first h.1, hQ.derivationFor symbol first h.2⟩
  packSplit id child h := ⟨hP.packSplit id child h.1, hQ.packSplit id child h.2⟩
  packAlternative id child h := ⟨hP.packAlternative id child h.1, hQ.packAlternative id child h.2⟩
  offer task h := ⟨hP.offer task h.1, hQ.offer task h.2⟩

theorem Kept.and {P Q : Scheduler → Prop} (hP : Kept P) (hQ : Kept Q) :
    Kept fun s => P s ∧ Q s where
  toKeptOffStacks := hP.toKeptOffStacks.and hQ.toKeptOffStacks
  frameFor label origin h := ⟨hP.frameFor label origin h.1, hQ.frameFor label origin h.2⟩
  link frame link h := ⟨hP.link frame link h.1, hQ.link frame link h.2⟩
  recordResult frame result h :=
    ⟨hP.recordResult frame result h.1, hQ.recordResult frame result h.2⟩

/-- It holds before anything was read, and nothing that happens in a parse breaks it. -/
structure Law (start : Nonterminal) (P : Scheduler → Prop) : Prop extends Kept P where
  initial : P (.initial start)
  advance {s : Scheduler} (symbol : Option Char) : s.refusal? = none → P s → P (s.advance symbol)
  dequeue {s rest : Scheduler} {task : Task} : s.dequeue? = some (task, rest) → P s → P rest

theorem Law.and {start : Nonterminal} {P Q : Scheduler → Prop} (hP : Law start P)
    (hQ : Law start Q) : Law start fun s => P s ∧ Q s where
  toKept := hP.toKept.and hQ.toKept
  initial := ⟨hP.initial, hQ.initial⟩
  advance symbol hopen h := ⟨hP.advance symbol hopen h.1, hQ.advance symbol hopen h.2⟩
  dequeue hdequeue h := ⟨hP.dequeue hdequeue h.1, hQ.dequeue hdequeue h.2⟩

/-! ## Steps and requests -/

variable {P : Scheduler → Prop}

/-- A step that does not break a property of schedulers. -/
def Step.Keeps {α : Type} (P : Scheduler → Prop) : Step α → Prop
  | .update change => ∀ s, P s → P (change s).2
  | .offer task => ∀ s, P s → P (s.offer task).2
  | _ => True

theorem Step.Keeps.of_leads {α : Type} {step : Step α} (hstep : step.Keeps P)
    {before after : Moment} {answer : α} (h : step.Leads before answer after)
    (hbefore : P before.scheduler) : P after.scheduler := by
  cases step with
  | look read =>
    obtain ⟨-, rfl⟩ := h
    exact hbefore
  | update change =>
    have hafter := hstep before.scheduler hbefore
    rw [h.1] at hafter
    exact hafter
  | offer task =>
    have hafter := hstep before.scheduler hbefore
    rw [h.1] at hafter
    exact hafter
  | emit event =>
    obtain rfl := h
    exact hbefore

namespace Act

variable {α : Type}

/-- An action that does not break a property of schedulers, whatever it reads on its way. -/
def Keeps (P : Scheduler → Prop) (act : Act α) : Prop := Plan.Each (Step.Keeps P) act

theorem keeps_look {read : Scheduler → Except Fault α} : (look read).Keeps P :=
  Plan.each_request.mpr trivial

theorem keeps_update {change : Scheduler → α × Scheduler} (h : ∀ s, P s → P (change s).2) :
    (update change).Keeps P :=
  Plan.each_request.mpr h

theorem keeps_emit {event : Event} : (emit event).Keeps P :=
  Plan.each_request.mpr trivial

theorem Keeps.of_leads {act : Act α} (hact : act.Keeps P) {before after : Moment} {answer : α}
    (h : act.Leads before answer after) (hbefore : P before.scheduler) : P after.scheduler :=
  Plan.Each.keeps (fun m : Moment => P m.scheduler) (fun hstep => hstep.of_leads) hact h hbefore

end Act

namespace KeptOffStacks

variable {label : Label} {caller : StackId} {stem : PrefixId} {result : SymbolId}

theorem steps (h : KeptOffStacks P) : StepsOffStacks (Step.Keeps P) where
  look _ := trivial
  emit _ := trivial
  offer task _ := h.offer task
  emptyPrefix _ := h.emptyPrefix
  consFor label first _ := h.consFor label first
  derivationFor symbol first _ := h.derivationFor symbol first
  packSplit id child _ := h.packSplit id child
  packAlternative id child _ := h.packAlternative id child

theorem scheduleNow (h : KeptOffStacks P) :
    (Scheduler.scheduleNow label caller stem).Keeps P :=
  h.steps.scheduleNow

theorem scheduleLater (h : KeptOffStacks P) {frame : StackId} :
    (Scheduler.scheduleLater frame result).Keeps P :=
  h.steps.scheduleLater

theorem append (h : KeptOffStacks P) : (Scheduler.append label stem result).Keeps P :=
  h.steps.append

theorem derive (h : KeptOffStacks P) {symbol : Nonterminal} {first : Position} :
    (Scheduler.derive symbol first stem).Keeps P :=
  h.steps.derive

theorem deliver (h : KeptOffStacks P) {link : Link} :
    (Scheduler.deliver link result label).Keeps P :=
  h.steps.deliver

end KeptOffStacks

theorem Kept.steps (h : Kept P) : Steps (Step.Keeps P) where
  toStepsOffStacks := h.toKeptOffStacks.steps
  link frame link _ := h.link frame link
  recordResult frame result _ := h.recordResult frame result
  frameFor label origin _ := h.frameFor label origin

/-- No request breaks what no elementary change breaks. -/
theorem Operation.keeps {α : Type} (h : Kept P) (operation : Operation α) :
    operation.act.Keeps P :=
  h.steps.operation operation fun _ _ => trivial

/-- No routine breaks what no elementary change breaks. -/
theorem Routine.keeps {α : Type} (h : Kept P) {routine : Routine α} {before after : Moment}
    {answer : α} (hleads : routine.Leads before answer after) (hbefore : P before.scheduler) :
    P after.scheduler :=
  Plan.Each.keeps (fun m : Moment => P m.scheduler)
    (fun hoperation => Act.Keeps.of_leads hoperation) (routine.each_of_forall (Operation.keeps h))
    hleads hbefore

/-! ## Where a parse is -/

/-- Where a parse is does not change within a generation. -/
theorem Scheduler.kept_control (control : Control) : Kept fun s => s.control = control :=
  .of_forest (fun h _ hcontrol => hcontrol.trans h) (fun _ h => h) (fun _ _ h => h)
    (fun _ _ h => h) fun _ _ h => h

/-- No routine moves the parse. -/
theorem Routine.control_of_leads {α : Type} {routine : Routine α} {before after : Moment}
    {answer : α} (h : routine.Leads before answer after) :
    after.scheduler.control = before.scheduler.control :=
  Routine.keeps (Scheduler.kept_control before.scheduler.control) h rfl

end Gll
