import Gll.Proofs.Budget
import Gll.Proofs.Commands
import Gll.Proofs.Lookups
import Gll.Trace.Transcript

/-!
A parse can be shown as it goes on.

Whoever keeps a transcript names labels and nonterminals after a program, and refuses an event about
others. A refusal makes a parse break off, so it matters that a parse of a compiled grammar has no
such events. The labels and nonterminals in them come from three places: from the slots that the
interpreter runs (`Program.Whole.execute_isOf`), from the frames that it has pushed before, and from
the derivations that it has made (`Scheduler.Within`). So a routine of the interpreter is carried
out with any tracer that shows the events of the program as it is with one that keeps nothing
(`Routine.exists_run_of_shows`).

Each command may have a tracer of its own, and what the scheduler becomes does not depend on them.
So a session is compared with the one that would be there if nobody had watched (`Session.unseen`),
in which every task can be done. As long as the tracers show the events of the program, no command
halts but with an error (`Session.closed_attended`).
-/

set_option autoImplicit false

namespace Gll

variable {program : Program}

/-! ## Events of a program -/

/-- The label or the nonterminal of an event is one of the program. -/
def Event.IsOf (program : Program) : Event → Prop
  | .descriptor label _ _ | .push _ label _ _ _ | .terminal label _ _ | .skipNow label _ =>
    label.index < program.slotCount
  | .pop _ _ (some nonterminal) _ _ => nonterminal.index < program.nonterminalCount
  | _ => True

/-- A tracer that refuses no event of a program. -/
def Tracer.Shows {σ : Type} (tracer : Tracer σ) (program : Program) : Prop :=
  ∀ event : Event, event.IsOf program → ∃ extend, tracer.record event = .ok extend

theorem Tracer.IsTotal.shows {σ : Type} {tracer : Tracer σ} (h : tracer.IsTotal)
    (program : Program) : tracer.Shows program :=
  fun event _ => h event

/-- A transcript has a line for every event of the program. -/
theorem Program.Whole.exists_line (h : program.Whole) {event : Event}
    (hevent : event.IsOf program) : ∃ line, Transcript.line program event = .ok line := by
  cases event with
  | descriptor label caller stem =>
    obtain ⟨text, htext⟩ := h.exists_item? hevent
    rw [Transcript.line, Program.item, htext]
    exact ⟨_, rfl⟩
  | terminal label position isMatch =>
    have hslot : program.slot? label = some program.slots[label.index] :=
      Array.getElem?_eq_getElem hevent
    rw [Transcript.line, Program.testText, hslot]
    cases hinstruction : program.slots[label.index].instruction <;>
      simp only [Fault.unlessSome, bind, Except.bind, hinstruction] <;> exact ⟨_, rfl⟩
  | pop frame result nonterminal span isNew =>
    cases nonterminal with
    | none => exact ⟨_, rfl⟩
    | some nonterminal =>
      obtain ⟨name, hname⟩ := h.named hevent
      rw [Transcript.line, Transcript.derived, Program.name, hname]
      exact ⟨_, rfl⟩
  | _ => exact ⟨_, rfl⟩

/-- A transcript can be kept of any parse of the program, however much is of interest. -/
theorem Program.Whole.shows_transcript (h : program.Whole) (verbosity : Verbosity) :
    (Transcript.tracer program verbosity).Shows program := by
  intro event hevent
  obtain ⟨line, hline⟩ := h.exists_line hevent
  simp only [Transcript.tracer, hline]
  split <;> exact ⟨_, rfl⟩

/-! ## Labels and nonterminals that are there -/

theorem forall_mem_push {α : Type} {items : Array α} {item : α} {Q : α → Prop}
    (h : ∀ a ∈ items, Q a) (hitem : Q item) : ∀ a ∈ items.push item, Q a := by
  intro a ha
  rcases Array.mem_push.mp ha with hold | rfl
  · exact h a hold
  · exact hitem

theorem forall_mem_modify {α : Type} {items : Array α} {i : Nat} {change : α → α} {Q : α → Prop}
    (h : ∀ a ∈ items, Q a) (hchange : ∀ a, Q a → Q (change a)) :
    ∀ a ∈ items.modify i change, Q a := by
  intro a ha
  obtain ⟨j, hj⟩ := Array.mem_iff_getElem?.mp ha
  rw [Array.getElem?_modify] at hj
  split at hj
  · obtain ⟨old, hold, rfl⟩ := Option.map_eq_some_iff.mp hj
    exact hchange old (h old (Array.mem_of_getElem? hold))
  · exact h a (Array.mem_of_getElem? hj)

namespace Scheduler

/-- The labels of the frames and the nonterminals of the derivations are those of a program. -/
structure Within (program : Program) (s : Scheduler) : Prop where
  graph : ∀ stack ∈ s.graph.members, ∀ label ∈ stack.label?, label.index < program.slotCount
  forest : ∀ node ∈ s.forest.symbols, ∀ nonterminal ∈ node.nonterminal?,
    nonterminal.index < program.nonterminalCount

namespace Within

variable {s : Scheduler}

theorem initial (start : Nonterminal) : (Scheduler.initial start).Within program where
  graph stack hstack label hlabel := by
    obtain rfl : stack = .initial := by simpa [Scheduler.initial, StackGraph.empty] using hstack
    cases hlabel
  forest node hnode := by simp [Scheduler.initial, Forest.empty] at hnode

theorem label_lt (h : s.Within program) {frame : StackId} {label : Label} {origin : Nat}
    {links : Array Link} (hstack : s.graph.stack frame = .ok (.frame label origin links)) :
    label.index < program.slotCount :=
  h.graph _ (Array.mem_of_getElem? (Fault.unlessSome_eq_ok_iff.mp hstack)) label rfl

theorem emptyPrefix (h : s.Within program) : s.emptyPrefix.2.Within program := by
  unfold Scheduler.emptyPrefix
  split <;> exact ⟨h.graph, h.forest⟩

theorem dequeue (h : s.Within program) {task : Task} {rest : Scheduler}
    (hdequeue : s.dequeue? = some (task, rest)) : rest.Within program := by
  obtain ⟨_, -, rfl⟩ := Scheduler.exists_of_dequeue? hdequeue
  exact ⟨h.graph, h.forest⟩

theorem consFor (h : s.Within program) (label : Label) (first : Position) :
    (s.consFor label first).2.Within program := by
  unfold Scheduler.consFor
  split <;> exact ⟨h.graph, h.forest⟩

theorem packSplit (h : s.Within program) (id : PrefixId) (child : Split) :
    (s.packSplit id child).Within program :=
  ⟨h.graph, h.forest⟩

theorem offer (h : s.Within program) (task : Task) : (s.offer task).2.Within program := by
  obtain ⟨_, _, _, _, heq⟩ := s.exists_offer_eq task
  rw [heq]
  exact ⟨h.graph, h.forest⟩

theorem recordResult (h : s.Within program) (frame : StackId) (result : SymbolId) :
    (s.recordResult frame result).2.Within program := by
  simp only [Scheduler.recordResult]
  split <;> exact ⟨h.graph, h.forest⟩

theorem derivationFor (h : s.Within program) {symbol : Nonterminal}
    (hsymbol : symbol.index < program.nonterminalCount) (first : Position) :
    (s.derivationFor symbol first).2.Within program := by
  unfold Scheduler.derivationFor
  split
  · exact h
  · refine ⟨h.graph, forall_mem_push h.forest fun nonterminal hnonterminal => ?_⟩
    obtain rfl := Option.mem_some.mp hnonterminal
    exact hsymbol

theorem packAlternative (h : s.Within program) (id : SymbolId) (child : PrefixId) :
    (s.packAlternative id child).Within program := by
  refine ⟨h.graph, ?_⟩
  simp only [Scheduler.packAlternative, Forest.packAlternative]
  refine forall_mem_modify h.forest fun node hnode => ?_
  cases node <;> exact hnode

theorem frameFor (h : s.Within program) {label : Label} (hlabel : label.index < program.slotCount)
    (origin : Nat) : (s.frameFor label origin).2.Within program := by
  unfold Scheduler.frameFor
  split
  · exact h
  · refine ⟨forall_mem_push h.graph fun label' hlabel' => ?_, h.forest⟩
    obtain rfl := Option.mem_some.mp hlabel'
    exact hlabel

theorem link (h : s.Within program) (frame : StackId) (link : Link) :
    (s.link frame link).2.Within program := by
  unfold Scheduler.link
  split
  · refine ⟨?_, h.forest⟩
    simp only [StackGraph.addLink]
    refine forall_mem_modify h.graph fun stack hstack => ?_
    cases stack <;> exact hstack
  · exact h

theorem advance (h : s.Within program) (hstart : s.start.index < program.nonterminalCount)
    (symbol : Option Char) : (s.advance symbol).Within program := by
  have hanchored {s' : Scheduler} (h' : s'.Within program) (hstart' : s'.start = s.start) :
      s'.anchorRoot.Within program := by
    have hroot := h'.derivationFor (hstart' ▸ hstart) (s'.first.getD s'.current)
    exact ⟨hroot.graph, hroot.forest⟩
  cases symbol with
  | none => exact hanchored ⟨h.graph, h.forest⟩ rfl
  | some char =>
    refine hanchored ⟨h.graph, forall_mem_push h.forest fun nonterminal hterminal => ?_⟩ rfl
    exact absurd hterminal (Option.not_mem_none nonterminal)

end Within

end Scheduler

/-! ## Actions -/

/-- An event that a step reports is one of the program. -/
def Step.IsOf {α : Type} (program : Program) : Step α → Prop
  | .emit event => event.IsOf program
  | _ => True

/-- As long as frames and derivations are within the program, an action reports events of the
program alone, and keeps them there. -/
def Act.IsOf {α : Type} (program : Program) : Act α → Prop
  | .done _ => True
  | .ask step next => step.IsOf program ∧ ∀ before b after, before.scheduler.Within program →
      step.Leads before b after → after.scheduler.Within program ∧ Act.IsOf program (next b)

namespace Act

variable {α β : Type}

theorem isOf_request {step : Step α} (hstep : step.IsOf program)
    (hkeep : ∀ before b after, before.scheduler.Within program → step.Leads before b after →
      after.scheduler.Within program) : Act.IsOf program (Plan.request step) :=
  ⟨hstep, fun before b after h hleads => ⟨hkeep before b after h hleads, trivial⟩⟩

theorem isOf_emit {event : Event} (h : event.IsOf program) : (emit event).IsOf program := by
  refine isOf_request h fun before _ after hbefore hleads => ?_
  obtain rfl := hleads
  exact hbefore

theorem isOf_update {change : Scheduler → α × Scheduler}
    (h : ∀ s : Scheduler, s.Within program → (change s).2.Within program) :
    (update change).IsOf program := by
  refine isOf_request trivial fun before _ after hbefore hleads => ?_
  have hafter := h _ hbefore
  rw [hleads.1] at hafter
  exact hafter

theorem isOf_offer {task : Task} : (offer task).IsOf program := by
  refine isOf_request trivial fun before _ after hbefore hleads => ?_
  have hafter := hbefore.offer task
  rw [hleads.1] at hafter
  exact hafter

theorem isOf_bind {first : Act α} {next : α → Act β} (hfirst : first.IsOf program)
    (hnext : ∀ a, (next a).IsOf program) : Act.IsOf program (first >>= next) := by
  change Act.IsOf program (first.andThen next)
  induction first with
  | done value => exact hnext value
  | ask step rest ih =>
    refine ⟨hfirst.1, fun before b after hbefore hleads => ?_⟩
    obtain ⟨hafter, hrest⟩ := hfirst.2 before b after hbefore hleads
    exact ⟨hafter, ih b hrest⟩

/-- What is read off the scheduler is within the program. -/
theorem isOf_look_bind {read : Scheduler → Except Fault α} {next : α → Act β}
    (h : ∀ (s : Scheduler) a, s.Within program → read s = .ok a → (next a).IsOf program) :
    Act.IsOf program (look read >>= next) := by
  refine ⟨trivial, fun before a after hbefore hleads => ?_⟩
  obtain ⟨hread, rfl⟩ := hleads
  exact ⟨hbefore, h _ a hbefore hread⟩

theorem isOf_discard {act : Act α} (h : act.IsOf program) :
    Act.IsOf program (discard act : Act PUnit) :=
  isOf_bind h fun _ => trivial

theorem isOf_forEach {items : List β} {body : β → Act Unit}
    (h : ∀ item, (body item).IsOf program) : Act.IsOf program (Plan.forEach items body) := by
  induction items with
  | nil => trivial
  | cons item rest ih => exact isOf_bind (h item) fun _ => ih

/-- Where an action leads that reports events of the program alone, it is carried out with any
tracer that shows them. -/
theorem IsOf.exists_run {σ : Type} {tracer : Tracer σ} (hshows : tracer.Shows program)
    {act : Act α} (hact : act.IsOf program) {before after : Moment} {a : α} (trace : σ)
    (hleads : act.Leads before a after) (hbefore : before.scheduler.Within program) :
    (∃ trace', act.run tracer ⟨before.scheduler, trace⟩ = .ok a ⟨after.scheduler, trace'⟩) ∧
      after.scheduler.Within program := by
  induction act generalizing before trace with
  | done value =>
    obtain ⟨rfl, rfl⟩ := hleads
    exact ⟨⟨trace, rfl⟩, hbefore⟩
  | ask step next ih =>
    obtain ⟨b, between, hstep, hrest⟩ := hleads
    obtain ⟨hbetween, hnext⟩ := hact.2 before b between hbefore hstep
    obtain ⟨traced, hrun⟩ : ∃ traced,
        step.run tracer ⟨before.scheduler, trace⟩ = .ok b ⟨between.scheduler, traced⟩ := by
      cases step with
      | emit event =>
        obtain rfl := hstep
        obtain ⟨extend, hrecord⟩ := hshows event hact.1
        exact ⟨extend trace, by rw [Step.run, hrecord]⟩
      | look read =>
        obtain ⟨hread, rfl⟩ := hstep
        exact ⟨trace, by rw [Step.run, hread]⟩
      | update change => exact ⟨trace, by rw [Step.run, hstep.1]⟩
      | offer task => exact ⟨trace, by rw [Step.run, hstep.1]⟩
    obtain ⟨⟨trace', hrun'⟩, hafter⟩ := ih b hnext traced hrest hbetween
    refine ⟨⟨trace', ?_⟩, hafter⟩
    rw [Act.run, Plan.run, hrun]
    exact hrun'

end Act

namespace Scheduler

open Act

variable {label : Label} {caller frame : StackId} {stem : PrefixId} {result : SymbolId}

theorem scheduleNow_isOf (hlabel : label.index < program.slotCount) :
    (scheduleNow label caller stem).IsOf program := by
  refine isOf_bind isOf_offer fun isNew => ?_
  cases isNew with
  | false => exact isOf_bind (isOf_emit hlabel) fun _ => trivial
  | true => trivial

theorem scheduleLater_isOf : (scheduleLater frame result).IsOf program := by
  refine isOf_bind isOf_offer fun isNew => ?_
  cases isNew with
  | false => exact isOf_bind (isOf_emit trivial) fun _ => trivial
  | true => trivial

theorem append_isOf : (append label stem result).IsOf program := by
  refine isOf_look_bind fun _ node _ _ => ?_
  refine isOf_bind (isOf_update fun _ h => h.consFor label node.first) fun cons => ?_
  refine isOf_look_bind fun _ symbol _ _ => ?_
  exact isOf_bind (isOf_update fun _ h => h.packSplit cons _) fun _ => trivial

theorem derive_isOf {symbol : Nonterminal} (hsymbol : symbol.index < program.nonterminalCount)
    {first : Position} : (derive symbol first stem).IsOf program := by
  refine isOf_bind (isOf_update fun _ h => h.derivationFor hsymbol first) fun derivation => ?_
  exact isOf_bind (isOf_update fun _ h => h.packAlternative derivation stem) fun _ => trivial

theorem deliver_isOf (hlabel : label.index < program.slotCount) {link : Link} :
    (deliver link result label).IsOf program :=
  isOf_bind append_isOf fun _ => isOf_discard (scheduleNow_isOf hlabel)

theorem push_isOf (hlabel : label.index < program.slotCount) {origin : Nat} :
    (push label caller origin stem).IsOf program := by
  refine isOf_bind (isOf_update fun _ h => h.frameFor hlabel origin) fun frame => ?_
  refine isOf_bind (isOf_update fun _ h => h.link frame ⟨caller, stem⟩) fun isNew => ?_
  refine isOf_bind (isOf_emit hlabel) fun _ => ?_
  cases isNew with
  | false => trivial
  | true =>
    refine isOf_look_bind fun _ results _ _ => ?_
    refine isOf_bind (isOf_forEach fun result => ?_) fun _ => trivial
    exact isOf_bind (isOf_emit trivial) fun _ => deliver_isOf hlabel

/-- What a `pop` reports is read off the frame and off the result. -/
theorem pop_isOf : (pop frame result).IsOf program := by
  refine isOf_look_bind fun s stack hs hstack => ?_
  cases stack with
  | initial => trivial
  | frame label origin links =>
    have hlabel := hs.label_lt hstack
    refine isOf_bind (isOf_update fun _ h => h.recordResult frame result) fun isNew => ?_
    refine isOf_look_bind fun s' node hs' hnode => ?_
    have hevent : (Event.pop frame result node.nonterminal? node.span isNew).IsOf program := by
      have hmem := Array.mem_of_getElem? (Fault.unlessSome_eq_ok_iff.mp hnode)
      cases node with
      | terminal position => trivial
      | nonterminal symbol first last alternatives => exact hs'.forest _ hmem symbol rfl
    refine isOf_bind (isOf_emit hevent) fun _ => ?_
    cases isNew with
    | false => trivial
    | true => exact isOf_forEach fun link => deliver_isOf hlabel

end Scheduler

/-! ## Requests -/

/-- The label or the nonterminal of a request, or the event that it reports, is one of the
program. -/
def Operation.IsOf {α : Type} (program : Program) : Operation α → Prop
  | .note event => event.IsOf program
  | .derive nonterminal _ _ => nonterminal.index < program.nonterminalCount
  | .scheduleNow label _ _ => label.index < program.slotCount
  | .push label _ _ _ => label.index < program.slotCount
  | .deliver _ _ label => label.index < program.slotCount
  | _ => True

section Requests

variable {α β : Type}

theorem Operation.IsOf.act {operation : Operation α} (h : operation.IsOf program) :
    operation.act.IsOf program := by
  cases operation with
  | look read => exact Act.isOf_look_bind fun _ _ _ _ => trivial
  | note event => exact Act.isOf_emit h
  | emptyPrefix => exact Act.isOf_update fun _ hs => hs.emptyPrefix
  | append label left right => exact Scheduler.append_isOf
  | derive nonterminal first child => exact Scheduler.derive_isOf h
  | scheduleNow label caller stem => exact Scheduler.scheduleNow_isOf h
  | scheduleLater frame result => exact Scheduler.scheduleLater_isOf
  | push label caller origin stem => exact Scheduler.push_isOf h
  | pop frame result => exact Scheduler.pop_isOf
  | deliver link result label => exact Scheduler.deliver_isOf h

/-- Every request that a routine may make is one of the program. -/
def Routine.IsOf (program : Program) (routine : Routine α) : Prop :=
  Plan.Each (Operation.IsOf program) routine

/-- Where a routine leads whose requests are those of the program, it is carried out with any tracer
that shows the events of the program. -/
theorem Routine.exists_run_of_shows {σ : Type} {tracer : Tracer σ} (hshows : tracer.Shows program)
    {routine : Routine α} (hroutine : routine.IsOf program) {before after : Moment} {a : α}
    (trace : σ) (hleads : routine.Leads before a after)
    (hbefore : before.scheduler.Within program) :
    (∃ trace', routine.run tracer ⟨before.scheduler, trace⟩ = .ok a ⟨after.scheduler, trace'⟩) ∧
      after.scheduler.Within program := by
  induction routine generalizing before trace with
  | done value =>
    obtain ⟨rfl, rfl⟩ := hleads
    exact ⟨⟨trace, rfl⟩, hbefore⟩
  | ask request next ih =>
    obtain ⟨b, between, hrequest, hrest⟩ := hleads
    obtain ⟨⟨traced, hrun⟩, hbetween⟩ := hroutine.1.act.exists_run hshows trace hrequest hbefore
    obtain ⟨⟨trace', hrun'⟩, hafter⟩ := ih b (hroutine.2 b) traced hrest hbetween
    refine ⟨⟨trace', ?_⟩, hafter⟩
    rw [Routine.run, Plan.run, Operation.run, hrun]
    exact hrun'

namespace Routine

theorem isOf_bind {first : Routine α} {next : α → Routine β} (hfirst : first.IsOf program)
    (hnext : ∀ a, (next a).IsOf program) : Routine.IsOf program (first >>= next) :=
  Plan.each_bind hfirst hnext

theorem isOf_request {operation : Operation α} (h : operation.IsOf program) :
    (request operation).IsOf program :=
  Plan.each_request.mpr h

theorem isOf_look {read : Scheduler → Except Fault α} : (look read).IsOf program :=
  isOf_request trivial

theorem isOf_push {label : Label} {caller : StackId} {stem : PrefixId}
    (hlabel : label.index < program.slotCount) : (push label caller stem).IsOf program :=
  isOf_bind isOf_look fun _ => isOf_request hlabel

theorem isOf_lift {μ : Type} {routine : Routine α} {store : μ} (h : routine.IsOf program) :
    Routine.IsOf program ((StateT.lift routine : StateT μ Routine α).run store) :=
  isOf_bind h fun _ => trivial

end Routine

end Requests

/-! ## The interpreter -/

/-- The label of a task is one of the program. -/
def Task.IsOf (program : Program) : Task → Prop
  | .resume label _ _ => label.index < program.slotCount
  | .shift _ _ => True

namespace Program

open Routine

theorem executeTerminal_isOf {matcher : Matcher} {label : Label} {caller : StackId}
    {stem : PrefixId} (hlabel : label.index < program.slotCount)
    (hnext : label.next.index < program.slotCount) :
    (executeTerminal matcher label caller stem).IsOf program := by
  refine isOf_bind isOf_look fun position => isOf_bind (isOf_request hlabel) fun _ => ?_
  split
  · refine isOf_bind isOf_look fun symbol => ?_
    cases symbol with
    | none => trivial
    | some symbol =>
      exact isOf_bind (isOf_push hnext) fun _ => Plan.each_discard (isOf_request trivial)
  · trivial

theorem executeComplete_isOf {symbol : Nonterminal} {caller : StackId} {stem : PrefixId}
    (hsymbol : symbol.index < program.nonterminalCount) :
    (executeComplete symbol caller stem).IsOf program :=
  isOf_bind isOf_look fun _ => isOf_bind (isOf_request hsymbol) fun _ => isOf_request trivial

theorem executeAccept_isOf {stem : PrefixId} : (executeAccept stem).IsOf program :=
  isOf_bind isOf_look fun _ => isOf_request trivial

namespace Whole

variable (h : program.Whole)
include h

theorem entry_lt {nonterminal : Nonterminal} {labels : List Label} {entry : Label}
    (hlabels : program.entries? nonterminal = some labels) (hentry : entry ∈ labels) :
    entry.index < program.slotCount :=
  (h.laid.item_entry hlabels hentry).index_lt h.laid

theorem seed_isOf : Routine.IsOf program program.seed := by
  refine isOf_bind (isOf_request trivial) fun stem => ?_
  obtain ⟨slot, hslot⟩ : ∃ slot, program.slot? acceptLabel = some slot := ⟨_, h.laid.accept⟩
  refine isOf_bind (isOf_push (Array.getElem?_eq_some_iff.mp hslot).1) fun frame => ?_
  cases hlabels : program.entries? program.start with
  | none => exact isOf_look
  | some labels =>
    refine Plan.each_forEach fun entry hentry => Plan.each_discard (isOf_request ?_)
    exact h.entry_lt hlabels hentry

theorem executeCall_isOf {callee : Nonterminal} {label : Label} {caller : StackId}
    {stem : PrefixId} (hnext : label.next.index < program.slotCount) :
    (program.executeCall callee label caller stem).IsOf program := by
  refine isOf_bind (isOf_push hnext) fun frame => ?_
  cases hlabels : program.entries? callee with
  | none => exact isOf_look
  | some labels =>
    refine Plan.each_forEach fun entry hentry => isOf_bind (isOf_request trivial) fun stem => ?_
    exact Plan.each_discard (isOf_request (h.entry_lt hlabels hentry))

/-- What is asked for at a slot is about the labels and nonterminals that its item has. -/
theorem execute_isOf (label : Label) (caller : StackId) (stem : PrefixId) :
    (program.execute label caller stem).IsOf program := by
  rw [Program.execute]
  cases hslot : program.slot? label with
  | none => exact isOf_look
  | some slot =>
    have hlabel : label.index < program.slotCount := (Array.getElem?_eq_some_iff.mp hslot).1
    obtain ⟨owner, before, after, hitem⟩ := h.exists_item hlabel
    cases after with
    | cons atom after =>
      have hnext := hitem.next.index_lt h.laid
      obtain rfl := Option.some.inj (hitem.slot?_cons.symm.trans hslot)
      cases atom with
      | terminal matcher => exact executeTerminal_isOf hlabel hnext
      | nonterminal callee => exact h.executeCall_isOf hnext
    | nil =>
      cases owner with
      | some owner =>
        obtain rfl := Option.some.inj (hitem.slot?_nil.symm.trans hslot)
        exact executeComplete_isOf hitem.owner_lt
      | none =>
        obtain ⟨rfl, -, -⟩ := hitem.eq_accept
        obtain rfl := Option.some.inj (h.laid.accept.symm.trans hslot)
        exact executeAccept_isOf

theorem routine_isOf {task : Task} (htask : task.IsOf program) :
    Routine.IsOf program ((program.interpreter.routine task).run ()) := by
  cases task with
  | resume label caller stem =>
    rw [Interpreter.routine, StateT.run_bind]
    exact isOf_bind (isOf_lift (isOf_request htask)) fun _ =>
      isOf_lift (h.execute_isOf label caller stem)
  | shift frame result =>
    exact isOf_lift (isOf_bind isOf_look fun _ => isOf_bind (isOf_request trivial) fun _ =>
      isOf_request trivial)

end Whole

end Program

/-! ## Sessions -/

namespace Session

variable {σ μ : Type} {tracer : Tracer σ} {limit : Nat}

/-- A session as it would be if nobody had watched. -/
def unseen (session : Session σ μ) : Session Unit μ :=
  ⟨⟨session.scheduler, ()⟩, session.store, session.fuel, session.limit⟩

/-- A routine that comes to its end when nobody watches does so, with the same outcome, when events
of the program are shown. -/
theorem perform_of_unseen (hshows : tracer.Shows program) {session : Session σ μ}
    {quiet : Session Unit μ} {routine : StateT μ Routine Unit}
    (hroutine : Routine.IsOf program (routine.run session.store))
    (hwithin : session.scheduler.Within program)
    (hquiet : perform .silent routine session.unseen = .ok () quiet) :
    ∃ next, perform tracer routine session = .ok () next ∧ next.unseen = quiet ∧
      next.scheduler.Within program := by
  obtain ⟨store, world, hrun, rfl⟩ := perform_eq_ok hquiet
  have hleads := Routine.leads_of_run [] hrun
  obtain ⟨⟨trace, hrun'⟩, hafter⟩ :=
    Routine.exists_run_of_shows hshows hroutine session.world.trace hleads hwithin
  have hrun : (routine.run session.store).run tracer session.world
      = .ok ((), store) ⟨world.scheduler, trace⟩ := hrun'
  refine ⟨{ session with store, world := ⟨world.scheduler, trace⟩ }, ?_, rfl, hafter⟩
  rw [perform, hrun]

theorem openGeneration_of_shows (hshows : tracer.Shows program) {session : Session σ μ}
    {symbol : Option Char} (hrefusal : session.scheduler.refusal? = none) :
    ∃ trace, openGeneration tracer symbol session
      = .ok () { session with world := ⟨session.scheduler.advance symbol, trace⟩ } := by
  obtain ⟨extend, hrecord⟩ :=
    hshows (.advance (session.scheduler.advance symbol).current) trivial
  refine ⟨extend session.world.trace, ?_⟩
  have hemit : (Act.emit (.advance (session.scheduler.advance symbol).current)).run tracer
      ⟨session.scheduler.advance symbol, session.world.trace⟩
        = .ok () ⟨session.scheduler.advance symbol, extend session.world.trace⟩ := by
    rw [Act.run, Act.emit, Plan.request, Plan.run, Step.run, hrecord]
    rfl
  have hrun : Act.run tracer (do
      Act.update fun s => ((), s.advance symbol)
      Act.emit (.advance (← Act.look fun s => .ok s.current))) session.world
        = .ok () ⟨session.scheduler.advance symbol, extend session.world.trace⟩ := hemit
  rw [openGeneration_eq, hrefusal]
  simp only [act, hrun]

theorem takeTask_unseen {session taken : Session σ μ} {task : Task}
    (h : takeTask session = .ok (some task) taken) :
    takeTask session.unseen = .ok (some task) taken.unseen := by
  obtain ⟨⟨scheduler, trace⟩, store, fuel, limit⟩ := session
  obtain ⟨rest, fuel', hdequeue, hfuel, rfl⟩ := takeTask_eq_ok h
  simp only [Session.scheduler] at hdequeue hfuel
  subst hfuel
  simp only [unseen, Session.scheduler, takeTask, hdequeue]

/-- What a session of a program is like when every tracer has shown the events of the program. -/
structure Attended (program : Program) (limit : Nat) (session : Session σ Unit) : Prop where
  reaches : ∃ fed offers, Reaches program.interpreter .silent
    (.initial program.interpreter () () limit) fed session.unseen offers
  within : session.scheduler.Within program

namespace Attended

variable {session taken : Session σ Unit}

theorem initial (program : Program) (trace : σ) (limit : Nat) :
    Attended program limit (Session.initial program.interpreter trace () limit) :=
  ⟨⟨[], [], .start⟩, .initial program.start⟩

theorem start_eq (h : Attended program limit session) :
    session.scheduler.start = program.start := by
  obtain ⟨fed, offers, hreaches⟩ := h.reaches
  exact (hreaches.law (Scheduler.law_rooted program.start)).start_eq

/-- The labels of pending tasks are those of the program. -/
theorem task_isOf (hlaid : program.Laid) (h : Attended program limit session) {task : Task}
    (hmem : task ∈ session.scheduler.pending.toList) : task.IsOf program := by
  obtain ⟨fed, offers, hreaches⟩ := h.reaches
  obtain ⟨_, hunderway⟩ := hreaches.underway_of_mem hlaid hmem
  cases task with
  | resume label caller stem =>
    have hoffered : Moment.Holds ⟨session.scheduler, offers⟩
        (.offered (.resume label caller stem)) := hunderway.due hmem
    obtain ⟨-, _, _, _, _, hresumable⟩ := hunderway.steady.sound.proper hoffered
    exact hresumable.item.index_lt hlaid
  | shift frame result => trivial

/-- A generation is opened, and seeded if it is the first one, unless that is refused; and the same
is done when nobody watches. -/
theorem advance (hwhole : program.Whole) (hshows : tracer.Shows program)
    (h : Attended program limit session) (symbol : Option Char)
    (hrefusal : session.scheduler.refusal? = none) :
    ∃ next, Session.advance program.interpreter tracer symbol session = .ok () next ∧
      Session.advance program.interpreter .silent symbol session.unseen = .ok () next.unseen ∧
      Attended program limit next := by
  obtain ⟨fed, offers, hreaches⟩ := h.reaches
  have hends := hreaches.advance_ends hwhole.laid hwhole.closed symbol hrefusal
  obtain ⟨_, quiet, hquiet, -⟩ := hends.exists_ok Tracer.isTotal_silent
  have hreaches' := hreaches.advance hquiet
  obtain ⟨trace, hopen⟩ := openGeneration_of_shows hshows hrefusal
  let opened : Session σ Unit :=
    { session with world := ⟨session.scheduler.advance symbol, trace⟩ }
  have hopen : openGeneration tracer symbol session = .ok () opened := hopen
  have hunseen : openGeneration .silent symbol session.unseen = .ok () opened.unseen := by
    have hrefusal : session.unseen.scheduler.refusal? = none := hrefusal
    exact (openGeneration_of_shows (Tracer.isTotal_silent.shows program) hrefusal).choose_spec
  have hwithin : opened.scheduler.Within program :=
    h.within.advance (h.start_eq ▸ hwhole.start_lt) symbol
  rw [hquiet]
  rw [advance_eq, hunseen] at hquiet
  rw [advance_eq, hopen]
  dsimp only at hquiet ⊢
  have hsame : opened.unseen.scheduler.isFirstGeneration = opened.scheduler.isFirstGeneration := rfl
  rw [hsame] at hquiet
  split
  · rename_i hfirst
    rw [if_pos hfirst] at hquiet
    obtain ⟨next, hrun, rfl, hnext⟩ :=
      perform_of_unseen hshows (Routine.isOf_lift hwhole.seed_isOf) hwithin hquiet
    exact ⟨next, hrun, rfl, ⟨_, _, hreaches'⟩, hnext⟩
  · rename_i hfirst
    rw [if_neg hfirst] at hquiet
    obtain ⟨-, rfl⟩ := EStateM.Result.ok.inj hquiet
    exact ⟨opened, rfl, rfl, ⟨_, _, hreaches'⟩, hwithin⟩

/-- The next task can be done, and it is done in the same way when nobody watches. -/
theorem work (hwhole : program.Whole) (hshows : tracer.Shows program)
    (h : Attended program limit session) {task : Task}
    (htake : takeTask session = .ok (some task) taken) :
    ∃ next, runTask program.interpreter tracer task taken = .ok () next ∧
      runTask program.interpreter .silent task taken.unseen = .ok () next.unseen ∧
      Attended program limit next := by
  obtain ⟨fed, offers, hreaches⟩ := h.reaches
  have htake' := takeTask_unseen htake
  obtain ⟨_, quiet, hquiet, -⟩ :=
    (hreaches.runTask_ends hwhole.laid hwhole.closed htake').exists_ok Tracer.isTotal_silent
  obtain ⟨rest, fuel, hdequeue, -, rfl⟩ := takeTask_eq_ok htake
  have htask := h.task_isOf hwhole.laid (Moment.mem_of_dequeue hdequeue)
  obtain ⟨next, hrun, rfl, hnext⟩ :=
    perform_of_unseen hshows (hwhole.routine_isOf htask) (h.within.dequeue hdequeue) hquiet
  exact ⟨next, hrun, hquiet, ⟨_, _, hreaches.work htake' hquiet⟩, hnext⟩

end Attended

/-- As long as the events of the program are shown, a call halts only with an error. -/
theorem closed_attended (hwhole : program.Whole) (hshows : tracer.Shows program) (limit : Nat) :
    Closed program.interpreter tracer (Attended program limit)
      fun halt => ∃ error, halt = .error error where
  error error := ⟨error, rfl⟩
  advance symbol h hopen := by
    obtain ⟨next, hrun, -, hnext⟩ := h.advance hwhole hshows symbol hopen
    rw [Stays, hrun]
    exact hnext
  work h htake := by
    obtain ⟨next, hrun, -, hnext⟩ := h.work hwhole hshows htake
    rw [Stays, hrun]
    exact hnext

/-- Whatever is called on a new session, with tracers that show the events of the program, what was
reached is attended. -/
theorem attended_after (hwhole : program.Whole) {commands : List (Command × Tracer σ)}
    (hshows : ∀ command ∈ commands, command.2.Shows program) (trace : σ) (limit : Nat) :
    Attended program limit
      (after program.interpreter commands (.initial program.interpreter trace () limit)) :=
  Closed.after (fun command hmem => closed_attended hwhole (hshows command hmem) limit)
    (.initial program trace limit)

end Session

end Gll
