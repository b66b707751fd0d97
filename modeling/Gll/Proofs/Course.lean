import Gll.Session

/-!
What a plan leads to. Carrying out a plan involves a tracer, which may refuse an event, and leaves
an account of the offered tasks beside it. Neither matters for what the scheduler becomes. So proofs
about a parse start from here: a `Moment` is a scheduler with the tasks that were offered to it, and
`Plan.Leads` says between which moments a plan can go and with which answer. It is read off the
requests of the plan one after the other, and the laws for `pure`, `>>=` and loops are all that is
needed to take a plan apart.

`Act.leads_of_run` and `Routine.leads_of_run` are the bridge: what was carried out to its end, with
any tracer, led from the moment before to the moment after, and the tasks that were offered are
those of the account.
-/

set_option autoImplicit false

namespace Gll

namespace Plan

variable {ε : Type → Type 1} {ω α β γ : Type}

/-- Where a plan leads, and with which answer, given the same for each request. -/
def Leads (single : {β : Type} → ε β → ω → β → ω → Prop) : Plan ε α → ω → α → ω → Prop
  | done value, before, answer, after => answer = value ∧ after = before
  | ask request next, before, answer, after =>
    ∃ b between, single request before b between ∧ Leads single (next b) between answer after

variable {single : {β : Type} → ε β → ω → β → ω → Prop}

@[simp] theorem leads_pure {value answer : α} {before after : ω} :
    (pure value : Plan ε α).Leads single before answer after ↔ answer = value ∧ after = before :=
  Iff.rfl

@[simp] theorem leads_done {value answer : α} {before after : ω} :
    (done value : Plan ε α).Leads single before answer after ↔ answer = value ∧ after = before :=
  Iff.rfl

variable (single) in
@[simp] theorem leads_request {request : ε α} {before after : ω} {answer : α} :
    (Plan.request request).Leads single before answer after
      ↔ single request before answer after := by
  simp only [Plan.request, Leads]
  constructor
  · rintro ⟨b, between, h, rfl, rfl⟩
    exact h
  · exact fun h => ⟨answer, after, h, rfl, rfl⟩

theorem leads_andThen {first : Plan ε α} {next : α → Plan ε β} {before after : ω} {answer : β} :
    (first.andThen next).Leads single before answer after ↔
      ∃ a between, first.Leads single before a between ∧
        (next a).Leads single between answer after := by
  induction first generalizing before with
  | done value =>
    constructor
    · exact fun h => ⟨value, before, ⟨rfl, rfl⟩, h⟩
    · rintro ⟨a, between, ⟨rfl, rfl⟩, h⟩
      exact h
  | ask request rest ih =>
    simp only [andThen, Leads]
    constructor
    · rintro ⟨b, between, hone, hrest⟩
      obtain ⟨a, between', htwo, hnext⟩ := ih b |>.mp hrest
      exact ⟨a, between', ⟨b, between, hone, htwo⟩, hnext⟩
    · rintro ⟨a, between', ⟨b, between, hone, htwo⟩, hnext⟩
      exact ⟨b, between, hone, ih b |>.mpr ⟨a, between', htwo, hnext⟩⟩

@[simp] theorem leads_bind {first : Plan ε α} {next : α → Plan ε β} {before after : ω}
    {answer : β} :
    (first >>= next).Leads single before answer after ↔
      ∃ a between, first.Leads single before a between ∧
        (next a).Leads single between answer after :=
  leads_andThen

@[simp] theorem leads_discard {plan : Plan ε α} {before after : ω} {answer : PUnit} :
    (discard plan).Leads single before answer after ↔
      ∃ a, plan.Leads single before a after := by
  change (plan.andThen fun _ => Plan.done PUnit.unit).Leads single before answer after ↔ _
  rw [leads_andThen]
  simp only [leads_done]
  constructor
  · rintro ⟨a, between, h, -, rfl⟩
    exact ⟨a, h⟩
  · rintro ⟨a, h⟩
    exact ⟨a, after, h, trivial, rfl⟩

/-- What every pass of a loop keeps, the loop keeps; and what a pass brings about for its own item,
and the later passes keep, holds of all items in the end. -/
theorem leads_forEach {items : List β} {body : β → Plan ε Unit} {before after : ω}
    (hleads : (forEach items body).Leads single before () after) (Reaches : ω → ω → Prop)
    (Done : β → ω → Prop) (hrefl : ∀ world, Reaches world world)
    (htrans : ∀ {a b c}, Reaches a b → Reaches b c → Reaches a c)
    (hkeep : ∀ {item a b}, Reaches a b → Done item a → Done item b)
    (hbody : ∀ item ∈ items, ∀ between between', Reaches before between →
      (body item).Leads single between () between' →
        Reaches between between' ∧ Done item between') :
    Reaches before after ∧ ∀ item ∈ items, Done item after := by
  induction items generalizing before with
  | nil =>
    obtain ⟨-, rfl⟩ := hleads
    exact ⟨hrefl _, fun _ hitem => absurd hitem List.not_mem_nil⟩
  | cons item rest ih =>
    obtain ⟨⟨⟩, between, hitem, hrest⟩ := leads_andThen.mp hleads
    obtain ⟨hreaches, hdone⟩ := hbody item List.mem_cons_self before between (hrefl _) hitem
    obtain ⟨hreaches', hdone'⟩ := ih hrest fun other hother a b ha hb =>
      hbody other (List.mem_cons_of_mem _ hother) a b (htrans hreaches ha) hb
    -- What the first pass brought about is still so after the others.
    refine ⟨htrans hreaches hreaches', fun other hother => ?_⟩
    rcases List.mem_cons.mp hother with rfl | hother
    · exact hkeep hreaches' hdone
    · exact hdone' other hother

end Plan

/-! ## Moments -/

/-- A scheduler with the tasks that were offered to it. -/
structure Moment where
  scheduler : Scheduler
  offers : List Task

/-- Where a step leads. -/
def Step.Leads {α : Type} : Step α → Moment → α → Moment → Prop
  | .look read, before, answer, after => read before.scheduler = .ok answer ∧ after = before
  | .update change, before, answer, after =>
    change before.scheduler = (answer, after.scheduler) ∧ after.offers = before.offers
  | .offer task, before, answer, after =>
    Scheduler.offer task before.scheduler = (answer, after.scheduler) ∧
      after.offers = before.offers ++ [task]
  | .emit _, before, _, after => after = before

/-- Where an action leads. -/
def Act.Leads {α : Type} (act : Act α) : Moment → α → Moment → Prop :=
  Plan.Leads Step.Leads act

/-- Where a request leads. -/
def Operation.Leads {α : Type} (operation : Operation α) : Moment → α → Moment → Prop :=
  operation.act.Leads

/-- Where a routine leads. -/
def Routine.Leads {α : Type} (routine : Routine α) : Moment → α → Moment → Prop :=
  Plan.Leads Operation.Leads routine

section Laws

variable {α β : Type} {before after : Moment}

@[simp] theorem Act.leads_pure {value answer : α} :
    Act.Leads (pure value) before answer after ↔ answer = value ∧ after = before :=
  Iff.rfl

@[simp] theorem Act.leads_bind {first : Act α} {next : α → Act β} {answer : β} :
    Act.Leads (first >>= next) before answer after ↔
      ∃ a between, first.Leads before a between ∧ Act.Leads (next a) between answer after :=
  Plan.leads_bind

@[simp] theorem Act.leads_discard {act : Act α} {answer : PUnit} :
    Act.Leads (discard act) before answer after ↔ ∃ a, act.Leads before a after :=
  Plan.leads_discard

@[simp] theorem Act.leads_look {read : Scheduler → Except Fault α} {answer : α} :
    (Act.look read).Leads before answer after ↔
      read before.scheduler = .ok answer ∧ after = before :=
  Plan.leads_request Step.Leads

@[simp] theorem Act.leads_update {change : Scheduler → α × Scheduler} {answer : α} :
    (Act.update change).Leads before answer after ↔
      change before.scheduler = (answer, after.scheduler) ∧ after.offers = before.offers :=
  Plan.leads_request Step.Leads

@[simp] theorem Act.leads_offer {task : Task} {answer : Bool} :
    (Act.offer task).Leads before answer after ↔
      Scheduler.offer task before.scheduler = (answer, after.scheduler) ∧
        after.offers = before.offers ++ [task] :=
  Plan.leads_request Step.Leads

@[simp] theorem Act.leads_emit {event : Event} {answer : Unit} :
    (Act.emit event).Leads before answer after ↔ after = before :=
  Plan.leads_request Step.Leads

@[simp] theorem Routine.leads_pure {value answer : α} :
    Routine.Leads (pure value) before answer after ↔ answer = value ∧ after = before :=
  Iff.rfl

@[simp] theorem Routine.leads_bind {first : Routine α} {next : α → Routine β} {answer : β} :
    Routine.Leads (first >>= next) before answer after ↔
      ∃ a between, first.Leads before a between ∧ Routine.Leads (next a) between answer after :=
  Plan.leads_bind

@[simp] theorem Routine.leads_discard {routine : Routine α} {answer : PUnit} :
    Routine.Leads (discard routine) before answer after ↔ ∃ a, routine.Leads before a after :=
  Plan.leads_discard

@[simp] theorem Routine.leads_request {operation : Operation α} {answer : α} :
    (Routine.request operation).Leads before answer after ↔
      operation.act.Leads before answer after :=
  Plan.leads_request Operation.Leads

end Laws

/-! ## Requests -/

namespace Scheduler

variable {before after : Moment}

/-- To extend a prefix by a symbol is to find or make the longer one and to pack the split there. -/
theorem leads_append {label : Label} {left id : PrefixId} {right : SymbolId} :
    (append label left right).Leads before id after ↔
      ∃ stem symbol made, before.scheduler.forest.prefixNode? left = some stem ∧
        before.scheduler.consFor label stem.first = (id, made) ∧
        made.forest.symbolNode? right = some symbol ∧
        after = ⟨made.packSplit id ⟨label, symbol.first, left, right⟩, before.offers⟩ := by
  simp only [append, Act.leads_bind, Act.leads_look, Act.leads_update, Act.leads_pure]
  constructor
  · rintro ⟨stem, before, ⟨hstem, rfl⟩, cons, made, ⟨hcons, hoffers⟩, symbol, made, ⟨hsymbol, rfl⟩,
      _, packed, ⟨hpack, hoffers'⟩, rfl, rfl⟩
    refine ⟨stem, symbol, made.scheduler, Fault.unlessSome_eq_ok_iff.mp hstem, hcons,
      Fault.unlessSome_eq_ok_iff.mp hsymbol, ?_⟩
    rw [(Prod.mk.inj hpack).2, ← hoffers, ← hoffers']
  · rintro ⟨stem, symbol, made, hstem, hcons, hsymbol, rfl⟩
    exact ⟨stem, before, ⟨Fault.unlessSome_eq_ok_iff.mpr hstem, rfl⟩, id, ⟨made, before.offers⟩,
      ⟨hcons, rfl⟩, symbol, _, ⟨Fault.unlessSome_eq_ok_iff.mpr hsymbol, rfl⟩, (),
      ⟨made.packSplit id ⟨label, symbol.first, left, right⟩, before.offers⟩, ⟨rfl, rfl⟩, rfl, rfl⟩

/-- To pack a right-hand side is to find or make the derivation and to pack it there. -/
theorem leads_derive {symbol : Nonterminal} {first : Position} {child : PrefixId} {id : SymbolId} :
    (derive symbol first child).Leads before id after ↔
      ∃ made, before.scheduler.derivationFor symbol first = (id, made) ∧
        after = ⟨made.packAlternative id child, before.offers⟩ := by
  simp only [derive, Act.leads_bind, Act.leads_update, Act.leads_pure]
  constructor
  · rintro ⟨_, made, ⟨hmade, hoffers⟩, _, packed, ⟨hpack, hoffers'⟩, rfl, rfl⟩
    refine ⟨made.scheduler, hmade, ?_⟩
    rw [(Prod.mk.inj hpack).2, ← hoffers, ← hoffers']
  · rintro ⟨made, hmade, rfl⟩
    exact ⟨id, ⟨made, before.offers⟩, ⟨hmade, rfl⟩, (),
      ⟨made.packAlternative id child, before.offers⟩, ⟨rfl, rfl⟩, rfl, rfl⟩

/-- To deliver a result is to extend the prefix of the link and to schedule the caller. -/
theorem leads_deliver {link : Link} {result : SymbolId} {label : Label} {answer : Unit} :
    (deliver link result label).Leads before answer after ↔
      ∃ stem between isNew, (append label link.stem result).Leads before stem between ∧
        (scheduleNow label link.caller stem).Leads between isNew after := by
  simp only [deliver, Act.leads_bind, Act.leads_discard, exists_and_left]

end Scheduler

namespace Routine

variable {α : Type} {before after : Moment}

@[simp] theorem leads_look {read : Scheduler → Except Fault α} {answer : α} :
    (look read).Leads before answer after ↔
      read before.scheduler = .ok answer ∧ after = before :=
  leads_request.trans Act.leads_look

@[simp] theorem leads_fail {fault : Fault} {answer : α} :
    ¬ (fail fault).Leads before answer after := by
  rw [fail, leads_look]
  rintro ⟨h, -⟩
  cases h

@[simp] theorem leads_note {event : Event} {answer : Unit} :
    (note event).Leads before answer after ↔ after = before :=
  leads_request.trans Act.leads_emit

@[simp] theorem leads_current {position : Position} :
    current.Leads before position after ↔
      before.scheduler.current = position ∧ after = before := by
  rw [current, leads_look, Except.ok.injEq]

@[simp] theorem leads_terminal {id : Option SymbolId} :
    terminal.Leads before id after ↔ before.scheduler.terminal = id ∧ after = before := by
  rw [terminal, leads_look, Except.ok.injEq]

@[simp] theorem leads_emptyPrefix {id : PrefixId} :
    emptyPrefix.Leads before id after ↔
      before.scheduler.emptyPrefix = (id, after.scheduler) ∧ after.offers = before.offers :=
  leads_request.trans Act.leads_update

@[simp] theorem leads_derive {symbol : Nonterminal} {first : Position} {child : PrefixId}
    {id : SymbolId} : (derive symbol first child).Leads before id after ↔
      (Scheduler.derive symbol first child).Leads before id after :=
  leads_request

@[simp] theorem leads_scheduleNow {label : Label} {caller : StackId} {stem : PrefixId}
    {isNew : Bool} : (scheduleNow label caller stem).Leads before isNew after ↔
      (Scheduler.scheduleNow label caller stem).Leads before isNew after :=
  leads_request

@[simp] theorem leads_scheduleLater {frame : StackId} {result : SymbolId} {isNew : Bool} :
    (scheduleLater frame result).Leads before isNew after ↔
      (Scheduler.scheduleLater frame result).Leads before isNew after :=
  leads_request

@[simp] theorem leads_push {label : Label} {caller frame : StackId} {stem : PrefixId} :
    (push label caller stem).Leads before frame after ↔
      (Scheduler.push label caller before.scheduler.index stem).Leads before frame after := by
  simp only [push, leads_bind, leads_current, leads_request]
  constructor
  · rintro ⟨_, before, ⟨rfl, rfl⟩, h⟩
    exact h
  · exact fun h => ⟨_, before, ⟨rfl, rfl⟩, h⟩

@[simp] theorem leads_pop {frame : StackId} {result : SymbolId} {answer : Unit} :
    (pop frame result).Leads before answer after ↔
      (Scheduler.pop frame result).Leads before answer after :=
  leads_request

/-- A routine that does not use the store leaves it alone. -/
theorem leads_lift {μ : Type} {routine : Routine α} {store : μ} {answer : α × μ} :
    Routine.Leads ((StateT.lift routine : StateT μ Routine α).run store) before answer after ↔
      routine.Leads before answer.1 after ∧ answer.2 = store := by
  rw [StateT.run, StateT.lift, leads_bind]
  constructor
  · rintro ⟨a, between, h, rfl, rfl⟩
    exact ⟨h, rfl⟩
  · rintro ⟨h, rfl⟩
    exact ⟨answer.1, after, h, rfl, rfl⟩

end Routine

/-- Doing the task of a descriptor is running its slot. -/
theorem Program.leads_routine_resume {program : Program} {label : Label} {caller : StackId}
    {stem : PrefixId} {before after : Moment} {answer : Unit × Unit}
    (h : Routine.Leads ((program.interpreter.routine (.resume label caller stem)).run ()) before
      answer after) : (program.execute label caller stem).Leads before () after := by
  rw [Interpreter.routine, StateT.run_bind, Routine.leads_bind] at h
  obtain ⟨a, between, hnote, hexecute⟩ := h
  obtain rfl := Routine.leads_note.mp (Routine.leads_lift.mp hnote).1
  exact (Routine.leads_lift.mp hexecute).1

/-- Doing the task of a staged terminal is giving it to its frame. -/
theorem Program.leads_routine_shift {program : Program} {frame : StackId} {result : SymbolId}
    {before after : Moment} {answer : Unit × Unit}
    (h : Routine.Leads ((program.interpreter.routine (.shift frame result)).run ()) before answer
      after) : (Scheduler.pop frame result).Leads before () after := by
  have h' := (Routine.leads_lift.mp h).1
  simp only [Routine.leads_bind, Routine.leads_look, Routine.leads_note, Routine.leads_pop] at h'
  obtain ⟨node, before, ⟨-, rfl⟩, _, before, rfl, hpop⟩ := h'
  exact hpop

/-! ## Carrying out -/

variable {σ α : Type}

/-- What carries out each request leads where it says, so does what carries out a plan. -/
theorem Plan.leads_of_run {ε : Type → Type 1}
    {carry : {β : Type} → ε β → EStateM Fault (World σ) β}
    {note : {β : Type} → ε β → World σ → List Task}
    {single : {β : Type} → ε β → Moment → β → Moment → Prop}
    (hsingle : ∀ {β : Type} (request : ε β) (world world' : World σ) (b : β) (offers : List Task),
      carry request world = .ok b world' →
        single request ⟨world.scheduler, offers⟩ b
          ⟨world'.scheduler, offers ++ note request world⟩)
    {plan : Plan ε α} {world world' : World σ} {a : α} (offers : List Task)
    (hrun : plan.run carry world = .ok a world') :
    plan.Leads single ⟨world.scheduler, offers⟩ a
      ⟨world'.scheduler, offers ++ plan.account carry note world⟩ := by
  induction plan generalizing world offers with
  | done value =>
    simp only [Plan.run, EStateM.Result.ok.injEq] at hrun
    obtain ⟨rfl, rfl⟩ := hrun
    simp [Plan.Leads, Plan.account]
  | ask request next ih =>
    rw [Plan.run] at hrun
    split at hrun
    · rename_i b between hcarry
      -- What the first request offers comes before what the rest does.
      rw [Plan.account, hcarry, Plan.Leads, ← List.append_assoc]
      exact ⟨b, _, hsingle request world between b offers hcarry, ih b _ hrun⟩
    · exact absurd hrun (by simp)

theorem Step.leads_of_run {tracer : Tracer σ} {step : Step α} {world world' : World σ} {a : α}
    (offers : List Task) (hrun : step.run tracer world = .ok a world') :
    step.Leads ⟨world.scheduler, offers⟩ a
      ⟨world'.scheduler, offers ++ step.offers world⟩ := by
  cases step with
  | look read =>
    rw [Step.run] at hrun
    split at hrun
    · rename_i value hread
      simp only [EStateM.Result.ok.injEq] at hrun
      obtain ⟨rfl, rfl⟩ := hrun
      exact ⟨hread, by simp [Step.offers]⟩
    · exact absurd hrun (by simp)
  | update change =>
    simp only [Step.run, EStateM.Result.ok.injEq] at hrun
    obtain ⟨rfl, rfl⟩ := hrun
    exact ⟨rfl, by simp [Step.offers]⟩
  | offer task =>
    simp only [Step.run, EStateM.Result.ok.injEq] at hrun
    obtain ⟨rfl, rfl⟩ := hrun
    exact ⟨rfl, rfl⟩
  | emit event =>
    simp only [Step.run] at hrun
    split at hrun
    · simp only [EStateM.Result.ok.injEq] at hrun
      obtain ⟨-, rfl⟩ := hrun
      simp [Step.Leads, Step.offers]
    · exact absurd hrun (by simp)

/-- An action that was carried out led from the moment before to the moment after. -/
theorem Act.leads_of_run {tracer : Tracer σ} {act : Act α} {world world' : World σ} {a : α}
    (offers : List Task) (hrun : act.run tracer world = .ok a world') :
    act.Leads ⟨world.scheduler, offers⟩ a
      ⟨world'.scheduler, offers ++ act.offers tracer world⟩ :=
  Plan.leads_of_run (fun _ _ _ _ offers h => Step.leads_of_run offers h) offers hrun

theorem Operation.leads_of_run {tracer : Tracer σ} {operation : Operation α}
    {world world' : World σ} {a : α} (offers : List Task)
    (hrun : operation.run tracer world = .ok a world') :
    operation.Leads ⟨world.scheduler, offers⟩ a
      ⟨world'.scheduler, offers ++ operation.offers tracer world⟩ :=
  Act.leads_of_run offers hrun

/-- A routine that was carried out led from the moment before to the moment after. -/
theorem Routine.leads_of_run {tracer : Tracer σ} {routine : Routine α} {world world' : World σ}
    {a : α} (offers : List Task) (hrun : routine.run tracer world = .ok a world') :
    routine.Leads ⟨world.scheduler, offers⟩ a
      ⟨world'.scheduler, offers ++ routine.offers tracer world⟩ :=
  Plan.leads_of_run (fun _ _ _ _ offers h => Operation.leads_of_run offers h) offers hrun

end Gll
