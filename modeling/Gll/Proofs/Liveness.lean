import Gll.Proofs.Callees
import Gll.Proofs.Generation
import Gll.Proofs.Progress

/-!
Every task can be done.

What a routine of a compiled grammar asks for is there: the handles that it uses are those of its
task, which are proper, or those that it got as answers, and a nonterminal that is called has
alternatives. So each of the routines leads somewhere (`Moment.exists_execute`,
`Moment.exists_seed`), and the next task of a generation that is underway can always be done
(`Moment.Underway.exists_work`).

What leads somewhere can be carried out, with any tracer that refuses nothing
(`Routine.exists_run_of_leads`). A tracer that does refuse an event is the only thing that makes a
parse break off.
-/

set_option autoImplicit false

namespace Gll

/-! ## Plans that lead somewhere -/

/-- A loop leads somewhere if every pass of it does. -/
theorem Plan.exists_leads_forEach {ε : Type → Type 1} {ω β : Type}
    {single : {β : Type} → ε β → ω → β → ω → Prop} {items : List β} {body : β → Plan ε Unit}
    (hbody : ∀ item before, ∃ after, (body item).Leads single before () after) (before : ω) :
    ∃ after, (forEach items body).Leads single before () after := by
  induction items generalizing before with
  | nil => exact ⟨before, rfl, rfl⟩
  | cons item rest ih =>
    obtain ⟨between, hitem⟩ := hbody item before
    obtain ⟨after, hrest⟩ := ih between
    exact ⟨after, leads_andThen.mpr ⟨(), between, hitem, hrest⟩⟩

theorem Routine.exists_bind {α β : Type} {first : Routine α} {next : α → Routine β}
    {before between : Moment} {a : α} (hfirst : first.Leads before a between)
    (hnext : ∃ b after, (next a).Leads between b after) :
    ∃ b after, Routine.Leads (first >>= next) before b after := by
  obtain ⟨b, after, hrest⟩ := hnext
  exact ⟨b, after, leads_bind.mpr ⟨a, between, hfirst, hrest⟩⟩

theorem Routine.exists_bind_note {β : Type} {event : Event} {next : Unit → Routine β}
    {before : Moment} (hnext : ∃ b after, (next ()).Leads before b after) :
    ∃ b after, Routine.Leads (note event >>= next) before b after :=
  have hnote : (note event).Leads before () before := leads_note.mpr rfl
  exists_bind hnote hnext

namespace Moment

variable {program : Program} {input : List Char} {m before after : Moment}

/-! ## What is proper is there -/

theorem Stem.hasPrefix {next : Label} {atoms : List Atom} {id : PrefixId} {i j : Nat}
    (h : m.Stem program input next atoms id i j) : m.scheduler.HasPrefix id := by
  cases h with
  | empty hnode => exact ⟨_, hnode⟩
  | cons _ _ hnode _ =>
    obtain ⟨children, hnode⟩ := hnode
    exact ⟨_, hnode⟩

theorem Derivative.hasSymbol {atom : Atom} {id : SymbolId} {i j : Nat}
    (h : m.Derivative program input atom id i j) : m.scheduler.HasSymbol id := by
  cases h with
  | terminal hnode _ _ => exact ⟨_, hnode⟩
  | nonterminal hnode _ _ =>
    obtain ⟨alternatives, hnode⟩ := hnode
    exact ⟨_, hnode⟩

/-- Links and results that are proper are about what is there. -/
theorem Sound.closed (hsound : m.Sound program input) : m.scheduler.Closed where
  stems {frame link} hknown := by
    have hlink : m.Holds (.link frame link) := (Scheduler.knows_iff_holds (by simp)).mp hknown
    obtain ⟨_, _, _, _, _, _, _, _, _, _, hstem⟩ := hsound.proper hlink
    exact hstem.hasPrefix
  results {frame result} hknown := by
    have hresult : m.Holds (.result frame result) :=
      (Scheduler.knows_iff_holds (by simp)).mp hknown
    obtain ⟨_, _, _, _, _, _, hanswer⟩ := hsound.proper hresult
    exact hanswer.derivative.hasSymbol

theorem exists_push (hsound : before.Sound program input) (label : Label) (caller : StackId)
    {stem : PrefixId} (hstem : before.scheduler.HasPrefix stem) :
    ∃ frame after, (Scheduler.push label caller before.index stem).Leads before frame after := by
  let ledger : Ledger := ⟨before, [], []⟩
  have hclosed : ledger.scheduler.Closed := hsound.closed
  obtain ⟨frame, after, hcarries⟩ :=
    Operation.exists_carries_push label caller before.index hclosed hstem
  exact ⟨frame, after.toMoment, hcarries.leads⟩

theorem exists_pop (hsound : before.Sound program input) {frame : StackId} {result : SymbolId}
    {label : Label} {origin : Nat} (hframe : before.Holds (.frame frame label origin))
    (hresult : before.scheduler.HasSymbol result) :
    ∃ after, (Scheduler.pop frame result).Leads before () after := by
  obtain ⟨links, hstack⟩ := hframe
  let ledger : Ledger := ⟨before, [], []⟩
  have hclosed : ledger.scheduler.Closed := hsound.closed
  obtain ⟨after, hcarries⟩ := Operation.exists_carries_pop hclosed ⟨_, hstack⟩ hresult
  exact ⟨after.toMoment, hcarries.leads⟩

/-! ## Slots -/

open Routine (exists_bind exists_bind_note)

variable {label : Label} {caller : StackId} {stem : PrefixId} {owner : Option Nonterminal}
  {earlier later : List Atom} {i : Nat}

theorem exists_executeTerminal (hlaid : program.Laid) (hsound : before.Sound program input)
    {matcher : Matcher} (hresumable : before.Resumable program input label caller stem owner earlier
      (.terminal matcher :: later) i) :
    ∃ answer after, (Program.executeTerminal matcher label caller stem).Leads before answer
      after := by
  have hstem := hsound.stem_of_canonical hlaid hresumable.item hresumable.canonical
  refine exists_bind (Routine.leads_current.mpr ⟨rfl, rfl⟩) ?_
  refine exists_bind_note ?_
  split
  · refine exists_bind (Routine.leads_terminal.mpr ⟨rfl, rfl⟩) ?_
    split
    · exact ⟨(), before, rfl, rfl⟩
    · obtain ⟨frame, between, hpush⟩ := exists_push hsound label.next caller hstem.hasPrefix
      obtain ⟨isNew, after, hlater⟩ := Scheduler.exists_scheduleLater frame _ between
      exact exists_bind (Routine.leads_push.mpr hpush) ⟨(), after, Routine.leads_discard.mpr
        ⟨isNew, Routine.leads_scheduleLater.mpr hlater⟩⟩
  · exact ⟨(), before, rfl, rfl⟩

theorem exists_executeCall (hlaid : program.Laid) (hclosed : program.Closed)
    (hsound : before.Sound program input) {callee : Nonterminal}
    (hresumable : before.Resumable program input label caller stem owner earlier
      (.nonterminal callee :: later) i) :
    ∃ answer after, (program.executeCall callee label caller stem).Leads before answer after := by
  have hstem := hsound.stem_of_canonical hlaid hresumable.item hresumable.canonical
  obtain ⟨frame, between, hpush⟩ := exists_push hsound label.next caller hstem.hasPrefix
  obtain ⟨labels, hlabels⟩ := hclosed.callee hresumable.item
  refine exists_bind (Routine.leads_push.mpr hpush) ?_
  rw [hlabels]
  obtain ⟨after, hloop⟩ : ∃ after, Routine.Leads (Plan.forEach labels fun entry => do
      discard (Routine.scheduleNow entry frame (← Routine.emptyPrefix))) between () after := by
    refine Plan.exists_leads_forEach (fun entry before => ?_) between
    let made : Moment := ⟨before.scheduler.emptyPrefix.2, before.offers⟩
    obtain ⟨isNew, after, hschedule⟩ :=
      Scheduler.exists_scheduleNow entry frame before.scheduler.emptyPrefix.1 made
    have hempty : Routine.emptyPrefix.Leads before before.scheduler.emptyPrefix.1 made :=
      Routine.leads_emptyPrefix.mpr ⟨rfl, rfl⟩
    exact ⟨after, Routine.leads_bind.mpr ⟨_, made, hempty, Routine.leads_discard.mpr
      ⟨isNew, Routine.leads_scheduleNow.mpr hschedule⟩⟩⟩
  exact ⟨(), after, hloop⟩

theorem exists_executeComplete (hlaid : program.Laid) (hsound : before.Sound program input)
    {symbol : Nonterminal} (hresumable : before.Resumable program input label caller stem
      (some symbol) earlier [] i) :
    ∃ answer after, (Program.executeComplete symbol caller stem).Leads before answer after := by
  obtain ⟨hitem, hcaller, hcanonical⟩ := hresumable
  have hstem := hsound.stem_of_canonical hlaid hitem hcanonical
  obtain ⟨node, hnode⟩ := hstem.hasPrefix
  have hlook : before.scheduler.forest.prefixNode stem = .ok node :=
    Fault.unlessSome_eq_ok_iff.mpr hnode
  refine exists_bind (Routine.leads_look.mpr ⟨hlook, rfl⟩) ?_
  obtain ⟨id, between, hderive⟩ := Scheduler.exists_derive symbol node.first stem before
  refine exists_bind (Routine.leads_derive.mpr hderive) ?_
  rw [hstem.first hlook] at hderive
  obtain ⟨hsound', hgrows, hkey, -⟩ := derive_sound hsound hitem hcaller hstem hderive
  obtain ⟨alternatives, hderivation⟩ := hsound'.derivation_of_key hkey
  -- The initial stack waits for no nonterminal, so the caller is a frame.
  cases hcaller with
  | frame hframe _ =>
    obtain ⟨after, hpop⟩ := exists_pop hsound' (hgrows.holds hframe) ⟨_, hderivation⟩
    exact ⟨(), after, Routine.leads_pop.mpr hpop⟩

theorem exists_executeAccept (hstem : before.scheduler.HasPrefix stem) :
    ∃ answer after, (Program.executeAccept stem).Leads before answer after := by
  obtain ⟨node, hnode⟩ := hstem
  exact exists_bind (Routine.leads_look.mpr ⟨Fault.unlessSome_eq_ok_iff.mpr hnode, rfl⟩)
    ⟨(), before, Routine.leads_note.mpr rfl⟩

/-- A slot that may be resumed for a caller can be run. -/
theorem exists_execute (hlaid : program.Laid) (hclosed : program.Closed)
    (hsound : before.Sound program input)
    (hresumable : before.Resumable program input label caller stem owner earlier later i) :
    ∃ answer after, (program.execute label caller stem).Leads before answer after := by
  rw [Program.execute]
  have hitem := hresumable.item
  -- What a slot does is told by what is after its dot.
  cases later with
  | cons atom later =>
    rw [hitem.slot?_cons]
    cases atom with
    | terminal matcher => exact exists_executeTerminal hlaid hsound hresumable
    | nonterminal callee => exact exists_executeCall hlaid hclosed hsound hresumable
  | nil =>
    have hstem := hsound.stem_of_canonical hlaid hitem hresumable.canonical
    cases owner with
    | some symbol =>
      rw [hitem.slot?_nil]
      exact exists_executeComplete hlaid hsound hresumable
    | none =>
      obtain ⟨rfl, _, _⟩ := hitem.eq_accept
      rw [hlaid.accept]
      exact exists_executeAccept hstem.hasPrefix

/-- A parse can be seeded. -/
theorem exists_seed (hclosed : program.Closed) (hsound : before.Sound program input) :
    ∃ answer after, program.seed.Leads before answer after := by
  obtain ⟨labels, hlabels⟩ := hclosed.start
  obtain ⟨stem, made, hempty⟩ :
      ∃ stem made, before.scheduler.emptyPrefix = (stem, made) := ⟨_, _, rfl⟩
  let between : Moment := ⟨made, before.offers⟩
  have hmade : before.scheduler.emptyPrefix = (stem, between.scheduler) := hempty
  have hfirst : Routine.emptyPrefix.Leads before stem between :=
    Routine.leads_emptyPrefix.mpr ⟨hmade, rfl⟩
  refine exists_bind hfirst ?_
  obtain ⟨hsound', -, hkey⟩ := emptyPrefix_sound hsound hmade rfl
  have hnode : between.scheduler.HasPrefix stem := ⟨_, hsound'.empty_of_key hkey⟩
  obtain ⟨frame, linked, hpush⟩ := exists_push hsound' Program.acceptLabel .initial hnode
  refine exists_bind (Routine.leads_push.mpr hpush) ?_
  rw [hlabels]
  obtain ⟨after, hloop⟩ : ∃ after, Routine.Leads (Plan.forEach labels fun entry =>
      discard (Routine.scheduleNow entry frame stem)) linked () after := by
    refine Plan.exists_leads_forEach (fun entry before => ?_) linked
    obtain ⟨isNew, after, hschedule⟩ := Scheduler.exists_scheduleNow entry frame stem before
    exact ⟨after, Routine.leads_discard.mpr ⟨isNew, Routine.leads_scheduleNow.mpr hschedule⟩⟩
  exact ⟨(), after, hloop⟩

/-! ## Tasks -/

/-- A task that it is right to do can be done. -/
theorem exists_routine (hlaid : program.Laid) (hclosed : program.Closed)
    (hsteady : before.Steady program input) {task : Task} (hdue : before.Due program input task) :
    ∃ answer after, Routine.Leads ((program.interpreter.routine task).run ()) before answer
      after := by
  have hsound := hsteady.sound
  cases task with
  | resume label caller stem =>
    have hoffered : before.Holds (.offered (.resume label caller stem)) := hdue
    obtain ⟨_, owner, earlier, later, i, hresumable⟩ := hsound.proper hoffered
    obtain ⟨⟨⟩, after, hleads⟩ := exists_execute hlaid hclosed hsound hresumable
    rw [Interpreter.routine, StateT.run_bind]
    exact exists_bind (Routine.leads_lift.mpr ⟨Routine.leads_note.mpr rfl, rfl⟩)
      ⟨((), ()), after, Routine.leads_lift.mpr ⟨hleads, rfl⟩⟩
  | shift frame result =>
    obtain ⟨_, _, _, _, _, _, hanswer⟩ := hdue
    obtain ⟨node, hnode⟩ := hanswer.derivative.hasSymbol
    obtain ⟨after, hpop⟩ := exists_pop hsound hanswer.frame ⟨node, hnode⟩
    refine ⟨((), ()), after, Routine.leads_lift.mpr ⟨?_, rfl⟩⟩
    simp only [Routine.leads_bind, Routine.leads_look, Routine.leads_note, Routine.leads_pop]
    exact ⟨node, before, ⟨Fault.unlessSome_eq_ok_iff.mpr hnode, rfl⟩, (), before, rfl, hpop⟩

/-- The next task of a generation that is underway can be done. -/
theorem Underway.exists_work (hlaid : program.Laid) (hclosed : program.Closed) {carried : List Task}
    (h : m.Underway program input carried) {task : Task} {rest : Scheduler}
    (hdequeue : m.scheduler.dequeue? = some (task, rest)) :
    ∃ answer after, Routine.Leads ((program.interpreter.routine task).run ()) ⟨rest, m.offers⟩
      answer after := by
  obtain ⟨hsteady, hdue⟩ := h.taken hdequeue
  exact exists_routine hlaid hclosed hsteady hdue

end Moment

/-! ## Carrying out -/

/-- A tracer that refuses no event. -/
def Tracer.IsTotal {σ : Type} (tracer : Tracer σ) : Prop :=
  ∀ event, ∃ extend, tracer.record event = .ok extend

theorem Tracer.isTotal_silent : Tracer.silent.IsTotal := fun _ => ⟨id, rfl⟩

theorem Tracer.isTotal_recorder : Tracer.recorder.IsTotal := fun _ => ⟨_, rfl⟩

section Run

variable {σ α : Type} {tracer : Tracer σ} {before after : Moment} {a : α}

/-- If each request can be carried out where it leads, so can a plan. -/
theorem Plan.exists_run_of_leads {ε : Type → Type 1}
    {carry : {β : Type} → ε β → EStateM Fault (World σ) β}
    {single : {β : Type} → ε β → Moment → β → Moment → Prop}
    (hsingle : ∀ {β : Type} {request : ε β} {before after : Moment} {b : β} (trace : σ),
      single request before b after →
        ∃ trace', carry request ⟨before.scheduler, trace⟩ = .ok b ⟨after.scheduler, trace'⟩)
    {plan : Plan ε α} (trace : σ) (h : plan.Leads single before a after) :
    ∃ trace', plan.run carry ⟨before.scheduler, trace⟩ = .ok a ⟨after.scheduler, trace'⟩ := by
  induction plan generalizing before trace with
  | done value =>
    obtain ⟨rfl, rfl⟩ := h
    exact ⟨trace, rfl⟩
  | ask request next ih =>
    obtain ⟨b, between, hrequest, hrest⟩ := h
    obtain ⟨traced, hcarry⟩ := hsingle trace hrequest
    obtain ⟨trace', hrun⟩ := ih b traced hrest
    refine ⟨trace', ?_⟩
    rw [Plan.run, hcarry]
    exact hrun

variable (htotal : tracer.IsTotal)
include htotal

theorem Step.exists_run_of_leads {step : Step α} (trace : σ) (h : step.Leads before a after) :
    ∃ trace', step.run tracer ⟨before.scheduler, trace⟩ = .ok a ⟨after.scheduler, trace'⟩ := by
  cases step with
  | look read =>
    obtain ⟨hread, rfl⟩ := h
    exact ⟨trace, by rw [Step.run, hread]⟩
  | update change =>
    obtain ⟨hchange, -⟩ := h
    exact ⟨trace, by rw [Step.run, hchange]⟩
  | offer task =>
    obtain ⟨hoffer, -⟩ := h
    exact ⟨trace, by rw [Step.run, hoffer]⟩
  | emit event =>
    obtain rfl := h
    obtain ⟨extend, hrecord⟩ := htotal event
    exact ⟨extend trace, by rw [Step.run, hrecord]⟩

theorem Act.exists_run_of_leads {act : Act α} (trace : σ) (h : act.Leads before a after) :
    ∃ trace', act.run tracer ⟨before.scheduler, trace⟩ = .ok a ⟨after.scheduler, trace'⟩ :=
  Plan.exists_run_of_leads (fun trace => Step.exists_run_of_leads htotal trace) trace h

/-- A routine that leads somewhere can be carried out. -/
theorem Routine.exists_run_of_leads {routine : Routine α} (trace : σ)
    (h : routine.Leads before a after) :
    ∃ trace', routine.run tracer ⟨before.scheduler, trace⟩ = .ok a ⟨after.scheduler, trace'⟩ :=
  Plan.exists_run_of_leads (fun trace => Act.exists_run_of_leads htotal trace) trace h

end Run

end Gll
