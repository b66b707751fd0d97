import Gll.Proofs.Completeness
import Gll.Proofs.Parse
import Gll.Proofs.Sentential

/-!
Left contexts.

A frame waits for an atom from an offset on. That there is such a frame is no accident: going down
its links from caller to caller, one reads off a string of atoms that the start nonterminal is
rewritten to, in which the atom stands behind tests that the input passes. In that string the
callers may go round in circles, and where they come together there are many such strings; so it is
not looked for in the finished stacks. When a frame is made, its caller is there already and is one
for which the string is known, and then it is known for the new frame (`framesIn_of_reaches`).

The other way round, every atom that can come next is waited for, once the generation is drained:
each time the string goes into a right-hand side, the parse has gone there for the frame that waits
for its owner (`Stages.exists_waiting`).
-/

set_option autoImplicit false

namespace Gll

/-! ## Frames that are made -/

namespace Scheduler

/-- The labels and origins of all frames are among those that are allowed. -/
def FramesIn (allowed : Label → Nat → Prop) (s : Scheduler) : Prop :=
  ∀ ⦃id : StackId⦄ ⦃label : Label⦄ ⦃origin : Nat⦄ ⦃links : Array Link⦄,
    s.graph.stack? id = some (.frame label origin links) → allowed label origin

variable {allowed : Label → Nat → Prop}

/-- Only making a frame can break it. -/
theorem framesIn_steps : StepsOffFrames (Step.Keeps (FramesIn allowed)) where
  toStepsOffStacks := KeptOffStacks.steps <|
    .of_stacks fun h hgraph _ _ _ _ _ hstack => h (hgraph ▸ hstack)
  link frame link s h := by
    rw [Scheduler.link]
    split
    · intro id label origin links hstack
      rw [StackGraph.stack?_addLink] at hstack
      split at hstack
      · -- A link changes neither the label nor the origin.
        obtain ⟨old, hold, hlinked⟩ := Option.map_eq_some_iff.mp hstack
        cases old with
        | initial => cases hlinked
        | frame label' origin' links' =>
          cases hlinked
          exact h hold
      · exact h hstack
    · exact h
  recordResult frame result s h := by
    simp only [recordResult]
    split <;> exact h

theorem framesIn_frameFor {label : Label} {origin : Nat} (hallowed : allowed label origin) :
    Step.Keeps (FramesIn allowed) (.update (frameFor label origin)) := by
  intro s h
  rw [frameFor]
  split
  · exact h
  · intro id label' origin' links hstack
    rcases StackGraph.stack?_addFrame.mp hstack with hold | ⟨-, hnew⟩
    · exact h hold
    · cases hnew
      exact hallowed

theorem framesIn_initial (start : Nonterminal) : (initial start).FramesIn allowed := by
  intro id label origin links hstack
  have hframe : (⟨initial start, []⟩ : Moment).Holds (.frame id label origin) := ⟨links, hstack⟩
  exact absurd hframe (Moment.not_holds_initial trivial)

theorem FramesIn.advance {s : Scheduler} (h : s.FramesIn allowed) (symbol : Option Char) :
    (s.advance symbol).FramesIn allowed := by
  have hroot {s : Scheduler} (h : s.FramesIn allowed) : s.anchorRoot.FramesIn allowed :=
    framesIn_steps.derivationFor s.start (s.first.getD s.current) s h
  cases symbol <;> exact hroot h

theorem FramesIn.dequeue {s rest : Scheduler} (h : s.FramesIn allowed) {task : Task}
    (hdequeue : s.dequeue? = some (task, rest)) : rest.FramesIn allowed := by
  obtain ⟨_, -, rfl⟩ := exists_of_dequeue? hdequeue
  exact h

end Scheduler

namespace Program

open Scheduler

/-! ## Atoms that can come next -/

section Definitions

variable (program : Program) (input : List Char)

/-- The atom before the dot at a label is what can come next at an offset. -/
def Awaits (label : Label) (origin : Nat) : Prop :=
  ∀ ⦃owner : Option Nonterminal⦄ ⦃before after : List Atom⦄ ⦃atom : Atom⦄,
    program.Item label owner (before ++ [atom]) after →
      program.rightHandSides.Expects input program.start atom origin

end Definitions

section Proofs

variable {program : Program} {input : List Char} {before after : Moment}

theorem awaits_of_item (hlaid : program.Laid) {label : Label} {owner : Option Nonterminal}
    {earlier later : List Atom} {atom : Atom} {i : Nat}
    (hitem : program.Item label owner (earlier ++ [atom]) later)
    (hexpects : program.rightHandSides.Expects input program.start atom i) :
    program.Awaits input label i := by
  intro owner' earlier' later' atom' hitem'
  obtain ⟨-, hatoms, -⟩ := hlaid.item_unique hitem hitem'
  obtain ⟨-, hatom⟩ := List.append_inj' hatoms rfl
  obtain ⟨rfl, -⟩ := List.cons.inj hatom
  exact hexpects

/-- The start nonterminal can come first. -/
theorem awaits_accept (hlaid : program.Laid) : program.Awaits input acceptLabel 0 := by
  have hitem : program.Item acceptLabel none ([] ++ [.nonterminal program.start]) [] := .accept
  exact awaits_of_item hlaid hitem .refl

/-- What a frame waits for can come next. -/
theorem expects_of_caller {m : Moment} (hframes : m.scheduler.FramesIn (program.Awaits input))
    {caller : StackId} {symbol : Nonterminal} {i : Nat}
    (h : m.Caller program caller (some symbol) i) :
    program.rightHandSides.Expects input program.start (.nonterminal symbol) i := by
  cases h with
  | frame hframe hitem =>
    obtain ⟨links, hstack⟩ := hframe
    exact hframes hstack hitem

/-- The atom behind the dot of a slot that may be resumed can come next. -/
theorem awaits_next_of_resumable (hlaid : program.Laid) {m : Moment}
    (hsound : m.Sound program input) (hframes : m.scheduler.FramesIn (program.Awaits input))
    {label : Label} {caller : StackId} {stem : PrefixId} {owner : Option Nonterminal}
    {earlier later : List Atom} {atom : Atom} {i : Nat}
    (h : m.Resumable program input label caller stem owner earlier (atom :: later) i) :
    program.Awaits input label.next m.index := by
  obtain ⟨hitem, hcaller, hcanonical⟩ := h
  refine awaits_of_item hlaid hitem.next ?_
  obtain ⟨trees, hderives⟩ := (hsound.stem_of_canonical hlaid hitem hcanonical).derives
  cases owner with
  | none => exact absurd hitem.eq_accept.2.2 (List.cons_ne_nil _ _)
  | some symbol =>
    exact (expects_of_caller hframes hcaller).tail (.enter hitem.mem_rightHandSides hderives)

/-! ## Tasks -/

section Tasks

variable {allowed : Label → Nat → Prop} {label : Label} {caller frame : StackId} {stem : PrefixId}

theorem framesIn_of_push (h : before.scheduler.FramesIn allowed)
    (hallowed : allowed label before.index)
    (hleads : (Scheduler.push label caller before.scheduler.index stem).Leads before frame after) :
    after.scheduler.FramesIn allowed :=
  Act.Keeps.of_leads (framesIn_steps.push (framesIn_frameFor hallowed)) hleads h

/-- A routine whose requests make no frames. -/
theorem framesIn_of_each {α : Type} {routine : Routine α} {answer : α}
    (hrequests : routine.Each fun operation => operation.act.Keeps (FramesIn allowed))
    (hleads : routine.Leads before answer after) (h : before.scheduler.FramesIn allowed) :
    after.scheduler.FramesIn allowed :=
  Plan.Each.keeps (fun m : Moment => m.scheduler.FramesIn allowed)
    (fun hoperation => Act.Keeps.of_leads hoperation) hrequests hleads h

theorem framesIn_of_executeTerminal (h : before.scheduler.FramesIn allowed)
    (hallowed : allowed label.next before.index) {matcher : Matcher}
    (hleads : (executeTerminal matcher label caller stem).Leads before () after) :
    after.scheduler.FramesIn allowed := by
  simp only [executeTerminal, Routine.leads_bind, Routine.leads_current,
    Routine.leads_note] at hleads
  obtain ⟨_, before, ⟨rfl, rfl⟩, _, before, rfl, hrest⟩ := hleads
  -- A frame is made only if the terminal matches, and at the next label.
  split at hrest
  · simp only [Routine.leads_bind, Routine.leads_terminal] at hrest
    obtain ⟨terminal, before, ⟨-, rfl⟩, hrest⟩ := hrest
    cases terminal with
    | none =>
      obtain ⟨-, rfl⟩ := Routine.leads_pure.mp hrest
      exact h
    | some symbol =>
      simp only [Routine.leads_bind, Routine.leads_discard, Routine.leads_push,
        Routine.leads_scheduleLater] at hrest
      obtain ⟨frame, between, hpush, isNew, hlater⟩ := hrest
      exact Act.Keeps.of_leads framesIn_steps.scheduleLater hlater
        (framesIn_of_push h hallowed hpush)
  · obtain ⟨-, rfl⟩ := Routine.leads_pure.mp hrest
    exact h

theorem framesIn_of_executeCall (h : before.scheduler.FramesIn allowed)
    (hallowed : allowed label.next before.index) {callee : Nonterminal}
    (hleads : (program.executeCall callee label caller stem).Leads before () after) :
    after.scheduler.FramesIn allowed := by
  simp only [executeCall, Routine.leads_bind, Routine.leads_push] at hleads
  obtain ⟨frame, between, hpush, hrest⟩ := hleads
  have hpushed := framesIn_of_push h hallowed hpush
  split at hrest
  · exact absurd hrest Routine.leads_fail
  · refine framesIn_of_each (Plan.each_forEach fun entry _ => ?_) hrest hpushed
    refine Plan.each_bind (Plan.each_request.mpr ?_) fun stem =>
      Plan.each_discard (Plan.each_request.mpr framesIn_steps.scheduleNow)
    exact Plan.each_request.mpr framesIn_steps.emptyPrefix

theorem framesIn_of_executeComplete (h : before.scheduler.FramesIn allowed) {symbol : Nonterminal}
    (hleads : (executeComplete symbol caller stem).Leads before () after) :
    after.scheduler.FramesIn allowed := by
  refine framesIn_of_each ?_ hleads h
  refine Plan.each_bind (Plan.each_request.mpr (Act.keeps_look)) fun node => ?_
  exact Plan.each_bind (Plan.each_request.mpr framesIn_steps.derive) fun id =>
    Plan.each_request.mpr framesIn_steps.pop

theorem framesIn_of_executeAccept (h : before.scheduler.FramesIn allowed)
    (hleads : (executeAccept stem).Leads before () after) : after.scheduler.FramesIn allowed := by
  refine framesIn_of_each ?_ hleads h
  exact Plan.each_bind (Plan.each_request.mpr Act.keeps_look) fun node =>
    Plan.each_request.mpr Act.keeps_emit

end Tasks

/-- A task that it is right to do makes frames for atoms that can come next. -/
theorem framesIn_of_routine (hlaid : program.Laid) (hsound : before.Sound program input)
    (hframes : before.scheduler.FramesIn (program.Awaits input)) {task : Task}
    (hdue : before.Due program input task) {answer : Unit × Unit}
    (hleads : Routine.Leads ((program.interpreter.routine task).run ()) before answer after) :
    after.scheduler.FramesIn (program.Awaits input) := by
  cases task with
  | shift frame result =>
    exact Act.Keeps.of_leads framesIn_steps.pop (leads_routine_shift hleads) hframes
  | resume label caller stem =>
    have hoffered : before.Holds (.offered (.resume label caller stem)) := hdue
    obtain ⟨-, owner, earlier, later, i, hresumable⟩ := hsound.proper hoffered
    have hexecute := leads_routine_resume hleads
    have hitem := hresumable.item
    rw [execute] at hexecute
    -- What is behind the dot decides which slot it is; a frame can be made in front of an atom
    -- only.
    cases later with
    | cons atom later =>
      have hawaits := awaits_next_of_resumable hlaid hsound hframes hresumable
      rw [hitem.slot?_cons] at hexecute
      cases atom with
      | terminal matcher => exact framesIn_of_executeTerminal hframes hawaits hexecute
      | nonterminal callee => exact framesIn_of_executeCall hframes hawaits hexecute
    | nil =>
      cases owner with
      | some symbol =>
        rw [hitem.slot?_nil] at hexecute
        exact framesIn_of_executeComplete hframes hexecute
      | none =>
        obtain ⟨rfl, -, -⟩ := hitem.eq_accept
        rw [hlaid.accept] at hexecute
        exact framesIn_of_executeAccept hframes hexecute

theorem framesIn_of_seed (hlaid : program.Laid)
    (hframes : before.scheduler.FramesIn (program.Awaits input)) (hindex : before.index = 0)
    (hleads : program.seed.Leads before () after) :
    after.scheduler.FramesIn (program.Awaits input) := by
  simp only [seed, Routine.leads_bind, Routine.leads_emptyPrefix, Routine.leads_push] at hleads
  obtain ⟨stem, made, ⟨hempty, -⟩, frame, between, hpush, hrest⟩ := hleads
  have hmade := framesIn_steps.emptyPrefix before.scheduler hframes
  have hcontrol := (kept_control before.scheduler.control).emptyPrefix rfl
  rw [hempty] at hmade hcontrol
  have hawaits : program.Awaits input acceptLabel made.index := by
    rw [Moment.index_of_control hcontrol, hindex]
    exact awaits_accept hlaid
  have hpushed := framesIn_of_push hmade hawaits hpush
  split at hrest
  · exact absurd hrest Routine.leads_fail
  · refine framesIn_of_each (Plan.each_forEach fun entry _ => ?_) hrest hpushed
    exact Plan.each_discard (Plan.each_request.mpr framesIn_steps.scheduleNow)

end Proofs

end Program

/-! ## Sessions -/

section Calls

variable {σ : Type} {program : Program} {tracer : Tracer σ} {trace : σ} {limit : Nat}
  {session : Session σ Unit} {fed : List Char} {offers : List Task}

/-- In every state of a session each frame waits for an atom that can come next at its offset, for
any input of which what was fed is a beginning; if the end was given, what was fed is all of it. -/
theorem Session.Reaches.framesIn (hlaid : program.Laid)
    (h : Session.Reaches program.interpreter tracer (.initial program.interpreter trace () limit)
      fed session offers) {input : List Char} (hfed : fed <+: input)
    (hend : session.scheduler.isFinished = true → fed = input) :
    session.scheduler.FramesIn (program.Awaits input) := by
  induction h with
  | start => exact Scheduler.framesIn_initial _
  | @advance fed session next offers symbol h hrun ih =>
    obtain ⟨opened, hopen, hrest⟩ := advance_eq_ok hrun
    obtain ⟨hrefusal, hadvance, -, -⟩ := openGeneration_eq_ok hopen
    have hfinished := (refusal?_eq_none.mp hrefusal).1
    have hopened : opened.scheduler.FramesIn (program.Awaits input) := by
      rw [hadvance]
      exact (ih ((List.prefix_append _ _).trans hfed) (by simp [hfinished])).advance symbol
    split at hrest
    -- The first generation is at offset 0, where the entries of the start symbol can come next.
    · rename_i hfirst
      have hseed := leads_of_perform [] hrest
      refine Program.framesIn_of_seed hlaid hopened ?_ (Routine.leads_lift.mp hseed).1
      obtain ⟨root, node, hopens⟩ := Moment.opens_advance ⟨session.scheduler, []⟩ symbol
      rw [← hadvance] at hopens
      have hnext : opened.scheduler.nextIndex = session.scheduler.nextIndex + 1 :=
        congrArg Control.nextIndex hopens.control
      rw [Scheduler.isFirstGeneration, hnext] at hfirst
      exact hopens.index_eq.trans (Nat.succ.inj (of_decide_eq_true hfirst))
    · rw [hrest]
      exact hopened
  | @work fed session taken next offers task h htake hrun ih =>
    obtain ⟨rest, fuel, hdequeue, -, rfl⟩ := takeTask_eq_ok htake
    have hfinished : next.scheduler.isFinished = session.scheduler.isFinished :=
      congrArg Control.isFinished ((control_of_perform hrun).trans (control_of_takeTask htake))
    have hend' := hfinished ▸ hend
    have hrest := (ih hfed hend').dequeue hdequeue
    -- A task can only be waiting if a generation was opened, and then it is right to do.
    rcases h.timeline hlaid hfed hend' with ⟨hinitial, -⟩ | htimeline
    · rw [hinitial] at hdequeue
      cases hdequeue
    · obtain ⟨carried, hunderway⟩ := htimeline.underway
      obtain ⟨hsteady, hdue⟩ := hunderway.taken hdequeue
      exact Program.framesIn_of_routine hlaid hsteady.sound hrest hdue
        (leads_of_perform offers hrun)

end Calls

/-! ## Items that are reached -/

namespace Moment.Stages

variable {program : Program} {input : List Char} {stages : Nat → Moment} {k : Nat}
  (hlaid : program.Laid) (h : Stages program input stages k) (hlast : (stages k).pending = [])
include hlaid h hlast

/-- For a frame that waits for a nonterminal the slots of its right-hand sides are resumed, each
behind every derivation of what is before its dot. -/
theorem exists_offered {i j : Nat} (hj : j ≤ k) {frame : StackId} {label slot : Label}
    {owner : Option Nonterminal} {earlier later before after : List Atom} {symbol : Nonterminal}
    {trees : List Tree} (hframe : (stages i).Holds (.frame frame label i))
    (hcall : program.Item label owner (earlier ++ [.nonterminal symbol]) later)
    (hitem : program.Item slot (some symbol) before after)
    (hderives : program.rightHandSides.Derives input before i j trees) :
    ∃ stem, (stages j).Holds (.offered (.resume slot frame stem)) := by
  have hi : i ≤ k := hderives.le.trans hj
  obtain ⟨marked, -, hmarked⟩ := Program.exists_markedDerives hderives
  cases hitem with
  | slot hlabels hentry hblock =>
    obtain ⟨stem, hoffered, -⟩ := h.reach hlaid hlast hmarked hj
      (.of_entry hlabels hentry hblock) (h.reached_entry hlaid hi hframe hcall hlabels hentry)
    exact ⟨stem, hoffered⟩

/-- Wherever a nonterminal can come next, a frame waits for it. -/
theorem exists_waiting {symbol : Nonterminal} {i : Nat} (hi : i ≤ k)
    (hexpects : program.rightHandSides.Expects input program.start (.nonterminal symbol) i) :
    ∃ frame label owner before after, (stages i).Holds (.frame frame label i) ∧
      program.Item label owner (before ++ [.nonterminal symbol]) after := by
  unfold Productions.Expects at hexpects
  generalize hplace : (Atom.nonterminal symbol, i) = place at hexpects
  induction hexpects generalizing symbol i with
  | refl =>
    obtain ⟨hatom, rfl⟩ := Prod.mk.inj hplace
    cases hatom
    obtain ⟨frame, hframe⟩ := (h.underway hi).seeded
    exact ⟨frame, _, none, [], [], hframe, .accept⟩
  | tail _ hinto ih =>
    cases hinto with
    | enter hmem hderives =>
      obtain ⟨rfl, rfl⟩ := Prod.mk.inj hplace
      obtain ⟨frame, _, _, _, _, hframe, hcall⟩ := ih (hderives.le.trans hi) rfl
      obtain ⟨slot, hitem⟩ := hlaid.exists_item_of_mem hmem
      -- The slot that calls the nonterminal is resumed here, and it makes a frame for it.
      obtain ⟨stem, hoffered⟩ := h.exists_offered hlaid hlast hi hframe hcall hitem hderives
      obtain ⟨frame', hframe', -⟩ := h.covered hlast hlaid hi hoffered hitem
      rw [h.index hi] at hframe'
      exact ⟨frame', _, _, _, _, hframe', hitem.next⟩

/-- Wherever a test can come next that the symbol passes, the symbol is staged. -/
theorem exists_staged {matcher : Matcher} {c : Char}
    (hexpects : program.rightHandSides.Expects input program.start (.terminal matcher) k)
    (hchar : input[k]? = some c) (haccepts : matcher.accepts c = true) :
    ∃ task, (stages k).Holds (.staged task) := by
  have hk := Nat.le_refl k
  cases hexpects with
  | tail hbefore hinto =>
    cases hinto with
    | enter hmem hderives =>
      obtain ⟨frame, _, _, _, _, hframe, hcall⟩ :=
        h.exists_waiting hlaid hlast hderives.le hbefore
      obtain ⟨slot, hitem⟩ := hlaid.exists_item_of_mem hmem
      obtain ⟨stem, hoffered⟩ := h.exists_offered hlaid hlast hk hframe hcall hitem hderives
      have hcurrent : (stages k).scheduler.current.char? = some c := by
        rw [(h.sound hk).situated.current, Position.char?_of, h.index hk]
        exact hchar
      obtain ⟨_, result, _, _, hstaged⟩ := h.covered hlast hlaid hk hoffered hitem hcurrent haccepts
      exact ⟨_, hstaged⟩

end Moment.Stages

end Gll
