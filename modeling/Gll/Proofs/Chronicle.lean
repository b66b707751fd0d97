import Gll.Proofs.Commands
import Gll.Proofs.Tally

/-!
No task is lost, and none is done twice.

A `Chronicle` says what became of the tasks of each generation: which of those that were offered the
scheduler took, and which it gave out to be done. It is written along with anything that can happen
to a scheduler, by whomever: requests in any order, also those that break off, generations that are
opened, and tasks that are taken out. In every chapter the tasks that were done, and behind them
those that still wait, are the tasks that the chapter before had staged and behind them those that
were scheduled (`Chapter.Settled`). That is an equality of lists: it says of each task how often and
in which generation it is done.

The two sets of the memory belong to the current chapter alone. They are emptied when a chapter
ends, and so is the queue, while what was staged is carried over; so the sets and the queue stay in
step (`Orderly.advance`).
-/

set_option autoImplicit false

namespace Gll

/-! ## Tasks that are taken -/

/-- The task of a step that offers one, if the scheduler takes it. -/
def Step.accepted {σ α : Type} : Step α → World σ → List Task
  | .offer task, world => if (Scheduler.offer task world.scheduler).1 then [task] else []
  | _, _ => []

/-- The tasks that the scheduler takes while an action is carried out. -/
def Act.accepted {σ α : Type} (tracer : Tracer σ) (act : Act α) : World σ → List Task :=
  act.account (Step.run tracer) Step.accepted

/-- The tasks that the scheduler takes while a request is carried out. -/
def Operation.accepted {σ α : Type} (tracer : Tracer σ) (operation : Operation α) :
    World σ → List Task :=
  operation.act.accepted tracer

/-- The tasks that the scheduler takes while a routine is carried out. -/
def Routine.accepted {σ α : Type} (tracer : Tracer σ) (routine : Routine α) :
    World σ → List Task :=
  routine.account (Operation.run tracer) (Operation.accepted tracer)

section Answers

variable {σ : Type} {tracer : Tracer σ} {world : World σ}

/-- A task that is offered is taken when the answer is that it was not there yet. -/
theorem Act.accepted_offer {task : Task} {event : Event} :
    Act.accepted tracer (do
      let isNew ← Act.offer task
      if isNew then return true
      Act.emit event
      return false) world = [task] ↔
    ∃ next, Act.run tracer (do
      let isNew ← Act.offer task
      if isNew then return true
      Act.emit event
      return false) world = .ok true next := by
  simp only [Act.accepted, Act.run, bind, Plan.andThen, Act.offer, Plan.request, Plan.account,
    Plan.run, Step.run, Step.accepted]
  cases (Scheduler.offer task world.scheduler).1 with
  | true => simp [pure, Plan.account, Plan.run]
  | false =>
    cases hrecord : tracer.record event <;>
      simp [Act.emit, Plan.request, Plan.andThen, Plan.account, Plan.run, Step.run, Step.accepted,
        hrecord, pure]

namespace Operation

theorem accepted_scheduleNow {label : Label} {caller : StackId} {stem : PrefixId} :
    (scheduleNow label caller stem).accepted tracer world = [.resume label caller stem] ↔
      ∃ next, (scheduleNow label caller stem).run tracer world = .ok true next :=
  Act.accepted_offer

theorem accepted_scheduleLater {frame : StackId} {result : SymbolId} :
    (scheduleLater frame result).accepted tracer world = [.shift frame result] ↔
      ∃ next, (scheduleLater frame result).run tracer world = .ok true next :=
  Act.accepted_offer

end Operation

end Answers

/-! ## Chapters -/

/-- What became of the tasks of one generation, in order: those that were scheduled in it to be done
in it, those that were staged in it for the next, and those that were taken out in it and done. -/
structure Chapter where
  scheduled : List Task
  staged : List Task
  done : List Task

namespace Chapter

/-- Nothing has happened yet. -/
def blank : Chapter := ⟨[], [], []⟩

/-- A task was taken, to be done in this generation or in the next. -/
def enter (chapter : Chapter) : Task → Chapter
  | .resume label caller stem =>
    { chapter with scheduled := chapter.scheduled ++ [.resume label caller stem] }
  | .shift frame result => { chapter with staged := chapter.staged ++ [.shift frame result] }

/-- Tasks were taken, one after the other. -/
def enterAll (chapter : Chapter) (tasks : List Task) : Chapter := tasks.foldl enter chapter

/-- That tasks are taken does not say that they are done. -/
theorem done_enterAll (chapter : Chapter) (tasks : List Task) :
    (chapter.enterAll tasks).done = chapter.done := by
  rw [enterAll]
  induction tasks generalizing chapter with
  | nil => rfl
  | cons task rest ih =>
    rw [List.foldl_cons, ih]
    cases task <;> rfl

/-- A task was taken out and done. -/
def finish (chapter : Chapter) (task : Task) : Chapter :=
  { chapter with done := chapter.done ++ [task] }

/-- The tasks with which a generation begins, by the chapters before it, the latest first. -/
def carried : List Chapter → List Task
  | [] => []
  | chapter :: _ => chapter.staged

end Chapter

/-- The chapters of a scheduler up to the current one, the latest first, and the current one. -/
inductive Scheduler.Chronicle (start : Nonterminal) :
    List Chapter → Chapter → Scheduler → Prop where
  | initial : Chronicle start [] .blank (.initial start)
  | advance {past : List Chapter} {current : Chapter} {s : Scheduler} (symbol : Option Char)
      (h : Chronicle start past current s) (hopen : s.refusal? = none) :
      Chronicle start (current :: past) .blank (s.advance symbol)
  | request {past : List Chapter} {current : Chapter} {σ α : Type} {world : World σ}
      (tracer : Tracer σ) (operation : Operation α)
      (h : Chronicle start past current world.scheduler) :
      Chronicle start past (current.enterAll (operation.accepted tracer world))
        (leaves (operation.run tracer) world).scheduler
  | dequeue {past : List Chapter} {current : Chapter} {s rest : Scheduler} {task : Task}
      (h : Chronicle start past current s) (hdequeue : s.dequeue? = some (task, rest)) :
      Chronicle start past (current.finish task) rest

/-! ## What a chronicle looks like -/

/-- The books of a chapter are in order, with some tasks still waiting to be done in it. -/
structure Chapter.Settled (past : List Chapter) (chapter : Chapter) (waiting : List Task) :
    Prop where
  /-- What was carried into the generation or scheduled in it was done or waits, in this order. -/
  queue : chapter.done ++ waiting = carried past ++ chapter.scheduled
  scheduled : chapter.scheduled.filterMap Task.shifted? = []
  scheduledOnce : (chapter.scheduled.filterMap Task.resumed?).Nodup
  staged : chapter.staged.filterMap Task.resumed? = []
  stagedOnce : (chapter.staged.filterMap Task.shifted?).Nodup

/-- The books of all chapters are in order, and the scheduler agrees with the current one. -/
structure Scheduler.Orderly (past : List Chapter) (current : Chapter) (s : Scheduler) : Prop where
  settled : current.Settled past s.pending.toList
  staged : s.staged.toList = current.staged
  resumed (key : Label × StackId) :
    key ∈ s.memory.resumed ↔ key ∈ current.scheduled.filterMap Task.resumed?
  shifted (frame : StackId) :
    frame ∈ s.memory.shifted ↔ frame ∈ current.staged.filterMap Task.shifted?
  past (newer older : List Chapter) (chapter : Chapter) :
    past = newer ++ chapter :: older → chapter.Settled older []

namespace Scheduler

/-- A task that is refused changes nothing. -/
theorem offer_of_refused {s : Scheduler} {task : Task} (h : (s.offer task).1 = false) :
    (s.offer task).2 = s := by
  cases task with
  | resume label caller stem =>
    rw [offer, enqueue] at h ⊢
    split
    · rfl
    · rename_i hnew
      rw [if_neg hnew] at h
      cases h
  | shift frame result =>
    rw [offer, stage] at h ⊢
    split
    · rfl
    · rename_i hnew
      rw [if_neg hnew] at h
      cases h

namespace Orderly

variable {past : List Chapter} {current : Chapter} {s : Scheduler}

theorem initial (start : Nonterminal) : Orderly [] .blank (.initial start) := by
  refine ⟨?_, ?_, ?_, ?_, ?_⟩
  · constructor <;> simp [Chapter.blank, Scheduler.initial, Chapter.carried]
  · rfl
  · simp [Scheduler.initial, Memory.empty, Chapter.blank]
  · simp [Scheduler.initial, Memory.empty, Chapter.blank]
  · simp

theorem enqueue (h : Orderly past current s) {label : Label} {caller : StackId} {stem : PrefixId}
    (hnew : (s.enqueue label caller stem).1 = true) :
    Orderly past (current.enter (.resume label caller stem)) (s.enqueue label caller stem).2 := by
  rw [Scheduler.enqueue] at hnew ⊢
  split
  · rename_i hold
    rw [if_pos hold] at hnew
    cases hnew
  · rename_i hold
    -- The set of what was resumed is that of the keys in the chapter, so the key is new there too.
    have hkey : (label, caller) ∉ current.scheduled.filterMap Task.resumed? := by
      rw [← h.resumed]
      simpa using hold
    refine ⟨⟨?_, ?_, ?_, h.settled.staged, h.settled.stagedOnce⟩, h.staged, fun key => ?_,
      h.shifted, h.past⟩
    · have hqueue := h.settled.queue
      simp only [Chapter.enter, Queue.toList_enqueue, ← List.append_assoc, hqueue]
    · simp [Chapter.enter, h.settled.scheduled, Task.shifted?]
    · simp only [Chapter.enter, List.filterMap_append, List.filterMap_cons, List.filterMap_nil,
        Task.resumed?]
      exact List.concat_eq_append ▸ h.settled.scheduledOnce.concat hkey
    · simp only [Chapter.enter, List.filterMap_append, List.filterMap_cons, List.filterMap_nil,
        Task.resumed?, List.mem_append, List.mem_singleton, Std.HashSet.mem_insert, beq_iff_eq,
        h.resumed]
      rw [eq_comm, or_comm]

theorem stage (h : Orderly past current s) {frame : StackId} {result : SymbolId}
    (hnew : (s.stage frame result).1 = true) :
    Orderly past (current.enter (.shift frame result)) (s.stage frame result).2 := by
  rw [Scheduler.stage] at hnew ⊢
  split
  · rename_i hold
    rw [if_pos hold] at hnew
    cases hnew
  · rename_i hold
    have hkey : frame ∉ current.staged.filterMap Task.shifted? := by
      rw [← h.shifted]
      simpa using hold
    refine ⟨⟨h.settled.queue, h.settled.scheduled, h.settled.scheduledOnce, ?_, ?_⟩, ?_, h.resumed,
      fun other => ?_, h.past⟩
    · simp [Chapter.enter, h.settled.staged, Task.resumed?]
    · simp only [Chapter.enter, List.filterMap_append, List.filterMap_cons, List.filterMap_nil,
        Task.shifted?]
      exact List.concat_eq_append ▸ h.settled.stagedOnce.concat hkey
    · simp [Chapter.enter, h.staged]
    · simp only [Chapter.enter, List.filterMap_append, List.filterMap_cons, List.filterMap_nil,
        Task.shifted?, List.mem_append, List.mem_singleton, Std.HashSet.mem_insert, beq_iff_eq,
        h.shifted]
      rw [eq_comm, or_comm]

/-- A task that is offered is entered if it is taken, and if not nothing happens. -/
theorem offer (h : Orderly past current s) (task : Task) :
    Orderly past (current.enterAll (if (s.offer task).1 then [task] else [])) (s.offer task).2 := by
  split
  · rename_i hnew
    cases task with
    | resume label caller stem => exact h.enqueue hnew
    | shift frame result => exact h.stage hnew
  · rename_i hold
    rw [offer_of_refused (by simpa using hold)]
    exact h

/-- What leaves the desk alone does not matter. -/
theorem of_desk {s' : Scheduler} (h : Orderly past current s) (hdesk : s'.desk = s.desk) :
    Orderly past current s' := by
  simp only [desk, Prod.mk.injEq] at hdesk
  obtain ⟨hpending, hstaged, hresumed, hshifted⟩ := hdesk
  exact ⟨hpending ▸ h.settled, hstaged ▸ h.staged, hresumed ▸ h.resumed, hshifted ▸ h.shifted,
    h.past⟩

theorem step {σ α : Type} {world : World σ} (h : Orderly past current world.scheduler)
    {step : Step α} (hstep : step.Quiet) (tracer : Tracer σ) :
    Orderly past (current.enterAll (step.accepted world))
      (leaves (step.run tracer) world).scheduler := by
  cases step with
  | look read =>
    rw [Step.leaves_look]
    exact h
  | update change => exact h.of_desk (hstep world.scheduler)
  | offer task => exact h.offer task
  | emit event =>
    have hsame : (leaves ((Step.emit event).run tracer) world).scheduler = world.scheduler :=
      Step.scheduler_leaves_emit
    rw [← hsame] at h
    exact h

/-- Whatever is requested, the tasks that are taken are entered, up to where it may break off. -/
theorem request {σ α : Type} {world : World σ} (h : Orderly past current world.scheduler)
    (tracer : Tracer σ) (operation : Operation α) :
    Orderly past (current.enterAll (operation.accepted tracer world))
      (leaves (operation.run tracer) world).scheduler := by
  refine (Step.steps_quiet.operation operation fun _ _ => trivial).leaves_account Step.accepted
    (fun world' noted => Orderly past (current.enterAll noted) (World.scheduler world')) ?_ [] h
  intro _ step world' noted hstep hworld
  have hnext := hworld.step hstep tracer
  rw [Chapter.enterAll, Chapter.enterAll, ← List.foldl_append] at hnext
  exact hnext

theorem dequeue (h : Orderly past current s) {task : Task} {rest : Scheduler}
    (hdequeue : s.dequeue? = some (task, rest)) : Orderly past (current.finish task) rest := by
  obtain ⟨pending, hqueue, rfl⟩ := exists_of_dequeue? hdequeue
  have hlist := h.settled.queue
  rw [hqueue] at hlist
  refine ⟨⟨?_, h.settled.scheduled, h.settled.scheduledOnce, h.settled.staged,
    h.settled.stagedOnce⟩, h.staged, h.resumed, h.shifted, h.past⟩
  rw [Chapter.finish, List.append_assoc, List.singleton_append]
  exact hlist

/-- A chapter ends when nothing waits in it, and what it staged is what the next begins with. -/
theorem advance (h : Orderly past current s) (hopen : s.refusal? = none) (symbol : Option Char) :
    Orderly (current :: past) .blank (s.advance symbol) := by
  have hempty : s.pending.toList = [] := (Queue.isEmpty_iff _).mp
    (Session.refusal?_eq_none.mp hopen).2
  -- The chapter that ends is settled with nothing pending; of older ones nothing changes.
  have hpast (newer older : List Chapter) (chapter : Chapter)
      (hsplit : current :: past = newer ++ chapter :: older) : chapter.Settled older [] := by
    rcases List.cons_eq_append_iff.mp hsplit with ⟨-, heq⟩ | ⟨newer', -, heq⟩
    · obtain ⟨rfl, rfl⟩ := List.cons.inj heq
      exact hempty ▸ h.settled
    · exact h.past newer' older chapter heq
  -- The new chapter is blank, and what it was left is what waits in it.
  have hmoved (position : Position) (isLast : Bool) :
      Orderly (current :: past) .blank (s.moveTo position isLast) := by
    refine ⟨?_, rfl, ?_, ?_, hpast⟩
    · constructor <;> simp [Chapter.blank, moveTo, Chapter.carried, h.staged]
    · simp [moveTo, Memory.empty, Chapter.blank]
    · simp [moveTo, Memory.empty, Chapter.blank]
  -- Anchoring the root offers nothing.
  have hanchored {s : Scheduler} (h : Orderly (current :: past) .blank s) :
      Orderly (current :: past) .blank s.anchorRoot :=
    h.of_desk (Step.steps_quiet.derivationFor s.start (s.first.getD s.current) s)
  cases symbol with
  | some char => exact hanchored ((hmoved (s.nextPosition (some char)) false).of_desk rfl)
  | none => exact hanchored (hmoved _ _)

end Orderly

/-- The books of every chronicle are in order. -/
theorem Chronicle.orderly {start : Nonterminal} {past : List Chapter} {current : Chapter}
    {s : Scheduler} (h : Chronicle start past current s) : Orderly past current s := by
  induction h with
  | initial => exact .initial start
  | advance symbol h hopen ih => exact ih.advance hopen symbol
  | request tracer operation h ih => exact ih.request tracer operation
  | dequeue h hdequeue ih => exact ih.dequeue hdequeue

/-- What a routine does is entered, up to where it may break off. -/
theorem Chronicle.routine {start : Nonterminal} {past : List Chapter} {current : Chapter}
    {σ α : Type} {world : World σ} (h : Chronicle start past current world.scheduler)
    (tracer : Tracer σ) (routine : Routine α) :
    Chronicle start past (current.enterAll (routine.accepted tracer world))
      (leaves (routine.run tracer) world).scheduler := by
  have hall : routine.Each fun _ => True := routine.each_of_forall fun _ => trivial
  refine hall.leaves_account (Operation.accepted tracer) (fun world' noted =>
    Chronicle start past (current.enterAll noted) (World.scheduler world')) ?_ [] h
  intro _ operation world' noted _ hworld
  have hnext := hworld.request tracer operation
  rw [Chapter.enterAll, Chapter.enterAll, ← List.foldl_append] at hnext
  exact hnext

end Scheduler

/-! ## Each task once -/

/-- Tasks of which no two are alike to the sets of the memory are all different. -/
theorem Task.nodup_of_keys {tasks : List Task} (hresumed : (tasks.filterMap resumed?).Nodup)
    (hshifted : (tasks.filterMap shifted?).Nodup) : tasks.Nodup := by
  induction tasks with
  | nil => exact List.nodup_nil
  | cons task rest ih =>
    cases task with
    | resume label caller stem =>
      obtain ⟨hkey, hrest⟩ := List.nodup_cons.mp hresumed
      refine List.nodup_cons.mpr ⟨fun hmem => hkey ?_, ih hrest hshifted⟩
      exact List.mem_filterMap.mpr ⟨_, hmem, rfl⟩
    | shift frame result =>
      obtain ⟨hkey, hrest⟩ := List.nodup_cons.mp hshifted
      refine List.nodup_cons.mpr ⟨fun hmem => hkey ?_, ih hresumed hrest⟩
      exact List.mem_filterMap.mpr ⟨_, hmem, rfl⟩

namespace Scheduler.Orderly

variable {past newer older : List Chapter} {current chapter : Chapter} {s : Scheduler}
  {waiting : List Task}

/-- Only deliveries are carried into a generation, no two of them to one frame. -/
theorem carried (h : Orderly past current s) (hsplit : past = newer ++ older) :
    (Chapter.carried older).filterMap Task.resumed? = [] ∧
      ((Chapter.carried older).filterMap Task.shifted?).Nodup := by
  cases older with
  | nil => exact ⟨rfl, List.nodup_nil⟩
  | cons chapter older =>
    have hsettled := h.past newer older chapter hsplit
    exact ⟨hsettled.staged, hsettled.stagedOnce⟩

/-- No two tasks that are done in a generation, or wait to be, are for the same label and caller or
for the same frame. -/
theorem keys_nodup (h : Orderly past current s) (hsplit : past = newer ++ older)
    (hsettled : chapter.Settled older waiting) :
    ((chapter.done ++ waiting).filterMap Task.resumed?).Nodup ∧
      ((chapter.done ++ waiting).filterMap Task.shifted?).Nodup := by
  obtain ⟨hresumed, hshifted⟩ := h.carried hsplit
  rw [hsettled.queue, List.filterMap_append, List.filterMap_append, hresumed, hsettled.scheduled,
    List.nil_append, List.append_nil]
  exact ⟨hsettled.scheduledOnce, hshifted⟩

/-- Once nothing waits, the slots that were resumed are those for which this is on record, each once
for a caller. -/
theorem resumed_of_drained (h : Orderly past current s) (hdrained : s.pending.toList = []) :
    (current.done.filterMap Task.resumed?).Nodup ∧
      ∀ key, key ∈ current.done.filterMap Task.resumed? ↔ key ∈ s.memory.resumed := by
  have hnow : past = [] ++ past := rfl
  have hqueue := h.settled.queue
  rw [hdrained, List.append_nil] at hqueue
  -- What was carried into the generation are deliveries, so this is what was scheduled in it.
  have hkeys : current.done.filterMap Task.resumed?
      = current.scheduled.filterMap Task.resumed? := by
    rw [hqueue, List.filterMap_append, (h.carried hnow).1, List.nil_append]
  rw [hkeys]
  exact ⟨h.settled.scheduledOnce, fun key => (h.resumed key).symm⟩

end Scheduler.Orderly

/-! ## Sessions -/

namespace Session

variable {σ μ : Type}

variable (interpreter : Interpreter μ) (tracer : Tracer σ)

/-- The tasks that the scheduler takes while a generation is opened. -/
def advanceAccepted (symbol : Option Char) (session : Session σ μ) : List Task :=
  match openGeneration tracer symbol session with
  | .ok () opened =>
    if opened.scheduler.isFirstGeneration then
      (interpreter.seed.run opened.store).accepted tracer opened.world
    else []
  | .error _ _ => []

/-- The tasks that the scheduler takes while a task is done. -/
def taskAccepted (task : Task) (session : Session σ μ) : List Task :=
  ((interpreter.routine task).run session.store).accepted tracer session.world

/-- The chapters of a session up to the current one, the latest first, and the current one. A task
that is taken out is done, and only such a task. -/
inductive Chronicle : List Chapter → Chapter → Session σ μ → Prop where
  | initial (trace : σ) (store : μ) (limit : Nat) :
    Chronicle [] .blank (.initial interpreter trace store limit)
  | advance {past : List Chapter} {current : Chapter} {session : Session σ μ} (tracer : Tracer σ)
      (symbol : Option Char) (h : Chronicle past current session)
      (hopen : session.scheduler.refusal? = none) :
      Chronicle (current :: past)
        (Chapter.blank.enterAll (advanceAccepted interpreter tracer symbol session))
        (leaves (Session.advance interpreter tracer symbol) session)
  | work {past : List Chapter} {current : Chapter} {session taken : Session σ μ} {task : Task}
      (tracer : Tracer σ) (h : Chronicle past current session)
      (htake : takeTask session = .ok (some task) taken) :
      Chronicle past ((current.finish task).enterAll (taskAccepted interpreter tracer task taken))
        (leaves (runTask interpreter tracer task) taken)

namespace Chronicle

variable {interpreter} {past : List Chapter} {current : Chapter} {session : Session σ μ}

/-- What a session does, its scheduler has done to it. -/
theorem scheduler (h : Chronicle interpreter past current session) :
    Scheduler.Chronicle interpreter.start past current session.scheduler := by
  induction h with
  | initial trace store limit => exact .initial
  | @advance past current session tracer symbol h hopen ih =>
    have hopened : (leaves (openGeneration tracer symbol) session).scheduler = _ :=
      scheduler_leaves_openGeneration hopen
    have hnext := ih.advance symbol hopen
    rw [advanceAccepted, leaves_advance]
    -- Only if the generation was opened, and is the first one, is there a seed that may offer
    -- tasks.
    cases hrun : openGeneration tracer symbol session with
    | ok _ opened =>
      rw [leaves_of_ok hrun] at hopened
      rw [← hopened] at hnext
      dsimp only
      split
      · rw [Session.scheduler, world_leaves_perform]
        exact hnext.routine tracer _
      · exact hnext
    | error halt opened =>
      rw [leaves_of_error hrun] at hopened
      rw [← hopened] at hnext
      exact hnext
  | @work past current session taken task tracer h htake ih =>
    obtain ⟨rest, fuel, hdequeue, -, rfl⟩ := takeTask_eq_ok htake
    rw [Session.scheduler, runTask, world_leaves_perform]
    have hrest : Scheduler.Chronicle interpreter.start past (current.finish task)
        (World.mk rest session.world.trace).scheduler := ih.dequeue hdequeue
    exact hrest.routine tracer _

/-- Every command that a user can give is in a chronicle, however it ends. -/
theorem exists_after (commands : List (Command × Tracer σ)) (trace : σ) (store : μ) (limit : Nat) :
    ∃ past current, Chronicle interpreter past current
      (after interpreter commands (.initial interpreter trace store limit)) := by
  let Recorded (session : Session σ μ) : Prop :=
    ∃ past current, Chronicle interpreter past current session
  have hclosed (tracer : Tracer σ) : Closed interpreter tracer Recorded fun _ => True := by
    refine ⟨fun _ => trivial, fun symbol h hopen => ?_, fun h htake => ?_⟩
    · obtain ⟨past, current, h⟩ := h
      exact .of_leaves ⟨_, _, h.advance tracer symbol hopen⟩ fun _ => trivial
    · obtain ⟨past, current, h⟩ := h
      exact .of_leaves ⟨_, _, h.work tracer htake⟩ fun _ => trivial
  have hstart : Recorded (.initial interpreter trace store limit) :=
    ⟨_, _, .initial trace store limit⟩
  exact Closed.after (fun command _ => hclosed command.2) hstart

end Chronicle

/-- Work is done exactly once. Whatever commands a user gives, with whatever tracers, what becomes
of the tasks is a chronicle, and so it is with whatever else anybody can do to a scheduler. In it,
* no two tasks that are done in a generation resume a label for the same caller, or deliver to the
  same frame;
* what was done in the current generation, and then what is pending, is what was carried into it,
  and then what was scheduled in it; so each of these tasks was done once or is pending once;
* what waits to be carried on is what was staged in it, each of these tasks once;
* what was done in an earlier generation is what was carried into it and what was scheduled in it,
  each of these tasks once.

What is carried into a generation is what the one before had staged. -/
theorem tasks_done_once (interpreter : Interpreter μ) :
    (∀ (commands : List (Command × Tracer σ)) (trace : σ) (store : μ) (limit : Nat),
      ∃ past current, Chronicle interpreter past current
        (after interpreter commands (.initial interpreter trace store limit))) ∧
    (∀ past current (session : Session σ μ), Chronicle interpreter past current session →
      Scheduler.Chronicle interpreter.start past current session.scheduler) ∧
    ∀ past current s, Scheduler.Chronicle interpreter.start past current s →
      (∀ chapter ∈ current :: past, (chapter.done.filterMap Task.resumed?).Nodup ∧
        (chapter.done.filterMap Task.shifted?).Nodup) ∧
      (current.done ++ s.pending.toList = Chapter.carried past ++ current.scheduled ∧
        ∀ task ∈ Chapter.carried past ++ current.scheduled,
          (current.done ++ s.pending.toList).count task = 1) ∧
      (s.staged.toList = current.staged ∧
        ∀ task ∈ current.staged, s.staged.toList.count task = 1) ∧
      ∀ newer chapter older, past = newer ++ chapter :: older →
        chapter.done = Chapter.carried older ++ chapter.scheduled ∧
          ∀ task ∈ chapter.done, chapter.done.count task = 1 := by
  refine ⟨Chronicle.exists_after, fun _ _ _ h => h.scheduler, fun past current s h => ?_⟩
  have horderly := h.orderly
  have hnow : past = [] ++ past := rfl
  obtain ⟨hresumed, hshifted⟩ := horderly.keys_nodup hnow horderly.settled
  have hpast (newer older : List Chapter) (chapter : Chapter)
      (hsplit : past = newer ++ chapter :: older) := by
    have hearlier : past = (newer ++ [chapter]) ++ older := by simp [hsplit]
    exact horderly.keys_nodup hearlier (horderly.past newer older chapter hsplit)
  refine ⟨fun chapter hchapter => ?_, ⟨horderly.settled.queue, fun task htask => ?_⟩,
    ⟨horderly.staged, fun task htask => ?_⟩, fun newer chapter older hsplit => ?_⟩
  · rcases List.mem_cons.mp hchapter with rfl | hchapter
    · rw [List.filterMap_append] at hresumed hshifted
      exact ⟨hresumed.of_append_left, hshifted.of_append_left⟩
    · obtain ⟨newer, older, hsplit⟩ := List.append_of_mem hchapter
      simpa using hpast newer older chapter hsplit
  · rw [← horderly.settled.queue] at htask
    exact List.count_eq_one_of_mem (Task.nodup_of_keys hresumed hshifted) htask
  · have hstaged : s.staged.toList.Nodup := by
      rw [horderly.staged]
      refine Task.nodup_of_keys ?_ horderly.settled.stagedOnce
      rw [horderly.settled.staged]
      exact List.nodup_nil
    exact List.count_eq_one_of_mem hstaged (horderly.staged ▸ htask)
  · obtain ⟨hresumed, hshifted⟩ := hpast newer older chapter hsplit
    have hqueue := (horderly.past newer older chapter hsplit).queue
    rw [List.append_nil] at hresumed hshifted hqueue
    exact ⟨hqueue, fun task htask =>
      List.count_eq_one_of_mem (Task.nodup_of_keys hresumed hshifted) htask⟩

end Session

end Gll
