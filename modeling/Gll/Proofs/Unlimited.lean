import Gll.Proofs.Auditing
import Gll.Proofs.Driving

/-!
Runs without a limit.

Commands can be carried out with no regard to fuel: a `FreeRun` opens generations and takes tasks
out as they come, one step after the other (`FreeRun.Step`), and need not end. Its sessions have
fuel only because every session does; nothing looks at it.

A session with fuel keeps step with it. What comes of the rest of a run, with so much fuel
(`FreeRun.finish`), does not change in a step that takes no task out, and otherwise grows by the
task for one unit of fuel (`Step.finish`). So after the tasks that the fuel allows, the session is
where the run without a limit is (`Goes.finish`), and between two tasks a run does only finitely
much (`FreeRun.exists_settled`).
-/

set_option autoImplicit false

namespace Gll

namespace Session

variable {σ μ : Type}

/-- Some commands in the course of being carried out, with no limit to the tasks. -/
structure FreeRun (σ μ : Type) where
  session : Session σ μ
  /-- How the commands ended that are over. -/
  told : List (Except Halt Bool)
  /-- What is left to do for the current command, if there is one, with its tracer. -/
  current : Option (List Part × Tracer σ)
  /-- The commands that come later. -/
  later : List (Command × Tracer σ)

/-- A session from which the next task was taken out. -/
def without (session : Session σ μ) (queue : Scheduler) : Session σ μ :=
  { session with world := ⟨queue, session.trace⟩ }

namespace FreeRun

/-- Before anything was done. -/
def start (session : Session σ μ) (commands : List (Command × Tracer σ)) : FreeRun σ μ :=
  ⟨session, [], none, commands⟩

/-- A step of a run, with the task that is begun in it, if one is. -/
inductive Step (interpreter : Interpreter μ) : FreeRun σ μ → Option Task → FreeRun σ μ → Prop where
  | call (session : Session σ μ) (told : List (Except Halt Bool)) (command : Command)
    (tracer : Tracer σ) (later : List (Command × Tracer σ)) :
    Step interpreter ⟨session, told, none, (command, tracer) :: later⟩ none
      ⟨session, told, some (command.parts, tracer), later⟩
  | answer (session : Session σ μ) (told : List (Except Halt Bool)) (tracer : Tracer σ)
    (later : List (Command × Tracer σ)) :
    Step interpreter ⟨session, told, some ([], tracer), later⟩ none
      ⟨session, told ++ [.ok session.isAccepted], none, later⟩
  | advance {session next : Session σ μ} {symbol : Option Char} {tracer : Tracer σ}
    (told : List (Except Halt Bool)) (parts : List Part) (later : List (Command × Tracer σ))
    (hrun : Session.advance interpreter tracer symbol session = .ok () next) :
    Step interpreter ⟨session, told, some (.advance symbol :: parts, tracer), later⟩ none
      ⟨next, told, some (parts, tracer), later⟩
  | refuse {session last : Session σ μ} {symbol : Option Char} {tracer : Tracer σ} {halt : Halt}
    (told : List (Except Halt Bool)) (parts : List Part) (later : List (Command × Tracer σ))
    (hrun : Session.advance interpreter tracer symbol session = .error halt last) :
    Step interpreter ⟨session, told, some (.advance symbol :: parts, tracer), later⟩ none
      ⟨last, told ++ [.error halt], none, later⟩
  | drained {session : Session σ μ} (told : List (Except Halt Bool)) (tracer : Tracer σ)
    (parts : List Part) (later : List (Command × Tracer σ))
    (hnone : session.scheduler.dequeue? = none) :
    Step interpreter ⟨session, told, some (.drain :: parts, tracer), later⟩ none
      ⟨session, told, some (parts, tracer), later⟩
  | work {session next : Session σ μ} {tracer : Tracer σ} {task : Task} {queue : Scheduler}
    (told : List (Except Halt Bool)) (parts : List Part) (later : List (Command × Tracer σ))
    (hdequeue : session.scheduler.dequeue? = some (task, queue))
    (hrun : runTask interpreter tracer task (session.without queue) = .ok () next) :
    Step interpreter ⟨session, told, some (.drain :: parts, tracer), later⟩ (some task)
      ⟨next, told, some (.drain :: parts, tracer), later⟩
  | halt {session last : Session σ μ} {tracer : Tracer σ} {task : Task} {queue : Scheduler}
    {halt : Halt} (told : List (Except Halt Bool)) (parts : List Part)
    (later : List (Command × Tracer σ))
    (hdequeue : session.scheduler.dequeue? = some (task, queue))
    (hrun : runTask interpreter tracer task (session.without queue) = .error halt last) :
    Step interpreter ⟨session, told, some (.drain :: parts, tracer), later⟩ (some task)
      ⟨last, told ++ [.error halt], none, later⟩

/-- Step after step, with the tasks that are begun on the way, in order. -/
inductive Goes (interpreter : Interpreter μ) : FreeRun σ μ → List Task → FreeRun σ μ → Prop where
  | refl (run : FreeRun σ μ) : Goes interpreter run [] run
  | step {run next last : FreeRun σ μ} {task : Option Task} {tasks : List Task}
    (hstep : Step interpreter run task next) (hgoes : Goes interpreter next tasks last) :
    Goes interpreter run (task.toList ++ tasks) last

/-- All commands are over. -/
def IsOver (run : FreeRun σ μ) : Prop := run.current = none ∧ run.later = []

/-- The task is the next thing to be done. -/
def Awaits (run : FreeRun σ μ) (task : Task) : Prop :=
  ∃ parts tracer queue, run.current = some (.drain :: parts, tracer) ∧
    run.session.scheduler.dequeue? = some (task, queue)

section Steps

variable {interpreter : Interpreter μ} {run next last : FreeRun σ μ} {task : Option Task}
  {tasks : List Task}

/-! ## One way to go on -/

/-- A run goes on in one way only. -/
theorem Step.unique {task' : Option Task} {next' : FreeRun σ μ}
    (h : Step interpreter run task next) (h' : Step interpreter run task' next') :
    task = task' ∧ next = next' := by
  -- What is left to do decides between the steps, and then what becomes of the session.
  cases h with
  | call | answer => cases h'; exact ⟨rfl, rfl⟩
  | advance told parts later hrun =>
    cases h' with
    | advance _ _ _ hrun' =>
      obtain ⟨-, rfl⟩ := EStateM.Result.ok.inj (hrun.symm.trans hrun')
      exact ⟨rfl, rfl⟩
    | refuse _ _ _ hrun' => cases hrun.symm.trans hrun'
  | refuse told parts later hrun =>
    cases h' with
    | advance _ _ _ hrun' => cases hrun.symm.trans hrun'
    | refuse _ _ _ hrun' =>
      obtain ⟨rfl, rfl⟩ := EStateM.Result.error.inj (hrun.symm.trans hrun')
      exact ⟨rfl, rfl⟩
  | drained told tracer parts later hnone =>
    cases h' with
    | drained => exact ⟨rfl, rfl⟩
    | work _ _ _ hdequeue => cases hnone.symm.trans hdequeue
    | halt _ _ _ hdequeue => cases hnone.symm.trans hdequeue
  | work told parts later hdequeue hrun =>
    cases h' with
    | drained _ _ _ _ hnone => cases hnone.symm.trans hdequeue
    | work _ _ _ hdequeue' hrun' =>
      cases hdequeue.symm.trans hdequeue'
      obtain ⟨-, rfl⟩ := EStateM.Result.ok.inj (hrun.symm.trans hrun')
      exact ⟨rfl, rfl⟩
    | halt _ _ _ hdequeue' hrun' =>
      cases hdequeue.symm.trans hdequeue'
      cases hrun.symm.trans hrun'
  | halt told parts later hdequeue hrun =>
    cases h' with
    | drained _ _ _ _ hnone => cases hnone.symm.trans hdequeue
    | work _ _ _ hdequeue' hrun' =>
      cases hdequeue.symm.trans hdequeue'
      cases hrun.symm.trans hrun'
    | halt _ _ _ hdequeue' hrun' =>
      cases hdequeue.symm.trans hdequeue'
      obtain ⟨rfl, rfl⟩ := EStateM.Result.error.inj (hrun.symm.trans hrun')
      exact ⟨rfl, rfl⟩

theorem IsOver.not_step (h : run.IsOver) : ¬ Step interpreter run task next := by
  intro hstep
  obtain ⟨hcurrent, hlater⟩ := h
  cases hstep with
  | call => exact absurd hlater (List.cons_ne_nil _ _)
  | _ => cases hcurrent

/-- A run begins the task that it awaits. -/
theorem Awaits.exists_step {task : Task} (h : run.Awaits task) (interpreter : Interpreter μ) :
    ∃ next, Step interpreter run (some task) next := by
  obtain ⟨session, told, current, later⟩ := run
  obtain ⟨parts, tracer, queue, hcurrent, hdequeue⟩ := h
  cases hcurrent
  cases hrun : runTask interpreter tracer task (session.without queue) with
  | ok _ next => exact ⟨_, .work told parts later hdequeue hrun⟩
  | error halt last => exact ⟨_, .halt told parts later hdequeue hrun⟩

theorem Step.awaits {task : Task} (h : Step interpreter run (some task) next) :
    run.Awaits task := by
  cases h with
  | work told parts later hdequeue => exact ⟨parts, _, _, rfl, hdequeue⟩
  | halt told parts later hdequeue => exact ⟨parts, _, _, rfl, hdequeue⟩

theorem Goes.trans {tasks' : List Task} (h : Goes interpreter run tasks next)
    (h' : Goes interpreter next tasks' last) : Goes interpreter run (tasks ++ tasks') last := by
  induction h with
  | refl => exact h'
  | step hstep _ ih =>
    rw [List.append_assoc]
    exact .step hstep (ih h')

/-- Two runs that begin in the same way are the same up to where one of them stops. -/
theorem Goes.comparable {tasks' : List Task} {last' : FreeRun σ μ}
    (h : Goes interpreter run tasks last) (h' : Goes interpreter run tasks' last') :
    (∃ rest, tasks' = tasks ++ rest ∧ Goes interpreter last rest last') ∨
      ∃ rest, tasks = tasks' ++ rest ∧ Goes interpreter last' rest last := by
  induction h generalizing tasks' with
  | refl => exact .inl ⟨tasks', rfl, h'⟩
  | @step run next last task tasks hstep hgoes ih =>
    cases h' with
    | refl => exact .inr ⟨_, rfl, .step hstep hgoes⟩
    | step hstep' hgoes' =>
      obtain ⟨rfl, rfl⟩ := hstep.unique hstep'
      rcases ih hgoes' with ⟨rest, rfl, hrest⟩ | ⟨rest, rfl, hrest⟩
      · exact .inl ⟨rest, (List.append_assoc _ _ _).symm, hrest⟩
      · exact .inr ⟨rest, (List.append_assoc _ _ _).symm, hrest⟩

/-- When all commands are over, nothing more is done. -/
theorem Goes.of_isOver (h : Goes interpreter run tasks last) (hover : run.IsOver) :
    tasks = [] ∧ last = run := by
  cases h with
  | refl => exact ⟨rfl, rfl⟩
  | step hstep => exact absurd hstep hover.not_step

/-- What is begun is the beginning of all that is begun until the commands are over. -/
theorem Goes.prefix_of_isOver {tasks' : List Task} {last' : FreeRun σ μ}
    (h : Goes interpreter run tasks last) (hover : last.IsOver)
    (h' : Goes interpreter run tasks' last') : tasks' <+: tasks := by
  rcases h.comparable h' with ⟨rest, rfl, hrest⟩ | ⟨rest, rfl, -⟩
  · obtain ⟨rfl, -⟩ := hrest.of_isOver hover
    rw [List.append_nil]
  · exact List.prefix_append _ _

/-- A step does not look at the commands that come later, other than to begin the next one. -/
theorem Step.exists_before (h : Step interpreter run task next) :
    ∃ before, run.later = before ++ next.later ∧ ∀ later,
      Step interpreter { run with later := before ++ later } task { next with later } := by
  cases h with
  | call session told command tracer later =>
    exact ⟨[(command, tracer)], rfl, fun other => .call session told command tracer other⟩
  | answer session told tracer later => exact ⟨[], rfl, fun other => .answer _ _ _ other⟩
  | advance told parts later hrun => exact ⟨[], rfl, fun other => .advance _ _ other hrun⟩
  | refuse told parts later hrun => exact ⟨[], rfl, fun other => .refuse _ _ other hrun⟩
  | drained told tracer parts later hnone =>
    exact ⟨[], rfl, fun other => .drained _ _ _ other hnone⟩
  | work told parts later hdequeue hrun =>
    exact ⟨[], rfl, fun other => .work _ _ other hdequeue hrun⟩
  | halt told parts later hdequeue hrun =>
    exact ⟨[], rfl, fun other => .halt _ _ other hdequeue hrun⟩

/-- Neither does a run; so it goes the same way if the later commands are left out. -/
theorem Goes.exists_before (h : Goes interpreter run tasks last) :
    ∃ before, run.later = before ++ last.later ∧ ∀ later,
      Goes interpreter { run with later := before ++ later } tasks { last with later } := by
  induction h with
  | refl run => exact ⟨[], rfl, fun _ => .refl _⟩
  | step hstep _ ih =>
    obtain ⟨first, hfirst, hcommon⟩ := hstep.exists_before
    obtain ⟨rest, hrest, hgoes⟩ := ih
    refine ⟨first ++ rest, by rw [hfirst, hrest, List.append_assoc], fun later => ?_⟩
    rw [List.append_assoc]
    exact .step (hcommon (rest ++ later)) (hgoes later)

/-! ## From one task to the next -/

/-- How many steps there are at most before the next task is begun or the commands are over. -/
def todo (run : FreeRun σ μ) : Nat :=
  (match run.current with
    | none => 0
    | some (parts, _) => parts.length + 1) +
  (run.later.map fun command => command.1.parts.length + 2).sum

/-- A run that is not over goes on. -/
theorem exists_step (interpreter : Interpreter μ) (run : FreeRun σ μ) (h : ¬ run.IsOver) :
    ∃ task next, Step interpreter run task next := by
  obtain ⟨session, told, current, later⟩ := run
  match current, later with
  | none, [] => exact absurd ⟨rfl, rfl⟩ h
  | none, (command, tracer) :: later => exact ⟨_, _, .call session told command tracer later⟩
  | some ([], tracer), later => exact ⟨_, _, .answer session told tracer later⟩
  | some (.advance symbol :: parts, tracer), later =>
    cases hrun : Session.advance interpreter tracer symbol session with
    | ok _ next => exact ⟨_, _, .advance told parts later hrun⟩
    | error halt last => exact ⟨_, _, .refuse told parts later hrun⟩
  | some (.drain :: parts, tracer), later =>
    cases hdequeue : session.scheduler.dequeue? with
    | none => exact ⟨_, _, .drained told tracer parts later hdequeue⟩
    | some dequeued =>
      obtain ⟨task, queue⟩ := dequeued
      have hawaits : Awaits ⟨session, told, some (.drain :: parts, tracer), later⟩ task :=
        ⟨parts, tracer, queue, rfl, hdequeue⟩
      exact ⟨_, hawaits.exists_step interpreter⟩

theorem Step.todo_lt (h : Step interpreter run none next) : next.todo < run.todo := by
  cases h <;> simp only [todo, List.map_cons, List.sum_cons, List.length_cons] <;> omega

/-- A run comes to where a task is next, or the commands are over. -/
theorem exists_settled (interpreter : Interpreter μ) (run : FreeRun σ μ) :
    ∃ settled, Goes interpreter run [] settled ∧
      (settled.IsOver ∨ ∃ task, settled.Awaits task) := by
  induction htodo : run.todo using Nat.strong_induction_on generalizing run with
  | _ bound ih =>
    by_cases hover : run.IsOver
    · exact ⟨run, .refl run, .inl hover⟩
    · obtain ⟨task, next, hstep⟩ := exists_step interpreter run hover
      cases task with
      | some task => exact ⟨run, .refl run, .inr ⟨task, hstep.awaits⟩⟩
      | none =>
        have hlt := hstep.todo_lt
        obtain ⟨settled, hgoes, hsettled⟩ := ih next.todo (htodo ▸ hlt) next rfl
        exact ⟨settled, .step hstep hgoes, hsettled⟩

/-- Whatever the number, a run comes to begin so many tasks and await another one, or the commands
are over with no more tasks than that. -/
theorem exists_goes (interpreter : Interpreter μ) (run : FreeRun σ μ) (count : Nat) :
    (∃ tasks last, Goes interpreter run tasks last ∧ last.IsOver ∧ tasks.length ≤ count) ∨
      ∃ tasks last task, Goes interpreter run tasks last ∧ last.Awaits task ∧
        tasks.length = count := by
  induction count with
  | zero =>
    obtain ⟨settled, hgoes, hover | ⟨task, hawaits⟩⟩ := exists_settled interpreter run
    · exact .inl ⟨[], settled, hgoes, hover, Nat.le_refl 0⟩
    · exact .inr ⟨[], settled, task, hgoes, hawaits, rfl⟩
  | succ count ih =>
    rcases ih with ⟨tasks, last, hgoes, hover, hle⟩ | ⟨tasks, last, task, hgoes, hawaits, hlength⟩
    · exact .inl ⟨tasks, last, hgoes, hover, Nat.le_succ_of_le hle⟩
    · obtain ⟨next, hstep⟩ := hawaits.exists_step interpreter
      obtain ⟨settled, hsilent, hsettled⟩ := exists_settled interpreter next
      have hmore : Goes interpreter run (tasks ++ [task]) settled :=
        hgoes.trans (.step hstep hsilent)
      have hcount : (tasks ++ [task]).length = count + 1 := by
        rw [List.length_append, List.length_singleton, hlength]
      rcases hsettled with hover | ⟨task', hawaits'⟩
      · exact .inl ⟨_, settled, hmore, hover, Nat.le_of_eq hcount⟩
      · exact .inr ⟨_, settled, task', hmore, hawaits', hcount⟩

end Steps

/-! ## With fuel -/

/-- What comes of commands. -/
structure Outcome (σ μ : Type) where
  /-- How the commands ended. -/
  told : List (Except Halt Bool)
  /-- The tasks that were taken out, in order. -/
  tasks : List Task
  /-- What the session is in the end. -/
  session : Session σ μ

/-- The tasks that were taken out. -/
def begunTasks (done : List Deed) : List Task := done.filterMap Deed.task?

/-- What comes of commands that are carried out one after the other. -/
def Outcome.ofCommands (interpreter : Interpreter μ) (told : List (Except Halt Bool))
    (commands : List (Command × Tracer σ)) (session : Session σ μ) : Outcome σ μ where
  told := told ++ answers interpreter commands session
  tasks := begunTasks (deeds interpreter commands session)
  session := after interpreter commands session

/-- The same when the first one is under way. -/
def Outcome.ofParts (interpreter : Interpreter μ) (told : List (Except Halt Bool))
    (parts : List Part) (tracer : Tracer σ) (later : List (Command × Tracer σ))
    (session : Session σ μ) : Outcome σ μ :=
  let result := callAll interpreter tracer parts session
  let left := leaves (callAll interpreter tracer parts) session
  { told := told ++ answer result :: answers interpreter later left
    tasks := begunTasks
      (deedsOfParts interpreter tracer parts session ++ deeds interpreter later left)
    session := after interpreter later left }

/-- What comes of the rest of a run with so much fuel. -/
def finish (interpreter : Interpreter μ) (run : FreeRun σ μ) (fuel limit : Nat) : Outcome σ μ :=
  match run.current with
  | none => .ofCommands interpreter run.told run.later (run.session.refuelled fuel limit)
  | some (parts, tracer) =>
    .ofParts interpreter run.told parts tracer run.later (run.session.refuelled fuel limit)

/-- The same after some tasks. -/
def Outcome.afterTasks (tasks : List Task) (outcome : Outcome σ μ) : Outcome σ μ :=
  { outcome with tasks := tasks ++ outcome.tasks }

section Finish

variable {interpreter : Interpreter μ} {tracer : Tracer σ} {session next last : Session σ μ}
  {told : List (Except Halt Bool)} {part : Part} {parts : List Part}
  {later : List (Command × Tracer σ)} {halt : Halt}

theorem ofCommands_cons (command : Command) :
    Outcome.ofCommands interpreter told ((command, tracer) :: later) session
      = .ofParts interpreter told command.parts tracer later session := by
  rw [Outcome.ofCommands, Outcome.ofParts, answers, deeds, after_cons, Command.call_eq]

/-- A part that comes to its end is followed by the next one. -/
theorem ofParts_of_ok (hrun : part.call interpreter tracer session = .ok () next) :
    Outcome.ofParts interpreter told (part :: parts) tracer later session
      = (Outcome.ofParts interpreter told parts tracer later next).afterTasks
        (begunTasks (part.deeds interpreter tracer session)) := by
  have hcall : callAll interpreter tracer (part :: parts) session
      = callAll interpreter tracer parts next := bind_ok hrun rfl
  have hleaves : leaves (callAll interpreter tracer (part :: parts)) session
      = leaves (callAll interpreter tracer parts) next := by
    rw [leaves, leaves, hcall]
  rw [Outcome.ofParts, Outcome.ofParts, Outcome.afterTasks, hcall, hleaves, deedsOfParts, hrun]
  simp only [begunTasks, List.append_assoc, List.filterMap_append]

/-- A part that fails is the end of its command. -/
theorem ofParts_of_error (hrun : part.call interpreter tracer session = .error halt last) :
    Outcome.ofParts interpreter told (part :: parts) tracer later session
      = (Outcome.ofCommands interpreter (told ++ [.error halt]) later last).afterTasks
        (begunTasks (part.deeds interpreter tracer session)) := by
  have hcall : callAll interpreter tracer (part :: parts) session = .error halt last :=
    bind_error hrun
  rw [Outcome.ofParts, Outcome.ofCommands, Outcome.afterTasks, leaves_of_error hcall, hcall,
    deedsOfParts, hrun]
  simp only [answer, begunTasks, List.append_nil, List.filterMap_append, List.append_assoc,
    List.singleton_append]

/-- When a part starts to be carried out from further on, only what was done before is missing. -/
theorem ofParts_of_eq {done : List Deed}
    (hcall : part.call interpreter tracer session = part.call interpreter tracer next)
    (hdeeds : part.deeds interpreter tracer session
      = done ++ part.deeds interpreter tracer next) :
    Outcome.ofParts interpreter told (part :: parts) tracer later session
      = (Outcome.ofParts interpreter told (part :: parts) tracer later next).afterTasks
        (begunTasks done) := by
  cases hrun : part.call interpreter tracer next with
  | ok _ last =>
    rw [ofParts_of_ok hrun, ofParts_of_ok (hcall.trans hrun), hdeeds]
    simp only [Outcome.afterTasks, begunTasks, List.filterMap_append, List.append_assoc]
  | error halt last =>
    rw [ofParts_of_error hrun, ofParts_of_error (hcall.trans hrun), hdeeds]
    simp only [Outcome.afterTasks, begunTasks, List.filterMap_append, List.append_assoc]

/-- When its last part was carried out, a command ends. -/
theorem ofParts_nil : Outcome.ofParts interpreter told [] tracer later session
    = .ofCommands interpreter (told ++ [.ok session.isAccepted]) later session := by
  rw [Outcome.ofParts, Outcome.ofCommands, List.append_assoc]
  rfl

theorem afterTasks_nil (outcome : Outcome σ μ) : outcome.afterTasks [] = outcome := rfl

/-- To open a generation takes no fuel. -/
theorem advance_refuelled {symbol : Option Char} (fuel limit : Nat) :
    Session.advance interpreter tracer symbol (session.refuelled fuel limit)
      = mapSession (refuelled fuel limit) (Session.advance interpreter tracer symbol session) :=
  commutes_advance (showsWorld_refuelled fuel limit) (commutes_perform_refuelled fuel limit _)
    symbol session

/-- What becomes of a task does not depend on the fuel that is left. -/
theorem runTask_refuelled {task : Task} (fuel limit : Nat) :
    runTask interpreter tracer task (session.refuelled fuel limit)
      = mapSession (refuelled fuel limit) (runTask interpreter tracer task session) :=
  commutes_perform_refuelled fuel limit _ session

/-- To take a task out takes a unit of fuel. -/
theorem takeTask_refuelled {task : Task} {queue : Scheduler}
    (hdequeue : session.scheduler.dequeue? = some (task, queue)) (fuel limit : Nat) :
    takeTask (session.refuelled (fuel + 1) limit)
      = .ok (some task) ((session.without queue).refuelled fuel limit) := by
  have hdequeue : (session.refuelled (fuel + 1) limit).scheduler.dequeue? = some (task, queue) :=
    hdequeue
  exact takeTask_of_some hdequeue rfl

end Finish

section Fuel

variable {interpreter : Interpreter μ} {run next last : FreeRun σ μ} {tasks : List Task}

/-- A step in which no task is begun takes no fuel. -/
theorem Step.finish_of_none (h : Step interpreter run none next) (fuel limit : Nat) :
    run.finish interpreter fuel limit = next.finish interpreter fuel limit := by
  -- None of these steps asks for fuel, so there is as much of it as before.
  cases h with
  | call session told command tracer later => exact ofCommands_cons command
  | answer session told tracer later => exact ofParts_nil
  | @advance session next symbol tracer told parts later hrun =>
    have hadvance : Session.advance interpreter tracer symbol (session.refuelled fuel limit)
        = .ok () (next.refuelled fuel limit) := by
      rw [advance_refuelled, hrun]
      rfl
    have hpart : (Part.advance symbol).call interpreter tracer (session.refuelled fuel limit)
        = .ok () (next.refuelled fuel limit) := hadvance
    refine (ofParts_of_ok hpart).trans ?_
    rw [Part.deeds, hadvance]
    rfl
  | @refuse session last symbol tracer halt told parts later hrun =>
    have hadvance : Session.advance interpreter tracer symbol (session.refuelled fuel limit)
        = .error halt (last.refuelled fuel limit) := by
      rw [advance_refuelled, hrun]
      rfl
    have hpart : (Part.advance symbol).call interpreter tracer (session.refuelled fuel limit)
        = .error halt (last.refuelled fuel limit) := hadvance
    refine (ofParts_of_error hpart).trans ?_
    rw [Part.deeds, hadvance]
    rfl
  | @drained session told tracer parts later hnone =>
    have hnone : (session.refuelled fuel limit).scheduler.dequeue? = none := hnone
    have hpart : Part.drain.call interpreter tracer (session.refuelled fuel limit)
        = .ok () (session.refuelled fuel limit) := drain_of_none (takeTask_of_none hnone)
    refine (ofParts_of_ok hpart).trans ?_
    rw [Part.deeds, drained_of_none hnone]
    rfl

/-- A step in which a task is begun takes a unit of fuel. -/
theorem Step.finish_of_some {task : Task} (h : Step interpreter run (some task) next)
    (fuel limit : Nat) : run.finish interpreter (fuel + 1) limit
      = (next.finish interpreter fuel limit).afterTasks [task] := by
  cases h with
  | @work session next tracer _ queue told parts later hdequeue hrun =>
    have htake := takeTask_refuelled hdequeue fuel limit
    have hdone : runTask interpreter tracer task ((session.without queue).refuelled fuel limit)
        = .ok () (next.refuelled fuel limit) := by
      rw [runTask_refuelled, hrun]
      rfl
    have hpart : Part.drain.call interpreter tracer (session.refuelled (fuel + 1) limit)
        = Part.drain.call interpreter tracer (next.refuelled fuel limit) :=
      drain_of_task htake hdone rfl
    have hdeeds : Part.drain.deeds interpreter tracer (session.refuelled (fuel + 1) limit)
        = [.begun task] ++ Part.drain.deeds interpreter tracer (next.refuelled fuel limit) := by
      rw [Part.deeds, Part.deeds, drained_of_task htake hdone]
      rfl
    exact ofParts_of_eq hpart hdeeds
  | @halt session last tracer _ queue halt told parts later hdequeue hrun =>
    have htake := takeTask_refuelled hdequeue fuel limit
    have hhalt : runTask interpreter tracer task ((session.without queue).refuelled fuel limit)
        = .error halt (last.refuelled fuel limit) := by
      rw [runTask_refuelled, hrun]
      rfl
    have hpart : Part.drain.call interpreter tracer (session.refuelled (fuel + 1) limit)
        = .error halt (last.refuelled fuel limit) := drain_of_halt htake hhalt
    refine (ofParts_of_error hpart).trans ?_
    rw [Part.deeds, drained_of_halt htake hhalt]
    rfl

/-- A run goes as far as its fuel allows, and then has begun the same tasks as without a limit. -/
theorem Goes.finish (h : Goes interpreter run tasks last) (fuel limit : Nat) :
    run.finish interpreter (tasks.length + fuel) limit
      = (last.finish interpreter fuel limit).afterTasks tasks := by
  induction h with
  | refl run => rw [List.length_nil, Nat.zero_add, afterTasks_nil]
  | @step run next last task tasks hstep hgoes ih =>
    cases task with
    | none =>
      rw [Option.toList_none, List.nil_append, hstep.finish_of_none, ih]
    | some task =>
      have hlength : ((some task).toList ++ tasks).length + fuel = tasks.length + fuel + 1 := by
        rw [Option.toList_some, List.singleton_append, List.length_cons]
        omega
      rw [hlength, hstep.finish_of_some, ih]
      rfl

/-- When all commands are over, nothing comes of the rest. -/
theorem IsOver.finish (h : run.IsOver) (fuel limit : Nat) : run.finish interpreter fuel limit
    = ⟨run.told, [], run.session.refuelled fuel limit⟩ := by
  obtain ⟨session, told, current, later⟩ := run
  obtain ⟨hcurrent, hlater⟩ := h
  cases hcurrent
  cases hlater
  change Outcome.ofCommands interpreter told [] (session.refuelled fuel limit) = _
  rw [Outcome.ofCommands, answers, List.append_nil]
  rfl

/-- Without fuel the task that is awaited is not begun: the call ends with the error that says so,
and what comes later changes nothing. -/
theorem Awaits.finish {task : Task} (h : run.Awaits task) (limit : Nat) :
    (run.session.refuelled 0 limit).Stuck ∧
      run.finish interpreter 0 limit = ⟨run.told ++ .error (.error (.fuelExhausted limit))
        :: answers interpreter run.later (run.session.refuelled 0 limit), [],
        run.session.refuelled 0 limit⟩ := by
  obtain ⟨session, told, current, later⟩ := run
  obtain ⟨parts, tracer, queue, hcurrent, hdequeue⟩ := h
  cases hcurrent
  let stuck := session.refuelled 0 limit
  have hsome : stuck.scheduler.dequeue? ≠ none := by
    have hdequeue : stuck.scheduler.dequeue? = some (task, queue) := hdequeue
    rw [hdequeue]
    exact Option.some_ne_none _
  have hstuck : stuck.Stuck := ⟨rfl, fun hnil => hsome (dequeue?_eq_none.mpr hnil)⟩
  have hpart : Part.drain.call interpreter tracer stuck
      = .error (.error (.fuelExhausted limit)) stuck := drain_exhausted hsome rfl
  refine ⟨hstuck, (ofParts_of_error hpart).trans ?_⟩
  rw [hstuck.part_deeds, Outcome.ofCommands, (hstuck.after interpreter later).1,
    (hstuck.after interpreter later).2.2, List.append_assoc]
  rfl

end Fuel

end FreeRun

end Session

end Gll
