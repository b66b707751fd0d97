import Gll.Proofs.Driving
import Gll.Proofs.Telling

/-!
What is spent and what is told.

A unit of fuel is spent when a task is taken out, and then it is reported that a slot is resumed or
that a terminal is shifted. No request reports such an event on its own account (`Routine.tells`),
and so the fuel that was spent can be read off the trace (`Sustained.balanced`). An interpreter is
free to report whatever it wants, though; what it reports itself is noted in its audit and taken
off. The interpreter of a compiled grammar reports no such event (`Program.discreet`).
-/

set_option autoImplicit false

namespace Gll

variable {α : Type}

/-- An event that tells that a task is begun. -/
def Event.isWork : Event → Bool
  | descriptor _ _ _ => true
  | shift _ _ => true
  | _ => false

theorem Event.outer_isWork : Outer isWork := by
  intro event h
  cases event with
  | descriptor => exact absurd h id
  | shift => exact absurd h id
  | _ => rfl

/-- How many events of a trace tell that a task is begun. -/
def workCount (events : Array Event) : Nat := events.countP Event.isWork

/-- How many of the events that are reported tell that a task is begun. -/
def worksTold (events : List Event) : Nat := events.countP Event.isWork

theorem worksTold_append (events more : List Event) :
    worksTold (events ++ more) = worksTold events + worksTold more :=
  List.countP_append

theorem worksTold_eq_length (events : List Event) :
    worksTold events = (events.filter Event.isWork).length :=
  List.countP_eq_length_filter

/-- What is told is counted. -/
theorem Tells.workCount {before after : Array Event} {events : List Event}
    (h : Tells Event.isWork before events after) :
    workCount after = workCount before + events.length := by
  obtain ⟨told, hafter, rfl⟩ := h
  rw [Gll.workCount, Gll.workCount, ← Array.countP_toList, hafter, List.countP_append,
    Array.countP_toList, List.countP_eq_length_filter]

/-! ## Requests -/

/-- A routine tells of as many tasks as the events that are reported in it. -/
theorem Routine.workCount_of_ok {routine : Routine α} {world next : World (Array Event)} {a : α}
    (h : routine.run .recorder world = .ok a next) : workCount next.trace
      = workCount world.trace + worksTold (routine.reported .recorder world) := by
  rw [(Routine.tells_of_ok Event.outer_isWork h).workCount, worksTold_eq_length]

/-- A request tells of no task but by the event that it is there to report. -/
theorem Operation.workCount_of_request {operation : Operation α}
    {world next : World (Array Event)} {a : α}
    (h : (Routine.request operation).run .recorder world = .ok a next) :
    workCount next.trace = workCount world.trace + worksTold operation.reports := by
  rw [(Operation.tells_of_request Event.outer_isWork h).workCount, worksTold_eq_length]

namespace Session

variable {σ μ : Type}

theorem workCount_of_shift {frame : StackId} {result : SymbolId} {world next : World (Array Event)}
    (h : (shiftRoutine frame result).run .recorder world = .ok () next) :
    workCount next.trace = workCount world.trace + 1 := by
  obtain ⟨node, looked, hlook, hrest⟩ := Plan.exists_of_run_bind h
  obtain ⟨_, noted, hnote, hpop⟩ := Plan.exists_of_run_bind hrest
  have hlooked : workCount looked.trace = workCount world.trace :=
    Operation.workCount_of_request hlook
  have hnoted : workCount noted.trace = workCount looked.trace + 1 :=
    Operation.workCount_of_request hnote
  have hpopped : workCount next.trace = workCount noted.trace :=
    Operation.workCount_of_request hpop
  omega

/-! ## Calls -/

section Balance

variable {interpreter : Interpreter μ} {session next : Session (Array Event) (μ × Audit)}

theorem workCount_of_act {action : Act α} {a : α}
    (hwithheld : action.Each (Step.Withholds Event.isWork))
    (h : act .recorder action session = .ok a next) :
    workCount next.trace = workCount session.trace := by
  obtain ⟨world, hrun, rfl⟩ := act_eq_ok h
  have htold := Act.tells hwithheld session.world
  rw [leaves_of_ok hrun] at htold
  exact htold.workCount

/-- To open a generation tells of no task. -/
theorem workCount_of_openGeneration {symbol : Option Char}
    (h : openGeneration .recorder symbol session = .ok () next) :
    workCount next.trace = workCount session.trace := by
  rw [openGeneration_eq] at h
  split at h
  · cases h
  · refine workCount_of_act ?_ h
    refine Plan.each_bind (Plan.each_request.mpr trivial) fun _ => ?_
    exact Plan.each_bind (Plan.each_request.mpr trivial) fun _ => Plan.each_request.mpr rfl

/-- The fuel that was spent is what the trace tells of, less what the interpreter told itself. -/
def Balanced (limit : Nat) (session : Session (Array Event) (μ × Audit)) : Prop :=
  workCount session.trace + session.fuel = limit + worksTold session.store.2.reports

/-- What the interpreter does while it is watched changes both in the same way. -/
theorem workCount_of_watch {seeds : Nat} {routine : StateT μ Routine Unit}
    (h : perform .recorder (Interpreter.watch seeds routine) session = .ok () next) :
    workCount next.trace + worksTold session.store.2.reports
      = workCount session.trace + worksTold next.store.2.reports := by
  have haudit := audit_of_watch h
  rw [perform_watch] at h
  split at h
  · rename_i store world hrun
    obtain ⟨-, rfl⟩ := EStateM.Result.ok.inj h
    have hcount : workCount world.trace = _ := Routine.workCount_of_ok hrun
    rw [haudit, worksTold_append]
    change workCount world.trace + _ = workCount session.world.trace + _
    omega
  · cases h

/-- A task is told of once. -/
theorem workCount_of_runTask {task : Task}
    (h : runTask interpreter.audited .recorder task session = .ok () next) :
    workCount next.trace + worksTold session.store.2.reports
      = workCount session.trace + 1 + worksTold next.store.2.reports := by
  -- To resume is told of before the slot is run, and to shift by the shift itself.
  cases task with
  | resume label caller stem =>
    rw [runTask_resume] at h
    obtain ⟨_, noted, hnote, hexecute⟩ := exists_of_bind_ok h
    have hnoted : workCount noted.trace = workCount session.trace + 1 := by
      obtain ⟨world, hrun, rfl⟩ := act_eq_ok hnote
      obtain ⟨-, rfl⟩ := EStateM.Result.ok.inj hrun
      exact (Tells.push session.trace _).workCount
    have hexecuted := workCount_of_watch hexecute
    rw [store_of_act hnote] at hexecuted
    omega
  | shift frame result =>
    have hstore := store_of_shift h
    rw [runTask_shift] at h
    obtain ⟨store, world, hrun, rfl⟩ := perform_eq_ok h
    obtain ⟨_, between, hshift, hdone⟩ := Plan.exists_of_run_bind hrun
    obtain ⟨-, rfl⟩ := EStateM.Result.ok.inj hdone
    have hcount : workCount between.trace = workCount session.trace + 1 :=
      workCount_of_shift hshift
    rw [hstore]
    exact congrArg (· + worksTold session.store.2.reports) hcount

/-- What is spent is told. -/
theorem Sustained.balanced (interpreter : Interpreter μ) (limit : Nat) :
    Sustained interpreter.audited .recorder fun _ session => Balanced limit session where
  -- No task is begun when a generation is opened, so no fuel is spent.
  advance {done session next symbol} h hrun := by
    obtain ⟨opened, hopen, hrest⟩ := advance_eq_ok hrun
    obtain ⟨-, -, hstore, hfuel⟩ := openGeneration_eq_ok hopen
    have hopened : Balanced limit opened := by
      rw [Balanced, workCount_of_openGeneration hopen, hstore, hfuel]
      exact h
    split at hrest
    · have hseeded := workCount_of_watch hrest
      have hkept := (perform_refuelled hrest).1
      rw [Balanced] at hopened ⊢
      omega
    · rw [hrest]
      exact hopened
  work {done session taken next task} h htake hrun := by
    have htold := workCount_of_runTask hrun
    have hkept := (perform_refuelled hrun).1
    obtain ⟨rest, fuel, -, hfuel, rfl⟩ := takeTask_eq_ok htake
    have hspent : next.fuel + 1 = session.fuel := by
      rw [hkept, hfuel]
    have htold : workCount next.trace + worksTold session.store.2.reports
        = workCount session.trace + 1 + worksTold next.store.2.reports := htold
    rw [Balanced] at h ⊢
    omega

end Balance

end Session

/-! ## Interpreters that keep to themselves -/

/-- A routine in which it is not reported that a task is begun. -/
def Routine.Discreet (routine : Routine α) : Prop :=
  routine.Each fun operation => ∀ event ∈ operation.reports, event.isWork = false

/-- An interpreter that leaves it to the engine to report that a task is begun. -/
structure Interpreter.Discreet {μ : Type} (interpreter : Interpreter μ) : Prop where
  seed (store : μ) : Routine.Discreet (interpreter.seed.run store)
  execute (label : Label) (caller : StackId) (stem : PrefixId) (store : μ) :
    Routine.Discreet ((interpreter.execute label caller stem).run store)

theorem Routine.Discreet.reported {σ : Type} {routine : Routine α} (h : routine.Discreet)
    (tracer : Tracer σ) (world : World σ) : worksTold (routine.reported tracer world) = 0 := by
  have hwithheld : routine.Withholds Event.isWork := h
  rw [worksTold_eq_length, hwithheld.reported, List.length_nil]

/-- The audit of an interpreter that keeps to itself has no such report. -/
theorem Session.Sustained.discreet {σ μ : Type} {interpreter : Interpreter μ}
    (h : interpreter.Discreet) (tracer : Tracer σ) :
    Session.Sustained interpreter.audited tracer fun _ session =>
      worksTold session.store.2.reports = 0 where
  advance {done session next symbol} hsession hrun := by
    obtain ⟨opened, hopen, hrest⟩ := Session.advance_eq_ok hrun
    obtain ⟨-, -, hstore, -⟩ := Session.openGeneration_eq_ok hopen
    split at hrest
    · rw [Session.audit_of_watch hrest, worksTold_append, (h.seed _).reported, hstore]
      exact hsession
    · rw [hrest, hstore]
      exact hsession
  work {done session taken next task} hsession htake hrun := by
    obtain ⟨rest, fuel, -, -, rfl⟩ := Session.takeTask_eq_ok htake
    cases task with
    | resume label caller stem =>
      rw [Session.runTask_resume] at hrun
      obtain ⟨_, noted, hnote, hexecute⟩ := Session.exists_of_bind_ok hrun
      rw [Session.audit_of_watch hexecute, worksTold_append, (h.execute _ _ _ _).reported,
        Session.store_of_act hnote]
      exact hsession
    | shift frame result =>
      rw [Session.store_of_shift hrun]
      exact hsession

namespace Program

theorem discreet_execute (program : Program) (label : Label) (caller : StackId)
    (stem : PrefixId) : (program.execute label caller stem).Discreet := by
  rw [execute]
  split
  · exact withholds_request rfl
  · split
    · exact withholds_executeAccept fun _ => rfl
    · exact withholds_executeTerminal (fun _ _ _ => rfl) _
    · exact withholds_executeCall _
    · exact withholds_executeComplete _

/-- The interpreter of a compiled grammar keeps to itself. -/
theorem discreet (program : Program) : program.interpreter.Discreet where
  seed _ := Plan.each_bind program.withholds_seed fun _ => trivial
  execute label caller stem _ :=
    Plan.each_bind (program.discreet_execute label caller stem) fun _ => trivial

end Program

end Gll
