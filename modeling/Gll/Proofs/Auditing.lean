import Gll.Proofs.Checked
import Gll.Proofs.Deeds

/-!
Interpreters that are watched.

How often a parse is seeded, and what an interpreter reports on its own account, does not show in a
session. So an interpreter is given a second store, in which it notes both
(`Interpreter.audited`). That changes nothing else: what a call does with the interpreter that is
watched, with the notes left out of the session, it does with the interpreter itself
(`Session.call_unaudited`), so the notes tell of the interpreter itself.

Leaving the notes out is a special case of looking at sessions in some way that parts of a call do
not notice; to look past the amount of fuel is another (`Session.Commutes`).
-/

set_option autoImplicit false

namespace Gll

namespace Session

variable {σ μ μ' α β : Type}

/-! ## Ways to look at sessions -/

/-- What comes of a call, with the session looked at in some way. -/
def mapSession (view : Session σ μ → Session σ μ') :
    EStateM.Result Halt (Session σ μ) α → EStateM.Result Halt (Session σ μ') α
  | .ok a session => .ok a (view session)
  | .error halt session => .error halt (view session)

/-- Whether a session is looked at before the one call or after the other makes no difference. -/
def Commutes (view : Session σ μ → Session σ μ') (call : Call σ μ α) (call' : Call σ μ' α) : Prop :=
  ∀ session, call' (view session) = mapSession view (call session)

/-- A way to look at sessions that shows all of the world. -/
structure ShowsWorld (view : Session σ μ → Session σ μ') : Prop where
  world (session : Session σ μ) : (view session).world = session.world
  update (session : Session σ μ) (world : World σ) :
    view { session with world } = { view session with world }

section Commutes

variable {view : Session σ μ → Session σ μ'} {interpreter : Interpreter μ}
  {interpreter' : Interpreter μ'} {tracer : Tracer σ}

theorem commutes_pure (a : α) : Commutes view (pure a) (pure a) := fun _ => rfl

theorem commutes_throw (halt : Halt) : Commutes (α := α) view (throw halt) (throw halt) :=
  fun _ => rfl

theorem Commutes.bind {first : Call σ μ α} {first' : Call σ μ' α} {rest : α → Call σ μ β}
    {rest' : α → Call σ μ' β} (hfirst : Commutes view first first')
    (hrest : ∀ a, Commutes view (rest a) (rest' a)) :
    Commutes view (first >>= rest) (first' >>= rest') := by
  intro session
  have hview := hfirst session
  cases hrun : first session with
  | ok a next =>
    rw [hrun] at hview
    rw [bind_ok hview rfl, bind_ok hrun rfl]
    exact hrest a next
  | error halt last =>
    rw [hrun] at hview
    rw [bind_error hview, bind_error hrun]
    rfl

theorem Commutes.leaves {call : Call σ μ α} {call' : Call σ μ' α} (h : Commutes view call call')
    (session : Session σ μ) : Gll.leaves call' (view session) = view (Gll.leaves call session) := by
  have hview := h session
  cases hrun : call session with
  | ok a next =>
    rw [hrun] at hview
    rw [leaves_of_ok hview, leaves_of_ok hrun]
  | error halt last =>
    rw [hrun] at hview
    rw [leaves_of_error hview, leaves_of_error hrun]

variable (hview : ShowsWorld view)
include hview

theorem commutes_act (action : Act α) : Commutes view (act tracer action) (act tracer action) := by
  intro session
  rw [act, act, hview.world]
  cases action.run tracer session.world with
  | ok value world => exact congrArg (EStateM.Result.ok value) (hview.update session world).symm
  | error fault world =>
    exact congrArg (EStateM.Result.error (Halt.fault fault)) (hview.update session world).symm

theorem commutes_openGeneration (symbol : Option Char) :
    Commutes view (openGeneration tracer symbol) (openGeneration tracer symbol) := by
  refine (commutes_act hview _).bind fun refusal => ?_
  cases refusal with
  | none => exact commutes_act hview _
  | some error => exact commutes_throw _

theorem commutes_advance
    (hseed : Commutes view (perform tracer interpreter.seed) (perform tracer interpreter'.seed))
    (symbol : Option Char) :
    Commutes view (advance interpreter tracer symbol) (advance interpreter' tracer symbol) := by
  refine (commutes_openGeneration hview symbol).bind fun _ => (commutes_act hview _).bind fun
    isFirst => ?_
  cases isFirst with
  | true => exact hseed
  | false => exact commutes_pure ()

omit hview

/-- Fuel does not show in what a routine does. -/
theorem showsWorld_refuelled (fuel limit : Nat) :
    ShowsWorld (refuelled fuel limit : Session σ μ → Session σ μ) :=
  ⟨fun _ => rfl, fun _ _ => rfl⟩

theorem commutes_perform_refuelled (fuel limit : Nat) (routine : StateT μ Routine Unit) :
    Commutes (refuelled fuel limit) (perform tracer routine) (perform tracer routine) := by
  intro session
  have hworld : (session.refuelled fuel limit).world = session.world := rfl
  have hstore : (session.refuelled fuel limit).store = session.store := rfl
  rw [perform, perform, hworld, hstore]
  cases (routine.run session.store).run tracer session.world <;> rfl

end Commutes

end Session

/-! ## The audit -/

/-- What is noted of an interpreter: how often it seeded a parse, and the events that it reported
itself. -/
structure Audit where
  seeds : Nat
  reports : List Event

/-- An audit in which nothing was noted. -/
def Audit.blank : Audit := ⟨0, []⟩

namespace Routine

variable {σ α : Type}

/-- A routine that also tells what it reported. -/
def tallied : Routine α → Routine (α × List Event)
  | .done value => .done (value, [])
  | .ask request next => .ask request fun answer =>
    (tallied (next answer)).andThen fun (value, events) => .done (value, request.reports ++ events)

/-- The events that a routine reports while it is carried out. -/
def reported (tracer : Tracer σ) (routine : Routine α) : World σ → List Event :=
  routine.account (Operation.run tracer) fun operation _ => operation.reports

/-- Telling what was reported changes nothing. -/
theorem run_tallied (tracer : Tracer σ) (routine : Routine α) (world : World σ) :
    routine.tallied.run tracer world =
      match routine.run tracer world with
      | .ok value next => .ok (value, routine.reported tracer world) next
      | .error fault last => .error fault last := by
  rw [run, run]
  induction routine generalizing world with
  | done value => rfl
  | ask request next ih =>
    simp only [tallied, Plan.run, reported, Plan.account]
    cases Operation.run tracer request world with
    | error fault last => rfl
    | ok answer between =>
      dsimp only
      refine (Plan.run_bind (tallied (next answer))
        (fun (value, events) => Plan.done (value, request.reports ++ events)) between).trans ?_
      rw [ih]
      cases Plan.run (Operation.run tracer) (next answer) between <;> rfl

end Routine

namespace Interpreter

variable {μ : Type}

/-- A routine of an interpreter that is watched; it seeds a parse so many times. -/
def watch (seeds : Nat) (routine : StateT μ Routine Unit) : StateT (μ × Audit) Routine Unit :=
  fun (store, audit) => do
    let (((), store), events) ← Routine.tallied (routine.run store)
    return ((), (store, ⟨audit.seeds + seeds, audit.reports ++ events⟩))

/-- The interpreter, with notes on what it does. -/
def audited (interpreter : Interpreter μ) : Interpreter (μ × Audit) where
  start := interpreter.start
  seed := watch 1 interpreter.seed
  execute label caller stem := watch 0 (interpreter.execute label caller stem)

end Interpreter

namespace Session

variable {σ μ : Type} {interpreter : Interpreter μ} {tracer : Tracer σ}

/-- A session without the notes on the interpreter. -/
def unaudited (session : Session σ (μ × Audit)) : Session σ μ :=
  ⟨session.world, session.store.1, session.fuel, session.limit⟩

theorem showsWorld_unaudited : ShowsWorld (unaudited : Session σ (μ × Audit) → Session σ μ) :=
  ⟨fun _ => rfl, fun _ _ => rfl⟩

/-- What comes of a routine of an interpreter that is watched. -/
theorem perform_watch (seeds : Nat) (routine : StateT μ Routine Unit)
    (session : Session σ (μ × Audit)) :
    perform tracer (Interpreter.watch seeds routine) session =
      match (routine.run session.store.1).run tracer session.world with
      | .ok ((), store) world => .ok () { session with
          world
          store := (store, ⟨session.store.2.seeds + seeds, session.store.2.reports
            ++ Routine.reported tracer (routine.run session.store.1) session.world⟩) }
      | .error fault world => .error (.fault fault) { session with world } := by
  have hwatch : ((Interpreter.watch seeds routine).run session.store).run tracer session.world
      = _ := Plan.run_bind (Routine.tallied (routine.run session.store.1)) _ session.world
  have htallied := Routine.run_tallied tracer (routine.run session.store.1) session.world
  rw [Routine.run] at htallied
  rw [perform, hwatch, htallied]
  cases (routine.run session.store.1).run tracer session.world <;> rfl

/-! ## Calls without the notes -/

/-- To resume a slot is to report that it is resumed and to run its code. -/
theorem runTask_resume (label : Label) (caller : StackId) (stem : PrefixId) :
    runTask interpreter tracer (.resume label caller stem) =
      act tracer (Act.emit (.descriptor label caller stem)) >>= fun _ =>
        perform tracer (interpreter.execute label caller stem) := by
  funext session
  have hplan : (interpreter.routine (.resume label caller stem)).run session.store
      = Plan.ask (.note (.descriptor label caller stem))
        fun _ => (interpreter.execute label caller stem).run session.store := rfl
  have hnote : Operation.run tracer (.note (.descriptor label caller stem)) session.world
      = (Act.emit (.descriptor label caller stem)).run tracer session.world := rfl
  change _ = EStateM.bind _ _ session
  rw [runTask, perform, hplan, Routine.run, Plan.run, hnote, EStateM.bind, act]
  cases (Act.emit (.descriptor label caller stem)).run tracer session.world <;> rfl

/-- What is done to shift a terminal. It does not depend on the interpreter. -/
def shiftRoutine (frame : StackId) (result : SymbolId) : Routine Unit := do
  let node ← Routine.look fun s => s.forest.symbolNode result
  Routine.note (.shift frame node.first)
  Routine.pop frame result

theorem runTask_shift (frame : StackId) (result : SymbolId) :
    runTask interpreter tracer (.shift frame result)
      = perform tracer (StateT.lift (shiftRoutine frame result)) :=
  rfl

theorem commutes_watch (seeds : Nat) (routine : StateT μ Routine Unit) :
    Commutes unaudited (perform tracer (Interpreter.watch seeds routine))
      (perform tracer routine) := by
  intro session
  have hworld : session.unaudited.world = session.world := rfl
  have hstore : session.unaudited.store = session.store.1 := rfl
  rw [perform_watch, perform, hworld, hstore]
  cases (routine.run session.store.1).run tracer session.world <;> rfl

/-- What does not concern the interpreter leaves its store alone. -/
theorem commutes_perform_lift (routine : Routine Unit) :
    Commutes unaudited (perform tracer (StateT.lift routine) : Call σ (μ × Audit) Unit)
      (perform tracer (StateT.lift routine)) := by
  intro session
  have hrun : ((StateT.lift routine : StateT (μ × Audit) Routine Unit).run session.store).run tracer
      session.world = _ := Plan.run_bind routine _ session.world
  have hrun' : ((StateT.lift routine : StateT μ Routine Unit).run session.unaudited.store).run
      tracer session.unaudited.world = _ := Plan.run_bind routine _ session.world
  rw [perform, perform, hrun, hrun']
  cases Plan.run (Operation.run tracer) routine session.world <;> rfl

theorem commutes_runTask (task : Task) :
    Commutes unaudited (runTask interpreter.audited tracer task)
      (runTask interpreter tracer task) := by
  cases task with
  | resume label caller stem =>
    rw [runTask_resume, runTask_resume]
    exact (commutes_act showsWorld_unaudited _).bind fun _ => commutes_watch 0 _
  | shift frame result =>
    rw [runTask_shift, runTask_shift]
    exact commutes_perform_lift _

theorem commutes_takeTask :
    Commutes unaudited (takeTask : Call σ (μ × Audit) (Option Task)) takeTask := by
  intro session
  cases hdequeue : session.scheduler.dequeue? with
  | none =>
    have hdequeue' : session.unaudited.scheduler.dequeue? = none := hdequeue
    rw [takeTask_of_none hdequeue, takeTask_of_none hdequeue']
    rfl
  | some dequeued =>
    obtain ⟨task, rest⟩ := dequeued
    have hdequeue' : session.unaudited.scheduler.dequeue? = some (task, rest) := hdequeue
    cases hfuel : session.fuel with
    | zero =>
      have hfuel' : session.unaudited.fuel = 0 := hfuel
      rw [takeTask_exhausted (hdequeue ▸ Option.some_ne_none _) hfuel,
        takeTask_exhausted (hdequeue' ▸ Option.some_ne_none _) hfuel']
      rfl
    | succ fuel =>
      have hfuel' : session.unaudited.fuel = fuel + 1 := hfuel
      rw [takeTask_of_some hdequeue hfuel, takeTask_of_some hdequeue' hfuel']
      rfl

theorem commutes_drainWith (fuel : Nat) :
    Commutes unaudited (drainWith interpreter.audited tracer fuel)
      (drainWith interpreter tracer fuel) := by
  induction fuel with
  | zero =>
    intro session
    rw [drainWith, drainWith, commutes_takeTask session]
    cases takeTask session <;> rfl
  | succ fuel ih =>
    intro session
    rw [drainWith, drainWith, commutes_takeTask session]
    cases takeTask session with
    | error halt last => rfl
    | ok task taken =>
      cases task with
      | none => rfl
      | some task =>
        simp only [mapSession]
        rw [commutes_runTask task taken]
        cases runTask interpreter.audited tracer task taken with
        | error halt last => rfl
        | ok _ next => exact ih next

theorem commutes_drain :
    Commutes unaudited (drain interpreter.audited tracer) (drain interpreter tracer) :=
  fun session => commutes_drainWith session.fuel session

theorem commutes_callAll (parts : List Part) :
    Commutes unaudited (callAll interpreter.audited tracer parts)
      (callAll interpreter tracer parts) := by
  induction parts with
  | nil => exact commutes_pure ()
  | cons part rest ih =>
    refine Commutes.bind ?_ fun _ => ih
    cases part with
    | advance symbol =>
      exact commutes_advance showsWorld_unaudited (commutes_watch 1 interpreter.seed) symbol
    | drain => exact commutes_drain

/-- A call does the same whether its interpreter is watched or not. -/
theorem call_unaudited (command : Command) :
    Commutes unaudited (command.call interpreter.audited tracer)
      (command.call interpreter tracer) := by
  rw [Command.call_eq, Command.call_eq]
  exact commutes_callAll command.parts

theorem after_unaudited (commands : List (Command × Tracer σ)) (session : Session σ (μ × Audit)) :
    (after interpreter.audited commands session).unaudited
      = after interpreter commands session.unaudited := by
  induction commands generalizing session with
  | nil => rfl
  | cons command rest ih =>
    rw [after_cons, after_cons, ih, (call_unaudited command.1).leaves session]

theorem answers_unaudited (commands : List (Command × Tracer σ))
    (session : Session σ (μ × Audit)) :
    answers interpreter commands session.unaudited
      = answers interpreter.audited commands session := by
  induction commands generalizing session with
  | nil => rfl
  | cons command rest ih =>
    rw [answers, answers, (call_unaudited command.1).leaves session, ih,
      call_unaudited command.1 session]
    cases command.1.call interpreter.audited command.2 session <;> rfl

/-- If no call breaks off, none does while the interpreter is watched. -/
theorem unbroken_audited {commands : List (Command × Tracer σ)}
    {session : Session σ (μ × Audit)} (h : Unbroken interpreter commands session.unaudited) :
    Unbroken interpreter.audited commands session := by
  intro fault hmem
  rw [← answers_unaudited] at hmem
  exact h fault hmem

end Session

end Gll
