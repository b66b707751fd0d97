import Gll.Proofs.Calls
import Gll.Proofs.Remains

/-!
Calls of a user, however they end.

A user may go on after a call that has halted, and each call may have a tracer of its own. So what
is said of every session that a user can have is said of any list of `Command`s, one carried out
where the one before left off. Whatever the list, a session changes in two ways only: a generation
is opened, or a task is taken out and done. A property that both of them keep, also when they break
off, is kept by all commands (`Closed.after`), and the reasons for which the two halt are, besides
the errors, the only ones for which a command halts.
-/

set_option autoImplicit false

namespace Gll

namespace Session

variable {σ μ α β : Type}

/-! ## What is left by the parts of calls -/

section Leaving

variable {tracer : Tracer σ} {session : Session σ μ}

theorem world_leaves_act {α : Type} {action : Act α} :
    (leaves (act tracer action) session).world = leaves (action.run tracer) session.world := by
  simp only [leaves, act]
  cases action.run tracer session.world <;> rfl

theorem world_leaves_perform {routine : StateT μ Routine Unit} :
    (leaves (perform tracer routine) session).world
      = leaves ((routine.run session.store).run tracer) session.world := by
  simp only [leaves, perform]
  cases (routine.run session.store).run tracer session.world <;> rfl

theorem leaves_advance {interpreter : Interpreter μ} {symbol : Option Char} :
    leaves (advance interpreter tracer symbol) session =
      match openGeneration tracer symbol session with
      | .ok () opened =>
        if opened.scheduler.isFirstGeneration then leaves (perform tracer interpreter.seed) opened
        else opened
      | .error _ opened => opened := by
  rw [leaves, advance_eq]
  cases openGeneration tracer symbol session with
  | ok _ opened =>
    dsimp only
    by_cases hfirst : opened.scheduler.isFirstGeneration = true
    · rw [if_pos hfirst, if_pos hfirst, leaves]
    · rw [if_neg hfirst, if_neg hfirst]
  | error halt opened => rfl

/-- A generation that is opened is open also if the tracer refuses to be told. -/
theorem scheduler_leaves_openGeneration {symbol : Option Char}
    (hopen : session.scheduler.refusal? = none) :
    (leaves (openGeneration tracer symbol) session).scheduler
      = session.scheduler.advance symbol := by
  have heq : leaves (openGeneration tracer symbol) session = leaves (act tracer (do
      Act.update fun s => ((), s.advance symbol)
      Act.emit (.advance (← Act.look fun s => .ok s.current)))) session := by
    rw [leaves, openGeneration_eq, hopen]
    rfl
  rw [heq, scheduler, world_leaves_act]
  change (leaves ((Act.emit (.advance (session.scheduler.advance symbol).current)).run tracer)
    ⟨session.scheduler.advance symbol, session.world.trace⟩).scheduler = _
  exact Act.keeps_emit.leaves (P := fun s => s = session.scheduler.advance symbol) rfl

end Leaving

/-! ## Calls that stay within a property -/

/-- The call ends in a session with a property, and if it halts, for a reason that is allowed. -/
def Stays (P : Session σ μ → Prop) (allowed : Halt → Prop) (call : Call σ μ α)
    (session : Session σ μ) : Prop :=
  match call session with
  | .ok _ next => P next
  | .error halt next => P next ∧ allowed halt

/-- What is asked of the two ways in which a session changes. -/
structure Closed (interpreter : Interpreter μ) (tracer : Tracer σ) (P : Session σ μ → Prop)
    (allowed : Halt → Prop) : Prop where
  error (error : RunError) : allowed (.error error)
  advance {session : Session σ μ} (symbol : Option Char) (h : P session)
    (hopen : session.scheduler.refusal? = none) :
    Stays P allowed (Session.advance interpreter tracer symbol) session
  work {session taken : Session σ μ} {task : Task} (h : P session)
    (htake : takeTask session = .ok (some task) taken) :
    Stays P allowed (runTask interpreter tracer task) taken

section Stays

variable {P : Session σ μ → Prop} {allowed : Halt → Prop} {session : Session σ μ}

theorem Stays.leaves {call : Call σ μ α} (h : Stays P allowed call session) :
    P (leaves call session) := by
  rw [Stays] at h
  cases hrun : call session with
  | ok a next =>
    rw [hrun] at h
    rw [leaves_of_ok hrun]
    exact h
  | error halt next =>
    rw [hrun] at h
    rw [leaves_of_error hrun]
    exact h.1

theorem Stays.of_leaves {call : Call σ μ α} (h : P (Gll.leaves call session))
    (hall : ∀ halt, allowed halt) : Stays P allowed call session := by
  rw [Stays]
  cases hrun : call session with
  | ok a next => exact leaves_of_ok hrun ▸ h
  | error halt next => exact ⟨leaves_of_error hrun ▸ h, hall halt⟩

theorem Stays.bind {first : Call σ μ α} {next : α → Call σ μ β}
    (hfirst : Stays P allowed first session)
    (hnext : ∀ a between, P between → Stays P allowed (next a) between) :
    Stays P allowed (first >>= next) session := by
  rw [Stays] at hfirst
  change match EStateM.bind first next session with
    | .ok _ next => P next
    | .error halt next => P next ∧ allowed halt
  rw [EStateM.bind]
  cases hrun : first session with
  | ok a between =>
    rw [hrun] at hfirst
    exact hnext a between hfirst
  | error halt between =>
    rw [hrun] at hfirst
    exact hfirst

end Stays

/-- A task is refused only for want of fuel. -/
theorem halt_of_takeTask {session next : Session σ μ} {halt : Halt}
    (h : takeTask session = .error halt next) : halt = .error (.fuelExhausted session.limit) := by
  obtain ⟨⟨scheduler, trace⟩, store, fuel, limit⟩ := session
  simp only [takeTask] at h
  split at h
  · cases h
  · exact (EStateM.Result.error.inj h).1.symm
  · cases h

namespace Closed

variable {interpreter : Interpreter μ} {tracer : Tracer σ} {P : Session σ μ → Prop}
  {allowed : Halt → Prop} {session : Session σ μ}

/-- A generation that cannot be opened changes nothing. -/
theorem stays_advance (h : Closed interpreter tracer P allowed) (hsession : P session)
    (symbol : Option Char) :
    Stays P allowed (Session.advance interpreter tracer symbol) session := by
  cases hrefusal : session.scheduler.refusal? with
  | none => exact h.advance symbol hsession hrefusal
  | some error =>
    rw [Stays, advance_eq, openGeneration_eq, hrefusal]
    exact ⟨hsession, h.error error⟩

theorem stays_drainWith (h : Closed interpreter tracer P allowed) {fuel : Nat}
    (hsession : P session) (hfuel : session.fuel = fuel) :
    Stays P allowed (drainWith interpreter tracer fuel) session := by
  -- By induction on the fuel, of which each task takes one.
  induction fuel generalizing session with
  | zero =>
    rw [Stays, drainWith]
    cases htake : takeTask session with
    | ok task taken =>
      cases task with
      | none => exact (takeTask_eq_none htake).2 ▸ hsession
      | some task =>
        obtain ⟨_, _, _, hsucc, _⟩ := takeTask_eq_ok htake
        omega
    | error halt taken =>
      obtain rfl := takeTask_eq_error htake
      obtain rfl := halt_of_takeTask htake
      exact ⟨hsession, h.error _⟩
  | succ fuel ih =>
    rw [Stays, drainWith]
    cases htake : takeTask session with
    | ok task taken =>
      cases task with
      | none => exact (takeTask_eq_none htake).2 ▸ hsession
      | some task =>
        have hwork := h.work hsession htake
        rw [Stays] at hwork
        dsimp only
        cases hrun : runTask interpreter tracer task taken with
        | ok _ next =>
          rw [hrun] at hwork
          obtain ⟨_, _, _, hsucc, rfl⟩ := takeTask_eq_ok htake
          obtain ⟨_, _, _, rfl⟩ := perform_eq_ok hrun
          exact ih hwork (Nat.succ.inj (hsucc.symm.trans hfuel))
        | error halt next =>
          rw [hrun] at hwork
          exact hwork
    | error halt taken =>
      obtain rfl := takeTask_eq_error htake
      obtain rfl := halt_of_takeTask htake
      exact ⟨hsession, h.error _⟩

theorem stays_drain (h : Closed interpreter tracer P allowed) (hsession : P session) :
    Stays P allowed (drain interpreter tracer) session :=
  h.stays_drainWith hsession rfl

theorem stays_feed (h : Closed interpreter tracer P allowed) (hsession : P session)
    (symbol : Option Char) : Stays P allowed (feed interpreter tracer symbol) session :=
  (h.stays_advance hsession symbol).bind fun _ _ hnext => h.stays_drain hnext

theorem stays_feedAll (h : Closed interpreter tracer P allowed) (hsession : P session)
    (text : List Char) : Stays P allowed (feedAll interpreter tracer text) session := by
  induction text generalizing session with
  | nil => exact hsession
  | cons char rest ih =>
    exact (h.stays_feed hsession (some char)).bind fun _ _ hnext => ih hnext

theorem stays_parse (h : Closed interpreter tracer P allowed) (hsession : P session)
    (text : String) : Stays P allowed (parse interpreter tracer text) session :=
  (h.stays_feedAll hsession text.toList).bind fun _ _ hfed =>
    (h.stays_feed hfed none).bind fun _ _ hended => hended

end Closed

/-- A law of the scheduler is kept by all calls, however they end. -/
theorem Closed.of_law {interpreter : Interpreter μ} {P : Scheduler → Prop}
    (hP : Law interpreter.start P) (tracer : Tracer σ) :
    Closed interpreter tracer (fun session : Session σ μ => P session.scheduler)
      fun _ => True where
  error _ := trivial
  advance {session} symbol h hopen := by
    refine .of_leaves ?_ fun _ => trivial
    -- The law holds as soon as the generation is open, and the seed consists of requests, which
    -- keep it.
    have hopened : P (leaves (openGeneration tracer symbol) session).scheduler :=
      scheduler_leaves_openGeneration hopen ▸ hP.advance symbol hopen h
    rw [leaves_advance]
    cases hrun : openGeneration tracer symbol session with
    | ok _ opened =>
      rw [leaves_of_ok hrun] at hopened
      dsimp only
      split
      · rw [Session.scheduler, world_leaves_perform]
        exact Routine.leaves_keeps hP.toKept hopened
      · exact hopened
    | error halt opened => exact leaves_of_error hrun ▸ hopened
  work h htake := by
    obtain ⟨rest, fuel, hdequeue, -, rfl⟩ := takeTask_eq_ok htake
    refine .of_leaves ?_ fun _ => trivial
    rw [runTask, Session.scheduler, world_leaves_perform]
    exact Routine.leaves_keeps hP.toKept (hP.dequeue hdequeue h)

/-! ## Commands -/

/-- What a user can have a session do. -/
inductive Command where
  | advance (symbol : Option Char)
  | drain
  | feed (symbol : Option Char)
  | parse (text : String)

/-- The call of a command; that of `parse` also tells whether the input was accepted, which can be
read off the session. -/
def Command.call (interpreter : Interpreter μ) (tracer : Tracer σ) : Command → Call σ μ Unit
  | advance symbol => Session.advance interpreter tracer symbol
  | drain => Session.drain interpreter tracer
  | feed symbol => Session.feed interpreter tracer symbol
  | parse text => Session.parse interpreter tracer text >>= fun _ => pure ()

/-- A session after some commands, each with its tracer, whether they come to their ends or not. -/
def after (interpreter : Interpreter μ) (commands : List (Command × Tracer σ))
    (session : Session σ μ) : Session σ μ :=
  commands.foldl (fun session command => leaves (command.1.call interpreter command.2) session)
    session

namespace Closed

variable {interpreter : Interpreter μ} {tracer : Tracer σ} {P : Session σ μ → Prop}
  {allowed : Halt → Prop} {session : Session σ μ}

theorem stays_call (h : Closed interpreter tracer P allowed) (hsession : P session)
    (command : Command) : Stays P allowed (command.call interpreter tracer) session := by
  cases command with
  | advance symbol => exact h.stays_advance hsession symbol
  | drain => exact h.stays_drain hsession
  | feed symbol => exact h.stays_feed hsession symbol
  | parse text => exact (h.stays_parse hsession text).bind fun _ _ hnext => hnext

/-- What is kept when a generation is opened and when a task is done holds after all commands. -/
theorem after {commands : List (Command × Tracer σ)}
    (h : ∀ command ∈ commands, Closed interpreter command.2 P allowed) (hsession : P session) :
    P (Session.after interpreter commands session) := by
  induction commands generalizing session with
  | nil => exact hsession
  | cons command rest ih =>
    have hfirst := (h command List.mem_cons_self).stays_call hsession command.1
    exact ih (fun other hother => h other (List.mem_cons_of_mem _ hother)) hfirst.leaves

end Closed

end Session

end Gll
