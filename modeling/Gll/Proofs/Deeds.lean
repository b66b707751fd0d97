import Gll.Proofs.Metering

/-!
What calls do, in order.

Every command opens generations and drains them, in an order that can be told beforehand
(`Command.parts`), and stops where one of these parts fails. So whatever a user has a session do
comes down to two kinds of deeds: a generation that was opened, and a task that was taken out and
begun (`Session.deeds`). What is said of a session and of what was done in it, and holds again after
every generation that is opened and every task that is done, holds after all commands
(`Sustained.after`), as long as no call breaks off; refusals and exhausted fuel change nothing.
-/

set_option autoImplicit false

namespace Gll

namespace Session

variable {σ μ α : Type}

/-- A part of a command. -/
inductive Part where
  | advance (symbol : Option Char)
  | drain
deriving DecidableEq

/-- The call of a part. -/
def Part.call (interpreter : Interpreter μ) (tracer : Tracer σ) : Part → Call σ μ Unit
  | advance symbol => Session.advance interpreter tracer symbol
  | drain => Session.drain interpreter tracer

/-- One part after the other. -/
def callAll (interpreter : Interpreter μ) (tracer : Tracer σ) : List Part → Call σ μ Unit
  | [] => pure ()
  | part :: rest => do
    part.call interpreter tracer
    callAll interpreter tracer rest

/-- The parts of a call that feeds symbols. -/
def partsOfFeeds (symbols : List (Option Char)) : List Part :=
  symbols.flatMap fun symbol => [.advance symbol, .drain]

/-- The parts of a command. -/
def Command.parts : Command → List Part
  | advance symbol => [.advance symbol]
  | drain => [.drain]
  | feed symbol => partsOfFeeds [symbol]
  | parse text => partsOfFeeds (text.toList.map some ++ [none])

section Parts

variable {interpreter : Interpreter μ} {tracer : Tracer σ}

theorem callAll_append (first second : List Part) :
    callAll interpreter tracer (first ++ second)
      = callAll interpreter tracer first >>= fun _ => callAll interpreter tracer second := by
  induction first with
  | nil => rfl
  | cons part rest ih =>
    rw [List.cons_append, callAll, callAll, ih, bind_assoc]

theorem callAll_feed (symbol : Option Char) :
    callAll interpreter tracer (partsOfFeeds [symbol]) = feed interpreter tracer symbol := by
  change (Session.advance interpreter tracer symbol >>= fun _ =>
    Session.drain interpreter tracer >>= fun _ => pure ()) = _
  rw [bind_pure_unit]
  rfl

theorem callAll_feeds (text : List Char) :
    callAll interpreter tracer (partsOfFeeds (text.map some))
      = feedAll interpreter tracer text := by
  induction text with
  | nil => rfl
  | cons char rest ih =>
    have hparts : partsOfFeeds ((char :: rest).map some)
        = partsOfFeeds [some char] ++ partsOfFeeds (rest.map some) := rfl
    rw [hparts, callAll_append, callAll_feed, ih]
    rfl

/-- A command is carried out part by part. -/
theorem Command.call_eq (command : Command) :
    command.call interpreter tracer = callAll interpreter tracer command.parts := by
  cases command with
  | advance symbol => exact bind_pure_unit.symm
  | drain => exact bind_pure_unit.symm
  | feed symbol => exact (callAll_feed symbol).symm
  | parse text =>
    have hparts : (Command.parse text).parts
        = partsOfFeeds (text.toList.map some) ++ partsOfFeeds [none] :=
      List.flatMap_append
    have hget : (get >>= fun _ => pure () : Call σ μ Unit) = pure () := rfl
    rw [hparts, callAll_append, callAll_feed, callAll_feeds, Command.call, Session.parse]
    simp only [bind_assoc, pure_bind]
    rw [hget, bind_pure_unit]

theorem after_cons (command : Command × Tracer σ) (commands : List (Command × Tracer σ))
    (session : Session σ μ) : after interpreter (command :: commands) session
      = after interpreter commands (leaves (command.1.call interpreter command.2) session) :=
  rfl

end Parts

/-! ## Draining, task by task -/

section Draining

variable {interpreter : Interpreter μ} {tracer : Tracer σ} {session taken next : Session σ μ}
  {task : Task} {halt : Halt}

theorem drain_of_halt (htake : takeTask session = .ok (some task) taken)
    (hrun : runTask interpreter tracer task taken = .error halt next) :
    drain interpreter tracer session = .error halt next := by
  obtain ⟨rest, fuel, hdequeue, hfuel, rfl⟩ := takeTask_eq_ok htake
  rw [drain, hfuel, drainWith, htake]
  simp only [hrun]

variable (interpreter tracer)

/-- The tasks that are taken out while pending tasks are done, for a session with this much
fuel. -/
def drainedWith : Nat → Session σ μ → List Task
  | 0, _ => []
  | fuel + 1, session =>
    match takeTask session with
    | .ok (some task) session =>
      match runTask interpreter tracer task session with
      | .ok () session => task :: drainedWith fuel session
      | .error _ _ => [task]
    | _ => []

/-- The tasks that are taken out while a generation is drained. -/
def drained (session : Session σ μ) : List Task :=
  drainedWith interpreter tracer session.fuel session

variable {interpreter tracer}

theorem drained_of_none (h : session.scheduler.dequeue? = none) :
    drained interpreter tracer session = [] := by
  rw [drained]
  cases session.fuel with
  | zero => rfl
  | succ fuel => simp only [drainedWith, takeTask_of_none h]

theorem drained_exhausted (hfuel : session.fuel = 0) : drained interpreter tracer session = [] := by
  rw [drained, hfuel, drainedWith]

theorem drained_of_task (htake : takeTask session = .ok (some task) taken)
    (hrun : runTask interpreter tracer task taken = .ok () next) :
    drained interpreter tracer session = task :: drained interpreter tracer next := by
  obtain ⟨rest, fuel, hdequeue, hfuel, rfl⟩ := takeTask_eq_ok htake
  have hnext : next.fuel = fuel := (perform_refuelled hrun).1
  rw [drained, drained, hfuel, hnext, drainedWith, htake]
  simp only [hrun]

theorem drained_of_halt (htake : takeTask session = .ok (some task) taken)
    (hrun : runTask interpreter tracer task taken = .error halt next) :
    drained interpreter tracer session = [task] := by
  obtain ⟨rest, fuel, hdequeue, hfuel, rfl⟩ := takeTask_eq_ok htake
  rw [drained, hfuel, drainedWith, htake]
  simp only [hrun]

/-- What a session that is drained comes to: it is done, out of fuel, or it does a task, and then
breaks off or goes on. -/
theorem drain_induction (interpreter : Interpreter μ) (tracer : Tracer σ)
    {motive : Session σ μ → Prop}
    (done : ∀ session, session.scheduler.dequeue? = none → motive session)
    (exhausted : ∀ session, session.scheduler.dequeue? ≠ none → session.fuel = 0 → motive session)
    (halted : ∀ session task taken halt last, takeTask session = .ok (some task) taken →
      runTask interpreter tracer task taken = .error halt last → motive session)
    (worked : ∀ session task taken next, takeTask session = .ok (some task) taken →
      runTask interpreter tracer task taken = .ok () next → motive next → motive session)
    (session : Session σ μ) : motive session := by
  -- A task takes one off the fuel, so this is an induction on the fuel.
  induction hfuel : session.fuel generalizing session with
  | zero =>
    by_cases hdequeue : session.scheduler.dequeue? = none
    · exact done session hdequeue
    · exact exhausted session hdequeue hfuel
  | succ fuel ih =>
    cases hdequeue : session.scheduler.dequeue? with
    | none => exact done session hdequeue
    | some dequeued =>
      obtain ⟨task, rest⟩ := dequeued
      have htake := takeTask_of_some hdequeue hfuel
      cases hrun : runTask interpreter tracer task
        { session with world := ⟨rest, session.trace⟩, fuel } with
      | ok _ next =>
        exact worked session task _ next htake hrun (ih next (perform_refuelled hrun).1)
      | error halt last => exact halted session task _ halt last htake hrun

end Draining

/-! ## Deeds -/

/-- Something that was done in a session: a generation was opened, or a task was taken out and
begun. -/
inductive Deed where
  | opened (symbol : Option Char)
  | begun (task : Task)

/-- The symbol of a generation that was opened. -/
def Deed.symbol? : Deed → Option (Option Char)
  | opened symbol => some symbol
  | begun _ => none

/-- The task that was begun. -/
def Deed.task? : Deed → Option Task
  | opened _ => none
  | begun task => some task

section Deeds

variable (interpreter : Interpreter μ) (tracer : Tracer σ)

/-- What a part does. A generation counts as opened when the call comes to its end. -/
def Part.deeds : Part → Session σ μ → List Deed
  | advance symbol, session =>
    match Session.advance interpreter tracer symbol session with
    | .ok () _ => [.opened symbol]
    | .error _ _ => []
  | drain, session => (drained interpreter tracer session).map .begun

/-- What parts do, one after the other, up to where one fails. -/
def deedsOfParts : List Part → Session σ μ → List Deed
  | [], _ => []
  | part :: rest, session =>
    part.deeds interpreter tracer session ++
      match part.call interpreter tracer session with
      | .ok () next => deedsOfParts rest next
      | .error _ _ => []

/-- What is done during some commands, each with its tracer. -/
def deeds (interpreter : Interpreter μ) :
    List (Command × Tracer σ) → Session σ μ → List Deed
  | [], _ => []
  | (command, tracer) :: rest, session =>
    deedsOfParts interpreter tracer command.parts session ++
      deeds interpreter rest (leaves (command.call interpreter tracer) session)

/-- How a call ends: with the reason why it halted, or with whether the input is accepted after
it. -/
def answer : EStateM.Result Halt (Session σ μ) Unit → Except Halt Bool
  | .ok () next => .ok next.isAccepted
  | .error halt _ => .error halt

/-- How commands end, one after the other, each with its tracer. -/
def answers (interpreter : Interpreter μ) :
    List (Command × Tracer σ) → Session σ μ → List (Except Halt Bool)
  | [], _ => []
  | (command, tracer) :: rest, session =>
    answer (command.call interpreter tracer session) ::
      answers interpreter rest (leaves (command.call interpreter tracer) session)

/-- No call breaks off in the middle of a task, or of the opening of a generation. -/
def Unbroken (interpreter : Interpreter μ) (commands : List (Command × Tracer σ))
    (session : Session σ μ) : Prop :=
  ∀ fault : Fault, .error (.fault fault) ∉ answers interpreter commands session

end Deeds

/-- If calls halt only with errors, none breaks off. -/
theorem Closed.unbroken {interpreter : Interpreter μ} {P : Session σ μ → Prop}
    {commands : List (Command × Tracer σ)} {session : Session σ μ}
    (h : ∀ command ∈ commands,
      Closed interpreter command.2 P fun halt => ∃ error, halt = .error error)
    (hsession : P session) : Unbroken interpreter commands session := by
  intro fault hmem
  induction commands generalizing session with
  | nil => exact absurd hmem List.not_mem_nil
  | cons command rest ih =>
    obtain ⟨command, tracer⟩ := command
    have hstays := (h _ List.mem_cons_self).stays_call hsession command
    rw [answers] at hmem
    -- The answer in question is that of the first call, or of a later one, which finds the session
    -- as the first has left it.
    rcases List.mem_cons.mp hmem with hanswer | hlater
    · rw [Stays] at hstays
      cases hrun : command.call interpreter tracer session with
      | ok _ next =>
        rw [hrun] at hanswer
        cases hanswer
      | error halt last =>
        rw [hrun] at hstays hanswer
        obtain ⟨-, error, rfl⟩ := hstays
        cases hanswer
    · exact ih (fun other hother => h other (List.mem_cons_of_mem _ hother)) hstays.leaves hlater

/-! ## What lasts -/

/-- What is said of a session and of what was done in it holds again after every generation that is
opened and every task that is done. -/
structure Sustained (interpreter : Interpreter μ) (tracer : Tracer σ)
    (P : List Deed → Session σ μ → Prop) : Prop where
  advance {done : List Deed} {session next : Session σ μ} {symbol : Option Char}
    (h : P done session) (hrun : Session.advance interpreter tracer symbol session = .ok () next) :
    P (done ++ [.opened symbol]) next
  work {done : List Deed} {session taken next : Session σ μ} {task : Task} (h : P done session)
    (htake : takeTask session = .ok (some task) taken)
    (hrun : runTask interpreter tracer task taken = .ok () next) :
    P (done ++ [.begun task]) next

/-- What a call leaves behind has a property, unless the call broke off. -/
def Spares (P : Session σ μ → Prop) : EStateM.Result Halt (Session σ μ) Unit → Prop
  | .ok () next => P next
  | .error (.error _) next => P next
  | .error (.fault _) _ => True

namespace Sustained

variable {interpreter : Interpreter μ} {tracer : Tracer σ} {P : List Deed → Session σ μ → Prop}
  {session : Session σ μ}

theorem drain (h : Sustained interpreter tracer P) {done : List Deed} (hsession : P done session) :
    Spares (P (done ++ (drained interpreter tracer session).map .begun))
      (Session.drain interpreter tracer session) := by
  induction session using drain_induction interpreter tracer generalizing done with
  | done session hnone =>
    rw [drain_of_none (takeTask_of_none hnone), drained_of_none hnone, List.map_nil,
      List.append_nil]
    exact hsession
  | exhausted session hsome hfuel =>
    rw [drain_exhausted hsome hfuel, drained_exhausted hfuel, List.map_nil, List.append_nil]
    exact hsession
  | halted session task taken halt last htake hrun =>
    rw [drain_of_halt htake hrun]
    cases halt with
    | error error =>
      rw [runTask, perform] at hrun
      split at hrun <;> cases hrun
    | fault fault => trivial
  | worked session task taken next htake hrun ih =>
    rw [drain_of_task htake hrun rfl, drained_of_task htake hrun, List.map_cons,
      ← List.singleton_append, ← List.append_assoc]
    exact ih (h.work hsession htake hrun)

theorem part (h : Sustained interpreter tracer P) {done : List Deed} (hsession : P done session)
    (part : Part) :
    Spares (P (done ++ part.deeds interpreter tracer session))
      (part.call interpreter tracer session) := by
  cases part with
  | drain => exact h.drain hsession
  | advance symbol =>
    rw [Part.deeds, Part.call]
    cases hrun : Session.advance interpreter tracer symbol session with
    | ok _ next => exact h.advance hsession hrun
    | error halt next =>
      cases halt with
      | error error =>
        obtain ⟨-, rfl⟩ := advance_eq_error hrun
        rw [List.append_nil]
        exact hsession
      | fault fault => trivial

theorem callAll (h : Sustained interpreter tracer P) {done : List Deed} (hsession : P done session)
    (parts : List Part) :
    Spares (P (done ++ deedsOfParts interpreter tracer parts session))
      (Session.callAll interpreter tracer parts session) := by
  induction parts generalizing done session with
  | nil =>
    rw [deedsOfParts, List.append_nil]
    exact hsession
  | cons part rest ih =>
    have hpart := h.part hsession part
    rw [deedsOfParts, ← List.append_assoc, Session.callAll]
    cases hrun : part.call interpreter tracer session with
    | ok _ next =>
      rw [hrun] at hpart
      rw [bind_ok hrun rfl]
      exact ih hpart
    | error halt next =>
      rw [hrun] at hpart
      rw [bind_error hrun, List.append_nil]
      cases halt with
      | error error => exact hpart
      | fault fault => trivial

/-- What lasts, lasts through all commands, however often they are refused or run out of fuel. -/
theorem after {commands : List (Command × Tracer σ)}
    (h : ∀ command ∈ commands, Sustained interpreter command.2 P) {done : List Deed}
    (hunbroken : Unbroken interpreter commands session) (hsession : P done session) :
    P (done ++ deeds interpreter commands session)
      (Session.after interpreter commands session) := by
  induction commands generalizing done session with
  | nil =>
    rw [deeds, List.append_nil]
    exact hsession
  | cons command rest ih =>
    obtain ⟨command, tracer⟩ := command
    have hspares := (h _ List.mem_cons_self).callAll hsession command.parts
    rw [← Command.call_eq] at hspares
    have hnext : P (done ++ deedsOfParts interpreter tracer command.parts session)
        (leaves (command.call interpreter tracer) session) := by
      cases hrun : command.call interpreter tracer session with
      | ok _ next =>
        rw [hrun] at hspares
        rw [leaves_of_ok hrun]
        exact hspares
      | error halt next =>
        rw [hrun] at hspares
        rw [leaves_of_error hrun]
        cases halt with
        | error error => exact hspares
        | fault fault =>
          refine absurd ?_ (hunbroken fault)
          rw [answers, hrun]
          exact List.mem_cons_self
    rw [deeds, ← List.append_assoc]
    exact ih (fun other hother => h other (List.mem_cons_of_mem _ hother))
      (fun fault hmem => hunbroken fault (List.mem_cons_of_mem _ hmem)) hnext

/-- What lasts, and holds before anything was done, holds after all commands. -/
theorem after_all {commands : List (Command × Tracer σ)}
    (h : ∀ command ∈ commands, Sustained interpreter command.2 P)
    (hunbroken : Unbroken interpreter commands session) (hsession : P [] session) :
    P (deeds interpreter commands session) (Session.after interpreter commands session) :=
  after h hunbroken hsession

end Sustained

/-! ## An errand -/

/-- An interpreter that has one task done, in which nothing happens. -/
def errand : Interpreter Unit where
  start := ⟨0⟩
  seed := StateT.lift (discard (Routine.scheduleNow ⟨1⟩ .initial ⟨0⟩))
  execute _ _ _ := pure ()

/-- The task of the errand. -/
def errandTask : Task := .resume ⟨1⟩ .initial ⟨0⟩

theorem exists_offer_errand : ∃ s : Scheduler,
    Scheduler.offer errandTask ((Scheduler.initial ⟨0⟩).advance none) = (true, s) ∧
      s.pending.toList = [errandTask] := by
  simp [Scheduler.initial, Scheduler.advance, Scheduler.moveTo, Scheduler.anchorRoot,
    Scheduler.derivationFor, Scheduler.offer, Scheduler.enqueue, Memory.empty, Queue.ofList,
    Queue.enqueue, Queue.toList, errandTask]

theorem advance_errand (limit : Nat) : ∃ opened : Session Unit Unit,
    advance errand .silent none (.initial errand () () limit) = .ok () opened ∧
      opened.scheduler.pending.toList = [errandTask] ∧ opened.fuel = limit := by
  obtain ⟨s, hoffer, hpending⟩ := exists_offer_errand
  let opened : Session Unit Unit := ⟨⟨(Scheduler.initial ⟨0⟩).advance none, ()⟩, (), limit, limit⟩
  have hopen : openGeneration .silent none (.initial errand () () limit) = .ok () opened := rfl
  have hfirst : opened.scheduler.isFirstGeneration = true := by
    obtain ⟨root, node, hopens⟩ := Moment.opens_advance ⟨.initial ⟨0⟩, []⟩ none
    rw [Scheduler.isFirstGeneration, beq_iff_eq]
    exact congrArg Control.nextIndex hopens.control
  -- The seed offers the task, and since a request of it can be answered, so it runs.
  have hleads : Routine.Leads (errand.seed.run opened.store) ⟨opened.scheduler, []⟩
      ((), ()) ⟨s, [errandTask]⟩ := by
    refine Routine.leads_lift.mpr ⟨Routine.leads_discard.mpr ⟨true, ?_⟩, rfl⟩
    refine Routine.leads_scheduleNow.mpr
      (Act.leads_bind.mpr ⟨true, ⟨s, [errandTask]⟩, ?_, rfl, rfl⟩)
    exact Act.leads_offer.mpr ⟨hoffer, rfl⟩
  obtain ⟨_, hrun⟩ := Routine.exists_run_of_leads Tracer.isTotal_silent () hleads
  have hrun : (errand.seed.run opened.store).run .silent opened.world = .ok ((), ()) ⟨s, ()⟩ := hrun
  refine ⟨{ opened with world := ⟨s, ()⟩ }, ?_, hpending, rfl⟩
  rw [advance_eq, hopen]
  dsimp only
  rw [if_pos hfirst, perform, hrun]

/-- The task can be taken out, and then nothing is left to do. -/
theorem dequeue_errand {s : Scheduler} (hpending : s.pending.toList = [errandTask]) :
    ∃ queue, s.dequeue? = some (errandTask, queue) ∧ queue.dequeue? = none := by
  have hsome : s.dequeue? ≠ none := by
    rw [ne_eq, dequeue?_eq_none, hpending]
    exact List.cons_ne_nil _ _
  obtain ⟨⟨task, queue⟩, hdequeue⟩ := Option.ne_none_iff_exists'.mp hsome
  obtain ⟨rfl, hqueue⟩ :=
    List.cons.inj (hpending.symm.trans (Moment.pending_of_dequeue hdequeue))
  exact ⟨queue, hdequeue, dequeue?_eq_none.mpr hqueue.symm⟩

/-- Nothing happens in the task. -/
theorem runTask_errand (session : Session Unit Unit) :
    runTask errand .silent errandTask session = .ok () session :=
  rfl

end Session

end Gll
