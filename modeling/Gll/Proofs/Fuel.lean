import Gll.Proofs.Faultless
import Gll.Proofs.Spending
import Gll.Proofs.Unlimited

/-!
The law of fuel.

Fuel decides how far a session goes and nothing else. Without a limit, the commands of a user begin
some tasks, in an order that does not depend on anything but the commands, the interpreter and its
store; there are finitely many or there is no end to them. A session whose fuel covers them does the
same to the end and has the rest of its fuel left. Any other session begins as many of them as it
has fuel, and stops before the next one, which is still pending. And the fuel that was spent can be
read off the trace.
-/

set_option autoImplicit false

namespace Gll

namespace Session

variable {σ μ : Type}

/-- The same commands, with every event kept. -/
def recorded (commands : List (Command × Tracer σ)) : List (Command × Tracer (Array Event)) :=
  commands.map fun command => (command.1, .recorder)

namespace FreeRun

section Law

variable {interpreter : Interpreter μ} {trace : σ} {store : μ}
  {commands : List (Command × Tracer σ)} {tasks : List Task} {last : FreeRun σ μ}

/-- What comes of commands with so much fuel is what comes of the run that they start. -/
theorem finish_start (fuel : Nat) :
    (start (.initial interpreter trace store 0) commands).finish interpreter fuel fuel
      = ⟨answers interpreter commands (.initial interpreter trace store fuel),
        begunTasks (deeds interpreter commands (.initial interpreter trace store fuel)),
        after interpreter commands (.initial interpreter trace store fuel)⟩ :=
  rfl

/-- With fuel for all tasks, a session does what is done without a limit. -/
theorem Goes.outcome_of_isOver
    (h : Goes interpreter (start (.initial interpreter trace store 0) commands) tasks last)
    (hover : last.IsOver) {fuel : Nat} (hle : tasks.length ≤ fuel) :
    answers interpreter commands (.initial interpreter trace store fuel) = last.told ∧
      begunTasks (deeds interpreter commands (.initial interpreter trace store fuel)) = tasks ∧
      after interpreter commands (.initial interpreter trace store fuel)
        = last.session.refuelled (fuel - tasks.length) fuel := by
  have hfinish := h.finish (fuel - tasks.length) fuel
  rw [hover.finish, Nat.add_sub_cancel' hle, finish_start] at hfinish
  obtain ⟨htold, htasks, hsession⟩ := (Outcome.mk.injEq ..).mp hfinish
  exact ⟨htold, htasks.trans (List.append_nil tasks), hsession⟩

/-- With fuel for some of the tasks, a session does these. -/
theorem Goes.outcome_of_awaits {task : Task}
    (h : Goes interpreter (start (.initial interpreter trace store 0) commands) tasks last)
    (hawaits : last.Awaits task) :
    answers interpreter commands (.initial interpreter trace store tasks.length)
        = last.told ++ .error (.error (.fuelExhausted tasks.length))
          :: answers interpreter last.later (last.session.refuelled 0 tasks.length) ∧
      begunTasks (deeds interpreter commands (.initial interpreter trace store tasks.length))
        = tasks ∧
      after interpreter commands (.initial interpreter trace store tasks.length)
        = last.session.refuelled 0 tasks.length := by
  have hfinish := h.finish 0 tasks.length
  rw [(hawaits.finish tasks.length).2, Nat.add_zero, finish_start] at hfinish
  obtain ⟨htold, htasks, hsession⟩ := (Outcome.mk.injEq ..).mp hfinish
  exact ⟨htold, htasks.trans (List.append_nil tasks), hsession⟩

/-- The call that meets the task ends with the error that says that there is no fuel. -/
theorem Goes.exhausts {task : Task}
    (h : Goes interpreter (start (.initial interpreter trace store 0) commands) tasks last)
    (hawaits : last.Awaits task) : ∃ before, commands = before ++ last.later ∧
      answers interpreter before (.initial interpreter trace store tasks.length)
        = last.told ++ [.error (.error (.fuelExhausted tasks.length))] ∧
      after interpreter before (.initial interpreter trace store tasks.length)
        = last.session.refuelled 0 tasks.length := by
  obtain ⟨before, hcommands, hgoes⟩ := h.exists_before
  have hbefore := hgoes []
  rw [List.append_nil] at hbefore
  have hawaits : FreeRun.Awaits { last with later := [] } task := hawaits
  obtain ⟨htold, -, hsession⟩ := Goes.outcome_of_awaits hbefore hawaits
  exact ⟨before, hcommands, htold, hsession⟩

theorem Awaits.pending {task : Task} (h : last.Awaits task) :
    ∃ later, last.session.scheduler.pending.toList = task :: later := by
  obtain ⟨_, _, queue, -, hdequeue⟩ := h
  exact ⟨_, Moment.pending_of_dequeue hdequeue⟩

end Law

end FreeRun

open FreeRun in
/-- Fuel decides how far commands go, and nothing else. Without a limit they begin a list of tasks,
which may have no end. With fuel for all of them, a session does the same and has the rest of its
fuel left. With less, it begins as many as it has fuel, and the call that meets the next one ends
with an error, with the session as it is without a limit at that point; later calls change nothing.
The fuel that was spent is what the trace tells of, less what the interpreter told itself. -/
theorem fuel_law (interpreter : Interpreter μ) (trace : σ) (store : μ)
    (commands : List (Command × Tracer σ)) :
    let free : FreeRun σ μ := start (.initial interpreter trace store 0) commands
    let given (fuel : Nat) : Session σ μ := .initial interpreter trace store fuel
    (∀ fuel, (∃ tasks last, Goes interpreter free tasks last ∧ last.IsOver ∧
        tasks.length ≤ fuel) ∨
      ∃ tasks last task, Goes interpreter free tasks last ∧ last.Awaits task ∧
        tasks.length = fuel) ∧
    (∀ tasks last, Goes interpreter free tasks last → last.IsOver →
      (∀ tasks' last', Goes interpreter free tasks' last' → tasks' <+: tasks) ∧
      ∀ fuel, tasks.length ≤ fuel →
        answers interpreter commands (given fuel) = last.told ∧
        begunTasks (deeds interpreter commands (given fuel)) = tasks ∧
        after interpreter commands (given fuel)
          = last.session.refuelled (fuel - tasks.length) fuel) ∧
    (∀ tasks last task, Goes interpreter free tasks last → last.Awaits task →
      let fuel := tasks.length
      let exhausted := last.session.refuelled 0 fuel
      (∃ before, commands = before ++ last.later ∧
        answers interpreter before (given fuel)
          = last.told ++ [.error (.error (.fuelExhausted fuel))] ∧
        after interpreter before (given fuel) = exhausted) ∧
      (∃ later, exhausted.scheduler.pending.toList = task :: later) ∧
      begunTasks (deeds interpreter commands (given fuel)) = tasks ∧
      after interpreter commands (given fuel) = exhausted) ∧
    ∀ fuel,
      let begun : Session (Array Event) μ := .initial interpreter #[] store fuel
      let final := after interpreter (recorded commands) begun
      let watched := after interpreter.audited (recorded commands)
        (.initial interpreter.audited #[] (store, .blank) fuel)
      Unbroken interpreter (recorded commands) begun →
        watched.unaudited = final ∧
        workCount final.trace + final.fuel = fuel + worksTold watched.store.2.reports ∧
        (interpreter.Discreet → workCount final.trace + final.fuel = fuel) := by
  intro free given
  refine ⟨fun fuel => exists_goes interpreter free fuel, ?_, ?_, ?_⟩
  · intro tasks last hgoes hover
    exact ⟨fun tasks' last' hgoes' => hgoes.prefix_of_isOver hover hgoes',
      fun fuel hle => hgoes.outcome_of_isOver hover hle⟩
  · intro tasks last task hgoes hawaits fuel exhausted
    obtain ⟨-, hbegun, hsession⟩ := hgoes.outcome_of_awaits hawaits
    exact ⟨hgoes.exhausts hawaits, hawaits.pending, hbegun, hsession⟩
  · intro fuel begun final watched hunbroken
    have hsame : watched.unaudited = final := after_unaudited _ _
    have hrecorder : ∀ command ∈ recorded commands, command.2 = .recorder := by
      intro command hmem
      obtain ⟨_, -, rfl⟩ := List.mem_map.mp hmem
      rfl
    have hwatched : Unbroken interpreter.audited (recorded commands)
        (.initial interpreter.audited #[] (store, .blank) fuel) :=
      unbroken_audited hunbroken
    have hbalanced : Balanced fuel watched := Sustained.after_all (fun command hmem => by
      rw [hrecorder command hmem]
      exact Sustained.balanced interpreter fuel) hwatched (Nat.zero_add fuel)
    rw [Balanced] at hbalanced
    have htrace : watched.trace = final.trace := congrArg Session.trace hsame
    have hfuel : watched.fuel = final.fuel := congrArg Session.fuel hsame
    rw [htrace, hfuel] at hbalanced
    refine ⟨hsame, hbalanced, fun hdiscreet => ?_⟩
    have hnone : worksTold watched.store.2.reports = 0 := Sustained.after_all
      (fun command _ => Sustained.discreet hdiscreet command.2) hwatched rfl
    omega

/-- An interpreter that has nothing done, and tells that a task is begun nevertheless. -/
def braggart : Interpreter Unit where
  start := ⟨0⟩
  seed := StateT.lift (Routine.note (.descriptor ⟨1⟩ .initial ⟨0⟩))
  execute _ _ _ := pure ()

/-- What an interpreter tells itself is no sign of fuel. The braggart spends none of five units, yet
the trace tells of one. -/
theorem workCount_braggart :
    let commands : List (Command × Tracer (Array Event)) := [(.advance none, .recorder)]
    let begun : Session (Array Event) Unit := .initial braggart #[] () 5
    Unbroken braggart commands begun ∧ (after braggart commands begun).fuel = 5 ∧
      workCount (after braggart commands begun).trace = 1 := by
  intro commands begun
  let scheduler := (Scheduler.initial ⟨0⟩).advance none
  let opened : Session (Array Event) Unit :=
    ⟨⟨scheduler, #[.advance scheduler.current]⟩, (), 5, 5⟩
  let final : Session (Array Event) Unit :=
    ⟨⟨scheduler, #[.advance scheduler.current, .descriptor ⟨1⟩ .initial ⟨0⟩]⟩, (), 5, 5⟩
  have hopen : openGeneration .recorder none begun = .ok () opened := rfl
  have hfirst : opened.scheduler.isFirstGeneration = true := by
    obtain ⟨root, node, hopens⟩ := Moment.opens_advance ⟨.initial ⟨0⟩, []⟩ none
    rw [Scheduler.isFirstGeneration, beq_iff_eq]
    exact congrArg Control.nextIndex hopens.control
  have hseed : perform .recorder braggart.seed opened = .ok () final := rfl
  have hcall : (Command.advance none).call braggart .recorder begun = .ok () final := by
    rw [Command.call, advance_eq, hopen]
    dsimp only
    rw [if_pos hfirst, hseed]
  have hafter : after braggart commands begun = final := leaves_of_ok hcall
  rw [hafter]
  refine ⟨fun fault hmem => ?_, rfl, rfl⟩
  rw [answers, answers, hcall, List.mem_singleton] at hmem
  cases hmem

open FreeRun in
/-- The errand takes one unit of fuel: of five, four are left, and with none it is not begun. All of
the fuel that it takes to parse the letter is told of. -/
theorem fuel_law_errand : ∃ (waiting last : FreeRun Unit Unit) (program : Program),
    Goes errand (start (.initial errand () () 0) [(.feed none, .silent)]) [] waiting ∧
      waiting.Awaits errandTask ∧
      answers errand [(.feed none, .silent)] (.initial errand () () 0)
        = [.error (.error (.fuelExhausted 0))] ∧
      Goes errand (start (.initial errand () () 0) [(.feed none, .silent)]) [errandTask] last ∧
      last.IsOver ∧
      after errand [(.feed none, .silent)] (.initial errand () () 5)
        = last.session.refuelled 4 5 ∧
      Program.compile letter = .ok program ∧
      workCount (after program.interpreter [(.parse "a", .recorder)]
        (.initial program.interpreter #[] () 4)).trace
        + (after program.interpreter [(.parse "a", .recorder)]
        (.initial program.interpreter #[] () 4)).fuel = 4 := by
  obtain ⟨opened, hadvance, hpending, -⟩ := advance_errand 0
  obtain ⟨queue, hdequeue, hnone⟩ := dequeue_errand hpending
  let waiting : FreeRun Unit Unit := ⟨opened, [], some ([.drain], .silent), []⟩
  have hnone : (opened.without queue).scheduler.dequeue? = none := hnone
  let last : FreeRun Unit Unit :=
    ⟨opened.without queue, [.ok (opened.without queue).isAccepted], none, []⟩
  have hwaiting : Goes errand (start (.initial errand () () 0) [(.feed none, .silent)]) []
      waiting :=
    .step (.call _ [] (.feed none) .silent []) (.step (.advance [] [.drain] [] hadvance) (.refl _))
  have hawaits : waiting.Awaits errandTask := ⟨[], .silent, queue, rfl, hdequeue⟩
  have hdone : Goes errand waiting [errandTask] last :=
    .step (.work [] [] [] hdequeue (runTask_errand _))
      (.step (.drained [] .silent [] [] hnone) (.step (.answer _ [] .silent []) (.refl _)))
  have hgoes : Goes errand (start (.initial errand () () 0) [(.feed none, .silent)]) [errandTask]
      last := hwaiting.trans hdone
  have hover : last.IsOver := ⟨rfl, rfl⟩
  obtain ⟨-, henough, hexhausted, -⟩ :=
    fuel_law errand () () [(.feed none, (.silent : Tracer Unit))]
  obtain ⟨before, hbefore, hanswers, -⟩ := (hexhausted [] waiting errandTask hwaiting hawaits).1
  rw [List.append_nil] at hbefore
  have hfive := (henough [errandTask] last hgoes hover).2 5 (by decide)
  obtain ⟨program, -, hcompile, -⟩ := parse_letter
  have hunbroken : Unbroken program.interpreter [(.parse "a", .recorder)]
      (.initial program.interpreter #[] () 4) := by
    refine Closed.unbroken (fun command hmem => ?_) (Attended.initial program #[] 4)
    rw [List.mem_singleton.mp hmem]
    exact closed_attended (Program.whole_of_compile hcompile)
      (Tracer.isTotal_recorder.shows program) 4
  obtain ⟨-, -, -, hspending⟩ :=
    fuel_law program.interpreter () () [(.parse "a", (.silent : Tracer Unit))]
  have hspent := hspending 4 hunbroken
  exact ⟨waiting, last, program, hwaiting, hawaits, hbefore ▸ hanswers, hgoes, hover, hfive.2.2,
    hcompile, hspent.2.2 program.discreet⟩

end Session

end Gll
