import Gll.Proofs.Auditing
import Gll.Proofs.Watching

/-!
Ways to drive a session.

A user may open and drain generations one at a time, feed symbols, or have a whole text parsed, may
ask for what is refused, run out of fuel, and have each call watched by a tracer of its own. None of
that matters: once nothing is pending, the session is the one that comes of feeding a new session
the symbols whose generations were opened, while nobody watches (`Sustained.feeds`). The argument is
a simulation that runs ahead: as long as tasks are pending, what the user has is a session that the
other comes through while it drains.

For this, a generation must be opened or refused as a whole (`Gated`), the first one must be seeded
and no other (`Sustained.seeds`), and a session that is stuck must stay as it is (`Stuck`).
-/

set_option autoImplicit false

namespace Gll

namespace Session

variable {σ μ α β : Type}

/-! ## Calls that nobody watches -/

/-- A call that comes to its end does the same as another one that nobody watches. -/
def Silenced (call : Call σ μ α) (quiet : Call Unit μ α) : Prop :=
  ∀ ⦃session next : Session σ μ⦄ ⦃a : α⦄, call session = .ok a next →
    quiet session.unseen = .ok a next.unseen

/-- What is mirrored by a call that nobody watches does the same as that one. -/
theorem silenced_of_mirrors {call : Call σ μ α} {quiet : Call Unit μ α}
    (h : Mirrors (Alike fun _ _ => True) IsError call quiet) : Silenced call quiet := by
  intro session next a hrun
  have halike : Alike (fun _ _ => True) session session.unseen := ⟨rfl, trivial⟩
  have hquiet := h halike
  rw [hrun] at hquiet
  obtain ⟨last, hquiet, hlast, -⟩ := hquiet
  rw [hquiet, hlast]
  rfl

section Silenced

variable {tracer : Tracer σ}

theorem silenced_perform (routine : StateT μ Routine Unit) :
    Silenced (perform tracer routine) (perform .silent routine) :=
  silenced_of_mirrors (mirrors_perform tracer.follows_silent routine)

theorem silenced_advance {interpreter : Interpreter μ} (symbol : Option Char) :
    Silenced (advance interpreter tracer symbol) (advance interpreter .silent symbol) :=
  silenced_of_mirrors (mirrors_advance tracer.follows_silent interpreter symbol)

end Silenced

/-! ## Refusals -/

/-- A generation is opened or refused as a whole: it is refused when the end of the input was given,
which comes first, or when tasks are pending, and the user is told which; nothing has changed then.
-/
structure Gated (interpreter : Interpreter μ) (session : Session σ μ) : Prop where
  pastEnd (tracer : Tracer σ) (symbol : Option Char) : session.scheduler.isFinished = true →
    advance interpreter tracer symbol session = .error (.error .advancePastEnd) session
  undrained (tracer : Tracer σ) (symbol : Option Char) : session.scheduler.isFinished = false →
    session.scheduler.pending.toList ≠ [] → advance interpreter tracer symbol session =
      .error (.error (.undrainedWork session.scheduler.pending.toList.length)) session
  otherwise (tracer : Tracer σ) (symbol : Option Char) (error : RunError) (last : Session σ μ) :
    session.scheduler.isFinished = false → session.scheduler.pending.toList = [] →
      advance interpreter tracer symbol session ≠ .error (.error error) last

section Refusals

variable {session : Session σ μ}

theorem advance_of_refusal {interpreter : Interpreter μ} {tracer : Tracer σ}
    {symbol : Option Char} {error : RunError}
    (h : session.scheduler.refusal? = some error) :
    advance interpreter tracer symbol session = .error (.error error) session := by
  rw [advance_eq, openGeneration_eq, h]

theorem dequeue?_of_refusal?_eq_none (h : session.scheduler.refusal? = none) :
    session.scheduler.dequeue? = none :=
  dequeue?_eq_none.mpr ((Queue.isEmpty_iff _).mp (refusal?_eq_none.mp h).2)

theorem gated (interpreter : Interpreter μ) (session : Session σ μ) :
    Gated interpreter session where
  pastEnd tracer symbol hfinished := by
    refine advance_of_refusal ?_
    rw [Scheduler.refusal?, if_pos hfinished]
  undrained tracer symbol hfinished hpending := by
    refine advance_of_refusal ?_
    rw [Scheduler.refusal?, if_neg (by rw [hfinished]; exact Bool.false_ne_true),
      if_neg fun hempty => hpending ((Queue.isEmpty_iff _).mp hempty), Queue.size_eq_length]
  otherwise tracer symbol error last hfinished hpending hrun := by
    have hopen : session.scheduler.refusal? = none :=
      refusal?_eq_none.mpr ⟨hfinished, (Queue.isEmpty_iff _).mpr hpending⟩
    cases hopen.symm.trans (advance_eq_error hrun).1

/-- A session that has pending tasks and no fuel. -/
def Stuck (session : Session σ μ) : Prop :=
  session.fuel = 0 ∧ session.scheduler.pending.toList ≠ []

theorem Stuck.part (h : session.Stuck) (interpreter : Interpreter μ) (tracer : Tracer σ)
    (part : Part) :
    ∃ error, part.call interpreter tracer session = .error (.error error) session := by
  obtain ⟨hfuel, hpending⟩ := h
  cases part with
  | drain =>
    exact ⟨_, drain_exhausted (fun hnone => hpending (dequeue?_eq_none.mp hnone)) hfuel⟩
  | advance symbol =>
    cases hrefusal : session.scheduler.refusal? with
    | some error => exact ⟨error, advance_of_refusal hrefusal⟩
    | none =>
      exact absurd ((Queue.isEmpty_iff _).mp (refusal?_eq_none.mp hrefusal).2) hpending

/-- A session that is stuck does nothing. -/
theorem Stuck.part_deeds (h : session.Stuck) (interpreter : Interpreter μ) (tracer : Tracer σ)
    (part : Part) : part.deeds interpreter tracer session = [] := by
  obtain ⟨error, hcall⟩ := h.part interpreter tracer part
  cases part with
  | drain => rw [Part.deeds, drained_exhausted h.1, List.map_nil]
  | advance symbol =>
    have hadvance : Session.advance interpreter tracer symbol session
        = .error (.error error) session := hcall
    rw [Part.deeds, hadvance]

theorem parts_ne_nil (command : Command) : command.parts ≠ [] := by
  cases command with
  | parse text =>
    have hparts : (Command.parse text).parts
        = partsOfFeeds (text.toList.map some) ++ [.advance none, .drain] := List.flatMap_append
    rw [hparts]
    exact List.append_ne_nil_of_right_ne_nil _ (List.cons_ne_nil _ _)
  | _ => exact List.cons_ne_nil _ _

/-- Whatever is asked of a session that is stuck is answered with an error. -/
theorem Stuck.call (h : session.Stuck) (interpreter : Interpreter μ) (tracer : Tracer σ)
    (command : Command) :
    ∃ error, command.call interpreter tracer session = .error (.error error) session := by
  obtain ⟨part, rest, hparts⟩ := List.exists_cons_of_ne_nil (parts_ne_nil command)
  obtain ⟨error, herror⟩ := h.part interpreter tracer part
  refine ⟨error, ?_⟩
  rw [Command.call_eq, hparts, callAll, bind_error herror]

/-- A session that is stuck stays as it is. -/
theorem Stuck.after (h : session.Stuck) (interpreter : Interpreter μ)
    (commands : List (Command × Tracer σ)) :
    Session.after interpreter commands session = session ∧
      (∀ answer ∈ answers interpreter commands session,
        ∃ error, answer = .error (.error error)) ∧
      deeds interpreter commands session = [] := by
  induction commands with
  | nil => exact ⟨rfl, fun _ hmem => absurd hmem List.not_mem_nil, rfl⟩
  | cons command rest ih =>
    obtain ⟨command, tracer⟩ := command
    obtain ⟨error, hcall⟩ := h.call interpreter tracer command
    obtain ⟨part, parts, hparts⟩ := List.exists_cons_of_ne_nil (parts_ne_nil command)
    obtain ⟨refusal, hpart⟩ := h.part interpreter tracer part
    have hdeeds : deedsOfParts interpreter tracer command.parts session = [] := by
      rw [hparts, deedsOfParts, h.part_deeds, hpart]
      rfl
    rw [after_cons, answers, deeds, leaves_of_error hcall, hcall, hdeeds]
    exact ⟨ih.1, List.forall_mem_cons.mpr ⟨⟨error, rfl⟩, ih.2.1⟩, ih.2.2⟩

end Refusals

/-! ## One feed after the other -/

/-- Feeds symbols, and the end of the input, one after the other. -/
def feedEach (interpreter : Interpreter μ) (tracer : Tracer σ) : List (Option Char) → Call σ μ Unit
  | [] => pure ()
  | symbol :: rest => do
    feed interpreter tracer symbol
    feedEach interpreter tracer rest

theorem feedEach_snoc (interpreter : Interpreter μ) (tracer : Tracer σ)
    (symbols : List (Option Char)) (symbol : Option Char) :
    feedEach interpreter tracer (symbols ++ [symbol])
      = feedEach interpreter tracer symbols >>= fun _ => feed interpreter tracer symbol := by
  induction symbols with
  | nil =>
    change (feed interpreter tracer symbol >>= fun _ => pure ()) = _
    rw [bind_pure_unit]
    rfl
  | cons first rest ih =>
    rw [List.cons_append, feedEach, ih, feedEach, bind_assoc]

/-- The symbols whose generations were opened. -/
def openedSymbols (done : List Deed) : List (Option Char) := done.filterMap Deed.symbol?

theorem openedSymbols_opened (done : List Deed) (symbol : Option Char) :
    openedSymbols (done ++ [.opened symbol]) = openedSymbols done ++ [symbol] :=
  List.filterMap_append

theorem openedSymbols_begun (done : List Deed) (task : Task) :
    openedSymbols (done ++ [.begun task]) = openedSymbols done :=
  List.filterMap_append.trans (List.append_nil _)

section Driving

variable {interpreter : Interpreter μ} {tracer : Tracer σ} {session : Session σ μ}

/-- To feed the symbols of the generations that were opened comes to the same as to drain the
session as it is now. The two differ in how far they are. -/
theorem Sustained.feeds (interpreter : Interpreter μ) (tracer : Tracer σ)
    (start : Session Unit μ) : Sustained interpreter tracer fun done session =>
      feedEach interpreter .silent (openedSymbols done) start
        = Session.drain interpreter .silent session.unseen where
  advance {done session next symbol} h hrun := by
    have hnone := dequeue?_of_refusal?_eq_none (control_of_advance hrun).1
    have hdrained : Session.drain interpreter .silent session.unseen = .ok () session.unseen :=
      drain_of_none (takeTask_of_none hnone)
    rw [openedSymbols_opened, feedEach_snoc]
    exact bind_ok (h.trans hdrained) (bind_ok (silenced_advance symbol hrun) rfl)
  work {done session taken next task} h htake hrun := by
    rw [openedSymbols_begun, h]
    exact drain_of_task (takeTask_unseen htake) (silenced_perform _ hrun) rfl

/-- As many generations were opened as there are positions. -/
theorem Sustained.positions (interpreter : Interpreter μ) (tracer : Tracer σ) :
    Sustained interpreter tracer fun done session =>
      session.scheduler.nextIndex = (openedSymbols done).length where
  advance h hrun := by
    rw [(control_of_advance hrun).2.1, h, openedSymbols_opened, List.length_append,
      List.length_singleton]
  work h htake hrun := by
    have hcontrol := (control_of_perform hrun).trans (control_of_takeTask htake)
    rw [openedSymbols_begun, ← h]
    exact congrArg Control.nextIndex hcontrol

end Driving

/-! ## The seed -/

section Stores

variable {interpreter : Interpreter μ} {tracer : Tracer σ} {session next : Session σ μ}

theorem store_of_act {action : Act α} {a : α} (h : act tracer action session = .ok a next) :
    next.store = session.store := by
  obtain ⟨world, -, rfl⟩ := act_eq_ok h
  rfl

/-- To shift a terminal leaves the store of the interpreter alone. -/
theorem store_of_shift {frame : StackId} {result : SymbolId}
    (h : runTask interpreter tracer (.shift frame result) session = .ok () next) :
    next.store = session.store := by
  obtain ⟨store, world, hrun, rfl⟩ := perform_eq_ok h
  exact (Routine.leads_lift.mp (Routine.leads_of_run [] hrun)).2

end Stores

section Seed

variable {interpreter : Interpreter μ} {tracer : Tracer σ} {session next : Session σ (μ × Audit)}

theorem audit_of_watch {seeds : Nat} {routine : StateT μ Routine Unit}
    (h : perform tracer (Interpreter.watch seeds routine) session = .ok () next) :
    next.store.2 = ⟨session.store.2.seeds + seeds, session.store.2.reports
      ++ Routine.reported tracer (routine.run session.store.1) session.world⟩ := by
  rw [perform_watch] at h
  split at h
  · obtain ⟨-, rfl⟩ := EStateM.Result.ok.inj h
    rfl
  · cases h

/-- A task does not seed the parse. -/
theorem seeds_of_runTask {task : Task}
    (h : runTask interpreter.audited tracer task session = .ok () next) :
    next.store.2.seeds = session.store.2.seeds := by
  cases task with
  | resume label caller stem =>
    rw [runTask_resume] at h
    obtain ⟨_, noted, hnote, hexecute⟩ := exists_of_bind_ok h
    rw [audit_of_watch hexecute, store_of_act hnote]
    rfl
  | shift frame result =>
    rw [store_of_shift h]

/-- The first generation is seeded, and no other. -/
theorem Sustained.seeds (interpreter : Interpreter μ) (tracer : Tracer σ) :
    Sustained interpreter.audited tracer fun _ session =>
      session.store.2.seeds = if session.scheduler.nextIndex = 0 then 0 else 1 where
  advance {done session next symbol} h hrun := by
    obtain ⟨-, hindex, -⟩ := control_of_advance hrun
    obtain ⟨opened, hopen, hrest⟩ := advance_eq_ok hrun
    obtain ⟨-, hadvance, hstore, -⟩ := openGeneration_eq_ok hopen
    obtain ⟨root, node, hopens⟩ := Moment.opens_advance ⟨session.scheduler, []⟩ symbol
    have hopened : opened.scheduler.nextIndex = session.scheduler.nextIndex + 1 := by
      rw [hadvance]
      exact congrArg Control.nextIndex hopens.control
    rw [hindex, if_neg (Nat.succ_ne_zero _)]
    -- A generation is the first one exactly if none was opened before it.
    by_cases hzero : session.scheduler.nextIndex = 0
    · have hfirst : opened.scheduler.isFirstGeneration = true := by
        rw [Scheduler.isFirstGeneration, hopened, hzero]
        rfl
      rw [if_pos hfirst] at hrest
      rw [if_pos hzero] at h
      rw [audit_of_watch hrest, hstore, h]
    · have hfirst : ¬ opened.scheduler.isFirstGeneration = true := by
        rw [Scheduler.isFirstGeneration, hopened, beq_iff_eq]
        omega
      rw [if_neg hfirst] at hrest
      rw [if_neg hzero] at h
      rw [hrest, hstore, h]
  work {done session taken next task} h htake hrun := by
    have hcontrol := (control_of_perform hrun).trans (control_of_takeTask htake)
    have hindex : next.scheduler.nextIndex = session.scheduler.nextIndex :=
      congrArg Control.nextIndex hcontrol
    obtain ⟨rest, fuel, -, -, rfl⟩ := takeTask_eq_ok htake
    rw [seeds_of_runTask hrun, hindex]
    exact h

end Seed

/-! ## Any driving style -/

/-- However a session is driven, a generation is opened or refused as a whole; when nothing is
pending, the session is that of feeding the symbols of the opened generations one after the other,
without a tracer; the parse was seeded once, if a generation was opened; and when there are pending
tasks but no fuel, every call ends with an error and nothing changes. -/
theorem driving_styles_agree (interpreter : Interpreter μ) (trace : σ) (store : μ) (limit : Nat)
    (commands : List (Command × Tracer σ)) :
    let start : Session σ μ := .initial interpreter trace store limit
    let final := after interpreter commands start
    let symbols := openedSymbols (deeds interpreter commands start)
    let watched := after interpreter.audited commands
      (.initial interpreter.audited trace (store, .blank) limit)
    Gated interpreter final ∧
      (Unbroken interpreter commands start → final.scheduler.pending.toList = [] →
        feedEach interpreter .silent symbols (.initial interpreter () store limit)
          = .ok () final.unseen) ∧
      (Unbroken interpreter commands start → watched.unaudited = final ∧
        watched.store.2.seeds = if symbols = [] then 0 else 1) ∧
      (final.Stuck → ∀ more : List (Command × Tracer σ), after interpreter more final = final ∧
        ∀ answer ∈ answers interpreter more final, ∃ error, answer = .error (.error error)) := by
  intro start final symbols watched
  refine ⟨gated interpreter final, fun hunbroken hpending => ?_, fun hunbroken => ?_,
    fun hstuck more => ?_⟩
  · have hdrained (session : Session Unit μ) (hnil : session.scheduler.pending.toList = []) :
        drain interpreter .silent session = .ok () session :=
      drain_of_none (takeTask_of_none (dequeue?_eq_none.mpr hnil))
    have hfeeds := Sustained.after_all
      (fun command _ => Sustained.feeds interpreter command.2 (.initial interpreter () store limit))
      hunbroken (hdrained (.initial interpreter () store limit) rfl).symm
    exact hfeeds.trans (hdrained final.unseen hpending)
  · have hsame : watched.unaudited = final := after_unaudited commands _
    have hwatched : Unbroken interpreter.audited commands
        (.initial interpreter.audited trace (store, .blank) limit) :=
      unbroken_audited hunbroken
    have hseeds := Sustained.after_all
      (fun command _ => Sustained.seeds interpreter command.2) hwatched rfl
    have hpositions := Sustained.after_all
      (fun command _ => Sustained.positions interpreter command.2) hunbroken rfl
    have hindex : watched.scheduler.nextIndex = symbols.length := by
      have hscheduler : watched.scheduler = final.scheduler := congrArg Session.scheduler hsame
      rw [hscheduler]
      exact hpositions
    refine ⟨hsame, hseeds.trans ?_⟩
    rw [hindex]
    simp only [List.length_eq_zero_iff]
  · obtain ⟨hsame, hrefused, -⟩ := hstuck.after interpreter more
    exact ⟨hsame, hrefused⟩

/-- The errand is done once, whether it is fed or opened and drained; and without fuel it stays
undone. -/
theorem driving_styles_agree_errand : ∃ final stuck : Session Unit Unit,
    after errand [(.advance none, .silent), (.drain, .silent)] (.initial errand () () 1) = final ∧
      feedEach errand .silent [none] (.initial errand () () 1) = .ok () final ∧
      (after errand.audited [(.advance none, .silent), (.drain, .silent)]
        (.initial errand.audited () ((), .blank) 1)).store.2.seeds = 1 ∧
      after errand [(.advance none, .silent)] (.initial errand () () 0) = stuck ∧ stuck.Stuck ∧
      after errand [(.parse "a", .silent)] stuck = stuck := by
  obtain ⟨opened, hadvance, hpending, hfuel⟩ := advance_errand 1
  obtain ⟨queue, hdequeue, hnone⟩ := dequeue_errand hpending
  let taken : Session Unit Unit := { opened with world := ⟨queue, opened.trace⟩, fuel := 0 }
  have htake : takeTask opened = .ok (some errandTask) taken := takeTask_of_some hdequeue hfuel
  have hrun := runTask_errand taken
  have hnone : taken.scheduler.dequeue? = none := hnone
  have hdrain : drain errand .silent opened = .ok () taken :=
    drain_of_task htake hrun (drain_of_none (takeTask_of_none hnone))
  let commands : List (Command × Tracer Unit) := [(.advance none, .silent), (.drain, .silent)]
  have hadvance' : (Command.advance none).call errand .silent (.initial errand () () 1)
      = .ok () opened := hadvance
  have hdrain' : Command.drain.call errand .silent opened = .ok () taken := hdrain
  have hafter : after errand commands (.initial errand () () 1) = taken := by
    rw [after_cons, leaves_of_ok hadvance', after_cons, leaves_of_ok hdrain']
    rfl
  have hanswers : answers errand commands (.initial errand () () 1)
      = [.ok opened.isAccepted, .ok taken.isAccepted] := by
    simp only [commands, answers, hadvance', leaves_of_ok hadvance', hdrain', answer]
  have hunbroken : Unbroken errand commands (.initial errand () () 1) := by
    intro fault
    rw [hanswers]
    simp
  have hdeeds : openedSymbols (deeds errand commands (.initial errand () () 1)) = [none] := by
    simp only [commands, deeds, deedsOfParts, Command.parts, Part.deeds, Part.call, hadvance,
      leaves_of_ok hadvance', drained_of_task htake hrun, drained_of_none hnone, hdrain]
    rfl
  obtain ⟨-, hfeeds, hseeds, -⟩ := driving_styles_agree errand () () 1 commands
  rw [hafter, hdeeds] at hfeeds
  rw [hdeeds] at hseeds
  obtain ⟨waiting, hwaiting, hstill, hexhausted⟩ := advance_errand 0
  have hwaiting' : after errand [(.advance none, .silent)] (.initial errand () () 0) = waiting :=
    leaves_of_ok hwaiting
  have hstuck : waiting.Stuck := ⟨hexhausted, hstill ▸ List.cons_ne_nil _ _⟩
  obtain ⟨-, -, -, hstays⟩ :=
    driving_styles_agree errand () () 0 [(.advance none, (.silent : Tracer Unit))]
  rw [hwaiting'] at hstays
  exact ⟨taken, waiting, hafter, hfeeds hunbroken (dequeue?_eq_none.mp hnone),
    (hseeds hunbroken).2, hwaiting', hstuck, (hstays hstuck [(.parse "a", .silent)]).1⟩

end Session

end Gll
