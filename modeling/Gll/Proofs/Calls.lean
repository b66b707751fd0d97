import Gll.Proofs.Laws
import Gll.Proofs.Timeline

/-!
What calls lead to.

`Session.Reaches` collects the states of a session between two tasks: those to which one gets by
opening generations and doing tasks, in any order in which the calls allow it, from a new session
on. With a state goes what was fed to get there, and the tasks that were offered in its generation
so far. Every call leads from such states to such states, also when it ends with an error
(`Reaches.of_drain`, `Reaches.of_feed`, `Reaches.of_parse`). Calls that a tracer makes break off are
left out: they end in the middle of a task.

For a session of a compiled grammar, every state of it has a timeline
(`Reaches.timeline`). That is all that is needed to know of calls.
-/

set_option autoImplicit false

namespace Gll

namespace Session

variable {σ μ α : Type}

/-! ## Taking calls apart -/

section Inversion

variable {interpreter : Interpreter μ} {tracer : Tracer σ} {session next : Session σ μ}

theorem act_eq_ok {action : Act α} {a : α} (h : act tracer action session = .ok a next) :
    ∃ world, action.run tracer session.world = .ok a world ∧ next = { session with world } := by
  rw [act] at h
  split at h
  · rename_i hrun
    obtain ⟨rfl, rfl⟩ := EStateM.Result.ok.inj h
    exact ⟨_, hrun, rfl⟩
  · cases h

theorem perform_eq_ok {routine : StateT μ Routine Unit}
    (h : perform tracer routine session = .ok () next) :
    ∃ store world, (routine.run session.store).run tracer session.world = .ok ((), store) world ∧
      next = { session with store, world } := by
  rw [perform] at h
  split at h
  · rename_i hrun
    obtain ⟨-, rfl⟩ := EStateM.Result.ok.inj h
    exact ⟨_, _, hrun, rfl⟩
  · cases h

/-- A routine that was carried out led from the moment before to the moment after. -/
theorem leads_of_perform {routine : StateT μ Routine Unit} (offers : List Task)
    (h : perform tracer routine session = .ok () next) :
    Routine.Leads (routine.run session.store) ⟨session.scheduler, offers⟩ ((), next.store)
      ⟨next.scheduler, offers ++ (routine.run session.store).offers tracer session.world⟩ := by
  obtain ⟨store, world, hrun, rfl⟩ := perform_eq_ok h
  exact Routine.leads_of_run offers hrun

/-- Carrying out a routine does not move the parse. -/
theorem control_of_perform {routine : StateT μ Routine Unit}
    (h : perform tracer routine session = .ok () next) :
    next.scheduler.control = session.scheduler.control :=
  Routine.control_of_leads (leads_of_perform [] h)

theorem takeTask_eq_ok {task : Task} (h : takeTask session = .ok (some task) next) :
    ∃ rest fuel, session.scheduler.dequeue? = some (task, rest) ∧ session.fuel = fuel + 1 ∧
      next = { session with world := ⟨rest, session.world.trace⟩, fuel } := by
  obtain ⟨⟨scheduler, trace⟩, store, fuel, limit⟩ := session
  simp only [takeTask] at h
  split at h
  · cases h
  · cases h
  · rename_i hdequeue
    obtain ⟨htask, rfl⟩ := EStateM.Result.ok.inj h
    cases htask
    exact ⟨_, _, hdequeue, rfl, rfl⟩

/-- Taking out a task does not move the parse. -/
theorem control_of_takeTask {task : Task} (h : takeTask session = .ok (some task) next) :
    next.scheduler.control = session.scheduler.control := by
  obtain ⟨rest, fuel, hdequeue, -, rfl⟩ := takeTask_eq_ok h
  exact (Moment.dequeue_spec [] hdequeue).2.1

theorem takeTask_eq_none (h : takeTask session = .ok none next) :
    session.scheduler.dequeue? = none ∧ next = session := by
  obtain ⟨⟨scheduler, trace⟩, store, fuel, limit⟩ := session
  simp only [takeTask] at h
  split at h
  · rename_i hdequeue
    obtain ⟨-, rfl⟩ := EStateM.Result.ok.inj h
    exact ⟨hdequeue, rfl⟩
  · cases h
  · cases h

theorem takeTask_eq_error {halt : Halt} (h : takeTask session = .error halt next) :
    next = session := by
  obtain ⟨⟨scheduler, trace⟩, store, fuel, limit⟩ := session
  simp only [takeTask] at h
  split at h
  · cases h
  · obtain ⟨-, rfl⟩ := EStateM.Result.error.inj h
    rfl
  · cases h

theorem openGeneration_eq (symbol : Option Char) : openGeneration tracer symbol session =
    match session.scheduler.refusal? with
    | some error => .error (.error error) session
    | none => act tracer (do
        Act.update fun s => ((), s.advance symbol)
        Act.emit (.advance (← Act.look fun s => .ok s.current))) session := by
  have hbind : openGeneration tracer symbol session =
      (match session.scheduler.refusal? with
        | some error => throw (Halt.error error)
        | none => act tracer do
          Act.update fun s => ((), s.advance symbol)
          Act.emit (.advance (← Act.look fun s => .ok s.current)) : Call σ μ Unit) session := rfl
  rw [hbind]
  cases session.scheduler.refusal? <;> rfl

/-- A generation is opened when nothing is pending and the input has not ended. -/
theorem openGeneration_eq_ok {symbol : Option Char}
    (h : openGeneration tracer symbol session = .ok () next) :
    session.scheduler.refusal? = none ∧ next.scheduler = session.scheduler.advance symbol ∧
      next.store = session.store ∧ next.fuel = session.fuel := by
  rw [openGeneration_eq] at h
  split at h
  · cases h
  · rename_i hrefusal
    obtain ⟨world, hrun, rfl⟩ := act_eq_ok h
    have hleads := Act.leads_of_run [] hrun
    simp only [Act.leads_bind, Act.leads_update, Act.leads_look, Act.leads_emit] at hleads
    obtain ⟨_, between, ⟨hadvance, _⟩, _, between, ⟨-, rfl⟩, hworld⟩ := hleads
    obtain ⟨-, hscheduler⟩ := Prod.mk.inj hadvance
    exact ⟨hrefusal, (congrArg Moment.scheduler hworld).trans hscheduler.symm, rfl, rfl⟩

theorem openGeneration_eq_error {symbol : Option Char} {error : RunError}
    (h : openGeneration tracer symbol session = .error (.error error) next) :
    session.scheduler.refusal? = some error ∧ next = session := by
  rw [openGeneration_eq] at h
  split at h
  · rename_i hrefusal
    obtain ⟨hhalt, rfl⟩ := EStateM.Result.error.inj h
    cases hhalt
    exact ⟨hrefusal, rfl⟩
  · rw [act] at h
    split at h <;> cases h

theorem advance_eq (symbol : Option Char) : advance interpreter tracer symbol session =
    match openGeneration tracer symbol session with
    | .ok () opened =>
      if opened.scheduler.isFirstGeneration then perform tracer interpreter.seed opened
      else .ok () opened
    | .error halt opened => .error halt opened := by
  rw [advance]
  simp only [bind, EStateM.bind]
  cases openGeneration tracer symbol session with
  | ok _ opened =>
    have hlook : act tracer (Act.look fun s => .ok s.isFirstGeneration) opened
        = .ok opened.scheduler.isFirstGeneration opened := rfl
    simp only [hlook]
    split <;> rfl
  | error halt opened => rfl

/-- When a call of `advance` comes to its end, a generation was opened, and if it is the first one
it was seeded. -/
theorem advance_eq_ok {symbol : Option Char}
    (h : advance interpreter tracer symbol session = .ok () next) :
    ∃ opened, openGeneration tracer symbol session = .ok () opened ∧
      if opened.scheduler.isFirstGeneration then
        perform tracer interpreter.seed opened = .ok () next
      else next = opened := by
  rw [advance_eq] at h
  split at h
  · rename_i opened hopen
    refine ⟨opened, hopen, ?_⟩
    split at h
    · rename_i hfirst
      rw [if_pos hfirst]
      exact h
    · rename_i hfirst
      rw [if_neg hfirst]
      exact (EStateM.Result.ok.inj h).2.symm
  · cases h

/-- Opening a generation moves the parse by one position, also when it is seeded. -/
theorem control_of_advance {symbol : Option Char}
    (h : advance interpreter tracer symbol session = .ok () next) :
    session.scheduler.refusal? = none ∧
      next.scheduler.nextIndex = session.scheduler.nextIndex + 1 ∧
      next.scheduler.isFinished = symbol.isNone := by
  obtain ⟨opened, hopen, hrest⟩ := advance_eq_ok h
  obtain ⟨hrefusal, hadvance, -, -⟩ := openGeneration_eq_ok hopen
  have hcontrol : next.scheduler.control = opened.scheduler.control := by
    split at hrest
    · exact control_of_perform hrest
    · rw [hrest]
  obtain ⟨root, node, hopens⟩ := Moment.opens_advance ⟨session.scheduler, []⟩ symbol
  rw [hadvance] at hcontrol
  have hcontrol := hcontrol.trans hopens.control
  exact ⟨hrefusal, congrArg Control.nextIndex hcontrol, congrArg Control.isFinished hcontrol⟩

/-- A call of `advance` that ends with an error changes nothing. -/
theorem advance_eq_error {symbol : Option Char} {error : RunError}
    (h : advance interpreter tracer symbol session = .error (.error error) next) :
    session.scheduler.refusal? = some error ∧ next = session := by
  rw [advance_eq] at h
  split at h
  · split at h
    · rw [perform] at h
      split at h <;> cases h
    · cases h
  · rename_i hopen
    obtain ⟨rfl, rfl⟩ := EStateM.Result.error.inj h
    exact openGeneration_eq_error hopen

end Inversion

/-! ## States that are reached -/

variable (interpreter : Interpreter μ) (tracer : Tracer σ)

/-- The tasks that are offered while a generation is opened. -/
def advanceOffers (symbol : Option Char) (session : Session σ μ) : List Task :=
  match openGeneration tracer symbol session with
  | .ok () opened =>
    if opened.scheduler.isFirstGeneration then
      (interpreter.seed.run opened.store).offers tracer opened.world
    else []
  | .error _ _ => []

/-- The tasks that are offered while a task is done. -/
def taskOffers (task : Task) (session : Session σ μ) : List Task :=
  ((interpreter.routine task).run session.store).offers tracer session.world

/-- The states of a session between tasks: what was fed up to one, and the tasks that were offered
in its generation. -/
inductive Reaches (start : Session σ μ) : List Char → Session σ μ → List Task → Prop where
  | start : Reaches start [] start []
  | advance {fed : List Char} {session next : Session σ μ} {offers : List Task}
      {symbol : Option Char} (h : Reaches start fed session offers)
      (hrun : Session.advance interpreter tracer symbol session = .ok () next) :
      Reaches start (fed ++ symbol.toList) next (advanceOffers interpreter tracer symbol session)
  | work {fed : List Char} {session taken next : Session σ μ} {offers : List Task} {task : Task}
      (h : Reaches start fed session offers) (htake : takeTask session = .ok (some task) taken)
      (hrun : runTask interpreter tracer task taken = .ok () next) :
      Reaches start fed next (offers ++ taskOffers interpreter tracer task taken)

namespace Reaches

variable {interpreter tracer} {start session next : Session σ μ} {fed : List Char}
  {offers : List Task}

/-- Draining stays within the states that are reached, and nothing is pending at its end. -/
theorem of_drainWith {fuel : Nat} (h : Reaches interpreter tracer start fed session offers)
    (hfuel : session.fuel = fuel)
    (hrun : drainWith interpreter tracer fuel session = .ok () next) :
    (∃ offers', Reaches interpreter tracer start fed next offers') ∧
      next.scheduler.dequeue? = none ∧ next.scheduler.control = session.scheduler.control := by
  -- The fuel of the session is the number of rounds, so it runs out exactly when the rounds do.
  induction fuel generalizing session offers with
  | zero =>
    rw [drainWith] at hrun
    split at hrun
    · rename_i taken session' htake
      obtain ⟨-, rfl⟩ := EStateM.Result.ok.inj hrun
      cases taken with
      | none =>
        obtain ⟨hdequeue, rfl⟩ := takeTask_eq_none htake
        exact ⟨⟨offers, h⟩, hdequeue, rfl⟩
      | some task =>
        obtain ⟨_, _, _, hsucc, _⟩ := takeTask_eq_ok htake
        omega
    · cases hrun
  | succ fuel ih =>
    rw [drainWith] at hrun
    split at hrun
    · rename_i session' htake
      obtain ⟨-, rfl⟩ := EStateM.Result.ok.inj hrun
      obtain ⟨hdequeue, rfl⟩ := takeTask_eq_none htake
      exact ⟨⟨offers, h⟩, hdequeue, rfl⟩
    · rename_i task taken htake
      split at hrun
      · rename_i session' htask
        have hcontrol := (control_of_perform htask).trans (control_of_takeTask htake)
        have hfuel' : session'.fuel = fuel := by
          obtain ⟨_, _, htask', rfl⟩ := perform_eq_ok htask
          obtain ⟨_, _, _, hsucc, rfl⟩ := takeTask_eq_ok htake
          exact Nat.succ.inj (hsucc.symm.trans hfuel)
        obtain ⟨hreach, hdequeue, hsame⟩ := ih (h.work htake htask) hfuel' hrun
        exact ⟨hreach, hdequeue, hsame.trans hcontrol⟩
      · cases hrun
    · cases hrun

theorem of_drain (h : Reaches interpreter tracer start fed session offers)
    (hrun : drain interpreter tracer session = .ok () next) :
    (∃ offers', Reaches interpreter tracer start fed next offers') ∧
      next.scheduler.dequeue? = none ∧ next.scheduler.control = session.scheduler.control :=
  h.of_drainWith rfl hrun

theorem of_feed (h : Reaches interpreter tracer start fed session offers) {symbol : Option Char}
    (hrun : feed interpreter tracer symbol session = .ok () next) :
    (∃ offers', Reaches interpreter tracer start (fed ++ symbol.toList) next offers') ∧
      next.scheduler.dequeue? = none ∧ 0 < next.scheduler.nextIndex ∧
      next.scheduler.isFinished = symbol.isNone := by
  simp only [feed, bind, EStateM.bind] at hrun
  split at hrun
  · rename_i _ opened hadvance
    obtain ⟨hreach, hdequeue, hcontrol⟩ := (h.advance hadvance).of_drain hrun
    obtain ⟨-, hnext, hfinished⟩ := control_of_advance hadvance
    have hnext' : next.scheduler.nextIndex = opened.scheduler.nextIndex :=
      congrArg Control.nextIndex hcontrol
    have hfinished' : next.scheduler.isFinished = opened.scheduler.isFinished :=
      congrArg Control.isFinished hcontrol
    exact ⟨hreach, hdequeue, by omega, hfinished'.trans hfinished⟩
  · cases hrun

theorem of_feedAll {text : List Char} (h : Reaches interpreter tracer start fed session offers)
    (hrun : feedAll interpreter tracer text session = .ok () next) :
    ∃ offers', Reaches interpreter tracer start (fed ++ text) next offers' := by
  induction text generalizing fed session offers with
  | nil =>
    obtain ⟨-, rfl⟩ := EStateM.Result.ok.inj hrun
    rw [List.append_nil]
    exact ⟨offers, h⟩
  | cons c rest ih =>
    simp only [feedAll, bind, EStateM.bind] at hrun
    split at hrun
    · rename_i _ session' hfeed
      obtain ⟨⟨offers', hreach⟩, _⟩ := h.of_feed hfeed
      have hdone := ih hreach hrun
      rw [List.append_assoc] at hdone
      exact hdone
    · cases hrun

/-- A parse that comes to its end leaves a session that has been fed the text and the end of the
input, in which nothing is pending. -/
theorem of_parse {text : String} {accepted : Bool}
    (h : Reaches interpreter tracer start fed session offers)
    (hrun : parse interpreter tracer text session = .ok accepted next) :
    (∃ offers', Reaches interpreter tracer start (fed ++ text.toList) next offers') ∧
      next.scheduler.dequeue? = none ∧ 0 < next.scheduler.nextIndex ∧
      next.scheduler.isFinished = true ∧ next.isAccepted = accepted := by
  simp only [parse, bind, EStateM.bind] at hrun
  split at hrun
  · rename_i _ between hfeedAll
    obtain ⟨offers', hreach⟩ := h.of_feedAll hfeedAll
    split at hrun
    · rename_i _ last hfeed
      obtain ⟨⟨offers'', hreach'⟩, hdequeue, hopen, hfinished⟩ := hreach.of_feed hfeed
      obtain ⟨haccepted, rfl⟩ := EStateM.Result.ok.inj hrun
      rw [Option.toList_none, List.append_nil] at hreach'
      exact ⟨⟨offers'', hreach'⟩, hdequeue, hopen, hfinished, haccepted⟩
    · cases hrun
  · cases hrun

/-- What is reached from a state that is reached is reached. -/
theorem trans {fed' : List Char} {offers' : List Task} {last : Session σ μ}
    (h : Reaches interpreter tracer start fed session offers)
    (h' : Reaches interpreter tracer session fed' last offers') :
    ∃ offers'', Reaches interpreter tracer start (fed ++ fed') last offers'' := by
  induction h' with
  | start =>
    rw [List.append_nil]
    exact ⟨offers, h⟩
  | advance _ hrun ih =>
    obtain ⟨_, hreach⟩ := ih
    rw [← List.append_assoc]
    exact ⟨_, hreach.advance hrun⟩
  | work _ htake hrun ih =>
    obtain ⟨_, hreach⟩ := ih
    exact ⟨_, hreach.work htake hrun⟩

end Reaches

/-! ## How far the input was read -/

/-- A generation is opened only when the end was not given and nothing is pending. -/
theorem refusal?_eq_none {s : Scheduler} :
    s.refusal? = none ↔ s.isFinished = false ∧ s.pending.isEmpty = true := by
  rw [Scheduler.refusal?]
  split
  · simp_all
  · split <;> simp_all

/-- There is a task to take out unless none is pending. -/
theorem dequeue?_eq_none {s : Scheduler} : s.dequeue? = none ↔ s.pending.toList = [] := by
  rw [← Queue.dequeue?_eq_none_iff, Scheduler.dequeue?]
  cases s.pending.dequeue? <;> simp

/-- A law of the scheduler holds in every state of a session, whatever the interpreter. -/
theorem Reaches.law {interpreter : Interpreter μ} {tracer : Tracer σ} {trace : σ} {store : μ}
    {limit : Nat} {fed : List Char} {session : Session σ μ} {offers : List Task}
    {P : Scheduler → Prop} (hP : Law interpreter.start P)
    (h : Reaches interpreter tracer (.initial interpreter trace store limit) fed session offers) :
    P session.scheduler := by
  induction h with
  | start => exact hP.initial
  | @advance fed session next offers symbol _ hrun ih =>
    obtain ⟨opened, hopen, hrest⟩ := advance_eq_ok hrun
    obtain ⟨hrefusal, hadvance, -, -⟩ := openGeneration_eq_ok hopen
    have hopened : P opened.scheduler := hadvance ▸ hP.advance symbol hrefusal ih
    split at hrest
    · exact Routine.keeps hP.toKept (leads_of_perform [] hrest) hopened
    · rw [hrest]
      exact hopened
  | @work fed session taken next offers task _ htake hrun ih =>
    obtain ⟨rest, fuel, hdequeue, -, rfl⟩ := takeTask_eq_ok htake
    exact Routine.keeps hP.toKept (leads_of_perform [] hrun) (hP.dequeue hdequeue ih)

/-- As long as the end was not given, as many symbols were fed as positions were opened. -/
theorem Reaches.length_fed {interpreter : Interpreter μ} {tracer : Tracer σ} {trace : σ} {store : μ}
    {limit : Nat} {fed : List Char} {session : Session σ μ} {offers : List Task}
    (h : Reaches interpreter tracer (.initial interpreter trace store limit) fed session offers)
    (hfinished : session.scheduler.isFinished = false) :
    fed.length = session.scheduler.nextIndex := by
  induction h with
  | start => rfl
  | @advance fed session next offers symbol _ hrun ih =>
    obtain ⟨hrefusal, hnext, hfinished'⟩ := control_of_advance hrun
    cases symbol with
    | none => simp [hfinished] at hfinished'
    | some c =>
      rw [hnext, ← ih (refusal?_eq_none.mp hrefusal).1]
      simp
  | @work fed session taken next offers task _ htake hrun ih =>
    have hcontrol := (control_of_perform hrun).trans (control_of_takeTask htake)
    have hnext : next.scheduler.nextIndex = _ := congrArg Control.nextIndex hcontrol
    have hfinished' : next.scheduler.isFinished = _ := congrArg Control.isFinished hcontrol
    rw [hnext]
    exact ih (hfinished'.symm.trans hfinished)

/-! ## Sessions of a compiled grammar -/

section Program

variable {program : Program} {tracer : Tracer σ} {trace : σ} {limit : Nat}
  {session : Session σ Unit} {fed : List Char} {offers : List Task}

/-- A call of `advance` with the next symbol of the input begins a timeline or makes it one stage
longer. -/
theorem timeline_of_advance (hlaid : program.Laid) {next : Session σ Unit} {input : List Char}
    {symbol : Option Char}
    (h : (session.scheduler = .initial program.start ∧ offers = []) ∨
      Moment.Timeline program input ⟨session.scheduler, offers⟩)
    (hrun : Session.advance program.interpreter tracer symbol session = .ok () next)
    (hsymbol : symbol = input[session.scheduler.nextIndex]?) :
    Moment.Timeline program input
      ⟨next.scheduler, advanceOffers program.interpreter tracer symbol session⟩ := by
  obtain ⟨opened, hopen, hrest⟩ := advance_eq_ok hrun
  obtain ⟨hrefusal, hadvance, -, -⟩ := openGeneration_eq_ok hopen
  obtain ⟨hfinished, hpending⟩ := refusal?_eq_none.mp hrefusal
  obtain ⟨root, node, hopens⟩ := Moment.opens_advance ⟨session.scheduler, offers⟩ symbol
  rw [← hadvance] at hopens
  have hnext : opened.scheduler.nextIndex = session.scheduler.nextIndex + 1 :=
    congrArg Control.nextIndex hopens.control
  rcases h with ⟨hinitial, -⟩ | htimeline
  · -- The first generation is seeded,
    have hfirst : opened.scheduler.isFirstGeneration = true := by
      rw [Scheduler.isFirstGeneration, hnext, hinitial]
      rfl
    rw [if_pos hfirst] at hrest
    have hseed := leads_of_perform [] hrest
    obtain ⟨hunderway, hindex⟩ := hopens.underway_of_seed hlaid
      (congrArg (Moment.mk · offers) hinitial) (hinitial ▸ hsymbol)
      (Routine.leads_lift.mp hseed).1
    rw [advanceOffers, hopen]
    simp only [hfirst, if_true]
    exact .first hindex hunderway
  · -- and no later one is.
    obtain ⟨carried, hunderway⟩ := htimeline.underway
    have hfirst : ¬ opened.scheduler.isFirstGeneration = true := by
      have hindex : session.scheduler.nextIndex = _ := hunderway.steady.sound.situated.nextIndex
      rw [Scheduler.isFirstGeneration, hnext, hindex]
      simp
    rw [if_neg hfirst] at hrest
    have hlater := htimeline.opened hopens ((Queue.isEmpty_iff _).mp hpending) hfinished hsymbol
    rw [advanceOffers, hopen, hrest]
    simp only [hfirst]
    exact hlater

/-- Every state of a session is that of a new one, or has a timeline for any input of which what was
fed is a beginning; if the end was given, what was fed is all of it. -/
theorem Reaches.timeline (hlaid : program.Laid)
    (h : Reaches program.interpreter tracer (.initial program.interpreter trace () limit) fed
      session offers) {input : List Char} (hfed : fed <+: input)
    (hend : session.scheduler.isFinished = true → fed = input) :
    (session.scheduler = .initial program.start ∧ offers = []) ∨
      Moment.Timeline program input ⟨session.scheduler, offers⟩ := by
  induction h with
  | start => exact .inl ⟨rfl, rfl⟩
  | @advance fed session next offers symbol h hrun ih =>
    obtain ⟨opened, hopen, -⟩ := advance_eq_ok hrun
    have hfinished := (refusal?_eq_none.mp (openGeneration_eq_ok hopen).1).1
    -- As many symbols were fed as positions were opened, so the next one is the one that is given.
    have hsymbol : symbol = input[session.scheduler.nextIndex]? := by
      rw [← h.length_fed hfinished]
      obtain ⟨rest, rfl⟩ := hfed
      cases symbol with
      | none =>
        have hall := hend (control_of_advance hrun).2.2
        obtain rfl := List.append_right_eq_self.mp hall.symm
        simp
      | some c => simp
    have hbefore := ih ((List.prefix_append _ _).trans hfed) (by simp [hfinished])
    exact .inr (timeline_of_advance hlaid hbefore hrun hsymbol)
  | @work fed session taken next offers task h htake hrun ih =>
    obtain ⟨rest, fuel, hdequeue, -, rfl⟩ := takeTask_eq_ok htake
    have hleads := leads_of_perform offers hrun
    have hfinished : next.scheduler.isFinished = session.scheduler.isFinished :=
      congrArg Control.isFinished ((control_of_perform hrun).trans (control_of_takeTask htake))
    rcases ih hfed (hfinished ▸ hend) with ⟨hinitial, -⟩ | htimeline
    · rw [hinitial] at hdequeue
      cases hdequeue
    · exact .inr (htimeline.work hlaid hdequeue hleads)

end Program

/-! ## A run -/

section Run

variable {α β : Type} {interpreter : Interpreter μ} {tracer : Tracer σ}
  {session taken next : Session σ μ}

theorem bind_ok {first : Call σ μ α} {rest : α → Call σ μ β} {a : α}
    {result : EStateM.Result Halt (Session σ μ) β} (hfirst : first session = .ok a next)
    (hrest : rest a next = result) : (first >>= rest) session = result := by
  change EStateM.bind first rest session = result
  rw [EStateM.bind, hfirst]
  exact hrest

theorem drain_of_task {task : Task} {result : EStateM.Result Halt (Session σ μ) Unit}
    (htake : takeTask session = .ok (some task) taken)
    (hrun : runTask interpreter tracer task taken = .ok () next)
    (hrest : drain interpreter tracer next = result) :
    drain interpreter tracer session = result := by
  obtain ⟨rest, fuel, hdequeue, hfuel, rfl⟩ := takeTask_eq_ok htake
  rw [drain, hfuel, drainWith, htake]
  obtain ⟨store, world, -, rfl⟩ := perform_eq_ok hrun
  simp only [hrun]
  exact hrest

theorem drain_of_none (htake : takeTask session = .ok none session) :
    drain interpreter tracer session = .ok () session := by
  rw [drain]
  cases session.fuel <;> rw [drainWith, htake]

end Run

/-- A grammar with one letter: `S = "a"`. -/
def letter : Grammar := (Grammar.empty "letter").withRule "S" (.literal "a")

theorem compile_letter : ∃ program, Program.compile letter = .ok program ∧
    program.start = ⟨0⟩ ∧ program.entries = #[[⟨1⟩]] ∧
      program.slots = #[⟨none, 0, .accept⟩, ⟨some ⟨0⟩, 0, .terminal (.char 'a')⟩,
        ⟨some ⟨0⟩, 1, .complete ⟨0⟩⟩] :=
  ⟨_, rfl, rfl, rfl, rfl⟩

/-- What happens when the letter is parsed. -/
def letterEvents : List Event :=
  [.advance (.symbol 'a' 0), .push ⟨1⟩ ⟨0⟩ 0 ⟨0⟩ true, .descriptor ⟨1⟩ ⟨1⟩ ⟨0⟩,
    .terminal ⟨1⟩ (.symbol 'a' 0) true, .push ⟨2⟩ ⟨2⟩ 0 ⟨1⟩ true, .advance (.afterInput 1),
    .shift ⟨2⟩ (.symbol 'a' 0), .pop ⟨2⟩ ⟨0⟩ none ⟨0, 1⟩ true, .descriptor ⟨2⟩ ⟨1⟩ ⟨1⟩,
    .pop ⟨1⟩ ⟨2⟩ (some ⟨0⟩) ⟨0, 1⟩ true, .descriptor ⟨0⟩ ⟨0⟩ ⟨2⟩, .accept ⟨0, 1⟩]

/-- The letter is parsed with four tasks, and this is what a tracer is told. The tables of a
scheduler do not compute inside a proof, so the run is unfolded one call and one task at a time. -/
theorem parse_letter_watched {σ : Type} (extend : Event → σ → σ) (trace : σ) :
    ∃ program session, Program.compile letter = .ok program ∧
      program.parse ⟨fun event => .ok (extend event)⟩ trace 4 "a" = .ok true session ∧
        session.trace = letterEvents.foldl (fun trace event => extend event trace) trace := by
  obtain ⟨program, hcompile, hstart, hentries, hslots⟩ := compile_letter
  refine ⟨program, ?_⟩
  have htext : "a".toList = ['a'] := rfl
  rw [Program.parse, parse, htext]
  refine' ⟨_, hcompile, bind_ok (bind_ok (bind_ok _ (drain_of_task _ _ (drain_of_none _))) _)
    (bind_ok (bind_ok _ (drain_of_task _ _ (drain_of_task _ _ (drain_of_task _ _
      (drain_of_none _))))) _), ?_⟩
  all_goals try first | rfl | (simp [hstart, hentries, hslots, advance_eq, openGeneration_eq,
    initial, scheduler, act, perform, runTask, Interpreter.routine, Program.interpreter,
    bind, pure, discard, Functor.discard, Functor.mapConst, StateT.run,
    StateT.lift, StateT.bind, Id.run, Plan.run, Plan.andThen, Plan.request, Plan.forEach, Act.run,
    Act.look, Act.update, Act.offer, Act.emit, Step.run, Operation.run, Operation.act,
    Routine.run, Routine.request, Routine.look, Routine.fail, Routine.note, Routine.current,
    Routine.terminal, Routine.emptyPrefix, Routine.derive, Routine.scheduleNow,
    Routine.scheduleLater, Routine.push, Routine.pop, Program.seed, Program.entries?,
    Program.slot?, Program.acceptLabel, Program.execute, Program.executeTerminal,
    Program.executeComplete, Program.executeAccept, Matcher.accepts, Label.next, Option.any,
    Scheduler.initial, Scheduler.refusal?, Scheduler.nextPosition, Scheduler.isFirstGeneration,
    Scheduler.advance, Scheduler.moveTo, Scheduler.readSymbol, Scheduler.anchorRoot,
    Scheduler.emptyPrefix, Scheduler.consFor, Scheduler.derivationFor, Scheduler.frameFor,
    Scheduler.link, Scheduler.results, Scheduler.recordResult, Scheduler.packSplit,
    Scheduler.packAlternative, Scheduler.offer, Scheduler.enqueue, Scheduler.stage,
    Scheduler.scheduleNow, Scheduler.scheduleLater, Scheduler.append, Scheduler.derive,
    Scheduler.deliver, Scheduler.push, Scheduler.pop, Memory.empty, Queue.empty, Queue.isEmpty,
    Queue.ofList, Queue.enqueue, StackGraph.empty, StackGraph.stack, StackGraph.stack?,
    StackGraph.addFrame, StackGraph.addLink, StackGraph.isNewLink, Stack.link, StackId.initial,
    Forest.empty, Forest.addSymbol, Forest.addPrefix, Forest.symbolNode, Forest.symbolNode?,
    Forest.prefixNode, Forest.prefixNode?, Forest.packSplit, Forest.packAlternative,
    SymbolNode.first, SymbolNode.span, SymbolNode.nonterminal?, SymbolNode.pack?,
    PrefixNode.first, PrefixNode.span, PrefixNode.pack?, Position.offset, Position.char?,
    Fault.unlessSome, insertNew, Array.modify, Array.modifyM, -EStateM.Result.ok.injEq]; rfl)

theorem parse_letter : ∃ program session, Program.compile letter = .ok program ∧
    program.parse .silent () 4 "a" = .ok true session := by
  obtain ⟨program, session, hcompile, hparse, -⟩ := parse_letter_watched (fun _ => id) ()
  exact ⟨program, session, hcompile, hparse⟩

end Session

end Gll
