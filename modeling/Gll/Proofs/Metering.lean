import Gll.Proofs.Showing

/-!
How much work it takes to parse a text.

Fuel decides whether a call comes to its end, and nothing else. A call that comes to its end with
some amount of fuel and spends a part of it comes to the same end with any amount that covers that
part, and with less it halts for want of fuel (`Session.Metered`). Every function from which calls
are built is of this kind, whatever the tracer; for the drain of a generation this is an induction
on the fuel. A tracer, on the other hand, changes nothing that a call does as long as it shows the
events of the program (`Session.Shadows`).

So the work that parsing a text takes (`Program.Takes`) is a property of the text: there is such a
number (`Program.exists_takes`) and only one (`Program.Takes.unique`), and how a parse ends, watched
or not, depends on whether the fuel covers it (`Takes.exists_parse`, `Takes.exhausted`).
-/

set_option autoImplicit false

namespace Gll

namespace Session

variable {σ μ α β : Type}

/-! ## Other amounts of fuel -/

/-- A session with another amount of fuel. -/
def refuelled (fuel limit : Nat) (session : Session σ μ) : Session σ μ :=
  { session with fuel, limit }

/-- What comes of the same with any amount of fuel, if it costs so much: the same end if the fuel
covers the cost, and otherwise the error that says that it did not. -/
def Costs (spent : Nat) (a : α) (next : Session σ μ)
    (outcome : Nat → Nat → EStateM.Result Halt (Session σ μ) α) : Prop :=
  ∀ fuel limit, (spent ≤ fuel → outcome fuel limit = .ok a (next.refuelled (fuel - spent) limit)) ∧
    (fuel < spent → ∃ last, outcome fuel limit = .error (.error (.fuelExhausted limit)) last)

/-- Fuel decides whether a call comes to its end, and nothing else. -/
def Metered (call : Call σ μ α) : Prop :=
  ∀ (session next : Session σ μ) (a : α), call session = .ok a next →
    ∃ spent, next.fuel + spent = session.fuel ∧
      Costs spent a next fun fuel limit => call (session.refuelled fuel limit)

/-- What costs nothing comes to the same end with any amount of fuel. -/
theorem costs_zero {a : α} {next : Session σ μ}
    {outcome : Nat → Nat → EStateM.Result Halt (Session σ μ) α}
    (h : ∀ fuel limit, outcome fuel limit = .ok a (next.refuelled fuel limit)) :
    Costs 0 a next outcome :=
  fun fuel limit => ⟨fun _ => h fuel limit, fun hlt => absurd hlt (Nat.not_lt_zero fuel)⟩

section Metered

variable {interpreter : Interpreter μ} {tracer : Tracer σ}

/-- A call that spends nothing is metered if it does the same with any amount of fuel. -/
theorem metered_of_free {call : Call σ μ α}
    (h : ∀ (session next : Session σ μ) (a : α), call session = .ok a next →
      next.fuel = session.fuel ∧ ∀ fuel limit,
        call (session.refuelled fuel limit) = .ok a (next.refuelled fuel limit)) :
    Metered call := by
  intro session next a hcall
  obtain ⟨hfuel, hother⟩ := h session next a hcall
  exact ⟨0, hfuel, costs_zero hother⟩

theorem metered_pure (a : α) : Metered (pure a : Call σ μ α) := by
  apply metered_of_free
  intro session next b hcall
  obtain ⟨rfl, rfl⟩ := EStateM.Result.ok.inj hcall
  exact ⟨rfl, fun _ _ => rfl⟩

theorem metered_throw (halt : Halt) : Metered (throw halt : Call σ μ α) := by
  intro session next b hcall
  cases hcall

theorem metered_act (action : Act α) : Metered (act tracer action : Call σ μ α) := by
  apply metered_of_free
  intro session next a hcall
  obtain ⟨world, hrun, rfl⟩ := act_eq_ok hcall
  refine ⟨rfl, fun fuel limit => ?_⟩
  have hrun : action.run tracer (session.refuelled fuel limit).world = .ok a world := hrun
  rw [act, hrun]
  rfl

/-- A routine is carried out in the same way with any amount of fuel. -/
theorem perform_refuelled {routine : StateT μ Routine Unit} {session next : Session σ μ}
    (h : perform tracer routine session = .ok () next) :
    next.fuel = session.fuel ∧ ∀ fuel limit,
      perform tracer routine (session.refuelled fuel limit)
        = .ok () (next.refuelled fuel limit) := by
  obtain ⟨store, world, hrun, rfl⟩ := perform_eq_ok h
  refine ⟨rfl, fun fuel limit => ?_⟩
  have hrun : (routine.run (session.refuelled fuel limit).store).run tracer
      (session.refuelled fuel limit).world = .ok ((), store) world := hrun
  rw [perform, hrun]
  rfl

theorem metered_perform (routine : StateT μ Routine Unit) : Metered (perform tracer routine) :=
  metered_of_free fun _ _ _ h => perform_refuelled h

theorem bind_error {first : Call σ μ α} {rest : α → Call σ μ β} {session last : Session σ μ}
    {halt : Halt} (h : first session = .error halt last) :
    (first >>= rest) session = .error halt last := by
  change EStateM.bind first rest session = .error halt last
  rw [EStateM.bind, h]

theorem exists_of_bind_ok {first : Call σ μ α} {rest : α → Call σ μ β} {session last : Session σ μ}
    {b : β} (h : (first >>= rest) session = .ok b last) :
    ∃ a next, first session = .ok a next ∧ rest a next = .ok b last := by
  change EStateM.bind first rest session = .ok b last at h
  rw [EStateM.bind] at h
  split at h
  · rename_i a next hrun
    exact ⟨a, next, hrun, h⟩
  · cases h

/-- What one call leaves of the fuel is what the next one has. -/
theorem Metered.bind {first : Call σ μ α} {rest : α → Call σ μ β} (hfirst : Metered first)
    (hrest : ∀ a, Metered (rest a)) : Metered (first >>= rest) := by
  intro session last b hcall
  obtain ⟨a, next, hrun, hcall⟩ := exists_of_bind_ok hcall
  obtain ⟨spent, hspent, hcosts⟩ := hfirst session next a hrun
  obtain ⟨spent', hspent', hcosts'⟩ := hrest a next last b hcall
  refine ⟨spent + spent', by omega, fun fuel limit => ⟨fun hle => ?_, fun hlt => ?_⟩⟩
  · have hdone := (hcosts' (fuel - spent) limit).1 (by omega)
    rw [Nat.sub_sub] at hdone
    exact bind_ok ((hcosts fuel limit).1 (by omega)) hdone
  · by_cases hle : spent ≤ fuel
    · obtain ⟨halted, hrun⟩ := (hcosts' (fuel - spent) limit).2 (by omega)
      exact ⟨halted, bind_ok ((hcosts fuel limit).1 hle) hrun⟩
    · obtain ⟨halted, hrun⟩ := (hcosts fuel limit).2 (by omega)
      exact ⟨halted, bind_error hrun⟩

theorem metered_openGeneration (symbol : Option Char) :
    Metered (openGeneration tracer symbol : Call σ μ Unit) := by
  refine (metered_act _).bind fun refusal => ?_
  cases refusal with
  | none => exact metered_act _
  | some error => exact metered_throw _

theorem metered_advance (symbol : Option Char) : Metered (advance interpreter tracer symbol) := by
  refine (metered_openGeneration symbol).bind fun _ => (metered_act _).bind fun isFirst => ?_
  cases isFirst with
  | true => exact metered_perform _
  | false => exact metered_pure _

/-! ## The drain of a generation -/

theorem takeTask_of_none {session : Session σ μ} (h : session.scheduler.dequeue? = none) :
    takeTask session = .ok none session := by
  obtain ⟨⟨scheduler, trace⟩, store, fuel, limit⟩ := session
  simp only [Session.scheduler] at h
  simp only [takeTask, h]

theorem takeTask_of_some {session : Session σ μ} {task : Task} {rest : Scheduler} {fuel : Nat}
    (h : session.scheduler.dequeue? = some (task, rest)) (hfuel : session.fuel = fuel + 1) :
    takeTask session = .ok (some task) { session with world := ⟨rest, session.trace⟩, fuel } := by
  obtain ⟨⟨scheduler, trace⟩, store, fuel', limit⟩ := session
  simp only [Session.scheduler] at h hfuel
  subst hfuel
  simp only [takeTask, Session.trace, h]

/-- Without fuel no task is taken out. -/
theorem takeTask_exhausted {session : Session σ μ} (h : session.scheduler.dequeue? ≠ none)
    (hfuel : session.fuel = 0) :
    takeTask session = .error (.error (.fuelExhausted session.limit)) session := by
  obtain ⟨⟨scheduler, trace⟩, store, fuel, limit⟩ := session
  simp only [Session.scheduler] at h hfuel
  subst hfuel
  obtain ⟨⟨task, rest⟩, hsome⟩ := Option.ne_none_iff_exists'.mp h
  simp only [takeTask, hsome]

theorem drain_exhausted {session : Session σ μ} (h : session.scheduler.dequeue? ≠ none)
    (hfuel : session.fuel = 0) : drain interpreter tracer session
      = .error (.error (.fuelExhausted session.limit)) session := by
  rw [drain, hfuel, drainWith, takeTask_exhausted h hfuel]

theorem exists_of_drain_ok {session taken next : Session σ μ} {task : Task}
    (htake : takeTask session = .ok (some task) taken)
    (h : drain interpreter tracer session = .ok () next) :
    ∃ worked, runTask interpreter tracer task taken = .ok () worked ∧
      drain interpreter tracer worked = .ok () next := by
  obtain ⟨rest, fuel, hdequeue, hfuel, rfl⟩ := takeTask_eq_ok htake
  rw [drain, hfuel, drainWith, htake] at h
  dsimp only at h
  split at h
  · rename_i worked hrun
    refine ⟨worked, hrun, ?_⟩
    rw [drain, (perform_refuelled hrun).1]
    exact h
  · cases h

/-- Draining takes as many tasks out as it spends units of fuel. -/
theorem metered_drain : Metered (drain interpreter tracer) := by
  intro session next a h
  -- The induction is on the fuel that was enough.
  induction hfuel : session.fuel generalizing session with
  | zero =>
    by_cases hdequeue : session.scheduler.dequeue? = none
    · rw [drain_of_none (takeTask_of_none hdequeue)] at h
      obtain ⟨-, rfl⟩ := EStateM.Result.ok.inj h
      exact ⟨0, hfuel, costs_zero fun _ _ => drain_of_none (takeTask_of_none hdequeue)⟩
    · rw [drain_exhausted hdequeue hfuel] at h
      cases h
  | succ rest ih =>
    cases hdequeue : session.scheduler.dequeue? with
    | none =>
      rw [drain_of_none (takeTask_of_none hdequeue)] at h
      obtain ⟨-, rfl⟩ := EStateM.Result.ok.inj h
      exact ⟨0, hfuel, costs_zero fun _ _ => drain_of_none (takeTask_of_none hdequeue)⟩
    | some dequeued =>
      obtain ⟨task, scheduler⟩ := dequeued
      obtain ⟨worked, hrun, hdrain⟩ := exists_of_drain_ok (takeTask_of_some hdequeue hfuel) h
      obtain ⟨hfree, hrun⟩ := perform_refuelled hrun
      obtain ⟨spent, hspent, hcosts⟩ := ih worked hdrain hfree
      refine ⟨spent + 1, by omega, fun fuel limit => ?_⟩
      have hdequeue' : (session.refuelled fuel limit).scheduler.dequeue? = some (task, scheduler) :=
        hdequeue
      cases fuel with
      | zero =>
        refine ⟨fun hle => by omega, fun _ => ⟨session.refuelled 0 limit, ?_⟩⟩
        exact drain_exhausted (hdequeue' ▸ Option.some_ne_none _) rfl
      | succ fuel =>
        have htake := takeTask_of_some hdequeue' rfl
        refine ⟨fun hle => ?_, fun hlt => ?_⟩
        · rw [Nat.add_sub_add_right]
          exact drain_of_task htake (hrun fuel limit) ((hcosts fuel limit).1 (by omega))
        · obtain ⟨halted, hhalt⟩ := (hcosts fuel limit).2 (by omega)
          exact ⟨halted, drain_of_task htake (hrun fuel limit) hhalt⟩

/-! ## Calls -/

theorem metered_feed (symbol : Option Char) : Metered (feed interpreter tracer symbol) :=
  (metered_advance symbol).bind fun _ => metered_drain

theorem metered_feedAll (text : List Char) : Metered (feedAll interpreter tracer text) := by
  induction text with
  | nil => exact metered_pure ()
  | cons c rest ih => exact (metered_feed (some c)).bind fun _ => ih

theorem metered_isAccepted : Metered (do return (← get).isAccepted : Call σ μ Bool) := by
  apply metered_of_free
  intro session next a hcall
  obtain ⟨rfl, rfl⟩ := EStateM.Result.ok.inj hcall
  exact ⟨rfl, fun _ _ => rfl⟩

/-- Fuel decides whether a parse comes to its end, and nothing else. -/
theorem metered_parse (text : String) : Metered (parse interpreter tracer text) :=
  (metered_feedAll text.toList).bind fun _ => (metered_feed none).bind fun _ => metered_isAccepted

end Metered

/-! ## Watched and not -/

section Shadows

variable {program : Program} {tracer : Tracer σ} {limit : Nat}

/-- What a call does when nobody watches, another does while the events of the program are shown. -/
def Shadows (program : Program) (limit : Nat) (quiet : Call Unit Unit α) (shown : Call σ Unit α) :
    Prop :=
  ∀ (session : Session σ Unit) (last : Session Unit Unit) (a : α),
    Attended program limit session → quiet session.unseen = .ok a last →
      ∃ next, shown session = .ok a next ∧ next.unseen = last ∧ Attended program limit next

theorem shadows_pure (a : α) : Shadows program limit (pure a) (pure a : Call σ Unit α) := by
  intro session last b h hquiet
  obtain ⟨rfl, rfl⟩ := EStateM.Result.ok.inj hquiet
  exact ⟨session, rfl, rfl, h⟩

theorem shadows_isAccepted : Shadows program limit (do return (← get).isAccepted)
    (do return (← get).isAccepted : Call σ Unit Bool) := by
  intro session last b h hquiet
  obtain ⟨rfl, rfl⟩ := EStateM.Result.ok.inj hquiet
  exact ⟨session, rfl, rfl, h⟩

theorem Shadows.bind {quiet : Call Unit Unit α} {shown : Call σ Unit α}
    {quietRest : α → Call Unit Unit β} {shownRest : α → Call σ Unit β}
    (hfirst : Shadows program limit quiet shown)
    (hrest : ∀ a, Shadows program limit (quietRest a) (shownRest a)) :
    Shadows program limit (quiet >>= quietRest) (shown >>= shownRest) := by
  intro session last b h hquiet
  obtain ⟨a, between, hrun, hquiet⟩ := exists_of_bind_ok hquiet
  obtain ⟨next, hshown, rfl, hnext⟩ := hfirst session between a h hrun
  obtain ⟨final, hfinal, hunseen, hattended⟩ := hrest a next last b hnext hquiet
  exact ⟨final, bind_ok hshown hfinal, hunseen, hattended⟩

variable (hwhole : program.Whole) (hshows : tracer.Shows program)
include hwhole hshows

theorem shadows_advance (symbol : Option Char) :
    Shadows program limit (advance program.interpreter .silent symbol)
      (advance program.interpreter tracer symbol) := by
  intro session last a h hquiet
  obtain ⟨hrefusal, -⟩ := control_of_advance hquiet
  obtain ⟨next, hrun, hunseen, hnext⟩ := h.advance hwhole hshows symbol hrefusal
  obtain ⟨-, rfl⟩ := EStateM.Result.ok.inj (hquiet.symm.trans hunseen)
  exact ⟨next, hrun, rfl, hnext⟩

theorem shadows_drain :
    Shadows program limit (drain program.interpreter .silent)
      (drain program.interpreter tracer) := by
  intro session last a h hquiet
  -- On the fuel, of which every task takes one unit with any tracer.
  induction hfuel : session.fuel generalizing session with
  | zero =>
    by_cases hdequeue : session.scheduler.dequeue? = none
    · have hunseen : session.unseen.scheduler.dequeue? = none := hdequeue
      rw [drain_of_none (takeTask_of_none hunseen)] at hquiet
      obtain ⟨-, rfl⟩ := EStateM.Result.ok.inj hquiet
      exact ⟨session, drain_of_none (takeTask_of_none hdequeue), rfl, h⟩
    · have hunseen : session.unseen.scheduler.dequeue? ≠ none := hdequeue
      rw [drain_exhausted hunseen hfuel] at hquiet
      cases hquiet
  | succ rest ih =>
    cases hdequeue : session.scheduler.dequeue? with
    | none =>
      have hunseen : session.unseen.scheduler.dequeue? = none := hdequeue
      rw [drain_of_none (takeTask_of_none hunseen)] at hquiet
      obtain ⟨-, rfl⟩ := EStateM.Result.ok.inj hquiet
      exact ⟨session, drain_of_none (takeTask_of_none hdequeue), rfl, h⟩
    | some dequeued =>
      obtain ⟨task, scheduler⟩ := dequeued
      have htake := takeTask_of_some hdequeue hfuel
      obtain ⟨worked, hrun, hunseen, hworked⟩ := h.work hwhole hshows htake
      obtain ⟨quietWorked, hquietRun, hquiet⟩ :=
        exists_of_drain_ok (takeTask_unseen htake) hquiet
      obtain ⟨-, rfl⟩ := EStateM.Result.ok.inj (hquietRun.symm.trans hunseen)
      obtain ⟨next, hdrain, hlast, hnext⟩ :=
        ih worked hworked hquiet (perform_refuelled hrun).1
      exact ⟨next, drain_of_task htake hrun hdrain, hlast, hnext⟩

theorem shadows_feed (symbol : Option Char) :
    Shadows program limit (feed program.interpreter .silent symbol)
      (feed program.interpreter tracer symbol) :=
  (shadows_advance hwhole hshows symbol).bind fun _ => shadows_drain hwhole hshows

theorem shadows_feedAll (text : List Char) :
    Shadows program limit (feedAll program.interpreter .silent text)
      (feedAll program.interpreter tracer text) := by
  induction text with
  | nil => exact shadows_pure ()
  | cons c rest ih => exact (shadows_feed hwhole hshows (some c)).bind fun _ => ih

/-- What a parse does when nobody watches, it also does while the events of the program are
shown. -/
theorem shadows_parse (text : String) :
    Shadows program limit (parse program.interpreter .silent text)
      (parse program.interpreter tracer text) :=
  (shadows_feedAll hwhole hshows text.toList).bind fun _ =>
    (shadows_feed hwhole hshows none).bind fun _ => shadows_isAccepted

end Shadows

end Session

namespace Program

/-! ## The work that a text takes -/

variable {program : Program} {text : String} {tasks : Nat}

/-- Parsing a text takes that many tasks: a parse that comes to its end spends as much fuel. -/
def Takes (program : Program) (text : String) (tasks : Nat) : Prop :=
  ∃ limit accepted session, program.parse .silent () limit text = .ok accepted session ∧
    session.fuel + tasks = limit

/-- Every text can be parsed with enough fuel. -/
theorem exists_takes (hwhole : program.Whole) (text : String) :
    ∃ tasks, program.Takes text tasks := by
  let limit := (text.toList.length + 1) * program.generationFuel text.toList.length
  have hends : Session.Ends .silent (fun _ _ => True) (program.parse .silent () limit text) :=
    Session.Reaches.start.parse_ends hwhole.laid hwhole.closed rfl (Nat.le_refl limit)
  obtain ⟨accepted, session, hparse, -⟩ := hends.exists_ok Tracer.isTotal_silent
  obtain ⟨tasks, hspent, -⟩ := Session.metered_parse text _ _ _ hparse
  exact ⟨tasks, limit, accepted, session, hparse, hspent⟩

/-- A parse that comes to its end tells whether the text is in the language of the start
nonterminal. -/
theorem isAccepted_iff_of_parse {σ : Type} {tracer : Tracer σ} {trace : σ} {limit : Nat}
    {accepted : Bool} {session : Session σ Unit} (hlaid : program.Laid)
    (h : program.parse tracer trace limit text = .ok accepted session) :
    accepted = true ↔ text.toList ∈ program.rightHandSides.language program.start := by
  obtain ⟨⟨offers, hreaches⟩, hdequeue, hopen, hfinished, rfl⟩ :=
    Session.Reaches.start.of_parse h
  rw [List.nil_append] at hreaches
  exact isAccepted_iff_of_timeline hlaid (hreaches.timeline_fed hlaid hopen)
    (pending_eq_nil_of_dequeue? offers hdequeue) hfinished

namespace Takes

variable (h : program.Takes text tasks)
include h

/-- With more or less fuel, a parse that nobody watches comes to the same end or to none. -/
theorem parse_silent : ∃ accepted session, Session.Costs tasks accepted session fun fuel limit =>
    Session.parse program.interpreter .silent text
      ((Session.initial program.interpreter () () 0).refuelled fuel limit) := by
  obtain ⟨limit, accepted, session, hparse, hspent⟩ := h
  obtain ⟨spent, hspent', hcosts⟩ := Session.metered_parse text _ _ _ hparse
  have heq : session.fuel + spent = limit := hspent'
  obtain rfl : spent = tasks := by omega
  exact ⟨accepted, session, hcosts⟩

/-- There is only one such number. -/
theorem unique {tasks' : Nat} (h' : program.Takes text tasks') : tasks = tasks' := by
  obtain ⟨limit, accepted, session, hparse, hspent⟩ := h'
  obtain ⟨accepted', session', hcosts⟩ := h.parse_silent
  by_cases hle : tasks ≤ limit
  · have hparse' := (hcosts limit limit).1 hle
    obtain ⟨-, hsession⟩ := EStateM.Result.ok.inj (hparse.symm.trans hparse')
    have hfuel : session.fuel = limit - tasks := congrArg Session.fuel hsession
    omega
  · obtain ⟨last, hhalt⟩ := (hcosts limit limit).2 (by omega)
    cases hparse.symm.trans hhalt

variable (hwhole : program.Whole) {σ : Type} {tracer : Tracer σ} (hshows : tracer.Shows program)
  (trace : σ)
include hwhole hshows

/-- With fuel for its work a parse comes to its end, whoever watches, and tells whether the text is
in the language of the start nonterminal. -/
theorem exists_parse {fuel : Nat} (hle : tasks ≤ fuel) :
    ∃ accepted session, program.parse tracer trace fuel text = .ok accepted session ∧
      session.fuel + tasks = fuel ∧ Session.Attended program fuel session ∧
      (accepted = true ↔ text.toList ∈ program.rightHandSides.language program.start) := by
  obtain ⟨accepted, quiet, hcosts⟩ := h.parse_silent
  have hquiet := (hcosts fuel fuel).1 hle
  obtain ⟨session, hparse, hunseen, hattended⟩ := Session.shadows_parse hwhole hshows text
    _ _ _ (.initial program trace fuel) hquiet
  have hfuel : session.fuel = fuel - tasks := congrArg Session.fuel hunseen
  exact ⟨accepted, session, hparse, by omega, hattended,
    isAccepted_iff_of_parse hwhole.laid hparse⟩

/-- Without fuel for its work a parse halts and says so, whoever watches. -/
theorem exhausted {fuel : Nat} (hlt : fuel < tasks) :
    ∃ session, program.parse tracer trace fuel text
      = .error (.error (.fuelExhausted fuel)) session := by
  obtain ⟨accepted, session, hparse, hspent, -⟩ :=
    h.exists_parse hwhole hshows trace (Nat.le_refl tasks)
  obtain ⟨spent, hspent', hcosts⟩ := Session.metered_parse text _ _ _ hparse
  have heq : session.fuel + spent = tasks := hspent'
  exact (hcosts fuel fuel).2 (by omega)

end Takes

end Program

end Gll
