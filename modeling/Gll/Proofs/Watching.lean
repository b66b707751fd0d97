import Gll.Proofs.Deeds

/-!
Two runs that are watched by different tracers.

What a parse does never depends on a trace, so a run under one tracer is mirrored by a run under
another one, step by step, as long as the other tracer shows what the first one shows
(`Tracer.Follows`). The sessions then agree in everything but their traces, and the traces stay in
whatever relation the two tracers keep. The argument goes up the layers once: a step, a plan of
steps, a routine, a call, and all calls of a user (`Session.after_alike`). A call that breaks off at
an event that the first tracer refuses is not mirrored, since the other one may go on there; a call
that ends with an error is.

The two relations of interest are the one that always holds, with a tracer that keeps nothing on the
other side, and "the trace is what one gets by showing the recorded events to the tracer", with a
recorder on the other side (`Tracer.follows_recorder`).
-/

set_option autoImplicit false

namespace Gll

/-! ## Mirrored actions -/

section Mirrors

variable {ω κ κ' α β : Type}

/-- What the first action comes to, the second one comes to from a related state: the same value and
again related states, and also the same failure if it is one that matters. -/
def Mirrors (related : κ → κ' → Prop) (matters : ω → Prop) (first : EStateM ω κ α)
    (second : EStateM ω κ' α) : Prop :=
  ∀ ⦃before before'⦄, related before before' →
    match first before with
    | .ok a after => ∃ after', second before' = .ok a after' ∧ related after after'
    | .error e after =>
      matters e → ∃ after', second before' = .error e after' ∧ related after after'

variable {related : κ → κ' → Prop} {matters : ω → Prop}

theorem mirrors_pure (a : α) : Mirrors related matters (pure a) (pure a) :=
  fun _ before' h => ⟨before', rfl, h⟩

theorem mirrors_throw (e : ω) :
    Mirrors related matters (throw e : EStateM ω κ α) (throw e) :=
  fun _ before' h _ => ⟨before', rfl, h⟩

theorem Mirrors.bind {first : EStateM ω κ α} {second : EStateM ω κ' α} {next : α → EStateM ω κ β}
    {next' : α → EStateM ω κ' β} (h : Mirrors related matters first second)
    (hnext : ∀ a, Mirrors related matters (next a) (next' a)) :
    Mirrors related matters (first >>= next) (second >>= next') := by
  intro before before' hbefore
  have hfirst := h hbefore
  change match EStateM.bind first next before with
    | .ok a after =>
      ∃ after', EStateM.bind second next' before' = .ok a after' ∧ related after after'
    | .error e after => matters e →
      ∃ after', EStateM.bind second next' before' = .error e after' ∧ related after after'
  rw [EStateM.bind]
  -- Where the first step ends well, so does its mirror, and both go on from states that are
  -- related.
  cases hrun : first before with
  | ok a between =>
    rw [hrun] at hfirst
    obtain ⟨between', hrun', hbetween⟩ := hfirst
    simp only [EStateM.bind, hrun']
    exact hnext a hbetween
  | error e between =>
    rw [hrun] at hfirst
    intro hmatters
    obtain ⟨between', hrun', hbetween⟩ := hfirst hmatters
    simp only [EStateM.bind, hrun']
    exact ⟨between', rfl, hbetween⟩

theorem Plan.run_ask {ε : Type → Type 1} {carry : {β : Type} → ε β → EStateM ω κ β}
    (request : ε β) (next : β → Plan ε α) :
    (ask request next).run carry = carry request >>= fun answer => (next answer).run carry := by
  funext before
  change _ = EStateM.bind (carry request) _ before
  rw [run, EStateM.bind]
  cases carry request before <;> rfl

/-- A plan is mirrored if each of its requests is. -/
theorem Plan.mirrors_run {ε : Type → Type 1} {carry : {β : Type} → ε β → EStateM ω κ β}
    {carry' : {β : Type} → ε β → EStateM ω κ' β}
    (h : ∀ {β : Type} (request : ε β), Mirrors related matters (carry request) (carry' request))
    (plan : Plan ε α) : Mirrors related matters (plan.run carry) (plan.run carry') := by
  induction plan with
  | done value => exact mirrors_pure value
  | ask request next ih =>
    rw [run_ask, run_ask]
    exact (h request).bind ih

end Mirrors

/-! ## Tracers -/

section Tracers

variable {σ σ' : Type}

/-- What the first tracer shows, the second one shows too, and the traces stay related. -/
def Tracer.Follows (tracer : Tracer σ) (tracer' : Tracer σ') (related : σ → σ' → Prop) : Prop :=
  ∀ ⦃event extend⦄, tracer.record event = .ok extend →
    ∃ extend', tracer'.record event = .ok extend' ∧
      ∀ trace trace', related trace trace' → related (extend trace) (extend' trace')

/-- Shows events to a tracer one after the other. -/
def Tracer.replay (tracer : Tracer σ) : List Event → σ → Except Fault σ
  | [], trace => .ok trace
  | event :: rest, trace => do
    let extend ← tracer.record event
    tracer.replay rest (extend trace)

theorem Tracer.replay_concat (tracer : Tracer σ) (events : List Event) (event : Event) (trace : σ) :
    tracer.replay (events ++ [event]) trace = do
      let between ← tracer.replay events trace
      let extend ← tracer.record event
      return extend between := by
  induction events generalizing trace with
  | nil => rfl
  | cons head rest ih =>
    simp only [List.cons_append, Tracer.replay]
    cases tracer.record head with
    | ok extend => exact ih (extend trace)
    | error fault => rfl

/-- Keeping nothing goes with every tracer. -/
theorem Tracer.follows_silent (tracer : Tracer σ) :
    tracer.Follows .silent fun _ _ => True :=
  fun _ _ _ => ⟨id, rfl, fun _ _ h => h⟩

/-- With every tracer goes a recorder of the events from which its trace can be had. -/
theorem Tracer.follows_recorder (tracer : Tracer σ) (start : σ) :
    tracer.Follows .recorder fun trace events => tracer.replay events.toList start = .ok trace := by
  intro event extend hrecord
  refine ⟨fun events => events.push event, rfl, fun trace events hreplay => ?_⟩
  simp only [Array.toList_push, tracer.replay_concat, hreplay, bind, Except.bind, hrecord]
  rfl

variable {tracer : Tracer σ} {tracer' : Tracer σ'} {related : σ → σ' → Prop}

/-- The same scheduler, with related traces. -/
def World.Alike (related : σ → σ' → Prop) (world : World σ) (world' : World σ') : Prop :=
  world.scheduler = world'.scheduler ∧ related world.trace world'.trace

/-- What goes through with the first trace goes through with the second one and leaves the same
scheduler. -/
theorem Mirrors.exists_ok {α : Type} {matters : Fault → Prop} {first : EStateM Fault (World σ) α}
    {second : EStateM Fault (World σ') α} (h : Mirrors (World.Alike related) matters first second)
    {scheduler : Scheduler} {trace : σ} {trace' : σ'} (htrace : related trace trace') {value : α}
    {world : World σ} (hfirst : first ⟨scheduler, trace⟩ = .ok value world) :
    ∃ extended', second ⟨scheduler, trace'⟩ = .ok value ⟨world.scheduler, extended'⟩ ∧
      related world.trace extended' := by
  have hworlds : World.Alike related ⟨scheduler, trace⟩ ⟨scheduler, trace'⟩ := ⟨rfl, htrace⟩
  have hsecond := h hworlds
  rw [hfirst] at hsecond
  obtain ⟨⟨_, extended'⟩, hrun, hsame, hextended⟩ := hsecond
  cases hsame
  exact ⟨extended', hrun, hextended⟩

theorem Step.mirrors (h : tracer.Follows tracer' related) {α : Type} (step : Step α) :
    Mirrors (World.Alike related) (fun _ => False) (step.run tracer) (step.run tracer') := by
  rintro ⟨scheduler, trace⟩ ⟨_, trace'⟩ ⟨rfl, htrace⟩
  -- Only an event that is shown looks at the tracer; all other steps leave the trace alone.
  cases step with
  | look read =>
    simp only [Step.run]
    cases read scheduler with
    | ok value => exact ⟨_, rfl, rfl, htrace⟩
    | error fault => exact False.elim
  | update change => exact ⟨_, rfl, rfl, htrace⟩
  | offer task => exact ⟨_, rfl, rfl, htrace⟩
  | emit event =>
    simp only [Step.run]
    cases hrecord : tracer.record event with
    | ok extend =>
      obtain ⟨extend', hrecord', hextend⟩ := h hrecord
      rw [hrecord']
      exact ⟨_, rfl, rfl, hextend trace trace' htrace⟩
    | error fault => exact False.elim

theorem Act.mirrors (h : tracer.Follows tracer' related) {α : Type} (act : Act α) :
    Mirrors (World.Alike related) (fun _ => False) (act.run tracer) (act.run tracer') :=
  Plan.mirrors_run (Step.mirrors h) act

theorem Routine.mirrors (h : tracer.Follows tracer' related) {α : Type} (routine : Routine α) :
    Mirrors (World.Alike related) (fun _ => False) (routine.run tracer) (routine.run tracer') := by
  have hoperation : ∀ {β : Type} (operation : Operation β), Mirrors (World.Alike related)
      (fun _ => False) (operation.run tracer) (operation.run tracer') :=
    fun operation => Act.mirrors h operation.act
  exact Plan.mirrors_run hoperation routine

end Tracers

/-! ## Sessions -/

namespace Session

variable {σ σ' μ α : Type} {tracer : Tracer σ} {tracer' : Tracer σ'} {related : σ → σ' → Prop}

/-- The same session but for the traces, which are related. -/
def Alike (related : σ → σ' → Prop) (session : Session σ μ) (session' : Session σ' μ) : Prop :=
  session.unseen = session'.unseen ∧ related session.trace session'.trace

/-- How calls end that do not break off. -/
def IsError (halt : Halt) : Prop := ∃ error, halt = .error error

theorem Alike.cases {session : Session σ μ} {session' : Session σ' μ}
    (h : Alike related session session') : ∃ scheduler store fuel limit trace trace',
      session = ⟨⟨scheduler, trace⟩, store, fuel, limit⟩ ∧
        session' = ⟨⟨scheduler, trace'⟩, store, fuel, limit⟩ ∧ related trace trace' := by
  obtain ⟨⟨scheduler, trace⟩, store, fuel, limit⟩ := session
  obtain ⟨⟨scheduler', trace'⟩, store', fuel', limit'⟩ := session'
  obtain ⟨hsame, htrace⟩ := h
  simp only [unseen, Session.scheduler, Session.mk.injEq, World.mk.injEq, and_true] at hsame
  obtain ⟨rfl, rfl, rfl, rfl⟩ := hsame
  exact ⟨_, _, _, _, _, _, rfl, rfl, htrace⟩

theorem drainWith_zero (interpreter : Interpreter μ) (tracer : Tracer σ) :
    drainWith interpreter tracer 0 = takeTask >>= fun _ => pure () := by
  funext session
  change _ = EStateM.bind takeTask _ session
  rw [drainWith, EStateM.bind]
  cases takeTask session <;> rfl

theorem drainWith_succ (interpreter : Interpreter μ) (tracer : Tracer σ) (fuel : Nat) :
    drainWith interpreter tracer (fuel + 1) = takeTask >>= fun next =>
      match next with
      | none => pure ()
      | some task => runTask interpreter tracer task >>= fun _ =>
        drainWith interpreter tracer fuel := by
  funext session
  change _ = EStateM.bind takeTask _ session
  rw [drainWith, EStateM.bind]
  cases takeTask session with
  | error halt last => rfl
  | ok next taken =>
    cases next with
    | none => rfl
    | some task =>
      change _ = EStateM.bind (runTask interpreter tracer task) _ taken
      dsimp only
      rw [EStateM.bind]
      cases runTask interpreter tracer task taken <;> rfl

section Calls

variable (h : tracer.Follows tracer' related)
include h

theorem mirrors_act (action : Act α) :
    Mirrors (Alike related) IsError (act tracer action : Call σ μ α) (act tracer' action) := by
  intro session session' halike
  obtain ⟨scheduler, store, fuel, limit, trace, trace', rfl, rfl, htrace⟩ := halike.cases
  simp only [act]
  cases hact : action.run tracer ⟨scheduler, trace⟩ with
  | ok value world =>
    obtain ⟨extended', hact', hextended⟩ := (Act.mirrors h action).exists_ok htrace hact
    simp only [hact']
    exact ⟨_, rfl, rfl, hextended⟩
  | error fault world =>
    rintro ⟨error, herror⟩
    cases herror

theorem mirrors_perform (routine : StateT μ Routine Unit) :
    Mirrors (Alike related) IsError (perform tracer routine) (perform tracer' routine) := by
  intro session session' halike
  obtain ⟨scheduler, store, fuel, limit, trace, trace', rfl, rfl, htrace⟩ := halike.cases
  simp only [perform]
  cases hroutine : (routine.run store).run tracer ⟨scheduler, trace⟩ with
  | ok value world =>
    obtain ⟨extended', hroutine', hextended⟩ :=
      (Routine.mirrors h (routine.run store)).exists_ok htrace hroutine
    simp only [hroutine']
    exact ⟨_, rfl, rfl, hextended⟩
  | error fault world =>
    rintro ⟨error, herror⟩
    cases herror

theorem mirrors_openGeneration (symbol : Option Char) :
    Mirrors (Alike related) IsError (openGeneration tracer symbol : Call σ μ Unit)
      (openGeneration tracer' symbol) := by
  refine (mirrors_act h _).bind fun refusal => ?_
  cases refusal with
  | none => exact mirrors_act h _
  | some error => exact mirrors_throw _

variable (interpreter : Interpreter μ)

theorem mirrors_advance (symbol : Option Char) :
    Mirrors (Alike related) IsError (advance interpreter tracer symbol)
      (advance interpreter tracer' symbol) := by
  refine (mirrors_openGeneration h symbol).bind fun _ => (mirrors_act h _).bind fun isFirst => ?_
  cases isFirst with
  | true => exact mirrors_perform h _
  | false => exact mirrors_pure ()

omit h in
/-- The same task is taken out, or none can be. -/
theorem mirrors_takeTask :
    Mirrors (Alike related) IsError (takeTask : Call σ μ (Option Task)) takeTask := by
  intro session session' halike
  obtain ⟨scheduler, store, fuel, limit, trace, trace', rfl, rfl, htrace⟩ := halike.cases
  -- Tasks and fuel are the same on both sides, and so is an error for want of fuel.
  simp only [takeTask]
  cases scheduler.dequeue? with
  | none => exact ⟨_, rfl, rfl, htrace⟩
  | some dequeued =>
    cases fuel with
    | zero => exact fun _ => ⟨_, rfl, rfl, htrace⟩
    | succ fuel => exact ⟨_, rfl, rfl, htrace⟩

theorem mirrors_drainWith (fuel : Nat) :
    Mirrors (Alike related) IsError (drainWith interpreter tracer fuel)
      (drainWith interpreter tracer' fuel) := by
  induction fuel with
  | zero =>
    rw [drainWith_zero, drainWith_zero]
    exact mirrors_takeTask.bind fun _ => mirrors_pure ()
  | succ fuel ih =>
    rw [drainWith_succ, drainWith_succ]
    refine mirrors_takeTask.bind fun next => ?_
    cases next with
    | none => exact mirrors_pure ()
    | some task => exact (mirrors_perform h _).bind fun _ => ih

theorem mirrors_drain :
    Mirrors (Alike related) IsError (drain interpreter tracer) (drain interpreter tracer') := by
  intro session session' halike
  have hfuel : session'.fuel = session.fuel := congrArg Session.fuel halike.1.symm
  simp only [drain, hfuel]
  exact mirrors_drainWith h interpreter session.fuel halike

/-- What a command comes to does not depend on who watches. -/
theorem mirrors_call (command : Command) :
    Mirrors (Alike related) IsError (command.call interpreter tracer)
      (command.call interpreter tracer') := by
  rw [command.call_eq, command.call_eq]
  induction command.parts with
  | nil => exact mirrors_pure ()
  | cons part rest ih =>
    refine Mirrors.bind ?_ fun _ => ih
    cases part with
    | advance symbol => exact mirrors_advance h interpreter symbol
    | drain => exact mirrors_drain h interpreter

end Calls

/-- The same commands, watched by tracers of which the second ones follow the first ones. -/
def FollowAll (related : σ → σ' → Prop) :
    List (Command × Tracer σ) → List (Command × Tracer σ') → Prop :=
  List.Forall₂ fun command command' =>
    command.1 = command'.1 ∧ command.2.Follows command'.2 related

theorem followAll_map {γ : Type} {first : γ → Command × Tracer σ}
    {second : γ → Command × Tracer σ'} {items : List γ}
    (h : ∀ item ∈ items, (first item).1 = (second item).1 ∧
      (first item).2.Follows (second item).2 related) :
    FollowAll related (items.map first) (items.map second) :=
  List.forall₂_map_left_iff.mpr (List.forall₂_map_right_iff.mpr (List.forall₂_same.mpr h))

/-- Commands that do not break off leave the same session, but for the traces, and end in the same
way whoever watches. -/
theorem after_alike {interpreter : Interpreter μ} {commands : List (Command × Tracer σ)}
    {commands' : List (Command × Tracer σ')} (hcommands : FollowAll related commands commands')
    {session : Session σ μ} {session' : Session σ' μ}
    (hunbroken : Unbroken interpreter commands session) (h : Alike related session session') :
    Alike related (after interpreter commands session) (after interpreter commands' session') ∧
      answers interpreter commands session = answers interpreter commands' session' := by
  -- On the commands: each one leaves sessions that are alike, so the rest starts from such again.
  induction hcommands generalizing session session' with
  | nil => exact ⟨h, rfl⟩
  | @cons command command' rest rest' hfirst _ ih =>
    obtain ⟨command, tracer⟩ := command
    obtain ⟨_, tracer'⟩ := command'
    obtain ⟨rfl, hfollows⟩ := hfirst
    have hcall := mirrors_call hfollows interpreter command h
    have hlater : Unbroken interpreter rest (leaves (command.call interpreter tracer) session) :=
      fun fault hmem => hunbroken fault (List.mem_cons_of_mem _ hmem)
    rw [after_cons, after_cons, answers, answers]
    cases hrun : command.call interpreter tracer session with
    | ok _ next =>
      rw [hrun] at hcall
      obtain ⟨next', hrun', hnext⟩ := hcall
      rw [leaves_of_ok hrun] at hlater ⊢
      obtain ⟨hafter, hanswers⟩ := ih hlater hnext
      have hscheduler : next.scheduler = next'.scheduler := congrArg Session.scheduler hnext.1
      rw [leaves_of_ok hrun', hrun', ← hanswers, answer, answer, isAccepted, isAccepted, hscheduler]
      exact ⟨hafter, rfl⟩
    | error halt last =>
      rw [hrun] at hcall
      -- A fault would be among the answers, and no answer of unbroken commands is one.
      have herror : IsError halt := by
        cases halt with
        | error error => exact ⟨error, rfl⟩
        | fault fault =>
          refine absurd ?_ (hunbroken fault)
          rw [answers, hrun]
          exact List.mem_cons_self
      obtain ⟨last', hrun', hlast⟩ := hcall herror
      rw [leaves_of_error hrun] at hlater ⊢
      obtain ⟨hafter, hanswers⟩ := ih hlater hlast
      rw [leaves_of_error hrun', hrun', ← hanswers]
      exact ⟨hafter, rfl⟩

end Session

end Gll
