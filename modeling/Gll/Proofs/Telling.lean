import Gll.Proofs.Auditing

/-!
What is told in a parse.

Requests report that something was pushed, popped or skipped, and nothing else (`Steps.operation`
goes over all that they do). So for the other kinds of events the trace of a recorder is exact: what
a routine adds to it is what the routine asks to be reported, in this order (`Routine.tells`).

What an interpreter may report of a kind is up to the interpreter. That of a compiled grammar
reports tests, and what is accepted.
-/

set_option autoImplicit false

namespace Gll

variable {α : Type} {kind : Event → Bool}

/-- A kind of events that requests do not report on their own account. -/
def Event.Outer (kind : Event → Bool) : Prop := ∀ event : Event, event.IsInner → kind event = false

/-- From one trace to a later one, of the events of a kind exactly these were told. -/
def Tells (kind : Event → Bool) (before : Array Event) (events : List Event)
    (after : Array Event) : Prop :=
  ∃ told, after.toList = before.toList ++ told ∧ told.filter kind = events

namespace Tells

variable {before between after : Array Event} {events more : List Event}

theorem nothing (trace : Array Event) : Tells kind trace [] trace :=
  ⟨[], (List.append_nil _).symm, rfl⟩

theorem trans (h : Tells kind before events between) (h' : Tells kind between more after) :
    Tells kind before (events ++ more) after := by
  obtain ⟨told, hbetween, rfl⟩ := h
  obtain ⟨told', hafter, rfl⟩ := h'
  refine ⟨told ++ told', ?_, List.filter_append _ _⟩
  rw [hafter, hbetween, List.append_assoc]

theorem push (trace : Array Event) (event : Event) :
    Tells kind trace ([event].filter kind) (trace.push event) :=
  ⟨[event], Array.toList_push, rfl⟩

end Tells

/-! ## Steps, requests and routines -/

/-- A step by which nothing of a kind is told. -/
def Step.Withholds (kind : Event → Bool) : Step α → Prop
  | emit event => kind event = false
  | _ => True

theorem Step.steps_withholds (hkind : Event.Outer kind) : Steps (Step.Withholds kind) where
  look _ := trivial
  emit h := hkind _ h
  offer _ := trivial
  emptyPrefix := trivial
  consFor _ _ := trivial
  derivationFor _ _ := trivial
  packSplit _ _ := trivial
  packAlternative _ _ := trivial
  link _ _ := trivial
  recordResult _ _ := trivial
  frameFor _ _ := trivial

theorem Step.Withholds.tells {step : Step α} (h : step.Withholds kind)
    (world : World (Array Event)) :
    Tells kind world.trace [] (leaves (step.run .recorder) world).trace := by
  cases step with
  | look read =>
    rw [Step.leaves_look]
    exact .nothing _
  | update change => exact .nothing _
  | offer task => exact .nothing _
  | emit event =>
    have hfalse : kind event = false := h
    have htold : Tells kind world.trace _ (world.trace.push event) := .push world.trace event
    rw [List.filter_cons_of_neg (by simp [hfalse])] at htold
    exact htold

theorem Act.tells {act : Act α} (h : act.Each (Step.Withholds kind))
    (world : World (Array Event)) :
    Tells kind world.trace [] (leaves (act.run .recorder) world).trace :=
  Plan.Each.leaves (fun next : World (Array Event) => Tells kind world.trace [] next.trace)
    (fun hstep htold => htold.trans (hstep.tells _)) h (.nothing _)

/-- A request tells of a kind what it is there to report. -/
theorem Operation.tells (hkind : Event.Outer kind) (operation : Operation α)
    (world : World (Array Event)) :
    Tells kind world.trace (operation.reports.filter kind)
      (leaves (operation.run .recorder) world).trace := by
  cases operation with
  | note event => exact .push world.trace event
  | _ => exact Act.tells ((Step.steps_withholds hkind).operation _
      fun _ hmem => absurd hmem List.not_mem_nil) world

theorem Operation.tells_of_request (hkind : Event.Outer kind) {operation : Operation α}
    {world next : World (Array Event)} {a : α}
    (h : (Routine.request operation).run .recorder world = .ok a next) :
    Tells kind world.trace (operation.reports.filter kind) next.trace := by
  have htold := operation.tells hkind world
  rw [Routine.request, Plan.request, Routine.run, Plan.run] at h
  split at h
  · rename_i hrun
    obtain ⟨rfl, rfl⟩ := EStateM.Result.ok.inj h
    rw [leaves_of_ok hrun] at htold
    exact htold
  · cases h

/-- A routine tells of a kind what it reports. -/
theorem Routine.tells (hkind : Event.Outer kind) (routine : Routine α)
    (world : World (Array Event)) :
    Tells kind world.trace ((routine.reported .recorder world).filter kind)
      (leaves (routine.run .recorder) world).trace := by
  have hall : routine.Each fun _ => True := routine.each_of_forall fun _ => trivial
  refine hall.leaves_account (fun operation _ => operation.reports)
    (fun (next : World (Array Event)) told => Tells kind world.trace (told.filter kind) next.trace)
    ?_ [] (.nothing _)
  intro _ operation between told _ hbetween
  rw [List.filter_append]
  exact hbetween.trans (operation.tells hkind between)

theorem Routine.tells_of_ok (hkind : Event.Outer kind) {routine : Routine α}
    {world next : World (Array Event)} {a : α} (h : routine.run .recorder world = .ok a next) :
    Tells kind world.trace ((routine.reported .recorder world).filter kind) next.trace := by
  have htold := routine.tells hkind world
  rw [leaves_of_ok h] at htold
  exact htold

theorem Session.tells_of_perform (hkind : Event.Outer kind) {μ : Type}
    {routine : StateT μ Routine Unit} {session next : Session (Array Event) μ}
    (h : perform .recorder routine session = .ok () next) :
    Tells kind session.trace
      ((Routine.reported .recorder (routine.run session.store) session.world).filter kind)
      next.trace := by
  obtain ⟨store, world, hrun, rfl⟩ := perform_eq_ok h
  exact Routine.tells_of_ok hkind hrun

/-! ## Routines that withhold something -/

/-- A routine by which nothing of a kind is reported. -/
def Routine.Withholds (kind : Event → Bool) (routine : Routine α) : Prop :=
  routine.Each fun operation => ∀ event ∈ operation.reports, kind event = false

theorem Routine.Withholds.reported {σ : Type} {routine : Routine α} (h : routine.Withholds kind)
    (tracer : Tracer σ) (world : World σ) :
    (routine.reported tracer world).filter kind = [] := by
  rw [Routine.reported]
  induction routine generalizing world with
  | done value => rfl
  | ask request next ih =>
    have hrequest : request.reports.filter kind = [] :=
      List.filter_eq_nil_iff.mpr fun event hmem => by rw [h.1 event hmem]; exact Bool.false_ne_true
    rw [Plan.account, List.filter_append, hrequest, List.nil_append]
    cases Operation.run tracer request world with
    | ok answer between => exact ih answer (h.2 answer) between
    | error fault last => rfl

namespace Program

open Routine

variable {program : Program} {label : Label} {caller : StackId} {stem : PrefixId}

theorem withholds_request {operation : Operation α} (h : operation.reports = []) :
    (request operation).Withholds kind :=
  Plan.each_request.mpr fun _ hmem => absurd (h ▸ hmem) List.not_mem_nil

theorem withholds_note {event : Event} (h : kind event = false) : (note event).Withholds kind := by
  refine Plan.each_request.mpr fun other hmem => ?_
  rw [List.mem_singleton.mp hmem]
  exact h

theorem withholds_push : (push label caller stem).Withholds kind :=
  Plan.each_bind (withholds_request rfl) fun _ => withholds_request rfl

theorem withholds_seed (program : Program) : program.seed.Withholds kind := by
  refine Plan.each_bind (withholds_request rfl) fun stem => ?_
  refine Plan.each_bind withholds_push fun frame => ?_
  cases program.entries? program.start with
  | none => exact withholds_request rfl
  | some entries =>
    exact Plan.each_forEach fun entry _ => Plan.each_discard (withholds_request rfl)

theorem withholds_executeTerminal
    (hterminal : ∀ label position isMatch, kind (.terminal label position isMatch) = false)
    (matcher : Matcher) : (executeTerminal matcher label caller stem).Withholds kind := by
  refine Plan.each_bind (withholds_request rfl) fun position => ?_
  refine Plan.each_bind (withholds_note (hterminal _ _ _)) fun _ => ?_
  split
  · refine Plan.each_bind (withholds_request rfl) fun symbol => ?_
    cases symbol with
    | none => trivial
    | some symbol =>
      exact Plan.each_bind withholds_push fun frame =>
        Plan.each_discard (withholds_request rfl)
  · trivial

theorem withholds_executeCall (callee : Nonterminal) :
    (program.executeCall callee label caller stem).Withholds kind := by
  refine Plan.each_bind withholds_push fun frame => ?_
  cases program.entries? callee with
  | none => exact withholds_request rfl
  | some entries =>
    refine Plan.each_forEach fun entry _ => ?_
    exact Plan.each_bind (withholds_request rfl) fun stem =>
      Plan.each_discard (withholds_request rfl)

theorem withholds_executeComplete (symbol : Nonterminal) :
    (executeComplete symbol caller stem).Withholds kind :=
  Plan.each_bind (withholds_request rfl) fun _ =>
    Plan.each_bind (withholds_request rfl) fun _ => withholds_request rfl

theorem withholds_executeAccept (haccept : ∀ span, kind (.accept span) = false) :
    (executeAccept stem).Withholds kind :=
  Plan.each_bind (withholds_request rfl) fun _ => withholds_note (haccept _)

end Program

end Gll
