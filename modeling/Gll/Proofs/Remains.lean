import Gll.Proofs.Laws

/-!
What remains when something breaks off.

A request breaks off at a handle that names nothing, or at an event that the tracer refuses, and
what was done up to then stays done. A proof about what a parse comes to follows the runs that reach
their end; what nobody can break has to hold of what the others leave behind as well. So this is
about the state in which a run leaves off, however it ended (`leaves`).

`Scheduler.Move` is anything that anybody can do to a scheduler: open a generation, take out a task,
or make a request with any handles at all.
-/

set_option autoImplicit false

namespace Gll

variable {ε : Type → Type 1} {ω κ α β γ σ : Type}

/-- The state in which a run leaves off, whether it came to its end or broke off. -/
def leaves (action : EStateM ω κ α) (state : κ) : κ :=
  match action state with
  | .ok _ state => state
  | .error _ state => state

theorem leaves_of_ok {action : EStateM ω κ α} {state next : κ} {a : α}
    (h : action state = .ok a next) : leaves action state = next := by
  rw [leaves, h]

theorem leaves_of_error {action : EStateM ω κ α} {state next : κ} {e : ω}
    (h : action state = .error e next) : leaves action state = next := by
  rw [leaves, h]

theorem Plan.leaves_ask {carry : {β : Type} → ε β → EStateM ω κ β} {request : ε β}
    {next : β → Plan ε α} {state : κ} :
    leaves ((ask request next).run carry) state
      = match carry request state with
        | .ok answer state => leaves ((next answer).run carry) state
        | .error _ state => state := by
  simp only [leaves, run]
  cases carry request state <;> rfl

/-- What every request keeps, also when it breaks off, a plan leaves intact, together with what was
noted on the way. -/
theorem Plan.Each.leaves_account {property : {β : Type} → ε β → Prop}
    {carry : {β : Type} → ε β → EStateM ω κ β} (note : {β : Type} → ε β → κ → List γ)
    (P : κ → List γ → Prop)
    (hcarry : ∀ {β : Type} {request : ε β} {state : κ} {noted : List γ}, property request →
      P state noted → P (leaves (carry request) state) (noted ++ note request state))
    {plan : Plan ε α} (hplan : plan.Each property) {state : κ} (noted : List γ)
    (h : P state noted) :
    P (Gll.leaves (plan.run carry) state) (noted ++ plan.account carry note state) := by
  induction plan generalizing state noted with
  | done value =>
    rw [account, List.append_nil]
    exact h
  | ask request next ih =>
    have hnext := hcarry hplan.1 h
    rw [leaves_ask, account, ← List.append_assoc]
    cases hask : carry request state with
    | ok answer between =>
      rw [leaves_of_ok hask] at hnext
      exact ih answer (hplan.2 answer) _ hnext
    | error fault between =>
      rw [leaves_of_error hask] at hnext
      rw [List.append_nil]
      exact hnext

/-- What every request keeps, also when it breaks off, a plan leaves intact. -/
theorem Plan.Each.leaves {property : {β : Type} → ε β → Prop}
    {carry : {β : Type} → ε β → EStateM ω κ β} (P : κ → Prop)
    (hcarry : ∀ {β : Type} {request : ε β} {state : κ}, property request → P state →
      P (leaves (carry request) state))
    {plan : Plan ε α} (hplan : plan.Each property) {state : κ} (h : P state) :
    P (Gll.leaves (plan.run carry) state) := by
  let note {β : Type} (_ : ε β) (_ : κ) : List Unit := []
  exact hplan.leaves_account note (fun state _ => P state) hcarry [] h

/-! ## Steps and requests -/

section Kept

variable {P : Scheduler → Prop} {tracer : Tracer σ} {world : World σ}

theorem Step.leaves_look {read : Scheduler → Except Fault α} :
    leaves ((Step.look read).run tracer) world = world := by
  cases h : read world.scheduler <;> simp only [leaves, Step.run, h]

theorem Step.scheduler_leaves_emit {event : Event} :
    (leaves ((Step.emit event).run tracer) world).scheduler = world.scheduler := by
  cases h : tracer.record event <;> simp only [leaves, Step.run, h]

theorem Step.Keeps.leaves {step : Step α} (hstep : step.Keeps P) (h : P world.scheduler) :
    P (leaves (step.run tracer) world).scheduler := by
  cases step with
  | look read =>
    rw [Step.leaves_look]
    exact h
  | update change => exact hstep _ h
  | offer task => exact hstep _ h
  | emit event =>
    rw [Step.scheduler_leaves_emit]
    exact h

theorem Act.Keeps.leaves {act : Act α} (hact : act.Keeps P) (h : P world.scheduler) :
    P (leaves (act.run tracer) world).scheduler :=
  Plan.Each.leaves (fun world : World σ => P world.scheduler) (fun hstep => hstep.leaves) hact h

theorem Operation.leaves_keeps (hP : Kept P) {operation : Operation α} (h : P world.scheduler) :
    P (leaves (operation.run tracer) world).scheduler :=
  (Operation.keeps hP operation).leaves h

theorem Routine.leaves_keeps (hP : Kept P) {routine : Routine α} (h : P world.scheduler) :
    P (leaves (routine.run tracer) world).scheduler := by
  have hall : routine.Each fun _ => True := routine.each_of_forall fun _ => trivial
  exact Plan.Each.leaves (fun world : World σ => P world.scheduler)
    (fun _ hworld => Operation.leaves_keeps hP hworld) hall h

end Kept

/-! ## Anything that can be done -/

namespace Scheduler

/-- What anybody can do to a scheduler. A request may be about handles that name nothing, or the
tracer may refuse one of its events; it is then a move to where it breaks off. -/
inductive Move : Scheduler → Scheduler → Prop where
  | advance {s : Scheduler} (symbol : Option Char) (hopen : s.refusal? = none) :
    Move s (s.advance symbol)
  | request {s : Scheduler} {σ α : Type} (tracer : Tracer σ) (trace : σ)
      (operation : Operation α) : Move s (leaves (operation.run tracer) ⟨s, trace⟩).scheduler
  | dequeue {s rest : Scheduler} {task : Task} (hdequeue : s.dequeue? = some (task, rest)) :
    Move s rest

end Scheduler

end Gll
