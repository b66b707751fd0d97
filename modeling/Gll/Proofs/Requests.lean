import Gll.Proofs.Identity

/-!
Requests in any order.

A scheduler does not know what drives it, so what it promises has to hold after any sequence of
requests, generations that are opened and tasks that are taken out (`Reached`). Only the handles are
constrained: a request is about nodes and stacks that are there (`Operation.Issued`).

To say what is delivered in a generation, the plans of `push` and `pop` are written once more, with
every delivery marked by the frame, the link and the result that it is for. Written out again they
are the plans that are carried out (`Operation.expand_pieces`), so a marked request leads to the
same schedulers, and to a `Ledger` of the deliveries beside them (`Operation.exists_carries`).
-/

set_option autoImplicit false

namespace Gll

namespace Plan

variable {ε ε' : Type → Type 1} {ω ω' α β : Type}

/-- A plan with every request written out. -/
def expand (write : {β : Type} → ε β → Plan ε' β) : Plan ε α → Plan ε' α
  | done value => done value
  | ask request next => (write request).andThen fun answer => expand write (next answer)

variable {write : {β : Type} → ε β → Plan ε' β}

theorem andThen_assoc {γ : Type} (first : Plan ε α) (second : α → Plan ε β) (third : β → Plan ε γ) :
    (first.andThen second).andThen third = first.andThen fun a => (second a).andThen third := by
  induction first with
  | done value => rfl
  | ask request next ih => simp only [andThen, ih]

theorem andThen_done (plan : Plan ε α) : plan.andThen done = plan := by
  induction plan with
  | done value => rfl
  | ask request next ih => simp only [andThen, ih]

@[simp] theorem expand_request (request : ε α) :
    (Plan.request request).expand write = write request :=
  andThen_done _

@[simp] theorem expand_pure (value : α) : (pure value : Plan ε α).expand write = pure value := rfl

theorem expand_andThen (first : Plan ε α) (next : α → Plan ε β) :
    (first.andThen next).expand write
      = (first.expand write).andThen fun a => (next a).expand write := by
  induction first with
  | done value => rfl
  | ask request rest ih => simp only [andThen, expand, ih, andThen_assoc]

@[simp] theorem expand_bind (first : Plan ε α) (next : α → Plan ε β) :
    (first >>= next).expand write = first.expand write >>= fun a => (next a).expand write :=
  expand_andThen first next

@[simp] theorem expand_forEach (items : List β) (body : β → Plan ε Unit) :
    (forEach items body).expand write = forEach items fun item => (body item).expand write := by
  induction items with
  | nil => rfl
  | cons item rest ih => simp only [forEach, expand_andThen, ih]

end Plan

/-! ## Marked requests -/

/-- A result of a frame that goes over a link of it. -/
structure Delivery where
  frame : StackId
  link : Link
  result : SymbolId
deriving DecidableEq

/-- A part of a request: a delivery, or anything else. -/
inductive Piece : Type → Type 1 where
  | deliver (delivery : Delivery) (label : Label) : Piece Unit
  | other {α : Type} (act : Act α) : Piece α

/-- The steps of a part. -/
def Piece.act {α : Type} : Piece α → Act α
  | deliver delivery label => Scheduler.deliver delivery.link delivery.result label
  | other act => act

namespace Scheduler

/-- The parts of a `push`. -/
def pushPieces (label : Label) (caller : StackId) (origin : Nat) (stem : PrefixId) :
    Plan Piece StackId := do
  let frame ← Plan.request (.other (.update (frameFor label origin)))
  let isNew ← Plan.request (.other (.update (Scheduler.link frame ⟨caller, stem⟩)))
  Plan.request (.other (.emit (.push frame label origin caller isNew)))
  if isNew then
    let results ← Plan.request (.other (.look fun s => .ok (s.results frame)))
    Plan.forEach results.toList fun result => do
      Plan.request (.other (.emit (.redeliver frame result caller)))
      Plan.request (.deliver ⟨frame, ⟨caller, stem⟩, result⟩ label)
  return frame

/-- The parts of a `pop`. -/
def popPieces (frame : StackId) (result : SymbolId) : Plan Piece Unit := do
  match ← Plan.request (.other (.look fun s => s.graph.stack frame)) with
  | .initial => return
  | .frame label _ links =>
    let isNew ← Plan.request (.other (.update (recordResult frame result)))
    let node ← Plan.request (.other (.look fun s => s.forest.symbolNode result))
    Plan.request (.other (.emit (.pop frame result node.nonterminal? node.span isNew)))
    if isNew then
      Plan.forEach links.toList fun link => Plan.request (.deliver ⟨frame, link, result⟩ label)

end Scheduler

namespace Operation

variable {α : Type}

/-- The parts of a request. -/
def pieces : Operation α → Plan Piece α
  | push label caller origin stem => Scheduler.pushPieces label caller origin stem
  | pop frame result => Scheduler.popPieces frame result
  | operation => Plan.request (.other operation.act)

/-- The parts of a request are its steps. -/
theorem expand_pieces (operation : Operation α) :
    operation.pieces.expand Piece.act = operation.act := by
  cases operation with
  | push label caller origin stem =>
    simp only [pieces, Scheduler.pushPieces, act, Scheduler.push, Plan.expand_bind,
      Plan.expand_request, Piece.act]
    congr! 6 with frame isNew
    cases isNew <;> simp [Piece.act]
  | pop frame result =>
    simp only [pieces, Scheduler.popPieces, act, Scheduler.pop, Plan.expand_bind,
      Plan.expand_request, Piece.act]
    congr! 2 with stack
    cases stack with
    | initial => rfl
    | frame label origin links =>
      simp only [Plan.expand_bind, Plan.expand_request, Piece.act]
      congr! 6 with isNew
      cases isNew <;> simp [Piece.act]
  | _ => exact Plan.expand_request _

end Operation

/-! ## Ledgers -/

/-- A scheduler with what happened in its generation: the tasks that were offered and those that
were taken out, and the results that went over links. -/
structure Ledger extends Moment where
  taken : List Task
  deliveries : List Delivery

/-- Of a generation that has just been opened. -/
def Ledger.opened (s : Scheduler) : Ledger := ⟨⟨s, []⟩, [], []⟩

/-- Where a part of a request leads. -/
def Piece.Leads {α : Type} : Piece α → Ledger → α → Ledger → Prop
  | .deliver delivery label, before, answer, after =>
    (Scheduler.deliver delivery.link delivery.result label).Leads before.toMoment answer
      after.toMoment ∧ after.taken = before.taken ∧
        after.deliveries = before.deliveries ++ [delivery]
  | .other act, before, answer, after =>
    act.Leads before.toMoment answer after.toMoment ∧ after.taken = before.taken ∧
      after.deliveries = before.deliveries

/-- Where a marked request leads. -/
def Operation.Carries {α : Type} (operation : Operation α) : Ledger → α → Ledger → Prop :=
  operation.pieces.Leads Piece.Leads

section Carries

variable {α : Type} {before after : Ledger} {answer : α}

theorem Piece.leads_act {piece : Piece α} (h : piece.Leads before answer after) :
    piece.act.Leads before.toMoment answer after.toMoment := by
  cases piece with
  | deliver delivery label => exact h.1
  | other act => exact h.1

theorem Piece.exists_leads {piece : Piece α} {m : Moment}
    (h : piece.act.Leads before.toMoment answer m) :
    ∃ after : Ledger, after.toMoment = m ∧ piece.Leads before answer after := by
  cases piece with
  | deliver delivery label =>
    exact ⟨⟨m, before.taken, before.deliveries ++ [delivery]⟩, rfl, h, rfl, rfl⟩
  | other act => exact ⟨⟨m, before.taken, before.deliveries⟩, rfl, h, rfl, rfl⟩

theorem leads_expand {plan : Plan Piece α} (h : plan.Leads Piece.Leads before answer after) :
    (plan.expand Piece.act).Leads Step.Leads before.toMoment answer after.toMoment := by
  induction plan generalizing before with
  | done value =>
    obtain ⟨rfl, rfl⟩ := h
    exact ⟨rfl, rfl⟩
  | ask piece next ih =>
    obtain ⟨b, between, hpiece, hrest⟩ := h
    exact Plan.leads_andThen.mpr ⟨b, _, Piece.leads_act hpiece, ih b hrest⟩

theorem exists_leads_of_expand {plan : Plan Piece α} {m : Moment}
    (h : (plan.expand Piece.act).Leads Step.Leads before.toMoment answer m) :
    ∃ after : Ledger, after.toMoment = m ∧ plan.Leads Piece.Leads before answer after := by
  induction plan generalizing before with
  | done value =>
    obtain ⟨rfl, rfl⟩ := h
    exact ⟨before, rfl, rfl, rfl⟩
  | ask piece next ih =>
    obtain ⟨b, m', hpiece, hrest⟩ := Plan.leads_andThen.mp h
    obtain ⟨between, rfl, hleads⟩ := Piece.exists_leads hpiece
    obtain ⟨after, rfl, hafter⟩ := ih b hrest
    exact ⟨after, rfl, b, between, hleads, hafter⟩

/-- A marked request leads where the request does. -/
theorem Operation.Carries.leads {operation : Operation α}
    (h : operation.Carries before answer after) :
    operation.Leads before.toMoment answer after.toMoment := by
  have hleads := leads_expand h
  rw [operation.expand_pieces] at hleads
  exact hleads

theorem Piece.taken_eq {piece : Piece α} (h : piece.Leads before answer after) :
    after.taken = before.taken := by
  cases piece with
  | deliver delivery label => exact h.2.1
  | other act => exact h.2.1

/-- No request takes a task out. -/
theorem Operation.Carries.taken_eq {operation : Operation α}
    (h : operation.Carries before answer after) : after.taken = before.taken :=
  (operation.pieces.each_of_forall (fun _ => trivial)).keeps
    (fun ledger => ledger.taken = before.taken)
    (fun _ hleads hbefore => (Piece.taken_eq hleads).trans hbefore) h rfl

/-- Wherever a request leads, the marked request leads. -/
theorem Operation.exists_carries {operation : Operation α} {m : Moment}
    (h : operation.Leads before.toMoment answer m) :
    ∃ after : Ledger, after.toMoment = m ∧ operation.Carries before answer after := by
  refine exists_leads_of_expand ?_
  rw [operation.expand_pieces]
  exact h

/-- Of any request an account can be kept. -/
theorem Operation.exists_ledger {operation : Operation α} {start last : Moment}
    (h : operation.Leads start answer last) :
    ∃ ledger : Ledger, ledger.toMoment = last ∧ operation.Carries ⟨start, [], []⟩ answer ledger :=
  exists_carries h

end Carries

/-! ## Histories -/

namespace Scheduler

/-- A stack that is there. -/
def HasStack (s : Scheduler) (id : StackId) : Prop := ∃ stack, s.graph.stack? id = some stack

/-- A prefix node that is there. -/
def HasPrefix (s : Scheduler) (id : PrefixId) : Prop := ∃ node, s.forest.prefixNode? id = some node

/-- A symbol node that is there. -/
def HasSymbol (s : Scheduler) (id : SymbolId) : Prop := ∃ node, s.forest.symbolNode? id = some node

end Scheduler

/-- The handles of a request are of things that are there. -/
def Operation.Issued {α : Type} (s : Scheduler) : Operation α → Prop
  | .look read => ∃ answer, read s = .ok answer
  | .note _ => True
  | .emptyPrefix => True
  | .append _ left right => s.HasPrefix left ∧ s.HasSymbol right
  | .derive _ _ child => s.HasPrefix child
  | .scheduleNow _ caller stem => s.HasStack caller ∧ s.HasPrefix stem
  | .scheduleLater frame result => s.HasStack frame ∧ s.HasSymbol result
  | .push _ caller _ stem => s.HasStack caller ∧ s.HasPrefix stem
  | .pop frame result => s.HasStack frame ∧ s.HasSymbol result
  | .deliver link result _ =>
    s.HasStack link.caller ∧ s.HasPrefix link.stem ∧ s.HasSymbol result

/-- What requests lead to, in whatever order they come: the scheduler as it was when its generation
was opened, and the ledger since. -/
inductive Reached (start : Nonterminal) : Scheduler → Ledger → Prop where
  | initial : Reached start (.initial start) (.opened (.initial start))
  | advance {opened : Scheduler} {ledger : Ledger} (symbol : Option Char)
      (h : Reached start opened ledger) (hopen : ledger.scheduler.refusal? = none) :
      Reached start (ledger.scheduler.advance symbol) (.opened (ledger.scheduler.advance symbol))
  | request {opened : Scheduler} {before after : Ledger} {α : Type} {operation : Operation α}
      {answer : α} (h : Reached start opened before)
      (hissued : operation.Issued before.scheduler)
      (hcarries : operation.Carries before answer after) : Reached start opened after
  | dequeue {opened : Scheduler} {ledger : Ledger} {task : Task} {rest : Scheduler}
      (h : Reached start opened ledger)
      (hdequeue : ledger.scheduler.dequeue? = some (task, rest)) :
      Reached start opened
        { ledger with scheduler := rest, taken := ledger.taken ++ [task] }

namespace Reached

variable {start : Nonterminal} {opened : Scheduler} {ledger : Ledger} {P : Scheduler → Prop}

/-- A law holds of whatever is reached. -/
theorem law (h : Reached start opened ledger) (hP : Law start P) : P ledger.scheduler := by
  induction h with
  | initial => exact hP.initial
  | advance symbol h hopen ih => exact hP.advance symbol hopen ih
  | request h hissued hcarries ih => exact (Operation.keeps hP.toKept _).of_leads hcarries.leads ih
  | dequeue h hdequeue ih => exact hP.dequeue hdequeue ih

/-- The frames of a generation are listed. -/
theorem framesListed (h : Reached start opened ledger) :
    Scheduler.FramesListed opened ledger.scheduler := by
  induction h with
  | initial => exact Scheduler.framesListed_self _
  | advance symbol h hopen ih => exact Scheduler.framesListed_self _
  | request h hissued hcarries ih =>
    exact (Operation.keeps (Scheduler.kept_framesListed _) _).of_leads hcarries.leads ih
  | dequeue h hdequeue ih =>
    exact ih.of_learns (Scheduler.dequeue_learns hdequeue) fun _ _ _ hmem =>
      absurd hmem (Set.notMem_empty _)

end Reached

end Gll
