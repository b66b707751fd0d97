import Gll.Proofs.Commands
import Gll.Proofs.Deliveries

/-!
Requests with checks.

Some things a scheduler does without a look at what is there: a way to build it is packed under a
prefix that may be the empty one, a right-hand side under what may be a terminal, a link is added to
what may be the initial stack. Done to a node or a stack of the other kind they would be without any
effect, and nobody would be told. And the loops of `push` and `pop` go through lists that were read
before, while a loop by numbers reads the next result of the frame, or its next link, when it comes
to it, and there has to be one.

The *checked* requests, routines and calls look. Everything is done as in the plain ones, with a
check in front of each such step and a look for each turn of a loop, and they break off where a
check fails. They never do: in every session that a user can have, whatever the interpreter, a
checked call is the plain one (`Session.callChecked_eq`). That the table of prefixes leads to
prefixes with a label, that of derivations to derivations, and that of frames to frames, are laws of
the scheduler (`Scheduler.Sorted`); and while results are handed out nothing is linked or recorded.
-/

set_option autoImplicit false

namespace Gll

/-! ## Checks -/

/-- Whether there is a prefix of this number that takes a further way to build it. -/
def Forest.takesSplit (forest : Forest) (id : PrefixId) : Bool :=
  match forest.prefixNode? id with
  | some (.cons ..) => true
  | _ => false

/-- Whether there is a symbol of this number that takes a further right-hand side. -/
def Forest.takesAlternative (forest : Forest) (id : SymbolId) : Bool :=
  match forest.symbolNode? id with
  | some (.nonterminal ..) => true
  | _ => false

/-- Whether there is a stack of this number that takes a further link. -/
def StackGraph.takesLink (graph : StackGraph) (id : StackId) : Bool :=
  match graph.stack? id with
  | some (.frame ..) => true
  | _ => false

/-- Breaks off unless something holds of the scheduler. -/
def Act.ensure (fault : Fault) (condition : Scheduler → Bool) : Act Unit :=
  look fun s => if condition s then .ok () else .error fault

/-! ## Requests -/

namespace Scheduler

open Act

def appendChecked (label : Label) (left : PrefixId) (right : SymbolId) : Act PrefixId := do
  let stem ← look fun s => s.forest.prefixNode left
  let cons ← update (consFor label stem.first)
  let symbol ← look fun s => s.forest.symbolNode right
  ensure (.unknownStem cons) fun s => s.forest.takesSplit cons
  update fun s => ((), s.packSplit cons ⟨label, symbol.first, left, right⟩)
  return cons

def deriveChecked (nonterminal : Nonterminal) (first : Position) (child : PrefixId) :
    Act SymbolId := do
  let derivation ← update (derivationFor nonterminal first)
  ensure (.unknownSymbol derivation) fun s => s.forest.takesAlternative derivation
  update fun s => ((), s.packAlternative derivation child)
  return derivation

def deliverChecked (link : Link) (result : SymbolId) (label : Label) : Act Unit := do
  let stem ← appendChecked label link.stem result
  discard (scheduleNow label link.caller stem)

/-- The results that a frame has at first are counted, and each is looked up when its turn comes. -/
def pushChecked (label : Label) (caller : StackId) (origin : Nat) (stem : PrefixId) :
    Act StackId := do
  let frame ← update (frameFor label origin)
  ensure (.unknownStack frame) fun s => s.graph.takesLink frame
  let isNew ← update (Scheduler.link frame ⟨caller, stem⟩)
  emit (.push frame label origin caller isNew)
  if isNew then
    let count ← look fun s => .ok (s.results frame).size
    Plan.forEach (List.range count) fun number => do
      let result ← look fun s => (Fault.unknownStack frame).unlessSome (s.results frame)[number]?
      emit (.redeliver frame result caller)
      deliverChecked ⟨caller, stem⟩ result label
  return frame

/-- The links that a frame has at first are counted, and each is looked up when its turn comes. -/
def popChecked (frame : StackId) (result : SymbolId) : Act Unit := do
  match ← look fun s => s.graph.stack frame with
  | .initial => return
  | .frame label _ _ =>
    let isNew ← update (recordResult frame result)
    let node ← look fun s => s.forest.symbolNode result
    emit (.pop frame result node.nonterminal? node.span isNew)
    if isNew then
      let count ← look fun s => (s.graph.stack frame).map fun stack => stack.links.size
      Plan.forEach (List.range count) fun number => do
        let link ← look fun s => s.graph.link frame number
        deliverChecked link result label

end Scheduler

/-- The steps of a request, with the checks. -/
def Operation.actChecked {α : Type} : Operation α → Act α
  | look read => Act.look read
  | note event => Act.emit event
  | emptyPrefix => Act.update Scheduler.emptyPrefix
  | append label left right => Scheduler.appendChecked label left right
  | derive nonterminal first child => Scheduler.deriveChecked nonterminal first child
  | scheduleNow label caller stem => Scheduler.scheduleNow label caller stem
  | scheduleLater frame result => Scheduler.scheduleLater frame result
  | push label caller origin stem => Scheduler.pushChecked label caller origin stem
  | pop frame result => Scheduler.popChecked frame result
  | deliver link result label => Scheduler.deliverChecked link result label

/-- Carries out a routine, with the checks. -/
def Routine.runChecked {σ α : Type} (tracer : Tracer σ) (routine : Routine α) :
    EStateM Fault (World σ) α :=
  Plan.run (fun operation => operation.actChecked.run tracer) routine

/-! ## Calls -/

namespace Session

variable {σ μ : Type}

def performChecked (tracer : Tracer σ) (routine : StateT μ Routine Unit) : Call σ μ Unit :=
  fun ⟨world, store, fuel, limit⟩ =>
    match (routine.run store).runChecked tracer world with
    | .ok ((), store) world => .ok () ⟨world, store, fuel, limit⟩
    | .error fault world => .error (.fault fault) ⟨world, store, fuel, limit⟩

variable (interpreter : Interpreter μ) (tracer : Tracer σ)

def drainWithChecked : Nat → Call σ μ Unit
  | 0, session =>
    match takeTask session with
    | .ok _ session => .ok () session
    | .error halt session => .error halt session
  | fuel + 1, session =>
    match takeTask session with
    | .ok none session => .ok () session
    | .ok (some task) session =>
      match performChecked tracer (interpreter.routine task) session with
      | .ok () session => drainWithChecked fuel session
      | .error halt session => .error halt session
    | .error halt session => .error halt session

def advanceChecked (symbol : Option Char) : Call σ μ Unit := do
  openGeneration tracer symbol
  let isFirst ← act tracer (Act.look fun s => .ok s.isFirstGeneration)
  if isFirst then performChecked tracer interpreter.seed

def drainChecked : Call σ μ Unit :=
  fun session => drainWithChecked interpreter tracer session.fuel session

def feedChecked (symbol : Option Char) : Call σ μ Unit := do
  advanceChecked interpreter tracer symbol
  drainChecked interpreter tracer

def feedAllChecked : List Char → Call σ μ Unit
  | [] => return
  | char :: rest => do
    feedChecked interpreter tracer (some char)
    feedAllChecked rest

/-- Whether the input was accepted can be told only if the root, once there is one, is a node. -/
def isAcceptedChecked : Call σ μ Bool := fun session =>
  match session.scheduler.root with
  | none => .ok session.isAccepted session
  | some root =>
    match session.scheduler.forest.symbolNode root with
    | .ok _ => .ok session.isAccepted session
    | .error fault => .error (.fault fault) session

def parseChecked (text : String) : Call σ μ Bool := do
  feedAllChecked interpreter tracer text.toList
  feedChecked interpreter tracer none
  isAcceptedChecked

/-- The call of a command, with the checks. -/
def Command.callChecked : Command → Call σ μ Unit
  | advance symbol => advanceChecked interpreter tracer symbol
  | drain => drainChecked interpreter tracer
  | feed symbol => feedChecked interpreter tracer symbol
  | parse text => parseChecked interpreter tracer text >>= fun _ => pure ()

end Session

/-! ## Plans that are carried out alike -/

namespace Plan

variable {ε : Type → Type 1} {ω κ α β : Type} {carry : {β : Type} → ε β → EStateM ω κ β}

theorem run_bind (first : Plan ε α) (next : α → Plan ε β) (world : κ) :
    (first >>= next).run carry world =
      match first.run carry world with
      | .ok a world => (next a).run carry world
      | .error fault world => .error fault world := by
  change (first.andThen next).run carry world = _
  induction first generalizing world with
  | done value => rfl
  | ask request rest ih =>
    simp only [andThen, run]
    cases carry request world with
    | ok answer between => exact ih answer between
    | error fault between => rfl

theorem exists_of_run_bind {first : Plan ε α} {next : α → Plan ε β} {world last : κ} {b : β}
    (h : (first >>= next).run carry world = .ok b last) :
    ∃ a between, first.run carry world = .ok a between ∧
      (next a).run carry between = .ok b last := by
  rw [run_bind] at h
  split at h
  · rename_i a between hfirst
    exact ⟨a, between, hfirst, h⟩
  · cases h

theorem run_bind_congr {first first' : Plan ε α} {next next' : α → Plan ε β} {world : κ}
    (hfirst : first.run carry world = first'.run carry world)
    (hnext : ∀ a between, first'.run carry world = .ok a between →
      (next a).run carry between = (next' a).run carry between) :
    (first >>= next).run carry world = (first' >>= next').run carry world := by
  rw [run_bind, run_bind, hfirst]
  cases hrun : first'.run carry world with
  | ok a between => exact hnext a between hrun
  | error fault between => rfl

/-- A loop by numbers is the loop over the items if each turn is, as long as what the turns need is
kept by them. -/
theorem run_forEach_range {items : List β} {body : β → Plan ε Unit} {turn : Nat → Plan ε Unit}
    (I : κ → Prop)
    (hturn : ∀ (i : Nat) (item : β) (world : κ), items[i]? = some item → I world →
      (turn i).run carry world = (body item).run carry world)
    (hkeep : ∀ (item : β) (world world' : κ), I world →
      (body item).run carry world = .ok () world' → I world') {world : κ} (hworld : I world) :
    (forEach (List.range items.length) turn).run carry world
      = (forEach items body).run carry world := by
  rw [List.range_eq_range']
  -- The induction needs the numbers to begin anywhere, as the rest of the items has later ones.
  have hgo (k : Nat) (hturn : ∀ (i : Nat) (item : β) (world : κ), items[i]? = some item →
      I world → (turn (k + i)).run carry world = (body item).run carry world) :
      (forEach (List.range' k items.length) turn).run carry world
        = (forEach items body).run carry world := by
    clear * - hturn hkeep hworld
    induction items generalizing k world with
    | nil => rfl
    | cons item rest ih =>
      rw [List.length_cons, List.range'_succ, forEach, forEach]
      refine run_bind_congr (hturn 0 item world rfl hworld) fun _ between hrun => ?_
      refine ih (hkeep item world between hworld hrun) (k + 1) fun i other world' hget hworld' => ?_
      rw [Nat.add_assoc, Nat.add_comm 1 i]
      exact hturn (i + 1) other world' hget hworld'
  exact hgo 0 fun i item world hget h => by
    rw [Nat.zero_add]
    exact hturn i item world hget h

end Plan

namespace Act

variable {σ α β : Type} {tracer : Tracer σ} {world world' : World σ}

theorem run_bind_look_of_ok {read : Scheduler → Except Fault α} {a : α} {next : α → Act β}
    (hread : read world.scheduler = .ok a) :
    Act.run tracer (look read >>= next) world = (next a).run tracer world := by
  have hlook : Plan.run (Step.run tracer) (look read) world = .ok a world := by
    simp only [look, Plan.request, Plan.run, Step.run, hread]
  rw [Act.run, Plan.run_bind, hlook]
  rfl

theorem run_bind_look_congr {α' : Type} {read : Scheduler → Except Fault α}
    {read' : Scheduler → Except Fault α'} {a : α} {a' : α'} {next : α → Act β}
    {next' : α' → Act β} (hread : read world.scheduler = .ok a)
    (hread' : read' world.scheduler = .ok a')
    (h : (next a).run tracer world = (next' a').run tracer world) :
    Act.run tracer (look read >>= next) world = Act.run tracer (look read' >>= next') world := by
  rw [run_bind_look_of_ok hread, run_bind_look_of_ok hread', h]

theorem run_bind_ensure {fault : Fault} {condition : Scheduler → Bool} {next : Unit → Act β}
    (h : condition world.scheduler = true) :
    Act.run tracer (ensure fault condition >>= next) world = (next ()).run tracer world :=
  run_bind_look_of_ok (if_pos h)

/-- What a change of the scheduler leaves is the changed scheduler. -/
theorem run_update_eq_ok {change : Scheduler → α × Scheduler} {a : α}
    (hrun : (update change).run tracer world = .ok a world') :
    change world.scheduler = (a, world'.scheduler) :=
  (leads_update.mp (leads_of_run [] hrun)).1

theorem run_look_eq_ok {read : Scheduler → Except Fault α} {a : α}
    (hrun : (look read).run tracer world = .ok a world') :
    read world.scheduler = .ok a ∧ world'.scheduler = world.scheduler := by
  obtain ⟨hread, hworld⟩ := leads_look.mp (leads_of_run [] hrun)
  exact ⟨hread, congrArg Moment.scheduler hworld⟩

theorem run_emit_eq_ok {event : Event} (hrun : (emit event).run tracer world = .ok () world') :
    world'.scheduler = world.scheduler :=
  congrArg Moment.scheduler (leads_emit.mp (leads_of_run [] hrun))

theorem Keeps.run {P : Scheduler → Prop} {act : Act α} (hact : act.Keeps P) {a : α}
    (hrun : act.run tracer world = .ok a world') (h : P world.scheduler) : P world'.scheduler :=
  hact.of_leads (leads_of_run [] hrun) h

end Act

/-! ## The checks succeed -/

namespace Scheduler

open Act

variable {σ : Type} {tracer : Tracer σ} {world : World σ} {s s' : Scheduler}

/-- What the tables have is of the kind as which it is looked up. -/
def Sorted (s : Scheduler) : Prop := s.Distinct ∧ FrameKeys s

theorem law_sorted (start : Nonterminal) : Law start Sorted :=
  (law_distinct start).and (law_frameKeys start)

theorem kept_sorted : Kept Sorted := (law_sorted ⟨0⟩).toKept

theorem Sorted.takesSplit (h : s'.Sorted) {label : Label} {first : Position} {id : PrefixId}
    (hcons : s.consFor label first = (id, s')) : s'.forest.takesSplit id = true := by
  obtain ⟨-, children, hnode⟩ := h.1.consFor hcons
  rw [Forest.takesSplit, hnode]

theorem Sorted.takesAlternative (h : s'.Sorted) {symbol : Nonterminal} {first : Position}
    {id : SymbolId} (hderivation : s.derivationFor symbol first = (id, s')) :
    s'.forest.takesAlternative id = true := by
  obtain ⟨alternatives, hnode⟩ := h.1.derivationFor hderivation
  rw [Forest.takesAlternative, hnode]

theorem Sorted.takesLink (h : s'.Sorted) {label : Label} {origin : Nat} {id : StackId}
    (hframe : s.frameFor label origin = (id, s')) : s'.graph.takesLink id = true := by
  have hkey : s'.Knows (.frameKey label origin id) := by
    rcases frameFor_cases hframe with ⟨rfl, hkey⟩ | ⟨-, hlearns⟩
    · exact hkey
    · exact (hlearns.knows _).mpr (.inr (by simp))
  obtain ⟨links, hstack⟩ := h.2 hkey
  rw [StackGraph.takesLink, hstack]

theorem appendChecked_eq (h : world.scheduler.Sorted) {label : Label} {left : PrefixId}
    {right : SymbolId} : Act.run tracer (appendChecked label left right) world
      = Act.run tracer (append label left right) world := by
  refine Plan.run_bind_congr rfl fun stem w₁ hstem => ?_
  have h₁ : w₁.scheduler.Sorted := keeps_look.run hstem h
  refine Plan.run_bind_congr rfl fun cons w₂ hcons => ?_
  have h₂ : w₂.scheduler.Sorted :=
    (keeps_update fun _ => kept_sorted.consFor label stem.first).run hcons h₁
  refine Plan.run_bind_congr rfl fun symbol w₃ hsymbol => run_bind_ensure ?_
  rw [(run_look_eq_ok hsymbol).2]
  exact h₂.takesSplit (run_update_eq_ok hcons)

theorem deriveChecked_eq (h : world.scheduler.Sorted) {symbol : Nonterminal} {first : Position}
    {child : PrefixId} : Act.run tracer (deriveChecked symbol first child) world
      = Act.run tracer (derive symbol first child) world := by
  refine Plan.run_bind_congr rfl fun derivation w₁ hderivation => run_bind_ensure ?_
  have h₁ : w₁.scheduler.Sorted :=
    (keeps_update fun _ => kept_sorted.derivationFor symbol first).run hderivation h
  exact h₁.takesAlternative (run_update_eq_ok hderivation)

theorem deliverChecked_eq (h : world.scheduler.Sorted) {link : Link} {result : SymbolId}
    {label : Label} : Act.run tracer (deliverChecked link result label) world
      = Act.run tracer (deliver link result label) world :=
  Plan.run_bind_congr (appendChecked_eq h) fun _ _ _ => rfl

/-- While results are handed out, the tables stay in order and the stacks stay as they are. -/
def Handing (told s : Scheduler) : Prop := s.Sorted ∧ SameStacks told s

theorem keptOffStacks_handing (told : Scheduler) : KeptOffStacks (Handing told) :=
  kept_sorted.toKeptOffStacks.and (keptOffStacks_sameStacks told)

theorem pushChecked_eq (h : world.scheduler.Sorted) {label : Label} {caller : StackId}
    {origin : Nat} {stem : PrefixId} :
    Act.run tracer (pushChecked label caller origin stem) world
      = Act.run tracer (push label caller origin stem) world := by
  refine Plan.run_bind_congr rfl fun frame w₁ hframe => ?_
  have h₁ : w₁.scheduler.Sorted :=
    (keeps_update fun _ => kept_sorted.frameFor label origin).run hframe h
  refine (run_bind_ensure (h₁.takesLink (run_update_eq_ok hframe))).trans ?_
  refine Plan.run_bind_congr rfl fun isNew w₂ hlink => ?_
  have h₂ : w₂.scheduler.Sorted :=
    (keeps_update fun _ => kept_sorted.link frame ⟨caller, stem⟩).run hlink h₁
  refine Plan.run_bind_congr rfl fun _ w₃ hemit => ?_
  have h₃ : w₃.scheduler.Sorted := keeps_emit.run hemit h₂
  cases isNew with
  | false => rfl
  | true =>
    refine run_bind_look_congr rfl rfl (Plan.run_bind_congr ?_ fun _ _ _ => rfl)
    -- The results that the frame has when the loop begins are there at each turn of it.
    refine Plan.run_forEach_range (fun w => Handing w₃.scheduler w.scheduler)
      (fun number result w hresult hw => ?_) (fun result w w' hw hturn => ?_) ⟨h₃, rfl, rfl⟩
    · have hread : (Fault.unknownStack frame).unlessSome (w.scheduler.results frame)[number]?
          = .ok result := by
        rw [results, hw.2.results]
        exact Fault.unlessSome_eq_ok_iff.mpr (Array.getElem?_toList.symm.trans hresult)
      refine (run_bind_look_of_ok hread).trans (Plan.run_bind_congr rfl fun _ w' hemit' => ?_)
      exact deliverChecked_eq (keeps_emit.run hemit' hw.1)
    · have hkeeps : Act.Keeps (Handing w₃.scheduler) (do
          emit (.redeliver frame result caller)
          deliver ⟨caller, stem⟩ result label) :=
        Plan.each_bind keeps_emit fun _ => (keptOffStacks_handing _).deliver
      exact hkeeps.run hturn hw

/-- Recording a result leaves the frames alone. -/
theorem graph_of_record {frame : StackId} {result : SymbolId} {isNew : Bool}
    (h : s.recordResult frame result = (isNew, s')) : s'.graph = s.graph := by
  simp only [recordResult] at h
  split at h <;> cases h <;> rfl

theorem popChecked_eq (h : world.scheduler.Sorted) {frame : StackId} {result : SymbolId} :
    Act.run tracer (popChecked frame result) world
      = Act.run tracer (pop frame result) world := by
  refine Plan.run_bind_congr rfl fun stack w₁ hstack => ?_
  obtain ⟨hstack, hw₁⟩ := run_look_eq_ok hstack
  cases stack with
  | initial => rfl
  | frame label origin links =>
    rw [← hw₁] at hstack h
    refine Plan.run_bind_congr rfl fun isNew w₂ hrecord => ?_
    have h₂ : w₂.scheduler.Sorted :=
      (keeps_update fun _ => kept_sorted.recordResult frame result).run hrecord h
    refine Plan.run_bind_congr rfl fun node w₃ hnode => ?_
    refine Plan.run_bind_congr rfl fun _ w₄ hemit => ?_
    have h₄ : w₄.scheduler.Sorted := keeps_emit.run hemit (keeps_look.run hnode h₂)
    cases isNew with
    | false => rfl
    | true =>
      -- The frame still has the links that were read at first, since recording a result changes no
      -- stack.
      have hlinks : w₄.scheduler.graph.stack frame = .ok (.frame label origin links) := by
        rw [run_emit_eq_ok hemit, (run_look_eq_ok hnode).2,
          graph_of_record (run_update_eq_ok hrecord)]
        exact hstack
      have hcount : ((w₄.scheduler.graph.stack frame).map fun stack => stack.links.size)
          = .ok links.size := by
        rw [hlinks]
        rfl
      refine (run_bind_look_of_ok hcount).trans ?_
      -- Nor does handing out over the links before, so that each turn reads the link that is meant.
      refine Plan.run_forEach_range (fun w => Handing w₄.scheduler w.scheduler)
        (fun number link w hlink hw => ?_)
        (fun link w w' hw hturn => (keptOffStacks_handing _).deliver.run hturn hw) ⟨h₄, rfl, rfl⟩
      have hread : w.scheduler.graph.link frame number = .ok link := by
        rw [hw.2.graph, StackGraph.link, hlinks]
        exact Fault.unlessSome_eq_ok_iff.mpr (Array.getElem?_toList.symm.trans hlink)
      exact (run_bind_look_of_ok hread).trans (deliverChecked_eq hw.1)

end Scheduler

/-! ## Calls with checks are the plain ones -/

section Requests

variable {σ α : Type} {tracer : Tracer σ} {world : World σ}

theorem Operation.actChecked_run_eq {operation : Operation α} (h : world.scheduler.Sorted) :
    operation.actChecked.run tracer world = operation.run tracer world := by
  cases operation with
  | append label left right => exact Scheduler.appendChecked_eq h
  | derive nonterminal first child => exact Scheduler.deriveChecked_eq h
  | push label caller origin stem => exact Scheduler.pushChecked_eq h
  | pop frame result => exact Scheduler.popChecked_eq h
  | deliver link result label => exact Scheduler.deliverChecked_eq h
  | _ => rfl

theorem Routine.runChecked_eq {routine : Routine α} (h : world.scheduler.Sorted) :
    routine.runChecked tracer world = routine.run tracer world := by
  induction routine generalizing world with
  | done value => rfl
  | ask request next ih =>
    simp only [runChecked, run, Plan.run, Operation.actChecked_run_eq h]
    cases hrun : request.run tracer world with
    | ok answer between =>
      exact ih answer ((Operation.keeps Scheduler.kept_sorted request).run hrun h)
    | error fault between => rfl

end Requests

namespace Scheduler

variable {s s' : Scheduler} {new : Set Fact}

/-- The root, once there is one, is a derivation. -/
def RootKnown (s : Scheduler) : Prop :=
  ∀ ⦃root⦄, s.root = some root → ∃ symbol first last, s.Knows (.derivation root symbol first last)

theorem RootKnown.of_learns (h : s.RootKnown) (hlearns : s.Learns s' new) : s'.RootKnown := by
  intro root hroot
  have heq : s'.root = s.root := congrArg Control.root hlearns.control
  obtain ⟨symbol, first, last, hnode⟩ := h (heq.symm.trans hroot)
  exact ⟨symbol, first, last, (hlearns.knows _).mpr (.inl hnode)⟩

theorem law_rootKnown (start : Nonterminal) : Law start RootKnown where
  toKept := .of_lessons fun _ hlearns h => h.of_learns hlearns
  initial := fun root hroot => absurd hroot (Option.some_ne_none root).symm
  advance {s} symbol _ _ := fun root hroot => by
    obtain ⟨root', hroot', hknows⟩ := knows_advance s symbol
    obtain rfl := Option.some.inj (hroot.symm.trans hroot')
    exact ⟨_, _, _, (hknows _).mpr (.inr (.inr (.inl rfl)))⟩
  dequeue hdequeue h := h.of_learns (dequeue_learns hdequeue)

end Scheduler

namespace Session

open Scheduler (law_sorted law_rootKnown)

variable {σ μ α β : Type} {interpreter : Interpreter μ} {tracer : Tracer σ} {session : Session σ μ}

/-- What the checks are about is in order. -/
def Checkable (session : Session σ μ) : Prop :=
  session.scheduler.Sorted ∧ session.scheduler.RootKnown

theorem closed_checkable (interpreter : Interpreter μ) (tracer : Tracer σ) :
    Closed interpreter tracer Checkable fun _ => True :=
  .of_law ((law_sorted _).and (law_rootKnown _)) tracer

theorem bind_congr {first first' : Call σ μ α} {next next' : α → Call σ μ β}
    (hfirst : first session = first' session)
    (hnext : ∀ a between, first' session = .ok a between → next a between = next' a between) :
    (first >>= next) session = (first' >>= next') session := by
  change EStateM.bind first next session = EStateM.bind first' next' session
  rw [EStateM.bind, EStateM.bind, hfirst]
  cases hrun : first' session with
  | ok a between => exact hnext a between hrun
  | error halt between => rfl

theorem performChecked_eq (h : session.scheduler.Sorted) {routine : StateT μ Routine Unit} :
    performChecked tracer routine session = perform tracer routine session := by
  cases hrun : (routine.run session.store).run tracer session.world <;>
    simp only [performChecked, perform, Routine.runChecked_eq h, hrun]

theorem drainWithChecked_eq (h : session.Checkable) (fuel : Nat) :
    drainWithChecked interpreter tracer fuel session
      = drainWith interpreter tracer fuel session := by
  induction fuel generalizing session with
  | zero => rfl
  | succ fuel ih =>
    rw [drainWithChecked, drainWith]
    cases htake : takeTask session with
    | error halt taken => rfl
    | ok task taken =>
      cases task with
      | none => rfl
      | some task =>
        obtain ⟨rest, _, hdequeue, -, rfl⟩ := takeTask_eq_ok htake
        have hrest : rest.Sorted := (law_sorted interpreter.start).dequeue hdequeue h.1
        have hwork := ((closed_checkable interpreter tracer).work h htake).leaves
        dsimp only [runTask] at hwork ⊢
        rw [performChecked_eq (by exact hrest)]
        cases hrun : perform tracer (interpreter.routine task) _ with
        | error halt next => rfl
        | ok _ next => exact ih (leaves_of_ok hrun ▸ hwork)

theorem advanceChecked_eq (h : session.Checkable) {symbol : Option Char} :
    advanceChecked interpreter tracer symbol session
      = advance interpreter tracer symbol session := by
  refine bind_congr rfl fun _ opened hopen => bind_congr rfl fun isFirst opened' hlook => ?_
  obtain ⟨hrefusal, hadvance, -⟩ := openGeneration_eq_ok hopen
  obtain ⟨-, rfl⟩ := EStateM.Result.ok.inj hlook
  cases isFirst with
  | false => rfl
  | true =>
    refine performChecked_eq ?_
    have hopened := (law_sorted interpreter.start).advance symbol hrefusal h.1
    exact hadvance ▸ hopened

theorem feedChecked_eq (h : session.Checkable) {symbol : Option Char} :
    feedChecked interpreter tracer symbol session = feed interpreter tracer symbol session :=
  bind_congr (advanceChecked_eq h) fun _ _ hrun =>
    have hnext := ((closed_checkable interpreter tracer).stays_advance h symbol).leaves
    drainWithChecked_eq (leaves_of_ok hrun ▸ hnext) _

theorem feedAllChecked_eq (h : session.Checkable) (text : List Char) :
    feedAllChecked interpreter tracer text session = feedAll interpreter tracer text session := by
  induction text generalizing session with
  | nil => rfl
  | cons char rest ih =>
    refine bind_congr (feedChecked_eq h) fun _ between hrun => ih ?_
    have hfed := ((closed_checkable interpreter tracer).stays_feed h (some char)).leaves
    exact leaves_of_ok hrun ▸ hfed

theorem isAcceptedChecked_eq (h : session.Checkable) :
    isAcceptedChecked session = .ok session.isAccepted session := by
  rw [isAcceptedChecked]
  cases hroot : session.scheduler.root with
  | none => rfl
  | some root =>
    obtain ⟨symbol, first, last, alternatives, hnode⟩ := h.2 hroot
    have hnode : session.scheduler.forest.symbolNode root
        = .ok (.nonterminal symbol first last alternatives) :=
      Fault.unlessSome_eq_ok_iff.mpr hnode
    simp only [hnode]

theorem parseChecked_eq (h : session.Checkable) {text : String} :
    parseChecked interpreter tracer text session = parse interpreter tracer text session := by
  refine bind_congr (feedAllChecked_eq h text.toList) fun _ fed hrun => ?_
  have hfed : fed.Checkable :=
    leaves_of_ok hrun ▸ ((closed_checkable interpreter tracer).stays_feedAll h text.toList).leaves
  refine bind_congr (feedChecked_eq hfed) fun _ ended hrun' => ?_
  have hended : ended.Checkable :=
    leaves_of_ok hrun' ▸ ((closed_checkable interpreter tracer).stays_feed hfed none).leaves
  exact isAcceptedChecked_eq hended

/-- In a session in which things are in order no check fails. -/
theorem callChecked_eq (h : session.Checkable) (command : Command) :
    command.callChecked interpreter tracer session = command.call interpreter tracer session := by
  cases command with
  | advance symbol => exact advanceChecked_eq h
  | drain => exact drainWithChecked_eq h _
  | feed symbol => exact feedChecked_eq h
  | parse text => exact bind_congr (parseChecked_eq h) fun _ _ _ => rfl

theorem checkable_after (interpreter : Interpreter μ) (commands : List (Command × Tracer σ))
    (trace : σ) (store : μ) (limit : Nat) :
    (Session.after interpreter commands (.initial interpreter trace store limit)).Checkable :=
  have hclosed : ∀ command ∈ commands,
      Closed interpreter command.2 Checkable fun _ => True := fun _ _ => closed_checkable _ _
  have hlaw := (law_sorted interpreter.start).and (law_rootKnown interpreter.start)
  Closed.after hclosed hlaw.initial

end Session

end Gll
