import Gll.Proofs.Remains
import Gll.Proofs.Change
import Mathlib.Logic.Relation

/-!
What was recognized before a generation was opened stays as it is.

Nodes and frames are changed in place: `append` packs under a prefix, `derive` under a derivation,
and `push` adds a link to a frame. None of them is told which one: they look for it in a table of
the memory, or make it. A generation begins with an empty memory, so everything that the tables ever
lead to in it was made in it (`Scheduler.Frozen`), and what was there before is not found by
anything that changes things. A later generation begins with an empty memory again.

This takes a request as a whole, since packing as such could be about any node. What an action makes
known of the answers on its way is followed by `Act.Secures`.
-/

set_option autoImplicit false

namespace Gll

variable {α β : Type}

/-! ## Following the answers -/

/-- The step keeps a property of schedulers, and something is known of its answer then. -/
def Step.Secures (P : Scheduler → Prop) : Step α → (α → Prop) → Prop
  | .look read, known => ∀ s a, P s → read s = .ok a → known a
  | .update change, known => ∀ s, P s → P (change s).2 ∧ known (change s).1
  | .offer task, known => ∀ s, P s → P (s.offer task).2 ∧ known (s.offer task).1
  | .emit _, known => known ()

/-- An action keeps a property of schedulers on every way that it may take, and something is known
of its answer in the end. -/
def Act.Secures (P : Scheduler → Prop) : Act α → (α → Prop) → Prop
  | .done value, known => known value
  | .ask step next, known => step.Secures P fun answer => Act.Secures P (next answer) known

section Secures

variable {P : Scheduler → Prop} {known : α → Prop}

theorem Step.Secures.mono {step : Step α} {known' : α → Prop} (h : step.Secures P known)
    (himp : ∀ a, known a → known' a) : step.Secures P known' := by
  cases step with
  | look read => exact fun s a hs hread => himp a (h s a hs hread)
  | update change => exact fun s hs => ⟨(h s hs).1, himp _ (h s hs).2⟩
  | offer task => exact fun s hs => ⟨(h s hs).1, himp _ (h s hs).2⟩
  | emit event => exact himp _ h

/-- What a step does when it is carried out. -/
theorem Step.Secures.carry {step : Step α} (h : step.Secures P known) {σ : Type}
    (tracer : Tracer σ) {world : World σ} (hworld : P world.scheduler) :
    match step.run tracer world with
    | .ok answer world => P world.scheduler ∧ known answer
    | .error _ world => P world.scheduler := by
  cases step with
  | look read =>
    rw [Step.run]
    cases hread : read world.scheduler with
    | ok value => exact ⟨hworld, h _ _ hworld hread⟩
    | error fault => exact hworld
  | update change => exact h _ hworld
  | offer task => exact h _ hworld
  | emit event =>
    rw [Step.run]
    cases tracer.record event with
    | ok extend => exact ⟨hworld, h⟩
    | error fault => exact hworld

namespace Act

theorem secures_look {read : Scheduler → Except Fault α}
    (h : ∀ s a, P s → read s = .ok a → known a) : (look read).Secures P known := h

theorem secures_update {change : Scheduler → α × Scheduler}
    (h : ∀ s, P s → P (change s).2 ∧ known (change s).1) : (update change).Secures P known := h

theorem secures_offer {task : Task} {known : Bool → Prop}
    (h : ∀ s, P s → P (s.offer task).2 ∧ known (s.offer task).1) :
    (offer task).Secures P known := h

theorem secures_emit {event : Event} {known : Unit → Prop} (h : known ()) :
    (emit event).Secures P known := h

theorem Secures.mono {act : Act α} {known' : α → Prop} (h : act.Secures P known)
    (himp : ∀ a, known a → known' a) : act.Secures P known' := by
  induction act with
  | done value => exact himp value h
  | ask step rest ih => exact Step.Secures.mono h fun b hb => ih b hb

theorem Secures.bind {first : Act α} {next : α → Act β} {known : β → Prop}
    (h : first.Secures P fun a => (next a).Secures P known) :
    Secures P (first >>= next) known := by
  change Secures P (Plan.andThen first next) known
  induction first with
  | done value => exact h
  | ask step rest ih => exact Step.Secures.mono h fun b hb => ih b hb

theorem Secures.forEach {items : List β} {body : β → Act Unit}
    (hbody : ∀ item, (body item).Secures P fun _ => True) :
    Secures P (Plan.forEach items body) fun _ => True := by
  induction items with
  | nil => trivial
  | cons item rest ih => exact Secures.bind ((hbody item).mono fun _ _ => ih)

/-- It is kept also where the action breaks off. -/
theorem Secures.leaves {act : Act α} (hact : act.Secures P known) {σ : Type} {tracer : Tracer σ}
    {world : World σ} (h : P world.scheduler) :
    P (leaves (act.run tracer) world).scheduler := by
  induction act generalizing world with
  | done value => exact h
  | ask step rest ih =>
    have hstep := Step.Secures.carry hact tracer h
    rw [Act.run, Plan.leaves_ask]
    cases hrun : step.run tracer world with
    | ok answer between =>
      rw [hrun] at hstep
      exact ih answer hstep.2 hstep.1
    | error fault between =>
      rw [hrun] at hstep
      exact hstep

end Act

end Secures

/-! ## What was there before -/

namespace Scheduler

/-- What a base has is there as it is in the base: the same nodes and stacks under their numbers,
with the same things packed under them and linked to them in the same order. -/
structure Retains (base s : Scheduler) : Prop where
  symbol {id : SymbolId} {node : SymbolNode} :
    base.forest.symbolNode? id = some node → s.forest.symbolNode? id = some node
  stem {id : PrefixId} {node : PrefixNode} :
    base.forest.prefixNode? id = some node → s.forest.prefixNode? id = some node
  stack {id : StackId} {stack : Stack} :
    base.graph.stack? id = some stack → s.graph.stack? id = some stack

/-- What a base has is as it is in the base, and the tables lead to nothing that the base has. -/
structure Frozen (base s : Scheduler) : Prop extends Retains base s where
  conses {key : Label × Position} {id : PrefixId} :
    s.memory.conses[key]? = some id → base.forest.prefixNode? id = none
  derivations {key : Nonterminal × Position} {id : SymbolId} :
    s.memory.derivations[key]? = some id → base.forest.symbolNode? id = none
  frames {key : Label × Nat} {id : StackId} :
    s.memory.frames[key]? = some id → base.graph.stack? id = none

/-! ### What is made is new -/

namespace Retains

variable {base s : Scheduler}

theorem new_prefix (h : Retains base s) (node : PrefixNode) :
    base.forest.prefixNode? (s.forest.addPrefix node).1 = none := by
  by_contra hold
  obtain ⟨old, hold⟩ := Option.ne_none_iff_exists'.mp hold
  have hfound := h.stem hold
  simp [Forest.prefixNode?, Forest.addPrefix] at hfound

theorem new_symbol (h : Retains base s) (node : SymbolNode) :
    base.forest.symbolNode? (s.forest.addSymbol node).1 = none := by
  by_contra hold
  obtain ⟨old, hold⟩ := Option.ne_none_iff_exists'.mp hold
  have hfound := h.symbol hold
  simp [Forest.symbolNode?, Forest.addSymbol] at hfound

theorem new_stack (h : Retains base s) (label : Label) (origin : Nat) :
    base.graph.stack? (s.graph.addFrame label origin).1 = none := by
  by_contra hold
  obtain ⟨old, hold⟩ := Option.ne_none_iff_exists'.mp hold
  have hfound := h.stack hold
  simp [StackGraph.stack?, StackGraph.addFrame] at hfound

end Retains

namespace Frozen

variable {base s : Scheduler}

/-! ### Elementary changes -/

theorem emptyPrefix (h : Frozen base s) : Frozen base s.emptyPrefix.2 := by
  rw [Scheduler.emptyPrefix]
  split
  · exact h
  · exact ⟨⟨h.symbol, fun hold => Forest.prefixNode?_addPrefix.mpr (.inl (h.stem hold)), h.stack⟩,
      h.conses, h.derivations, h.frames⟩

theorem consFor (h : Frozen base s) (label : Label) (first : Position) :
    Frozen base (s.consFor label first).2 ∧
      base.forest.prefixNode? (s.consFor label first).1 = none := by
  cases hkey : s.memory.conses[(label, first)]? with
  | some id =>
    rw [Scheduler.consFor, hkey]
    exact ⟨h, h.conses hkey⟩
  | none =>
    rw [consFor_of_new hkey]
    refine ⟨⟨⟨h.symbol, fun hold => Forest.prefixNode?_addPrefix.mpr (.inl (h.stem hold)),
      h.stack⟩, fun hfound => ?_, h.derivations, h.frames⟩,
      h.new_prefix (.cons label first s.current #[])⟩
    rcases getElem?_insert_eq_some_iff hkey |>.mp hfound with hold | ⟨-, rfl⟩
    · exact h.conses hold
    · exact h.new_prefix _

theorem derivationFor (h : Frozen base s) (symbol : Nonterminal) (first : Position) :
    Frozen base (s.derivationFor symbol first).2 ∧
      base.forest.symbolNode? (s.derivationFor symbol first).1 = none := by
  cases hkey : s.memory.derivations[(symbol, first)]? with
  | some id =>
    rw [Scheduler.derivationFor, hkey]
    exact ⟨h, h.derivations hkey⟩
  | none =>
    rw [derivationFor_of_new hkey]
    refine ⟨⟨⟨fun hold => Forest.symbolNode?_addSymbol.mpr (.inl (h.symbol hold)), h.stem,
      h.stack⟩, h.conses, fun hfound => ?_, h.frames⟩,
      h.new_symbol (.nonterminal symbol first s.current #[])⟩
    rcases getElem?_insert_eq_some_iff hkey |>.mp hfound with hold | ⟨-, rfl⟩
    · exact h.derivations hold
    · exact h.new_symbol _

theorem frameFor (h : Frozen base s) (label : Label) (origin : Nat) :
    Frozen base (s.frameFor label origin).2 ∧
      base.graph.stack? (s.frameFor label origin).1 = none := by
  cases hkey : s.memory.frames[(label, origin)]? with
  | some id =>
    rw [Scheduler.frameFor, hkey]
    exact ⟨h, h.frames hkey⟩
  | none =>
    rw [frameFor_of_new hkey]
    refine ⟨⟨⟨h.symbol, h.stem,
      fun hold => StackGraph.stack?_addFrame.mpr (.inl (h.stack hold))⟩, h.conses, h.derivations,
      fun hfound => ?_⟩, h.new_stack label origin⟩
    rcases getElem?_insert_eq_some_iff hkey |>.mp hfound with hold | ⟨-, rfl⟩
    · exact h.frames hold
    · exact h.new_stack _ _

theorem packSplit (h : Frozen base s) {id : PrefixId} (hnew : base.forest.prefixNode? id = none)
    (child : Split) : Frozen base (s.packSplit id child) := by
  refine ⟨⟨h.symbol, fun {other node} hold => ?_, h.stack⟩, h.conses, h.derivations, h.frames⟩
  have hne : id ≠ other := by
    rintro rfl
    simp [hnew] at hold
  rw [Scheduler.packSplit, Forest.prefixNode?_packSplit, if_neg hne]
  exact h.stem hold

theorem packAlternative (h : Frozen base s) {id : SymbolId}
    (hnew : base.forest.symbolNode? id = none) (child : PrefixId) :
    Frozen base (s.packAlternative id child) := by
  refine ⟨⟨fun {other node} hold => ?_, h.stem, h.stack⟩, h.conses, h.derivations, h.frames⟩
  have hne : id ≠ other := by
    rintro rfl
    simp [hnew] at hold
  rw [Scheduler.packAlternative, Forest.symbolNode?_packAlternative, if_neg hne]
  exact h.symbol hold

theorem link (h : Frozen base s) {frame : StackId} (hnew : base.graph.stack? frame = none)
    (link : Link) : Frozen base (s.link frame link).2 := by
  rw [Scheduler.link]
  split
  · refine ⟨⟨h.symbol, h.stem, fun {other stack} hold => ?_⟩, h.conses, h.derivations, h.frames⟩
    have hne : frame ≠ other := by
      rintro rfl
      simp [hnew] at hold
    rw [StackGraph.stack?_addLink, if_neg hne]
    exact h.stack hold
  · exact h

theorem offer (h : Frozen base s) (task : Task) : Frozen base (s.offer task).2 := by
  obtain ⟨_, _, _, _, heq⟩ := s.exists_offer_eq task
  rw [heq]
  exact ⟨⟨h.symbol, h.stem, h.stack⟩, h.conses, h.derivations, h.frames⟩

theorem recordResult (h : Frozen base s) (frame : StackId) (result : SymbolId) :
    Frozen base (s.recordResult frame result).2 := by
  simp only [Scheduler.recordResult]
  split
  · exact h
  · exact ⟨⟨h.symbol, h.stem, h.stack⟩, h.conses, h.derivations, h.frames⟩

/-! ### Requests -/

section Requests

variable {label : Label} {caller frame : StackId} {stem : PrefixId} {result : SymbolId}

theorem scheduleNow : (scheduleNow label caller stem).Secures (Frozen base) fun _ => True := by
  refine .bind (Act.secures_offer fun s h => ⟨h.offer _, ?_⟩)
  split
  · trivial
  · trivial

theorem scheduleLater : (scheduleLater frame result).Secures (Frozen base) fun _ => True := by
  refine .bind (Act.secures_offer fun s h => ⟨h.offer _, ?_⟩)
  split
  · trivial
  · trivial

/-- An extension goes to a prefix that the base does not have. -/
theorem append : (append label stem result).Secures (Frozen base) fun _ => True :=
  .bind <| Act.secures_look fun _ node _ _ =>
    .bind <| Act.secures_update fun _ h =>
      have ⟨hmade, hnew⟩ := h.consFor label node.first
      ⟨hmade, .bind <| Act.secures_look fun _ _ _ _ =>
        .bind <| Act.secures_update fun _ h => ⟨h.packSplit hnew _, trivial⟩⟩

/-- A right-hand side goes to a derivation that the base does not have. -/
theorem derive {symbol : Nonterminal} {first : Position} :
    (derive symbol first stem).Secures (Frozen base) fun _ => True :=
  .bind <| Act.secures_update fun _ h =>
    have ⟨hmade, hnew⟩ := h.derivationFor symbol first
    ⟨hmade, .bind <| Act.secures_update fun _ h => ⟨h.packAlternative hnew _, trivial⟩⟩

theorem deliver {link : Link} :
    (deliver link result label).Secures (Frozen base) fun _ => True :=
  .bind <| append.mono fun _ _ => .bind <| scheduleNow.mono fun _ _ => trivial

/-- A link goes to a frame that the base does not have. -/
theorem push {origin : Nat} :
    (push label caller origin stem).Secures (Frozen base) fun _ => True := by
  refine .bind <| Act.secures_update fun _ h => ?_
  obtain ⟨hmade, hnew⟩ := h.frameFor label origin
  refine ⟨hmade, .bind <| Act.secures_update fun _ h => ⟨h.link hnew _, ?_⟩⟩
  refine .bind ?_
  split
  · refine .bind <| Act.secures_look fun _ results _ _ => .bind ?_
    exact (Act.Secures.forEach fun result => .bind <| Act.secures_emit deliver).mono
      fun _ _ => trivial
  · trivial

theorem pop : (pop frame result).Secures (Frozen base) fun _ => True := by
  refine .bind <| Act.secures_look fun _ stack _ _ => ?_
  cases stack with
  | initial => trivial
  | frame label origin links =>
    refine .bind <| Act.secures_update fun _ h => ⟨h.recordResult _ _, ?_⟩
    refine .bind <| Act.secures_look fun _ node _ _ => .bind ?_
    split
    · exact .forEach fun _ => deliver
    · trivial

/-- No request changes what the base has, whatever it is about. -/
theorem operation (operation : Operation α) :
    operation.act.Secures (Frozen base) fun _ => True := by
  cases operation with
  | look read => exact Act.secures_look fun _ _ _ _ => trivial
  | note event => trivial
  | emptyPrefix => exact Act.secures_update fun _ h => ⟨h.emptyPrefix, trivial⟩
  | append label left right => exact append
  | derive symbol first child => exact derive
  | scheduleNow label caller stem => exact scheduleNow
  | scheduleLater frame result => exact scheduleLater
  | push label caller origin stem => exact push
  | pop frame result => exact pop
  | deliver link result label => exact deliver

end Requests

/-! ### Generations -/

/-- A memory that is empty leads to nothing. -/
theorem of_retains (h : Retains base s) (position : Position) (isLast : Bool) :
    Frozen base (s.moveTo position isLast) := by
  refine ⟨⟨h.symbol, h.stem, h.stack⟩, ?_, ?_, ?_⟩ <;> simp [Scheduler.moveTo, Memory.empty]

theorem readSymbol (h : Frozen base s) : Frozen base s.readSymbol :=
  ⟨⟨fun hold => Forest.symbolNode?_addSymbol.mpr (.inl (h.symbol hold)), h.stem, h.stack⟩,
    h.conses, h.derivations, h.frames⟩

theorem anchorRoot (h : Frozen base s) : Frozen base s.anchorRoot :=
  have hmade := (h.derivationFor s.start (s.first.getD s.current)).1
  ⟨⟨hmade.symbol, hmade.stem, hmade.stack⟩, hmade.conses, hmade.derivations, hmade.frames⟩

/-- What there is when a generation is opened is frozen in it. -/
theorem of_advance (h : Retains base s) (symbol : Option Char) :
    Frozen base (s.advance symbol) := by
  cases symbol with
  | some char => exact (of_retains h _ _).readSymbol.anchorRoot
  | none => exact (of_retains h _ _).anchorRoot

theorem dequeue (h : Frozen base s) {rest : Scheduler} {task : Task}
    (hdequeue : s.dequeue? = some (task, rest)) : Frozen base rest := by
  obtain ⟨_, -, rfl⟩ := Scheduler.exists_of_dequeue? hdequeue
  exact ⟨⟨h.symbol, h.stem, h.stack⟩, h.conses, h.derivations, h.frames⟩

theorem move (h : Frozen base s) {next : Scheduler} (hmove : s.Move next) : Frozen base next := by
  cases hmove with
  | advance symbol hopen => exact of_advance h.toRetains symbol
  | request tracer trace request => exact (operation request).leaves h
  | dequeue hdequeue => exact h.dequeue hdequeue

theorem moves (h : Frozen base s) {next : Scheduler}
    (hmoves : Relation.ReflTransGen Move s next) : Frozen base next := by
  induction hmoves with
  | refl => exact h
  | tail _ hmove ih => exact ih.move hmove

end Frozen

end Scheduler

/-! ## What changes only grows -/

/-- A symbol node is as it was, or more right-hand sides came behind those that it had. -/
inductive SymbolNode.Gains : SymbolNode → SymbolNode → Prop where
  | terminal (position : Position) : Gains (.terminal position) (.terminal position)
  | nonterminal (symbol : Nonterminal) (first last : Position)
      (alternatives more : Array PrefixId) :
    Gains (.nonterminal symbol first last alternatives)
      (.nonterminal symbol first last (alternatives ++ more))

/-- A prefix node is as it was, or more ways to build it came behind those that it had. -/
inductive PrefixNode.Gains : PrefixNode → PrefixNode → Prop where
  | empty (position : Position) : Gains (.empty position) (.empty position)
  | cons (label : Label) (first last : Position) (children more : Array Split) :
    Gains (.cons label first last children) (.cons label first last (children ++ more))

/-- A stack is as it was, or more links came behind those that it had. -/
inductive Stack.Gains : Stack → Stack → Prop where
  | initial : Gains .initial .initial
  | frame (label : Label) (origin : Nat) (links more : Array Link) :
    Gains (.frame label origin links) (.frame label origin (links ++ more))

theorem exists_insertNew_eq {α : Type} [BEq α] (items : Array α) (item : α) :
    ∃ more, (insertNew items item).2 = items ++ more := by
  rw [insertNew]
  split
  · exact ⟨#[], by simp⟩
  · exact ⟨#[item], by simp⟩

namespace SymbolNode

theorem Gains.refl (node : SymbolNode) : node.Gains node := by
  cases node with
  | terminal position => exact .terminal position
  | nonterminal symbol first last alternatives =>
    simpa using Gains.nonterminal symbol first last alternatives #[]

theorem Gains.pack {node node' : SymbolNode} (h : node.Gains node') (child : PrefixId) :
    node.Gains ((node'.pack? child).getD node') := by
  cases h with
  | terminal position => exact .terminal position
  | nonterminal symbol first last alternatives more =>
    obtain ⟨last', hlast⟩ := exists_insertNew_eq (alternatives ++ more) child
    rw [pack?, Option.getD_some, hlast, Array.append_assoc]
    exact .nonterminal ..

end SymbolNode

namespace PrefixNode

theorem Gains.refl (node : PrefixNode) : node.Gains node := by
  cases node with
  | empty position => exact .empty position
  | cons label first last children => simpa using Gains.cons label first last children #[]

theorem Gains.pack {node node' : PrefixNode} (h : node.Gains node') (child : Split) :
    node.Gains ((node'.pack? child).getD node') := by
  cases h with
  | empty position => exact .empty position
  | cons label first last children more =>
    obtain ⟨last', hlast⟩ := exists_insertNew_eq (children ++ more) child
    rw [pack?, Option.getD_some, hlast, Array.append_assoc]
    exact .cons ..

end PrefixNode

namespace Stack

theorem Gains.refl (stack : Stack) : stack.Gains stack := by
  cases stack with
  | initial => exact .initial
  | frame label origin links => simpa using Gains.frame label origin links #[]

theorem Gains.link {stack stack' : Stack} (h : stack.Gains stack') (link : Link) :
    stack.Gains (stack'.link link).2 := by
  cases h with
  | initial => exact .initial
  | frame label origin links more =>
    obtain ⟨last, hlast⟩ := exists_insertNew_eq (links ++ more) link
    change Gains _ (.frame label origin (insertNew (links ++ more) link).2)
    rw [hlast, Array.append_assoc]
    exact .frame ..

end Stack

namespace Scheduler

/-- Nodes and stacks of a base are there, and all that became of them is that they gained. -/
structure Gains (base s : Scheduler) : Prop where
  symbol {id : SymbolId} {node : SymbolNode} : base.forest.symbolNode? id = some node →
    ∃ node', s.forest.symbolNode? id = some node' ∧ node.Gains node'
  stem {id : PrefixId} {node : PrefixNode} : base.forest.prefixNode? id = some node →
    ∃ node', s.forest.prefixNode? id = some node' ∧ node.Gains node'
  stack {id : StackId} {stack : Stack} : base.graph.stack? id = some stack →
    ∃ stack', s.graph.stack? id = some stack' ∧ stack.Gains stack'

namespace Gains

variable {base s : Scheduler}

theorem refl (s : Scheduler) : s.Gains s :=
  ⟨fun h => ⟨_, h, .refl _⟩, fun h => ⟨_, h, .refl _⟩, fun h => ⟨_, h, .refl _⟩⟩

/-- A node that is added is not in the way of those that were there. -/
theorem addSymbol (h : Gains base s) (node : SymbolNode) {id : SymbolId} {old : SymbolNode}
    (hold : base.forest.symbolNode? id = some old) :
    ∃ node', (s.forest.addSymbol node).2.symbolNode? id = some node' ∧ old.Gains node' := by
  obtain ⟨node', hnode', hgains⟩ := h.symbol hold
  exact ⟨node', Forest.symbolNode?_addSymbol.mpr (.inl hnode'), hgains⟩

theorem addPrefix (h : Gains base s) (node : PrefixNode) {id : PrefixId} {old : PrefixNode}
    (hold : base.forest.prefixNode? id = some old) :
    ∃ node', (s.forest.addPrefix node).2.prefixNode? id = some node' ∧ old.Gains node' := by
  obtain ⟨node', hnode', hgains⟩ := h.stem hold
  exact ⟨node', Forest.prefixNode?_addPrefix.mpr (.inl hnode'), hgains⟩

end Gains

theorem kept_gains (base : Scheduler) : Kept (Gains base) where
  emptyPrefix h := by
    rw [emptyPrefix]
    split
    · exact h
    · exact ⟨h.symbol, h.addPrefix _, h.stack⟩
  consFor label first h := by
    rw [consFor]
    split
    · exact h
    · exact ⟨h.symbol, h.addPrefix _, h.stack⟩
  derivationFor symbol first h := by
    rw [derivationFor]
    split
    · exact h
    · exact ⟨h.addSymbol _, h.stem, h.stack⟩
  -- Packing is the only change to a node that was there, and all it does is to add a child.
  packSplit id child h := by
    refine ⟨h.symbol, fun {other node} hold => ?_, h.stack⟩
    obtain ⟨node', hnode', hgains⟩ := h.stem hold
    rw [packSplit, Forest.prefixNode?_packSplit, hnode']
    split
    · exact ⟨_, rfl, hgains.pack child⟩
    · exact ⟨node', rfl, hgains⟩
  packAlternative id child h := by
    refine ⟨fun {other node} hold => ?_, h.stem, h.stack⟩
    obtain ⟨node', hnode', hgains⟩ := h.symbol hold
    rw [packAlternative, Forest.symbolNode?_packAlternative, hnode']
    split
    · exact ⟨_, rfl, hgains.pack child⟩
    · exact ⟨node', rfl, hgains⟩
  offer {s} task h := by
    obtain ⟨_, _, _, _, heq⟩ := s.exists_offer_eq task
    rw [heq]
    exact ⟨h.symbol, h.stem, h.stack⟩
  frameFor label origin h := by
    rw [frameFor]
    split
    · exact h
    · refine ⟨h.symbol, h.stem, fun {id stack} hold => ?_⟩
      obtain ⟨stack', hstack', hgains⟩ := h.stack hold
      exact ⟨stack', StackGraph.stack?_addFrame.mpr (.inl hstack'), hgains⟩
  link frame link h := by
    rw [Scheduler.link]
    split
    · refine ⟨h.symbol, h.stem, fun {id stack} hold => ?_⟩
      obtain ⟨stack', hstack', hgains⟩ := h.stack hold
      rw [StackGraph.stack?_addLink, hstack']
      split
      · exact ⟨_, rfl, hgains.link link⟩
      · exact ⟨stack', rfl, hgains⟩
    · exact h
  recordResult frame result h := by
    simp only [recordResult]
    split
    · exact h
    · exact ⟨h.symbol, h.stem, h.stack⟩

namespace Gains

variable {base s next : Scheduler}

theorem advance (h : Gains base s) (symbol : Option Char) : Gains base (s.advance symbol) := by
  have hanchored {s : Scheduler} (h : Gains base s) : Gains base s.anchorRoot :=
    have hmade := (kept_gains base).derivationFor s.start (s.first.getD s.current) h
    ⟨hmade.symbol, hmade.stem, hmade.stack⟩
  cases symbol with
  | some char => exact hanchored ⟨h.addSymbol _, h.stem, h.stack⟩
  | none => exact hanchored ⟨h.symbol, h.stem, h.stack⟩

theorem dequeue (h : Gains base s) {task : Task} (hdequeue : s.dequeue? = some (task, next)) :
    Gains base next := by
  obtain ⟨_, -, rfl⟩ := Scheduler.exists_of_dequeue? hdequeue
  exact ⟨h.symbol, h.stem, h.stack⟩

theorem moves (h : Gains base s) (hmoves : Relation.ReflTransGen Move s next) :
    Gains base next := by
  induction hmoves with
  | refl => exact h
  | tail _ hmove ih =>
    cases hmove with
    | advance symbol hopen => exact ih.advance symbol
    | request tracer trace operation => exact Operation.leaves_keeps (kept_gains base) ih
    | dequeue hdequeue => exact ih.dequeue hdequeue

end Gains

/-- History is frozen. Whatever is done after a generation was opened, by whomever and with any
handles, in this generation and in later ones, everything that there was before is found under its
number as it was. Whatever changes in a later sequence of moves was made after the opening, and all
that becomes of it is that it gains: more is packed under it or linked to it, behind what it has. -/
theorem history_frozen {s later next : Scheduler} {symbol : Option Char}
    (hlater : Relation.ReflTransGen Move (s.advance symbol) later)
    (hnext : Relation.ReflTransGen Move later next) :
    s.Retains later ∧ later.Gains next ∧
      (∀ id, next.forest.symbolNode? id ≠ later.forest.symbolNode? id →
        s.forest.symbolNode? id = none) ∧
      (∀ id, next.forest.prefixNode? id ≠ later.forest.prefixNode? id →
        s.forest.prefixNode? id = none) ∧
      (∀ id, next.graph.stack? id ≠ later.graph.stack? id → s.graph.stack? id = none) := by
  have hfrozen : Frozen s (s.advance symbol) := .of_advance ⟨id, id, id⟩ symbol
  have hthen := hfrozen.moves hlater
  have hlast := hthen.moves hnext
  refine ⟨hthen.toRetains, (Gains.refl later).moves hnext, fun id hne => ?_, fun id hne => ?_,
    fun id hne => ?_⟩
  · cases hold : s.forest.symbolNode? id with
    | none => rfl
    | some node => exact absurd ((hlast.symbol hold).trans (hthen.symbol hold).symm) hne
  · cases hold : s.forest.prefixNode? id with
    | none => rfl
    | some node => exact absurd ((hlast.stem hold).trans (hthen.stem hold).symm) hne
  · cases hold : s.graph.stack? id with
    | none => rfl
    | some stack => exact absurd ((hlast.stack hold).trans (hthen.stack hold).symm) hne

/-- The node of a letter is what it was after the next letter was read and a frame was made. -/
theorem history_frozen_letter :
    let s := (initial ⟨0⟩).advance (some 'a')
    let opened := s.advance (some 'b')
    let later := (leaves ((Operation.push ⟨1⟩ .initial 1 ⟨0⟩).run .silent) ⟨opened, ()⟩).scheduler
    opened.Move later ∧ s.forest.symbolNode? ⟨0⟩ = some (.terminal (.symbol 'a' 0)) ∧
      s.Retains later ∧ later.forest.symbolNode? ⟨0⟩ = some (.terminal (.symbol 'a' 0)) := by
  intro s opened later
  have hmove : opened.Move later := .request .silent () (.push ⟨1⟩ .initial 1 ⟨0⟩)
  have hretains : s.Retains later := (history_frozen (.single hmove) .refl).1
  have hletter : s.forest.symbolNode? ⟨0⟩ = some (.terminal (.symbol 'a' 0)) := by
    simp [s, initial, advance, moveTo, nextPosition, readSymbol, anchorRoot, derivationFor,
      Memory.empty, Forest.empty, Forest.addSymbol, Forest.symbolNode?]
  exact ⟨hmove, hletter, hretains, hretains.symbol hletter⟩

end Scheduler

end Gll
