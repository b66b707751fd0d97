import Gll.Proofs.Counting
import Gll.Proofs.Deliveries
import Gll.Proofs.Linking
import Gll.Proofs.Lookups
import Mathlib.Algebra.BigOperators.Intervals

/-!
How large a forest and its stacks get.

A grammar may be as ambiguous as it likes: what a parse keeps is polynomial in the offset that it
has come to, and the exponent does not depend on the grammar. The reason is that nothing is kept
twice. Every stack has a *place*, which is its label and its origin, and every node has one, which
is a span together with the symbol or the label that it is about. No two stacks and no two nodes of
a kind have the same place, and up to an offset there are only so many places. So the bounds on
stacks and nodes are one counting argument with different places (`countP_le_card`).

What is packed under a prefix is told apart by where it is split, and a span can be split at its two
ends and anywhere between them. That makes the third factor of the cubic bound.
-/

set_option autoImplicit false

namespace Gll

/-! ## Counting by places -/

/-- If the chosen members of a list have places, and no two of them the same one, there are no more
of them than places. -/
theorem countP_le_card {α β : Type} [DecidableEq β] {items : List α} {chosen : α → Bool}
    {places : Finset β} (place : α → β)
    (hmaps : ∀ item ∈ items, chosen item = true → place item ∈ places)
    (hinj : ∀ (i j : Nat) (item other : α), items[i]? = some item → items[j]? = some other →
      chosen item = true → chosen other = true → place item = place other → i = j) :
    items.countP chosen ≤ places.card := by
  -- The places of the chosen members are different, so they are as many as these.
  have hnodup : ((items.filter chosen).map place).Nodup := by
    unfold List.Nodup
    rw [List.pairwise_map, List.pairwise_filter, List.pairwise_iff_getElem]
    intro i j hi hj hlt hitem hother heq
    have hij := hinj i j items[i] items[j] (List.getElem?_eq_getElem hi)
      (List.getElem?_eq_getElem hj) hitem hother heq
    omega
  have hsubset : ((items.filter chosen).map place).toFinset ⊆ places := by
    intro b hb
    obtain ⟨item, hitem, rfl⟩ := List.mem_map.mp (List.mem_toFinset.mp hb)
    obtain ⟨hmem, hchosen⟩ := List.mem_filter.mp hitem
    exact hmaps item hmem hchosen
  have hcard := Finset.card_le_card hsubset
  rw [List.toFinset_card_of_nodup hnodup, List.length_map] at hcard
  rw [List.countP_eq_length_filter]
  exact hcard

/-- If the members of a list that weigh anything are chosen, and none weighs more than some bound,
then all of them together do not weigh more than the bound for each that is chosen. -/
theorem sum_le_countP_mul {α : Type} (items : List α) {chosen : α → Bool} {weight : α → Nat}
    {bound : Nat} (hle : ∀ item ∈ items, weight item ≤ bound)
    (hzero : ∀ item ∈ items, chosen item = false → weight item = 0) :
    (items.map weight).sum ≤ items.countP chosen * bound := by
  induction items with
  | nil => exact Nat.zero_le _
  | cons item rest ih =>
    have hrest := ih (fun other hother => hle other (List.mem_cons_of_mem _ hother))
      (fun other hother => hzero other (List.mem_cons_of_mem _ hother))
    rw [List.map_cons, List.sum_cons]
    by_cases hchosen : chosen item = true
    · have hitem := hle item List.mem_cons_self
      rw [List.countP_cons_of_pos hchosen, Nat.succ_mul]
      omega
    · have hitem := hzero item List.mem_cons_self (Bool.eq_false_iff.mpr hchosen)
      rw [List.countP_cons_of_neg hchosen, hitem]
      omega

/-- The spans up to an offset, as the places at which they end and begin. -/
def spansUpTo (n : Nat) : Finset (Σ _ : Nat, Nat) :=
  (Finset.range (n + 1)).sigma fun last => Finset.range (last + 1)

theorem mem_spansUpTo {n first last : Nat} :
    (⟨last, first⟩ : Σ _ : Nat, Nat) ∈ spansUpTo n ↔ first ≤ last ∧ last ≤ n := by
  rw [spansUpTo, Finset.mem_sigma, Finset.mem_range, Finset.mem_range]
  show last < n + 1 ∧ first < last + 1 ↔ first ≤ last ∧ last ≤ n
  omega

theorem card_spansUpTo (n : Nat) : (spansUpTo n).card = (n + 1) * (n + 2) / 2 := by
  have hsum : ∑ last ∈ Finset.range (n + 1), (last + 1) = ∑ last ∈ Finset.range (n + 2), last := by
    rw [Finset.sum_range_succ' _ (n + 1)]
    rfl
  rw [spansUpTo, Finset.card_sigma]
  simp only [Finset.card_range]
  rw [hsum, Finset.sum_range_id, Nat.mul_comm]
  rfl

/-! ## Sizes -/

deriving instance DecidableEq for Shape

namespace SymbolNode

/-- What tells a node from others. -/
def shape : SymbolNode → Shape
  | terminal position => .terminal position
  | nonterminal symbol first last _ => .derivation symbol first last

/-- Whether a node derives a nonterminal. -/
def isDerivation (node : SymbolNode) : Bool := node.nonterminal?.isSome

end SymbolNode

namespace PrefixNode

/-- What tells a node from others. -/
def shape : PrefixNode → Shape
  | empty position => .empty position
  | cons label first last _ => .cons label first last

/-- Whether a node is a prefix that is not empty. -/
def isCons (node : PrefixNode) : Bool := node.label?.isSome

end PrefixNode

namespace Forest

variable (forest : Forest)

/-- How many derivations of nonterminals there are. -/
def derivationCount : Nat := forest.symbols.toList.countP SymbolNode.isDerivation

/-- How many terminals there are. -/
def terminalCount : Nat := forest.symbols.toList.countP fun node => !node.isDerivation

/-- How many ways to build a prefix are packed under all prefixes together. -/
def splitCount : Nat := (forest.prefixes.toList.map fun node => node.children.size).sum

end Forest

namespace Program

/-- What a parse keeps up to an offset is polynomial in the offset. -/
structure Bounded (program : Program) (s : Scheduler) (n : Nat) : Prop where
  graph : s.graph.members.size ≤ 1 + program.slotCount * (n + 1)
  callers {id : StackId} {stack : Stack} :
    s.graph.stack? id = some stack → (stack.links.toList.map Link.caller).Nodup
  derivations : s.forest.derivationCount ≤ program.nonterminalCount * ((n + 1) * (n + 2) / 2)
  terminals : s.forest.terminalCount ≤ n + 1
  prefixes : s.forest.prefixes.size ≤ (n + 1) + program.slotCount * ((n + 1) * (n + 2) / 2)
  children {id : PrefixId} {label : Label} {first last : Position} {children : Array Split} :
    s.forest.prefixNode? id = some (.cons label first last children) →
      first.offset ≤ last.offset ∧ last.offset ≤ n ∧
        children.size ≤ last.offset - first.offset + 1
  splits : s.forest.splitCount ≤ program.slotCount * (n + 1) ^ 3

end Program

/-! ## Stacks -/

/-- There is one initial stack. -/
def OneInitial (s : Scheduler) : Prop :=
  ∀ id, s.graph.stack? id = some .initial → id = .initial

/-- No other initial stack is ever made. -/
theorem law_oneInitial (start : Nonterminal) : Law start OneInitial where
  toKeptOffStacks := .of_stacks fun h hgraph _ id hstack => h id (hgraph ▸ hstack)
  frameFor label origin h := by
    unfold Scheduler.frameFor
    split
    · exact h
    · intro id hstack
      rcases StackGraph.stack?_addFrame.mp hstack with hold | ⟨-, hframe⟩
      · exact h id hold
      · cases hframe
  link frame link h := by
    unfold Scheduler.link
    split
    · intro id hstack
      apply h id
      simp only [StackGraph.stack?_addLink] at hstack
      split at hstack
      · obtain ⟨old, hold, hlinked⟩ := Option.map_eq_some_iff.mp hstack
        cases old with
        | initial => exact hold
        | frame => cases hlinked
      · exact hstack
    · exact h
  recordResult frame result h := by
    simp only [Scheduler.recordResult]
    split <;> exact h
  initial _ hstack := (StackGraph.stack?_empty.mp hstack).1
  advance {s} symbol _ h := by
    unfold OneInitial
    rw [Scheduler.graph_advance]
    exact h
  dequeue {s rest task} hdequeue h := by
    obtain ⟨_, -, rfl⟩ := Scheduler.exists_of_dequeue? hdequeue
    exact h

namespace Scheduler

/-! ## Nodes by shape -/

variable {s : Scheduler}

theorem knows_shape_symbol (k : Nat) (node : SymbolNode)
    (hk : s.forest.symbols.toList[k]? = some node) : s.Knows (node.shape.node k) := by
  rw [Array.getElem?_toList] at hk
  cases node with
  | terminal position => exact hk
  | nonterminal symbol first last alternatives => exact ⟨alternatives, hk⟩

theorem knows_shape_prefix (k : Nat) (node : PrefixNode)
    (hk : s.forest.prefixes.toList[k]? = some node) : s.Knows (node.shape.node k) := by
  rw [Array.getElem?_toList] at hk
  cases node with
  | empty position => exact hk
  | cons label first last children => exact ⟨children, hk⟩

/-- There is at most one node of each shape. -/
theorem Distinct.countP_le (hdistinct : s.Distinct) {α : Type} {items : List α}
    {shape : α → Shape}
    (hknows : ∀ (k : Nat) (item : α), items[k]? = some item → s.Knows ((shape item).node k))
    {chosen : α → Bool} {shapes : Finset Shape}
    (hshapes : ∀ item ∈ items, chosen item = true → shape item ∈ shapes) :
    items.countP chosen ≤ shapes.card := by
  apply countP_le_card shape hshapes
  intro k l item other hk hl _ _ heq
  have hother := hknows l other hl
  rw [← heq] at hother
  exact hdistinct.unique (shape item) (hknows k item hk) hother

end Scheduler

namespace Moment

variable {program : Program} {input : List Char} {m : Moment}

/-- There is the initial stack, and at most one frame at each place. -/
theorem Timeline.stacks_size_le (hlaid : program.Laid) (h : Timeline program input m)
    (hone : OneInitial m.scheduler) :
    m.scheduler.graph.members.size ≤ 1 + program.slotCount * (m.index + 1) := by
  obtain ⟨_, hunderway⟩ := h.underway
  have hsound := hunderway.steady.sound
  have hlook {i : Nat} {stack : Stack}
      (hstack : m.scheduler.graph.members.toList[i]? = some stack) :
      m.scheduler.graph.stack? ⟨i⟩ = some stack := by
    rw [Array.getElem?_toList] at hstack
    exact hstack
  have hplace {i : Nat} {stack : Stack}
      (hstack : m.scheduler.graph.members.toList[i]? = some stack) :
      m.scheduler.place? ⟨i⟩ = stack.place? := by
    unfold Scheduler.place?
    rw [hlook hstack]
    rfl
  have hcount : m.scheduler.graph.members.toList.countP (fun _ => true)
      ≤ (Finset.insertNone (program.framePlaces m.index)).card := by
    refine countP_le_card Stack.place? (fun stack hmem _ => ?_)
      fun i j stack other hi hj _ _ heq => ?_
    · obtain ⟨i, hi⟩ := List.mem_iff_getElem?.mp hmem
      rw [← hplace hi]
      exact hsound.place?_mem hlaid ⟨i⟩
    -- The initial stack has no place, and it is the only one without.
    · cases stack with
      | initial =>
        cases other with
        | initial =>
          exact congrArg StackId.index ((hone ⟨i⟩ (hlook hi)).trans (hone ⟨j⟩ (hlook hj)).symm)
        | frame => cases heq
      | frame label origin links =>
        have hplace' : m.scheduler.place? ⟨j⟩ = some (label.index, origin) :=
          (hplace hj).trans heq.symm
        exact congrArg StackId.index (h.eq_of_place? (hplace hi) hplace')
  rw [List.countP_true, Array.length_toList, Finset.card_insertNone,
    Program.card_framePlaces] at hcount
  omega

/-! ## Nodes -/

section Nodes

variable (hwhole : program.Whole) (hsound : m.Sound program input)
include hwhole

/-- What a stack waits for is a nonterminal of the program. -/
theorem Caller.callee_lt {id : StackId} {symbol : Nonterminal} {i : Nat}
    (h : m.Caller program id (some symbol) i) : symbol.index < program.nonterminalCount := by
  cases h with
  | @frame _ _ _ owner before after _ _ hitem =>
    cases owner with
    | none =>
      obtain ⟨-, -, hatom, -⟩ := hitem.eq_accept_of_concat
      cases hatom
      exact hwhole.start_lt
    | some owner =>
      obtain ⟨previous, -, hprevious⟩ := hitem.previous
      exact hwhole.callee_lt hprevious

include hsound

/-- A derivation is of a nonterminal of the program, over a span up to the current offset. -/
theorem Sound.derivation_spans (hgrounded : m.scheduler.Grounded) {id : SymbolId}
    {symbol : Nonterminal} {first last : Position} {alternatives : Array PrefixId}
    (hnode : m.scheduler.forest.symbolNode? id
      = some (.nonterminal symbol first last alternatives)) :
    ∃ i j, first = .of input i ∧ last = .of input j ∧ i ≤ j ∧ j ≤ m.index ∧
      symbol.index < program.nonterminalCount := by
  have hderivation : m.Holds (.derivation id symbol first last) := ⟨alternatives, hnode⟩
  obtain ⟨i, j, hj, rfl, rfl, -, horigin⟩ := hsound.proper hderivation
  have hsymbol : symbol.index < program.nonterminalCount := by
    rcases horigin with ⟨rfl, -⟩ | ⟨caller, hcaller⟩
    · exact hwhole.start_lt
    · exact hcaller.callee_lt hwhole
  refine ⟨i, j, rfl, rfl, ?_, hj, hsymbol⟩
  -- It has a right-hand side over its span, or it was made in advance.
  rcases hgrounded.forest.symbols id hnode with hfounded | ⟨-, hfirst, -⟩
  · cases hfounded with
    | terminal hterminal => cases hterminal.symm.trans hnode
    | nonterminal hnode' hchild _ =>
      have halternative : m.Holds (.alternative id _) :=
        ⟨_, _, _, _, hnode', Array.mem_of_getElem? hchild⟩
      obtain ⟨_, _, _, i', j', hderivation', -, hstem⟩ := hsound.proper halternative
      obtain ⟨-, hi, hj'⟩ := derivation_unique hderivation hderivation'
      obtain rfl := Position.of_inj hi
      obtain rfl := Position.of_inj hj'
      obtain ⟨trees, hderives⟩ := hstem.derives
      exact hderives.le
  · have hzero := Position.of_inj (Option.some.inj (hsound.situated.first.symm.trans hfirst))
    omega

omit hwhole

/-- A prefix that is not empty has the label of a slot, and a span up to the current offset. -/
theorem Sound.cons_spans (hlaid : program.Laid) {id : PrefixId} {label : Label}
    {first last : Position} {children : Array Split}
    (hnode : m.scheduler.forest.prefixNode? id = some (.cons label first last children)) :
    ∃ i j, first = .of input i ∧ last = .of input j ∧ i ≤ j ∧ j ≤ m.index ∧
      label.index < program.slotCount := by
  have hcons : m.Holds (.cons id label first last) := ⟨children, hnode⟩
  obtain ⟨_, _, _, _, i, j, hj, rfl, rfl, hitem, -, _, hderives⟩ := hsound.proper hcons
  exact ⟨i, j, rfl, rfl, hderives.le, hj, hitem.index_lt hlaid⟩

/-- A prefix is split at its ends or between them. -/
theorem Sound.split_mem {id : PrefixId} {label : Label} {first last : Position}
    {children : Array Split} {child : Split}
    (hnode : m.scheduler.forest.prefixNode? id = some (.cons label first last children))
    (hchild : child ∈ children) :
    ∃ l, child.split = .of input l ∧ first.offset ≤ l ∧ l ≤ last.offset := by
  have hcons : m.Holds (.cons id label first last) := ⟨children, hnode⟩
  have hsplit : m.Holds (.split id child) := ⟨label, first, last, children, hnode, hchild⟩
  obtain ⟨label', split, left, right⟩ := child
  obtain ⟨_, _, _, _, i, l, j, hcons', -, rfl, hstem, hderivative⟩ := hsound.proper hsplit
  obtain ⟨-, rfl, rfl⟩ := cons_unique hcons hcons'
  obtain ⟨_, hbefore⟩ := hstem.derives
  obtain ⟨_, hafter⟩ := hderivative.derives
  refine ⟨l, rfl, ?_, ?_⟩
  · rw [Position.offset_of]
    exact hbefore.le
  · rw [Position.offset_of]
    exact hafter.le

/-- A prefix has at most as many splits as there are places for them. -/
theorem Sound.children_size_le {id : PrefixId} {label : Label} {first last : Position}
    {children : Array Split}
    (hnode : m.scheduler.forest.prefixNode? id = some (.cons label first last children))
    (honce : (children.toList.map Split.split).Nodup) :
    children.size ≤ last.offset - first.offset + 1 := by
  have hcard : (children.toList.map Split.split).length
      ≤ (Finset.Icc first.offset last.offset).card := by
    apply length_le_card_of_injOn honce Position.offset
    · intro split hmem
      obtain ⟨child, hchild, rfl⟩ := List.mem_map.mp hmem
      obtain ⟨l, hl, hfirst, hlast⟩ := hsound.split_mem hnode (Array.mem_toList_iff.mp hchild)
      rw [hl, Position.offset_of, Finset.mem_Icc]
      exact ⟨hfirst, hlast⟩
    · intro split hmem split' hmem' hoffset
      obtain ⟨child, hchild, rfl⟩ := List.mem_map.mp hmem
      obtain ⟨child', hchild', rfl⟩ := List.mem_map.mp hmem'
      obtain ⟨l, hl, -, -⟩ := hsound.split_mem hnode (Array.mem_toList_iff.mp hchild)
      obtain ⟨l', hl', -, -⟩ := hsound.split_mem hnode (Array.mem_toList_iff.mp hchild')
      rw [hl, hl', Position.offset_of, Position.offset_of] at hoffset
      rw [hl, hl', hoffset]
  rw [List.length_map, Array.length_toList, Nat.card_Icc] at hcard
  omega

/-! ## Counting nodes -/

/-- There is at most one terminal at each offset. -/
theorem Sound.terminalCount_le (hdistinct : m.scheduler.Distinct) :
    m.scheduler.forest.terminalCount ≤ m.index + 1 := by
  let shapes := (Finset.range (m.index + 1)).image fun i => Shape.terminal (.of input i)
  have hcard : shapes.card ≤ m.index + 1 :=
    Finset.card_image_le.trans_eq (Finset.card_range (m.index + 1))
  refine (hdistinct.countP_le Scheduler.knows_shape_symbol
    (fun node hmem hchosen => ?_)).trans hcard
  obtain ⟨k, hk⟩ := List.mem_iff_getElem?.mp hmem
  cases node with
  | nonterminal => cases hchosen
  | terminal position =>
    have hterminal : m.Holds (.terminal ⟨k⟩ position) := Scheduler.knows_shape_symbol k _ hk
    obtain ⟨i, hi, rfl⟩ := hsound.proper hterminal
    exact Finset.mem_image.mpr ⟨i, Finset.mem_range.mpr (Nat.lt_succ_of_le hi), rfl⟩

/-- There is at most one empty prefix at each offset. -/
theorem Sound.emptyCount_le (hdistinct : m.scheduler.Distinct) :
    m.scheduler.forest.prefixes.toList.countP (fun node => !node.isCons) ≤ m.index + 1 := by
  let shapes := (Finset.range (m.index + 1)).image fun i => Shape.empty (.of input i)
  have hcard : shapes.card ≤ m.index + 1 :=
    Finset.card_image_le.trans_eq (Finset.card_range (m.index + 1))
  refine (hdistinct.countP_le Scheduler.knows_shape_prefix
    (fun node hmem hchosen => ?_)).trans hcard
  obtain ⟨k, hk⟩ := List.mem_iff_getElem?.mp hmem
  cases node with
  | cons => cases hchosen
  | empty position =>
    have hempty : m.Holds (.empty ⟨k⟩ position) := Scheduler.knows_shape_prefix k _ hk
    obtain ⟨i, hi, rfl⟩ := hsound.proper hempty
    exact Finset.mem_image.mpr ⟨i, Finset.mem_range.mpr (Nat.lt_succ_of_le hi), rfl⟩

/-- There is at most one prefix of each label over each span. -/
theorem Sound.consCount_le (hlaid : program.Laid) (hdistinct : m.scheduler.Distinct) :
    m.scheduler.forest.prefixes.toList.countP PrefixNode.isCons
      ≤ program.slotCount * ((m.index + 1) * (m.index + 2) / 2) := by
  let shapes := (Finset.range program.slotCount ×ˢ spansUpTo m.index).image fun place =>
    Shape.cons ⟨place.1⟩ (.of input place.2.2) (.of input place.2.1)
  have hcard : shapes.card ≤ program.slotCount * ((m.index + 1) * (m.index + 2) / 2) := by
    refine Finset.card_image_le.trans_eq ?_
    rw [Finset.card_product, Finset.card_range, card_spansUpTo]
  refine (hdistinct.countP_le Scheduler.knows_shape_prefix
    (fun node hmem hchosen => ?_)).trans hcard
  obtain ⟨k, hk⟩ := List.mem_iff_getElem?.mp hmem
  rw [Array.getElem?_toList] at hk
  cases node with
  | empty => cases hchosen
  | cons label first last children =>
    have hnode : m.scheduler.forest.prefixNode? ⟨k⟩ = some (.cons label first last children) := hk
    obtain ⟨i, j, rfl, rfl, hij, hj, hlabel⟩ := hsound.cons_spans hlaid hnode
    exact Finset.mem_image.mpr ⟨(label.index, ⟨j, i⟩), Finset.mem_product.mpr
      ⟨Finset.mem_range.mpr hlabel, mem_spansUpTo.mpr ⟨hij, hj⟩⟩, rfl⟩

/-- There is at most one derivation of each nonterminal over each span. -/
theorem Sound.derivationCount_le (hwhole : program.Whole) (hdistinct : m.scheduler.Distinct)
    (hgrounded : m.scheduler.Grounded) :
    m.scheduler.forest.derivationCount
      ≤ program.nonterminalCount * ((m.index + 1) * (m.index + 2) / 2) := by
  -- The shapes that a derivation can have: a nonterminal of the program, and a span.
  let shapes := (Finset.range program.nonterminalCount ×ˢ spansUpTo m.index).image fun place =>
    Shape.derivation ⟨place.1⟩ (.of input place.2.2) (.of input place.2.1)
  have hcard : shapes.card
      ≤ program.nonterminalCount * ((m.index + 1) * (m.index + 2) / 2) := by
    refine Finset.card_image_le.trans_eq ?_
    rw [Finset.card_product, Finset.card_range, card_spansUpTo]
  refine (hdistinct.countP_le Scheduler.knows_shape_symbol
    (fun node hmem hchosen => ?_)).trans hcard
  obtain ⟨k, hk⟩ := List.mem_iff_getElem?.mp hmem
  rw [Array.getElem?_toList] at hk
  cases node with
  | terminal => cases hchosen
  | nonterminal symbol first last alternatives =>
    have hnode : m.scheduler.forest.symbolNode? ⟨k⟩
        = some (.nonterminal symbol first last alternatives) := hk
    obtain ⟨i, j, rfl, rfl, hij, hj, hsymbol⟩ :=
      hsound.derivation_spans hwhole hgrounded hnode
    exact Finset.mem_image.mpr ⟨(symbol.index, ⟨j, i⟩), Finset.mem_product.mpr
      ⟨Finset.mem_range.mpr hsymbol, mem_spansUpTo.mpr ⟨hij, hj⟩⟩, rfl⟩

/-- A prefix is empty or not. -/
theorem Sound.prefixes_size_le (hlaid : program.Laid) (hdistinct : m.scheduler.Distinct) :
    m.scheduler.forest.prefixes.size
      ≤ (m.index + 1) + program.slotCount * ((m.index + 1) * (m.index + 2) / 2) := by
  have hempty := hsound.emptyCount_le hdistinct
  have hcons := hsound.consCount_le hlaid hdistinct
  have hboth := List.length_eq_countP_add_countP PrefixNode.isCons
    (l := m.scheduler.forest.prefixes.toList)
  rw [Array.length_toList] at hboth
  simp only [Bool.not_eq_true, Bool.decide_eq_false] at hboth
  omega

/-- Splits are packed under prefixes that are not empty, and under each of them there are at most as
many as there are offsets. -/
theorem Sound.splitCount_le (hlaid : program.Laid) (hdistinct : m.scheduler.Distinct)
    (honce : ∀ {id : PrefixId} {label : Label} {first last : Position} {children : Array Split},
      m.scheduler.forest.prefixNode? id = some (.cons label first last children) →
        (children.toList.map Split.split).Nodup) :
    m.scheduler.forest.splitCount ≤ program.slotCount * (m.index + 1) ^ 3 := by
  have hsum : m.scheduler.forest.splitCount
      ≤ m.scheduler.forest.prefixes.toList.countP PrefixNode.isCons * (m.index + 1) := by
    apply sum_le_countP_mul
    · intro node hmem
      obtain ⟨k, hk⟩ := List.mem_iff_getElem?.mp hmem
      rw [Array.getElem?_toList] at hk
      cases node with
      | empty => exact Nat.zero_le _
      | cons label first last children =>
        have hnode : m.scheduler.forest.prefixNode? ⟨k⟩ = some (.cons label first last children) :=
          hk
        have hsize := hsound.children_size_le hnode (honce hnode)
        obtain ⟨i, j, rfl, rfl, -, hj, -⟩ := hsound.cons_spans hlaid hnode
        rw [Position.offset_of, Position.offset_of] at hsize
        show children.size ≤ m.index + 1
        omega
    · intro node _ hchosen
      cases node with
      | empty => rfl
      | cons => cases hchosen
  have hspans : (m.index + 1) * (m.index + 2) / 2 ≤ (m.index + 1) * (m.index + 1) := by
    apply Nat.div_le_of_le_mul
    nlinarith
  calc m.scheduler.forest.splitCount
      ≤ m.scheduler.forest.prefixes.toList.countP PrefixNode.isCons * (m.index + 1) := hsum
    _ ≤ program.slotCount * ((m.index + 1) * (m.index + 2) / 2) * (m.index + 1) :=
        Nat.mul_le_mul_right _ (hsound.consCount_le hlaid hdistinct)
    _ ≤ program.slotCount * ((m.index + 1) * (m.index + 1)) * (m.index + 1) :=
        Nat.mul_le_mul_right _ (Nat.mul_le_mul_left _ hspans)
    _ = program.slotCount * (m.index + 1) ^ 3 := by ring

end Nodes

end Moment

namespace Program

variable {grammar : Grammar} {program : Program} {σ : Type} {tracer : Tracer σ} {trace : σ}
  {limit : Nat} {session : Session σ Unit} {fed : List Char} {offers : List Task}

/-- Before the first symbol there is the initial stack alone. -/
theorem bounded_initial (start : Nonterminal) : program.Bounded (Scheduler.initial start) 0 where
  graph := Nat.le_add_right _ _
  callers {id stack} hstack := by
    obtain ⟨-, rfl⟩ := StackGraph.stack?_empty.mp hstack
    exact List.nodup_nil
  derivations := Nat.zero_le _
  terminals := Nat.zero_le _
  prefixes := Nat.zero_le _
  children {id _ _ _ _} hnode := by
    have hnone : (Scheduler.initial start).forest.prefixNode? id = none := rfl
    cases hnone.symm.trans hnode
  splits := Nat.zero_le _

theorem bounded_of_reaches (hwhole : program.Whole)
    (h : Session.Reaches program.interpreter tracer (.initial program.interpreter trace () limit)
      fed session offers) : program.Bounded session.scheduler session.scheduler.index := by
  have hlaid := hwhole.laid
  rcases h.timeline hlaid (List.prefix_refl fed) fun _ => rfl with ⟨hinitial, -⟩ | htimeline
  · rw [hinitial]
    exact bounded_initial program.start
  · obtain ⟨carried, hunderway⟩ := htimeline.underway
    have hsound := hunderway.steady.sound
    have hdistinct := h.law (Scheduler.law_distinct program.start)
    have hformed := wellFormed_of_reaches hlaid h
    refine ⟨htimeline.stacks_size_le hlaid (h.law (law_oneInitial program.start)),
      fun {id stack} hstack => ?_, hsound.derivationCount_le hwhole hdistinct (h.grounded hlaid),
      hsound.terminalCount_le hdistinct, hsound.prefixes_size_le hlaid hdistinct,
      fun {id label first last children} hnode => ?_,
      hsound.splitCount_le hlaid hdistinct hformed.distinct⟩
    · cases stack with
      | initial => exact List.nodup_nil
      | frame label origin links => exact (wellLinked_of_reaches hlaid h).callers hstack
    · have hsize := hsound.children_size_le hnode (hformed.distinct hnode)
      obtain ⟨i, j, rfl, rfl, hij, hj, -⟩ := hsound.cons_spans hlaid hnode
      rw [Position.offset_of, Position.offset_of] at hsize ⊢
      exact ⟨hij, hj, hsize⟩

/-- A symbol node is a derivation or a terminal. -/
theorem Bounded.symbols_size_le {s : Scheduler} {n : Nat} (h : program.Bounded s n) :
    s.forest.symbols.size
      ≤ program.nonterminalCount * ((n + 1) * (n + 2) / 2) + (n + 1) := by
  have hboth := List.length_eq_countP_add_countP SymbolNode.isDerivation
    (l := s.forest.symbols.toList)
  rw [Array.length_toList] at hboth
  simp only [Bool.not_eq_true, Bool.decide_eq_false] at hboth
  rw [hboth]
  exact Nat.add_le_add h.derivations h.terminals

/-- **A parse keeps no more than a cubic amount, whatever the grammar.** In every state of a
session, at whatever offset it is and whether its work is done or not, the stacks are bounded by the
slots and the offset, and a frame has a caller once; the nodes are bounded by the nonterminals or
slots and the spans up to the offset; and under a prefix there is at most one split for each offset
of its span. -/
theorem compile_bounded (hcompile : Program.compile grammar = .ok program)
    (h : Session.Reaches program.interpreter tracer (.initial program.interpreter trace () limit)
      fed session offers) : program.Bounded session.scheduler session.scheduler.index :=
  bounded_of_reaches (whole_of_compile hcompile) h

/-- With the grammar that goes round in circles in every way. -/
theorem compile_bounded_circular : ∃ program session,
    Program.compile circular = .ok program ∧
      program.parse .silent () 224 "a" = .ok true session ∧
        program.Bounded session.scheduler session.scheduler.index := by
  obtain ⟨program, session, hcompile, hparse⟩ := parse_circular
  obtain ⟨⟨offers, h⟩, -⟩ := Session.Reaches.start.of_parse hparse
  exact ⟨program, session, hcompile, hparse, compile_bounded hcompile h⟩

end Program

end Gll
