import Gll.Proofs.FirstChoice
import Gll.Proofs.WellFormed

/-!
Ambiguity, as it is seen in a forest.

A node is ambiguous if more than one thing is packed under it (`Forest.isAmbiguous`). Whoever wants
to know whether the input has one derivation only looks whether there is such a node among those
that can be reached from the root (`Forest.IsUnambiguous`). That this is right takes two arguments.

* Where nothing is ambiguous, a tree has no choice (`MarkedTrees.unique`). The induction is on the
  tree, as always in a forest that may go in circles.
* What is packed under one node gives different trees. Right-hand sides of a nonterminal differ in
  their marks, and ways to build a prefix in the number of leaves of the last tree. Nothing is lost
  on the way up to the root, because every node has trees (`Sound.exists_markedTrees_of_stem`): what
  a prefix refers to has a derivation, even if the forest goes in circles.

A forest does not tell two empty alternatives of a nonterminal apart, so no nonterminal should have
two of them (`Program.EmptyUnique`). For the second argument that does not matter.
-/

set_option autoImplicit false

namespace Gll

open Relation (ReflTransGen)

namespace Forest

/-- A node refers to what is packed under it. -/
inductive Refers (forest : Forest) : NodeId → NodeId → Prop where
  | alternative {id : SymbolId} {symbol : Nonterminal} {first last : Position}
      {alternatives : Array PrefixId} {child : PrefixId}
      (hnode : forest.symbolNode? id = some (.nonterminal symbol first last alternatives))
      (hchild : child ∈ alternatives) : Refers forest (.symbol id) (.stem child)
  | left {id : PrefixId} {label : Label} {first last : Position} {children : Array Split}
      {child : Split} (hnode : forest.prefixNode? id = some (.cons label first last children))
      (hchild : child ∈ children) : Refers forest (.stem id) (.stem child.left)
  | right {id : PrefixId} {label : Label} {first last : Position} {children : Array Split}
      {child : Split} (hnode : forest.prefixNode? id = some (.cons label first last children))
      (hchild : child ∈ children) : Refers forest (.stem id) (.symbol child.right)

/-- Whether more than one thing is packed under a node. -/
def isAmbiguous (forest : Forest) : NodeId → Bool
  | .symbol id => forest.isAmbiguousSymbol id
  | .stem id => forest.isAmbiguousPrefix id

/-- No node that can be reached from a node is ambiguous. -/
def IsUnambiguous (forest : Forest) (node : NodeId) : Prop :=
  ∀ other, ReflTransGen forest.Refers node other → forest.isAmbiguous other = false

/-- A node has two different trees. -/
def Forks (forest : Forest) (program : Program) (node : NodeId) : Prop :=
  ∃ trees trees', forest.MarkedTrees program node trees ∧
    forest.MarkedTrees program node trees' ∧ trees ≠ trees'

end Forest

/-- No nonterminal has two empty alternatives. -/
def Program.EmptyUnique (program : Program) : Prop :=
  ∀ ⦃symbol : Nonterminal⦄ ⦃labels : List Label⦄ ⦃entry entry' : Label⦄,
    program.entries? symbol = some labels → entry ∈ labels → entry' ∈ labels →
      program.atomsAt entry = [] → program.atomsAt entry' = [] → entry = entry'

/-- Items without repetitions are more than one if and only if two of them are different. -/
theorem one_lt_size_iff {α : Type} [DecidableEq α] {items : Array α}
    (hnodup : items.toList.Nodup) :
    1 < items.size ↔ ∃ item ∈ items, ∃ other ∈ items, item ≠ other := by
  rw [← Array.length_toList, ← List.toFinset_card_of_nodup hnodup, Finset.one_lt_card]
  simp only [List.mem_toFinset, Array.mem_toList_iff]

/-! ## Where nothing is ambiguous -/

section Unambiguous

variable {program : Program} {s : Scheduler}

theorem isAmbiguous_symbol_iff (htidy : Tidy s) {id : SymbolId} {symbol : Nonterminal}
    {first last : Position} {alternatives : Array PrefixId}
    (hnode : s.forest.symbolNode? id = some (.nonterminal symbol first last alternatives)) :
    s.forest.isAmbiguous (.symbol id) = true ↔
      ∃ child ∈ alternatives, ∃ other ∈ alternatives, child ≠ other := by
  have hnodup : alternatives.toList.Nodup := htidy.alternatives hnode
  rw [← one_lt_size_iff hnodup, Forest.isAmbiguous, Forest.isAmbiguousSymbol, hnode]
  exact decide_eq_true_iff

theorem isAmbiguous_stem_iff (htidy : Tidy s) {id : PrefixId} {label : Label}
    {first last : Position} {children : Array Split}
    (hnode : s.forest.prefixNode? id = some (.cons label first last children)) :
    s.forest.isAmbiguous (.stem id) = true ↔
      ∃ child ∈ children, ∃ other ∈ children, child ≠ other := by
  have hnodup : children.toList.Nodup := htidy.children hnode
  rw [← one_lt_size_iff hnodup, Forest.isAmbiguous, Forest.isAmbiguousPrefix, hnode]
  exact decide_eq_true_iff

namespace Forest.IsUnambiguous

variable {forest : Forest} {node other : NodeId}

theorem self (h : forest.IsUnambiguous node) : forest.isAmbiguous node = false :=
  h node .refl

theorem of_refers (h : forest.IsUnambiguous node) (hrefers : forest.Refers node other) :
    forest.IsUnambiguous other :=
  fun _ hreach => h _ (.head hrefers hreach)

/-- Nothing else is packed under a symbol beside an alternative, -/
theorem alternative_eq {id : SymbolId} (h : s.forest.IsUnambiguous (.symbol id)) (htidy : Tidy s)
    {symbol : Nonterminal} {first last : Position} {alternatives : Array PrefixId}
    {child child' : PrefixId}
    (hnode : s.forest.symbolNode? id = some (.nonterminal symbol first last alternatives))
    (hchild : child ∈ alternatives) (hchild' : child' ∈ alternatives) : child = child' := by
  by_contra hne
  have hambiguous := (isAmbiguous_symbol_iff htidy hnode).mpr ⟨_, hchild, _, hchild', hne⟩
  exact Bool.false_ne_true (h.self.symm.trans hambiguous)

/-- and nothing else under a prefix beside a split. -/
theorem split_eq {id : PrefixId} (h : s.forest.IsUnambiguous (.stem id)) (htidy : Tidy s)
    {label : Label} {first last : Position} {children : Array Split} {child child' : Split}
    (hnode : s.forest.prefixNode? id = some (.cons label first last children))
    (hchild : child ∈ children) (hchild' : child' ∈ children) : child = child' := by
  by_contra hne
  have hambiguous := (isAmbiguous_stem_iff htidy hnode).mpr ⟨_, hchild, _, hchild', hne⟩
  exact Bool.false_ne_true (h.self.symm.trans hambiguous)

end Forest.IsUnambiguous

/-- If there are no two empty alternatives, what is packed has one mark. -/
theorem Program.Marks.unique (hlaid : program.Laid) (hempty : program.EmptyUnique)
    {forest : Forest} {symbol : Nonterminal} {id : PrefixId} {entry entry' : Label}
    (h : program.Marks forest symbol id entry) (h' : program.Marks forest symbol id entry') :
    entry = entry' := by
  obtain ⟨⟨labels, hlabels, hentry⟩, -, hfirst⟩ := h
  obtain ⟨⟨labels', hlabels', hentry'⟩, -, hsecond⟩ := h'
  obtain rfl := Option.some.inj (hlabels.symm.trans hlabels')
  have hending := hfirst.symm.trans hsecond
  by_cases hatoms : program.atomsAt entry = []
  · have hatoms' := hlaid.atomsAt_eq_of_ending hlabels hentry hentry' hending
    exact hempty hlabels hentry hentry' hatoms (hatoms'.symm.trans hatoms)
  · exact hlaid.ending_inj hlabels hentry hentry' hatoms hending

/-- Where nothing is ambiguous, there is no choice for a tree. -/
theorem Forest.MarkedTrees.unique (hlaid : program.Laid) (hempty : program.EmptyUnique)
    (htidy : Tidy s) {node : NodeId} {trees trees' : List MarkedTree}
    (h : s.forest.MarkedTrees program node trees) (h' : s.forest.MarkedTrees program node trees')
    (hunambiguous : s.forest.IsUnambiguous node) : trees = trees' := by
  -- By induction on the first row of trees. The node decides how the second one was come by, and
  -- nothing is packed in it twice, so both go on to the same nodes.
  induction h generalizing trees' with
  | terminal hnode =>
    cases h' with
    | terminal hnode' =>
      cases hnode.symm.trans hnode'
      rfl
    | nonterminal hnode' => cases hnode.symm.trans hnode'
  | nonterminal hnode hchild hmarks _ ih =>
    cases h' with
    | terminal hnode' => cases hnode.symm.trans hnode'
    | nonterminal hnode' hchild' hmarks' htrees' =>
      cases hnode.symm.trans hnode'
      obtain rfl := hunambiguous.alternative_eq htidy hnode hchild hchild'
      obtain rfl := hmarks.unique hlaid hempty hmarks'
      rw [ih htrees' (hunambiguous.of_refers (.alternative hnode hchild))]
  | empty hnode =>
    cases h' with
    | empty hnode' => rfl
    | cons hnode' => cases hnode.symm.trans hnode'
  | cons hnode hchild _ _ ihleft ihright =>
    cases h' with
    | empty hnode' => cases hnode.symm.trans hnode'
    | cons hnode' hchild' hleft' hright' =>
      cases hnode.symm.trans hnode'
      obtain rfl := hunambiguous.split_eq htidy hnode hchild hchild'
      rw [ihleft hleft' (hunambiguous.of_refers (.left hnode hchild)),
        ihright hright' (hunambiguous.of_refers (.right hnode hchild))]

end Unambiguous

/-! ## Where something is -/

namespace Moment

variable {program : Program} {input : List Char} {m : Moment}

theorem Stem.lt_size {next : Label} {atoms : List Atom} {id : PrefixId} {i j : Nat}
    (h : m.Stem program input next atoms id i j) :
    id.index < m.scheduler.forest.prefixes.size := by
  cases h with
  | empty hnode => exact Forest.prefixNode?_lt hnode
  | cons _ _ hnode _ =>
    obtain ⟨children, hnode⟩ := hnode
    exact Forest.prefixNode?_lt hnode

/-- What a tree derives up to an offset begins where its leaves do. -/
theorem Sound.start_eq_of_tree (hlaid : program.Laid) (hsound : m.Sound program input)
    {atom atom' : Atom} {id id' : SymbolId} {i i' j : Nat} {tree : MarkedTree}
    (h : m.Derivative program input atom id i j)
    (h' : m.Derivative program input atom' id' i' j)
    (htree : m.scheduler.forest.MarkedTrees program (.symbol id) [tree])
    (htree' : m.scheduler.forest.MarkedTrees program (.symbol id') [tree]) : i = i' := by
  have hderives := (hsound.markedDerives_of_trees hlaid htree h).erase
  have hderives' := (hsound.markedDerives_of_trees hlaid htree' h').erase
  have hleaves : List.range' i (j - i) = List.range' i' (j - i') :=
    hderives.leavesOfRow.symm.trans hderives'.leavesOfRow
  have hlength := congrArg List.length hleaves
  rw [List.length_range', List.length_range'] at hlength
  have hle := hderives.le
  have hle' := hderives'.le
  omega

section Forks

variable (hsound : m.Sound program input) (hgrounded : m.scheduler.Grounded)
include hsound hgrounded

/-- Every prefix has trees, -/
theorem Sound.exists_markedTrees_of_stem {next : Label} {atoms : List Atom} {id : PrefixId}
    {i j : Nat} (h : m.Stem program input next atoms id i j) :
    ∃ trees, m.scheduler.forest.MarkedTrees program (.stem id) trees := by
  obtain ⟨trees, htrees⟩ := hgrounded.forest.exists_firstTrees h.lt_size
  obtain ⟨marked, -, hmarked⟩ := hsound.exists_markedTrees
    (Forest.trees_of_firstTrees (htrees _ (Nat.lt_succ_self _)))
  exact ⟨marked, hmarked⟩

/-- and so has every symbol that a prefix refers to. -/
theorem Sound.exists_markedTree_of_derivative {atom : Atom} {id : SymbolId} {i j : Nat}
    (h : m.Derivative program input atom id i j) :
    ∃ tree, m.scheduler.forest.MarkedTrees program (.symbol id) [tree] := by
  cases h with
  | terminal hnode _ _ => exact ⟨_, trees_of_terminal hnode⟩
  | nonterminal hnode halternative _ =>
    obtain ⟨_, entry, hmarks, hstem⟩ := hsound.stem_of_alternative hnode halternative
    obtain ⟨trees, htrees⟩ := hsound.exists_markedTrees_of_stem hgrounded hstem
    exact ⟨_, trees_of_alternative hnode halternative hmarks htrees⟩

/-- Two right-hand sides of a nonterminal are marked differently, so they give different trees. -/
theorem Sound.forks_of_alternatives (hdistinct : m.scheduler.Distinct) {id : SymbolId}
    {symbol : Nonterminal} {first last : Position} {alternatives : Array PrefixId}
    {child child' : PrefixId}
    (hnode : m.scheduler.forest.symbolNode? id = some (.nonterminal symbol first last alternatives))
    (hchild : child ∈ alternatives) (hchild' : child' ∈ alternatives) (hne : child ≠ child') :
    m.scheduler.forest.Forks program (.symbol id) := by
  have hderivation : m.Holds (.derivation id symbol first last) := ⟨_, hnode⟩
  have halternative : m.Holds (.alternative id child) := ⟨_, _, _, _, hnode, hchild⟩
  have halternative' : m.Holds (.alternative id child') := ⟨_, _, _, _, hnode, hchild'⟩
  obtain ⟨i, j, _, rfl, rfl, _⟩ := hsound.proper hderivation
  obtain ⟨_, entry, hmarks, hstem⟩ := hsound.stem_of_alternative hderivation halternative
  obtain ⟨_, entry', hmarks', hstem'⟩ := hsound.stem_of_alternative hderivation halternative'
  obtain ⟨trees, htrees⟩ := hsound.exists_markedTrees_of_stem hgrounded hstem
  obtain ⟨trees', htrees'⟩ := hsound.exists_markedTrees_of_stem hgrounded hstem'
  refine ⟨_, _, .nonterminal hnode hchild hmarks htrees,
    .nonterminal hnode hchild' hmarks' htrees', ?_⟩
  -- The tree of a node is marked with the entry of its right-hand side. If the marks were the same,
  -- both right-hand sides would end at one label, and a node has one prefix that does.
  intro heq
  have hentry : entry = entry' := by
    injection heq with htree
    injection htree
  subst hentry
  apply hne
  exact (Program.completes_of_sound hsound hderivation halternative).unique hdistinct
    (Program.completes_of_sound hsound hderivation halternative')
    (hmarks.ending.trans hmarks'.ending.symm)

/-- Two ways to build a prefix split its span at different places, so the last trees have different
leaves. -/
theorem Sound.forks_of_children (hlaid : program.Laid) (hdistinct : m.scheduler.Distinct)
    (htidy : Tidy m.scheduler) {id : PrefixId} {label : Label} {first last : Position}
    {children : Array Split} {child child' : Split}
    (hnode : m.scheduler.forest.prefixNode? id = some (.cons label first last children))
    (hchild : child ∈ children) (hchild' : child' ∈ children) (hne : child ≠ child') :
    m.scheduler.forest.Forks program (.stem id) := by
  have hsplit : m.Holds (.split id child) := ⟨label, first, last, children, hnode, hchild⟩
  have hsplit' : m.Holds (.split id child') := ⟨label, first, last, children, hnode, hchild'⟩
  have hplaces : child.split ≠ child'.split := by
    intro heq
    have hnodup := (Program.wellFormed_of_sound hlaid hsound hdistinct htidy).distinct hnode
    exact hne (List.inj_on_of_nodup_map hnodup (Array.mem_toList_iff.mpr hchild)
      (Array.mem_toList_iff.mpr hchild') heq)
  -- A way to build the prefix has its last tree begin where it splits the span.
  obtain ⟨_, _, _, _, i, l, j, hcons, _, hl, hstem, hderivative⟩ := hsound.proper hsplit
  obtain ⟨_, _, _, _, i', l', j', hcons', _, hl', hstem', hderivative'⟩ := hsound.proper hsplit'
  obtain ⟨-, -, hj⟩ := cons_unique hcons hcons'
  obtain rfl := Position.of_inj hj
  obtain ⟨left, hleft⟩ := hsound.exists_markedTrees_of_stem hgrounded hstem
  obtain ⟨left', hleft'⟩ := hsound.exists_markedTrees_of_stem hgrounded hstem'
  obtain ⟨tree, htree⟩ := hsound.exists_markedTree_of_derivative hgrounded hderivative
  obtain ⟨tree', htree'⟩ := hsound.exists_markedTree_of_derivative hgrounded hderivative'
  refine ⟨_, _, .cons hnode hchild hleft htree, .cons hnode hchild' hleft' htree', ?_⟩
  intro heq
  obtain ⟨-, hlast⟩ := List.append_inj' heq rfl
  obtain rfl := (List.cons.inj hlast).1
  obtain rfl := hsound.start_eq_of_tree hlaid hderivative hderivative' htree htree'
  exact hplaces (hl.trans hl'.symm)

/-- An ambiguous node has two trees. -/
theorem Sound.forks_of_isAmbiguous (hlaid : program.Laid) (hdistinct : m.scheduler.Distinct)
    (htidy : Tidy m.scheduler) {node : NodeId}
    (h : m.scheduler.forest.isAmbiguous node = true) :
    m.scheduler.forest.Forks program node := by
  -- Of the four kinds of nodes only two can be ambiguous.
  cases node with
  | symbol id =>
    cases hnode : m.scheduler.forest.symbolNode? id with
    | none => simp [Forest.isAmbiguous, Forest.isAmbiguousSymbol, hnode] at h
    | some found =>
      cases found with
      | terminal position =>
        simp [Forest.isAmbiguous, Forest.isAmbiguousSymbol, hnode, SymbolNode.alternatives] at h
      | nonterminal symbol first last alternatives =>
        obtain ⟨child, hchild, child', hchild', hne⟩ := (isAmbiguous_symbol_iff htidy hnode).mp h
        exact hsound.forks_of_alternatives hgrounded hdistinct hnode hchild hchild' hne
  | stem id =>
    cases hnode : m.scheduler.forest.prefixNode? id with
    | none => simp [Forest.isAmbiguous, Forest.isAmbiguousPrefix, hnode] at h
    | some found =>
      cases found with
      | empty position =>
        simp [Forest.isAmbiguous, Forest.isAmbiguousPrefix, hnode, PrefixNode.children] at h
      | cons label first last children =>
        obtain ⟨child, hchild, child', hchild', hne⟩ := (isAmbiguous_stem_iff htidy hnode).mp h
        exact hsound.forks_of_children hgrounded hlaid hdistinct htidy hnode hchild hchild' hne

/-- A node that refers to one with two trees has two trees. -/
theorem Sound.forks_of_refers {node other : NodeId} (hrefers : m.scheduler.forest.Refers node other)
    (h : m.scheduler.forest.Forks program other) : m.scheduler.forest.Forks program node := by
  obtain ⟨trees, trees', htrees, htrees', hne⟩ := h
  -- What stands beside the two rows of trees is the same in both, so they stay apart.
  cases hrefers with
  | @alternative id symbol first last alternatives child hnode hchild =>
    have hderivation : m.Holds (.derivation id symbol first last) := ⟨_, hnode⟩
    obtain ⟨i, j, _, rfl, rfl, _⟩ := hsound.proper hderivation
    obtain ⟨_, entry, hmarks, _⟩ :=
      hsound.stem_of_alternative hderivation ⟨_, _, _, _, hnode, hchild⟩
    refine ⟨_, _, .nonterminal hnode hchild hmarks htrees, .nonterminal hnode hchild hmarks htrees',
      ?_⟩
    intro heq
    apply hne
    injection heq with htree
    injection htree
  | @left id label first last children child hnode hchild =>
    have hsplit : m.Holds (.split id child) := ⟨label, first, last, children, hnode, hchild⟩
    obtain ⟨_, _, _, _, _, _, _, _, _, _, _, hderivative⟩ := hsound.proper hsplit
    obtain ⟨tree, htree⟩ := hsound.exists_markedTree_of_derivative hgrounded hderivative
    exact ⟨_, _, .cons hnode hchild htrees htree, .cons hnode hchild htrees' htree,
      fun heq => hne (List.append_cancel_right heq)⟩
  | @right id label first last children child hnode hchild =>
    have hsplit : m.Holds (.split id child) := ⟨label, first, last, children, hnode, hchild⟩
    obtain ⟨_, _, _, _, _, _, _, _, _, _, hstem, _⟩ := hsound.proper hsplit
    obtain ⟨left, hleft⟩ := hsound.exists_markedTrees_of_stem hgrounded hstem
    obtain ⟨tree, rfl⟩ := htrees.exists_singleton
    obtain ⟨tree', rfl⟩ := htrees'.exists_singleton
    exact ⟨_, _, .cons hnode hchild hleft htrees, .cons hnode hchild hleft htrees',
      fun heq => hne (List.append_cancel_left heq)⟩

/-- So has every node from which such a node is reached. -/
theorem Sound.forks_of_reach {node other : NodeId}
    (hreach : ReflTransGen m.scheduler.forest.Refers node other)
    (h : m.scheduler.forest.Forks program other) : m.scheduler.forest.Forks program node := by
  induction hreach using ReflTransGen.head_induction_on with
  | refl => exact h
  | head hrefers _ ih => exact hsound.forks_of_refers hgrounded hrefers ih

end Forks

/-- When nothing is pending, a nonterminal derives the span of a node that ends at the current
position by one tree if and only if nothing that is reached from the node is ambiguous. -/
theorem Timeline.existsUnique_iff (hlaid : program.Laid) (hempty : program.EmptyUnique)
    (h : m.Timeline program input) (hdrained : m.pending = []) (hgrounded : m.scheduler.Grounded)
    (hdistinct : m.scheduler.Distinct) (htidy : Tidy m.scheduler) {id : SymbolId}
    {symbol : Nonterminal} {child : PrefixId} {i : Nat}
    (hnode : m.Holds (.derivation id symbol (.of input i) (.of input m.index)))
    (hchild : m.Holds (.alternative id child)) :
    (∃! tree, program.MarkedDerivesTree input symbol i m.index tree) ↔
      m.scheduler.forest.IsUnambiguous (.symbol id) := by
  obtain ⟨carried, hunderway⟩ := h.underway
  have hsound := hunderway.steady.sound
  have htrees {tree : MarkedTree} (htree : program.MarkedDerivesTree input symbol i m.index tree) :=
    h.hasMarkedTree hlaid hdrained hnode htree
  constructor
  -- An ambiguous node that is reached from here would give two trees to this one.
  · rintro ⟨tree, -, honly⟩ other hreach
    by_contra hambiguous
    have hforks := hsound.forks_of_isAmbiguous hgrounded hlaid hdistinct htidy
      (Bool.eq_true_of_not_eq_false hambiguous)
    obtain ⟨row, row', hrow, hrow', hne⟩ := hsound.forks_of_reach hgrounded hreach hforks
    obtain ⟨tree', rfl⟩ := hrow.exists_singleton
    obtain ⟨tree'', rfl⟩ := hrow'.exists_singleton
    have hfirst := honly _ (hsound.markedDerivesTree hlaid hnode hrow)
    have hsecond := honly _ (hsound.markedDerivesTree hlaid hnode hrow')
    rw [hfirst, hsecond] at hne
    exact hne rfl
  -- There is a tree, and every other one hangs off the same node, where it has no choice.
  · intro hunambiguous
    obtain ⟨plain, hplain⟩ := hsound.exists_derivesTree hnode hchild
    obtain ⟨tree, -, htree⟩ := Program.exists_markedDerivesTree hplain
    refine ⟨tree, htree, fun other hother => ?_⟩
    have hrow := (htrees hother).unique hlaid hempty htidy (htrees htree) hunambiguous
    exact (List.cons.inj hrow).1

end Moment

namespace Program

/-- The root tells whether there is one derivation tree for what was read. -/
def ShowsAmbiguity (program : Program) (fed : List Char) (s : Scheduler) : Prop :=
  ∃ root, s.root = some root ∧
    ((∃! tree, program.MarkedDerivesTree fed program.start 0 fed.length tree) ↔
      s.forest.IsUnambiguous (.symbol root))

/-- The root of an accepted input shows whether it is ambiguous. -/
theorem showsAmbiguity_of_timeline {program : Program} {input : List Char} {m : Moment}
    (hlaid : program.Laid) (hempty : program.EmptyUnique) (h : m.Timeline program input)
    (hdrained : m.pending = []) (hgrounded : m.scheduler.Grounded)
    (hdistinct : m.scheduler.Distinct) (htidy : Tidy m.scheduler)
    (haccepted : m.scheduler.isAccepted = true) : program.ShowsAmbiguity input m.scheduler := by
  obtain ⟨carried, hunderway⟩ := h.underway
  have hsound := hunderway.steady.sound
  have hfinished := isFinished_of_isAccepted haccepted
  obtain ⟨root, hroot, alternatives, hnode⟩ := exists_root hsound
  -- The root has an alternative, and it is over all of the input.
  obtain ⟨child, hchild⟩ := Array.exists_mem_of_ne_empty alternatives
    ((isAccepted_iff hfinished hroot hnode).mp haccepted)
  have hlength : m.index = input.length := by
    have hle := List.getElem?_eq_none_iff.mp (hsound.situated.isFinished.mp hfinished)
    exact Nat.le_antisymm hsound.situated.index_le hle
  refine ⟨root, hroot, ?_⟩
  rw [← hlength]
  exact h.existsUnique_iff hlaid hempty hdrained hgrounded hdistinct htidy ⟨alternatives, hnode⟩
    ⟨_, _, _, _, hnode, hchild⟩

section Calls

variable {grammar : Grammar} {program : Program} {σ : Type} {tracer : Tracer σ} {trace : σ}
  {limit : Nat}

/-- If no nonterminal has two empty alternatives, an accepted input has one derivation tree if and
only if no node that can be reached from the root is ambiguous. So it is for whatever was fed to a
session that accepts, once nothing is pending, and for every text that is parsed and accepted. -/
theorem compile_ambiguity (hcompile : Program.compile grammar = .ok program)
    (hempty : program.EmptyUnique) :
    (∀ {fed : List Char} {session : Session σ Unit} {offers : List Task},
      Session.Reaches program.interpreter tracer (.initial program.interpreter trace () limit) fed
        session offers → session.scheduler.pending.isEmpty = true → session.isAccepted = true →
          program.ShowsAmbiguity fed session.scheduler) ∧
    ∀ {text : String} {session : Session σ Unit},
      program.parse tracer trace limit text = .ok true session →
        program.ShowsAmbiguity text.toList session.scheduler := by
  have hlaid := laid_of_compile hcompile
  have hreached {fed : List Char} {session : Session σ Unit} {offers : List Task}
      (h : Session.Reaches program.interpreter tracer
        (.initial program.interpreter trace () limit) fed session offers)
      (hdrained : session.scheduler.pending.isEmpty = true)
      (haccepted : session.isAccepted = true) :
      program.ShowsAmbiguity fed session.scheduler := by
    rcases h.timeline hlaid (List.prefix_refl fed) fun _ => rfl with ⟨hinitial, -⟩ | htimeline
    · rw [Session.isAccepted, hinitial] at haccepted
      cases haccepted
    · exact showsAmbiguity_of_timeline hlaid hempty htimeline ((Queue.isEmpty_iff _).mp hdrained)
        (h.grounded hlaid) (h.law (Scheduler.law_distinct program.start))
        (h.law (law_tidy program.start)) haccepted
  refine ⟨hreached, fun {text session} hparse => ?_⟩
  obtain ⟨⟨offers, h⟩, hdequeue, -, -, haccepted⟩ := Session.Reaches.start.of_parse hparse
  rw [List.nil_append] at h
  exact hreached h ((Queue.isEmpty_iff _).mpr (pending_eq_nil_of_dequeue? offers hdequeue))
    haccepted

end Calls

/-- The circular grammar has one empty alternative. -/
theorem emptyUnique_circular {program : Program}
    (hcompile : Program.compile circular = .ok program) : program.EmptyUnique := by
  obtain ⟨program', hcompile', -, -, hentries, hboth, hletter, -⟩ := compile_circular
  obtain rfl := Except.ok.inj (hcompile.symm.trans hcompile')
  intro symbol labels entry entry' hlabels hentry hentry' hatoms hatoms'
  have hmem : labels ∈ program.entries := Array.mem_of_getElem? hlabels
  rw [hentries] at hmem
  obtain rfl := Array.mem_singleton.mp hmem
  have hempty {entry : Label} (hentry : entry ∈ ([⟨1⟩, ⟨4⟩, ⟨6⟩] : List Label))
      (hatoms : program.atomsAt entry = []) : entry = ⟨6⟩ := by
    simp only [List.mem_cons, List.not_mem_nil, or_false] at hentry
    rcases hentry with rfl | rfl | rfl
    · rw [hboth] at hatoms
      cases hatoms
    · rw [hletter] at hatoms
      cases hatoms
    · rfl
  rw [hempty hentry hatoms, hempty hentry' hatoms']

/-- It derives a letter by its second alternative, and by the first one with nothing on the left. -/
theorem exists_trees_circular {program : Program}
    (hcompile : Program.compile circular = .ok program) :
    ∃ tree tree', program.MarkedDerivesTree ['a'] program.start 0 1 tree ∧
      program.MarkedDerivesTree ['a'] program.start 0 1 tree' ∧ tree ≠ tree' := by
  obtain ⟨program', hcompile', -, hstart, hentries, hboth, hletter, hnothing⟩ := compile_circular
  obtain rfl := Except.ok.inj (hcompile.symm.trans hcompile')
  have hlabels : program.entries? ⟨0⟩ = some [⟨1⟩, ⟨4⟩, ⟨6⟩] := by
    unfold entries?
    rw [hentries]
    rfl
  have hnone : program.MarkedDerives ['a'] (program.atomsAt ⟨6⟩) 0 0 [] := by
    rw [hnothing]
    exact .nil 0
  have hleaf : program.MarkedDerives ['a'] (program.atomsAt ⟨4⟩) 0 1 [.leaf 0] := by
    rw [hletter]
    exact .terminal rfl rfl (.nil 1)
  have hsecond : program.MarkedDerives ['a'] [.nonterminal ⟨0⟩] 0 1
      [.node ⟨0⟩ ⟨4⟩ [.leaf 0]] :=
    .nonterminal hlabels (by decide) hleaf (.nil 1)
  -- The other tree has nothing on the left, and this one on the right.
  have hfirst : program.MarkedDerives ['a'] (program.atomsAt ⟨1⟩) 0 1
      [.node ⟨0⟩ ⟨6⟩ [], .node ⟨0⟩ ⟨4⟩ [.leaf 0]] := by
    rw [hboth]
    exact .nonterminal hlabels (by decide) hnone hsecond
  rw [hstart]
  exact ⟨_, _, hsecond, .nonterminal hlabels (by decide) hfirst (.nil 1), by simp⟩

/-- So an ambiguous node is reached from the root when it parses a letter. -/
theorem compile_ambiguity_circular : ∃ program session root node,
    Program.compile circular = .ok program ∧ program.EmptyUnique ∧
      program.parse .silent () 224 "a" = .ok true session ∧
        session.scheduler.root = some root ∧
          ReflTransGen session.scheduler.forest.Refers (.symbol root) node ∧
            session.scheduler.forest.isAmbiguous node = true := by
  obtain ⟨program, session, hcompile, hparse⟩ := parse_circular
  have hempty := emptyUnique_circular hcompile
  obtain ⟨root, hroot, hiff⟩ := (compile_ambiguity hcompile hempty).2 hparse
  obtain ⟨tree, tree', htree, htree', hne⟩ := exists_trees_circular hcompile
  have hambiguous : ¬ session.scheduler.forest.IsUnambiguous (.symbol root) := by
    intro hunambiguous
    exact hne ((hiff.mpr hunambiguous).unique htree htree')
  unfold Forest.IsUnambiguous at hambiguous
  push Not at hambiguous
  obtain ⟨node, hreach, hnode⟩ := hambiguous
  exact ⟨program, session, root, node, hcompile, hempty, hparse, hroot, hreach,
    Bool.eq_true_of_not_eq_false hnode⟩

end Program

end Gll
