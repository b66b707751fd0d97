import Gll.Proofs.Marks
import Gll.Proofs.Timeline

/-!
The trees of a forest.

A node of a forest stands for the finite trees that one gets by choosing one of the packed
right-hand sides at every nonterminal and one of the packed splits at every prefix (`Forest.Trees`).
A forest may have cycles; a tree may go through one any number of times, but it comes to an end. If
one also notes which alternatives the packed right-hand sides are of, the trees are marked
(`Forest.MarkedTrees`). The forest tells the alternatives by their endings (`Program.Marks`), so it
leaves a choice between empty ones, and between no others.

Here is that these trees are right: those of a node are derivation trees of its nonterminal over its
span, and so they are with their marks (`Sound.markedDerives_of_trees`, `Sound.derivesTree`). It
needs no more than that all facts are proper, so it holds at any time of a parse. That no derivation
tree is missing holds when a generation is drained and is shown after this.
-/

set_option autoImplicit false

namespace Gll

/-- A node of a forest, of either kind. -/
inductive NodeId where
  | symbol (id : SymbolId)
  | stem (id : PrefixId)

namespace Forest

/-- The trees of a node: a single one for a symbol node, one for each symbol for a prefix node. -/
inductive Trees (forest : Forest) : NodeId → List Tree → Prop where
  | terminal {id : SymbolId} {position : Position}
      (hnode : forest.symbolNode? id = some (.terminal position)) :
      Trees forest (.symbol id) [.leaf position.offset]
  | nonterminal {id : SymbolId} {symbol : Nonterminal} {first last : Position}
      {alternatives : Array PrefixId} {child : PrefixId} {trees : List Tree}
      (hnode : forest.symbolNode? id = some (.nonterminal symbol first last alternatives))
      (hchild : child ∈ alternatives) (htrees : Trees forest (.stem child) trees) :
      Trees forest (.symbol id) [.node symbol trees]
  | empty {id : PrefixId} {position : Position}
      (hnode : forest.prefixNode? id = some (.empty position)) : Trees forest (.stem id) []
  | cons {id : PrefixId} {label : Label} {first last : Position} {children : Array Split}
      {child : Split} {left right : List Tree}
      (hnode : forest.prefixNode? id = some (.cons label first last children))
      (hchild : child ∈ children) (hleft : Trees forest (.stem child.left) left)
      (hright : Trees forest (.symbol child.right) right) :
      Trees forest (.stem id) (left ++ right)

/-- A tree of a symbol node. -/
def HasTree (forest : Forest) (id : SymbolId) (tree : Tree) : Prop :=
  forest.Trees (.symbol id) [tree]

end Forest

/-- The label at which a right-hand side is completed; the empty one has none. -/
def Forest.endingOf (forest : Forest) (id : PrefixId) : Option Label :=
  (forest.prefixNode? id).bind PrefixNode.label?

/-- A right-hand side that is packed under a nonterminal is the alternative of an entry, as far as
its ending tells. -/
structure Program.Marks (program : Program) (forest : Forest) (symbol : Nonterminal)
    (id : PrefixId) (entry : Label) : Prop where
  mem : ∃ labels, program.entries? symbol = some labels ∧ entry ∈ labels
  found : ∃ node, forest.prefixNode? id = some node
  ending : forest.endingOf id = program.ending entry

namespace Forest

/-- The marked trees of a node: a single one for a symbol node, one for each symbol for a prefix
node. -/
inductive MarkedTrees (forest : Forest) (program : Program) : NodeId → List MarkedTree → Prop where
  | terminal {id : SymbolId} {position : Position}
      (hnode : forest.symbolNode? id = some (.terminal position)) :
      MarkedTrees forest program (.symbol id) [.leaf position.offset]
  | nonterminal {id : SymbolId} {symbol : Nonterminal} {first last : Position}
      {alternatives : Array PrefixId} {child : PrefixId} {entry : Label} {trees : List MarkedTree}
      (hnode : forest.symbolNode? id = some (.nonterminal symbol first last alternatives))
      (hchild : child ∈ alternatives) (hmarks : program.Marks forest symbol child entry)
      (htrees : MarkedTrees forest program (.stem child) trees) :
      MarkedTrees forest program (.symbol id) [.node symbol entry trees]
  | empty {id : PrefixId} {position : Position}
      (hnode : forest.prefixNode? id = some (.empty position)) :
      MarkedTrees forest program (.stem id) []
  | cons {id : PrefixId} {label : Label} {first last : Position} {children : Array Split}
      {child : Split} {left : List MarkedTree} {right : MarkedTree}
      (hnode : forest.prefixNode? id = some (.cons label first last children))
      (hchild : child ∈ children) (hleft : MarkedTrees forest program (.stem child.left) left)
      (hright : MarkedTrees forest program (.symbol child.right) [right]) :
      MarkedTrees forest program (.stem id) (left ++ [right])

variable {forest : Forest} {program : Program}

/-- Without its marks a tree is a tree. -/
theorem MarkedTrees.erase {node : NodeId} {trees : List MarkedTree}
    (h : forest.MarkedTrees program node trees) :
    forest.Trees node (MarkedTree.eraseRow trees) := by
  induction h with
  | terminal hnode => exact .terminal hnode
  | nonterminal hnode hchild _ _ ih => exact .nonterminal hnode hchild ih
  | empty hnode => exact .empty hnode
  | cons hnode hchild _ _ ihleft ihright =>
    rw [MarkedTree.eraseRow_append]
    exact .cons hnode hchild ihleft ihright

/-- A symbol node has its trees one at a time. -/
theorem MarkedTrees.exists_singleton {id : SymbolId} {trees : List MarkedTree}
    (h : forest.MarkedTrees program (.symbol id) trees) : ∃ tree, trees = [tree] := by
  cases h with
  | terminal _ => exact ⟨_, rfl⟩
  | nonterminal _ _ _ _ => exact ⟨_, rfl⟩

end Forest

namespace Moment

variable {program : Program} {input : List Char} {m before after : Moment}

/-! ## Trees and facts -/

theorem endingOf_of_empty {id : PrefixId} {position : Position}
    (h : m.Holds (.empty id position)) : m.scheduler.forest.endingOf id = none := by
  have hnode : m.scheduler.forest.prefixNode? id = _ := h
  unfold Forest.endingOf
  rw [hnode]
  rfl

theorem endingOf_of_cons {id : PrefixId} {label : Label} {first last : Position}
    (h : m.Holds (.cons id label first last)) :
    m.scheduler.forest.endingOf id = some label := by
  obtain ⟨children, hnode⟩ := h
  unfold Forest.endingOf
  rw [hnode]
  rfl

theorem trees_of_terminal {id : SymbolId} {position : Position}
    (h : m.Holds (.terminal id position)) :
    m.scheduler.forest.MarkedTrees program (.symbol id) [.leaf position.offset] :=
  .terminal h

theorem trees_of_alternative {id : SymbolId} {symbol : Nonterminal} {first last : Position}
    {child : PrefixId} {entry : Label} {trees : List MarkedTree}
    (hnode : m.Holds (.derivation id symbol first last)) (hchild : m.Holds (.alternative id child))
    (hmarks : program.Marks m.scheduler.forest symbol child entry)
    (htrees : m.scheduler.forest.MarkedTrees program (.stem child) trees) :
    m.scheduler.forest.MarkedTrees program (.symbol id) [.node symbol entry trees] := by
  obtain ⟨symbol', first', last', alternatives, hnode', hmem⟩ := hchild
  obtain ⟨rfl, rfl, rfl⟩ := derivation_unique hnode ⟨alternatives, hnode'⟩
  exact .nonterminal hnode' hmem hmarks htrees

theorem trees_of_empty {id : PrefixId} {position : Position} (h : m.Holds (.empty id position)) :
    m.scheduler.forest.MarkedTrees program (.stem id) [] :=
  .empty h

theorem trees_of_split {id : PrefixId} {child : Split} {left : List MarkedTree}
    {right : MarkedTree} (h : m.Holds (.split id child))
    (hleft : m.scheduler.forest.MarkedTrees program (.stem child.left) left)
    (hright : m.scheduler.forest.MarkedTrees program (.symbol child.right) [right]) :
    m.scheduler.forest.MarkedTrees program (.stem id) (left ++ [right]) := by
  obtain ⟨label, first, last, children, hnode, hmem⟩ := h
  exact .cons hnode hmem hleft hright

/-- The empty prefix is the alternative of an entry without atoms, -/
theorem marks_of_empty {symbol : Nonterminal} {labels : List Label} {entry : Label}
    {id : PrefixId} {position : Position} (hlabels : program.entries? symbol = some labels)
    (hentry : entry ∈ labels) (hatoms : program.atomsAt entry = [])
    (h : m.Holds (.empty id position)) : program.Marks m.scheduler.forest symbol id entry := by
  refine ⟨⟨labels, hlabels, hentry⟩, ⟨_, h⟩, ?_⟩
  rw [endingOf_of_empty h, Program.ending_eq_none_iff.mpr hatoms]

/-- and a prefix at the slot that completes it, of one with atoms. -/
theorem marks_of_cons {symbol : Nonterminal} {labels : List Label} {entry label : Label}
    {id : PrefixId} {first last : Position} (hlabels : program.entries? symbol = some labels)
    (hentry : entry ∈ labels) (hne : program.atomsAt entry ≠ [])
    (hlabel : label = ⟨entry.index + (program.atomsAt entry).length⟩)
    (h : m.Holds (.cons id label first last)) :
    program.Marks m.scheduler.forest symbol id entry := by
  have hending := endingOf_of_cons h
  obtain ⟨children, hnode⟩ := h
  refine ⟨⟨labels, hlabels, hentry⟩, ⟨_, hnode⟩, ?_⟩
  rw [hending, Program.ending_of_ne_nil hne, ← hlabel]

theorem marks_mono (hlasts : ∀ {fact : Fact}, fact.Lasts → before.Holds fact → after.Holds fact)
    {symbol : Nonterminal} {id : PrefixId} {entry : Label}
    (h : program.Marks before.scheduler.forest symbol id entry) :
    program.Marks after.scheduler.forest symbol id entry := by
  obtain ⟨hmem, ⟨node, hnode⟩, hending⟩ := h
  cases node with
  | empty position =>
    have hold : before.Holds (.empty id position) := hnode
    have hnew : after.Holds (.empty id position) := hlasts trivial hold
    refine ⟨hmem, ⟨_, hnew⟩, ?_⟩
    rw [endingOf_of_empty hnew, ← endingOf_of_empty hold, hending]
  | cons label first last children =>
    have hold : before.Holds (.cons id label first last) := ⟨children, hnode⟩
    have hnew : after.Holds (.cons id label first last) := hlasts trivial hold
    have hfound := endingOf_of_cons hnew
    obtain ⟨children', hnew⟩ := hnew
    refine ⟨hmem, ⟨_, hnew⟩, ?_⟩
    rw [hfound, ← endingOf_of_cons hold, hending]

/-- The trees of a node stay its trees. -/
theorem trees_mono (hlasts : ∀ {fact : Fact}, fact.Lasts → before.Holds fact → after.Holds fact)
    {node : NodeId} {trees : List MarkedTree}
    (h : before.scheduler.forest.MarkedTrees program node trees) :
    after.scheduler.forest.MarkedTrees program node trees := by
  induction h with
  | @terminal id position hnode =>
    have hold : before.Holds (.terminal id position) := hnode
    exact trees_of_terminal (hlasts trivial hold)
  | @nonterminal id symbol first last alternatives child entry trees hnode hchild hmarks _ ih =>
    have hold : before.Holds (.derivation id symbol first last) := ⟨_, hnode⟩
    have halternative : before.Holds (.alternative id child) := ⟨_, _, _, _, hnode, hchild⟩
    exact trees_of_alternative (hlasts trivial hold) (hlasts trivial halternative)
      (marks_mono hlasts hmarks) ih
  | @empty id position hnode =>
    have hold : before.Holds (.empty id position) := hnode
    exact trees_of_empty (hlasts trivial hold)
  | @cons id label first last children child left right hnode hchild _ _ ihleft ihright =>
    have hsplit : before.Holds (.split id child) := ⟨_, _, _, _, hnode, hchild⟩
    exact trees_of_split (hlasts trivial hsplit) ihleft ihright

/-! ## Marks -/

/-- What is packed under a derivation covers an alternative of its nonterminal, over the same
span. -/
theorem Sound.stem_of_alternative (hsound : m.Sound program input)
    {id : SymbolId} {symbol : Nonterminal} {i j : Nat} {child : PrefixId}
    (hnode : m.Holds (.derivation id symbol (.of input i) (.of input j)))
    (h : m.Holds (.alternative id child)) :
    ∃ next entry, program.Marks m.scheduler.forest symbol child entry ∧
      m.Stem program input next (program.atomsAt entry) child i j := by
  obtain ⟨symbol', label, before, i', j', hnode', hitem, hstem⟩ := hsound.proper h
  obtain ⟨rfl, hi, hj⟩ := derivation_unique hnode hnode'
  obtain rfl := Position.of_inj hi
  obtain rfl := Position.of_inj hj
  cases hitem with
  | @slot _ labels entry _ _ hlabels hentry hblock =>
    rw [List.append_nil] at hblock
    have hatoms := hblock.atomsAt_entry
    refine ⟨_, entry, ?_, hatoms.symm ▸ hstem⟩
    cases hstem with
    | empty hempty => exact marks_of_empty hlabels hentry hatoms hempty
    | cons hnext _ hcons _ =>
      refine marks_of_cons hlabels hentry (by simp [hatoms]) ?_ hcons
      rw [hatoms]
      exact Label.next_inj hnext

/-- A mark of what is packed is that of an alternative that it covers. -/
theorem Sound.stem_of_marks (hlaid : program.Laid) (hsound : m.Sound program input)
    {id : SymbolId} {symbol : Nonterminal} {i j : Nat} {child : PrefixId} {entry : Label}
    (hnode : m.Holds (.derivation id symbol (.of input i) (.of input j)))
    (h : m.Holds (.alternative id child))
    (hmarks : program.Marks m.scheduler.forest symbol child entry) :
    ∃ next, m.Stem program input next (program.atomsAt entry) child i j := by
  obtain ⟨next, entry', hmarks', hstem⟩ := hsound.stem_of_alternative hnode h
  obtain ⟨⟨labels, hlabels, hentry⟩, -, hending⟩ := hmarks
  obtain ⟨⟨labels', hlabels', hentry'⟩, -, hending'⟩ := hmarks'
  obtain rfl := Option.some.inj (hlabels.symm.trans hlabels')
  -- Two entries with one ending are the same entry, or both are of empty alternatives.
  have hatoms : program.atomsAt entry = program.atomsAt entry' :=
    hlaid.atomsAt_eq_of_ending hlabels hentry hentry' (hending.symm.trans hending')
  rw [hatoms]
  exact ⟨next, hstem⟩

/-! ## The trees of a forest are derivation trees -/

/-- The marked trees of a node derive what the node is about, over its span. -/
theorem Sound.markedDerives_of_trees (hlaid : program.Laid) (hsound : m.Sound program input)
    {node : NodeId} {trees : List MarkedTree}
    (h : m.scheduler.forest.MarkedTrees program node trees) :
    match node with
    | .symbol id => ∀ {atom i j}, m.Derivative program input atom id i j →
        program.MarkedDerives input [atom] i j trees
    | .stem id => ∀ {next atoms i j}, m.Stem program input next atoms id i j →
        program.MarkedDerives input atoms i j trees := by
  -- The induction is on the tree, not on the node: in a forest with cycles there is no other.
  induction h with
  | @terminal id position hnode =>
    intro atom i j hderivative
    cases hderivative with
    | terminal hterminal hchar haccepts =>
      rw [← terminal_unique hterminal hnode, Position.offset_of]
      exact .terminal hchar haccepts (.nil _)
    | nonterminal hderivation _ _ => exact absurd hnode (not_terminal_of_derivation hderivation)
  | @nonterminal id symbol first last alternatives child entry trees hnode hchild hmarks _ ih =>
    intro atom i j hderivative
    cases hderivative with
    | terminal hterminal _ _ => exact absurd hterminal (not_terminal_of_derivation ⟨_, hnode⟩)
    | nonterminal hderivation _ _ =>
      have halternative : m.Holds (.alternative id child) := ⟨_, _, _, _, hnode, hchild⟩
      obtain ⟨rfl, _, _⟩ := derivation_unique hderivation ⟨_, hnode⟩
      obtain ⟨next, hstem⟩ := hsound.stem_of_marks hlaid hderivation halternative hmarks
      obtain ⟨labels, hlabels, hentry⟩ := hmarks.mem
      exact .nonterminal hlabels hentry (ih hstem) (.nil _)
  | @empty id position hnode =>
    intro next atoms i j hstem
    cases hstem with
    | empty _ => exact .nil i
    | cons _ _ hcons _ => exact absurd hnode (not_empty_of_cons hcons)
  | @cons id label first last children child left right hnode hchild _ _ ihleft ihright =>
    intro next atoms i j hstem
    have hsplit : m.Holds (.split id child) := ⟨_, _, _, _, hnode, hchild⟩
    obtain ⟨owner, before, atom, after, i', l, j', hcons, hitem, _, hstem', hderivative⟩ :=
      hsound.proper hsplit
    cases hstem with
    | empty hempty => exact absurd hempty (not_empty_of_cons hcons)
    | cons _ hitem' hcons' _ =>
      obtain ⟨rfl, hi, hj⟩ := cons_unique hcons hcons'
      obtain rfl := Position.of_inj hi
      obtain rfl := Position.of_inj hj
      obtain ⟨_, hatoms, _⟩ := hlaid.item_unique hitem hitem'
      rw [← hatoms]
      exact (ihleft hstem').append (ihright hderivative)

/-- The trees of a node can be marked. -/
theorem Sound.exists_markedTrees (hsound : m.Sound program input)
    {node : NodeId} {trees : List Tree} (h : m.scheduler.forest.Trees node trees) :
    ∃ marked, MarkedTree.eraseRow marked = trees ∧
      m.scheduler.forest.MarkedTrees program node marked := by
  induction h with
  | terminal hnode => exact ⟨_, rfl, .terminal hnode⟩
  | @nonterminal id symbol first last alternatives child trees hnode hchild _ ih =>
    obtain ⟨marked, rfl, hmarked⟩ := ih
    have hderivation : m.Holds (.derivation id symbol first last) := ⟨_, hnode⟩
    obtain ⟨i, j, _, rfl, rfl, _⟩ := hsound.proper hderivation
    obtain ⟨_, entry, hmarks, _⟩ :=
      hsound.stem_of_alternative hderivation ⟨_, _, _, _, hnode, hchild⟩
    exact ⟨[.node symbol entry marked], rfl, .nonterminal hnode hchild hmarks hmarked⟩
  | empty hnode => exact ⟨[], rfl, .empty hnode⟩
  | @cons id label first last children child left right hnode hchild _ _ ihleft ihright =>
    obtain ⟨left, rfl, hleft⟩ := ihleft
    obtain ⟨right, rfl, hright⟩ := ihright
    obtain ⟨tree, rfl⟩ := hright.exists_singleton
    exact ⟨left ++ [tree], MarkedTree.eraseRow_append left [tree],
      .cons hnode hchild hleft hright⟩

/-- What an alternative of a derivation says of its span. -/
theorem Sound.exists_derivesTree (hsound : m.Sound program input) {id : SymbolId}
    {symbol : Nonterminal} {i j : Nat} {child : PrefixId}
    (hnode : m.Holds (.derivation id symbol (.of input i) (.of input j)))
    (h : m.Holds (.alternative id child)) :
    ∃ tree, program.rightHandSides.DerivesTree input symbol i j tree := by
  obtain ⟨symbol', label, before, i', j', hnode', hitem, hstem⟩ := hsound.proper h
  obtain ⟨rfl, hi, hj⟩ := derivation_unique hnode hnode'
  obtain rfl := Position.of_inj hi
  obtain rfl := Position.of_inj hj
  exact hstem.derivesTree hitem

/-- A marked tree of the derivation of a nonterminal derives it over the span of the node, -/
theorem Sound.markedDerivesTree (hlaid : program.Laid) (hsound : m.Sound program input)
    {id : SymbolId} {symbol : Nonterminal} {i j : Nat} {tree : MarkedTree}
    (hnode : m.Holds (.derivation id symbol (.of input i) (.of input j)))
    (h : m.scheduler.forest.MarkedTrees program (.symbol id) [tree]) :
    program.MarkedDerivesTree input symbol i j tree := by
  obtain ⟨child, hchild⟩ : ∃ child, m.Holds (.alternative id child) := by
    cases h with
    | terminal hterminal => exact absurd hterminal (not_terminal_of_derivation hnode)
    | nonterminal hfound hchild _ _ => exact ⟨_, _, _, _, _, hfound, hchild⟩
  exact hsound.markedDerives_of_trees hlaid h
    (.nonterminal hnode hchild (hsound.exists_derivesTree hnode hchild))

/-- and so does a tree without marks. -/
theorem Sound.derivesTree (hlaid : program.Laid) (hsound : m.Sound program input) {id : SymbolId}
    {symbol : Nonterminal} {i j : Nat} {tree : Tree}
    (hnode : m.Holds (.derivation id symbol (.of input i) (.of input j)))
    (h : m.scheduler.forest.HasTree id tree) :
    program.rightHandSides.DerivesTree input symbol i j tree := by
  obtain ⟨marked, hmarked, htrees⟩ := hsound.exists_markedTrees h
  obtain ⟨tree', rfl⟩ := htrees.exists_singleton
  obtain rfl := (List.cons.inj hmarked).1
  exact (hsound.markedDerivesTree hlaid hnode htrees).erase

end Moment

end Gll
