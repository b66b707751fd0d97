import Gll.Proofs.Budget
import Gll.Proofs.Grounding

/-!
The first tree of a node.

Whoever wants one tree of a forest takes the first right-hand side of every nonterminal and the
first way to build every prefix (`Forest.firstTree`). In a forest that goes in circles this need not
come to an end, and where a node has nothing packed under it there is nothing to take. In the forest
of a parse neither happens. Everything that a split refers to has a derivation, and what is first
under a node goes back to prefixes of smaller numbers (`Forest.Grounded`), so there are never more
steps, one inside the other, than there are prefixes (`Grounded.exists_firstTrees`).

What one gets is one of the trees of the node, and so a derivation tree over its span; its leaves
are the symbols that the span covers.
-/

set_option autoImplicit false

namespace Gll

/-! ## Choosing -/

namespace Forest

/-- The tree of a symbol that has the first trees of its first right-hand side, when the trees of
prefixes are known. -/
def firstTreeOf (forest : Forest) (trees : PrefixId → Option (List Tree)) (id : SymbolId) :
    Option Tree := do
  match ← forest.symbolNode? id with
  | .terminal position => return .leaf position.offset
  | .nonterminal symbol _ _ alternatives => return .node symbol (← trees (← alternatives[0]?))

/-- The trees of the symbols of a prefix, by the first choice everywhere; `none` if there is nothing
to choose, or if it takes more steps, one inside the other, than the given ones. -/
def firstTrees (forest : Forest) : Nat → PrefixId → Option (List Tree)
  | 0, _ => none
  | steps + 1, id => do
    match ← forest.prefixNode? id with
    | .empty _ => return []
    | .cons _ _ _ children =>
      let child ← children[0]?
      let left ← forest.firstTrees steps child.left
      return left ++ [← forest.firstTreeOf (forest.firstTrees steps) child.right]

/-- The tree of a symbol by the first choice everywhere. -/
def firstTree (forest : Forest) (steps : Nat) (id : SymbolId) : Option Tree :=
  forest.firstTreeOf (forest.firstTrees steps) id

variable {forest : Forest}

/-- The first tree of a symbol is one of its trees. -/
theorem hasTree_of_firstTreeOf {choose : PrefixId → Option (List Tree)} {id : SymbolId}
    {tree : Tree} (hchoose : ∀ {child : PrefixId} {trees : List Tree}, choose child = some trees →
      forest.Trees (.stem child) trees) (h : forest.firstTreeOf choose id = some tree) :
    forest.HasTree id tree := by
  simp only [firstTreeOf, Option.bind_eq_bind, Option.bind_eq_some_iff] at h
  obtain ⟨node, hnode, h⟩ := h
  cases node with
  | terminal position =>
    obtain rfl := Option.some.inj h
    exact .terminal hnode
  | nonterminal symbol first last alternatives =>
    obtain ⟨child, hchild, h⟩ := Option.bind_eq_some_iff.mp h
    obtain ⟨trees, htrees, h⟩ := Option.bind_eq_some_iff.mp h
    obtain rfl := Option.some.inj h
    exact .nonterminal hnode (Array.mem_of_getElem? hchild) (hchoose htrees)

/-- The first trees of a prefix are trees of it. -/
theorem trees_of_firstTrees {steps : Nat} {id : PrefixId} {trees : List Tree}
    (h : forest.firstTrees steps id = some trees) : forest.Trees (.stem id) trees := by
  induction steps generalizing id trees with
  | zero => cases h
  | succ steps ih =>
    obtain ⟨node, hnode, h⟩ := Option.bind_eq_some_iff.mp h
    cases node with
    | empty position =>
      obtain rfl := Option.some.inj h
      exact .empty hnode
    | cons label first last children =>
      obtain ⟨child, hchild, h⟩ := Option.bind_eq_some_iff.mp h
      obtain ⟨left, hleft, h⟩ := Option.bind_eq_some_iff.mp h
      obtain ⟨tree, hright, h⟩ := Option.bind_eq_some_iff.mp h
      obtain rfl := Option.some.inj h
      exact .cons hnode (Array.mem_of_getElem? hchild) (ih hleft)
        (hasTree_of_firstTreeOf (fun htrees => ih htrees) hright)

/-! ## Coming to an end -/

section Grounded

variable {start : Nonterminal} {position : Option Position}

theorem Founded.exists_firstTreeOf {k : Nat} {id : SymbolId} (h : forest.Founded k id)
    (hk : ∀ child : PrefixId, child.index < k →
      ∃ trees, ∀ steps, child.index < steps → forest.firstTrees steps child = some trees) :
    ∃ tree, ∀ steps, k ≤ steps → forest.firstTree steps id = some tree := by
  cases h with
  | @terminal place hnode =>
    refine ⟨.leaf place.offset, fun steps _ => ?_⟩
    rw [firstTree, firstTreeOf, hnode]
    rfl
  | @nonterminal symbol first last alternatives child hnode hfirst hlt =>
    obtain ⟨trees, htrees⟩ := hk child hlt
    refine ⟨.node symbol trees, fun steps hsteps => ?_⟩
    have hchosen := htrees steps (by omega)
    simp only [firstTree, firstTreeOf, hnode, hfirst, hchosen, Option.bind_eq_bind,
      Option.bind_some, Option.pure_def]

/-- The first choice everywhere comes to an end: it goes back to prefixes of smaller numbers. -/
theorem Grounded.exists_firstTrees (h : forest.Grounded start position) {id : PrefixId}
    (hid : id.index < forest.prefixes.size) :
    ∃ trees, ∀ steps, id.index < steps → forest.firstTrees steps id = some trees := by
  -- The induction is on the number of the prefix, which neither its spans nor its labels bound.
  obtain ⟨k, hk⟩ : ∃ k, id.index = k := ⟨_, rfl⟩
  induction k using Nat.strong_induction_on generalizing id with
  | _ k ih =>
    subst hk
    obtain ⟨node, hnode⟩ := exists_prefixNode? hid
    cases node with
    | empty place =>
      refine ⟨[], fun steps hsteps => ?_⟩
      obtain ⟨steps, rfl⟩ := Nat.exists_eq_succ_of_ne_zero (Nat.ne_of_gt (Nat.zero_lt_of_lt hsteps))
      rw [firstTrees, hnode]
      rfl
    | cons label first last children =>
      obtain ⟨child, hfirst, hlt, hright⟩ := h.stems id hnode
      have hsmaller {child : PrefixId} (hlt : child.index < id.index) :=
        ih child.index hlt (Nat.lt_trans hlt hid) rfl
      obtain ⟨left, hleft⟩ := hsmaller hlt
      obtain ⟨tree, htree⟩ := hright.exists_firstTreeOf fun child hlt => hsmaller hlt
      refine ⟨left ++ [tree], fun steps hsteps => ?_⟩
      obtain ⟨steps, rfl⟩ := Nat.exists_eq_succ_of_ne_zero (Nat.ne_of_gt (Nat.zero_lt_of_lt hsteps))
      have hleft' := hleft steps (by omega)
      have htree' := htree steps (by omega)
      rw [firstTree] at htree'
      simp only [firstTrees, hnode, hfirst, hleft', htree', Option.bind_eq_bind, Option.bind_some,
        Option.pure_def]

/-- A symbol that has a derivation has a first tree. -/
theorem Grounded.exists_firstTree (h : forest.Grounded start position) {id : SymbolId}
    (hid : forest.IsFounded id) :
    ∃ tree, ∀ steps, forest.prefixes.size ≤ steps → forest.firstTree steps id = some tree :=
  hid.exists_firstTreeOf fun _ hlt => h.exists_firstTrees hlt

end Grounded

end Forest

/-! ## Parses -/

namespace Program

/-- Everything that is referred to has a derivation, and so has every derivation but the ones that
were made in advance; and by the first choice everywhere one comes to a derivation tree over the
span of a node, with the symbols there at its leaves. -/
structure Productive (program : Program) (fed : List Char) (s : Scheduler) : Prop where
  right {id : PrefixId} {label : Label} {first last : Position} {children : Array Split}
    {child : Split} {symbol : Nonterminal} {start stop : Position}
    {alternatives : Array PrefixId} :
    s.forest.prefixNode? id = some (.cons label first last children) → child ∈ children →
      s.forest.symbolNode? child.right = some (.nonterminal symbol start stop alternatives) →
        alternatives ≠ #[]
  root {id : SymbolId} {symbol : Nonterminal} {first last : Position} :
    s.forest.symbolNode? id = some (.nonterminal symbol first last #[]) →
      symbol = program.start ∧ s.first = some first
  tree {id : SymbolId} {symbol : Nonterminal} {first last : Position}
    {alternatives : Array PrefixId} :
    s.forest.symbolNode? id = some (.nonterminal symbol first last alternatives) →
      alternatives ≠ #[] →
        ∃ tree, (∀ steps, s.forest.prefixes.size ≤ steps →
            s.forest.firstTree steps id = some tree) ∧
          program.rightHandSides.DerivesTree fed symbol first.offset last.offset tree ∧
            tree.leaves = List.range' first.offset (last.offset - first.offset) ∧
              tree.leaves.map (fed[·]?) = ((fed.take last.offset).drop first.offset).map some

section Proofs

variable {program : Program} {input : List Char} {m : Moment}

/-- The symbols at the offsets of a segment are those of the segment. -/
theorem map_getElem?_range' {i j : Nat} (hj : j ≤ input.length) :
    (List.range' i (j - i)).map (input[·]?) = ((input.take j).drop i).map some := by
  refine List.ext_getElem (by simp [Nat.min_eq_left hj]) fun n hn hn' => ?_
  have hlt : i + n < j := by
    rw [List.length_map, List.length_range'] at hn
    omega
  simp [List.getElem?_eq_getElem (Nat.lt_of_lt_of_le hlt hj)]

/-- A moment at which everything is sound and grounded is productive. -/
theorem productive_of_sound (hlaid : program.Laid) (hsound : m.Sound program input)
    (hgrounded : m.scheduler.Grounded) : program.Productive input m.scheduler := by
  refine ⟨fun {id label first last children child symbol start stop alternatives} hnode hchild
    hright => ?_, fun {id symbol first last} hnode => ?_,
    fun {id symbol first last alternatives} hnode hne => ?_⟩
  · have hsplit : m.Holds (.split id child) := ⟨label, first, last, children, hnode, hchild⟩
    obtain ⟨_, split, left, right⟩ := child
    obtain ⟨_, _, _, _, _, _, _, _, _, _, _, hderivative⟩ := hsound.proper hsplit
    have hderivation : m.Holds (.derivation right symbol start stop) := ⟨alternatives, hright⟩
    -- What a split has on its right is a terminal, or a derivation with a right-hand side.
    cases hderivative with
    | terminal hterminal _ _ =>
      exact absurd hterminal (Moment.not_terminal_of_derivation hderivation)
    | nonterminal _ halternative _ =>
      obtain ⟨_, _, _, _, hright', hmem⟩ := halternative
      cases hright.symm.trans hright'
      exact fun hempty => Array.not_mem_empty _ (hempty ▸ hmem)
  -- A derivation without a right-hand side was not founded, so it is that of the start.
  · rcases hgrounded.forest.symbols id hnode with hfounded | ⟨hstart, hfirst, -⟩
    · cases hfounded with
      | terminal hterminal => cases hnode.symm.trans hterminal
      | nonterminal hfound hfirst _ =>
        cases hnode.symm.trans hfound
        cases hfirst
    · exact ⟨hstart.trans hsound.situated.start, hfirst⟩
  -- The tree of first choices is a tree like any other, so its leaves are those of a derivation.
  · have hfounded := Forest.isFounded_of_grounded (hgrounded.forest.symbols id) hnode hne
    obtain ⟨tree, htree⟩ := hgrounded.forest.exists_firstTree hfounded
    have hderivation : m.Holds (.derivation id symbol first last) := ⟨alternatives, hnode⟩
    obtain ⟨i, j, hle, rfl, rfl, -⟩ := hsound.proper hderivation
    have hhas := Forest.hasTree_of_firstTreeOf (fun htrees => Forest.trees_of_firstTrees htrees)
      (htree _ (Nat.le_refl _))
    have hderives := hsound.derivesTree hlaid hderivation hhas
    have hleaves := hderives.leavesOfRow
    rw [Tree.leavesOfRow, Tree.leavesOfRow, List.append_nil] at hleaves
    simp only [Position.offset_of]
    refine ⟨tree, htree, hderives, hleaves, ?_⟩
    rw [hleaves]
    exact map_getElem?_range' (Nat.le_trans hle hsound.situated.index_le)

theorem productive_initial (input : List Char) (start : Nonterminal) :
    program.Productive input (Scheduler.initial start) := by
  have hnone (id : PrefixId) : (Scheduler.initial start).forest.prefixNode? id = none := rfl
  have hnone' (id : SymbolId) : (Scheduler.initial start).forest.symbolNode? id = none := rfl
  refine ⟨fun {id _ _ _ _ _ _ _ _ _} hnode => ?_, fun {id _ _ _} hnode => ?_,
    fun {id _ _ _ _} hnode => ?_⟩
  · cases (hnone id).symm.trans hnode
  · cases (hnone' id).symm.trans hnode
  · cases (hnone' id).symm.trans hnode

end Proofs

section Calls

variable {grammar : Grammar} {program : Program} {σ : Type} {tracer : Tracer σ} {trace : σ}
  {limit : Nat} {session : Session σ Unit} {fed : List Char} {offers : List Task}

/-- In every state of a session, whether its work is done or not, no split refers to a derivation
without a right-hand side, only derivations of the start nonterminal from the first position on may
have none, and every derivation that has one has a first tree, which derives what was read between
its ends. -/
theorem compile_productive (hcompile : Program.compile grammar = .ok program)
    (h : Session.Reaches program.interpreter tracer (.initial program.interpreter trace () limit)
      fed session offers) : program.Productive fed session.scheduler := by
  have hlaid := laid_of_compile hcompile
  rcases h.timeline hlaid (List.prefix_refl fed) fun _ => rfl with ⟨hinitial, -⟩ | htimeline
  · rw [hinitial]
    exact productive_initial fed _
  · obtain ⟨carried, hunderway⟩ := htimeline.underway
    exact productive_of_sound hlaid hunderway.steady.sound (h.grounded hlaid)

end Calls

/-- In a forest that goes in circles too. -/
theorem compile_productive_circular : ∃ program session,
    Program.compile circular = .ok program ∧
      program.parse .silent () 224 "a" = .ok true session ∧
        program.Productive ['a'] session.scheduler := by
  obtain ⟨program, session, hcompile, hparse⟩ := parse_circular
  obtain ⟨⟨offers, h⟩, -⟩ := Session.Reaches.start.of_parse hparse
  exact ⟨program, session, hcompile, hparse, compile_productive hcompile h⟩

end Program

end Gll
