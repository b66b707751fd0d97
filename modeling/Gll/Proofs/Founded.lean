import Gll.Proofs.Change

/-!
What a node of a forest rests on.

A forest may go in circles, and nodes are made before anything is packed under them, the root even
before everything else. So neither the numbers of nodes nor their spans get smaller along every
edge. They do along the *first* ones, when the forest is grown in the right order: the first way to
build a prefix goes back to a prefix of a smaller number and to a symbol that has a derivation
already, one that rests on prefixes of smaller numbers (`Forest.Founded`).

`Forest.Grounded` says this of all nodes. What is packed later is never the first, so it is kept by
every change of a forest that makes a prefix for what there is, and a symbol for a prefix that there
is. The derivations of the start nonterminal that are made in advance are let pass as long as they
have no right-hand side.
-/

set_option autoImplicit false

namespace Gll

/-- What is first stays first. -/
theorem getElem?_zero_insertNew {α : Type} [BEq α] {items : Array α} {item : α} :
    (insertNew items item).2[0]? = some (items[0]?.getD item) := by
  rw [insertNew]
  rcases Nat.eq_zero_or_pos items.size with hsize | hsize
  · rw [Array.eq_empty_of_size_eq_zero hsize]
    simp
  · split
    · simp [hsize]
    · show (items.push item)[0]? = some (items[0]?.getD item)
      rw [Array.getElem?_push, if_neg (Nat.ne_of_lt hsize)]
      simp [hsize]

namespace Forest

/-- A symbol with a derivation that rests on the first `k` prefixes: a terminal, or a nonterminal
whose first right-hand side is among them. -/
inductive Founded (forest : Forest) (k : Nat) (id : SymbolId) : Prop where
  | terminal {position : Position} (hnode : forest.symbolNode? id = some (.terminal position)) :
      Founded forest k id
  | nonterminal {symbol : Nonterminal} {first last : Position} {alternatives : Array PrefixId}
      {child : PrefixId}
      (hnode : forest.symbolNode? id = some (.nonterminal symbol first last alternatives))
      (hfirst : alternatives[0]? = some child) (hlt : child.index < k) : Founded forest k id

/-- A symbol with a derivation that rests on prefixes of the forest. -/
abbrev IsFounded (forest : Forest) (id : SymbolId) : Prop :=
  forest.Founded forest.prefixes.size id

/-- What is founded stays so. -/
structure Extends (forest forest' : Forest) : Prop where
  size : forest.prefixes.size ≤ forest'.prefixes.size
  founded {k : Nat} {id : SymbolId} : forest.Founded k id → forest'.Founded k id

/-- The first way to build a prefix goes back to what there was before it. -/
def PrefixGrounded (forest : Forest) (id : PrefixId) : Prop :=
  ∀ ⦃label : Label⦄ ⦃first last : Position⦄ ⦃children : Array Split⦄,
    forest.prefixNode? id = some (.cons label first last children) →
      ∃ child, children[0]? = some child ∧ child.left.index < id.index ∧
        forest.Founded id.index child.right

/-- A symbol has a derivation, or it is one of those that are made in advance: the start nonterminal
from the first position on. -/
def SymbolGrounded (forest : Forest) (start : Nonterminal) (position : Option Position)
    (id : SymbolId) : Prop :=
  ∀ ⦃symbol : Nonterminal⦄ ⦃first last : Position⦄ ⦃alternatives : Array PrefixId⦄,
    forest.symbolNode? id = some (.nonterminal symbol first last alternatives) →
      forest.IsFounded id ∨ symbol = start ∧ position = some first ∧ alternatives = #[]

variable {forest forest' : Forest} {k : Nat} {id : SymbolId}

theorem Founded.mono {k' : Nat} (h : forest.Founded k id) (hle : k ≤ k') :
    forest.Founded k' id := by
  cases h with
  | terminal hnode => exact .terminal hnode
  | nonterminal hnode hfirst hlt => exact .nonterminal hnode hfirst (Nat.lt_of_lt_of_le hlt hle)

theorem Founded.of_symbols (h : forest.Founded k id) (hsymbols : forest'.symbols = forest.symbols) :
    forest'.Founded k id := by
  have hnode : forest'.symbolNode? id = forest.symbolNode? id := by
    rw [symbolNode?, symbolNode?, hsymbols]
  cases h with
  | terminal hold => exact .terminal (hnode.trans hold)
  | nonterminal hold hfirst hlt => exact .nonterminal (hnode.trans hold) hfirst hlt

namespace Extends

theorem refl (forest : Forest) : forest.Extends forest := ⟨Nat.le_refl _, fun h => h⟩

theorem trans {a b c : Forest} (h : a.Extends b) (h' : b.Extends c) : a.Extends c :=
  ⟨Nat.le_trans h.size h'.size, fun hfounded => h'.founded (h.founded hfounded)⟩

theorem isFounded (h : forest.Extends forest') (hfounded : forest.IsFounded id) :
    forest'.IsFounded id :=
  (h.founded hfounded).mono h.size

theorem addPrefix (forest : Forest) (node : PrefixNode) :
    forest.Extends (forest.addPrefix node).2 :=
  ⟨by simp [Forest.addPrefix], fun h => h.of_symbols rfl⟩

theorem addSymbol (forest : Forest) (node : SymbolNode) :
    forest.Extends (forest.addSymbol node).2 := by
  refine ⟨Nat.le_refl _, fun h => ?_⟩
  cases h with
  | terminal hnode => exact .terminal (symbolNode?_addSymbol.mpr (.inl hnode))
  | nonterminal hnode hfirst hlt =>
    exact .nonterminal (symbolNode?_addSymbol.mpr (.inl hnode)) hfirst hlt

theorem packSplit (forest : Forest) (id : PrefixId) (child : Split) :
    forest.Extends (forest.packSplit id child) :=
  ⟨by simp [Forest.packSplit], fun h => h.of_symbols rfl⟩

theorem packAlternative (forest : Forest) (id : SymbolId) (child : PrefixId) :
    forest.Extends (forest.packAlternative id child) := by
  refine ⟨Nat.le_refl _, fun {k other} h => ?_⟩
  have hpack := @symbolNode?_packAlternative forest id other child
  cases h with
  | terminal hnode =>
    rw [hnode, Option.map_some, SymbolNode.pack?, Option.getD_none, ite_self] at hpack
    exact .terminal hpack
  | nonterminal hnode hfirst hlt =>
    rw [hnode, Option.map_some, SymbolNode.pack?, Option.getD_some] at hpack
    split at hpack
    · refine .nonterminal hpack ?_ hlt
      rw [getElem?_zero_insertNew, hfirst, Option.getD_some]
    · exact .nonterminal hpack hfirst hlt

end Extends

/-- Every prefix has a first way to build it, and every symbol a first right-hand side, unless it
was made in advance. -/
structure Grounded (forest : Forest) (start : Nonterminal) (position : Option Position) : Prop where
  stems (id : PrefixId) : forest.PrefixGrounded id
  symbols (id : SymbolId) : forest.SymbolGrounded start position id

theorem prefixNode?_lt {id : PrefixId} {node : PrefixNode}
    (hnode : forest.prefixNode? id = some node) : id.index < forest.prefixes.size :=
  (Array.getElem?_eq_some_iff.mp hnode).1

theorem exists_prefixNode? {id : PrefixId} (h : id.index < forest.prefixes.size) :
    ∃ node, forest.prefixNode? id = some node :=
  ⟨_, Array.getElem?_eq_getElem h⟩

theorem isFounded_of_grounded {start : Nonterminal} {position : Option Position}
    {symbol : Nonterminal} {first last : Position} {alternatives : Array PrefixId}
    (h : forest.SymbolGrounded start position id)
    (hnode : forest.symbolNode? id = some (.nonterminal symbol first last alternatives))
    (hne : alternatives ≠ #[]) : forest.IsFounded id :=
  (h hnode).resolve_right fun hnone => hne hnone.2.2

/-! ## Prefixes -/

section FirstBuilt

variable {Q Q' : Split → Prop} {id other : PrefixId} {child : Split}

/-- A prefix that is not empty is built in some way, and the first one has a property. -/
def FirstBuilt (forest : Forest) (Q : Split → Prop) (id : PrefixId) : Prop :=
  ∀ ⦃label : Label⦄ ⦃first last : Position⦄ ⦃children : Array Split⦄,
    forest.prefixNode? id = some (.cons label first last children) →
      ∃ child, children[0]? = some child ∧ Q child

theorem FirstBuilt.mono (h : forest.FirstBuilt Q id) (hQ : ∀ child, Q child → Q' child) :
    forest.FirstBuilt Q' id := by
  intro label first last children hcons
  obtain ⟨child, hfirst, hchild⟩ := h hcons
  exact ⟨child, hfirst, hQ child hchild⟩

theorem FirstBuilt.of_node (h : forest.FirstBuilt Q id)
    (hnode : forest'.prefixNode? id = forest.prefixNode? id) : forest'.FirstBuilt Q id :=
  fun _ _ _ _ hcons => h (hnode.symm.trans hcons)

theorem FirstBuilt.addPrefix {node : PrefixNode} (h : forest.FirstBuilt Q id)
    (hnew : id = (forest.addPrefix node).1 → ∃ position, node = .empty position) :
    (forest.addPrefix node).2.FirstBuilt Q id := by
  intro label first last children hcons
  rcases prefixNode?_addPrefix.mp hcons with hold | ⟨hid, hnode⟩
  · exact h hold
  · obtain ⟨position, hempty⟩ := hnew hid
    cases hnode.trans hempty

/-- What is packed under a prefix that is built already is not the first. -/
theorem FirstBuilt.packSplit (h : forest.FirstBuilt Q other) :
    (forest.packSplit id child).FirstBuilt Q other := by
  intro label first last children hcons
  rw [prefixNode?_packSplit] at hcons
  by_cases hid : id = other
  · rw [if_pos hid] at hcons
    obtain ⟨old, hold, hpack⟩ := Option.map_eq_some_iff.mp hcons
    cases old with
    | empty position => cases hpack
    | cons label' first' last' children' =>
      rw [PrefixNode.pack?, Option.getD_some, PrefixNode.cons.injEq] at hpack
      obtain ⟨-, -, -, rfl⟩ := hpack
      obtain ⟨known, hfirst, hknown⟩ := h hold
      refine ⟨known, ?_, hknown⟩
      rw [getElem?_zero_insertNew, hfirst, Option.getD_some]
  · rw [if_neg hid] at hcons
    exact h hcons

/-- What is packed under a prefix that was just made is the first. -/
theorem firstBuilt_packSplit_addPrefix {label : Label} {first last : Position} (hchild : Q child) :
    ((forest.addPrefix (.cons label first last #[])).2.packSplit ⟨forest.prefixes.size⟩
      child).FirstBuilt Q ⟨forest.prefixes.size⟩ := by
  have hnode : (forest.addPrefix (.cons label first last #[])).2.prefixNode?
      ⟨forest.prefixes.size⟩ = some (.cons label first last #[]) :=
    prefixNode?_addPrefix.mpr (.inr ⟨rfl, rfl⟩)
  intro label' first' last' children hcons
  rw [prefixNode?_packSplit, if_pos rfl, hnode, Option.map_some, PrefixNode.pack?,
    Option.getD_some, Option.some.injEq, PrefixNode.cons.injEq] at hcons
  obtain ⟨-, -, -, rfl⟩ := hcons
  refine ⟨child, ?_, hchild⟩
  rw [getElem?_zero_insertNew]
  rfl

end FirstBuilt

section Prefixes

variable {id other : PrefixId} {child : Split}

/-- What is first of a prefix goes back to what there was before it. -/
theorem PrefixGrounded.firstBuilt (h : forest.PrefixGrounded id) :
    forest.FirstBuilt
      (fun child => child.left.index < id.index ∧ forest.Founded id.index child.right) id := h

/-- It stays so as long as what is founded stays founded. -/
theorem FirstBuilt.prefixGrounded (h : forest'.FirstBuilt
      (fun child => child.left.index < id.index ∧ forest.Founded id.index child.right) id)
    (hextends : forest.Extends forest') : forest'.PrefixGrounded id :=
  h.mono fun _ hchild => ⟨hchild.1, hextends.founded hchild.2⟩

theorem PrefixGrounded.of_extends (h : forest.PrefixGrounded id) (hextends : forest.Extends forest')
    (hnode : forest'.prefixNode? id = forest.prefixNode? id) : forest'.PrefixGrounded id :=
  (h.firstBuilt.of_node hnode).prefixGrounded hextends

theorem PrefixGrounded.addPrefix {node : PrefixNode} (h : forest.PrefixGrounded id)
    (hnew : id = (forest.addPrefix node).1 → ∃ position, node = .empty position) :
    (forest.addPrefix node).2.PrefixGrounded id :=
  (h.firstBuilt.addPrefix hnew).prefixGrounded (.addPrefix forest node)

theorem PrefixGrounded.packSplit (h : forest.PrefixGrounded other) :
    (forest.packSplit id child).PrefixGrounded other :=
  h.firstBuilt.packSplit.prefixGrounded (.packSplit forest id child)

/-- A prefix that is made goes back to what there was. -/
theorem prefixGrounded_packSplit_addPrefix {label : Label} {first last : Position}
    (hleft : child.left.index < forest.prefixes.size) (hright : forest.IsFounded child.right) :
    ((forest.addPrefix (.cons label first last #[])).2.packSplit ⟨forest.prefixes.size⟩
      child).PrefixGrounded ⟨forest.prefixes.size⟩ :=
  (firstBuilt_packSplit_addPrefix ⟨hleft, hright⟩).prefixGrounded
    ((Extends.addPrefix _ _).trans (.packSplit _ _ _))

end Prefixes

/-! ## Symbols -/

section Symbols

variable {other : SymbolId} {child : PrefixId} {start : Nonterminal} {position : Option Position}

theorem SymbolGrounded.of_extends (h : forest.SymbolGrounded start position id)
    (hextends : forest.Extends forest')
    (hnode : forest'.symbolNode? id = forest.symbolNode? id) :
    forest'.SymbolGrounded start position id := by
  intro symbol first last alternatives hsymbol
  exact (h (hnode.symm.trans hsymbol)).imp_left hextends.isFounded

theorem SymbolGrounded.addSymbol {node : SymbolNode} (h : forest.SymbolGrounded start position id)
    (hnew : id = (forest.addSymbol node).1 →
      ∀ symbol first last alternatives, node = .nonterminal symbol first last alternatives →
        symbol = start ∧ position = some first ∧ alternatives = #[]) :
    (forest.addSymbol node).2.SymbolGrounded start position id := by
  intro symbol first last alternatives hsymbol
  rcases symbolNode?_addSymbol.mp hsymbol with hold | ⟨hid, hnode⟩
  · exact (h hold).imp_left (Extends.addSymbol forest node).isFounded
  · exact .inr (hnew hid _ _ _ _ hnode.symm)

/-- A symbol under which a prefix of the forest is packed has a derivation. -/
theorem isFounded_packAlternative {symbol : Nonterminal} {first last : Position}
    {alternatives : Array PrefixId}
    (hnode : forest.symbolNode? id = some (.nonterminal symbol first last alternatives))
    (hlt : (alternatives[0]?.getD child).index < forest.prefixes.size) :
    (forest.packAlternative id child).IsFounded id := by
  have hpack := @symbolNode?_packAlternative forest id id child
  rw [if_pos rfl, hnode, Option.map_some, SymbolNode.pack?, Option.getD_some] at hpack
  exact .nonterminal hpack getElem?_zero_insertNew hlt

theorem SymbolGrounded.packAlternative (h : forest.SymbolGrounded start position other)
    (hchild : child.index < forest.prefixes.size) :
    (forest.packAlternative id child).SymbolGrounded start position other := by
  intro symbol first last alternatives hsymbol
  rw [symbolNode?_packAlternative] at hsymbol
  by_cases hid : id = other
  · subst hid
    rw [if_pos rfl] at hsymbol
    obtain ⟨old, hold, hpack⟩ := Option.map_eq_some_iff.mp hsymbol
    cases old with
    | terminal position => cases hpack
    | nonterminal symbol' first' last' alternatives' =>
      refine .inl (isFounded_packAlternative hold ?_)
      -- The first right-hand side is the one that was there, or this one, if there was none.
      rcases h hold with hfounded | ⟨-, -, rfl⟩
      · cases hfounded with
        | terminal hterminal => cases hold.symm.trans hterminal
        | nonterminal hnode hfirst hlt =>
          cases hold.symm.trans hnode
          rw [hfirst, Option.getD_some]
          exact hlt
      · exact hchild
  · rw [if_neg hid] at hsymbol
    exact (h hsymbol).imp_left (Extends.packAlternative forest id child).isFounded

end Symbols

/-! ## Changes -/

namespace Grounded

variable {start : Nonterminal} {position : Option Position}
  (h : forest.Grounded start position)
include h

theorem addEmpty (last : Position) :
    (forest.addPrefix (.empty last)).2.Grounded start position where
  stems id := (h.stems id).addPrefix fun _ => ⟨last, rfl⟩
  symbols id := (h.symbols id).of_extends (.addPrefix _ _) rfl

theorem packSplit (id : PrefixId) (child : Split) :
    (forest.packSplit id child).Grounded start position where
  stems other := (h.stems other).packSplit
  symbols other := (h.symbols other).of_extends (.packSplit _ _ _) rfl

theorem packSplit_addPrefix {label : Label} {first last : Position} {child : Split}
    (hleft : child.left.index < forest.prefixes.size) (hright : forest.IsFounded child.right) :
    ((forest.addPrefix (.cons label first last #[])).2.packSplit ⟨forest.prefixes.size⟩
      child).Grounded start position where
  stems id := by
    by_cases hid : id = ⟨forest.prefixes.size⟩
    · rw [hid]
      exact prefixGrounded_packSplit_addPrefix hleft hright
    · exact ((h.stems id).addPrefix fun hnew => absurd hnew hid).packSplit
  symbols id := (h.symbols id).of_extends ((Extends.addPrefix _ _).trans (.packSplit _ _ _)) rfl

theorem packAlternative (id : SymbolId) {child : PrefixId}
    (hchild : child.index < forest.prefixes.size) :
    (forest.packAlternative id child).Grounded start position where
  stems other := (h.stems other).of_extends (.packAlternative _ _ _) rfl
  symbols other := (h.symbols other).packAlternative hchild

/-- The root is made in advance. -/
theorem addSymbol {node : SymbolNode}
    (hnode : ∀ symbol first last alternatives,
      node = .nonterminal symbol first last alternatives →
        symbol = start ∧ position = some first ∧ alternatives = #[]) :
    (forest.addSymbol node).2.Grounded start position where
  stems id := (h.stems id).of_extends (.addSymbol _ _) rfl
  symbols id := (h.symbols id).addSymbol fun _ => hnode

/-- Any other symbol is made for the right-hand side that is packed under it. -/
theorem packAlternative_addSymbol {symbol : Nonterminal} {first last : Position} {child : PrefixId}
    (hchild : child.index < forest.prefixes.size) :
    ((forest.addSymbol (.nonterminal symbol first last #[])).2.packAlternative
      ⟨forest.symbols.size⟩ child).Grounded start position where
  stems id := (h.stems id).of_extends ((Extends.addSymbol _ _).trans (.packAlternative _ _ _)) rfl
  symbols id := by
    by_cases hid : id = ⟨forest.symbols.size⟩
    · subst hid
      have hnode : (forest.addSymbol (.nonterminal symbol first last #[])).2.symbolNode?
          ⟨forest.symbols.size⟩ = some (.nonterminal symbol first last #[]) :=
        symbolNode?_addSymbol.mpr (.inr ⟨rfl, rfl⟩)
      exact fun _ _ _ _ _ => .inl (isFounded_packAlternative hnode hchild)
    · exact ((h.symbols id).addSymbol fun hnew => absurd hnew hid).packAlternative hchild

end Grounded

end Forest

end Gll
