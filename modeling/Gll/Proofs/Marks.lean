import Gll.Proofs.Layout

/-!
Derivation trees that tell their alternatives.

Two alternatives of a nonterminal may be the same string of atoms, and then they give the same trees
(`Productions.Derives`). To tell such derivations apart the inner nodes of a tree are marked with
the entry labels of the alternatives that they use (`MarkedTree`). Without its marks a marked
derivation is a derivation, and every derivation can be marked (`MarkedDerives.erase`,
`exists_markedDerives`).

The forest of a parse knows no entry labels. What it has of an alternative is the label of the slot
that completes it, the `Program.ending` of its entry. Every alternative has an ending of its own,
except for the empty ones: an empty alternative ends where it begins, and no label is kept of that.
-/

set_option autoImplicit false

namespace Gll

/-- A derivation tree whose inner nodes tell the entry labels of the alternatives that they use. -/
inductive MarkedTree where
  | leaf (offset : Nat)
  | node (nonterminal : Nonterminal) (entry : Label) (children : List MarkedTree)

namespace MarkedTree

mutual

/-- A tree without its marks. -/
def erase : MarkedTree → Tree
  | leaf offset => .leaf offset
  | node nonterminal _ children => .node nonterminal (eraseRow children)

/-- Trees one after the other without their marks. -/
def eraseRow : List MarkedTree → List Tree
  | [] => []
  | tree :: rest => tree.erase :: eraseRow rest

end

theorem eraseRow_append (left right : List MarkedTree) :
    eraseRow (left ++ right) = eraseRow left ++ eraseRow right := by
  induction left with
  | nil => rfl
  | cons tree rest ih => rw [List.cons_append, eraseRow, eraseRow, ih, List.cons_append]

end MarkedTree

namespace Program

variable (program : Program)

/-- The marked trees by which a string of atoms derives the segment of the input between two
offsets, one tree for each atom. -/
inductive MarkedDerives (input : List Char) : List Atom → Nat → Nat → List MarkedTree → Prop where
  | nil (i : Nat) : MarkedDerives input [] i i []
  | terminal {matcher : Matcher} {c : Char} {atoms : List Atom} {i j : Nat}
      {trees : List MarkedTree} (hchar : input[i]? = some c) (haccepts : matcher.accepts c = true)
      (hrest : MarkedDerives input atoms (i + 1) j trees) :
      MarkedDerives input (.terminal matcher :: atoms) i j (.leaf i :: trees)
  | nonterminal {callee : Nonterminal} {labels : List Label} {entry : Label} {atoms : List Atom}
      {i m j : Nat} {children trees : List MarkedTree}
      (hlabels : program.entries? callee = some labels) (hentry : entry ∈ labels)
      (hfirst : MarkedDerives input (program.atomsAt entry) i m children)
      (hrest : MarkedDerives input atoms m j trees) :
      MarkedDerives input (.nonterminal callee :: atoms) i j (.node callee entry children :: trees)

/-- The marked trees by which a nonterminal derives the segment of the input between two offsets. -/
def MarkedDerivesTree (input : List Char) (nonterminal : Nonterminal) (i j : Nat)
    (tree : MarkedTree) : Prop :=
  program.MarkedDerives input [.nonterminal nonterminal] i j [tree]

/-- The label of the slot that completes the alternative of an entry; none is kept of an empty
one. -/
def ending (entry : Label) : Option Label :=
  if (program.atomsAt entry).isEmpty then none
  else some ⟨entry.index + (program.atomsAt entry).length⟩

variable {program} {input : List Char}

/-! ## Marks and derivations -/

theorem MarkedDerives.append {left right : List Atom} {i m j : Nat} {before after : List MarkedTree}
    (hleft : program.MarkedDerives input left i m before)
    (hright : program.MarkedDerives input right m j after) :
    program.MarkedDerives input (left ++ right) i j (before ++ after) := by
  induction hleft with
  | nil => exact hright
  | terminal hchar haccepts _ ih => exact .terminal hchar haccepts (ih hright)
  | nonterminal hlabels hentry hfirst _ _ ih => exact .nonterminal hlabels hentry hfirst (ih hright)

/-- The alternative of an entry is a right-hand side. -/
theorem atomsAt_mem_rightHandSides {symbol : Nonterminal} {labels : List Label} {entry : Label}
    (hlabels : program.entries? symbol = some labels) (hentry : entry ∈ labels) :
    program.atomsAt entry ∈ program.rightHandSides symbol := by
  rw [rightHandSides, hlabels, Option.getD_some]
  exact List.mem_map.mpr ⟨entry, hentry, rfl⟩

/-- Without its marks a derivation is a derivation. -/
theorem MarkedDerives.erase {atoms : List Atom} {i j : Nat} {trees : List MarkedTree}
    (h : program.MarkedDerives input atoms i j trees) :
    program.rightHandSides.Derives input atoms i j (MarkedTree.eraseRow trees) := by
  induction h with
  | nil i => exact .nil i
  | terminal hchar haccepts _ ih => exact .terminal hchar haccepts ih
  | nonterminal hlabels hentry _ _ ihfirst ihrest =>
    exact .nonterminal (atomsAt_mem_rightHandSides hlabels hentry) ihfirst ihrest

/-- Every derivation can be marked. -/
theorem exists_markedDerives {atoms : List Atom} {i j : Nat} {trees : List Tree}
    (h : program.rightHandSides.Derives input atoms i j trees) :
    ∃ marked, MarkedTree.eraseRow marked = trees ∧
      program.MarkedDerives input atoms i j marked := by
  induction h with
  | nil i => exact ⟨[], rfl, .nil i⟩
  | @terminal matcher c atoms i j trees hchar haccepts _ ih =>
    obtain ⟨marked, rfl, hmarked⟩ := ih
    exact ⟨.leaf i :: marked, rfl, .terminal hchar haccepts hmarked⟩
  | @nonterminal callee alternative atoms i m j children trees hmem _ _ ihfirst ihrest =>
    obtain ⟨first, rfl, hfirst⟩ := ihfirst
    obtain ⟨rest, rfl, hrest⟩ := ihrest
    rw [rightHandSides] at hmem
    cases hlabels : program.entries? callee with
    | none =>
      rw [hlabels] at hmem
      exact absurd hmem List.not_mem_nil
    | some labels =>
      rw [hlabels, Option.getD_some] at hmem
      obtain ⟨entry, hentry, rfl⟩ := List.mem_map.mp hmem
      exact ⟨.node callee entry first :: rest, rfl, .nonterminal hlabels hentry hfirst hrest⟩

/-- A nonterminal derives what one of its alternatives derives, and the tree tells which. -/
theorem markedDerivesTree_iff {symbol : Nonterminal} {i j : Nat} {tree : MarkedTree} :
    program.MarkedDerivesTree input symbol i j tree ↔
      ∃ labels entry children, program.entries? symbol = some labels ∧ entry ∈ labels ∧
        tree = .node symbol entry children ∧
          program.MarkedDerives input (program.atomsAt entry) i j children := by
  constructor
  · intro h
    cases h with
    | nonterminal hlabels hentry hfirst hrest =>
      cases hrest
      exact ⟨_, _, _, hlabels, hentry, rfl, hfirst⟩
  · rintro ⟨labels, entry, children, hlabels, hentry, rfl, hderives⟩
    exact .nonterminal hlabels hentry hderives (.nil _)

theorem exists_markedDerivesTree {symbol : Nonterminal} {i j : Nat} {tree : Tree}
    (h : program.rightHandSides.DerivesTree input symbol i j tree) :
    ∃ marked, MarkedTree.erase marked = tree ∧
      program.MarkedDerivesTree input symbol i j marked := by
  obtain ⟨marked, hmarked, hderives⟩ := exists_markedDerives h
  cases hderives with
  | nonterminal hlabels hentry hfirst hrest =>
    cases hrest
    exact ⟨_, (List.cons.inj hmarked).1, .nonterminal hlabels hentry hfirst (.nil _)⟩

/-! ## Endings -/

theorem ending_eq_none_iff {entry : Label} :
    program.ending entry = none ↔ program.atomsAt entry = [] := by
  unfold ending
  rw [← List.isEmpty_iff]
  split <;> simp_all

theorem ending_of_ne_nil {entry : Label} (hne : program.atomsAt entry ≠ []) :
    program.ending entry = some ⟨entry.index + (program.atomsAt entry).length⟩ := by
  unfold ending
  rw [if_neg]
  rw [List.isEmpty_iff]
  exact hne

section Endings

variable (hlaid : program.Laid) {symbol : Nonterminal} {labels : List Label} {entry entry' : Label}
include hlaid

/-- The ending of an alternative that is not empty tells the alternative. -/
theorem Laid.ending_inj (hlabels : program.entries? symbol = some labels) (hentry : entry ∈ labels)
    (hentry' : entry' ∈ labels) (hne : program.atomsAt entry ≠ [])
    (h : program.ending entry = program.ending entry') : entry = entry' := by
  have hne' : program.atomsAt entry' ≠ [] := by
    intro hempty
    rw [ending_eq_none_iff.mpr hempty] at h
    exact hne (ending_eq_none_iff.mp h)
  rw [ending_of_ne_nil hne, ending_of_ne_nil hne'] at h
  have hlabel := Option.some.inj h
  -- The slot tells how far the alternative reaches back.
  have hitem := hlaid.item_end hlabels hentry
  rw [hlabel] at hitem
  obtain ⟨-, hatoms, -⟩ := hlaid.item_unique hitem (hlaid.item_end hlabels hentry')
  rw [hatoms, Label.mk.injEq] at hlabel
  cases entry
  cases entry'
  exact congrArg Label.mk (Nat.add_right_cancel hlabel)

/-- Alternatives with the same ending have the same atoms. -/
theorem Laid.atomsAt_eq_of_ending (hlabels : program.entries? symbol = some labels)
    (hentry : entry ∈ labels) (hentry' : entry' ∈ labels)
    (h : program.ending entry = program.ending entry') :
    program.atomsAt entry = program.atomsAt entry' := by
  by_cases hempty : program.atomsAt entry = []
  · rw [ending_eq_none_iff.mpr hempty] at h
    rw [hempty, ending_eq_none_iff.mp h.symm]
  · rw [hlaid.ending_inj hlabels hentry hentry' hempty h]

end Endings

end Program

end Gll
