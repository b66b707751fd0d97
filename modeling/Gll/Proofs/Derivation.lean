import Gll.Program.Basic
import Mathlib.Computability.Language

/-!
What productions derive. `Productions` assign to each nonterminal its right-hand sides, that is
strings of tests and nonterminals; here is what such strings stand for, in two forms:

| | |
|---|---|
| `Productions.Yields` | the texts that a string of atoms derives |
| `Productions.Derives` | the trees by which it derives a segment of a given input |

The first is what one compares languages by, the second what a parse forest packs. They agree:
a nonterminal derives a beginning of the input exactly when there is a tree over it
(`take_mem_language_iff`).

Both are read from left to right, one atom at a time, because that is the order in which a parse
goes through an alternative. So the induction over either one has three cases: nothing is left, a
test comes next, a nonterminal comes next.
-/

set_option autoImplicit false

namespace Gll

/-- The right-hand sides of each nonterminal. -/
abbrev Productions := Nonterminal → List (List Atom)

/-- A derivation tree: nonterminals inside, offsets of the input at the leaves. -/
inductive Tree where
  | leaf (offset : Nat)
  | node (nonterminal : Nonterminal) (children : List Tree)

mutual

/-- The offsets at the leaves of a tree, from left to right. -/
def Tree.leaves : Tree → List Nat
  | .leaf offset => [offset]
  | .node _ children => Tree.leavesOfRow children

/-- The offsets at the leaves of trees one after the other. -/
def Tree.leavesOfRow : List Tree → List Nat
  | [] => []
  | tree :: rest => tree.leaves ++ Tree.leavesOfRow rest

end

namespace Productions

variable (productions : Productions)

/-- The texts that a string of atoms derives. -/
inductive Yields : List Atom → List Char → Prop where
  | nil : Yields [] []
  | terminal {matcher : Matcher} {c : Char} {atoms : List Atom} {text : List Char}
      (haccepts : matcher.accepts c = true) (hrest : Yields atoms text) :
      Yields (.terminal matcher :: atoms) (c :: text)
  | nonterminal {callee : Nonterminal} {alternative atoms : List Atom} {first rest : List Char}
      (hmem : alternative ∈ productions callee) (hfirst : Yields alternative first)
      (hrest : Yields atoms rest) : Yields (.nonterminal callee :: atoms) (first ++ rest)

/-- The language of a nonterminal: the texts that it derives. -/
def language (nonterminal : Nonterminal) : Language Char :=
  { text | productions.Yields [.nonterminal nonterminal] text }

/-- The trees by which a string of atoms derives the segment of the input between two offsets, one
tree for each atom. Two alternatives that are the same string of atoms give the same trees. -/
inductive Derives (input : List Char) : List Atom → Nat → Nat → List Tree → Prop where
  | nil (i : Nat) : Derives input [] i i []
  | terminal {matcher : Matcher} {c : Char} {atoms : List Atom} {i j : Nat} {trees : List Tree}
      (hchar : input[i]? = some c) (haccepts : matcher.accepts c = true)
      (hrest : Derives input atoms (i + 1) j trees) :
      Derives input (.terminal matcher :: atoms) i j (.leaf i :: trees)
  | nonterminal {callee : Nonterminal} {alternative atoms : List Atom} {i m j : Nat}
      {children trees : List Tree} (hmem : alternative ∈ productions callee)
      (hfirst : Derives input alternative i m children) (hrest : Derives input atoms m j trees) :
      Derives input (.nonterminal callee :: atoms) i j (.node callee children :: trees)

/-- The trees by which a nonterminal derives the segment of the input between two offsets. -/
def DerivesTree (input : List Char) (nonterminal : Nonterminal) (i j : Nat) (tree : Tree) : Prop :=
  productions.Derives input [.nonterminal nonterminal] i j [tree]

variable {productions}

/-! ## Texts -/

@[simp] theorem yields_nil_iff {text : List Char} : productions.Yields [] text ↔ text = [] := by
  constructor
  · intro h
    cases h
    rfl
  · rintro rfl
    exact .nil

theorem yields_nonterminal_iff {callee : Nonterminal} {text : List Char} :
    productions.Yields [.nonterminal callee] text ↔
      ∃ alternative ∈ productions callee, productions.Yields alternative text := by
  constructor
  · intro h
    cases h with
    | nonterminal hmem hfirst hrest =>
      rw [yields_nil_iff.mp hrest, List.append_nil]
      exact ⟨_, hmem, hfirst⟩
  · rintro ⟨alternative, hmem, hyields⟩
    rw [← List.append_nil text]
    exact .nonterminal hmem hyields .nil

theorem mem_language {nonterminal : Nonterminal} {text : List Char} :
    text ∈ productions.language nonterminal ↔
      ∃ alternative ∈ productions nonterminal, productions.Yields alternative text :=
  yields_nonterminal_iff

/-! ## Trees -/

variable {input : List Char}

theorem Derives.le {atoms : List Atom} {i j : Nat} {trees : List Tree}
    (h : productions.Derives input atoms i j trees) : i ≤ j := by
  induction h with
  | nil => exact Nat.le_refl _
  | terminal _ _ _ ih => omega
  | nonterminal _ _ _ hfirst hrest => omega

theorem Derives.append {left right : List Atom} {i m j : Nat} {before after : List Tree}
    (hleft : productions.Derives input left i m before)
    (hright : productions.Derives input right m j after) :
    productions.Derives input (left ++ right) i j (before ++ after) := by
  induction hleft with
  | nil => exact hright
  | terminal hchar haccepts _ ih => exact .terminal hchar haccepts (ih hright)
  | nonterminal hmem hfirst _ _ ih => exact .nonterminal hmem hfirst (ih hright)

/-- The leaves of trees that derive a segment are the offsets of the segment, each of them once and
in order. -/
theorem Derives.leavesOfRow {atoms : List Atom} {i j : Nat} {trees : List Tree}
    (h : productions.Derives input atoms i j trees) :
    Tree.leavesOfRow trees = List.range' i (j - i) := by
  induction h with
  | nil i =>
    rw [Tree.leavesOfRow, Nat.sub_self]
    rfl
  | @terminal matcher c atoms i j trees _ _ hrest ih =>
    -- The terminal is the leaf at the first offset of the segment.
    have hlength : j - i = (j - (i + 1)) + 1 := by
      have hle := hrest.le
      omega
    rw [Tree.leavesOfRow, Tree.leaves, ih, hlength, List.range'_succ]
    rfl
  | @nonterminal callee alternative atoms i m j children trees _ hfirst hrest ihfirst ihrest =>
    -- The first tree has the offsets up to where the others begin.
    have hlength : j - i = (m - i) + (j - m) := by
      have hle := hfirst.le
      have hle' := hrest.le
      omega
    have hstart : i + (m - i) = m := by
      have hle := hfirst.le
      omega
    rw [Tree.leavesOfRow, Tree.leaves, ihfirst, ihrest, hlength, ← List.range'_append_1, hstart]

/-- A test derives the one character at its offset. -/
theorem derives_terminal {matcher : Matcher} {c : Char} {i : Nat} (hchar : input[i]? = some c)
    (haccepts : matcher.accepts c = true) :
    productions.Derives input [.terminal matcher] i (i + 1) [.leaf i] :=
  .terminal hchar haccepts (.nil _)

/-- A nonterminal derives what one of its right-hand sides derives, by a tree whose children are the
trees of that right-hand side. -/
theorem derivesTree_iff {nonterminal : Nonterminal} {i j : Nat} {tree : Tree} :
    productions.DerivesTree input nonterminal i j tree ↔
      ∃ alternative ∈ productions nonterminal, ∃ children,
        tree = .node nonterminal children ∧
          productions.Derives input alternative i j children := by
  constructor
  · intro h
    cases h with
    | nonterminal hmem hfirst hrest =>
      cases hrest
      exact ⟨_, hmem, _, rfl, hfirst⟩
  · rintro ⟨alternative, hmem, children, rfl, hderives⟩
    exact .nonterminal hmem hderives (.nil _)

/-! ## Texts and trees -/

/-- What trees derive is the segment of the input between their offsets. -/
theorem Derives.exists_yields {atoms : List Atom} {i j : Nat} {trees : List Tree}
    (h : productions.Derives input atoms i j trees) :
    ∃ text, productions.Yields atoms text ∧ input.drop i = text ++ input.drop j := by
  -- The text is put together from the pieces of the input that the steps go over.
  induction h with
  | nil i => exact ⟨[], .nil, rfl⟩
  | @terminal matcher c atoms i j trees hchar haccepts _ ih =>
    obtain ⟨text, hyields, htext⟩ := ih
    refine ⟨c :: text, .terminal haccepts hyields, ?_⟩
    obtain ⟨hi, hget⟩ := List.getElem?_eq_some_iff.mp hchar
    rw [List.drop_eq_getElem_cons hi, hget, htext, List.cons_append]
  | nonterminal hmem _ _ ihfirst ihrest =>
    obtain ⟨first, hfirst, htext⟩ := ihfirst
    obtain ⟨rest, hrest, htail⟩ := ihrest
    refine ⟨first ++ rest, .nonterminal hmem hfirst hrest, ?_⟩
    rw [htext, htail, List.append_assoc]

/-- A text that is found at an offset of the input is derived there by trees. -/
theorem Yields.exists_derives {atoms : List Atom} {text : List Char}
    (h : productions.Yields atoms text) :
    ∀ (i : Nat) (after : List Char), input.drop i = text ++ after →
      ∃ trees, productions.Derives input atoms i (i + text.length) trees := by
  -- The offset varies: the rest of a string of atoms is found where its beginning ends.
  induction h with
  | nil => exact fun i _ _ => ⟨[], .nil i⟩
  | @terminal matcher c atoms text haccepts _ ih =>
    intro i after hdrop
    have hchar : input[i]? = some c := by
      rw [← List.head?_drop, hdrop, List.cons_append, List.head?_cons]
    have hnext : input.drop (i + 1) = text ++ after := by
      rw [← List.tail_drop, hdrop, List.cons_append, List.tail_cons]
    obtain ⟨trees, hderives⟩ := ih (i + 1) after hnext
    refine ⟨.leaf i :: trees, ?_⟩
    rw [List.length_cons, ← Nat.add_assoc, Nat.add_right_comm]
    exact .terminal hchar haccepts hderives
  | @nonterminal callee alternative atoms first rest hmem _ _ ihfirst ihrest =>
    intro i after hdrop
    rw [List.append_assoc] at hdrop
    have hnext : input.drop (i + first.length) = rest ++ after := by
      rw [← List.drop_drop, hdrop, List.drop_left]
    obtain ⟨children, hchildren⟩ := ihfirst i (rest ++ after) hdrop
    obtain ⟨trees, htrees⟩ := ihrest (i + first.length) after hnext
    refine ⟨.node callee children :: trees, ?_⟩
    rw [List.length_append, ← Nat.add_assoc]
    exact .nonterminal hmem hchildren htrees

/-- A nonterminal derives the beginning of the input up to an offset exactly when there is a
derivation tree over it. -/
theorem take_mem_language_iff {nonterminal : Nonterminal} {k : Nat} (hk : k ≤ input.length) :
    input.take k ∈ productions.language nonterminal ↔
      ∃ tree, productions.DerivesTree input nonterminal 0 k tree := by
  constructor
  · intro h
    have hyields : productions.Yields [.nonterminal nonterminal] (input.take k) := h
    -- A text that is yielded is derived over any input that begins with it.
    have hdrop : input.drop 0 = input.take k ++ input.drop k := by simp
    obtain ⟨trees, hderives⟩ := hyields.exists_derives 0 _ hdrop
    rw [List.length_take, Nat.min_eq_left hk, Nat.zero_add] at hderives
    cases hderives with
    | nonterminal hmem hfirst hrest =>
      cases hrest
      exact ⟨_, .nonterminal hmem hfirst (.nil _)⟩
  · rintro ⟨tree, htree⟩
    obtain ⟨text, hyields, htext⟩ := Derives.exists_yields htree
    have heq : input.take k = text := by
      rw [List.drop_zero] at htext
      exact List.append_cancel_right ((List.take_append_drop k input).trans htext)
    rw [heq]
    exact hyields

end Productions

end Gll
