import Gll.Proofs.Meaning
import Gll.Program.Lowering

/-!
What it means that productions flatten the rules of a grammar, and that nothing is lost by it.

`Flattens` relates a rule expression to the string of atoms that stands for it: the atoms of a
sequence are those of its members in a row, and a choice or a repetition inside a rule is a
nonterminal of its own, whose right-hand sides flatten it in turn. `Alternates` relates an
expression to the right-hand sides of a nonterminal that stands for it. Neither says how the
nonterminals came about; that the compiler of grammars makes productions for which they hold is
shown elsewhere.

The theorem is `language_eq_of_flattened`: productions that flatten all rules of a grammar derive,
from the nonterminal of a rule, the language of that rule. Both are least solutions, so either half
shows that one side solves the inequations of the other.

* The productions derive at least the language of the rules: with the derived languages for the
  names, the language of an expression is below that of its atoms (`Flattens.language_le`). This is
  where a repetition needs induction on the number of repetitions, as the law
  `a * m ≤ m → a∗ * m ≤ m` of Kleene algebras. Whether the nonterminal `m` is one of its own or that
  of the rule itself makes no difference to it.
* They derive no more: what a nonterminal stands for is in the language of every expression that it
  could have been introduced for, which is what `Allowed` says. That language is a solution because
  its definition follows the cases of `Flattens`; a repetition that refers back to the nonterminal
  of its own rule is covered by the clause for repetitions.
-/

set_option autoImplicit false

open Computability

namespace Gll.Lowering

section Relation

variable (grammar : Grammar) (productions : Productions)

mutual

/-- The atoms stand for the expression. -/
def Flattens : Rule → List Atom → Prop
  | .blank, atoms => atoms = []
  | .literal text, atoms => atoms = text.toList.map fun c => .terminal (.char c)
  | .pattern source flags, atoms =>
    ∃ regex, Pattern.compile source flags = .ok regex ∧ atoms = [.terminal (.pattern regex)]
  | .symbol name, atoms =>
    ∃ index, grammar.indexOf? name = some index ∧ atoms = [.nonterminal ⟨index⟩]
  | .sequence members, atoms => FlattensRow members atoms
  | .choice members, atoms =>
    ∃ part, atoms = [.nonterminal part] ∧ FlattensEach members (productions part)
  | .star content, atoms =>
    ∃ part once, atoms = [.nonterminal part] ∧ productions part = starAlternatives part once ∧
      Flattens content once
  | .plus content, atoms =>
    ∃ part once, atoms = [.nonterminal part] ∧ productions part = plusAlternatives part once ∧
      Flattens content once

/-- The atoms stand for the expressions one after the other. -/
def FlattensRow : List Rule → List Atom → Prop
  | [], atoms => atoms = []
  | member :: rest, atoms =>
    ∃ first others, atoms = first ++ others ∧ Flattens member first ∧ FlattensRow rest others

/-- Each of the strings of atoms stands for the expression in its place. -/
def FlattensEach : List Rule → List (List Atom) → Prop
  | [], alternatives => alternatives = []
  | member :: rest, alternatives =>
    ∃ first others, alternatives = first :: others ∧ Flattens member first ∧
      FlattensEach rest others

end

/-- The alternatives of the nonterminal stand for the expression. -/
def Alternates (owner : Nonterminal) : Rule → List (List Atom) → Prop
  | .choice members, alternatives => FlattensEach grammar productions members alternatives
  | .star content, alternatives =>
    ∃ once, alternatives = starAlternatives owner once ∧ Flattens grammar productions content once
  | .plus content, alternatives =>
    ∃ once, alternatives = plusAlternatives owner once ∧ Flattens grammar productions content once
  | rule, alternatives =>
    ∃ atoms, alternatives = [atoms] ∧ Flattens grammar productions rule atoms

/-- Every rule of the grammar is flattened to the alternatives of the nonterminal with its place. -/
def Flattened : Prop :=
  ∀ name index rule, grammar.indexOf? name = some index → grammar.rule? name = some rule →
    Alternates grammar productions ⟨index⟩ rule (productions ⟨index⟩)

end Relation

variable {grammar : Grammar} {productions : Productions}

/-! ## The productions derive the rules -/

/-- What a row derives, and then what the nonterminal does, if that is one of its alternatives. -/
theorem mul_language_le_of_mem {part : Nonterminal} {once : List Atom}
    (h : once ++ [.nonterminal part] ∈ productions part) :
    Atom.languageOfRow productions.language once * productions.language part
      ≤ productions.language part := by
  have hle := Productions.languageOfRow_le_language h
  rwa [Atom.languageOfRow_append, Atom.languageOfRow_nonterminal] at hle

/-- The language that a repetition of `once` has at least, given the alternatives of the nonterminal
that stands for it. -/
theorem kstar_le_language_of_starAlternatives {part : Nonterminal} {once : List Atom}
    (h : productions part = starAlternatives part once) :
    (Atom.languageOfRow productions.language once)∗ ≤ productions.language part := by
  have hmore : Atom.languageOfRow productions.language once * productions.language part
      ≤ productions.language part :=
    mul_language_le_of_mem (h ▸ List.mem_cons_self)
  have hnone : 1 ≤ productions.language part := by
    have hmem : [] ∈ productions part := by
      rw [h]
      exact List.mem_cons_of_mem _ List.mem_cons_self
    exact Productions.languageOfRow_le_language hmem
  -- The star is the least solution of what the alternatives say of the nonterminal.
  calc (Atom.languageOfRow productions.language once)∗
      = (Atom.languageOfRow productions.language once)∗ * 1 := (mul_one _).symm
    _ ≤ (Atom.languageOfRow productions.language once)∗ * productions.language part :=
        mul_le_mul' le_rfl hnone
    _ ≤ productions.language part := kstar_mul_le_self hmore

/-- The same for a repetition that is there at least once. -/
theorem mul_kstar_le_language_of_plusAlternatives {part : Nonterminal} {once : List Atom}
    (h : productions part = plusAlternatives part once) :
    Atom.languageOfRow productions.language once
      * (Atom.languageOfRow productions.language once)∗ ≤ productions.language part := by
  have hmore : Atom.languageOfRow productions.language once * productions.language part
      ≤ productions.language part :=
    mul_language_le_of_mem (h ▸ List.mem_cons_self)
  have honce : Atom.languageOfRow productions.language once ≤ productions.language part := by
    have hmem : once ∈ productions part := by
      rw [h]
      exact List.mem_cons_of_mem _ List.mem_cons_self
    exact Productions.languageOfRow_le_language hmem
  rw [← Language.mul_self_kstar_comm]
  exact (mul_le_mul' le_rfl honce).trans (kstar_mul_le_self hmore)

section Lower

/-- What the productions derive from the nonterminal of each name. -/
def derivedMeaning (grammar : Grammar) (productions : Productions) (name : String) :
    Language Char :=
  match grammar.indexOf? name with
  | some index => productions.language ⟨index⟩
  | none => 0

theorem derivedMeaning_of_indexOf? {name : String} {index : Nat}
    (h : grammar.indexOf? name = some index) :
    derivedMeaning grammar productions name = productions.language ⟨index⟩ := by
  rw [derivedMeaning, h]

mutual

/-- With the derived languages for the names, the language of an expression is below that of the
atoms that stand for it. -/
theorem Flattens.language_le :
    ∀ {rule : Rule} {atoms : List Atom}, Flattens grammar productions rule atoms →
      rule.language (derivedMeaning grammar productions)
        ≤ Atom.languageOfRow productions.language atoms
  | .blank, atoms, h => by
    rw [Flattens] at h
    rw [h]
    exact le_rfl
  | .literal text, atoms, h => by
    rw [Flattens] at h
    rw [h, Atom.languageOfRow_chars, Rule.language]
  | .pattern source flags, atoms, h => by
    rw [Flattens] at h
    obtain ⟨regex, hcompile, rfl⟩ := h
    rw [Atom.languageOfRow_cons, Atom.languageOfRow_nil, mul_one, Rule.language]
    rintro text ⟨regex', c, hcompile', hmatches, rfl⟩
    rw [hcompile, Except.ok.injEq] at hcompile'
    exact ⟨c, hcompile' ▸ hmatches, rfl⟩
  | .symbol name, atoms, h => by
    rw [Flattens] at h
    obtain ⟨index, hindex, rfl⟩ := h
    rw [Rule.language, Atom.languageOfRow_nonterminal, derivedMeaning_of_indexOf? hindex]
  | .sequence members, atoms, h => by
    rw [Flattens] at h
    rw [Rule.language]
    exact FlattensRow.language_le h
  | .choice members, atoms, h => by
    rw [Flattens] at h
    obtain ⟨part, rfl, heach⟩ := h
    rw [Rule.language, Atom.languageOfRow_nonterminal]
    exact FlattensEach.language_le heach fun _ hmem => hmem
  | .star content, atoms, h => by
    rw [Flattens] at h
    -- The part derives at least the repetitions of what its body derives.
    obtain ⟨part, once, rfl, hpart, honce⟩ := h
    rw [Rule.language, Atom.languageOfRow_nonterminal]
    exact (kstar_mono (Flattens.language_le honce)).trans
      (kstar_le_language_of_starAlternatives hpart)
  | .plus content, atoms, h => by
    rw [Flattens] at h
    obtain ⟨part, once, rfl, hpart, honce⟩ := h
    rw [Rule.language, Atom.languageOfRow_nonterminal]
    have hle := Flattens.language_le honce
    exact (mul_le_mul' hle (kstar_mono hle)).trans
      (mul_kstar_le_language_of_plusAlternatives hpart)

theorem FlattensRow.language_le :
    ∀ {members : List Rule} {atoms : List Atom}, FlattensRow grammar productions members atoms →
      Rule.languageOfRow (derivedMeaning grammar productions) members
        ≤ Atom.languageOfRow productions.language atoms
  | [], atoms, h => by
    rw [FlattensRow] at h
    rw [h]
    exact le_rfl
  | member :: rest, atoms, h => by
    rw [FlattensRow] at h
    obtain ⟨first, others, rfl, hfirst, hothers⟩ := h
    rw [Rule.languageOfRow, Atom.languageOfRow_append]
    exact mul_le_mul' (Flattens.language_le hfirst) (FlattensRow.language_le hothers)

theorem FlattensEach.language_le {part : Nonterminal} :
    ∀ {members : List Rule} {alternatives : List (List Atom)},
      FlattensEach grammar productions members alternatives →
      alternatives ⊆ productions part →
      Rule.languageOfAny (derivedMeaning grammar productions) members
        ≤ productions.language part
  | [], _, _, _ => bot_le
  | member :: rest, alternatives, h, hsub => by
    rw [FlattensEach] at h
    obtain ⟨first, others, rfl, hfirst, hothers⟩ := h
    rw [Rule.languageOfAny]
    -- Each member is below the part because its atoms are an alternative of it.
    refine sup_le ?_ (FlattensEach.language_le hothers fun _ hmem =>
      hsub (List.mem_cons_of_mem _ hmem))
    exact (Flattens.language_le hfirst).trans
      (Productions.languageOfRow_le_language (hsub List.mem_cons_self))

end

/-- The alternatives of a nonterminal that stand for an expression derive its language. -/
theorem Alternates.language_le {owner : Nonterminal} {rule : Rule}
    (h : Alternates grammar productions owner rule (productions owner)) :
    rule.language (derivedMeaning grammar productions) ≤ productions.language owner := by
  -- At the top of a rule the owner takes the place that a part takes inside it.
  have hsingle {rule : Rule} (h : ∃ atoms, productions owner = [atoms] ∧
      Flattens grammar productions rule atoms) :
      rule.language (derivedMeaning grammar productions) ≤ productions.language owner := by
    obtain ⟨atoms, howner, hatoms⟩ := h
    refine (Flattens.language_le hatoms).trans (Productions.languageOfRow_le_language ?_)
    rw [howner]
    exact List.mem_singleton_self atoms
  cases rule with
  | choice members =>
    rw [Rule.language]
    exact FlattensEach.language_le h fun _ hmem => hmem
  | star content =>
    obtain ⟨once, howner, honce⟩ := h
    rw [Rule.language]
    exact (kstar_mono (Flattens.language_le honce)).trans
      (kstar_le_language_of_starAlternatives howner)
  | plus content =>
    obtain ⟨once, howner, honce⟩ := h
    have hle := Flattens.language_le honce
    rw [Rule.language]
    exact (mul_le_mul' hle (kstar_mono hle)).trans
      (mul_kstar_le_language_of_plusAlternatives howner)
  | _ => exact hsingle h

end Lower

/-! ## The productions derive nothing else -/

section Upper

/-- What a nonterminal may stand for: the texts in the language of each expression that it could
have been introduced for. -/
structure Allowed (grammar : Grammar) (productions : Productions) (part : Nonterminal)
    (text : List Char) : Prop where
  rule (name : String) : grammar.indexOf? name = some part.index → text ∈ grammar.language name
  choice (members : List Rule) : FlattensEach grammar productions members (productions part) →
    text ∈ Rule.languageOfAny grammar.language members
  star (content : Rule) (once : List Atom) : productions part = starAlternatives part once →
    Flattens grammar productions content once → text ∈ (content.language grammar.language)∗
  plus (content : Rule) (once : List Atom) : productions part = plusAlternatives part once →
    Flattens grammar productions content once →
    text ∈ content.language grammar.language * (content.language grammar.language)∗

/-- The language of what a nonterminal may stand for. -/
def allowedMeaning (grammar : Grammar) (productions : Productions) (part : Nonterminal) :
    Language Char :=
  { text | Allowed grammar productions part text }

mutual

/-- The atoms of an expression stand for no more than its language, if their nonterminals stand for
no more than they may. -/
theorem Flattens.le_language :
    ∀ {rule : Rule} {atoms : List Atom}, Flattens grammar productions rule atoms →
      Atom.languageOfRow (allowedMeaning grammar productions) atoms
        ≤ rule.language grammar.language
  | .blank, atoms, h => by
    rw [Flattens] at h
    rw [h]
    exact le_rfl
  | .literal text, atoms, h => by
    rw [Flattens] at h
    rw [h, Atom.languageOfRow_chars, Rule.language]
  | .pattern source flags, atoms, h => by
    rw [Flattens] at h
    obtain ⟨regex, hcompile, rfl⟩ := h
    rw [Atom.languageOfRow_cons, Atom.languageOfRow_nil, mul_one, Rule.language]
    rintro text ⟨c, haccepts, rfl⟩
    exact ⟨regex, c, hcompile, haccepts, rfl⟩
  | .symbol name, atoms, h => by
    rw [Flattens] at h
    obtain ⟨index, hindex, rfl⟩ := h
    rw [Atom.languageOfRow_nonterminal, Rule.language]
    -- What a nonterminal may stand for was chosen so that each case here is one of its fields.
    exact fun text hallowed => hallowed.rule name hindex
  | .sequence members, atoms, h => by
    rw [Flattens] at h
    rw [Rule.language]
    exact FlattensRow.le_language h
  | .choice members, atoms, h => by
    rw [Flattens] at h
    obtain ⟨part, rfl, heach⟩ := h
    rw [Atom.languageOfRow_nonterminal, Rule.language]
    exact fun text hallowed => hallowed.choice members heach
  | .star content, atoms, h => by
    rw [Flattens] at h
    obtain ⟨part, once, rfl, hpart, honce⟩ := h
    rw [Atom.languageOfRow_nonterminal, Rule.language]
    exact fun text hallowed => hallowed.star content once hpart honce
  | .plus content, atoms, h => by
    rw [Flattens] at h
    obtain ⟨part, once, rfl, hpart, honce⟩ := h
    rw [Atom.languageOfRow_nonterminal, Rule.language]
    exact fun text hallowed => hallowed.plus content once hpart honce

theorem FlattensRow.le_language :
    ∀ {members : List Rule} {atoms : List Atom}, FlattensRow grammar productions members atoms →
      Atom.languageOfRow (allowedMeaning grammar productions) atoms
        ≤ Rule.languageOfRow grammar.language members
  | [], atoms, h => by
    rw [FlattensRow] at h
    rw [h]
    exact le_rfl
  | member :: rest, atoms, h => by
    rw [FlattensRow] at h
    obtain ⟨first, others, rfl, hfirst, hothers⟩ := h
    rw [Rule.languageOfRow, Atom.languageOfRow_append]
    exact mul_le_mul' (Flattens.le_language hfirst) (FlattensRow.le_language hothers)

end

/-- An alternative of a choice stands for one of its members. -/
theorem FlattensEach.le_language {members : List Rule} {alternatives : List (List Atom)}
    (h : FlattensEach grammar productions members alternatives) {alternative : List Atom}
    (hmem : alternative ∈ alternatives) :
    Atom.languageOfRow (allowedMeaning grammar productions) alternative
      ≤ Rule.languageOfAny grammar.language members := by
  induction members generalizing alternatives with
  | nil =>
    rw [FlattensEach] at h
    rw [h] at hmem
    exact absurd hmem List.not_mem_nil
  | cons member rest ih =>
    rw [FlattensEach] at h
    obtain ⟨first, others, rfl, hfirst, hothers⟩ := h
    rw [Rule.languageOfAny]
    rcases List.mem_cons.mp hmem with rfl | hmem
    · exact (Flattens.le_language hfirst).trans le_sup_left
    · exact (ih hothers hmem).trans le_sup_right

/-- An alternative of a repetition stands for some number of repetitions. -/
theorem languageOfRow_le_kstar {part : Nonterminal} {once alternative : List Atom} {content : Rule}
    (hpart : productions part = starAlternatives part once)
    (honce : Flattens grammar productions content once)
    (hmem : alternative ∈ productions part) :
    Atom.languageOfRow (allowedMeaning grammar productions) alternative
      ≤ (content.language grammar.language)∗ := by
  -- One more repetition in front of any number of them is again a number of repetitions.
  have hmore : Atom.languageOfRow (allowedMeaning grammar productions)
      (once ++ [.nonterminal part]) ≤ (content.language grammar.language)∗ := by
    rw [Atom.languageOfRow_append, Atom.languageOfRow_nonterminal]
    refine (mul_le_mul' (Flattens.le_language honce) fun text hallowed =>
      hallowed.star content once hpart honce).trans ?_
    exact mul_kstar_le_kstar
  rw [hpart, starAlternatives] at hmem
  rcases List.mem_cons.mp hmem with rfl | hmem
  · exact hmore
  · rw [List.mem_singleton.mp hmem]
    exact one_le_kstar

/-- An alternative of a repetition that is there at least once stands for at least one. -/
theorem languageOfRow_le_mul_kstar {part : Nonterminal} {once alternative : List Atom}
    {content : Rule} (hpart : productions part = plusAlternatives part once)
    (honce : Flattens grammar productions content once)
    (hmem : alternative ∈ productions part) :
    Atom.languageOfRow (allowedMeaning grammar productions) alternative
      ≤ content.language grammar.language * (content.language grammar.language)∗ := by
  have hle := Flattens.le_language honce
  -- Once more, and then the part again.
  have hmore : Atom.languageOfRow (allowedMeaning grammar productions)
      (once ++ [.nonterminal part])
        ≤ content.language grammar.language * (content.language grammar.language)∗ := by
    rw [Atom.languageOfRow_append, Atom.languageOfRow_nonterminal]
    have hfewer : content.language grammar.language * (content.language grammar.language)∗
        ≤ (content.language grammar.language)∗ := mul_kstar_le_kstar
    exact mul_le_mul' hle fun text hallowed =>
      hfewer (hallowed.plus content once hpart honce)
  rw [hpart, plusAlternatives] at hmem
  rcases List.mem_cons.mp hmem with rfl | hmem
  · exact hmore
  · rw [List.mem_singleton.mp hmem]
    calc Atom.languageOfRow (allowedMeaning grammar productions) once
        ≤ content.language grammar.language := hle
      _ = content.language grammar.language * 1 := (mul_one _).symm
      _ ≤ content.language grammar.language * (content.language grammar.language)∗ :=
          mul_le_mul' le_rfl one_le_kstar

/-- The alternatives of the nonterminal of a rule stand for no more than the rule. -/
theorem Alternates.le_language {owner : Nonterminal} {rule : Rule}
    (h : Alternates grammar productions owner rule (productions owner)) {alternative : List Atom}
    (hmem : alternative ∈ productions owner) :
    Atom.languageOfRow (allowedMeaning grammar productions) alternative
      ≤ rule.language grammar.language := by
  have hsingle {rule : Rule} (h : ∃ atoms, productions owner = [atoms] ∧
      Flattens grammar productions rule atoms) :
      Atom.languageOfRow (allowedMeaning grammar productions) alternative
        ≤ rule.language grammar.language := by
    obtain ⟨atoms, howner, hatoms⟩ := h
    rw [howner] at hmem
    rw [List.mem_singleton.mp hmem]
    exact Flattens.le_language hatoms
  cases rule with
  | choice members =>
    rw [Rule.language]
    exact FlattensEach.le_language h hmem
  | star content =>
    obtain ⟨once, howner, honce⟩ := h
    rw [Rule.language]
    exact languageOfRow_le_kstar howner honce hmem
  | plus content =>
    obtain ⟨once, howner, honce⟩ := h
    rw [Rule.language]
    exact languageOfRow_le_mul_kstar howner honce hmem
  | _ => exact hsingle h

/-- What nonterminals may stand for solves the inequations of the productions. -/
theorem languageOfRow_le_allowedMeaning (hflattened : Flattened grammar productions)
    {part : Nonterminal} {alternative : List Atom} (hmem : alternative ∈ productions part) :
    Atom.languageOfRow (allowedMeaning grammar productions) alternative
      ≤ allowedMeaning grammar productions part := by
  intro text htext
  -- A nonterminal may have been introduced for several expressions; the text is in each language.
  constructor
  · intro name hindex
    obtain ⟨rule, hget⟩ := Grammar.indexOf?_eq_some_iff.mp hindex
    have hrule := Grammar.rule?_of_getElem? hget
    rw [Grammar.language_eq hrule]
    exact (hflattened name part.index rule hindex hrule).le_language hmem htext
  · exact fun members heach => heach.le_language hmem htext
  · exact fun content once hpart honce => languageOfRow_le_kstar hpart honce hmem htext
  · exact fun content once hpart honce => languageOfRow_le_mul_kstar hpart honce hmem htext

end Upper

/-- **Flattening keeps the languages of the rules.** -/
theorem language_eq_of_flattened (hflattened : Flattened grammar productions) {name : String}
    {index : Nat} (hindex : grammar.indexOf? name = some index) :
    productions.language ⟨index⟩ = grammar.language name := by
  -- Both are least fixed points, so each is below the other when the other solves its inequations.
  refine le_antisymm ?_ ?_
  · have hle : productions.language ⟨index⟩ ≤ allowedMeaning grammar productions ⟨index⟩ :=
      Productions.language_le
        (fun part alternative hmem => languageOfRow_le_allowedMeaning hflattened hmem) ⟨index⟩
    exact fun text htext => (hle htext).rule name hindex
  · have hle : grammar.language ≤ derivedMeaning grammar productions := by
      refine Grammar.language_le fun name rule hrule => ?_
      obtain ⟨index, hget⟩ := Grammar.exists_getElem?_of_rule? hrule
      have hindex := Grammar.indexOf?_eq_some_iff.mpr ⟨rule, hget⟩
      rw [derivedMeaning_of_indexOf? hindex]
      exact (hflattened name index rule hindex hrule).language_le
    rw [← derivedMeaning_of_indexOf? hindex]
    exact hle name

end Gll.Lowering
