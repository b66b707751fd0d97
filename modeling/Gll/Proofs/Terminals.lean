import Gll.Proofs.Faults
import Gll.Proofs.PartNames

/-!
What the terminals of a program test.

Every terminal stands in a right-hand side that was made of an expression, of a rule or of a part of
one, and comes from a leaf of it: a character from a literal, and a pattern from a pattern. The
leaves of a part are among those of its rule. So nothing is tested at a label that is not written in
the grammar (`Program.Introduces.exists_leaf_of_slot`).
-/

set_option autoImplicit false

namespace Gll

/-! ## Leaves of parts -/

mutual

theorem Rule.leaves_subset_of_mem_parts {rule part : Rule} (h : part ∈ rule.parts) :
    part.leaves ⊆ rule.leaves := by
  match rule with
  | .blank | .literal _ | .pattern _ _ | .symbol _ => cases h
  | .sequence members =>
    rw [Rule.parts] at h
    rw [Rule.leaves]
    exact Rule.leaves_subset_of_mem_partsOfAll h
  | .choice members =>
    rw [Rule.parts] at h
    rcases List.mem_cons.mp h with rfl | h
    · exact List.Subset.refl _
    · rw [Rule.leaves]
      exact Rule.leaves_subset_of_mem_partsOfAll h
  | .star content =>
    rw [Rule.parts] at h
    rcases List.mem_cons.mp h with rfl | h
    · exact List.Subset.refl _
    · rw [Rule.leaves]
      exact Rule.leaves_subset_of_mem_parts h
  | .plus content =>
    rw [Rule.parts] at h
    rcases List.mem_cons.mp h with rfl | h
    · exact List.Subset.refl _
    · rw [Rule.leaves]
      exact Rule.leaves_subset_of_mem_parts h

theorem Rule.leaves_subset_of_mem_partsOfAll {members : List Rule} {part : Rule}
    (h : part ∈ Rule.partsOfAll members) : part.leaves ⊆ Rule.leavesOfAll members := by
  match members with
  | [] => cases h
  | member :: rest =>
    rw [Rule.partsOfAll] at h
    rw [Rule.leavesOfAll]
    rcases List.mem_append.mp h with h | h
    · exact List.subset_append_of_subset_left _ (Rule.leaves_subset_of_mem_parts h)
    · exact List.subset_append_of_subset_right _ (Rule.leaves_subset_of_mem_partsOfAll h)

end

theorem Rule.innerParts_subset_parts (rule : Rule) : rule.innerParts ⊆ rule.parts := by
  cases rule with
  | choice members => exact List.subset_cons_self _ _
  | star content => exact List.subset_cons_self _ _
  | plus content => exact List.subset_cons_self _ _
  | blank | literal _ | pattern _ _ | symbol _ | sequence _ => exact List.Subset.refl _

theorem mem_leavesOfRules {rules : List (String × Rule)} {name : String} {rule : Rule} {leaf : Leaf}
    (hrule : (name, rule) ∈ rules) (hleaf : leaf ∈ rule.leaves) :
    (name, leaf) ∈ leavesOfRules rules :=
  List.mem_flatMap.mpr ⟨(name, rule), hrule, List.mem_map_of_mem hleaf⟩

/-! ## Terminals of right-hand sides -/

/-- A test that a leaf asks for. -/
inductive Leaf.Tests : Leaf → Matcher → Prop where
  | char {text : String} {c : Char} (h : c ∈ text.toList) : Tests (.literal text) (.char c)
  | pattern {source : String} {flags : Option String} {regex : Pattern}
      (h : Pattern.compile source flags = .ok regex) :
      Tests (.pattern source flags) (.pattern regex)

namespace Lowering

variable {grammar : Grammar} {productions : Productions} {matcher : Matcher}

mutual

theorem Flattens.exists_leaf {rule : Rule} {atoms : List Atom}
    (h : Flattens grammar productions rule atoms) (hmem : .terminal matcher ∈ atoms) :
    ∃ leaf ∈ rule.leaves, leaf.Tests matcher := by
  match rule with
  | .blank =>
    rw [Flattens] at h
    rw [h] at hmem
    cases hmem
  | .literal text =>
    rw [Flattens] at h
    rw [h] at hmem
    obtain ⟨c, hc, heq⟩ := List.mem_map.mp hmem
    obtain rfl := Atom.terminal.inj heq
    exact ⟨_, List.mem_singleton_self _, .char hc⟩
  | .pattern source flags =>
    rw [Flattens] at h
    obtain ⟨regex, hregex, rfl⟩ := h
    obtain rfl := Atom.terminal.inj (List.mem_singleton.mp hmem)
    exact ⟨_, List.mem_singleton_self _, .pattern hregex⟩
  | .symbol name =>
    rw [Flattens] at h
    obtain ⟨index, -, rfl⟩ := h
    cases List.mem_singleton.mp hmem
  | .sequence members =>
    rw [Flattens] at h
    rw [Rule.leaves]
    exact FlattensRow.exists_leaf h hmem
  -- A choice or a repetition is a nonterminal here; its own right-hand sides have the tests.
  | .choice members =>
    rw [Flattens] at h
    obtain ⟨part, rfl, -⟩ := h
    cases List.mem_singleton.mp hmem
  | .star content =>
    rw [Flattens] at h
    obtain ⟨part, once, rfl, -⟩ := h
    cases List.mem_singleton.mp hmem
  | .plus content =>
    rw [Flattens] at h
    obtain ⟨part, once, rfl, -⟩ := h
    cases List.mem_singleton.mp hmem

theorem FlattensRow.exists_leaf {members : List Rule} {atoms : List Atom}
    (h : FlattensRow grammar productions members atoms) (hmem : .terminal matcher ∈ atoms) :
    ∃ leaf ∈ Rule.leavesOfAll members, leaf.Tests matcher := by
  match members with
  | [] =>
    rw [FlattensRow] at h
    rw [h] at hmem
    cases hmem
  | member :: rest =>
    rw [FlattensRow] at h
    obtain ⟨first, others, rfl, hfirst, hothers⟩ := h
    rw [Rule.leavesOfAll]
    rcases List.mem_append.mp hmem with hmem | hmem
    · obtain ⟨leaf, hleaf, htests⟩ := Flattens.exists_leaf hfirst hmem
      exact ⟨leaf, List.mem_append_left _ hleaf, htests⟩
    · obtain ⟨leaf, hleaf, htests⟩ := FlattensRow.exists_leaf hothers hmem
      exact ⟨leaf, List.mem_append_right _ hleaf, htests⟩

end

theorem FlattensEach.exists_leaf {members : List Rule} {alternatives : List (List Atom)}
    (h : FlattensEach grammar productions members alternatives) {alternative : List Atom}
    (halternative : alternative ∈ alternatives) (hmem : .terminal matcher ∈ alternative) :
    ∃ leaf ∈ Rule.leavesOfAll members, leaf.Tests matcher := by
  induction members generalizing alternatives with
  | nil =>
    rw [FlattensEach] at h
    rw [h] at halternative
    cases halternative
  | cons member rest ih =>
    rw [FlattensEach] at h
    obtain ⟨first, others, rfl, hfirst, hothers⟩ := h
    rw [Rule.leavesOfAll]
    rcases List.mem_cons.mp halternative with rfl | halternative
    · obtain ⟨leaf, hleaf, htests⟩ := hfirst.exists_leaf hmem
      exact ⟨leaf, List.mem_append_left _ hleaf, htests⟩
    · obtain ⟨leaf, hleaf, htests⟩ := ih hothers halternative
      exact ⟨leaf, List.mem_append_right _ hleaf, htests⟩

/-- What a repetition tests is tested each time. -/
theorem terminal_mem_of_mem_repetition {owner : Nonterminal} {once alternative : List Atom}
    (h : alternative ∈ starAlternatives owner once ∨ alternative ∈ plusAlternatives owner once)
    (hmem : .terminal matcher ∈ alternative) : .terminal matcher ∈ once := by
  have hbefore : .terminal matcher ∈ once ++ [.nonterminal owner] → .terminal matcher ∈ once := by
    simp
  simp only [starAlternatives, plusAlternatives, List.mem_cons, List.not_mem_nil, or_false] at h
  rcases h with (rfl | rfl) | (rfl | rfl)
  · exact hbefore hmem
  · cases hmem
  · exact hbefore hmem
  · exact hmem

/-- What a right-hand side tests is written in the expression for which it stands. -/
theorem Alternates.exists_leaf {owner : Nonterminal} {rule : Rule}
    {alternatives : List (List Atom)}
    (h : Alternates grammar productions owner rule alternatives) {alternative : List Atom}
    (halternative : alternative ∈ alternatives) (hmem : .terminal matcher ∈ alternative) :
    ∃ leaf ∈ rule.leaves, leaf.Tests matcher := by
  cases rule with
  | choice members =>
    rw [Rule.leaves]
    exact FlattensEach.exists_leaf h halternative hmem
  | star content =>
    obtain ⟨once, rfl, honce⟩ := h
    rw [Rule.leaves]
    exact honce.exists_leaf (terminal_mem_of_mem_repetition (.inl halternative) hmem)
  | plus content =>
    obtain ⟨once, rfl, honce⟩ := h
    rw [Rule.leaves]
    exact honce.exists_leaf (terminal_mem_of_mem_repetition (.inr halternative) hmem)
  | blank | literal _ | pattern _ _ | symbol _ | sequence _ =>
    obtain ⟨atoms, rfl, hatoms⟩ := h
    obtain rfl := List.mem_singleton.mp halternative
    exact hatoms.exists_leaf hmem

end Lowering

/-! ## Terminals of programs -/

namespace Program

open Lowering

variable {program : Program} {grammar : Grammar} {parts : List Part} {matcher : Matcher}

theorem Laid.exists_atoms_of_slot (hlaid : program.Laid) {label : Label} {slot : Slot}
    (hslot : program.slot? label = some slot) (hterminal : slot.instruction = .terminal matcher) :
    ∃ owner, ∃ atoms ∈ program.rightHandSides owner, .terminal matcher ∈ atoms := by
  obtain ⟨owner, before, after, hitem⟩ := hlaid.exists_item hslot
  -- A slot with a test is neither the accepting one nor the end of a right-hand side.
  cases owner with
  | none =>
    obtain ⟨rfl, -, -⟩ := hitem.eq_accept
    obtain rfl := Option.some.inj (hlaid.accept.symm.trans hslot)
    cases hterminal
  | some owner =>
    cases after with
    | nil =>
      obtain rfl := Option.some.inj (hitem.slot?_nil.symm.trans hslot)
      cases hterminal
    | cons atom after =>
      obtain rfl := Option.some.inj (hitem.slot?_cons.symm.trans hslot)
      cases atom with
      | terminal _ =>
        obtain rfl := Instruction.terminal.inj hterminal
        exact ⟨owner, _, hitem.mem_rightHandSides,
          List.mem_append_right _ List.mem_cons_self⟩
      | nonterminal _ => cases hterminal

/-- A part is one of the parts of its rule. -/
theorem Introduces.exists_rule_of_part (h : program.Introduces grammar parts) {part : Part}
    (hpart : part ∈ parts) :
    ∃ rule, (part.rule, rule) ∈ grammar.rules ∧ part.content ∈ rule.innerParts := by
  have horigin : part.origin ∈ partsOfRules grammar.rules := by
    rw [← h.origins]
    exact List.mem_map_of_mem hpart
  obtain ⟨⟨name, rule⟩, hentry, hinner⟩ := List.mem_flatMap.mp horigin
  obtain ⟨content, hcontent, heq⟩ := List.mem_map.mp hinner
  obtain ⟨rfl, rfl⟩ := Prod.mk.inj heq
  exact ⟨rule, hentry, hcontent⟩

theorem Introduces.exists_leaf_of_mem (h : program.Introduces grammar parts)
    {owner : Nonterminal} {atoms : List Atom} (hatoms : atoms ∈ program.rightHandSides owner)
    (hmem : .terminal matcher ∈ atoms) :
    ∃ entry ∈ leavesOfRules grammar.rules, entry.2.Tests matcher := by
  have hlt : owner.index < program.nonterminalCount := by
    by_contra hge
    have hnone : program.entries? owner = none :=
      Array.getElem?_eq_none (Nat.le_of_not_lt hge)
    rw [rightHandSides, hnone] at hatoms
    cases hatoms
  rw [h.nonterminalCount] at hlt
  -- The owner is a rule, or it is a part, and then its leaves are leaves of the rule of the part.
  by_cases hrule : owner.index < grammar.rules.length
  · obtain ⟨⟨name, rule⟩, hentry⟩ : ∃ entry, grammar.rules[owner.index]? = some entry :=
      ⟨_, List.getElem?_eq_getElem hrule⟩
    have halternates := h.ofRules owner.index rule (by rw [List.getElem?_map, hentry]; rfl)
    rw [Nat.zero_add] at halternates
    obtain ⟨leaf, hleaf, htests⟩ := halternates.exists_leaf hatoms hmem
    exact ⟨(name, leaf), mem_leavesOfRules (List.mem_of_getElem? hentry) hleaf, htests⟩
  · obtain ⟨part, hpart⟩ : ∃ part, parts[owner.index - grammar.rules.length]? = some part :=
      ⟨_, List.getElem?_eq_getElem (by omega)⟩
    have halternates := h.ofParts _ part.content (by rw [List.getElem?_map, hpart]; rfl)
    rw [Nat.add_sub_of_le (Nat.le_of_not_lt hrule)] at halternates
    obtain ⟨leaf, hleaf, htests⟩ := halternates.exists_leaf hatoms hmem
    obtain ⟨rule, hentry, hinner⟩ := h.exists_rule_of_part (List.mem_of_getElem? hpart)
    have hsubset := Rule.leaves_subset_of_mem_parts (rule.innerParts_subset_parts hinner)
    exact ⟨(part.rule, leaf), mem_leavesOfRules hentry (hsubset hleaf), htests⟩

/-- What is tested at a label is written in the grammar. -/
theorem Introduces.exists_leaf_of_slot (h : program.Introduces grammar parts)
    (hlaid : program.Laid) {label : Label} {slot : Slot} (hslot : program.slot? label = some slot)
    (hterminal : slot.instruction = .terminal matcher) :
    ∃ entry ∈ leavesOfRules grammar.rules, entry.2.Tests matcher := by
  obtain ⟨owner, atoms, hatoms, hmem⟩ := hlaid.exists_atoms_of_slot hslot hterminal
  exact h.exists_leaf_of_mem hatoms hmem

end Program

end Gll
