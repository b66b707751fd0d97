import Gll.Proofs.Flattening
import Gll.Proofs.Layout
import Gll.Proofs.Naming
import Gll.Proofs.Runs

/-!
The compiler of grammars, and the languages of the programs that it makes.

Compiling goes through the rules with a draft that only grows: nonterminals are added, each is given
its alternatives once, and names keep their numbers. So what one call adds can be said once and for
all of the productions in the end: `Draft.Extends` says what a call leaves alone, and
`Draft.SettledIn` that some productions hold what the draft has from a number on. Each call then has
one lemma, of the form "the draft is extended, and in all productions that hold what was added, the
atoms stand for the expression". The productions are quantified over because the call does not see
the end: the nonterminal of a nested choice is reserved before its members are flattened and gets
its alternatives after them.

The main theorem is `compile_language`: of a grammar that compiles, each rule has a nonterminal, and
what the slots derive from it is the language of the rule.
-/

set_option autoImplicit false

namespace Gll.Lowering

/-! ## Steps of the compilation -/

theorem throw_ne_ok {α : Type} {error : LowerError} {draft draft' : Draft} {b : α} :
    (throw error : Lower α) draft ≠ .ok (b, draft') := by
  simp [throw, throwThe, MonadExceptOf.throw, StateT.lift, Except.bind, bind]

namespace Draft

/-- The patterns that a draft has kept are what compiling them gives. -/
def Remembers (draft : Draft) : Prop :=
  ∀ source flags regex, draft.patterns[(source, flags)]? = some regex →
    Pattern.compile source flags = .ok regex

/-- A draft has all that an earlier one had: its nonterminals with their alternatives, its names
with their numbers, tables that are in step, and patterns that are right. -/
structure Extends (draft draft' : Draft) : Prop where
  size : draft.productions.size ≤ draft'.productions.size
  productions (i : Nat) : i < draft.productions.size →
    draft'.productions[i]? = draft.productions[i]?
  names (name : String) (id : NameId) : draft.names.find? name = some id →
    draft'.names.find? name = some id
  inStep : draft.InStep → draft'.InStep
  remembers : draft.Remembers → draft'.Remembers

theorem Extends.refl (draft : Draft) : draft.Extends draft :=
  ⟨Nat.le_refl _, fun _ _ => rfl, fun _ _ h => h, fun h => h, fun h => h⟩

theorem Extends.trans {draft between draft' : Draft} (h : draft.Extends between)
    (h' : between.Extends draft') : draft.Extends draft' where
  size := h.size.trans h'.size
  productions i hi := (h'.productions i (hi.trans_le h.size)).trans (h.productions i hi)
  names name id hname := h'.names name id (h.names name id hname)
  inStep hinStep := h'.inStep (h.inStep hinStep)
  remembers hremembers := h'.remembers (h.remembers hremembers)

/-- The productions hold what a draft has from a number on. -/
def SettledIn (draft : Draft) (start : Nat) (productions : Productions) : Prop :=
  ∀ i, start ≤ i → i < draft.productions.size →
    draft.productions[i]? = some (productions ⟨i⟩)

/-- What is settled in the end was settled on the way. -/
theorem SettledIn.of_extends {draft draft' : Draft} {start : Nat} {productions : Productions}
    (h : draft'.SettledIn start productions) (hextends : draft.Extends draft') :
    draft.SettledIn start productions := by
  intro i hstart hi
  rw [← hextends.productions i hi]
  exact h i hstart (hi.trans_le hextends.size)

theorem SettledIn.mono {draft : Draft} {start start' : Nat} {productions : Productions}
    (h : draft.SettledIn start productions) (hle : start ≤ start') :
    draft.SettledIn start' productions :=
  fun i hstart hi => h i (hle.trans hstart) hi

end Draft

open Draft

/-- A step of the compilation that extends the draft, and of whose result something is true in all
productions that hold what it added. -/
def Ensures {α : Type} (step : Lower α) (holds : Productions → α → Prop) : Prop :=
  ∀ (draft draft' : Draft) (a : α), step draft = .ok (a, draft') → draft.Remembers →
    draft.Extends draft' ∧
      ∀ productions, draft'.SettledIn draft.productions.size productions → holds productions a

theorem ensures_pure {α : Type} {holds : Productions → α → Prop} {a : α}
    (h : ∀ productions, holds productions a) : Ensures (pure a) holds := by
  intro draft draft' b hstep _
  obtain ⟨rfl, rfl⟩ := of_run_pure hstep
  exact ⟨.refl draft, fun productions _ => h productions⟩

theorem ensures_throw {α : Type} {holds : Productions → α → Prop} (error : LowerError) :
    Ensures (throw error : Lower α) holds :=
  fun _ _ _ hstep => absurd hstep throw_ne_ok

/-- One step after the other: what the second ensures may depend on what the first has. -/
theorem ensures_bind {α β : Type} {first : Lower α} {next : α → Lower β}
    {holdsFirst : Productions → α → Prop} {holds : Productions → β → Prop}
    (hfirst : Ensures first holdsFirst)
    (hnext : ∀ a, Ensures (next a) fun productions b =>
      holdsFirst productions a → holds productions b) : Ensures (first >>= next) holds := by
  intro draft draft' b hstep hremembers
  obtain ⟨a, between, hone, htwo⟩ := exists_of_run_bind hstep
  obtain ⟨hextends, hholds⟩ := hfirst _ _ _ hone hremembers
  obtain ⟨hextends', hholds'⟩ := hnext a _ _ _ htwo (hextends.remembers hremembers)
  refine ⟨hextends.trans hextends', fun productions hsettled => ?_⟩
  exact hholds' productions (hsettled.mono hextends.size)
    (hholds productions (hsettled.of_extends hextends'))

/-! ## Nonterminals for parts -/

theorem reserve_eq_ok {rule : String} {draft draft' : Draft} {part : Nonterminal}
    (h : reserve rule draft = .ok (part, draft')) :
    part = ⟨draft.productions.size⟩ ∧ draft'.productions = draft.productions.push [] ∧
      draft'.patterns = draft.patterns ∧
      ∀ name id, draft.names.find? name = some id → draft'.names.find? name = some id := by
  simp only [reserve, Except.ok.injEq, Prod.mk.injEq] at h
  obtain ⟨rfl, rfl⟩ := h
  exact ⟨rfl, rfl, rfl, fun _ _ hname => NameTable.find?_intern_of_find? hname⟩

theorem settle_eq_ok {part : Nonterminal} {alternatives : List (List Atom)} {draft draft' : Draft}
    (h : settle part alternatives draft = .ok ((), draft')) :
    draft' = { draft with
      productions := draft.productions.setIfInBounds part.index alternatives } := by
  simp only [settle, modify, modifyGet, MonadStateOf.modifyGet, StateT.modifyGet, pure,
    Except.pure, Except.ok.injEq, Prod.mk.injEq, true_and] at h
  exact h.symm

/-- When a nonterminal that was reserved behind others has got its alternatives, productions that
hold all of this hold the alternatives, and what was flattened in between. -/
theorem Draft.SettledIn.of_part {filled : Draft} {start : Nat} {alternatives : List (List Atom)}
    {productions : Productions} (hstart : start < filled.productions.size)
    (h : Draft.SettledIn { filled with
      productions := filled.productions.setIfInBounds start alternatives } start productions) :
    productions ⟨start⟩ = alternatives ∧ filled.SettledIn (start + 1) productions := by
  constructor
  · have hget := h start (Nat.le_refl _) (by rw [Array.size_setIfInBounds]; exact hstart)
    rw [Array.getElem?_setIfInBounds_self_of_lt hstart] at hget
    exact (Option.some.inj hget).symm
  · intro i hi hlt
    have hget := h i (Nat.le_of_succ_le hi) (by rw [Array.size_setIfInBounds]; exact hlt)
    rwa [Array.getElem?_setIfInBounds_ne (Nat.ne_of_lt hi)] at hget

/-- A nonterminal is introduced for a part, and what is flattened meanwhile gives its
alternatives. -/
theorem ensures_part {α : Type} {rule : String} {content : Lower α}
    (alternatives : Nonterminal → α → List (List Atom)) {holdsContent : Productions → α → Prop}
    {holds : Productions → List Atom → Prop} (hcontent : Ensures content holdsContent)
    (h : ∀ productions part a, productions part = alternatives part a →
      holdsContent productions a → holds productions [.nonterminal part]) :
    Ensures (do
      let part ← reserve rule
      settle part (alternatives part (← content))
      return [.nonterminal part]) holds := by
  intro draft draft' atoms hstep hremembers
  obtain ⟨part, reserved, hreserve, hstep⟩ := exists_of_run_bind hstep
  obtain ⟨a, filled, hfilled, hstep⟩ := exists_of_run_bind hstep
  obtain ⟨_, settled, hsettle, hstep⟩ := exists_of_run_bind hstep
  obtain ⟨rfl, rfl⟩ := of_run_pure hstep
  obtain ⟨rfl, hproductions, hpatterns, hnames⟩ := reserve_eq_ok hreserve
  -- The nonterminal is reserved first, so its number is the old size, and what its content adds
  -- lies behind that.
  have hremembers' : reserved.Remembers := by
    intro source flags regex hregex
    rw [hpatterns] at hregex
    exact hremembers source flags regex hregex
  obtain ⟨hextends, hholds⟩ := hcontent _ _ _ hfilled hremembers'
  rw [settle_eq_ok hsettle]
  have hsize : reserved.productions.size = draft.productions.size + 1 := by
    rw [hproductions, Array.size_push]
  have hle : draft.productions.size + 1 ≤ filled.productions.size := hsize ▸ hextends.size
  refine ⟨⟨?_, ?_, ?_, ?_, ?_⟩, ?_⟩
  · rw [Array.size_setIfInBounds]
    omega
  · intro i hi
    rw [Array.getElem?_setIfInBounds_ne (Nat.ne_of_gt hi), hextends.productions i (by omega),
      hproductions, Array.getElem?_push, if_neg (by omega)]
  · exact fun name id hname => hextends.names name id (hnames name id hname)
  · exact fun hinStep => (hextends.inStep (hinStep.reserve hreserve)).of_same rfl rfl
      Array.size_setIfInBounds
  · exact fun _ => hextends.remembers hremembers'
  · -- In the end the number of the part holds its alternatives, and all the others are as they were
    -- when the content was done.
    intro productions hsettled
    obtain ⟨hpart, hfilled⟩ := hsettled.of_part hle
    exact h productions _ a hpart (hholds productions (hsize ▸ hfilled))

/-- A pattern that is kept is not compiled again, but it is what compiling it would give. -/
theorem ensures_pattern (rule source : String) (flags : Option String) :
    Ensures (pattern rule source flags) fun _ regex =>
      Pattern.compile source flags = .ok regex := by
  intro draft draft' regex hstep hremembers
  rw [pattern] at hstep
  split at hstep
  -- A pattern is found because it was compiled before.
  · rename_i kept hkept
    simp only [Except.ok.injEq, Prod.mk.injEq] at hstep
    obtain ⟨rfl, rfl⟩ := hstep
    exact ⟨.refl draft, fun _ _ => hremembers source flags kept hkept⟩
  · split at hstep
    · rename_i compiled hcompile
      simp only [Except.ok.injEq, Prod.mk.injEq] at hstep
      obtain ⟨rfl, rfl⟩ := hstep
      -- It is compiled and kept; what was kept before stays, unless it is this pattern.
      refine ⟨⟨Nat.le_refl _, fun _ _ => rfl, fun _ _ h => h, fun h => h.of_same rfl rfl rfl, ?_⟩,
        fun _ _ => hcompile⟩
      intro _ source' flags' regex' hregex'
      rw [Std.HashMap.getElem?_insert] at hregex'
      split at hregex'
      · rename_i heq
        obtain ⟨rfl, rfl⟩ := Prod.mk.inj (eq_of_beq heq)
        rw [hcompile, ← Option.some.inj hregex']
      · exact hremembers source' flags' regex' hregex'
    · exact absurd hstep (by simp)
    · exact absurd hstep (by simp)

/-! ## Expressions -/

mutual

/-- The atoms that an expression is flattened to stand for it. -/
theorem ensures_atoms (grammar : Grammar) (name : String) :
    ∀ rule : Rule, Ensures (atoms grammar name rule) fun productions atoms =>
      Flattens grammar productions rule atoms
  | .blank => by
    rw [atoms]
    exact ensures_pure fun productions => by rw [Flattens]
  | .literal text => by
    rw [atoms]
    split
    · exact ensures_throw _
    · exact ensures_pure fun productions => by rw [Flattens]
  | .pattern source flags => by
    rw [atoms]
    refine ensures_bind (ensures_pattern name source flags) fun regex => ?_
    refine ensures_pure fun productions hcompile => ?_
    rw [Flattens]
    exact ⟨regex, hcompile, rfl⟩
  | .symbol reference => by
    rw [atoms]
    split
    · rename_i index hindex
      refine ensures_pure fun productions => ?_
      rw [Flattens]
      exact ⟨index, hindex, rfl⟩
    · exact ensures_throw _
  | .sequence members => by
    rw [atoms]
    intro draft draft' result hstep hremembers
    obtain ⟨hextends, hholds⟩ := ensures_atomsOfAll grammar name members _ _ _ hstep hremembers
    refine ⟨hextends, fun productions hsettled => ?_⟩
    dsimp only
    rw [Flattens]
    exact hholds productions hsettled
  | .choice members => by
    rw [atoms]
    refine ensures_part (fun _ each => each)
      (ensures_alternativesOfAll grammar name members) ?_
    intro productions part each hpart heach
    rw [Flattens]
    exact ⟨part, rfl, hpart ▸ heach⟩
  | .star content => by
    rw [atoms]
    refine ensures_part starAlternatives
      (ensures_atoms grammar name content) ?_
    intro productions part once hpart honce
    rw [Flattens]
    exact ⟨part, once, rfl, hpart, honce⟩
  | .plus content => by
    rw [atoms]
    refine ensures_part plusAlternatives
      (ensures_atoms grammar name content) ?_
    intro productions part once hpart honce
    rw [Flattens]
    exact ⟨part, once, rfl, hpart, honce⟩

theorem ensures_atomsOfAll (grammar : Grammar) (name : String) :
    ∀ members : List Rule, Ensures (atomsOfAll grammar name members) fun productions atoms =>
      FlattensRow grammar productions members atoms
  | [] => by
    rw [atomsOfAll]
    exact ensures_pure fun productions => by rw [FlattensRow]
  | member :: rest => by
    rw [atomsOfAll]
    refine ensures_bind (ensures_atoms grammar name member) fun first => ?_
    refine ensures_bind (ensures_atomsOfAll grammar name rest) fun others => ?_
    refine ensures_pure fun productions hothers hfirst => ?_
    rw [FlattensRow]
    exact ⟨first, others, rfl, hfirst, hothers⟩

theorem ensures_alternativesOfAll (grammar : Grammar) (name : String) :
    ∀ members : List Rule,
      Ensures (alternativesOfAll grammar name members) fun productions each =>
        FlattensEach grammar productions members each
  | [] => by
    rw [alternativesOfAll]
    exact ensures_pure fun productions => by rw [FlattensEach]
  | member :: rest => by
    rw [alternativesOfAll]
    refine ensures_bind (ensures_atoms grammar name member) fun first => ?_
    refine ensures_bind (ensures_alternativesOfAll grammar name rest) fun others => ?_
    refine ensures_pure fun productions hothers hfirst => ?_
    rw [FlattensEach]
    exact ⟨first, others, rfl, hfirst, hothers⟩

end

/-- The alternatives of a whole rule stand for it. -/
theorem ensures_alternatives (grammar : Grammar) (name : String) (owner : Nonterminal)
    (rule : Rule) : Ensures (alternatives grammar name owner rule) fun productions each =>
      Alternates grammar productions owner rule each := by
  have hsingle {rule : Rule} : Ensures (do return [← atoms grammar name rule])
      fun productions each => ∃ atoms, each = [atoms] ∧ Flattens grammar productions rule atoms :=
    ensures_bind (ensures_atoms grammar name rule) fun once =>
      ensures_pure fun productions honce => ⟨once, rfl, honce⟩
  cases rule with
  | choice members =>
    rw [alternatives]
    exact ensures_alternativesOfAll grammar name members
  | star content =>
    rw [alternatives]
    exact ensures_bind (ensures_atoms grammar name content) fun once =>
      ensures_pure fun productions honce => ⟨once, rfl, honce⟩
  | plus content =>
    rw [alternatives]
    exact ensures_bind (ensures_atoms grammar name content) fun once =>
      ensures_pure fun productions honce => ⟨once, rfl, honce⟩
  | _ => exact hsingle

/-! ## Rules -/

/-- The first of several rules is flattened with a counter of its own and gets its alternatives, and
then the other rules are compiled. -/
theorem exists_of_lowerRules_cons {grammar : Grammar} {index : Nat} {name : String} {rule : Rule}
    {rest : List (String × Rule)} {draft draft' : Draft}
    (h : lowerRules grammar index ((name, rule) :: rest) draft = .ok ((), draft')) :
    ∃ each flattened,
      alternatives grammar name ⟨index⟩ rule { draft with lastNumber := 0 }
        = .ok (each, flattened) ∧
      lowerRules grammar (index + 1) rest { flattened with
        productions := flattened.productions.setIfInBounds index each } = .ok ((), draft') := by
  rw [lowerRules] at h
  obtain ⟨_, counted, hcount, h⟩ := exists_of_run_bind h
  obtain ⟨each, flattened, halternatives, h⟩ := exists_of_run_bind h
  obtain ⟨_, settled, hsettle, hrest⟩ := exists_of_run_bind h
  have hcounted : counted = { draft with lastNumber := 0 } := by
    simp only [modify, modifyGet, MonadStateOf.modifyGet, StateT.modifyGet, pure, Except.pure,
      Except.ok.injEq, Prod.mk.injEq, true_and] at hcount
    exact hcount.symm
  rw [hcounted] at halternatives
  rw [settle_eq_ok hsettle] at hrest
  exact ⟨each, flattened, halternatives, hrest⟩

/-- The first of several rules gets its alternatives, and the other rules are compiled behind that.
-/
theorem lowerRules_cons {grammar : Grammar} {index : Nat} {name : String} {rule : Rule}
    {rest : List (String × Rule)} {draft draft' : Draft}
    (hstep : lowerRules grammar index ((name, rule) :: rest) draft = .ok ((), draft'))
    (hremembers : draft.Remembers) (hindex : index < draft.productions.size) :
    ∃ settled each, lowerRules grammar (index + 1) rest settled = .ok ((), draft') ∧
      settled.Remembers ∧ draft.productions.size ≤ settled.productions.size ∧
      (∀ i < draft.productions.size, index ≠ i →
        settled.productions[i]? = draft.productions[i]?) ∧
      (∀ other id, draft.names.find? other = some id → settled.names.find? other = some id) ∧
      settled.productions[index]? = some each ∧
      ∀ productions, settled.SettledIn draft.productions.size productions →
        Alternates grammar productions ⟨index⟩ rule each := by
  obtain ⟨each, flattened, halternatives, hrest⟩ := exists_of_lowerRules_cons hstep
  obtain ⟨hextends, hholds⟩ := ensures_alternatives grammar name ⟨index⟩ rule _ _ _ halternatives
    hremembers
  have hgrown : draft.productions.size ≤ flattened.productions.size := hextends.size
  have hother (i : Nat) (hi : index ≠ i) :
      (flattened.productions.setIfInBounds index each)[i]? = flattened.productions[i]? :=
    Array.getElem?_setIfInBounds_ne hi
  refine ⟨_, each, hrest, hextends.remembers hremembers, ?_, fun i hi hne => ?_,
    fun other id hname => hextends.names other id hname, ?_, ?_⟩
  · rw [Array.size_setIfInBounds]
    exact hgrown
  · exact (hother i hne).trans (hextends.productions i hi)
  · exact Array.getElem?_setIfInBounds_self_of_lt (Nat.lt_of_lt_of_le hindex hgrown)
  · -- The alternatives are settled in front of the parts that they needed.
    intro productions hpart
    refine hholds productions fun i hstart hi => ?_
    have hne : index ≠ i := Nat.ne_of_lt (Nat.lt_of_lt_of_le hindex hstart)
    rw [← hother i hne]
    exact hpart i hstart (by rw [Array.size_setIfInBounds]; exact hi)

/-- Compiling rules gives the nonterminals from a number on their alternatives and leaves the others
alone. -/
theorem lowerRules_spec (grammar : Grammar) {index : Nat} {rules : List (String × Rule)}
    {draft draft' : Draft} (hstep : lowerRules grammar index rules draft = .ok ((), draft'))
    (hremembers : draft.Remembers) (hsize : index + rules.length ≤ draft.productions.size) :
    draft.productions.size ≤ draft'.productions.size ∧
      (∀ i < draft.productions.size, i < index ∨ index + rules.length ≤ i →
        draft'.productions[i]? = draft.productions[i]?) ∧
      (∀ name id, draft.names.find? name = some id → draft'.names.find? name = some id) ∧
      ∀ productions, draft'.SettledIn index productions → ∀ (j : Nat) (name : String) (rule : Rule),
        rules[j]? = some (name, rule) →
          Alternates grammar productions ⟨index + j⟩ rule (productions ⟨index + j⟩) := by
  -- The rules before the index are done; parts that they need are put behind all rules.
  induction rules generalizing index draft with
  | nil =>
    rw [lowerRules] at hstep
    obtain ⟨-, rfl⟩ := of_run_pure hstep
    exact ⟨Nat.le_refl _, fun _ _ _ => rfl, fun _ _ h => h, fun _ _ j _ _ h => by simp at h⟩
  | cons head rest ih =>
    obtain ⟨name, rule⟩ := head
    rw [List.length_cons] at hsize
    obtain ⟨settled, each, hrest, hremembers', hgrown, hother, hfound, hown, hholds⟩ :=
      lowerRules_cons hstep hremembers (by omega)
    obtain ⟨hsize', hkeep, hnames, hlater⟩ := ih hrest hremembers' (by omega)
    refine ⟨by omega, fun i hi hout => ?_, fun name id hname => ?_, ?_⟩
    · rw [List.length_cons] at hout
      rw [hkeep i (by omega) (by omega), hother i hi (by omega)]
    · exact hnames name id (hfound name id hname)
    · intro productions hall j name' rule' hj
      cases j with
      | zero =>
        obtain ⟨rfl, rfl⟩ := Prod.mk.inj (Option.some.inj hj)
        have hvalue : productions ⟨index⟩ = each := by
          have hget := hall index (Nat.le_refl _) (by omega)
          rw [hkeep index (by omega) (by omega), hown] at hget
          exact (Option.some.inj hget).symm
        rw [Nat.add_zero, hvalue]
        -- The rest of the rules leaves alone what this one added.
        refine hholds productions fun i hstart hi => ?_
        rw [← hkeep i hi (by omega)]
        exact hall i (by omega) (by omega)
      | succ j =>
        have hnext := hlater productions
          (fun i hstart hi => hall i (by omega) hi) j name' rule' hj
        rwa [Nat.add_right_comm] at hnext

/-- Compiling rules leaves the tables in step. -/
theorem Draft.InStep.lowerRules {grammar : Grammar} {index : Nat} {rules : List (String × Rule)}
    {draft draft' : Draft} (h : draft.InStep) (hremembers : draft.Remembers)
    (hstep : Lowering.lowerRules grammar index rules draft = .ok ((), draft')) :
    draft'.InStep := by
  induction rules generalizing index draft with
  | nil =>
    rw [Lowering.lowerRules] at hstep
    obtain ⟨-, rfl⟩ := of_run_pure hstep
    exact h
  | cons head rest ih =>
    obtain ⟨name, rule⟩ := head
    obtain ⟨each, flattened, halternatives, hrest⟩ := exists_of_lowerRules_cons hstep
    obtain ⟨hextends, -⟩ := ensures_alternatives grammar name ⟨index⟩ rule _ _ _ halternatives
      hremembers
    have hcounted : Draft.InStep { draft with lastNumber := 0 } := h.of_same rfl rfl rfl
    have hflattened : flattened.InStep := hextends.inStep hcounted
    have hsettled : Draft.InStep { flattened with
        productions := flattened.productions.setIfInBounds index each } :=
      hflattened.of_same rfl rfl Array.size_setIfInBounds
    exact ih hsettled (hextends.remembers hremembers) hrest

/-- At first the names of the rules are interned, in their order. -/
theorem names_initial (grammar : Grammar) :
    (initial grammar).names = NameTable.empty.internAll (grammar.rules.map Prod.fst) :=
  fst_internRow _

theorem exact_initial (grammar : Grammar) : (initial grammar).names.Exact := by
  rw [names_initial]
  exact NameTable.exact_empty.internAll _

theorem toList_names_initial (grammar : Grammar) :
    (initial grammar).names.names.toList = grammar.rules.map Prod.fst := by
  rw [names_initial]
  exact NameTable.names_internAll_of_nodup grammar.nodup

/-- The names of the rules get the numbers of their places. -/
theorem find?_names_initial {grammar : Grammar} {index : Nat} {name : String} {rule : Rule}
    (h : grammar.rules[index]? = some (name, rule)) :
    (initial grammar).names.find? name = some ⟨index⟩ := by
  rw [exact_initial, NameTable.name?, ← Array.getElem?_toList, toList_names_initial,
    List.getElem?_map, h]
  rfl

end Gll.Lowering

namespace Gll.Program

open Lowering

/-! ## Programs -/

/-- What a program that was compiled is made of. -/
theorem compile_eq_ok {grammar : Grammar} {program : Program}
    (h : Program.compile grammar = .ok program) :
    ∃ name start draft, grammar.startRule? = some name ∧ grammar.indexOf? name = some start ∧
      lowerRules grammar 0 grammar.rules (initial grammar) = .ok ((), draft) ∧
      program = ⟨draft.names, draft.symbols,
        (Layout.ofProductions draft.productions.toList).entries,
        (Layout.ofProductions draft.productions.toList).slots, ⟨start⟩, grammar.rules.length⟩ := by
  rw [Program.compile] at h
  -- Each of the three things that may fail must have gone well.
  cases hname : grammar.startRule? with
  | none =>
    rw [hname] at h
    simp [Option.elim, throw, throwThe, MonadExceptOf.throw, bind, Except.bind] at h
  | some name =>
    cases hstart : grammar.indexOf? name with
    | none =>
      rw [hname] at h
      simp [hstart, Option.elim, throw, throwThe, MonadExceptOf.throw, bind, Except.bind, pure,
        Except.pure] at h
    | some start =>
      cases hrun : lowerRules grammar 0 grammar.rules (initial grammar) with
      | error error =>
        rw [hname] at h
        simp [hstart, hrun, StateT.run, Option.elim, bind, Except.bind, pure, Except.pure] at h
      | ok result =>
        obtain ⟨⟨⟩, draft⟩ := result
        rw [hname] at h
        simp only [hstart, hrun, StateT.run, Option.elim, bind, Except.bind, pure, Except.pure,
          Except.ok.injEq] at h
        exact ⟨name, start, draft, rfl, hstart, rfl, h.symm⟩

/-- The slots of a program that was compiled are those of items. -/
theorem laid_of_compile {grammar : Grammar} {program : Program}
    (h : Program.compile grammar = .ok program) : program.Laid := by
  obtain ⟨name, start, draft, -, -, -, rfl⟩ := compile_eq_ok h
  exact (Layout.holds_ofProductions draft.productions.toList).laid rfl rfl

theorem remembers_initial (grammar : Grammar) : (initial grammar).Remembers := by
  intro source flags regex hregex
  simp [initial] at hregex

/-- The symbols of a program that was compiled are in step with its names, and there is one for each
nonterminal. -/
theorem inStep_of_compile {grammar : Grammar} {program : Program}
    (h : Program.compile grammar = .ok program) :
    program.names.InStep program.symbols ∧ program.symbols.size = program.nonterminalCount := by
  obtain ⟨name, start, draft, -, -, hrun, rfl⟩ := compile_eq_ok h
  have hinStep : draft.InStep :=
    (inStep_initial grammar).lowerRules (remembers_initial grammar) hrun
  refine ⟨hinStep.names, ?_⟩
  have hentries := (Layout.holds_ofProductions draft.productions.toList).size
  rw [Array.length_toList] at hentries
  exact hinStep.size.symm.trans hentries.symm

/-- The slots spell what is settled in a draft that is laid out. -/
theorem settledIn_rightHandSides (draft : Draft) (start : Nonterminal) (ruleCount : Nat) :
    draft.SettledIn 0 (Program.rightHandSides ⟨draft.names, draft.symbols,
      (Layout.ofProductions draft.productions.toList).entries,
      (Layout.ofProductions draft.productions.toList).slots, start, ruleCount⟩) := by
  intro i _ hi
  rw [(Layout.holds_ofProductions draft.productions.toList).rightHandSides rfl rfl,
    Array.getElem?_toList, Array.getElem?_eq_getElem hi, Option.getD_some]

/-- The alternatives of a program that was compiled flatten the rules of its grammar, and its
nonterminals are found by the names of the rules. -/
theorem flattened_of_compile {grammar : Grammar} {program : Program}
    (h : Program.compile grammar = .ok program) :
    Flattened grammar program.rightHandSides ∧
      ∀ name index, grammar.indexOf? name = some index → program.find? name = some ⟨index⟩ := by
  obtain ⟨startName, start, draft, -, -, hrun, rfl⟩ := compile_eq_ok h
  obtain ⟨-, -, hnames, hrules⟩ := lowerRules_spec grammar hrun (remembers_initial grammar)
    (by rw [size_initial, Nat.zero_add])
  constructor
  · intro name index rule hindex hrule
    obtain ⟨rule', hget⟩ := Grammar.indexOf?_eq_some_iff.mp hindex
    have hsame : rule' = rule :=
      Option.some.inj ((Grammar.rule?_of_getElem? hget).symm.trans hrule)
    rw [hsame] at hget
    have hsettled := settledIn_rightHandSides draft ⟨start⟩ grammar.rules.length
    have halternates := hrules _ hsettled index name rule hget
    rwa [Nat.zero_add] at halternates
  · intro name index hindex
    obtain ⟨rule, hget⟩ := Grammar.indexOf?_eq_some_iff.mp hindex
    have hlt : index < grammar.rules.length := (List.getElem?_eq_some_iff.mp hget).1
    exact (find?_of_inStep (inStep_of_compile h).1).mpr
      ⟨hnames name ⟨index⟩ (find?_names_initial hget), hlt⟩

/-- **Compiling keeps the languages of the rules.** Every rule of a grammar that compiles has a
nonterminal in the program, from which the slots derive just the language of the rule; and the
program starts with the nonterminal of the start rule. -/
theorem compile_language {grammar : Grammar} {program : Program}
    (h : Program.compile grammar = .ok program) :
    (∀ name ∈ grammar.rules.map Prod.fst, ∃ nonterminal,
      program.find? name = some nonterminal ∧
        program.rightHandSides.language nonterminal = grammar.language name) ∧
    ∃ name ∈ grammar.rules.map Prod.fst, grammar.startRule? = some name ∧
      program.find? name = some program.start := by
  obtain ⟨hflattened, hfind⟩ := flattened_of_compile h
  constructor
  · intro name hname
    obtain ⟨⟨name, rule⟩, hmem, rfl⟩ := List.mem_map.mp hname
    obtain ⟨index, hget⟩ := List.getElem?_of_mem hmem
    have hindex := Grammar.indexOf?_eq_some_iff.mpr ⟨rule, hget⟩
    exact ⟨⟨index⟩, hfind name index hindex, language_eq_of_flattened hflattened hindex⟩
  · obtain ⟨name, start, draft, hstart, hindex, -, rfl⟩ := compile_eq_ok h
    obtain ⟨rule, hget⟩ := Grammar.indexOf?_eq_some_iff.mp hindex
    exact ⟨name, List.mem_map.mpr ⟨_, List.mem_of_getElem? hget, rfl⟩, hstart,
      hfind name start hindex⟩

/-- A rule that is a repetition and refers back to itself: `R = ("a" | "(" R ")")+`. -/
def nestedLoop : Grammar :=
  (Grammar.empty "nested").withRule "R"
    (.plus (.choice [.literal "a", .sequence [.literal "(", .symbol "R", .literal ")"]]))

theorem compile_language_nestedLoop :
    ∃ program, Program.compile nestedLoop = .ok program ∧
      (∀ name ∈ ["R"], ∃ nonterminal, program.find? name = some nonterminal ∧
        program.rightHandSides.language nonterminal = nestedLoop.language name) ∧
      ∃ name ∈ ["R"], nestedLoop.startRule? = some name ∧
        program.find? name = some program.start := by
  obtain ⟨program, hcompile⟩ : ∃ program, Program.compile nestedLoop = .ok program := ⟨_, rfl⟩
  exact ⟨program, hcompile, compile_language hcompile⟩

end Gll.Program
