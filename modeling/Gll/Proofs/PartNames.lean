import Gll.Proofs.Callees
import Gll.Proofs.Naming

/-!
The names of all nonterminals.

The rules have the first numbers and their own names. Behind them stand the parts of rules for which
nonterminals were introduced: each choice and each repetition inside a rule, the outer ones before
those inside them. A nonterminal is shown under the name to which its symbol leads. The compiler
keeps symbols and names in step by interning one new name for each nonterminal, so all of them have
a name (`named_of_compile`), and rules are found at their places.

A draft is described by the list of parts that it has introduced (`Draft.Bears`). Every step of the
compilation adds to this list just the parts of the expressions that it flattens, and these get
alternatives that stand for them (`Hoisted`). The alternatives are again quantified over, as in the
proof that the languages are kept, since a part is introduced before what is inside it.
-/

set_option autoImplicit false

namespace Gll

/-! ## Parts of rules -/

mutual

/-- The parts of an expression that get nonterminals, in the order in which they get them: a choice
or a repetition comes before the parts inside it. -/
def Rule.parts : Rule → List Rule
  | .blank => []
  | .literal _ => []
  | .pattern _ _ => []
  | .symbol _ => []
  | .sequence members => Rule.partsOfAll members
  | .choice members => .choice members :: Rule.partsOfAll members
  | .star content => .star content :: content.parts
  | .plus content => .plus content :: content.parts

/-- The parts of several expressions in a row. -/
def Rule.partsOfAll : List Rule → List Rule
  | [] => []
  | member :: rest => member.parts ++ Rule.partsOfAll rest

end

/-- The parts of a whole rule. For the rule itself its own nonterminal stands, so a choice or a
repetition at its top is not among them. -/
def Rule.innerParts : Rule → List Rule
  | .choice members => Rule.partsOfAll members
  | .star content => content.parts
  | .plus content => content.parts
  | rule => rule.parts

/-- The parts of rules in order, each with the name of its rule. -/
def partsOfRules (rules : List (String × Rule)) : List (String × Rule) :=
  rules.flatMap fun (name, rule) => rule.innerParts.map (name, ·)

namespace Lowering

/-! ## Drafts -/

/-- The names of a draft are the given ones and those of the parts, one for each nonterminal. -/
structure Draft.Bears (draft : Draft) (names : List String) (parts : List Part) : Prop where
  inStep : draft.InStep
  listed : draft.names.names.toList = names ++ parts.map Part.name
  numbered : Numbered names parts

theorem Draft.Bears.size {draft : Draft} {names : List String} {parts : List Part}
    (h : draft.Bears names parts) : draft.productions.size = names.length + parts.length := by
  rw [h.inStep.size, h.inStep.names.size_eq, NameTable.size, ← Array.length_toList, h.listed,
    List.length_append, List.length_map]

/-- What a draft bears has to do with neither the counter nor the alternatives. -/
theorem Draft.Bears.of_same {draft draft' : Draft} {names : List String} {parts : List Part}
    (h : draft.Bears names parts) (hnames : draft'.names = draft.names)
    (hsymbols : draft'.symbols = draft.symbols)
    (hsize : draft'.productions.size = draft.productions.size) : draft'.Bears names parts where
  inStep := h.inStep.of_same hnames hsymbols hsize
  listed := hnames ▸ h.listed
  numbered := h.numbered

/-- The nonterminals from a number on stand for the expressions in their order. -/
def AlternateFrom (grammar : Grammar) (productions : Productions) (start : Nat)
    (contents : List Rule) : Prop :=
  ∀ i content, contents[i]? = some content →
    Alternates grammar productions ⟨start + i⟩ content (productions ⟨start + i⟩)

section AlternateFrom

variable {grammar : Grammar} {productions : Productions} {start : Nat}

theorem alternateFrom_nil : AlternateFrom grammar productions start [] := by
  intro i content h
  simp at h

theorem AlternateFrom.append {contents contents' : List Rule}
    (h : AlternateFrom grammar productions start contents)
    (h' : AlternateFrom grammar productions (start + contents.length) contents') :
    AlternateFrom grammar productions start (contents ++ contents') := by
  intro i content hi
  by_cases hlt : i < contents.length
  · rw [List.getElem?_append_left hlt] at hi
    exact h i content hi
  · have hle := Nat.le_of_not_lt hlt
    rw [List.getElem?_append_right hle] at hi
    have hlater := h' _ content hi
    rwa [Nat.add_assoc, Nat.add_sub_of_le hle] at hlater

theorem alternateFrom_singleton {content : Rule}
    (h : Alternates grammar productions ⟨start⟩ content (productions ⟨start⟩)) :
    AlternateFrom grammar productions start [content] := by
  intro i content' hi
  cases i with
  | zero =>
    rw [← Option.some.inj hi]
    exact h
  | succ i => simp at hi

end AlternateFrom

/-- Between two drafts of the compilation of a rule, nonterminals were introduced for the
expressions, in their order, and got alternatives that stand for them. -/
structure Hoisted (grammar : Grammar) (rule : String) (contents : List Rule)
    (draft draft' : Draft) : Prop where
  grown : draft.Extends draft'
  size : draft'.productions.size = draft.productions.size + contents.length
  bears {names : List String} {parts : List Part} : draft.Bears names parts →
    draft.lastNumber = lastNumber rule parts →
      ∃ new : List Part, new.map Part.origin = contents.map (rule, ·) ∧
        draft'.Bears names (parts ++ new) ∧ draft'.lastNumber = lastNumber rule (parts ++ new)
  alternates {productions : Productions} :
    draft'.SettledIn draft.productions.size productions →
      AlternateFrom grammar productions draft.productions.size contents

namespace Hoisted

variable {grammar : Grammar} {rule : String} {contents contents' : List Rule}
  {draft between draft' : Draft}

/-- Nothing is introduced where the names and the nonterminals stay. -/
theorem of_same (hgrown : draft.Extends draft') (hnames : draft'.names = draft.names)
    (hsymbols : draft'.symbols = draft.symbols)
    (hproductions : draft'.productions = draft.productions)
    (hlast : draft'.lastNumber = draft.lastNumber) : Hoisted grammar rule [] draft draft' where
  grown := hgrown
  size := congrArg Array.size hproductions
  bears h hnumber := by
    refine ⟨[], rfl, ?_, ?_⟩
    · rw [List.append_nil]
      exact h.of_same hnames hsymbols (congrArg Array.size hproductions)
    · rw [List.append_nil, hlast]
      exact hnumber
  alternates _ := alternateFrom_nil

theorem refl (draft : Draft) : Hoisted grammar rule [] draft draft :=
  of_same (.refl draft) rfl rfl rfl rfl

theorem trans (h : Hoisted grammar rule contents draft between)
    (h' : Hoisted grammar rule contents' between draft') :
    Hoisted grammar rule (contents ++ contents') draft draft' where
  grown := h.grown.trans h'.grown
  size := by
    rw [h'.size, h.size, List.length_append, Nat.add_assoc]
  bears hbears hlast := by
    obtain ⟨new, hnew, hbears, hlast⟩ := h.bears hbears hlast
    obtain ⟨new', hnew', hbears, hlast⟩ := h'.bears hbears hlast
    rw [List.append_assoc] at hbears hlast
    refine ⟨new ++ new', ?_, hbears, hlast⟩
    rw [List.map_append, List.map_append, hnew, hnew']
  alternates hsettled := by
    -- What the first step settled is still so in the end, and the second one starts behind it.
    have hearlier := h.alternates (hsettled.of_extends h'.grown)
    have hlater := h'.alternates (hsettled.mono h.grown.size)
    rw [h.size] at hlater
    exact hearlier.append hlater

end Hoisted

/-- Reserving a nonterminal for a part gives it the next number of its rule. -/
theorem Draft.Bears.reserve {draft draft' : Draft} {names : List String} {parts : List Part}
    {rule : String} {part : Nonterminal} (h : draft.Bears names parts)
    (hlast : draft.lastNumber = Lowering.lastNumber rule parts) (content : Rule)
    (hstep : Lowering.reserve rule draft = .ok (part, draft')) :
    ∃ number, draft'.Bears names (parts ++ [⟨rule, content, number⟩]) ∧
      draft'.lastNumber = Lowering.lastNumber rule (parts ++ [⟨rule, content, number⟩]) := by
  have hexact := h.inStep.names.exact
  have hnext := isNext_freshNumber hexact rule (Nat.lt_succ_self _) draft.lastNumber
  have hnew := hexact.find?_eq_none_iff.mpr hnext.new
  have hinStep := h.inStep.reserve hstep
  simp only [Lowering.reserve, Except.ok.injEq, Prod.mk.injEq] at hstep
  obtain ⟨-, rfl⟩ := hstep
  generalize freshNumber draft.names rule _ _ = number at hnext hnew hinStep ⊢
  rw [h.listed, hlast] at hnext
  refine ⟨number, ⟨hinStep, ?_, h.numbered.concat hnext⟩, ?_⟩
  · rw [NameTable.names_intern_of_new hnew, h.listed, List.map_append, List.append_assoc]
    rfl
  · rw [lastNumber_concat, if_pos rfl]

/-! ## Steps -/

/-- A step of the compilation of a rule that introduces nonterminals for the expressions. -/
def Hoists {α : Type} (grammar : Grammar) (rule : String) (contents : List Rule)
    (step : Lower α) : Prop :=
  ∀ ⦃draft draft' : Draft⦄ ⦃a : α⦄, step draft = .ok (a, draft') → draft.Remembers →
    Hoisted grammar rule contents draft draft'

section Hoists

variable {α β : Type} {grammar : Grammar} {rule : String} {contents contents' : List Rule}

theorem hoists_pure {a : α} : Hoists grammar rule [] (pure a) := by
  intro draft draft' b hstep _
  obtain ⟨-, rfl⟩ := of_run_pure hstep
  exact .refl draft

theorem hoists_throw (error : LowerError) : Hoists grammar rule contents (throw error : Lower α) :=
  fun _ _ _ hstep => absurd hstep throw_ne_ok

theorem hoists_bind {first : Lower α} {next : α → Lower β}
    (hfirst : Hoists grammar rule contents first)
    (hnext : ∀ a, Hoists grammar rule contents' (next a)) :
    Hoists grammar rule (contents ++ contents') (first >>= next) := by
  intro draft draft' b hstep hremembers
  obtain ⟨a, between, hone, htwo⟩ := exists_of_run_bind hstep
  have h := hfirst hone hremembers
  exact h.trans (hnext a htwo (h.grown.remembers hremembers))

/-- Nothing is introduced for what is made of a result. -/
theorem hoists_map {first : Lower α} (f : α → β) (h : Hoists grammar rule contents first) :
    Hoists grammar rule contents (do return f (← first)) := by
  have hbind := hoists_bind h fun a => hoists_pure (a := f a)
  rwa [List.append_nil] at hbind

theorem hoists_pattern (source : String) (flags : Option String) :
    Hoists grammar rule [] (pattern rule source flags) := by
  intro draft draft' regex hstep hremembers
  have hgrown := (ensures_pattern rule source flags _ _ _ hstep hremembers).1
  rw [pattern] at hstep
  split at hstep
  · obtain ⟨-, rfl⟩ := Prod.mk.inj (Except.ok.inj hstep)
    exact .refl draft
  · split at hstep
    · obtain ⟨-, rfl⟩ := Prod.mk.inj (Except.ok.inj hstep)
      exact .of_same hgrown rfl rfl rfl rfl
    · cases hstep
    · cases hstep

/-- The nonterminal of a part comes before those of the parts inside it, and its alternatives stand
for it once the content is flattened. -/
theorem hoists_part {whole : Rule} {content : Lower α}
    (alternatives : Nonterminal → α → List (List Atom)) {holds : Productions → α → Prop}
    (hcontent : Hoists grammar rule contents content) (hensures : Ensures content holds)
    (h : ∀ productions part a, productions part = alternatives part a → holds productions a →
      Alternates grammar productions part whole (productions part)) :
    Hoists grammar rule (whole :: contents) (do
      let part ← reserve rule
      settle part (alternatives part (← content))
      return [.nonterminal part] : Lower (List Atom)) := by
  intro draft draft' atoms hstep hremembers
  have hgrown := (@ensures_part _ rule content alternatives holds (fun _ _ => True) hensures
    (fun _ _ _ _ _ => trivial) _ _ _ hstep hremembers).1
  obtain ⟨part, reserved, hreserve, hstep⟩ := exists_of_run_bind hstep
  obtain ⟨a, filled, hfilled, hstep⟩ := exists_of_run_bind hstep
  obtain ⟨_, settled, hsettle, hstep⟩ := exists_of_run_bind hstep
  obtain ⟨rfl, rfl⟩ := of_run_pure hstep
  obtain ⟨rfl, hproductions, hpatterns, -⟩ := reserve_eq_ok hreserve
  have hremembers' : reserved.Remembers := by
    intro source flags regex hregex
    rw [hpatterns] at hregex
    exact hremembers source flags regex hregex
  have hsize : reserved.productions.size = draft.productions.size + 1 := by
    rw [hproductions, Array.size_push]
  have hinside := hcontent hfilled hremembers'
  have hholds := (hensures _ _ _ hfilled hremembers').2
  rw [settle_eq_ok hsettle] at hgrown ⊢
  -- The part was reserved first, then those inside it. Settling it adds neither a name nor a
  -- nonterminal.
  refine ⟨hgrown, ?_, fun hbears hlast => ?_, fun hsettled => ?_⟩
  · rw [Array.size_setIfInBounds, hinside.size, hsize, List.length_cons]
    omega
  · obtain ⟨number, hreserved, hnumber⟩ := hbears.reserve hlast whole hreserve
    obtain ⟨new, hnew, hbears', hlast'⟩ := hinside.bears hreserved hnumber
    rw [List.append_assoc] at hbears' hlast'
    refine ⟨⟨rule, whole, number⟩ :: new, ?_, hbears'.of_same rfl rfl Array.size_setIfInBounds,
      hlast'⟩
    rw [List.map_cons, List.map_cons, hnew]
    rfl
  · -- What is settled from the part on is settled from those inside it on too.
    have hlt : draft.productions.size < filled.productions.size := by
      rw [hinside.size, hsize]
      omega
    obtain ⟨hpart, hsettled⟩ := hsettled.of_part hlt
    rw [← hsize] at hsettled
    have hbelow := hinside.alternates hsettled
    rw [hsize] at hbelow
    have hself := h _ ⟨draft.productions.size⟩ a hpart (hholds _ hsettled)
    exact (alternateFrom_singleton hself).append hbelow

end Hoists

mutual

theorem hoists_atoms (grammar : Grammar) (name : String) :
    ∀ rule : Rule, Hoists grammar name rule.parts (atoms grammar name rule)
  | .blank => by
    rw [atoms, Rule.parts]
    exact hoists_pure
  | .literal text => by
    rw [atoms, Rule.parts]
    split
    · exact hoists_throw _
    · exact hoists_pure
  | .pattern source flags => by
    rw [atoms, Rule.parts]
    exact hoists_map _ (hoists_pattern source flags)
  | .symbol reference => by
    rw [atoms, Rule.parts]
    split
    · exact hoists_pure
    · exact hoists_throw _
  | .sequence members => by
    rw [atoms, Rule.parts]
    exact hoists_atomsOfAll grammar name members
  | .choice members => by
    rw [atoms, Rule.parts]
    refine hoists_part (fun _ each => each) (hoists_alternativesOfAll grammar name members)
      (ensures_alternativesOfAll grammar name members) ?_
    intro productions part each hpart heach
    rw [hpart]
    exact heach
  | .star content => by
    rw [atoms, Rule.parts]
    refine hoists_part starAlternatives (hoists_atoms grammar name content)
      (ensures_atoms grammar name content) ?_
    intro productions part once hpart honce
    exact ⟨once, hpart, honce⟩
  | .plus content => by
    rw [atoms, Rule.parts]
    refine hoists_part plusAlternatives (hoists_atoms grammar name content)
      (ensures_atoms grammar name content) ?_
    intro productions part once hpart honce
    exact ⟨once, hpart, honce⟩

theorem hoists_atomsOfAll (grammar : Grammar) (name : String) :
    ∀ members : List Rule,
      Hoists grammar name (Rule.partsOfAll members) (atomsOfAll grammar name members)
  | [] => by
    rw [atomsOfAll, Rule.partsOfAll]
    exact hoists_pure
  | member :: rest => by
    rw [atomsOfAll, Rule.partsOfAll]
    exact hoists_bind (hoists_atoms grammar name member) fun _ =>
      hoists_map _ (hoists_atomsOfAll grammar name rest)

theorem hoists_alternativesOfAll (grammar : Grammar) (name : String) :
    ∀ members : List Rule,
      Hoists grammar name (Rule.partsOfAll members) (alternativesOfAll grammar name members)
  | [] => by
    rw [alternativesOfAll, Rule.partsOfAll]
    exact hoists_pure
  | member :: rest => by
    rw [alternativesOfAll, Rule.partsOfAll]
    exact hoists_bind (hoists_atoms grammar name member) fun _ =>
      hoists_map _ (hoists_alternativesOfAll grammar name rest)

end

theorem hoists_alternatives (grammar : Grammar) (name : String) (owner : Nonterminal)
    (rule : Rule) : Hoists grammar name rule.innerParts (alternatives grammar name owner rule) := by
  cases rule with
  | choice members => exact hoists_alternativesOfAll grammar name members
  | star content => exact hoists_map (starAlternatives owner) (hoists_atoms grammar name content)
  | plus content => exact hoists_map (plusAlternatives owner) (hoists_atoms grammar name content)
  | _ => exact hoists_map (fun once => [once]) (hoists_atoms grammar name _)

/-! ## Rules -/

/-- When the counter starts anew and no part is of the rule yet, the parts of the rule are added. -/
theorem Hoisted.bears_anew {grammar : Grammar} {name : String} {contents : List Rule}
    {draft draft' : Draft}
    (h : Hoisted grammar name contents { draft with lastNumber := 0 } draft')
    {names : List String} {parts : List Part} (hbears : draft.Bears names parts)
    (hother : ∀ part ∈ parts, part.rule ≠ name) :
    ∃ new : List Part, new.map Part.origin = contents.map (name, ·) ∧
      draft'.Bears names (parts ++ new) := by
  have hanew : Draft.Bears { draft with lastNumber := 0 } names parts :=
    hbears.of_same rfl rfl rfl
  obtain ⟨new, hnew, hadded, -⟩ := h.bears hanew (lastNumber_eq_zero hother).symm
  exact ⟨new, hnew, hadded⟩

theorem rule_of_map_origin {name : String} {contents : List Rule} {parts : List Part}
    (h : parts.map Part.origin = contents.map (name, ·)) : ∀ part ∈ parts, part.rule = name := by
  intro part hpart
  have horigin : part.origin ∈ contents.map (name, ·) := h ▸ List.mem_map_of_mem hpart
  obtain ⟨content, -, horigin⟩ := List.mem_map.mp horigin
  exact (congrArg Prod.fst horigin).symm

theorem partsOfRules_cons (name : String) (rule : Rule) (rest : List (String × Rule)) :
    partsOfRules ((name, rule) :: rest) = rule.innerParts.map (name, ·) ++ partsOfRules rest := by
  rw [partsOfRules, List.flatMap_cons]
  rfl

/-- The parts of one rule are of no other. -/
theorem rule_notMem_of_append {name : String} {others : List String} {contents : List Rule}
    {parts new : List Part} (hnew : new.map Part.origin = contents.map (name, ·))
    (hname : name ∉ others) (hparts : ∀ part ∈ parts, part.rule ∉ others) :
    ∀ part ∈ parts ++ new, part.rule ∉ others := by
  intro part hpart
  rcases List.mem_append.mp hpart with hold | hadded
  · exact hparts part hold
  · rw [rule_of_map_origin hnew part hadded]
    exact hname

/-- Compiling rules introduces nonterminals for the parts of all of them in order. The numbers start
anew with each rule, so none of the parts that were introduced before may be of one of the rules. -/
theorem lowerRules_hoists {grammar : Grammar} {index : Nat} {rules : List (String × Rule)}
    {draft draft' : Draft} (hstep : lowerRules grammar index rules draft = .ok ((), draft'))
    (hremembers : draft.Remembers) (hsize : index + rules.length ≤ draft.productions.size)
    (hnodup : (rules.map Prod.fst).Nodup) :
    draft'.productions.size = draft.productions.size + (partsOfRules rules).length ∧
      (∀ names parts, draft.Bears names parts →
        (∀ part ∈ parts, part.rule ∉ rules.map Prod.fst) →
          ∃ new : List Part, new.map Part.origin = partsOfRules rules ∧
            draft'.Bears names (parts ++ new)) ∧
      ∀ productions, draft'.SettledIn draft.productions.size productions →
        AlternateFrom grammar productions draft.productions.size
          ((partsOfRules rules).map Prod.snd) := by
  induction rules generalizing index draft with
  | nil =>
    rw [lowerRules] at hstep
    obtain ⟨-, rfl⟩ := of_run_pure hstep
    refine ⟨rfl, fun names parts hbears _ => ⟨[], rfl, ?_⟩, fun _ _ => alternateFrom_nil⟩
    rw [List.append_nil]
    exact hbears
  | cons head rest ih =>
    obtain ⟨name, rule⟩ := head
    rw [List.length_cons] at hsize
    rw [List.map_cons, List.nodup_cons] at hnodup
    obtain ⟨each, flattened, hrun, hrest⟩ := exists_of_lowerRules_cons hstep
    have hfirst := hoists_alternatives grammar name ⟨index⟩ rule hrun hremembers
    have hsize' : flattened.productions.size
        = draft.productions.size + rule.innerParts.length := hfirst.size
    have hremembers' : flattened.Remembers := hfirst.grown.remembers hremembers
    have hsettledSize : (flattened.productions.setIfInBounds index each).size
        = draft.productions.size + rule.innerParts.length := by
      rw [Array.size_setIfInBounds, hsize']
    obtain ⟨hgrown, hbears, halternates⟩ := ih hrest hremembers' (by
      rw [hsettledSize]
      omega) hnodup.2
    have hkeep := (lowerRules_spec grammar hrest hremembers' (by
      rw [hsettledSize]
      omega)).2.1
    dsimp only at hgrown halternates hkeep
    rw [hsettledSize] at hgrown halternates hkeep
    rw [partsOfRules_cons]
    refine ⟨?_, fun names parts hbearsFirst hother => ?_, fun productions hsettled => ?_⟩
    · rw [hgrown, List.length_append, List.length_map, Nat.add_assoc]
    · -- No part is of this rule yet, so the counter that starts anew is right; and the parts that
      -- are added are of no later rule.
      obtain ⟨new, hnew, hmiddle⟩ := hfirst.bears_anew hbearsFirst fun part hpart heq =>
        hother part hpart (heq ▸ List.mem_cons_self)
      have hstill : ∀ part ∈ parts ++ new, part.rule ∉ rest.map Prod.fst :=
        rule_notMem_of_append hnew hnodup.1 fun part hpart hmem =>
          hother part hpart (List.mem_cons_of_mem _ hmem)
      have hsettled : Draft.Bears { flattened with
          productions := flattened.productions.setIfInBounds index each } names (parts ++ new) :=
        hmiddle.of_same rfl rfl Array.size_setIfInBounds
      obtain ⟨new', hnew', hlast⟩ := hbears names (parts ++ new) hsettled hstill
      rw [List.append_assoc] at hlast
      refine ⟨new ++ new', ?_, hlast⟩
      rw [List.map_append, hnew, hnew']
    · -- The other rules leave the parts of this one alone.
      have hflattened : flattened.SettledIn draft.productions.size productions := by
        intro i hstart hi
        have hne : index ≠ i := by omega
        rw [← Array.getElem?_setIfInBounds_ne hne, ← hkeep i (by omega) (by omega)]
        exact hsettled i hstart (by omega)
      have hown : AlternateFrom grammar productions draft.productions.size rule.innerParts :=
        hfirst.alternates hflattened
      have hlater := halternates productions (hsettled.mono (by omega))
      rw [List.map_append, List.map_map]
      have hsame : rule.innerParts.map (Prod.snd ∘ (name, ·)) = rule.innerParts := List.map_id _
      rw [hsame]
      exact hown.append hlater

/-- At first there are the names of the rules, and no parts. -/
theorem bears_initial (grammar : Grammar) :
    (initial grammar).Bears (grammar.rules.map Prod.fst) [] := by
  refine ⟨inStep_initial grammar, ?_, .nil⟩
  rw [toList_names_initial, List.map_nil, List.append_nil]

end Lowering

/-! ## Programs -/

namespace Program

open Lowering

/-- The nonterminals of the program are the rules of the grammar and, behind them, the parts. -/
structure Introduces (program : Program) (grammar : Grammar) (parts : List Part) : Prop where
  origins : parts.map Part.origin = partsOfRules grammar.rules
  numbered : Numbered (grammar.rules.map Prod.fst) parts
  ruleCount : program.ruleCount = grammar.rules.length
  nonterminalCount : program.nonterminalCount = grammar.rules.length + parts.length
  inStep : program.names.InStep program.symbols
  listed : program.names.names.toList = grammar.rules.map Prod.fst ++ parts.map Part.name
  ofRules : AlternateFrom grammar program.rightHandSides 0 (grammar.rules.map Prod.snd)
  ofParts : AlternateFrom grammar program.rightHandSides grammar.rules.length
    (parts.map Part.content)

theorem exists_introduces {grammar : Grammar} {program : Program}
    (h : Program.compile grammar = .ok program) : ∃ parts, program.Introduces grammar parts := by
  obtain ⟨_, start, draft, -, -, hrun, rfl⟩ := compile_eq_ok h
  have hremembers := remembers_initial grammar
  have hsize := size_initial grammar
  obtain ⟨-, hbears, halternates⟩ := lowerRules_hoists hrun hremembers (by omega) grammar.nodup
  obtain ⟨parts, horigins, hnames⟩ := hbears _ _ (bears_initial grammar)
    fun _ hpart => absurd hpart List.not_mem_nil
  rw [List.nil_append] at hnames
  have hrules := (lowerRules_spec grammar hrun hremembers (by omega)).2.2.2
  have hsettled := settledIn_rightHandSides draft ⟨start⟩ grammar.rules.length
  refine ⟨parts, horigins, hnames.numbered, rfl, ?_, hnames.inStep.names, hnames.listed, ?_, ?_⟩
  · have hentries := (Layout.holds_ofProductions draft.productions.toList).size
    rw [Array.length_toList, hnames.size, List.length_map] at hentries
    exact hentries
  · intro i content hi
    rw [List.getElem?_map, Option.map_eq_some_iff] at hi
    obtain ⟨⟨name, rule⟩, hentry, rfl⟩ := hi
    exact hrules _ hsettled i name rule hentry
  · have hall := halternates _ (hsettled.mono (Nat.zero_le _))
    rw [hsize, ← horigins, List.map_map] at hall
    exact hall

namespace Introduces

variable {program : Program} {grammar : Grammar} {parts : List Part}

theorem name?_eq (h : program.Introduces grammar parts) (nonterminal : Nonterminal) :
    program.name? nonterminal
      = (grammar.rules.map Prod.fst ++ parts.map Part.name)[nonterminal.index]? := by
  rw [name?_of_inStep h.inStep, NameTable.name?, ← h.listed, Array.getElem?_toList]

theorem name?_rule (h : program.Introduces grammar parts) {i : Nat} {name : String} {rule : Rule}
    (hi : grammar.rules[i]? = some (name, rule)) : program.name? ⟨i⟩ = some name := by
  have hlt : i < (grammar.rules.map Prod.fst).length := by
    rw [List.length_map]
    exact (List.getElem?_eq_some_iff.mp hi).1
  rw [h.name?_eq, List.getElem?_append_left hlt, List.getElem?_map, hi]
  rfl

theorem name?_part (h : program.Introduces grammar parts) {i : Nat} {part : Part}
    (hi : parts[i]? = some part) :
    program.name? ⟨grammar.rules.length + i⟩ = some part.name := by
  have hle : (grammar.rules.map Prod.fst).length ≤ grammar.rules.length + i := by
    rw [List.length_map]
    exact Nat.le_add_right _ _
  rw [h.name?_eq, List.getElem?_append_right hle, List.length_map, Nat.add_sub_cancel_left,
    List.getElem?_map, hi]
  rfl

theorem index_lt (h : program.Introduces grammar parts) {nonterminal : Nonterminal}
    (hlt : nonterminal.index < program.nonterminalCount) :
    nonterminal.index < (grammar.rules.map Prod.fst ++ parts.map Part.name).length := by
  rw [List.length_append, List.length_map, List.length_map, ← h.nonterminalCount]
  exact hlt

/-- No two nonterminals have the same name. -/
theorem eq_of_name? (h : program.Introduces grammar parts) {nonterminal other : Nonterminal}
    (hlt : nonterminal.index < program.nonterminalCount)
    (hname : program.name? nonterminal = program.name? other) : nonterminal = other := by
  have hnodup := h.numbered.nodup grammar.nodup
  rw [h.name?_eq, h.name?_eq] at hname
  have hindex : nonterminal.index = other.index :=
    List.getElem?_inj (h.index_lt hlt) hnodup |>.mp hname
  cases nonterminal
  cases other
  exact congrArg Nonterminal.mk hindex

/-- Just the names of the rules are found, each at the place of its rule. -/
theorem find?_eq_some_iff (h : program.Introduces grammar parts) {name : String}
    {nonterminal : Nonterminal} : program.find? name = some nonterminal ↔
      ∃ rule, grammar.rules[nonterminal.index]? = some (name, rule) := by
  -- Before the count of the rules stand the names of the rules.
  have hplace (hlt : nonterminal.index < grammar.rules.length) :
      program.name? nonterminal = some name ↔
        ∃ rule, grammar.rules[nonterminal.index]? = some (name, rule) := by
    rw [h.name?_eq, List.getElem?_append_left (by rw [List.length_map]; exact hlt),
      List.getElem?_map, Option.map_eq_some_iff]
    constructor
    · rintro ⟨⟨_, rule⟩, hentry, rfl⟩
      exact ⟨rule, hentry⟩
    · rintro ⟨rule, hentry⟩
      exact ⟨(name, rule), hentry, rfl⟩
  rw [find?_of_inStep h.inStep, h.ruleCount, h.inStep.exact, ← name?_of_inStep h.inStep]
  constructor
  · rintro ⟨hname, hlt⟩
    exact (hplace hlt).mp hname
  · intro hrule
    obtain ⟨rule, hentry⟩ := hrule
    have hlt := (List.getElem?_eq_some_iff.mp hentry).1
    exact ⟨(hplace hlt).mpr ⟨rule, hentry⟩, hlt⟩

/-- A name that is not that of a rule is not found. -/
theorem find?_eq_none (h : program.Introduces grammar parts) {name : String}
    (hname : name ∉ grammar.rules.map Prod.fst) : program.find? name = none := by
  cases hfind : program.find? name with
  | none => rfl
  | some nonterminal =>
    obtain ⟨rule, hentry⟩ := h.find?_eq_some_iff.mp hfind
    exact absurd (List.mem_map_of_mem (List.mem_of_getElem? hentry)) hname

theorem find?_part (h : program.Introduces grammar parts) {part : Part} (hpart : part ∈ parts) :
    program.find? part.name = none := by
  refine h.find?_eq_none fun hmem => ?_
  have hnodup := h.numbered.nodup grammar.nodup
  exact (List.nodup_append.mp hnodup).2.2 _ hmem _ (List.mem_map_of_mem hpart) rfl

/-- Of the nonterminals, just those of the parts are marked as such. -/
theorem isAuxiliary_iff (h : program.Introduces grammar parts) {nonterminal : Nonterminal}
    (hlt : nonterminal.index < program.nonterminalCount) :
    program.isAuxiliary nonterminal = true ↔
      ∃ i < parts.length, nonterminal = ⟨grammar.rules.length + i⟩ := by
  rw [h.nonterminalCount] at hlt
  simp only [isAuxiliary, h.ruleCount, decide_eq_true_iff]
  constructor
  · intro hle
    refine ⟨nonterminal.index - grammar.rules.length, by omega, ?_⟩
    rw [Nat.add_sub_of_le hle]
  · rintro ⟨i, -, rfl⟩
    exact Nat.le_add_right _ _

end Introduces

/-- Every nonterminal has a name. -/
def Named (program : Program) : Prop :=
  ∀ ⦃nonterminal : Nonterminal⦄, nonterminal.index < program.nonterminalCount →
    ∃ name, program.name? nonterminal = some name

/-- What was compiled has a name for each of its nonterminals. -/
theorem named_of_compile {grammar : Grammar} {program : Program}
    (h : Program.compile grammar = .ok program) : program.Named := by
  obtain ⟨parts, hparts⟩ := exists_introduces h
  intro nonterminal hlt
  exact ⟨_, (hparts.name?_eq nonterminal).trans (List.getElem?_eq_getElem (hparts.index_lt hlt))⟩

/-- **The nonterminals of a program and their names.** The nonterminals of a grammar that compiles
are its rules in their order and, behind them, the parts of rules, in the order in which they stand
there; each has alternatives that stand for its expression. There are as many names as
nonterminals, and the symbol of a nonterminal is its own number. A rule has its own name. A part of
the rule `R` is named `R~n`, where `n` is the first number behind that of the part before it in `R`
that gives a name which no rule and no part before it has, so that in a rule the numbers grow. No
two nonterminals have the same name, just the names of the rules are found, and just the parts are
marked as parts.

Such a number is there in every table of names, whatever was put into it: the search passes no more
numbers than there are names. -/
theorem compile_naming {grammar : Grammar} {program : Program}
    (h : Program.compile grammar = .ok program) :
    (∃ parts : List Part,
      parts.map Part.origin = partsOfRules grammar.rules ∧
      program.ruleCount = grammar.rules.length ∧
      program.nonterminalCount = grammar.rules.length + parts.length ∧
      program.names.size = program.nonterminalCount ∧
      program.symbols.toList = (List.range program.nonterminalCount).map NameId.mk ∧
      (∀ (i : Nat) (name : String) (rule : Rule), grammar.rules[i]? = some (name, rule) →
        program.name? ⟨i⟩ = some name ∧
          Alternates grammar program.rightHandSides ⟨i⟩ rule (program.rightHandSides ⟨i⟩)) ∧
      (∀ (i : Nat) (part : Part), parts[i]? = some part →
        program.name? ⟨grammar.rules.length + i⟩ = some part.name ∧
          Alternates grammar program.rightHandSides ⟨grammar.rules.length + i⟩ part.content
            (program.rightHandSides ⟨grammar.rules.length + i⟩)) ∧
      Numbered (grammar.rules.map Prod.fst) parts ∧
      (parts.Pairwise fun earlier later =>
        earlier.rule = later.rule → earlier.number < later.number) ∧
      (∀ nonterminal other : Nonterminal, nonterminal.index < program.nonterminalCount →
        program.name? nonterminal = program.name? other → nonterminal = other) ∧
      (∀ (name : String) (nonterminal : Nonterminal), program.find? name = some nonterminal ↔
        ∃ rule, grammar.rules[nonterminal.index]? = some (name, rule)) ∧
      (∀ part ∈ parts, program.find? part.name = none) ∧
      ∀ nonterminal : Nonterminal, nonterminal.index < program.nonterminalCount →
        (program.isAuxiliary nonterminal = true ↔
          ∃ i < parts.length, nonterminal = ⟨grammar.rules.length + i⟩)) ∧
    ∀ (names : List String) (rule : String) (last fuel : Nat),
      (NameTable.empty.internAll names).size < fuel →
        IsNext (NameTable.empty.internAll names).names.toList rule last
            (freshNumber (NameTable.empty.internAll names) rule fuel (last + 1)) ∧
          freshNumber (NameTable.empty.internAll names) rule fuel (last + 1)
            ≤ last + 1 + (NameTable.empty.internAll names).size := by
  constructor
  · obtain ⟨parts, hparts⟩ := exists_introduces h
    obtain ⟨hinStep, hsize⟩ := inStep_of_compile h
    have hnames : program.names.size = program.nonterminalCount := hinStep.size_eq.symm.trans hsize
    refine ⟨parts, hparts.origins, hparts.ruleCount, hparts.nonterminalCount, hnames,
      hnames ▸ hinStep.listed, fun i name rule hi => ⟨hparts.name?_rule hi, ?_⟩,
      fun i part hi => ⟨hparts.name?_part hi, hparts.ofParts i part.content ?_⟩,
      hparts.numbered, hparts.numbered.increasing,
      fun nonterminal other hlt hname => hparts.eq_of_name? hlt hname,
      fun name nonterminal => hparts.find?_eq_some_iff, fun part hpart => hparts.find?_part hpart,
      fun nonterminal hlt => hparts.isAuxiliary_iff hlt⟩
    · have hrule := hparts.ofRules i rule (by rw [List.getElem?_map, hi]; rfl)
      rwa [Nat.zero_add] at hrule
    · rw [List.getElem?_map, hi]
      rfl
  · intro names rule last fuel hfuel
    have hexact : (NameTable.empty.internAll names).Exact := NameTable.exact_empty.internAll names
    exact ⟨isNext_freshNumber hexact rule hfuel last,
      freshNumber_le hexact.faithful rule fuel (last + 1)⟩

/-- A grammar in which rules are called like parts of another rule. -/
def lookalike : Grammar := ⟨"g", none,
  [("S", .sequence [.literal "a", .choice [.literal "b", .star (.literal "c")]]),
    ("S~1", .sequence [.star (.literal "d")]), ("S~3", .literal "e")], by decide⟩

theorem compile_naming_lookalike :
    ∃ program, Program.compile lookalike = .ok program ∧
      program.symbols.toList = [⟨0⟩, ⟨1⟩, ⟨2⟩, ⟨3⟩, ⟨4⟩, ⟨5⟩] ∧
      program.nonterminals.map program.name?
        = ["S", "S~1", "S~3", "S~2", "S~4", "S~1~1"].map some ∧
      program.find? "S~1" = some ⟨1⟩ ∧ program.find? "S~2" = none := by
  obtain ⟨program, hcompile⟩ : ∃ program, Program.compile lookalike = .ok program := ⟨_, rfl⟩
  obtain ⟨⟨parts, horigins, -, hcount, -, hsymbols, hrules, hparts, hnumbered, -, -, hfind, hnone,
    -⟩, -⟩ := compile_naming hcompile
  obtain ⟨⟨_, _, first⟩, rest, rfl, hfirst, horigins⟩ := List.map_eq_cons_iff.mp horigins
  obtain ⟨⟨_, _, second⟩, rest, rfl, hsecond, horigins⟩ := List.map_eq_cons_iff.mp horigins
  obtain ⟨⟨_, _, third⟩, rest, rfl, hthird, horigins⟩ := List.map_eq_cons_iff.mp horigins
  obtain rfl := List.map_eq_nil_iff.mp horigins
  obtain ⟨rfl, rfl⟩ := Prod.mk.inj hfirst
  obtain ⟨rfl, rfl⟩ := Prod.mk.inj hsecond
  obtain ⟨rfl, rfl⟩ := Prod.mk.inj hthird
  -- The names `S~1` and `S~3` are taken, so the parts of `S` have the numbers 2 and 4.
  have htwo : IsNext ["S", "S~1", "S~3"] "S" 0 2 :=
    ⟨by decide, by decide, fun between hlt hless => by
      obtain rfl : between = 1 := by omega
      decide⟩
  obtain rfl : first = 2 := (Numbered.isNext [] hnumbered).unique htwo
  have hfour : IsNext ["S", "S~1", "S~3", "S~2"] "S" 2 4 :=
    ⟨by decide, by decide, fun between hlt hless => by
      obtain rfl : between = 3 := by omega
      decide⟩
  obtain rfl : second = 4 := (Numbered.isNext [⟨"S", _, 2⟩] hnumbered).unique hfour
  have hone : IsNext ["S", "S~1", "S~3", "S~2", "S~4"] "S~1" 0 1 :=
    ⟨by decide, by decide, fun between hlt hless => by omega⟩
  obtain rfl : third = 1 :=
    (Numbered.isNext [⟨"S", _, 2⟩, ⟨"S", _, 4⟩] hnumbered).unique hone
  rw [hcount] at hsymbols
  refine ⟨program, hcompile, hsymbols, ?_, (hfind "S~1" ⟨1⟩).mpr ⟨_, rfl⟩,
    hnone _ List.mem_cons_self⟩
  have hsix : program.nonterminals = [⟨0⟩, ⟨1⟩, ⟨2⟩, ⟨3⟩, ⟨4⟩, ⟨5⟩] := by
    rw [nonterminals, hcount]
    rfl
  have hfirst : program.name? ⟨3⟩ = some "S~2" := (hparts 0 _ rfl).1
  have hsecond : program.name? ⟨4⟩ = some "S~4" := (hparts 1 _ rfl).1
  have hthird : program.name? ⟨5⟩ = some "S~1~1" := (hparts 2 _ rfl).1
  rw [hsix]
  simp only [List.map_cons, List.map_nil]
  rw [(hrules 0 _ _ rfl).1, (hrules 1 _ _ rfl).1, (hrules 2 _ _ rfl).1, hfirst, hsecond, hthird]

end Program

end Gll
