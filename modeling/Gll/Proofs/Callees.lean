import Gll.Proofs.Compilation

/-!
What is called has alternatives.

The compiler refers to nonterminals by number, to those of rules that it has not come to yet and to
those of parts whose alternatives are still being flattened. All the same it never refers to a
number that nobody has: a draft whose references are all to nonterminals of its own is
`Draft.Closed`, and every step keeps that and gives atoms that refer to what the draft then has
(`Closes`). So a program that was compiled never fails to find what it calls (`closed_of_compile`).
-/

set_option autoImplicit false

namespace Gll

/-- An atom refers to none but the first `count` nonterminals. -/
def Atom.IsBelow (count : Nat) : Atom → Prop
  | terminal _ => True
  | nonterminal callee => callee.index < count

/-- Alternatives refer to none but the first `count` nonterminals. -/
def AreBelow (count : Nat) (alternatives : List (List Atom)) : Prop :=
  ∀ alternative ∈ alternatives, ∀ atom ∈ alternative, atom.IsBelow count

theorem Atom.IsBelow.mono {atom : Atom} {m n : Nat} (h : atom.IsBelow m) (hle : m ≤ n) :
    atom.IsBelow n := by
  cases atom with
  | terminal matcher => trivial
  | nonterminal callee => exact Nat.lt_of_lt_of_le h hle

theorem AreBelow.mono {alternatives : List (List Atom)} {m n : Nat} (h : AreBelow m alternatives)
    (hle : m ≤ n) : AreBelow n alternatives :=
  fun alternative hmem atom hatom => (h alternative hmem atom hatom).mono hle

namespace Lowering

/-! ## Drafts -/

/-- A draft has a nonterminal for each rule of the grammar and refers to none but its own. -/
structure Draft.Closed (grammar : Grammar) (draft : Draft) : Prop where
  rules : grammar.rules.length ≤ draft.productions.size
  below {i : Nat} {alternatives : List (List Atom)} :
    draft.productions[i]? = some alternatives → AreBelow draft.productions.size alternatives

variable {grammar : Grammar} {draft draft' : Draft}

/-- Giving a nonterminal alternatives that refer to the draft leaves it closed. -/
theorem Draft.Closed.settle (h : draft.Closed grammar) {part : Nonterminal}
    {alternatives : List (List Atom)} (hbelow : AreBelow draft.productions.size alternatives)
    (hstep : Lowering.settle part alternatives draft = .ok ((), draft')) :
    draft'.Closed grammar ∧ draft'.productions.size = draft.productions.size := by
  rw [settle_eq_ok hstep]
  have hsize : (draft.productions.setIfInBounds part.index alternatives).size
      = draft.productions.size := Array.size_setIfInBounds ..
  refine ⟨⟨hsize ▸ h.rules, fun {i others} hget => ?_⟩, hsize⟩
  rw [Array.getElem?_setIfInBounds] at hget
  rw [hsize]
  split at hget
  · split at hget
    · obtain rfl := Option.some.inj hget
      exact hbelow
    · cases hget
  · exact h.below hget

/-- A nonterminal that has just been introduced refers to nothing. -/
theorem Draft.Closed.reserve (h : draft.Closed grammar) {rule : String} {part : Nonterminal}
    (hstep : Lowering.reserve rule draft = .ok (part, draft')) :
    draft'.Closed grammar ∧ part.index < draft'.productions.size ∧
      draft.productions.size ≤ draft'.productions.size := by
  obtain ⟨rfl, hproductions, -, -⟩ := reserve_eq_ok hstep
  have hsize : draft'.productions.size = draft.productions.size + 1 := by
    rw [hproductions, Array.size_push]
  refine ⟨⟨by have := h.rules; omega, fun {i alternatives} hget => ?_⟩, ?_, by omega⟩
  · rw [hproductions, Array.getElem?_push] at hget
    split at hget
    · obtain rfl := Option.some.inj hget
      exact fun _ hmem => absurd hmem List.not_mem_nil
    · exact (h.below hget).mono (by omega)
  · rw [hsize]
    exact Nat.lt_succ_self _

/-! ## Steps -/

/-- A step of the compilation that leaves a closed draft closed, and whose result refers to none but
the nonterminals that the draft then has. -/
def Closes {α : Type} (grammar : Grammar) (step : Lower α) (below : Nat → α → Prop) : Prop :=
  ∀ ⦃draft draft' : Draft⦄ ⦃a : α⦄, step draft = .ok (a, draft') → draft.Closed grammar →
    draft'.Closed grammar ∧ draft.productions.size ≤ draft'.productions.size ∧
      below draft'.productions.size a

section Closes

variable {α β : Type} {below : Nat → α → Prop}

theorem closes_pure {a : α} (h : ∀ count, grammar.rules.length ≤ count → below count a) :
    Closes grammar (pure a) below := by
  intro draft draft' b hstep hclosed
  obtain ⟨rfl, rfl⟩ := of_run_pure hstep
  exact ⟨hclosed, Nat.le_refl _, h _ hclosed.rules⟩

theorem closes_throw (error : LowerError) : Closes grammar (throw error : Lower α) below :=
  fun _ _ _ hstep => absurd hstep throw_ne_ok

/-- What the first step refers to is there after the second one too. -/
theorem closes_bind {first : Lower α} {next : α → Lower β} {belowNext : Nat → β → Prop}
    (hfirst : Closes grammar first below) (hmono : ∀ {m n a}, m ≤ n → below m a → below n a)
    (hnext : ∀ a, Closes grammar (next a) fun count b => below count a → belowNext count b) :
    Closes grammar (first >>= next) belowNext := by
  intro draft draft' b hstep hclosed
  obtain ⟨a, between, hone, htwo⟩ := exists_of_run_bind hstep
  obtain ⟨hclosed', hle, hbelow⟩ := hfirst hone hclosed
  obtain ⟨hclosed'', hle', hbelow'⟩ := hnext a htwo hclosed'
  exact ⟨hclosed'', hle.trans hle', hbelow' (hmono hle' hbelow)⟩

/-- A nonterminal for a part and the alternatives that it gets refer to what is there in the end. -/
theorem closes_part {rule : String} {content : Lower α}
    (alternatives : Nonterminal → α → List (List Atom)) (hcontent : Closes grammar content below)
    (h : ∀ count part a, part.index < count → below count a →
      AreBelow count (alternatives part a)) :
    Closes grammar (do
      let part ← reserve rule
      settle part (alternatives part (← content))
      return [.nonterminal part]) fun count atoms => AreBelow count [atoms] := by
  intro draft draft' atoms hstep hclosed
  obtain ⟨part, reserved, hreserve, hstep⟩ := exists_of_run_bind hstep
  obtain ⟨a, filled, hfilled, hstep⟩ := exists_of_run_bind hstep
  obtain ⟨_, settled, hsettle, hstep⟩ := exists_of_run_bind hstep
  obtain ⟨rfl, rfl⟩ := of_run_pure hstep
  obtain ⟨hreserved, hpart, hle⟩ := hclosed.reserve hreserve
  obtain ⟨hfilled, hle', hbelow⟩ := hcontent hfilled hreserved
  have hpart' : part.index < filled.productions.size := Nat.lt_of_lt_of_le hpart hle'
  obtain ⟨hsettled, hsize⟩ := hfilled.settle (h _ part a hpart' hbelow) hsettle
  refine ⟨hsettled, by omega, fun alternative hmem atom hatom => ?_⟩
  obtain rfl := List.mem_singleton.mp hmem
  obtain rfl := List.mem_singleton.mp hatom
  exact hsize ▸ hpart'

theorem closes_pattern (rule source : String) (flags : Option String) :
    Closes grammar (pattern rule source flags) fun _ _ => True := by
  intro draft draft' regex hstep hclosed
  -- Only the patterns that are kept change.
  have hsame : draft'.productions = draft.productions := by
    rw [pattern] at hstep
    split at hstep
    · obtain ⟨-, rfl⟩ := Prod.mk.inj (Except.ok.inj hstep)
      rfl
    · split at hstep
      · obtain ⟨-, rfl⟩ := Prod.mk.inj (Except.ok.inj hstep)
        rfl
      · cases hstep
      · cases hstep
  refine ⟨⟨hsame ▸ hclosed.rules, fun {i alternatives} hget => ?_⟩, Nat.le_of_eq (by rw [hsame]),
    trivial⟩
  rw [hsame] at hget ⊢
  exact hclosed.below hget

end Closes

/-! ## Expressions -/

section Below

variable {count : Nat} {atoms others : List Atom} {each rest : List (List Atom)}

theorem areBelow_nil : AreBelow count [] := fun _ hmem => absurd hmem List.not_mem_nil

theorem areBelow_cons : AreBelow count (atoms :: each) ↔
    AreBelow count [atoms] ∧ AreBelow count each := by
  simp only [AreBelow, List.forall_mem_cons, List.not_mem_nil, false_implies, implies_true,
    and_true]

theorem areBelow_append : AreBelow count [atoms ++ others] ↔
    AreBelow count [atoms] ∧ AreBelow count [others] := by
  simp only [AreBelow, List.forall_mem_singleton, List.forall_mem_append]

theorem areBelow_terminals (matchers : List Matcher) :
    AreBelow count [matchers.map Atom.terminal] := by
  intro alternative hmem atom hatom
  obtain rfl := List.mem_singleton.mp hmem
  obtain ⟨matcher, -, rfl⟩ := List.mem_map.mp hatom
  trivial

theorem areBelow_nonterminal {part : Nonterminal} (h : part.index < count) :
    AreBelow count [[.nonterminal part]] := by
  intro alternative hmem atom hatom
  obtain rfl := List.mem_singleton.mp hmem
  obtain rfl := List.mem_singleton.mp hatom
  exact h

theorem areBelow_starAlternatives {part : Nonterminal} (hpart : part.index < count)
    (h : AreBelow count [atoms]) : AreBelow count (starAlternatives part atoms) :=
  areBelow_cons.mpr ⟨areBelow_append.mpr ⟨h, areBelow_nonterminal hpart⟩,
    areBelow_terminals []⟩

theorem areBelow_plusAlternatives {part : Nonterminal} (hpart : part.index < count)
    (h : AreBelow count [atoms]) : AreBelow count (plusAlternatives part atoms) :=
  areBelow_cons.mpr ⟨areBelow_append.mpr ⟨h, areBelow_nonterminal hpart⟩, h⟩

end Below

mutual

/-- Flattening an expression leaves a draft closed. -/
theorem closes_atoms (grammar : Grammar) (name : String) :
    ∀ rule : Rule, Closes grammar (atoms grammar name rule) fun count atoms =>
      AreBelow count [atoms]
  | .blank => by
    rw [atoms]
    exact closes_pure fun count _ => areBelow_terminals []
  | .literal text => by
    rw [atoms]
    split
    · exact closes_throw _
    · refine closes_pure fun count _ => ?_
      have hmap : text.toList.map (fun c => Atom.terminal (.char c))
          = (text.toList.map Matcher.char).map Atom.terminal := by rw [List.map_map]; rfl
      rw [hmap]
      exact areBelow_terminals _
  | .pattern source flags => by
    rw [atoms]
    exact closes_bind (closes_pattern name source flags) (fun _ _ => trivial) fun regex =>
      closes_pure fun count _ _ => areBelow_terminals [.pattern regex]
  | .symbol reference => by
    rw [atoms]
    split
    · rename_i index hindex
      obtain ⟨rule, hget⟩ := Grammar.indexOf?_eq_some_iff.mp hindex
      have hlt : index < grammar.rules.length := (List.getElem?_eq_some_iff.mp hget).1
      exact closes_pure fun count hcount => areBelow_nonterminal (Nat.lt_of_lt_of_le hlt hcount)
    · exact closes_throw _
  | .sequence members => by
    rw [atoms]
    exact closes_atomsOfAll grammar name members
  | .choice members => by
    rw [atoms]
    exact closes_part (fun _ each => each) (closes_alternativesOfAll grammar name members)
      fun _ _ _ _ heach => heach
  | .star content => by
    rw [atoms]
    exact closes_part starAlternatives (closes_atoms grammar name content)
      fun _ _ _ => areBelow_starAlternatives
  | .plus content => by
    rw [atoms]
    exact closes_part plusAlternatives (closes_atoms grammar name content)
      fun _ _ _ => areBelow_plusAlternatives

theorem closes_atomsOfAll (grammar : Grammar) (name : String) :
    ∀ members : List Rule, Closes grammar (atomsOfAll grammar name members) fun count atoms =>
      AreBelow count [atoms]
  | [] => by
    rw [atomsOfAll]
    exact closes_pure fun count _ => areBelow_terminals []
  | member :: rest => by
    rw [atomsOfAll]
    exact closes_bind (closes_atoms grammar name member) (fun hle h => h.mono hle) fun first =>
      closes_bind (closes_atomsOfAll grammar name rest) (fun hle h => h.mono hle) fun others =>
        closes_pure fun count _ hothers hfirst => areBelow_append.mpr ⟨hfirst, hothers⟩

theorem closes_alternativesOfAll (grammar : Grammar) (name : String) :
    ∀ members : List Rule, Closes grammar (alternativesOfAll grammar name members) AreBelow
  | [] => by
    rw [alternativesOfAll]
    exact closes_pure fun count _ => areBelow_nil
  | member :: rest => by
    rw [alternativesOfAll]
    exact closes_bind (closes_atoms grammar name member) (fun hle h => h.mono hle) fun first =>
      closes_bind (closes_alternativesOfAll grammar name rest) (fun hle h => h.mono hle)
        fun others => closes_pure fun count _ hothers hfirst =>
          areBelow_cons.mpr ⟨hfirst, hothers⟩

end

/-- The alternatives of a rule that the draft has refer to what is there. -/
theorem closes_alternatives (grammar : Grammar) (name : String) (owner : Nonterminal)
    (howner : owner.index < grammar.rules.length) (rule : Rule) :
    Closes grammar (alternatives grammar name owner rule) AreBelow := by
  have hsingle {rule : Rule} :
      Closes grammar (do return [← atoms grammar name rule]) AreBelow :=
    closes_bind (closes_atoms grammar name rule) (fun hle h => h.mono hle) fun once =>
      closes_pure fun count _ honce => honce
  cases rule with
  | choice members =>
    rw [alternatives]
    exact closes_alternativesOfAll grammar name members
  | star content =>
    rw [alternatives]
    exact closes_bind (closes_atoms grammar name content) (fun hle h => h.mono hle) fun once =>
      closes_pure fun count hcount honce =>
        areBelow_starAlternatives (Nat.lt_of_lt_of_le howner hcount) honce
  | plus content =>
    rw [alternatives]
    exact closes_bind (closes_atoms grammar name content) (fun hle h => h.mono hle) fun once =>
      closes_pure fun count hcount honce =>
        areBelow_plusAlternatives (Nat.lt_of_lt_of_le howner hcount) honce
  | _ => exact hsingle

/-! ## Rules -/

/-- Compiling the rules from a number on leaves a draft closed. -/
theorem Draft.Closed.lowerRules {index : Nat} {rules : List (String × Rule)}
    (h : draft.Closed grammar) (hindex : index + rules.length ≤ grammar.rules.length)
    (hstep : Lowering.lowerRules grammar index rules draft = .ok ((), draft')) :
    draft'.Closed grammar := by
  induction rules generalizing index draft with
  | nil =>
    rw [Lowering.lowerRules] at hstep
    obtain ⟨-, rfl⟩ := of_run_pure hstep
    exact h
  | cons head rest ih =>
    obtain ⟨name, rule⟩ := head
    rw [List.length_cons] at hindex
    obtain ⟨each, flattened, halternatives, hrest⟩ := exists_of_lowerRules_cons hstep
    have hcounted : Draft.Closed grammar { draft with lastNumber := 0 } := ⟨h.rules, h.below⟩
    have howner : index < grammar.rules.length := by omega
    obtain ⟨hflattened, -, hbelow⟩ := closes_alternatives grammar name
      ⟨index⟩ howner rule halternatives hcounted
    have hsettle : Lowering.settle ⟨index⟩ each flattened = .ok ((), _) := rfl
    exact ih (hflattened.settle hbelow hsettle).1 (by omega) hrest

theorem closed_initial (grammar : Grammar) : (initial grammar).Closed grammar where
  rules := Nat.le_of_eq (size_initial grammar).symm
  below {i alternatives} hget := by
    simp only [initial, Array.getElem?_replicate] at hget
    split at hget
    · obtain rfl := Option.some.inj hget
      exact areBelow_nil
    · cases hget

end Lowering

namespace Program

open Lowering

/-- The start symbol and whatever is called have alternatives to go on with. -/
structure Closed (program : Program) : Prop where
  start : ∃ labels, program.entries? program.start = some labels
  callee {label : Label} {owner : Option Nonterminal} {before after : List Atom}
    {callee : Nonterminal} : program.Item label owner before (.nonterminal callee :: after) →
      ∃ labels, program.entries? callee = some labels

/-- A program that was compiled finds whatever it calls. -/
theorem closed_of_compile {grammar : Grammar} {program : Program}
    (h : Program.compile grammar = .ok program) : program.Closed := by
  obtain ⟨name, start, draft, -, hstart, hrun, rfl⟩ := compile_eq_ok h
  have hclosed : draft.Closed grammar :=
    (closed_initial grammar).lowerRules (by simp) hrun
  have hholds := Layout.holds_ofProductions draft.productions.toList
  have hentries {i : Nat} (hi : i < draft.productions.size) :
      ∃ labels, (Layout.ofProductions draft.productions.toList).entries[i]? = some labels := by
    have hlt : i < (Layout.ofProductions draft.productions.toList).entries.size := by
      rw [hholds.size, Array.length_toList]
      exact hi
    exact ⟨_, Array.getElem?_eq_getElem hlt⟩
  constructor
  · obtain ⟨rule, hget⟩ := Grammar.indexOf?_eq_some_iff.mp hstart
    have hlt : start < grammar.rules.length := (List.getElem?_eq_some_iff.mp hget).1
    exact hentries (Nat.lt_of_lt_of_le hlt hclosed.rules)
  · intro label owner before after callee hitem
    cases owner with
    | none => exact absurd hitem.eq_accept.2.2 (List.cons_ne_nil _ _)
    | some owner =>
      -- The item is of an alternative in the draft, which refers to the draft alone.
      have hmem := hitem.mem_rightHandSides
      rw [hholds.rightHandSides rfl rfl, Array.getElem?_toList] at hmem
      cases hget : draft.productions[owner.index]? with
      | none =>
        rw [hget] at hmem
        exact absurd hmem List.not_mem_nil
      | some alternatives =>
        rw [hget, Option.getD_some] at hmem
        exact hentries (hclosed.below hget _ hmem (.nonterminal callee) (by simp))

end Program

end Gll
