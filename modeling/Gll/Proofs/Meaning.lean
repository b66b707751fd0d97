import Gll.Grammar.Basic
import Gll.Pattern
import Gll.Proofs.Derivation
import Mathlib

/-!
What the rules of a grammar stand for.

A rule expression is read as a regular expression over languages: `Rule.language` gives its language
when that of every rule name is known. The rules of a grammar are then equations between languages,
one for each name, and `Grammar.language` is their least solution.

The other half of the comparison is the language of productions, and there the same two steps are
taken: `Atom.languageOfRow` is the language of a string of atoms when those of the nonterminals are
known, and the languages that the productions derive are the least that hold those of their
right-hand sides (`Productions.language_le`, `Productions.languageOfRow_le_language`). So both sides
are least solutions, and either is below the other as soon as it solves the other's inequations.

The algebra of languages is that of Mathlib: `1` is the language of the empty text, `*` puts texts
one after the other, `+` is the union and `∗` any number of repetitions.
-/

set_option autoImplicit false

open Computability

namespace Gll

/-! ## Rule expressions -/

mutual

/-- The language of a rule expression, given those of the rules it may refer to. -/
def Rule.language (meaning : String → Language Char) : Rule → Language Char
  | .blank => 1
  | .literal text => {text.toList}
  | .pattern source flags =>
    { text | ∃ regex c, Pattern.compile source flags = .ok regex ∧ regex.matchesChar c = true ∧
      text = [c] }
  | .symbol name => meaning name
  | .sequence members => Rule.languageOfRow meaning members
  | .choice members => Rule.languageOfAny meaning members
  | .star content => (content.language meaning)∗
  | .plus content => content.language meaning * (content.language meaning)∗

/-- The language of expressions one after the other. -/
def Rule.languageOfRow (meaning : String → Language Char) : List Rule → Language Char
  | [] => 1
  | member :: rest => member.language meaning * Rule.languageOfRow meaning rest

/-- The language of any one of several expressions; of none there is no text. -/
def Rule.languageOfAny (meaning : String → Language Char) : List Rule → Language Char
  | [] => 0
  | member :: rest => member.language meaning + Rule.languageOfAny meaning rest

end

mutual

/-- Larger languages for the names make the language of an expression larger. -/
theorem Rule.language_mono {meaning meaning' : String → Language Char} (h : meaning ≤ meaning') :
    ∀ rule : Rule, rule.language meaning ≤ rule.language meaning'
  | .blank => le_rfl
  | .literal _ => le_rfl
  | .pattern _ _ => le_rfl
  | .symbol name => h name
  | .sequence members => Rule.languageOfRow_mono h members
  | .choice members => Rule.languageOfAny_mono h members
  | .star content => by
    rw [Rule.language, Rule.language]
    exact kstar_mono (content.language_mono h)
  | .plus content => by
    rw [Rule.language, Rule.language]
    exact mul_le_mul' (content.language_mono h) (kstar_mono (content.language_mono h))

theorem Rule.languageOfRow_mono {meaning meaning' : String → Language Char}
    (h : meaning ≤ meaning') :
    ∀ members : List Rule,
      Rule.languageOfRow meaning members ≤ Rule.languageOfRow meaning' members
  | [] => le_rfl
  | member :: rest => by
    rw [Rule.languageOfRow, Rule.languageOfRow]
    exact mul_le_mul' (member.language_mono h) (Rule.languageOfRow_mono h rest)

theorem Rule.languageOfAny_mono {meaning meaning' : String → Language Char}
    (h : meaning ≤ meaning') :
    ∀ members : List Rule,
      Rule.languageOfAny meaning members ≤ Rule.languageOfAny meaning' members
  | [] => le_rfl
  | member :: rest => by
    rw [Rule.languageOfAny, Rule.languageOfAny]
    exact add_le_add (member.language_mono h) (Rule.languageOfAny_mono h rest)

end

/-! ## Grammars -/

namespace Grammar

variable (grammar : Grammar)

/-- The rule of a name. -/
def rule? (name : String) : Option Rule := grammar.rules.lookup name

variable {grammar}

/-- The place of a name is where its rule stands. -/
theorem indexOf?_eq_some_iff {name : String} {index : Nat} :
    grammar.indexOf? name = some index ↔ ∃ rule, grammar.rules[index]? = some (name, rule) := by
  rw [indexOf?, List.findIdx?_eq_some_iff_getElem]
  constructor
  · rintro ⟨hlt, hname, -⟩
    refine ⟨grammar.rules[index].2, ?_⟩
    rw [List.getElem?_eq_getElem hlt, ← eq_of_beq hname]
  · rintro ⟨rule, hget⟩
    obtain ⟨hlt, hentry⟩ := List.getElem?_eq_some_iff.mp hget
    refine ⟨hlt, by rw [hentry]; exact beq_self_eq_true name, fun j hj hname => ?_⟩
    -- Two places with one name are one place.
    have hsame : (grammar.rules.map Prod.fst)[j]? = (grammar.rules.map Prod.fst)[index]? := by
      rw [List.getElem?_map, List.getElem?_map, hget, List.getElem?_eq_getElem (by omega)]
      exact congrArg some (eq_of_beq hname)
    have hjlt : j < (grammar.rules.map Prod.fst).length := by
      rw [List.length_map]
      omega
    have heq := (List.getElem?_inj hjlt grammar.nodup).mp hsame
    omega

theorem rule?_of_getElem? {name : String} {index : Nat} {rule : Rule}
    (h : grammar.rules[index]? = some (name, rule)) : grammar.rule? name = some rule := by
  have hlookup (rules : List (String × Rule)) (hnodup : (rules.map Prod.fst).Nodup)
      (hmem : (name, rule) ∈ rules) : rules.lookup name = some rule := by
    induction rules with
    | nil => exact absurd hmem List.not_mem_nil
    | cons head rest ih =>
      rw [List.map_cons, List.nodup_cons] at hnodup
      rcases List.mem_cons.mp hmem with rfl | hrest
      · rw [List.lookup_cons, beq_self_eq_true]
      · have hne : name ≠ head.1 := by
          rintro rfl
          exact hnodup.1 (List.mem_map.mpr ⟨_, hrest, rfl⟩)
        rw [List.lookup_cons, beq_false_of_ne hne]
        exact ih hnodup.2 hrest
  exact hlookup grammar.rules grammar.nodup (List.mem_of_getElem? h)

theorem exists_getElem?_of_rule? {name : String} {rule : Rule}
    (h : grammar.rule? name = some rule) :
    ∃ index : Nat, grammar.rules[index]? = some (name, rule) := by
  have hmem (rules : List (String × Rule)) (h : rules.lookup name = some rule) :
      (name, rule) ∈ rules := by
    induction rules with
    | nil => simp at h
    | cons head rest ih =>
      rw [List.lookup_cons] at h
      split at h
      · rename_i heq
        rw [eq_of_beq heq, ← Option.some.inj h]
        exact List.mem_cons_self
      · exact List.mem_cons_of_mem _ (ih h)
  exact List.getElem?_of_mem (hmem grammar.rules h)

variable (grammar)

/-- The right-hand sides of the equations that the rules of a grammar are: what each name stands
for, when it is known what every name stands for. A name without a rule stands for nothing. -/
def equations : (String → Language Char) →o (String → Language Char) where
  toFun meaning name :=
    match grammar.rule? name with
    | some rule => rule.language meaning
    | none => 0
  monotone' := by
    intro meaning meaning' h name
    dsimp only
    cases grammar.rule? name with
    | none => exact le_rfl
    | some rule => exact rule.language_mono h

/-- The languages of the rules: the least solution of the equations. -/
def language : String → Language Char := grammar.equations.lfp

variable {grammar}

theorem equations_of_rule? {meaning : String → Language Char} {name : String} {rule : Rule}
    (h : grammar.rule? name = some rule) :
    grammar.equations meaning name = rule.language meaning := by
  rw [show grammar.equations meaning name = match grammar.rule? name with
    | some rule => rule.language meaning
    | none => 0 from rfl, h]

theorem equations_of_not_rule? {meaning : String → Language Char} {name : String}
    (h : grammar.rule? name = none) : grammar.equations meaning name = 0 := by
  rw [show grammar.equations meaning name = match grammar.rule? name with
    | some rule => rule.language meaning
    | none => 0 from rfl, h]

theorem language_eq {name : String} {rule : Rule} (h : grammar.rule? name = some rule) :
    grammar.language name = rule.language grammar.language := by
  have hfix : grammar.equations grammar.language = grammar.language :=
    grammar.equations.map_lfp
  rw [← equations_of_rule? h, hfix]

/-- The languages of the rules are below any that solve the equations. -/
theorem language_le {meaning : String → Language Char}
    (h : ∀ name rule, grammar.rule? name = some rule → rule.language meaning ≤ meaning name) :
    grammar.language ≤ meaning := by
  refine grammar.equations.lfp_le fun name => ?_
  cases hrule : grammar.rule? name with
  | none =>
    rw [equations_of_not_rule? hrule]
    exact bot_le
  | some rule =>
    rw [equations_of_rule? hrule]
    exact h name rule hrule

end Grammar

/-! ## Atoms -/

/-- The language of an atom, given those of the nonterminals. -/
def Atom.language (meaning : Nonterminal → Language Char) : Atom → Language Char
  | .terminal matcher => { text | ∃ c, matcher.accepts c = true ∧ text = [c] }
  | .nonterminal callee => meaning callee

/-- The language of a string of atoms. -/
def Atom.languageOfRow (meaning : Nonterminal → Language Char) (atoms : List Atom) :
    Language Char :=
  (atoms.map (Atom.language meaning)).prod

namespace Atom

variable {meaning : Nonterminal → Language Char}

@[simp] theorem languageOfRow_nil : languageOfRow meaning [] = 1 := rfl

@[simp] theorem languageOfRow_cons (atom : Atom) (atoms : List Atom) :
    languageOfRow meaning (atom :: atoms) = atom.language meaning * languageOfRow meaning atoms :=
  List.prod_cons

@[simp] theorem languageOfRow_append (left right : List Atom) :
    languageOfRow meaning (left ++ right)
      = languageOfRow meaning left * languageOfRow meaning right := by
  rw [languageOfRow, List.map_append, List.prod_append]
  rfl

theorem languageOfRow_nonterminal (callee : Nonterminal) :
    languageOfRow meaning [.nonterminal callee] = meaning callee :=
  mul_one _

/-- Tests for the characters of a text, one after the other, stand for that text. -/
theorem languageOfRow_chars (chars : List Char) :
    languageOfRow meaning (chars.map fun c => .terminal (.char c)) = {chars} := by
  induction chars with
  | nil => rfl
  | cons first rest ih =>
    rw [List.map_cons, languageOfRow_cons, ih]
    ext text
    rw [Language.mem_mul]
    constructor
    · rintro ⟨_, ⟨c, hc, rfl⟩, _, rfl, rfl⟩
      rw [← eq_of_beq hc]
      rfl
    · rintro rfl
      exact ⟨[first], ⟨first, beq_self_eq_true first, rfl⟩, rest, rfl, rfl⟩

end Atom

namespace Productions

variable {productions : Productions}

/-- What a string of atoms derives is read off the languages of its atoms. -/
theorem yields_iff_mem_languageOfRow {atoms : List Atom} {text : List Char} :
    productions.Yields atoms text ↔ text ∈ Atom.languageOfRow productions.language atoms := by
  induction atoms generalizing text with
  | nil => exact yields_nil_iff
  | cons atom atoms ih =>
    rw [Atom.languageOfRow_cons, Language.mem_mul]
    constructor
    · intro h
      cases h with
      | terminal haccepts hrest => exact ⟨[_], ⟨_, haccepts, rfl⟩, _, ih.mp hrest, rfl⟩
      | nonterminal hmem hfirst hrest =>
        exact ⟨_, mem_language.mpr ⟨_, hmem, hfirst⟩, _, ih.mp hrest, rfl⟩
    · rintro ⟨first, hfirst, rest, hrest, rfl⟩
      cases atom with
      | terminal matcher =>
        obtain ⟨c, haccepts, rfl⟩ := hfirst
        exact .terminal haccepts (ih.mpr hrest)
      | nonterminal callee =>
        obtain ⟨alternative, hmem, hyields⟩ := mem_language.mp hfirst
        exact .nonterminal hmem hyields (ih.mpr hrest)

/-- A nonterminal derives what its right-hand sides derive. -/
theorem languageOfRow_le_language {nonterminal : Nonterminal} {alternative : List Atom}
    (hmem : alternative ∈ productions nonterminal) :
    Atom.languageOfRow productions.language alternative ≤ productions.language nonterminal :=
  fun _ htext => mem_language.mpr ⟨alternative, hmem, yields_iff_mem_languageOfRow.mpr htext⟩

/-- The languages that productions derive are below any that hold the languages of the right-hand
sides. -/
theorem language_le {meaning : Nonterminal → Language Char}
    (h : ∀ nonterminal, ∀ alternative ∈ productions nonterminal,
      Atom.languageOfRow meaning alternative ≤ meaning nonterminal) (nonterminal : Nonterminal) :
    productions.language nonterminal ≤ meaning nonterminal := by
  have hrow {atoms : List Atom} {text : List Char} (hyields : productions.Yields atoms text) :
      text ∈ Atom.languageOfRow meaning atoms := by
    induction hyields with
    | nil => exact Language.nil_mem_one
    | @terminal matcher c _ _ haccepts _ ih =>
      have hchar : [c] ∈ Atom.language meaning (.terminal matcher) := ⟨c, haccepts, rfl⟩
      exact Language.append_mem_mul hchar ih
    | nonterminal hmem _ _ ihfirst ihrest =>
      exact Language.append_mem_mul (h _ _ hmem ihfirst) ihrest
  intro text htext
  have hmem : text ∈ Atom.languageOfRow meaning [.nonterminal nonterminal] := hrow htext
  rw [Atom.languageOfRow_nonterminal] at hmem
  exact hmem

end Productions

end Gll
